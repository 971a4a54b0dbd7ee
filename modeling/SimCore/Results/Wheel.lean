import Mathlib.Data.Int.CardIntervalMod
import Mathlib.Data.List.GetD
import Mathlib.Data.List.Nodup
import SimCore.Resource.Routing

/-!
# Weighted round robin

The slots of the candidates lie one after the other on a wheel, and the cursor of the service moves
on by one slot with every selection. One turn of the wheel, from whatever slot, selects every
candidate as often as it has slots. The slots are added up in the integers of the machine; a total
that wraps around to a negative number makes the code fall back to plain round robin, which comes
to the same only if all candidates have equally many slots.

## Main definitions

* `Manager.selectInstances`: a sequence of selections for a service

## Main results

* `weightedRoundRobin_turn`: when one turn of the wheel selects every candidate as often as it has
  slots
-/

namespace SimCore.Resource

open Config List

namespace Manager

/-- Selections for requests of a service, one after the other. -/
def selectInstances (m : Manager) (oracle : RoutingOracle) (svc : String) :
    List (RoutingRequest × Time) → Except String (List String × Manager)
  | [] => .ok ([], m)
  | (req, t) :: reqs =>
    match m.selectInstanceForRequest oracle svc req t with
    | .error err => .error err
    | .ok (choice, m) =>
      match m.selectInstances oracle svc reqs with
      | .error err => .error err
      | .ok (choices, m) => .ok (choice.1 :: choices, m)

/-! ### The wheel -/

theorem wrapInt64_wrapInt64_add (x y : Int) : wrapInt64 (wrapInt64 x + y) = wrapInt64 (x + y) := by
  unfold wrapInt64
  omega

/-- The slots are added up modulo `2 ^ 64`. -/
theorem wheelTotal_eq (slots : List Nat) : wheelTotal slots = wrapInt64 slots.sum := by
  have hf : ∀ b : Int, slots.foldl (fun (total : Int) (n : Nat) => wrapInt64 (total + n))
      (wrapInt64 b) = wrapInt64 (b + slots.sum) := by
    induction slots with
    | nil => simp
    | cons n slots ih =>
      intro b
      rw [foldl_cons, wrapInt64_wrapInt64_add, ih, sum_cons, Nat.cast_add, add_assoc]
  have h0 := hf 0
  rwa [zero_add] at h0

/-- The slots of the wheel in the order of the cursor. -/
theorem map_wheelPick (f : String → Nat) (ids : List String) {b : Nat}
    (hb : b + (ids.map f).sum < 2 ^ 63) :
    (List.range (ids.map f).sum).map (fun c => wheelPick (b + c) b ids (ids.map f)) =
      ids.flatMap fun id => List.replicate (f id) id := by
  induction ids generalizing b with
  | nil => rfl
  | cons id ids ih =>
    rw [map_cons, sum_cons] at hb
    have ht : wrapInt64 (b + f id) = (b + f id : Nat) := by
      rw [wrapInt64_of_lt (by omega) (by omega), Nat.cast_add]
    have hf : (range (f id)).map (fun c => wheelPick (b + c) b (id :: ids) (f id :: ids.map f)) =
        replicate (f id) id := by
      refine eq_replicate_iff.2 ⟨by simp, fun x hx => ?_⟩
      obtain ⟨cursor, hc, rfl⟩ := mem_map.1 hx
      have hc := mem_range.1 hc
      simp only [wheelPick, ht]
      exact if_pos (.inl (by omega))
    have hr : ∀ cursor ∈ range (ids.map f).sum,
        wheelPick (b + (f id + cursor)) b (id :: ids) (f id :: ids.map f) =
          wheelPick (b + f id + cursor) (b + f id : Nat) ids (ids.map f) := by
      intro cursor hc
      have hne : ids ≠ [] := by
        rintro rfl
        simp at hc
      simp only [wheelPick, ht]
      rw [if_neg (by simp [hne]), ← Nat.add_assoc]
    have hi := ih (b := b + f id) (by rwa [Nat.add_assoc])
    rw [map_cons, sum_cons, range_add, map_append, map_map, hf, flatMap_cons, ← hi]
    refine congrArg (replicate (f id) id ++ ·) (map_congr_left fun c hc => ?_)
    rw [Function.comp_apply, hr c hc]

/-- Every candidate is on the wheel as often as it has slots. -/
theorem count_slots (f : String → Nat) {ids : List String} (hi : ids.Nodup) (id : String) :
    (ids.flatMap fun id => List.replicate (f id) id).count id = if id ∈ ids then f id else 0 := by
  induction ids with
  | nil => rfl
  | cons x ids ih =>
    have hr := ih hi.of_cons
    by_cases heq : x = id
    · subst heq
      simp [hr, (nodup_cons.1 hi).1]
    · simp [count_replicate, hr, heq, Ne.symm heq]

/-- From any slot, the cursor passes every slot of the wheel once in one turn. -/
theorem perm_turn (cursor total : Nat) :
    ((List.range total).map fun i => (cursor + i) % total).Perm (List.range total) := by
  rcases Nat.eq_zero_or_pos total with rfl | hp
  · simp
  have hn : ((range total).map fun i => (cursor + i) % total).Nodup := by
    refine List.Nodup.map_on (fun i hi j hj h => ?_) nodup_range
    have hm : i % total = j % total := Nat.ModEq.add_left_cancel' cursor h
    rwa [Nat.mod_eq_of_lt (mem_range.1 hi), Nat.mod_eq_of_lt (mem_range.1 hj)] at hm
  refine (subperm_of_subset hn fun x hx => ?_).perm_of_length_le (by simp)
  obtain ⟨i, -, rfl⟩ := mem_map.1 hx
  exact mem_range.2 (Nat.mod_lt _ hp)

/-- A cursor below the slots of the first candidate that has any selects this candidate. -/
theorem wheelPick_first {f : String → Nat} {ids : List String} {id : String} {c : Nat}
    (hf : ids.find? (0 < f ·) = some id) (hlt : f id < 2 ^ 63) (hc : c < f id) :
    wheelPick c 0 ids (ids.map f) = id := by
  induction ids with
  | nil => simp at hf
  | cons x ids ih =>
    by_cases hx : 0 < f x
    · obtain rfl : x = id := by simpa [hx] using hf
      have ht : wrapInt64 (0 + f x) = f x := by
        rw [zero_add]
        exact wrapInt64_of_lt (by omega) (by omega)
      simp only [map_cons, wheelPick, ht]
      exact if_pos (.inl (by omega))
    · have hf : ids.find? (0 < f ·) = some id := by simpa [hx] using hf
      have hz : f x = 0 := by omega
      have hne : ids ≠ [] := by
        rintro rfl
        simp at hf
      have ht : wrapInt64 (0 + (0 : Nat)) = 0 := rfl
      simp only [map_cons, wheelPick, hz, ht]
      rw [if_neg (by simp [hne]), ih hf]

/-- If the wheel is shorter than the slots on it, one round of as many selections as there are slots
selects the first candidate with slots too often. -/
theorem lt_count_first {f : String → Nat} {ids : List String} {id : String}
    (hf : ids.find? (0 < f ·) = some id) (hlt : f id < 2 ^ 63) (len total : Nat) (hl : 0 < len)
    (ht : max len (f id) < total) :
    f id < ((List.range total).map fun i =>
      wheelPick ((0 + i) % len) 0 ids (ids.map f)).count id := by
  have hp : 0 < f id := by simpa using find?_some hf
  have hsub : (max len (f id) :: range (f id)).Subperm (range total) := by
    refine subperm_of_subset (nodup_cons.2 ⟨by simp, nodup_range⟩) fun i hi => mem_range.2 ?_
    rcases mem_cons.1 hi with rfl | hi
    · exact ht
    · have := mem_range.1 hi
      omega
  have hall : ∀ i ∈ max len (f id) :: range (f id), i % len < f id := by
    intro i hi
    rcases mem_cons.1 hi with rfl | hi
    · rcases le_total len (f id) with hle | hle
      · rw [max_eq_right hle]
        exact (Nat.mod_lt _ hl).trans_le hle
      · rwa [max_eq_left hle, Nat.mod_self]
    · exact (Nat.mod_le i len).trans_lt (mem_range.1 hi)
  rw [count_eq_countP, countP_map]
  refine lt_of_lt_of_le ?_ (hsub.countP_le _)
  rw [countP_eq_length.2 fun i hi => ?_]
  · simp
  · simpa using wheelPick_first hf hlt (by simpa using hall i hi)

/-- How often plain round robin from a position selects a candidate. -/
theorem count_roundRobin {ids : List String} (hi : ids.Nodup) {c p : Nat} (hc : c < ids.length)
    (hp : p < ids.length) (total : Nat) :
    ((List.range total).map fun i => ids.getD ((c + i) % ids.length) "").count (ids.get ⟨p, hp⟩) =
      total / ids.length +
        if (p + ids.length - c) % ids.length < total % ids.length then 1 else 0 := by
  have hn : 0 < ids.length := by omega
  rw [← Nat.count_modEq_card total hn, count_eq_countP, countP_map, Nat.count]
  refine countP_congr fun i _ => ?_
  have hg := Nat.mod_lt (c + i) hn
  have he : (c + i) % ids.length = p ↔ i ≡ p + ids.length - c [MOD ids.length] := by
    have hv : c + (p + ids.length - c) = p + ids.length := by omega
    have hpm : p % ids.length = p := Nat.mod_eq_of_lt hp
    refine ⟨fun h => Nat.ModEq.add_left_cancel' c ?_, fun h => ?_⟩
    · rw [hv, Nat.ModEq, h, Nat.add_mod_right, hpm]
    · have ha := h.add_left c
      rwa [hv, Nat.ModEq, Nat.add_mod_right, hpm] at ha
  simp only [Function.comp_apply, beq_iff_eq, decide_eq_true_eq, ← he, List.getD_eq_getElem _ _ hg,
    get_eq_getElem]
  exact hi.getElem_inj_iff

/-! ### Selections -/

/-- The slots of the candidates of a service under a policy. -/
def slots (m : Manager) (svc : String) (pol : RoutingPolicy) : List Nat :=
  wheel (m.sortedServiceInstMap svc) (some pol)

/-- Requests of a service that all have the same policy of weighted round robin, among the same
candidates, some of which have a slot. -/
structure Weighted (m : Manager) (svc : String) (pol : RoutingPolicy)
    (reqs : List (RoutingRequest × Time)) : Prop where
  nodup : (m.sortedServiceInstMap svc).Nodup
  policy : ∀ r ∈ reqs, m.routingPolicyForRequest svc r.1 = some pol
  strategy : normalizeRoutingStrategy pol.strategy = "weighted_round_robin"
  everywhere : ∀ r ∈ reqs, m.applyLocalityPreference (m.sortedServiceInstMap svc) (some pol) r.1 =
    m.sortedServiceInstMap svc
  total_pos : 0 < (m.slots svc pol).sum

/-- The manager with the cursors of a service at a slot of the wheel and at a candidate. -/
def withCursors (m : Manager) (svc : String) (slot position : Nat) : Manager :=
  { m with
    weightedRoundRobinIdx := Function.update m.weightedRoundRobinIdx svc slot
    roundRobinIdx := Function.update m.roundRobinIdx svc position }

variable {m : Manager} {svc : String} {pol : RoutingPolicy} {reqs : List (RoutingRequest × Time)}
  {oracle : RoutingOracle}

/-- Selections that move a cursor round a cycle. -/
theorem selectInstances_cycle {len : Nat} (pick : Nat → String) (start : Nat → Nat)
    (managers : Nat → Manager) (hlt : ∀ k, start k < len) (hst : ∀ k < len, start k = k)
    (hs : ∀ k, ∀ r ∈ reqs, ∃ strategy, (managers k).selectInstanceForRequest oracle svc r.1 r.2 =
      .ok ((pick (start k), strategy), managers ((start k + 1) % len))) (k : Nat) :
    ∃ m', (managers k).selectInstances oracle svc reqs =
      .ok ((List.range reqs.length).map fun i => pick ((start k + i) % len), m') := by
  induction reqs generalizing k with
  | nil => exact ⟨_, rfl⟩
  | cons r reqs ih =>
    obtain ⟨strategy, hr⟩ := hs k r mem_cons_self
    have hlen : 0 < len := (Nat.zero_le _).trans_lt (hlt k)
    obtain ⟨m', hre⟩ := ih (fun k r hr => hs k r (mem_cons_of_mem _ hr)) ((start k + 1) % len)
    refine ⟨m', ?_⟩
    simp only [Manager.selectInstances, hr, hre]
    rw [length_cons, range_succ_eq_map, map_cons, map_map]
    simp only [Nat.add_zero, Nat.mod_eq_of_lt (hlt k)]
    refine congrArg (fun l => Except.ok (_ :: l, m')) (map_congr_left fun i _ => ?_)
    rw [hst _ (Nat.mod_lt _ hlen), Nat.mod_add_mod, Nat.add_right_comm, Nat.add_assoc]
    rfl

theorem Weighted.ne_nil (h : m.Weighted svc pol reqs) : m.sortedServiceInstMap svc ≠ [] := by
  intro hn
  have hp := h.total_pos
  simp [slots, hn, wheel] at hp

theorem Weighted.select (h : m.Weighted svc pol reqs) {r : RoutingRequest × Time} (hr : r ∈ reqs)
    (slot position : Nat) :
    (m.withCursors svc slot position).selectInstanceForRequest oracle svc r.1 r.2 =
      .ok ((m.withCursors svc slot position).selectWeighted svc (m.sortedServiceInstMap svc)
        (some pol)) := by
  have hpol : (m.withCursors svc slot position).routingPolicyForRequest svc r.1 = some pol :=
    h.policy r hr
  have hall : (m.withCursors svc slot position).applyLocalityPreference
      (m.sortedServiceInstMap svc) (some pol) r.1 = m.sortedServiceInstMap svc := h.everywhere r hr
  have hids : (m.withCursors svc slot position).sortedServiceInstMap svc =
      m.sortedServiceInstMap svc := rfl
  simp [selectInstanceForRequest, hids, hpol, hall, h.ne_nil, h.strategy]

/-- With a positive total, the cursor moves round the wheel. -/
theorem Weighted.selectInstances (h : m.Weighted svc pol reqs) (oracle : RoutingOracle)
    (hp : 0 < wheelTotal (m.slots svc pol)) (slot position : Nat) :
    ∃ m', (m.withCursors svc slot position).selectInstances oracle svc reqs =
      .ok ((List.range reqs.length).map fun i =>
        wheelPick ((slot % (wheelTotal (m.slots svc pol)).toNat + i) %
          (wheelTotal (m.slots svc pol)).toNat) 0 (m.sortedServiceInstMap svc) (m.slots svc pol),
        m') := by
  have hpos : 0 < (wheelTotal (m.slots svc pol)).toNat := by omega
  refine selectInstances_cycle
    (fun c => wheelPick c 0 (m.sortedServiceInstMap svc) (m.slots svc pol))
    (· % (wheelTotal (m.slots svc pol)).toNat) (fun k => m.withCursors svc k position)
    (fun k => Nat.mod_lt k hpos) (fun k hk => Nat.mod_eq_of_lt hk)
    (fun k r hr => ⟨"weighted_round_robin", ?_⟩) slot
  have hn : ¬ wheelTotal (wheel (m.sortedServiceInstMap svc) (some pol)) ≤ 0 := not_le.2 hp
  rw [h.select hr, selectWeighted]
  simp [hn, withCursors, slots]

/-- Without one, the cursor moves round the candidates. -/
theorem Weighted.selectInstances_fallback (h : m.Weighted svc pol reqs) (oracle : RoutingOracle)
    (hn : wheelTotal (m.slots svc pol) ≤ 0) (slot position : Nat) :
    ∃ m', (m.withCursors svc slot position).selectInstances oracle svc reqs =
      .ok ((List.range reqs.length).map fun i => (m.sortedServiceInstMap svc).getD
        (((if position ≥ (m.sortedServiceInstMap svc).length then 0 else position) + i) %
          (m.sortedServiceInstMap svc).length) "", m') := by
  have hpos := length_pos_iff.2 h.ne_nil
  refine selectInstances_cycle (fun c => (m.sortedServiceInstMap svc).getD c "")
    (fun k => if k ≥ (m.sortedServiceInstMap svc).length then 0 else k)
    (fun k => m.withCursors svc slot k) (fun k => ?_) (fun k hk => ?_)
    (fun k r hr => ⟨"round_robin", ?_⟩) position
  · split_ifs <;> omega
  · rw [if_neg (by omega)]
  · have hn : wheelTotal (wheel (m.sortedServiceInstMap svc) (some pol)) ≤ 0 := hn
    rw [h.select hr, selectWeighted]
    simp [hn, withCursors, selectRoundRobin]

end Manager

/-- The selections of one turn are as the weights say: every candidate is selected as often as it
has slots, and never without weight. -/
def Proportional (m : Manager) (svc : String) (pol : RoutingPolicy) (choices : List String) :
    Prop :=
  ∀ id ∈ m.sortedServiceInstMap svc,
    choices.count id = Manager.weightedWheelSlots ((pol.weights.lookup id).getD 1) ∧
      ((pol.weights.lookup id).getD 1 ≤ 0 → id ∉ choices)

theorem proportional_iff {m : Manager} {svc : String} {pol : RoutingPolicy}
    {choices : List String} : Proportional m svc pol choices ↔ ∀ id ∈ m.sortedServiceInstMap svc,
      choices.count id = Manager.weightedWheelSlots ((pol.weights.lookup id).getD 1) := by
  refine forall₂_congr fun id _ => and_iff_left_of_imp fun hco hw hm => ?_
  exact count_eq_zero.1 (hco.trans (if_pos hw)) hm

section

variable {m : Manager} {svc : String} {pol : RoutingPolicy} {reqs : List (RoutingRequest × Time)}
  {oracle : RoutingOracle} (h : m.Weighted svc pol reqs)
  (hturn : reqs.length = (m.slots svc pol).sum)
include h hturn

theorem proportional_of_lt (hlt : (m.slots svc pol).sum < 2 ^ 63) (slot position : Nat) :
    ∃ choices m', (m.withCursors svc slot position).selectInstances oracle svc reqs =
      .ok (choices, m') ∧ Proportional m svc pol choices := by
  have ht : Manager.wheelTotal (m.slots svc pol) = (m.slots svc pol).sum := by
    rw [Manager.wheelTotal_eq]
    exact wrapInt64_of_lt (by omega) (by omega)
  have hp := h.total_pos
  obtain ⟨m', hc⟩ := h.selectInstances oracle (by omega) slot position
  rw [hturn, ht, Int.toNat_natCast] at hc
  refine ⟨_, m', hc, proportional_iff.2 fun id hid => ?_⟩
  have hp := (Manager.perm_turn (slot % (m.slots svc pol).sum) (m.slots svc pol).sum).map
    fun c => Manager.wheelPick c 0 (m.sortedServiceInstMap svc) (m.slots svc pol)
  rw [map_map] at hp
  have hs := Manager.map_wheelPick (b := 0)
    (fun id => Manager.weightedWheelSlots ((pol.weights.lookup id).getD 1))
    (m.sortedServiceInstMap svc) (by simpa [Manager.slots, Manager.wheel] using hlt)
  simp only [Nat.zero_add] at hs
  exact (hp.count_eq id).trans
    ((congrArg (count id) hs).trans ((Manager.count_slots _ h.nodup id).trans (if_pos hid)))

/-- Plain round robin selects all candidates equally often. -/
theorem proportional_fallback_iff (hn : Manager.wheelTotal (m.slots svc pol) ≤ 0) :
    (∀ slot position, ∃ choices m',
      (m.withCursors svc slot position).selectInstances oracle svc reqs = .ok (choices, m') ∧
      Proportional m svc pol choices) ↔
    ∀ n ∈ m.slots svc pol, ∀ n' ∈ m.slots svc pol, n = n' := by
  set ids := m.sortedServiceInstMap svc with hids
  set f := fun id => Manager.weightedWheelSlots ((pol.weights.lookup id).getD 1) with hf
  have hsl : m.slots svc pol = ids.map f := rfl
  have hpos : 0 < ids.length := length_pos_iff.2 h.ne_nil
  constructor
  · intro hall
    -- from its own position, every candidate gets the same share
    have he : ∀ n ∈ m.slots svc pol, n = (m.slots svc pol).sum / ids.length +
        if 0 < (m.slots svc pol).sum % ids.length then 1 else 0 := by
      intro n hmem
      rw [hsl] at hmem
      obtain ⟨id, hid, rfl⟩ := mem_map.1 hmem
      obtain ⟨⟨p, hp⟩, rfl⟩ := get_of_mem hid
      obtain ⟨choices, m', hc, hpr⟩ := hall 0 p
      obtain ⟨m'', hc'⟩ := h.selectInstances_fallback oracle hn 0 p
      obtain ⟨rfl, -⟩ := Prod.mk.inj (Except.ok.inj (hc.symm.trans hc'))
      have hco := (proportional_iff.1 hpr _ hid).symm
      rw [hturn, if_neg (not_le.2 hp), Manager.count_roundRobin h.nodup hp hp] at hco
      simpa using hco
    exact fun n hmem n' hmem' => (he n hmem).trans (he n' hmem').symm
  · intro heq slot position
    obtain ⟨m', hc⟩ := h.selectInstances_fallback oracle hn slot position
    refine ⟨_, m', hc, proportional_iff.2 fun id hid => ?_⟩
    obtain ⟨⟨p, hp⟩, rfl⟩ := get_of_mem hid
    have hsum : (m.slots svc pol).sum = f (ids.get ⟨p, hp⟩) * ids.length := by
      have hre : m.slots svc pol = replicate ids.length (f (ids.get ⟨p, hp⟩)) :=
        eq_replicate_iff.2 ⟨by simp [hsl], fun n hmem =>
          heq n hmem _ (hsl ▸ mem_map_of_mem hid)⟩
      rw [hre, sum_replicate_nat, Nat.mul_comm]
    have hst : (if position ≥ ids.length then 0 else position) < ids.length := by
      split_ifs <;> omega
    rw [hturn, Manager.count_roundRobin h.nodup hst hp, hsum, Nat.mul_div_cancel _ hpos,
      Nat.mul_mod_left, if_neg (Nat.not_lt_zero _), Nat.add_zero]

/-- One turn of the wheel, from whatever cursors, selects every candidate as often as it has slots,
and never one without weight, exactly if the slots add up to an integer of the machine, or wrap
around to no positive total and are equally many for all candidates. -/
theorem weightedRoundRobin_turn :
    (∀ slot position, ∃ choices m',
      (m.withCursors svc slot position).selectInstances oracle svc reqs = .ok (choices, m') ∧
      Proportional m svc pol choices) ↔
    (m.slots svc pol).sum < 2 ^ 63 ∨ wrapInt64 (m.slots svc pol).sum ≤ 0 ∧
      ∀ n ∈ m.slots svc pol, ∀ n' ∈ m.slots svc pol, n = n' := by
  rw [← Manager.wheelTotal_eq]
  by_cases hlt : (m.slots svc pol).sum < 2 ^ 63
  · exact iff_of_true (proportional_of_lt h hturn hlt) (.inl hlt)
  by_cases hn : Manager.wheelTotal (m.slots svc pol) ≤ 0
  · rw [proportional_fallback_iff h hturn hn]
    exact ⟨fun heq => .inr ⟨hn, heq⟩, fun hc => (hc.resolve_left hlt).2⟩
  · refine iff_of_false (fun hall => ?_) fun hc => hn (hc.resolve_left hlt).1
    obtain ⟨choices, m', hc, hpr⟩ := hall 0 0
    obtain ⟨m'', hc'⟩ := h.selectInstances oracle (not_le.1 hn) 0 0
    obtain ⟨rfl, -⟩ := Prod.mk.inj (Except.ok.inj (hc.symm.trans hc'))
    set f := fun id => Manager.weightedWheelSlots ((pol.weights.lookup id).getD 1) with hf
    have hsl : m.slots svc pol = (m.sortedServiceInstMap svc).map f := rfl
    have hex : ((m.sortedServiceInstMap svc).find? (0 < f ·)).isSome := by
      rw [find?_isSome]
      by_contra hno
      push Not at hno
      have hz := h.total_pos
      rw [hsl, sum_eq_zero fun n hmem => ?_] at hz
      · exact absurd hz (lt_irrefl 0)
      · obtain ⟨id, hid, rfl⟩ := mem_map.1 hmem
        simpa using hno id hid
    obtain ⟨id, hid⟩ := Option.isSome_iff_exists.1 hex
    have hle : f id < 2 ^ 63 := Manager.weightedWheelSlots_lt _
    have hw := Manager.wheelTotal_eq (m.slots svc pol)
    have hlen : (Manager.wheelTotal (m.slots svc pol)).toNat < 2 ^ 63 := by
      rw [hw]
      unfold wrapInt64
      omega
    have hco := Manager.lt_count_first hid hle (Manager.wheelTotal (m.slots svc pol)).toNat
      (m.slots svc pol).sum (by omega) (by omega)
    rw [hturn, Nat.zero_mod] at hpr
    exact hco.ne' (proportional_iff.1 hpr id (mem_of_find?_eq_some hid))

end

/-- Two instances, of which one has two slots and the other has none. -/
def lopsided : RoutingPolicy where
  strategy := "weighted_round_robin"
  weights := [("a", 1 / 500), ("b", 0)]

theorem weightedRoundRobin_turn_lopsided :
    let m : Manager := { sortedServiceInstMap := fun _ => ["a", "b"]
                         serviceRouting := fun _ => some lopsided }
    ∃ choices m', (m.withCursors "s" 5 7).selectInstances ⟨fun _ _ => 0, fun _ => 0, fun _ _ h => h⟩
        "s" (replicate 2 (⟨"/", fun _ => none⟩, 0)) = .ok (choices, m') ∧
      Proportional m "s" lopsided choices := by
  intro m
  have h : m.Weighted "s" lopsided (replicate 2 (⟨"/", fun _ => none⟩, 0)) :=
    ⟨by decide, fun _ _ => rfl, by decide +kernel, fun r hr => by
      rw [eq_of_mem_replicate hr]
      decide +kernel, by decide +kernel⟩
  exact (weightedRoundRobin_turn h (by decide +kernel)).2 (.inl (by decide +kernel)) 5 7

/-- Two instances with so many slots that the total wraps around, and one without weight, which is
selected like the others. -/
theorem weightless_selected :
    let pol : RoutingPolicy := { strategy := "weighted_round_robin"
                                 weights := [("a", 5 * 10 ^ 15), ("b", 5 * 10 ^ 15), ("c", 0)] }
    let m : Manager := { sortedServiceInstMap := fun _ => ["a", "b", "c"]
                         serviceRouting := fun _ => some pol }
    m.slots "s" pol = [5 * 10 ^ 18, 5 * 10 ^ 18, 0] ∧
      (m.selectInstances ⟨fun _ _ => 0, fun _ => 0, fun _ _ h => h⟩ "s"
        (replicate 3 (⟨"/", fun _ => none⟩, 0))).map Prod.fst = .ok ["a", "b", "c"] := by
  decide +kernel

end SimCore.Resource
