import SimCore.Resource.Instance
import Mathlib.Data.List.Chain
import Mathlib.Data.List.Perm.Subperm
import Mathlib.Order.Bounds.Defs

/-!
# Schedules of an instance

The CPU of an instance serves reservations one after the other, and its connection pool serves
datastore work on `k` slots. Both are run here over a sequence of calls, the latest first, with a
log of the intervals they handed out.

A rollback recognises the tail of the CPU schedule by its end alone. Reservations of no length that
follow an interval share its end, so that a rollback may move the tail behind them: starts then go
back in time. The schedule is in order if such a rollback takes back the latest reservation.

The pool gives every call the earliest time at which fewer than `k` earlier intervals are still to
end: one free time for each slot is enough to know it.

A length of more than 292 years does not fit into a duration of the source, and becomes the most
negative one; the interval then ends before it starts, and the next one overlaps those before.

## Main results

* `cpuSchedule_ordered`: the CPU schedule, with `cpuSchedule_disordered`
* `dbSchedule_fifo`: the connection pool is a FIFO queue with `k` servers
-/

namespace SimCore.Resource.ServiceInstance

open List

/-- A reserved interval of time. -/
structure Interval where
  arrival : Time
  start : Time
  finish : Time

/-- A length as a duration of the source. -/
def toDuration (length : Int) : Int :=
  if length < 2 ^ 63 then length else -2 ^ 63

/-! ### The CPU schedule -/

/-- A call on the CPU schedule: work arrives at an instance of the given cores, or the reservation
at a position among those that stand is taken back. -/
inductive CPUCall where
  | reserve (arrival : Time) (cpuDemandMs cores : ℚ)
  | rollback (i : Nat)

/-- An instance with the reservations that stand, the latest first. -/
structure CPUSchedule where
  inst : ServiceInstance
  standing : List Interval

namespace CPUSchedule

/-- The schedule after a call. -/
def call (c : CPUSchedule) : CPUCall → CPUSchedule
  | .reserve arrival cpuDemandMs cores =>
    let ((start, finish), inst) := { c.inst with cpuCores := cores }.reserveCPUFor arrival
      (toDuration (cpuServiceTime cores cpuDemandMs))
    ⟨inst, ⟨arrival, start, finish⟩ :: c.standing⟩
  | .rollback i =>
    match c.standing[i]? with
    | some r => ⟨c.inst.rollbackCPUTailReservation r.start r.finish, c.standing.eraseIdx i⟩
    | none => c

/-- A reservation fits into a duration, and a rollback that moves the tail back takes back the
latest reservation. -/
def TailOnly (c : CPUSchedule) : CPUCall → Prop
  | .reserve _ cpuDemandMs cores => cpuServiceTime cores cpuDemandMs < 2 ^ 63
  | .rollback i => ∀ r, c.standing[i]? = some r → c.inst.cpuNextFree = some r.finish →
      r.start < r.finish → i = 0

/-- Reservations follow each other, none starts before its arrival, and the tail is after all. -/
structure Ordered (c : CPUSchedule) : Prop where
  served : ∀ r ∈ c.standing, r.arrival ≤ r.start ∧ r.start ≤ r.finish
  tail : ∀ r ∈ c.standing, ∃ free ∈ c.inst.cpuNextFree, r.finish ≤ free
  apart : c.standing.Pairwise fun b a => a.finish ≤ b.start

variable {c : CPUSchedule}

theorem Ordered.reserve (hc : c.Ordered) {arrival : Time} {cpuDemandMs cores : ℚ}
    (hd : cpuServiceTime cores cpuDemandMs < 2 ^ 63) :
    (c.call (.reserve arrival cpuDemandMs cores)).Ordered := by
  have hs : ∀ r ∈ c.standing, r.finish ≤ slotStart arrival c.inst.cpuNextFree := by
    intro r hr
    obtain ⟨_, hf, hle⟩ := hc.tail r hr
    rw [hf, slotStart_some]
    exact le_max_of_le_right hle
  have hle : slotStart arrival c.inst.cpuNextFree ≤
      slotStart arrival c.inst.cpuNextFree + toDuration (cpuServiceTime cores cpuDemandMs) := by
    rw [toDuration, if_pos hd]
    exact le_add_of_nonneg_right (cpuServiceTime_nonneg _ _)
  exact {
    served := forall_mem_cons.2 ⟨⟨le_slotStart arrival c.inst.cpuNextFree, hle⟩, hc.served⟩
    tail := forall_mem_cons.2 ⟨⟨_, rfl, le_rfl⟩,
      fun r hr => ⟨_, rfl, (hs r hr).trans hle⟩⟩
    apart := pairwise_cons.2 ⟨hs, hc.apart⟩ }

theorem Ordered.rollback (hc : c.Ordered) {i : Nat} (hi : c.TailOnly (.rollback i)) :
    (c.call (.rollback i)).Ordered := by
  rw [call]
  split
  · rename_i r hr
    have hs := c.standing.eraseIdx_sublist i
    refine ⟨fun x hx => hc.served x (hs.subset hx), fun x hx => ?_, hc.apart.sublist hs⟩
    obtain ⟨free, hf, hle⟩ := hc.tail x (hs.subset hx)
    unfold rollbackCPUTailReservation
    split_ifs with ht
    · refine ⟨r.start, rfl, ?_⟩
      by_cases hl : r.start < r.finish
      · -- the latest reservation, so `x` stands before it
        obtain rfl := hi r hr ht hl
        obtain ⟨rest, hre⟩ : ∃ rest, c.standing = r :: rest := by
          cases hst : c.standing with
          | nil => simp [hst] at hr
          | cons _ rest => exact ⟨rest, by simpa [hst] using hr⟩
        have ha := hc.apart
        rw [hre] at ha hx
        exact (pairwise_cons.1 ha).1 x hx
      · rw [ht] at hf
        cases hf
        exact hle.trans (not_lt.1 hl)
    · exact ⟨free, hf, hle⟩
  · exact hc

end CPUSchedule

/-- The schedule after a sequence of calls, the latest first. -/
def cpuSchedule (s : ServiceInstance) : List CPUCall → CPUSchedule
  | [] => ⟨s, []⟩
  | call :: earlier => (s.cpuSchedule earlier).call call

theorem ordered_cpuSchedule {s : ServiceInstance} {calls : List CPUCall}
    (ht : ∀ call earlier, call :: earlier <:+ calls → (s.cpuSchedule earlier).TailOnly call) :
    (s.cpuSchedule calls).Ordered := by
  induction calls with
  | nil => exact ⟨by simp [cpuSchedule], by simp [cpuSchedule], .nil⟩
  | cons call _ ih =>
    have hc := ih fun call' earlier' h => ht call' earlier' (h.trans (suffix_cons ..))
    cases call with
    | reserve => exact hc.reserve (ht _ _ suffix_rfl)
    | rollback => exact hc.rollback (ht _ _ suffix_rfl)

/-- Without rollbacks the tail is the end of the latest reservation. -/
theorem chain_cpuSchedule {s : ServiceInstance} {calls : List CPUCall}
    (hc : ∀ i, CPUCall.rollback i ∉ calls) :
    (s.cpuSchedule calls).standing.IsChain (fun b a => b.start = max b.arrival a.finish) ∧
      ∀ r ∈ (s.cpuSchedule calls).standing.head?,
        (s.cpuSchedule calls).inst.cpuNextFree = some r.finish := by
  induction calls with
  | nil => exact ⟨.nil, by simp [cpuSchedule]⟩
  | cons call earlier ih =>
    obtain ⟨hch, hh⟩ := ih fun i h => hc i (mem_cons_of_mem _ h)
    cases call with
    | rollback i => exact absurd mem_cons_self (hc i)
    | reserve arrival =>
      refine ⟨hch.cons fun r hr => ?_, fun r hr => ?_⟩
      · show slotStart arrival (s.cpuSchedule earlier).inst.cpuNextFree = max arrival r.finish
        rw [hh r hr, slotStart_some]
      · cases hr
        rfl

/-- The intervals of the CPU that stand do not overlap, none starts before its arrival, and they
start in the order of their reservation; without rollbacks each starts at its arrival or at the end
of the one before it, whichever is later. -/
theorem cpuSchedule_ordered (s : ServiceInstance) (calls : List CPUCall)
    (htail : ∀ call earlier, call :: earlier <:+ calls → (s.cpuSchedule earlier).TailOnly call) :
    ((s.cpuSchedule calls).standing.Pairwise fun b a => a.finish ≤ b.start ∧ a.start ≤ b.start) ∧
      (∀ r ∈ (s.cpuSchedule calls).standing, r.arrival ≤ r.start ∧ r.start ≤ r.finish) ∧
      ((∀ i, CPUCall.rollback i ∉ calls) → (s.cpuSchedule calls).standing.IsChain
        fun b a => b.start = max b.arrival a.finish) := by
  have hc := ordered_cpuSchedule htail
  refine ⟨?_, hc.served, fun h => (chain_cpuSchedule h).1⟩
  exact hc.apart.imp_of_mem fun _ ha hle => ⟨hle, (hc.served _ ha).2.trans hle⟩

/-- An instance with one core and nothing reserved. -/
def idle : ServiceInstance :=
  { id := "api-1", serviceName := "api", hostID := "host-1", cpuCores := 1, memoryMB := 512
    windowStartTime := 0 }

theorem cpuSchedule_ordered_oneRollback :
    (idle.cpuSchedule [.reserve 5 1 1, .rollback 0, .reserve 0 10 1]).standing.Pairwise
      fun b a => a.finish ≤ b.start ∧ a.start ≤ b.start := by
  refine (cpuSchedule_ordered idle _ fun call earlier h => ?_).1
  simp only [suffix_cons_iff, cons.injEq, suffix_nil, reduceCtorEq, or_false] at h
  obtain ⟨rfl, rfl⟩ | ⟨rfl, rfl⟩ | ⟨rfl, rfl⟩ := h
  · show cpuServiceTime 1 1 < 2 ^ 63
    decide +kernel
  · exact fun _ _ _ _ => rfl
  · show cpuServiceTime 1 10 < 2 ^ 63
    decide +kernel

/-- The second reservation has no length and ends with the first. When the first is taken back, the
third starts at once, although the second, made before it, starts at 10 ms. Without a rollback, a
demand of ten seconds on no cores is so long that the next reservation overlaps the first. -/
theorem cpuSchedule_disordered :
    ¬ ((idle.cpuSchedule [.reserve 0 5 1, .rollback 1, .reserve 0 0 1,
      .reserve 0 10 1]).standing.Pairwise fun b a => a.start ≤ b.start) ∧
    (idle.cpuSchedule [.reserve 0 5 1, .reserve 0 10000 0, .reserve 0 10 1]).standing.map
      (fun r => (r.start, r.finish)) =
        [(0, 5000000), (10000000, 10000000 - 2 ^ 63), (0, 10000000)] := by
  decide +kernel

/-! ### The connection pool -/

/-- The slots that `maxSlots` connections use. -/
def slotCount (maxSlots : Int) : Nat :=
  min maxSlots.toNat maxDBSlotsCap

/-- The free times of the slots among which work is placed. -/
def connections (s : ServiceInstance) (maxSlots : Int) : List (Option Time) :=
  (s.dbSlotFree ++ List.replicate (slotCount maxSlots - s.dbSlotFree.length) none).take
    (slotCount maxSlots)

/-- An interval on a slot of the pool. -/
structure DBInterval extends Interval where
  slot : Nat

/-- The instance and the intervals it has given to a sequence of calls, the latest first. -/
def dbSchedule (s : ServiceInstance) (maxSlots : Int) :
    List (Time × ℚ) → ServiceInstance × List DBInterval
  | [] => (s, [])
  | (arrival, durMs) :: earlier =>
    let (s, log) := s.dbSchedule maxSlots earlier
    let (slot, start) := (bestSlot arrival (s.connections maxSlots)).getD (0, arrival)
    let ((finish, _), s) := s.reserveDBFor arrival (toDuration (dbServiceTime durMs)) maxSlots
    (s, { arrival, start, finish, slot } :: log)

/-- The free times of the slots are the ends of the intervals on them, and what is placed next
starts no earlier than what was placed before. -/
structure Served (slots : List (Option Time)) (log : List DBInterval) : Prop where
  busy : ∀ r ∈ log, ∃ free, slots[r.slot]? = some (some free) ∧ r.finish ≤ free
  ends : ∀ i free, slots[i]? = some (some free) → ∃ r ∈ log, r.slot = i ∧ r.finish = free
  fifo : ∀ r ∈ log, ∀ slot ∈ slots, r.start ≤ slotStart r.arrival slot
  apart : log.Pairwise fun b a => a.slot = b.slot → a.finish ≤ b.start

variable {slots : List (Option Time)} {log : List DBInterval} {slot : Option Time} {i k : Nat}
  {arrival start finish t : Time}

theorem slotStart_mono {b : Time} (h : arrival ≤ b) (slot : Option Time) :
    slotStart arrival slot ≤ slotStart b slot := by
  cases slot with
  | none => exact h
  | some free => simpa only [slotStart_some] using max_le_max_right free h

section

variable (h : Served slots log)
include h

/-- Work that starts on a slot starts after everything placed on it. -/
theorem Served.finish_le {r : DBInterval} (hr : r ∈ log)
    (hs : slots[r.slot]? = some slot) : r.finish ≤ slotStart arrival slot := by
  obtain ⟨_, hf, hfin⟩ := h.busy r hr
  rw [hs] at hf
  cases hf
  rw [slotStart_some]
  exact le_max_of_le_right hfin

/-- Work that goes to an earliest slot keeps the books of the pool. -/
theorem Served.place (hlog : ∀ r ∈ log, r.arrival ≤ arrival)
    (hi : slots[i]? = some slot) (hm : ∀ x ∈ slots, slotStart arrival slot ≤ slotStart arrival x)
    (hle : slotStart arrival slot ≤ finish) :
    Served (slots.set i (some finish))
      ({ arrival, start := slotStart arrival slot, finish, slot := i } :: log) := by
  have hl : i < slots.length := (List.getElem?_eq_some_iff.1 hi).1
  have hb : ∀ r ∈ log, r.slot = i → r.finish ≤ slotStart arrival slot :=
    fun r hr hri => h.finish_le hr (by rw [hri, hi])
  refine ⟨forall_mem_cons.2 ⟨⟨finish, by simp [hl], le_rfl⟩, fun r hr => ?_⟩,
    fun j free hj => ?_, forall_mem_cons.2 ⟨fun x hx => ?_, fun r hr x hx => ?_⟩,
    pairwise_cons.2 ⟨hb, h.apart⟩⟩
  · obtain ⟨free, _, hf⟩ := h.busy r hr
    by_cases hri : r.slot = i
    · exact ⟨finish, by simp [hri, hl], (hb r hr hri).trans hle⟩
    · exact ⟨free, by rwa [getElem?_set_ne (Ne.symm hri)], hf⟩
  · by_cases hj' : i = j
    · subst hj'
      rw [getElem?_set_self hl] at hj
      exact ⟨_, mem_cons_self, rfl, by simpa using hj⟩
    · rw [getElem?_set_ne hj'] at hj
      obtain ⟨r, hr, hri⟩ := h.ends j free hj
      exact ⟨r, mem_cons_of_mem _ hr, hri⟩
  · obtain hx | rfl := mem_or_eq_of_mem_set hx
    · exact hm x hx
    · exact hle.trans (by simp)
  · obtain hx | rfl := mem_or_eq_of_mem_set hx
    · exact h.fifo r hr x hx
    · calc r.start ≤ slotStart r.arrival slot := h.fifo r hr _ (mem_of_getElem? hi)
        _ ≤ slotStart arrival slot := slotStart_mono (hlog r hr) slot
        _ ≤ slotStart r.arrival (some finish) := hle.trans (by simp)

/-- Intervals that do not follow each other are on different slots. -/
theorem Served.countP_le {p : DBInterval → Bool} {bound : List Nat}
    (hp : ∀ a ∈ log, ∀ b ∈ log, p a → p b → b.start < a.finish)
    (hbo : ∀ r ∈ log, p r → r.slot ∈ bound) : log.countP p ≤ bound.length := by
  have hn : ((log.filter p).map DBInterval.slot).Nodup := by
    rw [List.Nodup, pairwise_map, pairwise_filter]
    exact h.apart.imp_of_mem fun {b a} hb ha hle hpb hpa hs =>
      (hp a ha b hb hpa hpb).not_ge (hle hs.symm)
  have hsub : (log.filter p).map DBInterval.slot ⊆ bound := by
    intro i hi
    obtain ⟨r, hr, rfl⟩ := mem_map.1 hi
    obtain ⟨hm, hpr⟩ := mem_filter.1 hr
    exact hbo r hm hpr
  simpa [countP_eq_length_filter] using (subperm_of_subset hn hsub).length_le

theorem Served.slot_lt {r : DBInterval} (hr : r ∈ log) : r.slot < slots.length := by
  obtain ⟨_, hf, -⟩ := h.busy r hr
  exact (List.getElem?_eq_some_iff.1 hf).1

/-- No more intervals than slots contain an instant. -/
theorem Served.countP_contains_le (t : Time) :
    log.countP (fun r => r.start ≤ t ∧ t < r.finish) ≤ slots.length := by
  rw [← length_range (n := slots.length)]
  refine h.countP_le (fun a _ b _ ha hb => ?_) fun r hr _ => mem_range.2 (h.slot_lt hr)
  exact (of_decide_eq_true hb).1.trans_lt (of_decide_eq_true ha).2

/-- The start on an earliest slot is the earliest time at which fewer intervals than slots are still
to end. -/
theorem Served.isLeast (hl : ∀ r ∈ log, r.arrival ≤ arrival) (hi : slots[i]? = some slot)
    (hm : ∀ x ∈ slots, slotStart arrival slot ≤ slotStart arrival x) :
    IsLeast {t | arrival ≤ t ∧ log.countP (fun r => t < r.finish) < slots.length}
      (slotStart arrival slot) := by
  have hlen : i < slots.length := (List.getElem?_eq_some_iff.1 hi).1
  refine ⟨⟨le_slotStart arrival slot, ?_⟩, fun t ⟨ht, hc⟩ => le_of_not_gt fun hlt => ?_⟩
  · -- what has not ended is on the other slots
    have hle : log.countP (fun r => slotStart arrival slot < r.finish) ≤
        ((range slots.length).erase i).length := by
      refine h.countP_le (fun a _ b hb ha _ => ?_) fun r hr hf => ?_
      · calc b.start ≤ slotStart b.arrival slot := h.fifo b hb _ (mem_of_getElem? hi)
          _ ≤ slotStart arrival slot := slotStart_mono (hl b hb) slot
          _ < a.finish := of_decide_eq_true ha
      · refine (nodup_range.mem_erase_iff).2 ⟨fun hri => ?_, mem_range.2 (h.slot_lt hr)⟩
        exact (of_decide_eq_true hf).not_ge (h.finish_le hr (by rw [hri, hi]))
    rw [length_erase_of_mem (mem_range.2 hlen), length_range] at hle
    omega
  · -- before it, every slot has an interval that has not ended
    refine hc.not_ge ?_
    have hs : range slots.length ⊆ (log.filter fun r => t < r.finish).map DBInterval.slot := by
      intro j hj
      obtain ⟨x, hx⟩ : ∃ x, slots[j]? = some x :=
        ⟨_, getElem?_eq_getElem (mem_range.1 hj)⟩
      have hx' := hlt.trans_le (hm x (mem_of_getElem? hx))
      cases x with
      | none => exact absurd ht hx'.not_ge
      | some free =>
        rw [slotStart_some, lt_max_iff, or_iff_right ht.not_gt] at hx'
        obtain ⟨r, hr, hrj, rfl⟩ := h.ends j free hx
        exact mem_map.2 ⟨r, mem_filter.2 ⟨hr, decide_eq_true hx'⟩, hrj⟩
    simpa [countP_eq_length_filter] using
      (subperm_of_subset nodup_range hs).length_le

end

/-! ### Calls of the source -/

variable {s : ServiceInstance} {maxSlots : Int}

@[simp] theorem length_connections : (s.connections maxSlots).length = slotCount maxSlots := by
  simp only [connections, length_take, length_append, length_replicate]
  omega

/-- What a call does: it goes to an earliest slot, and that slot is busy until its end. -/
theorem Served.call (h : Served (s.connections maxSlots) log) (hm : 1 ≤ maxSlots)
    (hlen : s.dbSlotFree.length ≤ slotCount maxSlots) (hlog : ∀ r ∈ log, r.arrival ≤ arrival)
    {dur : Int} (hd : 0 ≤ dur) :
    let best := (bestSlot arrival (s.connections maxSlots)).getD (0, arrival)
    let res := s.reserveDBFor arrival dur maxSlots
    IsLeast {t | arrival ≤ t ∧ log.countP (fun r => t < r.finish) < slotCount maxSlots} best.2 ∧
      res.1.1 = best.2 + dur ∧ res.2.dbSlotFree.length ≤ slotCount maxSlots ∧
      Served (res.2.connections maxSlots)
        ({ arrival, start := best.2, finish := res.1.1, slot := best.1 } :: log) := by
  have hconn : s.connections maxSlots = s.dbSlotFree ++
      replicate (slotCount maxSlots - s.dbSlotFree.length) none :=
    take_of_length_le (by simp; omega)
  have hso : ∃ x, bestSlot arrival (s.connections maxSlots) = some x := by
    cases hc : s.connections maxSlots with
    | nil =>
      have hco := congrArg length hc
      rw [length_connections, slotCount, maxDBSlotsCap, length_nil] at hco
      omega
    | cons x xs => exact Option.ne_none_iff_exists'.1 (bestSlot_ne_none arrival x xs)
  obtain ⟨⟨i, t⟩, hbe⟩ := hso
  obtain ⟨⟨slot, hs, rfl⟩, hmin⟩ := bestSlot_spec arrival hbe
  have hf : (s.reserveDBFor arrival dur maxSlots).1.1 = slotStart arrival slot + dur ∧
      (s.reserveDBFor arrival dur maxSlots).2.dbSlotFree = (s.connections maxSlots).set i
        (some (s.reserveDBFor arrival dur maxSlots).1.1) := by
    have hb' := hbe
    rw [connections, slotCount] at hb'
    rw [hconn, slotCount, reserveDBFor, if_neg (by omega)]
    simp only [hb', and_self]
  obtain ⟨hfin, hf⟩ := hf
  have hc' : (s.reserveDBFor arrival dur maxSlots).2.connections maxSlots =
      (s.connections maxSlots).set i (some (s.reserveDBFor arrival dur maxSlots).1.1) := by
    rw [connections, hf, length_set, length_connections, Nat.sub_self, replicate_zero,
      append_nil, take_of_length_le (by simp)]
  have hl := h.isLeast hlog hs hmin
  rw [length_connections] at hl
  intro best res
  have hb : best = (i, slotStart arrival slot) := by simp only [best, hbe, Option.getD_some]
  refine ⟨by rwa [hb], by rw [hb]; exact hfin, by simp [res, hf], ?_⟩
  rw [hc', hb]
  exact h.place hlog hs hmin (hfin ▸ le_add_of_nonneg_right hd)

theorem toDuration_dbServiceTime {durMs : ℚ} (h : dbServiceTime durMs < 2 ^ 63) :
    0 ≤ toDuration (dbServiceTime durMs) := by
  rw [toDuration, if_pos h]
  exact dbServiceTime_nonneg durMs

/-- The books of the pool are kept along every sequence of calls. -/
theorem served_dbSchedule (hs : s.dbSlotFree = []) (hm : 1 ≤ maxSlots) {calls : List (Time × ℚ)}
    (hc : calls.Pairwise fun b a => a.1 ≤ b.1)
    (hd : ∀ call ∈ calls, dbServiceTime call.2 < 2 ^ 63) :
    (s.dbSchedule maxSlots calls).1.dbSlotFree.length ≤ slotCount maxSlots ∧
      Served ((s.dbSchedule maxSlots calls).1.connections maxSlots)
        (s.dbSchedule maxSlots calls).2 ∧
      ∀ t, (∀ call ∈ calls, call.1 ≤ t) → ∀ r ∈ (s.dbSchedule maxSlots calls).2, r.arrival ≤ t := by
  induction calls with
  | nil =>
    refine ⟨by simp [dbSchedule, hs], ⟨by simp [dbSchedule], fun i free h => ?_,
      by simp [dbSchedule], .nil⟩, by simp [dbSchedule]⟩
    simp [dbSchedule, connections, hs, getElem?_replicate] at h
  | cons call _ ih =>
    obtain ⟨hf, he⟩ := pairwise_cons.1 hc
    obtain ⟨hd, hds⟩ := forall_mem_cons.1 hd
    obtain ⟨hlen, hse, hl⟩ := ih he hds
    obtain ⟨-, -, hl', hs'⟩ := hse.call hm hlen (hl _ hf) (toDuration_dbServiceTime hd)
    refine ⟨hl', hs', fun t ht => ?_⟩
    obtain ⟨hca, ht⟩ := forall_mem_cons.1 ht
    exact forall_mem_cons.2 ⟨hca, hl t ht⟩

/-- With `k` connections and work that fits into durations, the pool of a new instance is a FIFO
queue with `k` servers: what a call is given starts at the earliest time at which fewer than `k`
earlier intervals are still to end. -/
theorem dbSchedule_fifo (s : ServiceInstance) (hs : s.dbSlotFree = []) (maxSlots : Int)
    (hm : 1 ≤ maxSlots) (arrival : Time) (durMs : ℚ) (earlier : List (Time × ℚ))
    (hcalls : ((arrival, durMs) :: earlier).Pairwise fun b a => a.1 ≤ b.1)
    (hd : ∀ call ∈ (arrival, durMs) :: earlier, dbServiceTime call.2 < 2 ^ 63) :
    let log := (s.dbSchedule maxSlots earlier).2
    ∃ r, (s.dbSchedule maxSlots ((arrival, durMs) :: earlier)).2 = r :: log ∧
      r.finish = r.start + dbServiceTime durMs ∧
      IsLeast {t | arrival ≤ t ∧ log.countP (fun a => t < a.finish) < min maxSlots.toNat 64}
        r.start ∧
      ((r :: log).Pairwise fun b a => a.slot = b.slot → a.finish ≤ b.start) ∧
      ∀ t, (r :: log).countP (fun a => a.start ≤ t ∧ t < a.finish) ≤ min maxSlots.toNat 64 := by
  obtain ⟨hf, he⟩ := pairwise_cons.1 hcalls
  obtain ⟨hd, hds⟩ := forall_mem_cons.1 hd
  obtain ⟨hlen, hse, hlog⟩ := served_dbSchedule hs hm he hds
  obtain ⟨hl, hfin, -, hs'⟩ := hse.call hm hlen (hlog _ hf) (toDuration_dbServiceTime hd)
  refine ⟨_, rfl, hfin.trans (congrArg _ (if_pos hd)), hl, hs'.apart, fun t => ?_⟩
  exact (hs'.countP_contains_le t).trans_eq length_connections

/-- Two connections, and three calls at once: the third waits for the first two to end. -/
theorem dbSchedule_fifo_twoConnections : ∃ r, (idle.dbSchedule 2 [(0, 5), (0, 20), (0, 10)]).2 =
      r :: (idle.dbSchedule 2 [(0, 20), (0, 10)]).2 ∧ r.start = 10000000 ∧
    IsLeast {t | 0 ≤ t ∧ (idle.dbSchedule 2 [(0, 20), (0, 10)]).2.countP (fun a => t < a.finish) <
      min (2 : Int).toNat 64} r.start := by
  obtain ⟨r, hr, -, hl, -⟩ := dbSchedule_fifo idle rfl 2 (by decide) 0 5 [(0, 20), (0, 10)]
    (by decide) (by decide +kernel)
  have hs : (idle.dbSchedule 2 [(0, 5), (0, 20), (0, 10)]).2.map (·.start) =
      [10000000, 0, 0] := by decide +kernel
  rw [hr, map_cons] at hs
  exact ⟨r, hr, (cons.inj hs).1, hl⟩

/-- On one connection, work that does not fit into a duration lets the next work overlap the first.
-/
theorem dbSchedule_overlaps :
    (idle.dbSchedule 1 [(0, 5), (0, 10 ^ 13), (0, 10)]).2.map
      (fun r => (r.slot, r.start, r.finish)) =
      [(0, 0, 5000000), (0, 10000000, 10000000 - 2 ^ 63), (0, 0, 10000000)] := by
  decide +kernel

end SimCore.Resource.ServiceInstance
