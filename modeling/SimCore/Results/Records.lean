import SimCore.Base.SliceSort
import SimCore.Base.Sorting
import SimCore.Runs.RunStore

/-!
# Run records: listing, retention and the bounds of online runs

* `listFiltered_pages`: when the pages of a listing show each run once.
* `cleanupNow_retains`: what a cleanup keeps and what it removes.
* `create_bounded`: when an online run is stored with the bounds of the server.
-/

namespace SimCore.Runs

open RunStore List

variable {s : RunStore} {now : Int} {order : List RunId} {id : RunId} {rec : RunRecord}

/-! ### Listing -/

/-- The slice `l[start:stop]`; bounds out of range make it panic. -/
def slice {α : Type} (l : List α) (start stop : Int) : Option (List α) :=
  if 0 ≤ start ∧ start ≤ stop ∧ stop ≤ l.length then
    some ((l.drop start.toNat).take (stop - start).toNat)
  else none

/-- The order of a listing: runs created later come first. -/
def createdLater (a b : RunRecord) : Bool :=
  decide (a.createdAtUnixMs > b.createdAtUnixMs)

/-- The runs that a listing asks for, in the order in which the map is visited. -/
def RunStore.matching (s : RunStore) (order : List RunId) (status : RunStatus) : List RunRecord :=
  (order.filterMap s.get).filter fun rec => status == .unspecified || rec.status == status

/-- One page of the runs with a status. -/
def RunStore.listFiltered (sort : SliceSort RunRecord) (s : RunStore) (order : List RunId)
    (limit offset : Int) (status : RunStatus) : Option (List RunRecord) :=
  let limit := if limit ≤ 0 then 50 else limit
  let offset := if offset < 0 then 0 else offset
  let allRuns := sort.sort createdLater (s.matching order status)
  if offset > allRuns.length then some []
  else
    let stop := wrapInt64 (offset + limit)
    let stop := if stop > allRuns.length then (allRuns.length : Int) else stop
    if offset ≥ stop then some [] else slice allRuns offset stop

/-- A listing does not panic, and it is the page of the sorted runs exactly if the end of the page
does not overflow or the page begins after the last run. -/
theorem listFiltered_eq (sort : SliceSort RunRecord) (s : RunStore) (order : List RunId)
    (limit offset : Int) (status : RunStatus) (hl : 0 ≤ limit) (hl' : limit < 2 ^ 63)
    (ho : 0 ≤ offset) (ho' : offset < 2 ^ 63) :
    (s.listFiltered sort order limit offset status).isSome = true ∧
    (s.listFiltered sort order limit offset status =
        some (((sort.sort createdLater (s.matching order status)).drop offset.toNat).take
          (if limit = 0 then 50 else limit).toNat) ↔
      offset + (if limit = 0 then 50 else limit) < 2 ^ 63 ∨
        (s.matching order status).length ≤ offset) := by
  have hlim : (if limit ≤ 0 then 50 else limit) = if limit = 0 then 50 else limit := by
    split_ifs <;> omega
  have hp : 0 < (if limit = 0 then 50 else limit) ∧ (if limit = 0 then 50 else limit) < 2 ^ 63 := by
    split_ifs <;> omega
  rw [RunStore.listFiltered, hlim, if_neg (not_lt.2 ho)]
  generalize (if limit = 0 then 50 else limit) = limit at hp ⊢
  rw [← (sort.perm createdLater (s.matching order status)).length_eq]
  generalize sort.sort createdLater (s.matching order status) = l
  dsimp only [slice]
  constructor
  · split_ifs <;> first | rfl | omega
  by_cases hf : offset + limit < 2 ^ 63
  · refine iff_of_true ?_ (.inl hf)
    rw [wrapInt64_of_lt (by omega) hf]
    split_ifs with h₁ h₂ h₃ h₄ <;> try omega
    · rw [drop_eq_nil_of_le (by omega), take_nil]
    · rw [drop_eq_nil_of_le (by omega), take_nil]
    · rw [take_of_length_le (by rw [length_drop]; omega),
        take_of_length_le (by rw [length_drop]; omega)]
    · congr 3
      omega
  · -- the end wraps around to a negative number, and the page is empty
    have hw := wrapInt64_neg (n := offset + limit) (by omega) (by omega)
    have he : (some [] = some ((l.drop offset.toNat).take limit.toNat)) ↔
        (l.length : Int) ≤ offset := by
      rw [Option.some_inj, eq_comm, take_eq_nil_iff, drop_eq_nil_iff]
      omega
    rw [or_iff_right hf, ← he]
    split_ifs <;> first | rfl | omega

/-- Every run is stored under its id. -/
def Filed (s : RunStore) : Prop :=
  ∀ id rec, s.get id = some rec → rec.id = id

theorem nodup_matching (h : Filed s) (status : RunStatus) (ho : order.Perm s.runs.keys) :
    (s.matching order status).Nodup := by
  refine Nodup.filter _ (Nodup.filterMap (fun id id' rec hr hr' => ?_)
    (ho.nodup_iff.2 s.runs.nodup))
  exact (h id rec hr).symm.trans (h id' rec hr')

theorem sort_matching_pairwise (sort : SliceSort RunRecord) (l : List RunRecord) :
    (sort.sort createdLater l).Pairwise fun a b => b.createdAtUnixMs ≤ a.createdAtUnixMs :=
  (sort.sorted _ _ ⟨by simp [createdLater]; omega, by simp [createdLater]; omega⟩).imp
    (by simp [createdLater])

theorem rankedSort_pairwise (rank : RunRecord → Nat) (l : List RunRecord) :
    ((rankedSort rank).sort createdLater l).Pairwise (ByKey (·.createdAtUnixMs) rank) := by
  refine ((insertionSort.sorted _ l ⟨?_, ?_⟩).imp fun {a b} h => ?_)
  · simp [createdLater]
    omega
  · simp [createdLater]
    omega
  · simp [createdLater] at h
    rw [ByKey]
    omega

/-- Whatever the orders and arrangements of the calls, the pages list each run once, the latest
first, exactly if no page ends between runs that were created at the same time. A call does not
panic, and its page is right unless its end overflows before the last run. -/
theorem listFiltered_pages (s : RunStore) (hs : Filed s) (status : RunStatus) (p : Nat)
    (hp : 1 ≤ p) (n : Nat) (hn : (s.matching s.runs.keys status).length ≤ n * p)
    (hfit : n * p < 2 ^ 63) :
    ((∀ (sorts : Nat → SliceSort RunRecord) (orders : Nat → List RunId),
        (∀ k, (orders k).Perm s.runs.keys) → ∃ page : Nat → List RunRecord,
          (∀ k < n, s.listFiltered (sorts k) (orders k) p ↑(k * p) status = some (page k)) ∧
          ((range n).map page).flatten.Perm (s.matching s.runs.keys status) ∧
          ((range n).map page).flatten.Pairwise fun a b =>
            b.createdAtUnixMs ≤ a.createdAtUnixMs) ↔
      ∀ k, SettledCut (·.createdAtUnixMs) (k * p) (s.matching s.runs.keys status)) ∧
    ∀ sort order limit offset, 0 ≤ limit → limit < 2 ^ 63 → 0 ≤ offset → offset < 2 ^ 63 →
      (s.listFiltered sort order limit offset status).isSome = true ∧
      (s.listFiltered sort order limit offset status =
          some (((sort.sort createdLater (s.matching order status)).drop offset.toNat).take
            (if limit = 0 then 50 else limit).toNat) ↔
        offset + (if limit = 0 then 50 else limit) < 2 ^ 63 ∨
          (s.matching order status).length ≤ offset) := by
  refine ⟨?_, fun sort order limit offset => listFiltered_eq sort s order limit offset status⟩
  have hno := nodup_matching hs status (.refl _)
  have hm : ∀ order : List RunId, order.Perm s.runs.keys →
      (s.matching order status).Perm (s.matching s.runs.keys status) := fun _ h =>
    (h.filterMap _).filter _
  have hpage : ∀ (sort : SliceSort RunRecord) (order : List RunId), ∀ k < n,
      s.listFiltered sort order p ↑(k * p) status =
        some (((sort.sort createdLater (s.matching order status)).drop (k * p)).take p) := by
    intro sort order k hk
    have hle : (k + 1) * p ≤ n * p := Nat.mul_le_mul_right p hk
    rw [Nat.succ_mul] at hle
    have hz : ¬(p : Int) = 0 := by omega
    have he := (listFiltered_eq sort s order p ↑(k * p) status (by omega) (by omega)
      (by omega) (by omega)).2.2 (.inl (by rw [if_neg hz]; omega))
    rwa [if_neg hz, Int.toNat_natCast, Int.toNat_natCast] at he
  constructor
  · intro hall
    by_contra hc
    push Not at hc
    obtain ⟨k, hk⟩ := hc
    obtain ⟨ranks, hr⟩ := exists_pages_not_perm hk hno
      (fun rank => (rankedSort rank).sort createdLater (s.matching s.runs.keys status))
      (fun rank => (rankedSort rank).perm _ _) (fun rank => rankedSort_pairwise rank _) hp hn
    obtain ⟨page, hpa, hpe, -⟩ := hall (fun k => rankedSort (ranks k)) (fun _ => s.runs.keys)
      fun _ => .refl _
    refine hr ?_
    convert hpe using 2
    refine map_congr_left fun k hk => ?_
    exact Option.some.inj ((hpage _ _ k (mem_range.1 hk)).symm.trans (hpa k (mem_range.1 hk)))
  · intro hc sorts orders ho
    exact ⟨_, fun k hk => hpage (sorts k) (orders k) k hk,
      pages_perm hc hno (fun k => ((sorts k).perm _ _).trans (hm _ (ho k)))
        (fun k => sort_matching_pairwise _ _) hp hn⟩

/-- Two runs that were created at the same time, and an earlier one. -/
def twins : RunStore where
  runs := ((KeyMap.empty.set "a" { id := "a", createdAtUnixMs := 1 }).set "b"
    { id := "b", createdAtUnixMs := 1 }).set "c" { id := "c" }

theorem filed_twins : Filed twins := by
  intro id rec h
  simp only [twins, RunStore.get, KeyMap.get_set] at h
  split_ifs at h <;> cases h <;> simp_all

/-- Pages of two runs in different orders, with the twins on the first one. -/
theorem listFiltered_pages_twins :
    let orders := fun k => if k = 0 then ["c", "a", "b"] else ["b", "c", "a"]
    ∃ page : Nat → List RunRecord,
      (∀ k : Nat, k < 2 → twins.listFiltered insertionSort (orders k) 2 ↑(k * 2) .unspecified =
        some (page k)) ∧
      ((range 2).map page).flatten.Perm (twins.matching twins.runs.keys .unspecified) := by
  intro orders
  have hc : ∀ k, SettledCut (·.createdAtUnixMs) (k * 2)
      (twins.matching twins.runs.keys .unspecified) := by
    rintro (_ | _ | k)
    · decide
    · decide
    · have hlen : (twins.matching twins.runs.keys .unspecified).length ≤ 4 := by decide
      exact fun a _ => .inr (countP_le_length.trans (by omega))
  have ho : ∀ k, (orders k).Perm twins.runs.keys := by
    intro k
    simp only [orders]
    split_ifs <;> decide
  obtain ⟨page, hp, hpe, -⟩ := (listFiltered_pages twins filed_twins .unspecified 2 (by decide) 2
    (by decide) (by decide)).1.2 hc (fun _ => insertionSort) orders ho
  exact ⟨page, hp, hpe⟩

/-- Pages of one run with different orders list one of the twins twice, and a page whose end
overflows is empty. -/
theorem listFiltered_wrong : twins.listFiltered insertionSort ["a", "b", "c"] 1 0 .unspecified =
        twins.listFiltered insertionSort ["b", "a", "c"] 1 1 .unspecified ∧
      twins.listFiltered insertionSort ["a", "b", "c"] (2 ^ 63 - 1) 1 .unspecified = some [] := by
  decide +kernel

/-! ### Retention -/

/-- The run ended longer ago than runs are kept. -/
def Expired (s : RunStore) (now : Int) (rec : RunRecord) : Prop :=
  0 < s.lifecycle.ttl ∧ milliseconds s.lifecycle.ttl ≤ now - endTime rec

instance : Decidable (Expired s now rec) :=
  inferInstanceAs (Decidable (_ ∧ _))

theorem get_expire_eq_some {r : RunRecord} : (s.expire now).get id = some r ↔
    ∃ rec, s.get id = some rec ∧ (rec.terminal = false ∧ r = rec ∨
      rec.terminal = true ∧ ¬Expired s now rec ∧ r = finalizeRunStorage s.lifecycle rec) := by
  rw [get_expire, Option.bind_eq_some_iff]
  refine exists_congr fun rec => and_congr_right fun _ => ?_
  by_cases ht : rec.terminal = true
  · by_cases he : Expired s now rec
    · have he' := he
      rw [Expired] at he'
      simp [ht, he, he']
    · have he' := he
      rw [Expired] at he'
      simp [ht, he, if_neg he', eq_comm]
  · simp [ht, eq_comm]

theorem finalizeRunStorage_kept (cfg : RunStoreLifecycleConfig) (rec : RunRecord) :
    endTime (finalizeRunStorage cfg rec) = endTime rec ∧
      (finalizeRunStorage cfg rec).isOptimizationChild = rec.isOptimizationChild := by
  simp only [finalizeRunStorage]
  split_ifs <;> exact ⟨rfl, rfl⟩

theorem mem_terminalRuns {e : RunId × RunRecord} : e ∈ s.terminalRuns order ↔
    e.1 ∈ order ∧ s.get e.1 = some e.2 ∧ e.2.terminal = true := by
  rw [terminalRuns, mem_filterMap]
  constructor
  · rintro ⟨id, hid, h⟩
    obtain ⟨rec, hr, h⟩ := Option.bind_eq_some_iff.1 h
    split_ifs at h with ht
    cases h
    exact ⟨hid, hr, ht⟩
  · rintro ⟨hid, hr, ht⟩
    exact ⟨e.1, hid, by simp [hr, ht]⟩

theorem evictsBefore_spec {a b : RunId × RunRecord} (h : evictsBefore a b = true) :
    (a.2.isOptimizationChild = false → b.2.isOptimizationChild = false) ∧
      (a.2.isOptimizationChild = b.2.isOptimizationChild → endTime a.2 ≤ endTime b.2) := by
  rw [evictsBefore] at h
  cases ha : a.2.isOptimizationChild <;> cases hb : b.2.isOptimizationChild <;> simp_all

/-- The runs that have ended in the order of eviction: the first ones go, and the rest stays. -/
theorem evicted_eq (s : RunStore) (order : List RunId) :
    ∃ gone kept, (gone ++ kept).Perm (s.terminalRuns order) ∧ s.evicted order = gone.map Prod.fst ∧
      (∀ a ∈ gone, ∀ b ∈ kept, evictsBefore a b = true) ∧
      (0 < s.lifecycle.maxTerminalRuns → (kept.length : Int) ≤ s.lifecycle.maxTerminalRuns) ∧
      (s.lifecycle.maxTerminalRuns ≤ 0 ∨
        ((s.terminalRuns order).length : Int) ≤ s.lifecycle.maxTerminalRuns → gone = []) := by
  rw [evicted]
  split_ifs with hm
  · exact ⟨[], _, .refl _, rfl, by simp, fun h => hm.resolve_left (not_le.2 h), fun _ => rfl⟩
  · have ht : Std.Total fun a b : RunId × RunRecord => evictsBefore a b = true :=
      ⟨fun a b => by
        simp only [evictsBefore]
        cases a.2.isOptimizationChild <;> cases b.2.isOptimizationChild <;> simp <;> omega⟩
    have htr : IsTrans (RunId × RunRecord) fun a b => evictsBefore a b = true :=
      ⟨fun a b c => by
        simp only [evictsBefore]
        cases a.2.isOptimizationChild <;> cases b.2.isOptimizationChild <;>
          cases c.2.isOptimizationChild <;> simp <;> omega⟩
    have hs := pairwise_insertionSort (fun a b : RunId × RunRecord => evictsBefore a b = true)
      (s.terminalRuns order)
    rw [← take_append_drop ((s.terminalRuns order).length - s.lifecycle.maxTerminalRuns.toNat)
      (List.insertionSort _ _)] at hs
    refine ⟨_, _, (Perm.of_eq (take_append_drop _ _)).trans (perm_insertionSort _ _), rfl,
      (pairwise_append.1 hs).2.2, fun hp => ?_, fun h => absurd h hm⟩
    rw [length_drop, length_insertionSort]
    omega

/-- A cleanup keeps every run that goes on, removes every expired one and limits the number of those
that ended; of these it removes children of optimization runs and runs that ended earlier first. -/
theorem cleanupNow_retains (s : RunStore) (now : Int) (order : List RunId)
    (ho : order.Perm s.runs.keys) :
    (∀ id rec, s.get id = some rec → rec.terminal = false →
      (s.cleanupNow now order).get id = some rec) ∧
    (∀ id rec, (s.cleanupNow now order).get id = some rec → rec.terminal = true →
      ¬Expired s now rec) ∧
    (0 < s.lifecycle.maxTerminalRuns →
      ((s.cleanupNow now order).runs.entries.countP (·.2.terminal) : Int) ≤
        s.lifecycle.maxTerminalRuns) ∧
    (s.lifecycle.maxTerminalRuns ≤ 0 ∨
        (s.runs.entries.countP fun e => e.2.terminal && !decide (Expired s now e.2) : Int) ≤
          s.lifecycle.maxTerminalRuns → ∀ id rec, s.get id = some rec → rec.terminal = true →
      ¬Expired s now rec → ((s.cleanupNow now order).get id).isSome = true) ∧
    ∀ id rec, s.get id = some rec → rec.terminal = true → ¬Expired s now rec →
      (s.cleanupNow now order).get id = none →
      ∀ id' rec', (s.cleanupNow now order).get id' = some rec' → rec'.terminal = true →
        (rec.isOptimizationChild = false → rec'.isOptimizationChild = false) ∧
        (rec.isOptimizationChild = rec'.isOptimizationChild → endTime rec ≤ endTime rec') := by
  obtain ⟨gone, kept, hp, hgo, hbe, hmax, hn⟩ := evicted_eq (s.expire now) order
  have hm : ∀ {id r}, (s.expire now).get id = some r → r.terminal = true →
      (id, r) ∈ gone ∨ (id, r) ∈ kept := by
    intro id r hr ht
    obtain ⟨rec, hrec, -⟩ := get_expire_eq_some.1 hr
    rw [← mem_append, hp.mem_iff, mem_terminalRuns]
    exact ⟨ho.mem_iff.2 (KeyMap.mem_keys_of_get hrec), hr, ht⟩
  have hk : ∀ {id r}, (s.cleanupNow now order).get id = some r → r.terminal = true →
      (s.expire now).get id = some r ∧ (id, r) ∈ kept := by
    intro id r hr ht
    rw [get_cleanupNow_eq] at hr
    split_ifs at hr with he
    refine ⟨hr, (hm hr ht).resolve_left fun hg => he ?_⟩
    rw [hgo]
    exact mem_map_of_mem hg
  refine ⟨fun id rec hr ht => ?_, fun id r hr ht => ?_, fun hpos => ?_,
    fun hfit id rec hr ht he => ?_,
    fun id rec hr ht he hno id' r' hr' ht' => ?_⟩
  · exact ((get_cleanupNow s now order hr).resolve_right fun h => by simp [ht] at h).2
  · obtain ⟨rec, -, ⟨hf, rfl⟩ | ⟨-, he, rfl⟩⟩ := get_expire_eq_some.1 (hk hr ht).1
    · simp [ht] at hf
    · rwa [Expired, (finalizeRunStorage_kept _ _).1]
  · refine le_trans ?_ (hmax hpos)
    rw [KeyMap.countP_entries, ← length_map (f := Prod.fst), Nat.cast_le]
    refine (Nodup.subperm ((s.cleanupNow now order).runs.nodup.filter _) fun id hid => ?_).length_le
    obtain ⟨r, hr, ht⟩ := (Option.any_eq_true ..).1 (mem_filter.1 hid).2
    exact mem_map_of_mem (hk hr ht).2
  · have hc : ((s.expire now).terminalRuns order).length =
        s.runs.entries.countP fun e => e.2.terminal && !decide (Expired s now e.2) := by
      rw [KeyMap.countP_entries s.runs fun r => r.terminal && !decide (Expired s now r),
        terminalRuns, length_filterMap_eq_countP, ho.countP_eq, ← countP_eq_length_filter]
      refine countP_congr fun id _ => ?_
      rw [get_expire, RunStore.get]
      cases s.runs.get id with
      | none => simp
      | some rec =>
        by_cases ht : rec.terminal = true <;> by_cases he : Expired s now rec <;>
          have he' := he <;> rw [Expired] at he' <;> simp [ht, he, he']
    have hg : gone = [] := hn (hc ▸ hfit)
    have hfr : (s.expire now).get id = some _ :=
      get_expire_eq_some.2 ⟨rec, hr, .inr ⟨ht, he, rfl⟩⟩
    rw [get_cleanupNow_eq, hgo, hg, hfr]
    rfl
  · have hfr : (s.expire now).get id = some _ :=
      get_expire_eq_some.2 ⟨rec, hr, .inr ⟨ht, he, rfl⟩⟩
    rw [get_cleanupNow_eq, hfr] at hno
    split_ifs at hno with hg
    rw [hgo] at hg
    obtain ⟨⟨_, r⟩, hm, rfl⟩ := mem_map.1 hg
    have hr₀ := (mem_terminalRuns.1 (hp.mem_iff.1 (mem_append_left _ hm))).2.1
    have hb := hbe _ hm _ (hk hr' ht').2
    obtain ⟨hend, hch⟩ := finalizeRunStorage_kept s.lifecycle rec
    rw [hfr] at hr₀
    cases hr₀
    rw [← hend, ← hch]
    exact evictsBefore_spec hb

/-- Of two runs that have ended one is kept. -/
theorem cleanupNow_retains_one :
    (({ runs := (KeyMap.empty.set "a" { id := "a", status := .completed }).set "b"
          { id := "b", status := .completed }
        lifecycle := { maxTerminalRuns := 1 } } : RunStore).cleanupNow 0 ["a", "b"]
      |>.runs.entries.countP (·.2.terminal) : Int) ≤ 1 :=
  (cleanupNow_retains _ 0 ["a", "b"] (by decide)).2.2.1 (by decide)

/-! ### Bounds of online runs -/

/-- The bounds that the server means to store an online run with. -/
def WithinLimits (limits : OnlineRunLimits) (stored : OptimizationConfig) : Prop :=
  (stored.allowUnboundedOnline = false → 0 < stored.maxOnlineDurationMs ∧
    stored.maxOnlineDurationMs ≤ milliseconds limits.serverMaxOnlineDuration ∧
    (milliseconds limits.heartbeatRequiredAfterDuration < stored.maxOnlineDurationMs →
      0 < stored.leaseTtlMs)) ∧
  (0 < limits.serverMaxControllerSteps → 0 < stored.maxControllerSteps ∧
    stored.maxControllerSteps ≤ limits.serverMaxControllerSteps)

/-- Unless the run may be unbounded, the client gives no negative duration; and if the server caps
the steps, the client gives a positive number of them, or none and no duration but a positive one
or, unless the run may be unbounded, the default. -/
def OptimizationConfig.Sane (limits : OnlineRunLimits) (opt : OptimizationConfig) : Prop :=
  (opt.allowUnboundedOnline = false → 0 ≤ opt.maxOnlineDurationMs) ∧
  (0 < limits.serverMaxControllerSteps → 0 < opt.maxControllerSteps ∨
    opt.maxControllerSteps = 0 ∧ (0 < opt.maxOnlineDurationMs ∨
      opt.allowUnboundedOnline = false ∧ opt.maxOnlineDurationMs = 0))

section

variable {limits : OnlineRunLimits} {opt stored : OptimizationConfig}

theorem milliseconds_pos {d : Int} (h : millisecond ≤ d) : 0 < milliseconds d := by
  rw [milliseconds, Int.tdiv_eq_ediv_of_nonneg (by simp [millisecond] at h; omega)]
  simp [millisecond] at h ⊢
  omega

/-- The duration is within the cap of the server, and positive if it is given so or by default. -/
theorem effectiveOnlineDuration_spec (opt : OptimizationConfig)
    (hdef : millisecond ≤ limits.defaultMaxOnlineDuration)
    (hcap : millisecond ≤ limits.serverMaxOnlineDuration) :
    effectiveOnlineDuration limits opt ≤ milliseconds limits.serverMaxOnlineDuration ∧
    (0 < effectiveOnlineDuration limits opt ↔ 0 < opt.maxOnlineDurationMs ∨
      opt.allowUnboundedOnline = false ∧ opt.maxOnlineDurationMs = 0) := by
  have hd := milliseconds_pos hdef
  have hc := milliseconds_pos hcap
  have hp : limits.serverMaxOnlineDuration > 0 := lt_of_lt_of_le (by decide) hcap
  simp only [effectiveOnlineDuration, Bool.and_eq_true, Bool.not_eq_true', beq_iff_eq, hp, true_and]
  cases opt.allowUnboundedOnline <;> split_ifs <;> simp_all <;> omega

theorem prepareOnlineOptimization_iff (hdef : millisecond ≤ limits.defaultMaxOnlineDuration)
    (hcap : millisecond ≤ limits.serverMaxOnlineDuration)
    (hok : prepareOnlineOptimization limits opt = .ok stored) :
    WithinLimits limits stored ↔ opt.Sane limits := by
  obtain ⟨hle, hp⟩ := effectiveOnlineDuration_spec opt hdef hcap
  rw [prepareOnlineOptimization] at hok
  generalize effectiveOnlineDuration limits opt = dur at hok hle hp
  split at hok
  · cases hok
  rename_i hl
  cases hok
  refine and_congr (forall_congr' fun hu => ?_) (forall_congr' fun hs => ?_)
  · have hlease : milliseconds limits.heartbeatRequiredAfterDuration < dur →
        0 < opt.leaseTtlMs := fun hlt => by_contra fun hno => hl ⟨hlt, hu, not_lt.1 hno⟩
    have hu : opt.allowUnboundedOnline = false := hu
    simp only [hu, true_and] at hp
    refine ⟨fun h => ?_, fun h => ⟨hp.2 (by omega), hle, hlease⟩⟩
    rcases hp.1 h.1 <;> omega
  · have hm : 0 < maxInt32 := by decide
    rw [← hp]
    dsimp only
    split_ifs <;> omega

/-- An online run that is accepted is stored, and within the limits of the server exactly if the
client's bounds are sane. -/
theorem create_bounded (s : RunStore) (runID : RunId) (validateBatch : RunInput → Option String)
    (generated : RunId) (input : RunInput) (parent : Option RunId) (now : Int)
    (hdef : millisecond ≤ s.onlineLimits.defaultMaxOnlineDuration)
    (hcap : millisecond ≤ s.onlineLimits.serverMaxOnlineDuration) (opt : OptimizationConfig)
    (hopt : input.optimization = some opt) (ho : opt.online = true) (rec : RunRecord)
    (s' : RunStore)
    (h : s.create runID validateBatch generated (some input) parent now = .ok (rec, s')) :
    s'.get rec.id = some rec ∧ ∃ stored, rec.input.bind (·.optimization) = some stored ∧
      stored.allowUnboundedOnline = opt.allowUnboundedOnline ∧
      (WithinLimits s.onlineLimits stored ↔ opt.Sane s.onlineLimits) := by
  obtain ⟨-, rfl, -⟩ := create_ok h
  refine ⟨KeyMap.get_set_self .., ?_⟩
  simp only [create] at h
  generalize (if runID = "" then generated else runID) = runID' at h
  split at h
  · cases h
  split_ifs at h
  cases hok : prepareOnlineOptimization s.onlineLimits opt with
  | error => simp [prepareOnlineRunInput, hopt, ho, hok, Except.map] at h
  | ok stored =>
    simp [prepareOnlineRunInput, hopt, ho, hok, Except.map] at h
    obtain ⟨rfl, -⟩ := h
    refine ⟨stored, rfl, ?_, prepareOnlineOptimization_iff hdef hcap hok⟩
    rw [prepareOnlineOptimization] at hok
    split at hok
    · cases hok
    · cases hok
      rfl

/-- An online run with the default limits, which do not cap the steps, and a negative number of
steps. -/
theorem create_bounded_default : ∃ rec s', (({} : RunStore).create "r" (fun _ => none) "" (some
      { optimization := some { online := true, maxControllerSteps := -5 } }) none 0) =
        .ok (rec, s') ∧
      ∃ stored, rec.input.bind (·.optimization) = some stored ∧ WithinLimits {} stored := by
  refine ⟨_, _, rfl, ?_⟩
  obtain ⟨-, stored, hs, -, hw⟩ := create_bounded {} "r" (fun _ => none) ""
    { optimization := some { online := true, maxControllerSteps := -5 } } none 0 (by decide)
    (by decide) { online := true, maxControllerSteps := -5 } rfl rfl _ _ rfl
  exact ⟨stored, hs, hw.2 ⟨by decide, nofun⟩⟩

/-- A negative duration is neither replaced by the default nor capped, and a run that may be
unbounded is stored without a bound on its steps. -/
theorem create_unbounded : (∃ rec s', (({} : RunStore).create "r" (fun _ => none) "" (some
      { optimization := some { online := true, maxOnlineDurationMs := -1 } }) none 0) =
        .ok (rec, s') ∧ (rec.input.bind (·.optimization)).map (·.maxOnlineDurationMs) = some (-1)) ∧
    ∃ rec s', (({ onlineLimits := { serverMaxControllerSteps := 10 } } : RunStore).create "r"
      (fun _ => none) "" (some
        { optimization := some { online := true, allowUnboundedOnline := true } }) none 0) =
          .ok (rec, s') ∧
      (rec.input.bind (·.optimization)).map (·.maxControllerSteps) = some 0 :=
  ⟨⟨_, _, rfl, rfl⟩, _, _, rfl, rfl⟩

end

end SimCore.Runs
