import SimCore.Workload.Halting
import SimCore.Workload.Invariant

/-!
# Workload rows and patterns

The generator keeps the pattern of a row under the key `from:to`. Rows with one key share one
pattern, that of the last of them: rows with equal ends, and rows whose ends only differ in which
colon is the separator.

## Main definitions

* `Serves`: a pattern has the arrival spec and the target of a row
* `OneToOne`: the patterns are those of the rows, each once

## Main results

* `rows_oneToOne_iff`: after the start the patterns are those of the rows exactly if the keys of the
  rows are distinct
* `rows_lost`: four rows that leave two patterns
-/

namespace SimCore.Workload

open Config Interaction Simd

variable {fe : Feed} {env : Env} {standard halted realTime : Bool} {key : String}
  {startTime endTime limit : Time} {fuel : Nat} {s s' : Simulation} {state : State}
  {ps ps' : PatternState} {rows : List WorkloadPattern}

def rowKey (row : WorkloadPattern) : String :=
  patternKey row.source row.target

/-- A pattern generates the arrivals of a row. -/
def Serves (row : WorkloadPattern) (ps : PatternState) : Prop :=
  ps.pattern = row ∧ parseDownstreamTarget row.target = .ok (ps.serviceID, ps.endpointPath) ∧
    ps.active = true

/-- Every pattern serves one row, and every row is served by one pattern. -/
def OneToOne (rows : List WorkloadPattern) (patterns : KeyMap String PatternState) : Prop :=
  ∃ es, List.Perm es patterns.entries ∧ List.Forall₂ (fun row e => Serves row e.2) rows es

/-! ### No error is reported -/

/-- A function of the generator that reports no error; it may crash, or be given too few turns. -/
def Silent {α : Type} (x : Except Halt α) : Prop :=
  ∀ message, x ≠ .error (.failed message)

theorem silent_start (hr : ∀ row ∈ rows, ∃ parts, parseDownstreamTarget row.target = .ok parts) :
    Silent (start fe fuel rows endTime realTime state) := by
  have hc : ∀ row : WorkloadPattern,
      ArrivalsHaltBy fe (fun ha => ∀ message, ha ≠ .failed message) row := by
    intro row _ t epoch h ha hh
    obtain ⟨_, rfl, -⟩ := haltsBy_calculateNextArrivalTime ha hh
    exact fun _ => Halt.noConfusion
  intro message hf
  exact (ends_start (Q := False) (fun _ => Halt.noConfusion) hr
    fun row _ => ⟨hc row, False.elim⟩).haltsBy fuel _ hf message rfl

/-! ### The patterns after the start -/

/-- The start ends with the patterns as they were initialised, up to their schedules. -/
theorem start_patterns (hd : state.now ≤ endTime)
    (hok : start fe fuel rows endTime realTime state = .ok s) :
    ∃ patterns drawn,
      initPatterns fe state.now endTime realTime rows .empty [] = .ok (patterns, drawn) ∧
      s.ws.patterns.keys = patterns.keys ∧ s.AllFit ∧
      ∀ key ps ps', patterns.get key = some ps → s.ws.patterns.get key = some ps' →
        ps'.label = ps.label := by
  obtain ⟨patterns, drawn, hi, hca⟩ := start_cases hd hok
  refine ⟨patterns, drawn, hi, ?_⟩
  have hf := (initial_of_initPatterns (R := fun _ => True) (fun _ _ => trivial) hi).1
  rcases hca with ⟨-, hg⟩ | ⟨-, _, hg, rfl⟩
  · obtain ⟨hc, hf', -⟩ := generate_spec hf hg
    exact ⟨hc.keys, hf', generate_label hf hg⟩
  · unfold Simulation.AllFit
    rw [ws_scheduleGeneration]
    rcases hg with ⟨-, hg⟩ | ⟨-, rfl⟩
    · obtain ⟨hc, hf', -⟩ := generate_spec hf hg
      have hl := generate_label hf hg
      exact ⟨hc.keys, hf', fun key ps ps' hps hps' => hl key ps ps' hps hps'⟩
    · refine ⟨rfl, hf, fun key ps ps' hps hps' => ?_⟩
      obtain rfl : ps = ps' := Option.some.inj (hps.symm.trans hps')
      rfl

theorem Serves.of_label {row : WorkloadPattern} (h : Serves row ps) (hl : ps'.label = ps.label)
    (ha : ps'.active = true) : Serves row ps' := by
  simp only [PatternState.label, Prod.mk.injEq] at hl
  obtain ⟨hp, hs, hpa⟩ := hl
  exact ⟨hp.trans h.1, by rw [hs, hpa]; exact h.2.1, ha⟩

theorem serves_patternEntries {states : List PatternState}
    (ha : List.Forall₂ (Initialised startTime endTime realTime) rows states) :
    List.Forall₂ (fun row e => Serves row e.2) rows (patternEntries rows states) := by
  induction ha with
  | nil => exact .nil
  | cons hr _ ih => exact .cons ⟨hr.pattern, hr.target, hr.fit.active⟩ ih

/-- Patterns that serve the rows go on to do so as long as they keep their labels. -/
theorem serves_of_label {es es' : List (String × PatternState)}
    (hse : List.Forall₂ (fun row e => Serves row e.2) rows es)
    (hs : List.Forall₂ (fun e e' => e'.2.label = e.2.label ∧ e'.2.active = true) es es') :
    List.Forall₂ (fun row e => Serves row e.2) rows es' := by
  induction hse generalizing es' with
  | nil =>
    cases hs
    exact .nil
  | cons hr _ ih =>
    cases hs with
    | cons hh ht => exact .cons (hr.of_label hh.1 hh.2) (ih ht)

theorem map_fst_patternEntries {states : List PatternState} (h : rows.length = states.length) :
    (patternEntries rows states).map Prod.fst = rows.map rowKey := by
  rw [patternEntries, List.map_fst_zip]
  · rfl
  · simp [h]

theorem readable_of_accepted (h : Accepted sc) : ∀ row ∈ sc.normalizedWorkload,
    ∃ parts, parseDownstreamTarget row.target = .ok parts := by
  intro row hr
  obtain ⟨_, hwl, rfl⟩ := List.mem_map.1 hr
  obtain ⟨-, -, svc, path, hp, -⟩ := h.workload_row hwl
  rw [WorkloadPattern.normalized_target]
  exact ⟨(svc, path), parseDownstreamTarget_of_valid hp⟩

/-- For a scenario that the loader accepts, the start reports no error. After it the patterns are
those of the workload rows, each with the arrival spec and the target of its row, exactly if the
keys of the rows are distinct. -/
theorem rows_oneToOne_iff (hp : Prepared env state) (hd : state.now ≤ endTime) :
    Silent (start fe fuel env.scenario.normalizedWorkload endTime realTime state) ∧
    ∀ s, start fe fuel env.scenario.normalizedWorkload endTime realTime state = .ok s →
      (OneToOne env.scenario.normalizedWorkload s.ws.patterns ↔
        (env.scenario.normalizedWorkload.map rowKey).Nodup) := by
  constructor
  · exact silent_start (readable_of_accepted (accepted_of_valid hp.valid))
  intro s hok
  obtain ⟨patterns, _, hin, hk, hf, hla⟩ := start_patterns hd hok
  obtain ⟨states, ha, hpa⟩ := initPatterns_spec hin
  generalize env.scenario.normalizedWorkload = rows at ha hpa ⊢
  have hm := map_fst_patternEntries ha.length_eq
  have hl : (patternEntries rows states).length = rows.length := by
    rw [← List.length_map Prod.fst, hm, List.length_map]
  have ho : patterns = KeyMap.ofEntries (patternEntries rows states) := hpa
  constructor
  · rintro ⟨_, hpe, hs⟩
    rw [← hm, ← KeyMap.length_keys_ofEntries_iff, ← ho, hl, ← hk,
      ← KeyMap.length_entries, ← hpe.length_eq]
    exact hs.length_eq.symm
  · intro hn
    have he : patterns.entries = patternEntries rows states := by
      rw [ho]
      exact KeyMap.entries_ofEntries (hm ▸ hn)
    have hi : List.Forall₂ (fun row e => Serves row e.2) rows patterns.entries := by
      rw [he]
      exact serves_patternEntries ha
    have hr := KeyMap.forall₂_entries (R := fun ps ps' : PatternState =>
      ps'.label = ps.label ∧ ps'.active = true) hk
      fun key ps ps' hps hps' => ⟨hla key ps ps' hps hps', (hf key ps' hps').active⟩
    exact ⟨s.ws.patterns.entries, .refl _, serves_of_label hi hr⟩

/-- Two rows with different targets. -/
def separateRows : Scenario :=
  manyRows [constantRow "client" "api:/" 1, constantRow "client" "db:/" 2]

/-- Two rows with different targets have their own patterns. -/
theorem rows_oneToOne_two : ∃ s, start .still 30 separateRows.normalizedWorkload (10 * second) false
      (startState separateRows {}) = .ok s ∧
    OneToOne separateRows.normalizedWorkload s.ws.patterns := by
  obtain ⟨s, hs, -⟩ := exists_of_trial
    (x := start .still 30 separateRows.normalizedWorkload (10 * second) false
      (startState separateRows {}))
    (p := fun _ => true) (by decide +kernel)
  have hp : Prepared (.still separateRows) (startState separateRows {}) :=
    .init (initial_startState (by decide +kernel))
  have hi := (rows_oneToOne_iff hp (by decide)).2 s hs
  exact ⟨s, hs, hi.2 (by decide +kernel)⟩

/-- The workload rows of `rows_lost`: the first two have the same ends, the other two have ends that
only differ in which colon is the separator. -/
def clashingRows : Scenario :=
  manyRows [constantRow "client" "api:/" 1, constantRow "client" "api:/" 2,
    constantRow "client" "db:api:/" 1, constantRow "client:db" "api:/" 1]

/-- Four rows of an accepted scenario leave two patterns. -/
theorem rows_lost : ∃ s, validateScenario clashingRows = .ok () ∧
    start .still 30 clashingRows.normalizedWorkload (10 * second) false
      (startState clashingRows {}) = .ok s ∧
    clashingRows.normalizedWorkload.length = 4 ∧ s.ws.patterns.keys.length = 2 ∧
    ¬ OneToOne clashingRows.normalizedWorkload s.ws.patterns := by
  obtain ⟨s, hst, ht⟩ := exists_of_trial
    (x := start .still 30 clashingRows.normalizedWorkload (10 * second) false
      (startState clashingRows {}))
    (p := fun s => s.ws.patterns.keys.length = 2) (by decide +kernel)
  have htwo : s.ws.patterns.keys.length = 2 := of_decide_eq_true ht
  have hf : clashingRows.normalizedWorkload.length = 4 := rfl
  refine ⟨s, by decide +kernel, hst, hf, htwo, ?_⟩
  rintro ⟨_, hp, hs⟩
  have hl := hs.length_eq
  rw [hp.length_eq, KeyMap.length_entries, htwo, hf] at hl
  omega

end SimCore.Workload
