import SimCore.Runs.RunStore
import Mathlib.Logic.Relation

/-!
# The cap on online optimizations

A guarded start counts the online optimizations that are running and refuses one more when there are
as many as the cap allows. The count is taken over the records, whose statuses and inputs other
operations change meanwhile. No such change makes an online run running, so the count stays within
the cap, and a start is refused for the cap only if it is used up.

## Main definitions

* `StoreStep`: the operations that create, start, end and delete runs
* `Stored`: the stores that they can reach

## Main results

* `online_runs_capped`: the cap holds in every store reached, and refusals are exact
-/

namespace SimCore.Runs

open RunStore RunRecord

/-- The operations that create, start, end and delete runs. A failed creation changes nothing. -/
inductive StoreStep : RunStore → RunStore → Prop
  | create {s s' : RunStore} {rec : RunRecord} (runID : RunId)
      (validateBatch : RunInput → Option String) (generated : RunId) (input : Option RunInput)
      (parent : Option RunId) (now : Int)
      (h : s.create runID validateBatch generated input parent now = .ok (rec, s')) : StoreStep s s'
  | start (s : RunStore) (runID : RunId) (now : Int) :
      StoreStep s (s.setStatusRunningWithOnlineConcurrencyGuard runID now).2
  | finish (s : RunStore) (runID : RunId) (status : RunStatus) (errMsg : String) (now : Int)
      (h : isTerminalStatus status = true) : StoreStep s (s.setStatus runID status errMsg now).2
  | cleanup (s : RunStore) (now : Int) (order : List RunId) : StoreStep s (s.cleanupNow now order)
  | trim (s : RunStore) (parentRunID bestRunID : RunId) :
      StoreStep s (s.trimOptimizationCandidates parentRunID bestRunID)

/-- The stores with given settings that the operations reach, in any order. -/
def Stored (limits : OnlineRunLimits) (cfg : RunStoreLifecycleConfig) : RunStore → Prop :=
  Relation.ReflTransGen StoreStep { onlineLimits := limits, lifecycle := cfg }

variable {s s' : RunStore} {limits : OnlineRunLimits} {cfg : RunStoreLifecycleConfig}

/-- Whether a run was created as an online optimization. -/
def RunRecord.isOnline (rec : RunRecord) : Bool :=
  (rec.input.bind (·.optimization)).any (·.online)

/-! ### What a step does to the count -/

theorem not_runningOnline_of_terminal {rec : RunRecord} (h : rec.terminal = true) :
    rec.runningOnline = false := by
  rw [runningOnline]
  cases hs : rec.status <;> simp [terminal, isTerminalStatus, hs] at h ⊢

theorem countRunningOnline_le (ids : List RunId)
    (h : ∀ id rec, s'.get id = some rec → rec.runningOnline = true →
      id ∈ ids ∨ (s.get id).any (·.runningOnline) = true) :
    s'.countRunningOnline ≤ ids.length + s.countRunningOnline :=
  KeyMap.countP_entries_le ids h

/-- A new record of a run that keeps its input adds to the count only if the run is online. -/
theorem countRunningOnline_update {runID : RunId} {rec : RunRecord}
    (hrec : s.get runID = some rec) (after : RunRecord) (hi : after.input = rec.input) :
    (s.update runID fun _ => after).countRunningOnline ≤
      (if rec.isOnline then 1 else 0) + s.countRunningOnline := by
  have ho : ∀ id rec', (s.update runID fun _ => after).get id = some rec' → id ≠ runID →
      rec'.runningOnline = true → (s.get id).any (·.runningOnline) = true := by
    intro id rec' hg hne hr
    rw [get_update, if_neg hne] at hg
    simp [hg, hr]
  split_ifs with hon
  · refine countRunningOnline_le [runID] fun id rec' hg hr => ?_
    by_cases hne : id = runID
    · exact .inl (List.mem_singleton.2 hne)
    · exact .inr (ho id rec' hg hne hr)
  · refine countRunningOnline_le [] fun id rec' hg hr => .inr ?_
    by_cases hne : id = runID
    · rw [get_update, if_pos hne, hne, hrec, Option.map_some] at hg
      have hof : rec'.isOnline = rec.isOnline := by
        rw [← Option.some.inj hg, isOnline, hi, isOnline]
      exact absurd (hof ▸ (Bool.and_eq_true_iff.1 hr).2) hon
    · exact ho id rec' hg hne hr

/-- A guarded start of an online run has found room for it. -/
theorem countRunningOnline_start (s : RunStore) (runID : RunId) (now : Int)
    (hcap : 0 < s.onlineLimits.maxConcurrentOnlineRuns)
    (hc : (s.countRunningOnline : Int) ≤ s.onlineLimits.maxConcurrentOnlineRuns) :
    ((s.setStatusRunningWithOnlineConcurrencyGuard runID now).2.countRunningOnline : Int) ≤
      s.onlineLimits.maxConcurrentOnlineRuns := by
  rw [setStatusRunningWithOnlineConcurrencyGuard]
  cases hrec : s.get runID with
  | none => exact hc
  | some rec =>
    simp only
    generalize (if rec.startedAtUnixMs = 0 then now else rec.startedAtUnixMs) = started
    split_ifs with hru ht hr
    · exact hc
    · exact hc
    · exact hc
    · refine (Int.ofNat_le.2 (countRunningOnline_update hrec
        { rec.withStatus .running with startedAtUnixMs := started } rfl)).trans ?_
      split_ifs with ho
      · have ho : (rec.input.bind (·.optimization)).any (·.online) = true := ho
        have hro : ¬ (s.countRunningOnline : Int) ≥ s.onlineLimits.maxConcurrentOnlineRuns :=
          fun hge => hr (by simp [onlineCapReached, ho, hcap, hge])
        omega
      · omega

/-- The other steps make no online run running. -/
theorem StoreStep.countRunningOnline (h : StoreStep s s')
    (hcap : 0 < s.onlineLimits.maxConcurrentOnlineRuns)
    (hc : (s.countRunningOnline : Int) ≤ s.onlineLimits.maxConcurrentOnlineRuns) :
    (s'.countRunningOnline : Int) ≤ s.onlineLimits.maxConcurrentOnlineRuns := by
  have hk : (∀ id rec, s'.get id = some rec → rec.runningOnline = true → s.get id = some rec) →
      (s'.countRunningOnline : Int) ≤ s.onlineLimits.maxConcurrentOnlineRuns := by
    intro hs
    have hle : s'.countRunningOnline ≤ ([] : List RunId).length + s.countRunningOnline :=
      countRunningOnline_le [] fun id rec hget hr =>
        .inr (by simp [hs id rec hget hr, hr])
    rw [List.length_nil] at hle
    omega
  cases h with
  | create _ _ _ _ _ _ h =>
    obtain ⟨-, rfl, hpe, -⟩ := create_ok h
    refine hk fun id rec hget hr => ?_
    rw [RunStore.get, KeyMap.get_set] at hget
    split at hget
    · cases hget
      simp [runningOnline, hpe] at hr
    · exact hget
  | start runID now => exact countRunningOnline_start s runID now hcap hc
  | finish _ _ _ _ hst =>
    refine hk fun id rec hget hr => ?_
    rw [get_setStatus] at hget
    split at hget
    · obtain ⟨rec₀, -, rfl⟩ := Option.map_eq_some_iff.1 hget
      rw [not_runningOnline_of_terminal (terminal_ended_of_status hst)] at hr
      cases hr
    · exact hget
  | cleanup now order =>
    refine hk fun id rec hget hr => ?_
    cases hrec : s.get id with
    | none =>
      rw [get_cleanupNow_of_none now order hrec] at hget
      cases hget
    | some =>
      obtain ⟨-, hs⟩ | ⟨ht, hg | hd⟩ := get_cleanupNow s now order hrec
      · rw [← hs, hget]
      · rw [hg] at hget
        cases hget
      · rw [hd] at hget
        cases hget
        rw [not_runningOnline_of_terminal (by simpa using ht)] at hr
        cases hr
  | trim parentRunID =>
    refine hk fun id rec hget hr => ?_
    cases hp : s.get parentRunID with
    | none => rwa [trimOptimizationCandidates, hp] at hget
    | some =>
      rw [get_trimOptimizationCandidates hp] at hget
      obtain ⟨rec₀, hrec, hget⟩ := Option.bind_eq_some_iff.1 hget
      split_ifs at hget with hke hl
      · rw [hrec, hget]
      · cases hget
        have ht : rec₀.terminal = true := by
          by_contra hrunning
          exact hke (by simp [hrunning])
        rw [not_runningOnline_of_terminal (by simpa using ht)] at hr
        cases hr

theorem StoreStep.onlineLimits (h : StoreStep s s') : s'.onlineLimits = s.onlineLimits := by
  cases h with
  | create _ _ _ _ _ _ h =>
    obtain ⟨-, rfl, -⟩ := create_ok h
    rfl
  | start runID now =>
    obtain ⟨_, h⟩ | ⟨_, -, -, h⟩ | ⟨_, _, -, -, -, h⟩ := setStatusRunning_cases s runID now
    · rw [h]
    · rw [h]
    · rw [h]
      rfl
  | finish => rfl
  | cleanup => rfl
  | trim =>
    rw [trimOptimizationCandidates]
    split <;> rfl

theorem Stored.onlineLimits (h : Stored limits cfg s) : s.onlineLimits = limits := by
  induction h with
  | refl => rfl
  | tail _ hs ih => exact hs.onlineLimits.trans ih

theorem Stored.countRunningOnline (h : Stored limits cfg s)
    (hc : 0 < limits.maxConcurrentOnlineRuns) :
    (s.countRunningOnline : Int) ≤ limits.maxConcurrentOnlineRuns := by
  induction h with
  | refl => exact hc.le
  | tail hs hst ih =>
    have hl := Stored.onlineLimits hs
    rw [← hl] at hc ih ⊢
    exact hst.countRunningOnline hc ih

/-- In every store that creations, guarded starts, ends, cleanups and trims reach in any order, no
more online optimizations are running than the cap allows, and a pending online run is refused for
the cap exactly if the cap is used up at that moment. -/
theorem online_runs_capped (h : Stored limits cfg s) (hcap : 0 < limits.maxConcurrentOnlineRuns) :
    (s.countRunningOnline : Int) ≤ limits.maxConcurrentOnlineRuns ∧
    ∀ runID rec now, s.get runID = some rec → rec.status = .pending → rec.isOnline = true →
      ((∃ limit, (s.setStatusRunningWithOnlineConcurrencyGuard runID now).1 =
          .error (.onlineRunConcurrencyLimit limit)) ↔
        (s.countRunningOnline : Int) = limits.maxConcurrentOnlineRuns) := by
  have hc := h.countRunningOnline hcap
  refine ⟨hc, fun runID rec now hrec hp ho => ?_⟩
  have ho : (rec.input.bind (·.optimization)).any (·.online) = true := ho
  rw [setStatusRunningWithOnlineConcurrencyGuard, hrec]
  simp only [hp, terminal, isTerminalStatus, onlineCapReached, ho,
    h.onlineLimits, hcap, reduceCtorEq, if_false, Bool.false_eq_true, decide_true, Bool.true_and,
    decide_eq_true_eq]
  split_ifs with hr
  · exact iff_of_true ⟨_, rfl⟩ (by omega)
  · refine iff_of_false ?_ (by omega)
    rintro ⟨limit, hl⟩
    cases hl

/-- A server with room for one online optimization. -/
def oneOnline : OnlineRunLimits := { maxConcurrentOnlineRuns := 1 }

/-- An online optimization driven by the utilisation. -/
def onlineInput : RunInput where
  optimization := some { online := true, optimizationTargetPrimary := "cpu_utilization" }

def createOnline (s : RunStore) (runID : RunId) : RunStore :=
  match s.create runID (fun _ => none) "" (some onlineInput) none 0 with
  | .ok (_, s') => s'
  | .error _ => s

theorem Stored.createOnline (h : Stored limits cfg s) (runID : RunId) :
    Stored limits cfg (Runs.createOnline s runID) := by
  rw [Runs.createOnline]
  split
  · rename_i hc
    exact .tail h (.create _ _ _ _ _ _ hc)
  · exact h

/-- The store in which the first of two online optimizations is running. -/
def oneOfTwoRunning : RunStore :=
  ((createOnline (createOnline { onlineLimits := oneOnline } "a")
    "b").setStatusRunningWithOnlineConcurrencyGuard "a" 0).2

theorem online_runs_capped_oneOfTwo :
    Stored oneOnline {} oneOfTwoRunning ∧ oneOfTwoRunning.countRunningOnline = 1 ∧
      ∃ limit, (oneOfTwoRunning.setStatusRunningWithOnlineConcurrencyGuard "b" 0).1 =
        .error (.onlineRunConcurrencyLimit limit) := by
  have hst : Stored oneOnline {} { onlineLimits := oneOnline } := .refl
  have hs : Stored oneOnline {} oneOfTwoRunning :=
    .tail ((hst.createOnline "a").createOnline "b") (.start _ "a" 0)
  have hc : oneOfTwoRunning.countRunningOnline = 1 := by decide +kernel
  obtain ⟨-, hr⟩ := online_runs_capped hs (by decide)
  have hp : ∃ rec, oneOfTwoRunning.get "b" = some rec ∧ rec.status = .pending ∧
      rec.isOnline = true := by
    refine ⟨_, Option.some_get (show (oneOfTwoRunning.get "b").isSome = true by decide +kernel), ?_⟩
    decide +kernel
  obtain ⟨rec, hrec, hp, ho⟩ := hp
  refine ⟨hs, hc, (hr "b" rec 0 hrec hp ho).2 ?_⟩
  rfl

end SimCore.Runs
