import SimCore.Runs.Goroutines

/-!
# One goroutine per run, and no run without its end

A start of a run that is already running is accepted: a second goroutine then works on the run, and
the cleanup of either removes what the other has registered. Without such starts, and if no id is
created again before the goroutine of the older run is over, every run has at most one goroutine,
which removes only what it has registered itself.

A run whose goroutine has returned, and of which no stop is on its way, has ended. This needs in
addition that no optimization ends by its own deadline, that no lease ends between the moment in
which the goroutine found no reason for an end and its check of the context, and that no older run
has left timers behind: in each case the goroutine takes the end for somebody else's, and nobody
sets the status.

## Main results

* `single_goroutine`, `start_twice`: one goroutine per run, and two of them
* `entries_of_owner`: what is registered belongs to the goroutine of the run
* `no_orphan`, `deadline_orphan`: every run ends, and one that does not
-/

namespace SimCore.Runs

open Concurrent Call

section

variable {env : Server} {c : Pool (machine env)}

def executorOf (c : Pool (machine env)) : Executor :=
  c.shared

/-- In every interleaving in which no start finds its run running and no id is created again before
the goroutine of the older run is over, every run has at most one goroutine, and a cleanup finds
only entries of its own goroutine. -/
theorem single_goroutine
    (hc : RunsBy (Call.body env) (fun e i op a => startsOnce e i op a = true) Fresh c)
    (id : RunId) : ((executorOf c).live id).length ≤ 1 ∧
    (∀ (i self : Nat) (next : Unit → Prog env Unit),
      c.threads[i]? = some (.call (M := machine env) (.cleanup id self) next) →
      self = i ∧ Registered (executorOf c) id i) ∧
    ∀ (i : Nat) (a : Answer) (rec : RunRecord), (executorOf c).store.get id = some rec →
      rec.status = .running →
      ((Op.setStatusRunning id i).run env a (executorOf c)).2.store = (executorOf c).store := by
  have hc' : RunsBy (body env) (Regular False) Fresh c :=
    hc.mono fun _ _ _ _ h => ⟨h, False.elim⟩
  have hinv : RunInv False (executorOf c) id := inv_runsBy hc' id
  refine ⟨?_, fun i self next hi => ?_, fun i a rec hrec hr => ?_⟩
  · obtain h | h := hinv.live
    · simp [h]
    · rw [h]
      cases howners : (executorOf c).owners id with
      | nil => simp
      | cons t ts =>
        have := (hinv.single t (by simp [howners])).1
        rw [howners] at this
        rw [this]
        simp
  · obtain ⟨rfl, hm, -⟩ := pre_runsBy hc' hi
    exact ⟨rfl, (hinv.single self hm).2⟩
  · simp only [Op.run, RunStore.setStatusRunningWithOnlineConcurrencyGuard, hrec, hr, if_true]
    rfl

/-- A run is created and started, and its goroutine has come to its cleanup. -/
def almostDone : List (Pool.Move Call (machine {})) :=
  [.start (.create "r" (some {}) none), .step 0 {}, .start (.start "r")] ++
    List.replicate 17 (.step 1 { now := 1 })

/-- The goroutine is alone, and about to remove its own entries. -/
theorem single_goroutine_almostDone : ∃ c : Pool (machine {}),
      RunsBy (Call.body {}) (fun e i op a => startsOnce e i op a = true) Fresh c ∧
      (executorOf c).live "r" = [1] ∧ (executorOf c).cancels "r" = some 1 ∧
      ((executorOf c).live "r").length ≤ 1 := by
  have hc : RunsBy (body {}) (fun e i op a => startsOnce e i op a = true) Fresh
      (Pool.play (body {}) ⟨({} : Executor), []⟩ almostDone) :=
    runsBy_play (.init ⟨rfl, rfl⟩) (by decide +kernel) fun _ _ _ _ h => h
  exact ⟨_, hc, by decide +kernel, by decide +kernel, (single_goroutine hc "r").1⟩

/-- In the same interleavings, whatever is registered for a run is registered by the only goroutine
that has claimed the run and not yet cleaned up. -/
theorem entries_of_owner
    (hc : RunsBy (Call.body env) (fun e i op a => startsOnce e i op a = true) Fresh c) (id : RunId)
    (t : Nat) (ht : some t ∈ [(executorOf c).cancels id, (executorOf c).workloadStates id,
      (executorOf c).resourceManagers id, (executorOf c).policyManagers id,
      (executorOf c).runScenarios id]) : (executorOf c).owners id = [t] := by
  have hinv : RunInv False (executorOf c) id :=
    inv_runsBy (hc.mono fun _ _ _ _ h => ⟨h, False.elim⟩) id
  simp only [List.mem_cons, List.not_mem_nil, or_false, eq_comm (a := some t)] at ht
  cases ho : (executorOf c).owners id with
  | nil =>
    obtain ⟨hca, hw, hrm, hp, hsc⟩ := hinv.free ho
    simp [hca, hw, hrm, hp, hsc] at ht
  | cons i _ =>
    obtain ⟨h, hr⟩ := hinv.single i (by simp [ho])
    have hi : t = i := by
      rcases ht with ht | ht | ht | ht | ht
      exacts [hr.cancels t ht, hr.workloadStates t ht, hr.resourceManagers t ht,
        hr.policyManagers t ht, hr.runScenarios t ht]
    rw [← ho, h, hi]

theorem entries_of_owner_almostDone : ∃ c : Pool (machine {}),
    (executorOf c).cancels "r" = some 1 ∧ (executorOf c).owners "r" = [1] := by
  have hc : RunsBy (body {}) (fun e i op a => startsOnce e i op a = true) Fresh
      (Pool.play (body {}) ⟨({} : Executor), []⟩ almostDone) :=
    runsBy_play (.init ⟨rfl, rfl⟩) (by decide +kernel) fun _ _ _ _ h => h
  exact ⟨_, by decide +kernel, entries_of_owner hc "r" 1 (by decide +kernel)⟩

/-- Two starts of one run: both leave a goroutine behind, and the cleanup of the first removes the
cancel function of the second. -/
theorem start_twice :
    ∃ c c' : Pool (machine {}), Runs (Call.body {}) Fresh c ∧ Runs (Call.body {}) Fresh c' ∧
      (executorOf c).live "r" = [2, 1] ∧ (executorOf c).cancels "r" = some 2 ∧
      (executorOf c').live "r" = [2] ∧ (executorOf c').cancels "r" = none := by
  have hc : Runs (body {}) Fresh (Pool.play (body {}) ⟨({} : Executor), []⟩
      ([.start (.create "r" (some {}) none), .step 0 {}, .start (.start "r"), .step 1 {},
        .step 1 {}, .step 1 {}, .start (.start "r"), .step 2 {}, .step 2 {}, .step 2 {}] :
        List (Pool.Move Call (machine {})))) :=
    runs_play (.init ⟨rfl, rfl⟩) _
  have hc' := runs_play hc (List.replicate 15 (.step 1 { now := 1 }))
  exact ⟨_, _, hc, hc', by decide +kernel, by decide +kernel, by decide +kernel, by decide +kernel⟩

/-- No start finds its run running, no id is created again before the goroutine of the older run is
over or after that run had timers, no optimization ends by its own deadline, and no lease ends after
the goroutine found no reason for it. -/
def endsOrderly (e : Executor) (i : Nat) (op : Op) (a : Answer) : Bool :=
  startsOnce e i op a && endsInTime e i op a

/-- In every orderly interleaving, a run whose goroutine has returned, and of which no stop is on
its way, has ended. -/
theorem no_orphan
    (hc : RunsBy (Call.body env) (fun e i op a => endsOrderly e i op a = true) Fresh c) (id : RunId)
    (hlaunched : (executorOf c).launched id = true) (hlive : (executorOf c).live id = [])
    (hstopping : (executorOf c).stopping id = []) {rec : RunRecord}
    (hrec : (executorOf c).store.get id = some rec) : rec.terminal = true := by
  have hc' : RunsBy (body env) (Regular True) Fresh c := hc.mono fun e i op a h => by
    obtain ⟨ho, ht⟩ := Bool.and_eq_true_iff.1
      (h : (startsOnce e i op a && endsInTime e i op a) = true)
    exact ⟨ho, fun _ => ht⟩
  have hi : RunInv True (executorOf c) id := inv_runsBy hc' id
  obtain h | h | h := hi.finished trivial hlaunched
  · exact absurd hlive h
  · exact h rec hrec
  · exact absurd hstopping h

/-- A run is stopped while its engine works; the goroutine finds its context cancelled. -/
def stoppedRun : List (Pool.Move Call (machine {})) :=
  [.start (.create "r" (some {}) none), .step 0 {}, .start (.start "r")] ++
    List.replicate 10 (.step 1 {}) ++
    [.start (.stop "r"), .step 2 {}, .step 2 {}, .step 1 { err := some "stopped" }, .step 1 {},
      .step 2 {}, .step 1 {}, .step 1 {}]

/-- The stopped run has ended when its goroutine has returned. -/
theorem no_orphan_stoppedRun : ∃ (c : Pool (machine {})) (rec : RunRecord),
      (executorOf c).launched "r" = true ∧ (executorOf c).live "r" = [] ∧
      (executorOf c).store.get "r" = some rec ∧ rec.status = .stopped ∧ rec.terminal = true := by
  have hc : RunsBy (body {}) (fun e i op a => endsOrderly e i op a = true) Fresh
      (Pool.play (body {}) ⟨({} : Executor), []⟩ stoppedRun) :=
    runsBy_play (.init ⟨rfl, rfl⟩) (by decide +kernel) fun _ _ _ _ h => h
  have hr : ((executorOf (Pool.play (body {}) ⟨({} : Executor), []⟩ stoppedRun)).store.get
      "r").map (·.status) = some .stopped := by decide +kernel
  obtain ⟨rec, hr, hs⟩ := Option.map_eq_some_iff.1 hr
  exact ⟨_, rec, by decide +kernel, by decide +kernel, hr, hs,
    no_orphan hc "r" (by decide +kernel) (by decide +kernel) (by decide +kernel) hr⟩

/-- A server that limits the time of optimizations. -/
def limited : Server where
  maxWallClockRuntime := 1

/-- An optimization that ends because its own wall-clock limit expired stays running. -/
theorem deadline_orphan : ∃ c : Pool (machine limited), Runs (Call.body limited) Fresh c ∧
      (executorOf c).launched "r" = true ∧ (executorOf c).live "r" = [] ∧
      (executorOf c).stopping "r" = [] ∧
      ((executorOf c).store.get "r").map (·.status) = some .running := by
  have hc : Runs (body limited) Fresh (Pool.play (body limited) ⟨({} : Executor), []⟩
      ([.start (.create "r" (some { optimization := some {} }) none), .step 0 {},
        .start (.start "r"), .step 1 {}, .step 1 {}, .step 1 {}, .step 1 {}, .step 1 {},
        .step 1 { experiment := .error "deadline exceeded" }, .step 1 { expired := true },
        .step 1 {}] : List (Pool.Move Call (machine limited)))) :=
    runs_play (.init ⟨rfl, rfl⟩) _
  exact ⟨_, hc, by decide +kernel, by decide +kernel, by decide +kernel, by decide +kernel⟩

end

end SimCore.Runs
