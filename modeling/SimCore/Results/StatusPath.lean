import SimCore.Runs.Lifecycle

/-!
# The path of statuses

A run is pending, may be running, and ends once. The store does not see to this: `SetStatus`
overwrites whatever status a run has, so that a stop of a completed run makes it stopped and moves
its end. As long as no status is set on a run that has ended, the statuses of every run form a path,
and the last status and the time of the end stay as they are.

## Main results

* `status_absorbing`: the path and its end, if no status is set on a run that has ended
* `stop_overwrites_completed`: a stop of a completed run
-/

namespace SimCore.Runs

open Concurrent

/-- The statuses of a run, the latest first: pending, then possibly running, then possibly an end.
-/
def statusPath : List RunStatus → Bool
  | [.pending] | [.running, .pending] => true
  | [status, .pending] | [status, .running, .pending] => isTerminalStatus status
  | _ => false

/-- The statuses that a record remembers are a path to its status. -/
structure OnPath (rec : RunRecord) : Prop where
  path : statusPath rec.history = true
  latest : rec.history.head? = some rec.status

/-- The operation sets no status on a run that has ended. -/
def endsOnce (e : Executor) (_ : Nat) (op : Op) (_ : Answer) : Bool :=
  match op with
  | .setStatus _ runID _ _ => (e.store.get runID).all fun rec => !rec.terminal
  | _ => true

section Record

variable {rec : RunRecord} {cfg : RunStoreLifecycleConfig}

theorem OnPath.cases (h : OnPath rec) (ht : rec.terminal = false) :
    rec.status = .pending ∧ rec.history = [.pending] ∨
      rec.status = .running ∧ rec.history = [.running, .pending] := by
  obtain ⟨hp, hl⟩ := h
  rw [RunRecord.terminal] at ht
  unfold statusPath at hp
  split at hp
  · rename_i hh
    rw [hh] at hl
    exact .inl ⟨(Option.some.inj hl).symm, hh⟩
  · rename_i hh
    rw [hh] at hl
    exact .inr ⟨(Option.some.inj hl).symm, hh⟩
  · rename_i hh
    rw [hh] at hl
    rw [Option.some.inj hl, ht] at hp
    cases hp
  · rename_i hh
    rw [hh] at hl
    rw [Option.some.inj hl, ht] at hp
    cases hp
  · cases hp

@[simp] theorem ended_history (ending : Ending) (errMsg : String) (now : Int) :
    (RunStore.ended cfg ending.status errMsg now rec).history = ending.status :: rec.history := by
  cases ending <;> simp only [RunStore.ended, Ending.status, reduceCtorEq, if_false,
    isTerminalStatus, if_true, RunStore.finalizeRunStorage] <;> split_ifs <;> rfl

@[simp] theorem ended_status (ending : Ending) (errMsg : String) (now : Int) :
    (RunStore.ended cfg ending.status errMsg now rec).status = ending.status := by
  cases ending <;> simp only [RunStore.ended, Ending.status, reduceCtorEq, if_false,
    isTerminalStatus, if_true, RunStore.finalizeRunStorage] <;> split_ifs <;> rfl

/-- A run that has not ended goes on along its path. -/
theorem OnPath.ended (h : OnPath rec) (ht : rec.terminal = false) (ending : Ending)
    (errMsg : String) (now : Int) : OnPath (RunStore.ended cfg ending.status errMsg now rec) := by
  refine ⟨?_, by simp⟩
  rw [ended_history]
  obtain ⟨-, h⟩ | ⟨-, h⟩ := h.cases ht <;> rw [h] <;> cases ending <;> rfl

end Record

section Step

variable {env : Server} {e : Executor} {op : Op} {a : Answer} {i : Nat} {id : RunId}
  {rec : RunRecord}

/-- An operation keeps the records on their paths. -/
theorem onPath_step (hok : endsOnce e i op a = true)
    (h : ∀ rec, e.store.get id = some rec → OnPath rec) :
    ∀ rec, (op.run env a e).2.store.get id = some rec → OnPath rec := by
  intro rec' hr'
  have hf := op.fate env a e id
  rw [hr'] at hf
  generalize hb : e.store.get id = before at hf
  cases hf with
  | created hs hh => exact ⟨by rw [hh]; rfl, by rw [hh, hs]; rfl⟩
  | kept hk =>
    have := h _ hb
    exact ⟨hk.history ▸ this.path, by rw [hk.history, hk.status]; exact this.latest⟩
  | started _ hr ht =>
    obtain ⟨-, hh⟩ | ⟨hs, -⟩ := (h _ hb).cases ht
    · exact ⟨by simp [RunRecord.withStatus, hh, statusPath], rfl⟩
    · exact absurd hs hr
  | ended =>
    simp only [endsOnce, hb, Option.all_some, Bool.not_eq_true'] at hok
    exact (h _ hb).ended hok _ _ _

/-- The status and the end of a run that has ended stay as they are while it is stored. -/
theorem terminal_step (hok : endsOnce e i op a = true) (hr : e.store.get id = some rec)
    (ht : rec.terminal = true) {rec' : RunRecord}
    (hr' : (op.run env a e).2.store.get id = some rec') :
    rec'.status = rec.status ∧ rec'.endedAtUnixMs = rec.endedAtUnixMs := by
  have hf := op.fate env a e id
  rw [hr, hr'] at hf
  cases hf with
  | kept hk => exact ⟨hk.status, hk.endedAt⟩
  | started _ _ hn => exact absurd ht (by simp [hn])
  | ended => simp [endsOnce, hr, ht] at hok

end Step

section Runs

variable {env : Server} {c : Pool (machine env)}

/-- The record of a run in a pool. -/
def recordOf (c : Pool (machine env)) (id : RunId) : Option RunRecord :=
  Executor.store c.shared |>.get id

/-- A run that has ended keeps its status and its end as long as it is stored. -/
theorem terminal_play {id : RunId} (moves : List (Pool.Move Call (machine env))) :
    ∀ {c : Pool (machine env)} {rec : RunRecord},
      c.passes (Call.body env) endsOnce moves = true → recordOf c id = some rec →
      rec.terminal = true →
      (∀ k ≤ moves.length, (recordOf (c.play (Call.body env) (moves.take k)) id).isSome = true) →
      ∃ rec', recordOf (c.play (Call.body env) moves) id = some rec' ∧
        rec'.status = rec.status ∧ rec'.endedAtUnixMs = rec.endedAtUnixMs := by
  induction moves with
  | nil => exact fun {c rec} _ hr _ _ => ⟨rec, hr, rfl, rfl⟩
  | cons m _ ih =>
    intro c rec hp hr ht hs
    simp only [Pool.passes, Bool.and_eq_true] at hp
    -- after one move the run is still stored, with the same status and end
    obtain ⟨rec₁, hr₁⟩ := Option.isSome_iff_exists.1 (hs 1 (by simp))
    have hr₁ : recordOf (c.move (Call.body env) m) id = some rec₁ := hr₁
    have hsa : rec₁.status = rec.status ∧ rec₁.endedAtUnixMs = rec.endedAtUnixMs := by
      cases m with
      | start =>
        have : some rec = some rec₁ := hr.symm.trans hr₁
        cases this
        exact ⟨rfl, rfl⟩
      | step =>
        simp only [Pool.move, Pool.operation] at hr₁ hp
        split at hr₁
        · rename_i hth
          rw [hth] at hp
          exact terminal_step (by simpa using hp.1) hr ht hr₁
        · have : some rec = some rec₁ := hr.symm.trans hr₁
          cases this
          exact ⟨rfl, rfl⟩
    have ht₁ : rec₁.terminal = true := by
      rw [RunRecord.terminal, hsa.1]
      exact ht
    obtain ⟨rec', hr', hst, he⟩ := ih hp.2 hr₁ ht₁ fun k hk =>
      hs (k + 1) (by simpa using hk)
    exact ⟨rec', hr', hst.trans hsa.1, he.trans hsa.2⟩

/-- In every interleaving in which no status is set on a run that has ended, the statuses of every
stored run are a path to its status, and from any state on a run that has ended keeps its status and
its end as long as it is stored. -/
theorem status_absorbing
    (hc : RunsBy (Call.body env) (fun e i op a => endsOnce e i op a = true) Fresh c) (id : RunId)
    {rec : RunRecord} (hrec : recordOf c id = some rec) :
    statusPath rec.history = true ∧ rec.history.head? = some rec.status ∧
      ∀ moves : List (Pool.Move Call (machine env)),
        c.passes (Call.body env) endsOnce moves = true → rec.terminal = true →
        (∀ k ≤ moves.length, (recordOf (c.play (Call.body env) (moves.take k)) id).isSome = true) →
        ∃ rec', recordOf (c.play (Call.body env) moves) id = some rec' ∧
          rec'.status = rec.status ∧ rec'.endedAtUnixMs = rec.endedAtUnixMs := by
  have hp : ∀ rec, recordOf c id = some rec → OnPath rec := by
    refine hc.shared (I := fun e : Executor => ∀ rec, e.store.get id = some rec → OnPath rec) ?_ ?_
    · intro e hf rec hrec
      rw [RunStore.get, hf.runs] at hrec
      cases hrec
    · exact fun e i op a h hok => onPath_step hok h
  have hon := hp rec hrec
  exact ⟨hon.path, hon.latest, fun moves hpa ht hs =>
    terminal_play moves hpa hrec ht hs⟩

/-- A run is created and simulated to its end. -/
def completedRun : List (Pool.Move Call (machine {})) :=
  [.start (.create "r" (some {}) none), .step 0 {}, .start (.start "r")] ++
    List.replicate 18 (.step 1 { now := 1 })

/-- The completed run keeps its status and its end while another run is created. -/
theorem status_absorbing_completedRun : ∃ (c : Pool (machine {})) (rec rec' : RunRecord),
      RunsBy (Call.body {}) (fun e i op a => endsOnce e i op a = true) Fresh c ∧
      recordOf c "r" = some rec ∧ rec.status = .completed ∧ statusPath rec.history = true ∧
      recordOf (c.play (Call.body {}) [.start (.create "q" none none), .step 2 {}]) "r" =
        some rec' ∧ rec'.status = rec.status ∧ rec'.endedAtUnixMs = rec.endedAtUnixMs := by
  have hc : RunsBy (Call.body {}) (fun e i op a => endsOnce e i op a = true) Fresh
      (Pool.play (Call.body {}) ⟨({} : Executor), []⟩ completedRun) :=
    runsBy_play (.init ⟨rfl, rfl⟩) (by decide +kernel) fun _ _ _ _ h => h
  have hr : (recordOf (Pool.play (Call.body {}) ⟨({} : Executor), []⟩ completedRun) "r").map
      (·.status) = some .completed := by decide +kernel
  obtain ⟨rec, hr, hs⟩ := Option.map_eq_some_iff.1 hr
  obtain ⟨hp, -, hst⟩ := status_absorbing hc "r" hr
  obtain ⟨rec', h⟩ := hst [.start (.create "q" none none), .step 2 {}] (by decide +kernel)
    (by rw [RunRecord.terminal, hs]; rfl) (by decide +kernel)
  exact ⟨_, rec, rec', hc, hr, hs, hp, h⟩

/-- A stop of a completed run makes it stopped and moves its end. -/
theorem stop_overwrites_completed : ∃ c : Pool (machine {}), Runs (Call.body {}) Fresh c ∧
      (recordOf c "r").map (fun rec => (rec.status, rec.endedAtUnixMs)) = some (.completed, 1) ∧
      ∃ c' : Pool (machine {}), Runs (Call.body {}) Fresh c' ∧
        c' = c.play (Call.body {}) [.start (.stop "r"), .step 2 {}, .step 2 { now := 2 }] ∧
        (recordOf c' "r").map (fun rec => (rec.status, rec.endedAtUnixMs, rec.history)) =
          some (.stopped, 2, [.stopped, .completed, .running, .pending]) := by
  have hc : Runs (Call.body {}) Fresh
      (Pool.play (Call.body {}) ⟨({} : Executor), []⟩ completedRun) :=
    runs_play (.init ⟨rfl, rfl⟩) _
  exact ⟨_, hc, by decide +kernel, _, runs_play hc _, rfl, by decide +kernel⟩

end Runs

end SimCore.Runs
