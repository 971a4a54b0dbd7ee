import SimCore.Runs.Executor

/-!
# What the operations do to one run

Whatever an operation of the executor does, it does one of six things to the record of a given run:
the run stays absent, is created, is started, ends, is deleted after it has ended, or keeps its
status. Every property of a record along a run of the executor follows from this.

## Main definitions

* `Kept`: a record that keeps its status
* `Fate`: what an operation does to the record of a run

## Main results

* `Op.fate`: every operation has a fate for every run
-/

namespace SimCore.Runs

open RunStore

/-- The second record is the first with other results. The input is dropped only after the run has
ended. -/
structure Kept (cfg : RunStoreLifecycleConfig) (rec rec' : RunRecord) : Prop where
  status : rec'.status = rec.status
  history : rec'.history = rec.history
  endedAt : rec'.endedAtUnixMs = rec.endedAtUnixMs
  child : rec'.isOptimizationChild = rec.isOptimizationChild
  parent : rec'.parent = rec.parent
  input : rec'.input = rec.input ∨ rec.terminal = true
  candidates : rec'.candidateRunIds = rec.candidateRunIds ∨ (cfg.maxOptimizationCandidates > 0 →
      rec'.candidateRunIds.length ≤ cfg.maxOptimizationCandidates.toNat)

theorem Kept.refl (cfg : RunStoreLifecycleConfig) (rec : RunRecord) : Kept cfg rec rec :=
  ⟨rfl, rfl, rfl, rfl, rfl, .inl rfl, .inl rfl⟩

theorem Kept.terminal {cfg : RunStoreLifecycleConfig} {rec rec' : RunRecord}
    (h : Kept cfg rec rec') : rec'.terminal = rec.terminal := by
  rw [RunRecord.terminal, h.status, RunRecord.terminal]

theorem kept_finalizeRunStorage (cfg : RunStoreLifecycleConfig) {rec : RunRecord}
    (h : rec.terminal = true) : Kept cfg rec (finalizeRunStorage cfg rec) := by
  simp only [finalizeRunStorage]
  split_ifs <;> exact ⟨rfl, rfl, rfl, rfl, rfl, .inr h, .inl rfl⟩

/-- What an operation does to the record of a run. -/
inductive Fate (cfg : RunStoreLifecycleConfig) (id : RunId) :
    Op → Option RunRecord → Option RunRecord → Prop
  | absent {op : Op} : Fate cfg id op none none
  | created {runID : RunId} {input : Option RunInput} {parent : Option RunId} {rec : RunRecord}
      (hstatus : rec.status = .pending) (hhistory : rec.history = [.pending])
      (hcandidates : rec.candidateRunIds = [])
      (hchild : rec.isOptimizationChild = "opt-".isPrefixOf id) :
      Fate cfg id (.create runID input parent) none (some rec)
  | kept {op : Op} {rec rec' : RunRecord} (h : Kept cfg rec rec') :
      Fate cfg id op (some rec) (some rec')
  | started {self : Nat} {rec : RunRecord} (started : Int) (hrunning : rec.status ≠ .running)
      (hterminal : rec.terminal = false) :
      Fate cfg id (.setStatusRunning id self) (some rec)
        (some { rec.withStatus .running with startedAtUnixMs := started })
  | ended {by_ : Writer} {ending : Ending} {errMsg : String} {rec : RunRecord} (now : Int) :
      Fate cfg id (.setStatus by_ id ending errMsg) (some rec)
        (some (RunStore.ended cfg ending.status errMsg now rec))
  | deleted {op : Op} {rec : RunRecord} (hterminal : rec.terminal = true) :
      Fate cfg id op (some rec) none

section

variable {cfg : RunStoreLifecycleConfig} {id : RunId} {op : Op} {s : RunStore}

theorem Fate.refl (r : Option RunRecord) : Fate cfg id op r r := by
  cases r with
  | none => exact .absent
  | some rec => exact .kept (.refl cfg rec)

theorem fate_update {runID : RunId} {f : RunRecord → RunRecord} (h : ∀ rec, Kept cfg rec (f rec)) :
    Fate cfg id op (s.get id) ((s.update runID f).get id) := by
  rw [get_update]
  split
  · cases s.get id with
    | none => exact .absent
    | some rec => exact .kept (h rec)
  · exact .refl _

theorem fate_trim {parent best : RunId} :
    Fate s.lifecycle id op (s.get id) ((s.trimOptimizationCandidates parent best).get id) := by
  cases hp : s.get parent with
  | none =>
    rw [trimOptimizationCandidates, hp]
    exact .refl _
  | some =>
    rw [get_trimOptimizationCandidates hp]
    cases s.get id with
    | none => exact .absent
    | some =>
      rw [Option.bind_some]
      split_ifs with hk hl
      · exact .refl _
      · exact .kept (kept_finalizeRunStorage _ (by simp_all))
      · exact .deleted (by simp_all)

theorem fate_cleanupNow {now : Int} {order : List RunId} :
    Fate s.lifecycle id op (s.get id) ((s.cleanupNow now order).get id) := by
  cases hrec : s.get id with
  | none =>
    rw [get_cleanupNow_of_none now order hrec]
    exact .absent
  | some =>
    obtain ⟨-, h⟩ | ⟨ht, h | h⟩ := get_cleanupNow s now order hrec
    · rw [h]
      exact .refl _
    · rw [h]
      exact .deleted ht
    · rw [h]
      exact .kept (kept_finalizeRunStorage _ ht)

end

theorem Op.fate (env : Server) (op : Op) (a : Answer) (e : Executor) (id : RunId) :
    Fate e.store.lifecycle id op (e.store.get id) ((op.run env a e).2.store.get id) := by
  cases op with
  | create =>
    simp only [Op.run]
    split
    · rename_i rec store h
      obtain ⟨hf, rfl, hs, hh, hc, hch⟩ := create_ok h
      by_cases hid : id = rec.id
      · subst hid
        rw [hf]
        simp only [RunStore.get, KeyMap.get_set_self]
        exact .created hs hh hc hch
      · simp only [RunStore.get, KeyMap.get_set_of_ne hid]
        exact .refl _
    · exact .refl _
  | cleanupNow => exact fate_cleanupNow
  | setStatusRunning runID =>
    simp only [Op.run]
    obtain ⟨err, h⟩ | ⟨rec, -, -, h⟩ | ⟨rec, started, hrec, hr, ht, h⟩ :=
      setStatusRunning_cases e.store runID a.now <;> rw [h]
    · exact .refl _
    · exact .refl _
    · simp only [Except.toBool, if_true, get_update]
      split_ifs with hid
      · subst hid
        rw [hrec]
        exact .started started hr ht
      · exact .refl _
  | setStatus by_ runID ending errMsg =>
    have hst : ((Op.setStatus by_ runID ending errMsg).run env a e).2.store =
        (e.store.setStatus runID ending.status errMsg a.now).2 := by
      cases by_ <;> rfl
    rw [hst, get_setStatus]
    split_ifs with hid
    · subst hid
      cases e.store.get id with
      | none => exact .absent
      | some => exact .ended a.now
    · exact .refl _
  | setOptimizationResult =>
    refine fate_update fun rec => ⟨rfl, rfl, rfl, rfl, rfl, .inl rfl, .inr fun hm => ?_⟩
    rw [if_pos hm, List.length_take]
    exact Nat.min_le_left _ _
  | trimOptimizationCandidates => exact fate_trim
  | setCollector | setMetrics | setOnlineCompletionReason | setFinalConfiguration
  | appendOptimizationStep | setOptimizationProgress =>
    exact fate_update fun rec => ⟨rfl, rfl, rfl, rfl, rfl, .inl rfl, .inl rfl⟩
  | signalLeaseEnd =>
    simp only [Op.run]
    split <;> exact .refl _
  | _ => exact .refl _

end SimCore.Runs
