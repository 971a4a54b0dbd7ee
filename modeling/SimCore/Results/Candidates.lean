import SimCore.Runs.Lifecycle

/-!
# Trimming the candidates of an experiment

When an experiment is over, the candidates that it does not list are deleted. A candidate carries no
link to its experiment, so the trim visits all candidates of the store: those of other experiments
that have ended are deleted too. The other promises hold in every state reached: a run that has not
ended, the best run, and the runs on the list of the experiment stay.

## Main definitions

* `CandidateOf`: a run is a candidate of an experiment

## Main results

* `trim_scoped`: what a trim keeps, and when it keeps a candidate of another experiment
* `trim_deletes_others`: a trim that deletes a candidate of another experiment
-/

namespace SimCore.Runs

open Concurrent RunStore

/-- A run is a candidate of an experiment: it was created by the experiment, or the record of the
experiment lists it. -/
def CandidateOf (s : RunStore) (parent id : RunId) : Prop :=
  (∃ rec, s.get id = some rec ∧ rec.parent = some parent) ∨
    ∃ rec, s.get parent = some rec ∧ id ∈ rec.candidateRunIds

/-- A record lists no more candidates than the store retains, and its id tells whether it is a
candidate. -/
structure Listed (cfg : RunStoreLifecycleConfig) (id : RunId) (rec : RunRecord) : Prop where
  length : cfg.maxOptimizationCandidates > 0 →
    rec.candidateRunIds.length ≤ cfg.maxOptimizationCandidates.toNat
  child : rec.isOptimizationChild = "opt-".isPrefixOf id

section Record

variable {cfg : RunStoreLifecycleConfig} {rec : RunRecord} {id : RunId}

theorem ended_lists (status : RunStatus) (errMsg : String) (now : Int) :
    (ended cfg status errMsg now rec).candidateRunIds = rec.candidateRunIds ∧
      (ended cfg status errMsg now rec).isOptimizationChild = rec.isOptimizationChild := by
  simp only [ended, finalizeRunStorage]
  split_ifs <;> exact ⟨rfl, rfl⟩

theorem Fate.listed {op : Op} {before : Option RunRecord} (h : Fate cfg id op before (some rec))
    (hb : ∀ rec, before = some rec → Listed cfg id rec) : Listed cfg id rec := by
  cases h with
  | created _ _ hc hch => exact ⟨fun _ => by rw [hc]; simp, hch⟩
  | kept hk =>
    have hl := hb _ rfl
    refine ⟨fun hm => ?_, hk.child.trans hl.child⟩
    obtain h | h := hk.candidates
    · exact h ▸ hl.length hm
    · exact h hm
  | started => exact ⟨(hb _ rfl).length, (hb _ rfl).child⟩
  | ended =>
    refine ⟨?_, (ended_lists _ _ _).2.trans (hb _ rfl).child⟩
    rw [(ended_lists _ _ _).1]
    exact (hb _ rfl).length

end Record

/-- No operation changes the settings of the store. -/
theorem lifecycle_run (env : Server) (op : Op) (a : Answer) (e : Executor) :
    (op.run env a e).2.store.lifecycle = e.store.lifecycle := by
  cases op with
  | create =>
    simp only [Op.run]
    split
    · rename_i h
      obtain ⟨-, rfl, -⟩ := create_ok h
      rfl
    · rfl
  | setStatusRunning runID =>
    simp only [Op.run]
    obtain ⟨_, h⟩ | ⟨_, -, -, h⟩ | ⟨_, _, -, -, -, h⟩ :=
      setStatusRunning_cases e.store runID a.now <;> rw [h] <;> rfl
  | setStatus by_ => cases by_ <;> rfl
  | trimOptimizationCandidates =>
    simp only [Op.run, Executor.withStore, trimOptimizationCandidates]
    split <;> rfl
  | signalLeaseEnd =>
    simp only [Op.run]
    split <;> rfl
  | _ => rfl

section Trim

variable {s : RunStore} {parent best id : RunId} {rec prec : RunRecord}

theorem stored_trim_of_not_terminal (hr : s.get id = some rec) (h : rec.terminal = false) :
    (s.trimOptimizationCandidates parent best).get id = some rec := by
  cases hp : s.get parent with
  | none => rw [trimOptimizationCandidates, hp]; exact hr
  | some => simp [get_trimOptimizationCandidates hp, hr, h]

/-- The list of a trim has the best run and the listed candidates of the experiment. -/
theorem mem_keptCandidates_iff (hl : s.lifecycle.maxOptimizationCandidates > 0 →
      prec.candidateRunIds.length ≤ s.lifecycle.maxOptimizationCandidates.toNat) (hid : id ≠ "") :
    id ∈ s.keptCandidates prec best ↔ id = best ∨ id ∈ prec.candidateRunIds := by
  have ht : (if s.lifecycle.maxOptimizationCandidates > 0 then
      prec.candidateRunIds.take s.lifecycle.maxOptimizationCandidates.toNat
        else prec.candidateRunIds) = prec.candidateRunIds := by
    split_ifs with hm
    · exact List.take_of_length_le (hl hm)
    · rfl
  have hb : id ∈ (if best = "" then [] else [best]) ↔ id = best := by
    split_ifs with he
    · simp [he, hid]
    · exact List.mem_singleton
  simp only [keptCandidates, ht, List.mem_append, hb, List.mem_filter, hid, ne_eq,
    not_false_eq_true, decide_true, and_true]

end Trim

section Runs

variable {env : Server} {c : Pool (machine env)}

def storeOf (c : Pool (machine env)) : RunStore :=
  Executor.store c.shared

theorem listed_run (hc : Runs (Call.body env) Fresh c) {id : RunId} {rec : RunRecord}
    (hr : (storeOf c).get id = some rec) : Listed (storeOf c).lifecycle id rec := by
  refine hc.shared (I := fun e : Executor => ∀ rec, e.store.get id = some rec →
    Listed e.store.lifecycle id rec) ?_ ?_ rec hr
  · intro e hfr rec hr
    rw [RunStore.get, hfr.runs] at hr
    cases hr
  · intro e i op a h _ rec hr
    have hf := op.fate env a e id
    have hr : (op.run env a e).2.store.get id = some rec := hr
    rw [hr] at hf
    have hcfg : ((machine env).run op a e).2.store.lifecycle = e.store.lifecycle :=
      lifecycle_run env op a e
    rw [hcfg]
    exact hf.listed h

/-- In every state reached, a trim keeps a run exactly if it has not ended, does not go by the name
of a candidate, or is the best run or listed. -/
theorem stored_trim_iff (hc : Runs (Call.body env) Fresh c) {parent best id : RunId}
    {rec : RunRecord} (hr : (storeOf c).get id = some rec) :
    (((storeOf c).trimOptimizationCandidates parent best).get id).isSome = true ↔
      ∀ prec, (storeOf c).get parent = some prec → rec.terminal = true →
        rec.isOptimizationChild = true → id = best ∨ id ∈ prec.candidateRunIds := by
  cases hp : (storeOf c).get parent with
  | none =>
    rw [trimOptimizationCandidates, hp]
    exact iff_of_true (Option.isSome_of_eq_some hr) (by simp)
  | some prec =>
    rw [get_trimOptimizationCandidates hp, hr, Option.bind_some]
    cases hterminal : rec.terminal with
    | false => simp
    | true =>
      cases hchild : rec.isOptimizationChild with
      | false => simp
      | true =>
        have hid : id ≠ "" := by
          rintro rfl
          rw [(listed_run hc hr).child] at hchild
          exact absurd hchild (by decide +kernel)
        have hk := (mem_keptCandidates_iff (listed_run hc hp).length hid :
          id ∈ (storeOf c).keptCandidates prec best ↔ _)
        by_cases hm : id ∈ (storeOf c).keptCandidates prec best
        · simp [hm, hk.1 hm]
        · simp [hm, mt hk.2 hm]

/-- In every state reached, a trim keeps the runs that have not ended, the best run and the listed
candidates of the experiment; and it keeps a candidate of another experiment exactly if this has not
ended, does not go by the name of a candidate, or is the best run or listed. -/
theorem trim_scoped (hc : Runs (Call.body env) Fresh c) (parent best : RunId) {id : RunId}
    {rec : RunRecord} (hrec : (storeOf c).get id = some rec) :
    (rec.terminal = false →
      ((storeOf c).trimOptimizationCandidates parent best).get id = some rec) ∧
    (id = best → (((storeOf c).trimOptimizationCandidates parent best).get id).isSome = true) ∧
    (∀ prec, (storeOf c).get parent = some prec → id ∈ prec.candidateRunIds →
      (((storeOf c).trimOptimizationCandidates parent best).get id).isSome = true) ∧
    ∀ other, CandidateOf (storeOf c) other id → other ≠ parent →
      ((((storeOf c).trimOptimizationCandidates parent best).get id).isSome = true ↔
        ∀ prec, (storeOf c).get parent = some prec → rec.terminal = true →
          rec.isOptimizationChild = true → id = best ∨ id ∈ prec.candidateRunIds) := by
  refine ⟨stored_trim_of_not_terminal hrec, fun h => ?_, fun prec hp h => ?_,
    fun other _ _ => stored_trim_iff hc hrec⟩
  · exact (stored_trim_iff hc hrec).2 fun _ _ _ _ => .inl h
  · refine (stored_trim_iff hc hrec).2 fun prec' hp' _ _ => .inr ?_
    rw [hp] at hp'
    exact Option.some.inj hp' ▸ h

/-- Experiments are created, the last of them with a candidate that is simulated to its end. -/
def experiments (parents : List RunId) (parent : RunId) : List (Pool.Move Call (machine {})) :=
  (parents.zipIdx.flatMap fun p => [.start (.create p.1 (some {}) none), .step p.2 {}]) ++
    [.start (.create "opt-1" (some {}) (some parent)), .step parents.length {},
      .start (.start "opt-1")] ++
    List.replicate 18 (.step (parents.length + 1) { now := 1 })

/-- A completed candidate of another experiment is kept as the best run. -/
theorem trim_scoped_shared :
    ∃ (c : Pool (machine {})) (rec : RunRecord), Runs (Call.body {}) Fresh c ∧
      CandidateOf (storeOf c) "q" "opt-1" ∧ (storeOf c).get "opt-1" = some rec ∧
      rec.terminal = true ∧
      (((storeOf c).trimOptimizationCandidates "p" "opt-1").get "opt-1").isSome = true := by
  obtain ⟨c, hp⟩ : ∃ c, c = Pool.play (Call.body {}) ⟨({} : Executor), []⟩
    (experiments ["p", "q"] "q") := ⟨_, rfl⟩
  have hc : Runs (Call.body {}) Fresh c := hp ▸ runs_play (.init ⟨rfl, rfl⟩) _
  have hr : ((storeOf c).get "opt-1").map (fun rec => (rec.parent, rec.terminal)) =
      some (some "q", true) := by
    rw [hp]
    decide +kernel
  obtain ⟨rec, hr, hf⟩ := Option.map_eq_some_iff.1 hr
  obtain ⟨hpa, ht⟩ := Prod.mk.inj hf
  have hca : CandidateOf (storeOf c) "q" "opt-1" := .inl ⟨rec, hr, hpa⟩
  exact ⟨c, rec, hc, hca, hr, ht, ((trim_scoped hc "p" "opt-1" hr).2.2.2 "q" hca (by decide)).2
    fun _ _ _ _ => .inl rfl⟩

/-- A trim for one experiment deletes a completed candidate of another. -/
theorem trim_deletes_others : ∃ c : Pool (machine {}), Runs (Call.body {}) Fresh c ∧
      CandidateOf (storeOf c) "q" "opt-1" ∧
      ((storeOf c).get "opt-1").map (·.status) = some .completed ∧
      ((storeOf c).trimOptimizationCandidates "p" "").get "opt-1" = none := by
  obtain ⟨c, hpl⟩ : ∃ c, c = Pool.play (Call.body {}) ⟨({} : Executor), []⟩
    (experiments ["p", "q"] "q") := ⟨_, rfl⟩
  have hp : ((storeOf c).get "opt-1").map (·.parent) = some (some "q") := by
    rw [hpl]
    decide +kernel
  obtain ⟨rec, hr, hp⟩ := Option.map_eq_some_iff.1 hp
  refine ⟨c, hpl ▸ runs_play (.init ⟨rfl, rfl⟩) _, .inl ⟨rec, hr, hp⟩, ?_, ?_⟩ <;>
    rw [hpl] <;> decide +kernel

end Runs

end SimCore.Runs
