import SimCore.Runs.Custody

/-!
# The goroutines of the executor

Every function of the executor carries out only operations that its thread may carry out, whatever
other threads do in between. The point of the argument is the end of a goroutine: on each of the
ways out of a simulation, an optimization and an online optimization, the run is settled.

## Main definitions

* `terms`: invariant, reliance and preconditions of the threads of the executor
* `Holding`: what a goroutine knows about its run

## Main results

* `safe_runSimulationBody`, `safe_runOptimizationBody`, `safe_runOnlineOptimizationBody`: the run is
  settled when the body of a goroutine ends
* `safe_body`: every call is safe
-/

namespace SimCore.Runs

open Concurrent RunStore Program.Safe

/-- No start finds a running run, no id with an owner is created again; and deadlines and leases are
in time, if they have to be. -/
def Regular (timely : Prop) (e : Executor) (i : Nat) (op : Op) (a : Answer) : Prop :=
  startsOnce e i op a = true ∧ (timely → endsInTime e i op a = true)

/-- Invariant, reliance and preconditions of the threads of the executor. -/
def terms (env : Server) (timely : Prop) : Terms (machine env) (Regular timely) where
  inv e := ∀ id, RunInv timely e id
  rely i := RelyAll i
  pre i op e := op.pre timely i e
  rely_refl := RelyAll.refl
  rely_trans _ _ _ _ := RelyAll.trans
  step _ op _ _ hinv hpre hok :=
    have h := Op.custody op hinv hpre hok.1 fun _ _ _ hop ht => by
      simpa [hop, endsInTime] using hok.2 ht
    ⟨h.inv, h.rely⟩

/-- What a thread that has done nothing knows. -/
def Idle (i : Nat) (e : Executor) : Prop :=
  e.contextRun i = none

/-- What a goroutine knows about its run. -/
structure Holding (i : Nat) (id : RunId) (input : RunInput) (e : Executor) : Prop where
  owner : i ∈ e.owners id
  carries : Carries e id input
  context : e.contextRun i = some id

/-- An operation that changes nothing but records, and what no thread counts on. -/
def Op.quiet : Op → Bool
  | .get _ | .setStatus .goroutine _ _ _ | .setCollector _ | .setMetrics _
  | .setOnlineCompletionReason _ _ | .setOptimizationResult _ _ _ _ _
  | .trimOptimizationCandidates _ _ | .setFinalConfiguration _ | .appendOptimizationStep _
  | .setOptimizationProgress _ _ _ | .ctxErr _ _ | .runConfiguration _
  | .setOnlineLeaseDeadline _ _ | .cleanupNow | .ask | .runExperiment => true
  | _ => false

section

variable {env : Server} {timely : Prop} {i : Nat} {e e' : Executor} {op : Op} {α : Type}
  {f : op.Result → Prog env α} {post : α → Executor → Prop}

theorem Op.pre_of_quiet (h : op.quiet = true) : op.pre timely i e := by
  cases op with
  | setStatus by_ => cases by_ <;> trivial
  | _ => trivial

/-- Even the thread itself may count on a quiet operation. -/
theorem Op.quiet_rely (h : op.quiet = true) (hi : ∀ id, RunInv timely e id) (a : Answer) :
    RelyAll i e (op.run env a e).2 := by
  have hok : startsOnce e (i + 1) op a = true := by
    cases op <;> first | rfl | cases h
  -- the custody of another thread gives the reliance of this one
  exact (op.custody hi (Op.pre_of_quiet h) hok (by rintro _ _ _ rfl; cases h)).rely i (by omega)

/-- What survives the others. -/
def Stable (i : Nat) (P : Executor → Prop) : Prop :=
  ∀ e e', RelyAll i e e' → P e → P e'

theorem stable_holding (i : Nat) (id : RunId) (input : RunInput) : Stable i (Holding i id input) :=
  fun _ _ h hh => ⟨(h.run id).owner.2 hh.owner, (h.run id).carries input hh.owner hh.carries,
    h.context.trans hh.context⟩

theorem safe_op (h : ∀ e₁ : Executor, RelyAll i e e₁ → (∀ id, RunInv timely e₁ id) →
      op.pre timely i e₁ ∧ ∀ a, Regular timely e₁ i op a →
        (∀ id, RunInv timely (op.run env a e₁).2 id) →
        (f (op.run env a e₁).1).Safe (terms env timely) i post (op.run env a e₁).2) :
    (op.perform >>= f).Safe (terms env timely) i post e :=
  Program.safe_call h

theorem safe_quiet {P : Executor → Prop} (hq : op.quiet = true) (hP : Stable i P) (he : P e)
    (h : ∀ (e₁ : Executor) (a : Answer), P e₁ → (∀ id, RunInv timely e₁ id) →
      Regular timely e₁ i op a → P (op.run env a e₁).2 →
      (∀ id, RunInv timely (op.run env a e₁).2 id) →
      (f (op.run env a e₁).1).Safe (terms env timely) i post (op.run env a e₁).2) :
    (op.perform >>= f).Safe (terms env timely) i post e := by
  refine safe_op fun e₁ hr hi => ⟨Op.pre_of_quiet hq, fun a hok hi' => ?_⟩
  have he₁ := hP e e₁ hr he
  exact h e₁ a he₁ hi hok (hP e₁ _ (Op.quiet_rely hq hi a) he₁) hi'

/-- A quiet operation whose result does not matter. -/
theorem safe_quiet' {P : Executor → Prop} (hq : op.quiet = true) (hP : Stable i P) (he : P e)
    (h : ∀ r e', P e' → (f r).Safe (terms env timely) i post e') :
    (op.perform >>= f).Safe (terms env timely) i post e :=
  safe_quiet hq hP he fun _ _ _ _ _ he' _ => h _ _ he'

end

section Programs

variable {env : Server} {timely : Prop} {i : Nat} {e : Executor} {id : RunId} {input : RunInput}
  {P : Executor → Prop} {rec : RunRecord} {α : Type} {post : α → Executor → Prop}

theorem safe_snapshotFinalConfiguration (hP : Stable i P) (he : P e) :
    (snapshotFinalConfiguration id : Prog env Unit).Safe (terms env timely) i (fun _ => P) e := by
  refine safe_quiet' rfl hP he fun (r : Bool) e₁ he₁ => ?_
  cases r with
  | false => exact he₁
  | true => exact safe_quiet' (f := pure) rfl hP he₁ fun _ _ h => h

theorem safe_sendNotificationIfConfigured (rec : RunRecord) (hP : Stable i P) (he : P e) :
    (sendNotificationIfConfigured rec : Prog env Unit).Safe (terms env timely) i
      (fun _ => P) e := by
  rw [sendNotificationIfConfigured]
  split
  · refine bind (safe_snapshotFinalConfiguration hP he) fun _ e₁ he₁ => ?_
    exact safe_quiet' rfl hP he₁ fun _ _ h => h
  · exact he

/-- A goroutine that sets the status leaves the run settled. -/
theorem safe_finish (ending : Ending) (errMsg : String) (hP : Stable i P)
    (ho : ∀ e, P e → i ∈ e.owners id) (he : P e) :
    (finish id ending errMsg : Prog env Unit).Safe (terms env timely) i
      (fun _ e => P e ∧ Settled e id) e := by
  have hst : Stable i fun e => P e ∧ Settled e id := fun e e' h hs =>
    ⟨hP e e' h hs.1, (h.run id).settled (ho e hs.1) hs.2⟩
  refine safe_quiet rfl hP he fun e₁ a he₁ _ _ he' _ => ?_
  have hse : Settled ((Op.setStatus .goroutine id ending errMsg).run env a e₁).2 id :=
    .inl fun rec hr => ended_setStatus hr
  split
  · exact safe_sendNotificationIfConfigured _ hst ⟨he', hse⟩
  · exact ⟨he', hse⟩

/-- Nobody has asked for the reason of an end; in time, nobody has signalled one either. -/
structure Unended (timely : Prop) (id : RunId) (e : Executor) : Prop where
  lease : e.lease id = .open ∨ e.lease id = .signalled
  quiet : timely → e.timers id = false ∧ e.lease id = .open

/-- Others may signal the end of a lease, but not ask for its reason. -/
theorem RelyOn.lease_unasked {e' : Executor} (h : RelyOn i e e' id) (ho : i ∈ e.owners id)
    (hl : e.lease id = .open ∨ e.lease id = .signalled) :
    e'.lease id = .open ∨ e'.lease id = .signalled := by
  obtain hl' | ⟨-, hl', -⟩ := h.lease ho
  · rwa [hl']
  · exact .inr hl'

theorem Unended.rely {e' : Executor} (hu : Unended timely id e) (h : RelyOn i e e' id)
    (ho : i ∈ e.owners id) : Unended timely id e' := by
  refine ⟨h.lease_unasked ho hu.lease, fun ht => ?_⟩
  obtain ⟨hti, hl⟩ := hu.quiet ht
  refine ⟨(h.timers ho).trans hti, ?_⟩
  obtain hl' | ⟨-, -, hti'⟩ := h.lease ho
  · exact hl'.trans hl
  · simp [hti] at hti'

/-- What a goroutine knows about its run before it starts timers. -/
structure Before (timely : Prop) (i : Nat) (id : RunId) (input : RunInput) (e : Executor) : Prop
    extends Holding i id input e, Unended timely id e

theorem stable_before (timely : Prop) (i : Nat) (id : RunId) (input : RunInput) :
    Stable i (Before timely i id input) := fun e e' h hb =>
  ⟨stable_holding i id input e e' h hb.toHolding, hb.toUnended.rely (h.run id) hb.owner⟩

/-- If a context is cancelled while no lease end is at hand, the run is settled. -/
theorem Holding.settled_of_cancelled (h : Holding i id input e) (hi : RunInv timely e id)
    (ht : timely) (hc : e.cancelled i = true)
    (hl : ¬(e.lease id = .signalled ∨ e.lease id = .closed)) : Settled e id :=
  (hi.cancelled ht i h.owner h.context hc).resolve_right hl

theorem Before.settled (h : Before timely i id input e) (hi : RunInv timely e id) (ht : timely)
    (hc : e.cancelled i = true) : Settled e id :=
  h.settled_of_cancelled hi ht hc (by simp [(h.quiet ht).2])

theorem Holding.settled_of_input (h : Holding i id input e) (hr : e.store.get id = some rec)
    (hi : rec.input ≠ some input) : Settled e id := by
  refine .inl fun rec' hr' => ?_
  rw [hr] at hr'
  cases hr'
  exact (h.carries rec hr).resolve_right hi

theorem Holding.settled_of_status (h : Holding i id input e) (hi : RunInv timely e id)
    (hr : e.store.get id = some rec) (hs : rec.status ≠ .running) : Settled e id := by
  refine .inl fun rec' hr' => ?_
  rw [hr] at hr'
  cases hr'
  exact (hi.begun (.inl (List.ne_nil_of_mem h.owner)) rec hr).resolve_left hs

theorem settled_of_none (h : e.store.get id = none) : Settled e id :=
  .inl fun rec hr => by simp [h] at hr

/-- What is set up before the engine runs; if it fails, the run is settled. -/
theorem safe_prepare (he : Before timely i id input e) :
    (prepare id i : Prog env Bool).Safe (terms env timely) i
      (fun ok e => Before timely i id input e ∧ (ok = false → Settled e id)) e := by
  have hP := stable_before timely i id input
  have hf : ∀ {e} msg, Before timely i id input e →
      (finish id .failed msg >>= fun _ => pure false : Prog env Bool).Safe (terms env timely) i
        (fun ok e => Before timely i id input e ∧ (ok = false → Settled e id)) e := fun msg he =>
    bind (safe_finish .failed msg hP (fun _ h => h.owner) he) fun _ _ h =>
      ⟨h.1, fun _ => h.2⟩
  refine safe_quiet' rfl hP he fun (r : Option String) e₁ he₁ => ?_
  cases r with
  | some => exact hf _ he₁
  | none =>
  refine safe_quiet' rfl hP he₁ fun (r : Option String) e₂ he₂ => ?_
  cases r with
  | some => exact hf _ he₂
  | none =>
  refine safe_quiet' rfl hP he₂ fun _ e₃ he₃ => ?_
  refine safe_quiet' rfl hP he₃ fun (r : Option String) e₄ he₄ => ?_
  cases r with
  | some => exact hf _ he₄
  | none =>
  refine safe_quiet' rfl hP he₄ fun (r : Option String) e₅ he₅ => ?_
  cases r with
  | some => exact hf _ he₅
  | none =>
  refine Program.safe_call fun e₆ hr _ => ?_
  have he₆ := hP e₅ e₆ hr he₅
  exact ⟨⟨rfl, he₆.owner⟩, fun a _ _ =>
    ⟨⟨{ he₆ with }, he₆.lease, he₆.quiet⟩, fun h => by cases h⟩⟩

theorem safe_get {runID : RunId} {f : Option RunRecord → Prog env α} (hP : Stable i P) (he : P e)
    (h : ∀ e₁, P e₁ → (∀ id, RunInv timely e₁ id) →
      (f (e₁.store.get runID)).Safe (terms env timely) i post e₁) :
    ((Op.get runID).perform >>= f).Safe (terms env timely) i post e :=
  safe_quiet rfl hP he fun e₁ _ he₁ hi _ _ _ => h e₁ he₁ hi

/-- A goroutine checks its context. In time, the check is positive only if the run is settled. -/
theorem safe_ctxErr (deadline : Bool) {f : Bool → Prog env α} (hP : Stable i P)
    (hca : ∀ e, P e → RunInv timely e id → timely → e.cancelled i = true → Settled e id)
    (he : P e) (h : ∀ r e₁, P e₁ → (r = true → timely → Settled e₁ id) →
      (f r).Safe (terms env timely) i post e₁) :
    (ctxErr i deadline >>= f).Safe (terms env timely) i post e := by
  refine safe_quiet rfl hP he fun e₁ a he₁ hi hok _ _ => h _ e₁ he₁ fun hr ht => ?_
  have hin := hok.2 ht
  have hr : (e₁.cancelled i || (deadline && a.expired)) = true := hr
  refine hca e₁ he₁ (hi id) ht ?_
  cases hc : e₁.cancelled i with
  | true => rfl
  | false =>
    simp only [hc, Bool.false_or] at hr
    simp [endsInTime, hc, hr] at hin

/-- What a goroutine knows when its body ends. -/
def Done (timely : Prop) (i : Nat) (id : RunId) (input : RunInput) (e : Executor) : Prop :=
  Holding i id input e ∧ (timely → Settled e id)

theorem stable_done (timely : Prop) (i : Nat) (id : RunId) (input : RunInput) :
    Stable i (Done timely i id input) :=
  fun e e' h hd => ⟨stable_holding i id input e e' h hd.1,
    fun ht => (h.run id).settled hd.1.owner (hd.2 ht)⟩

theorem safe_finish_done (ending : Ending) (errMsg : String) (he : Holding i id input e) :
    (finish id ending errMsg : Prog env Unit).Safe (terms env timely) i
      (fun _ => Done timely i id input) e :=
  (safe_finish ending errMsg (stable_holding i id input) (fun _ h => h.owner) he).mono
    fun _ _ h => ⟨h.1, fun _ => h.2⟩

/-- A goroutine whose run is settled sends a notification, if the run is stored. -/
theorem safe_notifyAll_done (rec : Option RunRecord) (he : Done timely i id input e) :
    (rec.forM sendNotificationIfConfigured : Prog env Unit).Safe (terms env timely) i
      (fun _ => Done timely i id input) e := by
  cases rec with
  | none => exact he
  | some rec => exact safe_sendNotificationIfConfigured rec (stable_done timely i id input) he

theorem safe_runSimulationBody (he : Before timely i id input e) :
    (runSimulationBody id i : Prog env Unit).Safe (terms env timely) i
      (fun _ => Done timely i id input) e := by
  have hP := stable_before timely i id input
  refine safe_get hP he fun e₁ he₁ _ => ?_
  cases hrec : e₁.store.get id with
  | none => exact ⟨he₁.toHolding, fun _ => settled_of_none hrec⟩
  | some =>
  simp only
  split
  · rename_i hn
    refine ⟨he₁.toHolding, fun _ => he₁.settled_of_input hrec fun h => ?_⟩
    simp [h] at hn
  refine bind (safe_prepare he₁) fun ready e₂ ⟨he₂, hf⟩ => ?_
  cases ready with
  | false => exact ⟨he₂.toHolding, fun _ => hf rfl⟩
  | true =>
  refine safe_quiet' rfl hP he₂ fun (r : Option String) e₃ he₃ => ?_
  cases r with
  | some =>
    refine safe_ctxErr false hP (fun _ h hi => h.settled hi) he₃ fun r e₄ he₄ hs => ?_
    cases r with
    | true =>
      -- the run was cancelled: whoever did it sets the status
      have hd : Done timely i id input e₄ := ⟨he₄.toHolding, hs rfl⟩
      refine safe_get (stable_done timely i id input) hd fun e₅ he₅ _ => ?_
      exact bind (safe_notifyAll_done _ he₅) fun _ _ h => h
    | false => exact bind (safe_finish_done _ _ he₄.toHolding) fun _ _ h => h
  | none =>
  refine safe_quiet' rfl hP he₃ fun _ e₄ he₄ => ?_
  refine safe_get hP he₄ fun e₅ he₅ hi => ?_
  cases hrec : e₅.store.get id with
  | none => exact ⟨he₅.toHolding, fun _ => settled_of_none hrec⟩
  | some =>
  simp only
  have hc : ∀ {e}, Before timely i id input e →
      (snapshotFinalConfiguration id >>= fun _ => finish id .completed "" : Prog env Unit).Safe
        (terms env timely) i (fun _ => Done timely i id input) e := fun he =>
    bind (safe_snapshotFinalConfiguration hP he) fun _ _ h =>
      safe_finish_done _ _ h.toHolding
  split
  · split
    · exact safe_quiet' rfl hP he₅ fun _ _ h => hc h
    · exact hc he₅
  · rename_i hst
    exact ⟨he₅.toHolding, fun _ => he₅.settled_of_status (hi id) hrec hst⟩

theorem safe_runOptimizationBody (he : Before timely i id input e) :
    (runOptimizationBody id i : Prog env Unit).Safe (terms env timely) i
      (fun _ => Done timely i id input) e := by
  have hP := stable_before timely i id input
  refine safe_get hP he fun e₁ he₁ _ => ?_
  cases hrec : e₁.store.get id with
  | none => exact ⟨he₁.toHolding, fun _ => settled_of_none hrec⟩
  | some =>
  simp only
  split
  · rename_i hn
    refine ⟨he₁.toHolding, fun _ => he₁.settled_of_input hrec fun h => ?_⟩
    simp [h] at hn
  split
  · exact bind (safe_finish_done _ _ he₁.toHolding) fun _ _ h => h
  refine safe_quiet' rfl hP he₁ fun (r : Option String) e₂ he₂ => ?_
  cases r with
  | some => exact bind (safe_finish_done _ _ he₂.toHolding) fun _ _ h => h
  | none =>
  refine safe_quiet' rfl hP he₂ fun (r : Except String Experiment) e₃ he₃ => ?_
  cases r with
  | error =>
    refine safe_ctxErr _ hP (fun _ h hi => h.settled hi) he₃ fun r e₄ he₄ hs => ?_
    cases r with
    | true => exact ⟨he₄.toHolding, hs rfl⟩
    | false => exact safe_finish_done _ _ he₄.toHolding
  | ok =>
  refine safe_quiet' rfl hP he₃ fun _ e₄ he₄ => ?_
  refine safe_quiet' rfl hP he₄ fun _ e₅ he₅ => ?_
  split
  · refine safe_get hP he₅ fun e₆ he₆ _ => ?_
    split
    · exact safe_quiet' rfl hP he₆ fun _ _ h => safe_finish_done _ _ h.toHolding
    · exact safe_finish_done _ _ he₆.toHolding
  · exact safe_finish_done _ _ he₅.toHolding

/-- The run is settled after it was finalized. -/
theorem safe_online_completed (he : Holding i id input e) :
    (do
      let some rec ← (Op.get id).perform | return
      if rec.status ≠ .running then return
      (Op.setOptimizationResult id id 0 (min rec.optimizationHistory maxInt32) [id]).perform
      snapshotFinalConfiguration id
      finish id .completed "" : Prog env Unit).Safe (terms env timely) i
      (fun _ => Done timely i id input) e := by
  have hP := stable_holding i id input
  refine safe_get hP he fun e₁ he₁ hi => ?_
  cases hrec : e₁.store.get id with
  | none => exact ⟨he₁, fun _ => settled_of_none hrec⟩
  | some =>
  simp only
  split_ifs with hs
  · exact ⟨he₁, fun _ => he₁.settled_of_status (hi id) hrec hs⟩
  · refine safe_quiet' rfl hP he₁ fun _ e₂ he₂ => ?_
    exact bind (safe_snapshotFinalConfiguration hP he₂) fun _ _ h =>
      safe_finish_done _ _ h

theorem safe_finalizeOnlineOptimizationRun (reason : Option OnlineCompletion)
    (he : Holding i id input e) :
    (finalizeOnlineOptimizationRun id reason : Prog env Unit).Safe (terms env timely) i
      (fun _ => Done timely i id input) e := by
  have hP := stable_holding i id input
  refine safe_quiet' rfl hP he fun _ e₁ he₁ => ?_
  cases reason with
  | none => exact safe_online_completed he₁
  | some => exact safe_quiet' rfl hP he₁ fun _ _ h => safe_online_completed h

/-- What a goroutine knows about its run while its timers are on. -/
structure During (i : Nat) (id : RunId) (input : RunInput) (e : Executor) : Prop
    extends Holding i id input e where
  lease : e.lease id = .open ∨ e.lease id = .signalled

theorem stable_during (i : Nat) (id : RunId) (input : RunInput) : Stable i (During i id input) :=
  fun e e' h hd => ⟨stable_holding i id input e e' h hd.toHolding,
    (h.run id).lease_unasked hd.owner hd.lease⟩

/-- What a goroutine knows about its run after it found no reason for its end. -/
structure Leaving (i : Nat) (id : RunId) (input : RunInput) (e : Executor) : Prop
    extends Holding i id input e where
  lease : e.lease id = .leaving

theorem stable_leaving (i : Nat) (id : RunId) (input : RunInput) :
    Stable i (Leaving i id input) := by
  intro e e' h hd
  refine ⟨stable_holding i id input e e' h hd.toHolding, ?_⟩
  obtain hl | ⟨hl, -, -⟩ := (h.run id).lease hd.owner
  · exact hl.trans hd.lease
  · simp [hd.lease] at hl

theorem Leaving.settled (h : Leaving i id input e) (hi : RunInv timely e id) (ht : timely)
    (hc : e.cancelled i = true) : Settled e id :=
  h.settled_of_cancelled hi ht hc (by simp [h.lease])

theorem safe_leaveCancelled (he : Done timely i id input e) :
    (leaveCancelled id : Prog env Unit).Safe (terms env timely) i
      (fun _ => Done timely i id input) e := by
  have hP := stable_done timely i id input
  refine safe_get hP he fun e₁ he₁ _ => ?_
  cases e₁.store.get id with
  | none => exact he₁
  | some rec =>
  simp only
  split
  · refine safe_quiet' rfl hP he₁ fun _ e₂ he₂ => ?_
    refine safe_quiet' rfl hP he₂ fun _ e₃ he₃ => ?_
    exact safe_get hP he₃ fun e₄ he₄ _ => safe_notifyAll_done _ he₄
  · exact safe_sendNotificationIfConfigured rec hP he₁

/-- The engine of an online run has ended with an error. -/
theorem safe_online_error (err : String) (he : During i id input e) : (do
      match ← (Op.takeOnlineCompletionReason id).perform with
      | some reason => finalizeOnlineOptimizationRun id (some reason)
      | none =>
        if ← ctxErr i false then leaveCancelled id
        else finish id .failed err : Prog env Unit).Safe (terms env timely) i
      (fun _ => Done timely i id input) e := by
  refine safe_op fun e₁ hr _ => ?_
  have he₁ := stable_during i id input e e₁ hr he
  refine ⟨⟨he₁.owner, he₁.lease⟩, fun a _ _ => ?_⟩
  have hh : Holding i id input ((Op.takeOnlineCompletionReason id).run env a e₁).2 :=
    { he₁ with }
  have hl : ((Op.takeOnlineCompletionReason id).run env a e₁).1 = none →
      ((Op.takeOnlineCompletionReason id).run env a e₁).2.lease id = .leaving := by
    intro h
    have h : e₁.onlineCompletionReason id = none := h
    simp [Op.run, h]
  generalize ((Op.takeOnlineCompletionReason id).run env a e₁).1 = r at hl ⊢
  generalize ((Op.takeOnlineCompletionReason id).run env a e₁).2 = e₂ at hh hl ⊢
  cases (r : Option OnlineCompletion) with
  | some => exact safe_finalizeOnlineOptimizationRun _ hh
  | none =>
    have hle : Leaving i id input e₂ := ⟨hh, hl rfl⟩
    refine safe_ctxErr false (stable_leaving i id input) (fun _ h hi => h.settled hi) hle
      fun r e₃ he₃ hs => ?_
    cases r with
    | true => exact safe_leaveCancelled ⟨he₃.toHolding, hs rfl⟩
    | false => exact safe_finish_done _ _ he₃.toHolding

theorem safe_online_started (he : Before timely i id input e) :
    (do
      (Op.startTimers id).perform
      match ← Op.ask.perform with
      | some err =>
        match ← (Op.takeOnlineCompletionReason id).perform with
        | some reason => finalizeOnlineOptimizationRun id (some reason)
        | none =>
          if ← ctxErr i false then leaveCancelled id
          else finish id .failed err
      | none => finalizeOnlineOptimizationRun id none : Prog env Unit).Safe (terms env timely) i
      (fun _ => Done timely i id input) e := by
  refine safe_op fun e₁ hr _ => ?_
  have he₁ := stable_before timely i id input e e₁ hr he
  refine ⟨he₁.owner, fun a _ _ => ?_⟩
  have hd : During i id input ((Op.startTimers id).run env a e₁).2 :=
    ⟨{ he₁ with }, he₁.lease⟩
  refine safe_quiet' rfl (stable_during i id input) hd fun (r : Option String) e₂ he₂ => ?_
  cases r with
  | some err => exact safe_online_error err he₂
  | none => exact safe_finalizeOnlineOptimizationRun _ he₂.toHolding

theorem safe_runOnlineOptimizationBody (ho : input.optimization.isSome = true)
    (he : Before timely i id input e) :
    (runOnlineOptimizationBody id i : Prog env Unit).Safe (terms env timely) i
      (fun _ => Done timely i id input) e := by
  have hP := stable_before timely i id input
  refine safe_get hP he fun e₁ he₁ _ => ?_
  cases hrec : e₁.store.get id with
  | none => exact ⟨he₁.toHolding, fun _ => settled_of_none hrec⟩
  | some rec =>
  cases hopt : rec.input.bind (·.optimization) with
  | none =>
    simp only [hopt]
    refine ⟨he₁.toHolding, fun _ => he₁.settled_of_input hrec fun h => ?_⟩
    rw [h, Option.bind_some] at hopt
    simp [hopt] at ho
  | some opt =>
  simp only [hopt]
  refine bind (safe_prepare he₁) fun ready e₂ ⟨he₂, hf⟩ => ?_
  cases ready with
  | false => exact ⟨he₂.toHolding, fun _ => hf rfl⟩
  | true =>
  simp only [Bool.not_true, Bool.false_eq_true, if_false]
  split
  · exact safe_quiet' rfl hP he₂ fun _ _ h => safe_online_started h
  · exact safe_online_started he₂

theorem safe_cleanup {body : Prog env Unit}
    (h : body.Safe (terms env timely) i (fun _ => Done timely i id input) e) :
    (body >>= fun _ => (Op.cleanup id i).perform).Safe (terms env timely) i
      (fun _ _ => True) e := by
  refine bind h fun _ e₁ he₁ => Program.safe_call fun e₂ hr _ => ?_
  have he₂ := stable_done timely i id input e₁ e₂ hr he₁
  exact ⟨⟨rfl, he₂.1.owner, he₂.2⟩, fun _ _ _ => trivial⟩

theorem safe_goroutine (he : Before timely i id input e) :
    (goroutine id input i : Prog env Unit).Safe (terms env timely) i (fun _ _ => True) e := by
  rw [goroutine]
  cases hopt : input.optimization with
  | none => exact safe_cleanup (safe_runSimulationBody he)
  | some =>
    simp only
    split
    · exact safe_cleanup (safe_runOnlineOptimizationBody (by simp [hopt]) he)
    · exact safe_cleanup (safe_runOptimizationBody he)

/-- What a start knows about the run that it was given. -/
structure Accepted (timely : Prop) (i : Nat) (id : RunId) (rec : RunRecord) (e : Executor) : Prop
    extends Unended timely id e where
  owner : i ∈ e.owners id
  unregistered : Unregistered e id
  live : e.live id = []
  context : e.contextRun i = none
  carries : ∀ input, rec.input = some input → Carries e id input

theorem stable_accepted (timely : Prop) (i : Nat) (id : RunId) (rec : RunRecord) :
    Stable i (Accepted timely i id rec) := by
  intro e e' h ha
  have hr := h.run id
  exact ⟨ha.toUnended.rely hr ha.owner, hr.owner.2 ha.owner,
    (hr.entries ha.owner).unregistered ha.unregistered, (hr.live ha.owner).trans ha.live,
    h.context.trans ha.context, fun input hi => hr.carries input ha.owner (ha.carries input hi)⟩

/-- A guarded start that succeeds gives the run to the thread. -/
theorem accepted_setStatusRunning {a : Answer} (hinv : RunInv timely e id)
    (hc : e.contextRun i = none) (hok : startsOnce e i (.setStatusRunning id i) a = true)
    (h : ((Op.setStatusRunning id i).run env a e).1 = .ok rec) :
    Accepted timely i id rec ((Op.setStatusRunning id i).run env a e).2 := by
  simp only [Op.run] at h ⊢
  obtain ⟨_, hs⟩ | ⟨rec', hrec, hr, hs⟩ | ⟨rec', _, hrec, hr, ht, hs⟩ :=
    setStatusRunning_cases e.store id a.now <;> rw [hs] at h ⊢
  · cases h
  · simp [startsOnce, hrec, hr] at hok
  · obtain ⟨ho, hti⟩ := hinv.not_begun hrec hr ht
    cases h
    have hl : Function.update e.lease id .open id = .open := Function.update_self ..
    refine ⟨⟨.inl hl, fun h => ⟨hti h, hl⟩⟩, by simp [Except.toBool],
      SameEntries.unregistered (e := e) (.same rfl) (hinv.free ho), ?_, hc, ?_⟩
    · obtain h | h := hinv.live
      · exact h
      · exact h.trans ho
    · intro input hi rec'' hr''
      simp only [Except.toBool, if_true, get_update, hrec, Option.map_some, Option.some.injEq]
        at hr''
      exact .inr (hr'' ▸ hi)

theorem safe_start (he : Idle i e) :
    (start id i : Prog env Unit).Safe (terms env timely) i (fun _ _ => True) e := by
  rw [start]
  split
  · exact trivial
  refine safe_op fun e₁ hr hinv => ?_
  have hc : e₁.contextRun i = none := hr.context.trans he
  refine ⟨⟨rfl, hc⟩, fun a hok _ => ?_⟩
  have ha := fun rec =>
    @accepted_setStatusRunning env timely i e₁ id rec a (hinv id) hc hok.1
  generalize ((Op.setStatusRunning id i).run env a e₁).1 = r at ha ⊢
  generalize ((Op.setStatusRunning id i).run env a e₁).2 = e₂ at ha ⊢
  cases (r : Except StartError RunRecord) with
  | error => exact trivial
  | ok updated =>
  have he₂ : Accepted timely i id updated e₂ := ha updated rfl
  have hP := stable_accepted timely i id updated
  simp only
  split
  · -- rejected
    refine safe_op fun e₃ hr _ => ?_
    have he₃ := hP e₂ e₃ hr he₂
    exact ⟨⟨rfl, he₃.owner, he₃.unregistered, he₃.live⟩, fun _ _ _ => trivial⟩
  refine safe_op fun e₃ hr _ => ?_
  have he₃ := hP e₂ e₃ hr he₂
  refine ⟨⟨rfl, he₃.owner, he₃.unregistered, he₃.context⟩, fun a _ _ => ?_⟩
  cases hi : updated.input with
  | none => exact trivial
  | some input =>
  -- the context is registered; what follows relies on it
  have hb : Before timely i id input ((Op.registerCancel id i).run env a e₃).2 :=
    ⟨⟨he₃.owner, he₃.carries input hi, by simp [Op.run]⟩, he₃.lease, he₃.quiet⟩
  have hl : ((Op.registerCancel id i).run env a e₃).2.live id = [] := he₃.live
  generalize ((Op.registerCancel id i).run env a e₃).2 = e₄ at hb hl ⊢
  refine safe_op fun e₅ hr _ => ?_
  have he₅ := stable_before timely i id input e₄ e₅ hr hb
  have hl₅ : e₅.live id = [] := ((hr.run id).live hb.owner).trans hl
  exact ⟨⟨rfl, he₅.owner, hl₅⟩, fun a _ _ => safe_goroutine ⟨{ he₅ with }, he₅.lease, he₅.quiet⟩⟩

def MayCancel (timely : Prop) (ctx : Nat) (e : Executor) : Prop :=
  timely → ∃ id, e.contextRun ctx = some id ∧ (ctx ∈ e.owners id → Dismissed e id)

theorem stable_mayCancel (timely : Prop) (i ctx : Nat) : Stable i (MayCancel timely ctx) := by
  intro e e' h hm ht
  obtain ⟨id, hr, hd⟩ := hm ht
  exact ⟨id, (h.run id).contextRun ctx hr, (h.run id).dismissed ctx hr hd⟩

theorem safe_cancel {ctx : Nat} {next : Unit → Prog env α} (he : MayCancel timely ctx e)
    (h : ∀ e', (next ()).Safe (terms env timely) i post e') :
    ((Op.cancel ctx).perform >>= next).Safe (terms env timely) i post e :=
  safe_op fun e₁ hr _ =>
    ⟨stable_mayCancel timely i ctx e e₁ hr he, fun _ _ _ => h _⟩

/-- After the status is set, only quiet operations follow. -/
theorem safe_markStopped :
    (markStopped id i : Prog env Unit).Safe (terms env timely) i (fun _ _ => True) e := by
  have hP : Stable i fun _ => True := fun _ _ _ _ => trivial
  refine safe_op fun e₁ _ _ => ⟨rfl, fun a _ _ => ?_⟩
  generalize ((Op.setStatus (.stop i) id .stopped "").run env a e₁).1 = r
  cases (r : Option RunRecord) with
  | none => exact trivial
  | some updated =>
    refine bind (safe_snapshotFinalConfiguration hP trivial) fun _ e₂ _ => ?_
    split
    · exact safe_sendNotificationIfConfigured updated hP trivial
    · exact trivial

theorem safe_stop : (stop id i : Prog env Unit).Safe (terms env timely) i (fun _ _ => True) e := by
  rw [stop]
  split
  · exact trivial
  refine safe_op fun e₁ _ hi => ⟨rfl, fun a _ _ => ?_⟩
  have hm : ∀ ctx, ((Op.lookupCancel id i).run env a e₁).1 = some ctx →
      MayCancel timely ctx ((Op.lookupCancel id i).run env a e₁).2 := by
    exact fun ctx h _ => ⟨id, (hi id).context ctx h, fun _ => .inl (.inr (by simp [Op.run]))⟩
  generalize ((Op.lookupCancel id i).run env a e₁).1 = r at hm ⊢
  cases (r : Option Nat) with
  | none => exact safe_markStopped
  | some ctx => exact safe_cancel (hm ctx rfl) fun _ => safe_markStopped

theorem safe_signalOnlineLeaseEnd (reason : OnlineCompletion) :
    (signalOnlineLeaseEnd id reason : Prog env Unit).Safe (terms env timely) i
      (fun _ _ => True) e := by
  refine safe_op fun e₁ _ hi => ⟨trivial, fun a hok _ => ?_⟩
  have hm : ∀ ctx, ((Op.signalLeaseEnd id reason).run env a e₁).1 = some ctx →
      MayCancel timely ctx ((Op.signalLeaseEnd id reason).run env a e₁).2 := by
    intro ctx h ht
    have hn : e₁.lease id ≠ .leaving := by simpa [endsInTime] using hok.2 ht
    simp only [Op.run] at h ⊢
    split at h
    · rename_i hti
      rw [if_pos hti]
      refine ⟨id, (hi id).context ctx h, fun _ => .inr ?_⟩
      cases hlease : e₁.lease id <;> simp_all
    · cases h
  generalize ((Op.signalLeaseEnd id reason).run env a e₁).1 = r at hm ⊢
  cases (r : Option Nat) with
  | none => exact trivial
  | some ctx => exact safe_cancel (hm ctx rfl) fun _ => trivial

theorem safe_renewOnlineLease :
    (renewOnlineLease id : Prog env Unit).Safe (terms env timely) i (fun _ _ => True) e := by
  have hP : Stable i fun _ => True := fun _ _ _ _ => trivial
  rw [renewOnlineLease]
  split
  · exact trivial
  refine safe_get hP trivial fun e₁ _ _ => ?_
  cases e₁.store.get id with
  | none => exact trivial
  | some rec =>
  simp only
  split
  · exact trivial
  cases rec.input.bind (·.optimization) with
  | none => exact trivial
  | some opt =>
  simp only
  split
  · exact safe_quiet' (f := pure) rfl hP trivial fun _ _ _ => trivial
  · exact trivial

theorem safe_body (call : Call) (he : Idle i e) :
    (call.body env i).Safe (terms env timely) i (fun _ _ => True) e := by
  cases call with
  | start => exact safe_start he
  | stop => exact safe_stop
  | renewOnlineLease => exact safe_renewOnlineLease
  | signalOnlineLeaseEnd _ reason => exact safe_signalOnlineLeaseEnd reason
  | _ => exact Program.safe_call fun _ _ _ => ⟨trivial, fun _ _ _ => trivial⟩

end Programs

section Runs

variable {env : Server} {timely : Prop} {c : Pool (machine env)}

theorem inv_fresh {e : Executor} (h : Fresh e) (id : RunId) : RunInv timely e id := by
  have hg : e.store.get id = none := by
    rw [RunStore.get, h.runs]
    rfl
  rw [h.rest]
  exact ⟨fun hb => by simp [Begun] at hb,
    fun _ => ⟨rfl, rfl, rfl, rfl, rfl⟩, fun _ hi => by simp at hi, .inl rfl,
    fun _ ht => by simp at ht, fun _ _ ht => by simp at ht, fun _ hl => by simp at hl,
    fun hl => by simp at hl⟩

theorem idle_fresh {e : Executor} (h : Fresh e) (i : Nat) : Idle i e := by
  rw [Idle, h.rest]

theorem idle_rely (i : Nat) (e e' : Executor) (h : RelyAll i e e') (he : Idle i e) : Idle i e' :=
  h.context.trans he

theorem inv_runsBy (hc : RunsBy (Call.body env) (Regular timely) Fresh c) (id : RunId) :
    RunInv timely c.shared id :=
  (hc.safe (terms env timely) (fun _ h => inv_fresh h) (fun _ h => idle_fresh h) idle_rely
    fun call _ _ _ he => safe_body call he).1 id

theorem pre_runsBy (hc : RunsBy (Call.body env) (Regular timely) Fresh c) {i : Nat} {op : Op}
    {next : op.Result → Prog env Unit} (hi : c.threads[i]? = some (.call op next)) :
    op.pre timely i c.shared :=
  hc.pre (terms env timely) (fun _ h => inv_fresh h) (fun _ h => idle_fresh h) idle_rely
    (fun call _ _ _ he => safe_body call he) hi

end Runs

end SimCore.Runs
