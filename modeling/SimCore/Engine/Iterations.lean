import SimCore.Engine.Sharing

/-!
# The iterations of the event loop

Every call on the engine carries out only operations that its thread may carry out, whatever other
threads do in between. For an iteration of `Run` this says what is known at the two points that
matter: no error is latched when a handler starts, and when `Run` returns, the error, the status and
the clock are what they should be, each as far as the other threads leave it alone.

## Main definitions

* `terms`: invariant, relies and preconditions of the threads of the engine
* `Checked`, `Leaving`: what an iteration knows after its guard check, and when it returns

## Main results

* `safe_iteration`, `safe_body`: every call is safe
* `inv_runsBy`, `pre_runsBy`: what holds in every state, and at every operation, of a run
-/

namespace SimCore.EngineLoop

open Concurrent Program.Safe

variable {τ : Type} {cfg : Config τ} {guarded alone : Prop} {i : Nat} {s s' : SharedEngine τ}
  {op : Op τ} {P : SharedEngine τ → Prop} {frame : Frame} {err : Option RunError}

/-- Invariant, relies and preconditions of the threads of the engine. -/
def terms (cfg : Config τ) (guarded alone : Prop) :
    Terms (machine cfg) (Regular guarded alone) where
  inv := Inv cfg guarded alone
  rely := RelyOn guarded alone
  pre i op := op.pre cfg guarded alone i
  rely_refl := RelyOn.refl
  rely_trans _ _ _ _ := RelyOn.trans
  step _ _ _ a hinv hpre hok :=
    have h := Op.custody a hinv hpre hok
    ⟨h.inv, h.rely⟩

/-- What follows is safe, whatever it leads to. -/
abbrev SafeCall (cfg : Config τ) (guarded alone : Prop) (i : Nat) (p : Prog cfg Unit)
    (s : SharedEngine τ) : Prop :=
  p.Safe (terms cfg guarded alone) i (fun _ _ => True) s

/-- What survives the others. -/
def Stable (guarded alone : Prop) (i : Nat) (P : SharedEngine τ → Prop) : Prop :=
  ∀ s s', RelyOn guarded alone i s s' → P s → P s'

theorem safe_op {α : Type} {f : op.Result → Prog cfg α} {post : α → SharedEngine τ → Prop}
    (h : ∀ s₁ : SharedEngine τ, RelyOn guarded alone i s s₁ → Inv cfg guarded alone s₁ →
      op.pre cfg guarded alone i s₁ ∧ ∀ a,
        (f (op.run cfg a s₁).1).Safe (terms cfg guarded alone) i post (op.run cfg a s₁).2) :
    (op.perform >>= f).Safe (terms cfg guarded alone) i post s :=
  Program.safe_call fun s₁ hr hi => ⟨(h s₁ hr hi).1, fun a _ _ => (h s₁ hr hi).2 a⟩

theorem safe_last {post : op.Result → SharedEngine τ → Prop}
    (h : ∀ s₁ : SharedEngine τ, RelyOn guarded alone i s s₁ → Inv cfg guarded alone s₁ →
      op.pre cfg guarded alone i s₁ ∧ ∀ a, post (op.run cfg a s₁).1 (op.run cfg a s₁).2) :
    (op.perform : Prog cfg op.Result).Safe (terms cfg guarded alone) i post s :=
  Program.safe_call fun s₁ hr hi => ⟨(h s₁ hr hi).1, fun a _ _ => (h s₁ hr hi).2 a⟩

/-- The operations that only read. -/
def Op.reads : Op τ → Bool
  | .guardrailErr false | .peek | .isEmpty | .now | .clock | .managerStatus => true
  | _ => false

theorem Op.pre_of_reads (h : op.reads = true) : op.pre cfg guarded alone i s := by
  cases op with
  | guardrailErr head =>
    cases head with
    | true => cases h
    | false => trivial
  | _ => trivial

theorem Op.run_of_reads (h : op.reads = true) (cfg : Config τ) (a : Answer) (s : SharedEngine τ) :
    (op.run cfg a s).2 = s := by
  cases op with
  | guardrailErr head =>
    cases head with
    | true => cases h
    | false => rfl
  | _ => first | rfl | cases h

theorem safe_read {α : Type} {f : op.Result → Prog cfg α} {post : α → SharedEngine τ → Prop}
    (hop : op.reads = true) (hP : Stable guarded alone i P) (hs : P s)
    (h : ∀ s₁ a, P s₁ → (f (op.run cfg a s₁).1).Safe (terms cfg guarded alone) i post s₁) :
    (op.perform >>= f).Safe (terms cfg guarded alone) i post s := by
  refine safe_op fun s₁ hr _ => ⟨Op.pre_of_reads hop, fun a => ?_⟩
  rw [op.run_of_reads hop cfg a s₁]
  exact h s₁ a (hP s s₁ hr hs)

/-! ### Scheduling -/

/-- What both the other threads and a call that schedules an event or latches an error leave. -/
structure Kept (alone : Prop) (i : Nat) (s s' : SharedEngine τ) : Prop where
  guardErr : ∀ err, s.guardErr = some err → s'.guardErr = some err
  cancelled : s.cancelled = true → s'.cancelled = true
  held : s.place.runner = some i → s'.place = s.place ∧ s'.hindered = s.hindered ∧
    s'.simTime = s.simTime ∧ (alone → s'.status = s.status) ∧
    ∀ t, EndQueued t s → s'.cancelled = true ∨ EndQueued t s'

theorem RelyOn.kept (h : RelyOn guarded alone i s s') : Kept alone i s s' :=
  ⟨h.guardErr, h.cancelled, fun hr => ⟨(h.held hr).place, (h.held hr).hindered,
    (h.held hr).simTime, fun ha => ((h.held hr).status ha).1, (h.held hr).queued⟩⟩

theorem Kept.guardErr_eq_none (h : Kept alone i s s') (hn : s'.guardErr = none) :
    s.guardErr = none := by
  cases hguard : s.guardErr with
  | none => rfl
  | some err => simp [h.guardErr err hguard] at hn

/-- What survives the others, and what the thread itself schedules and latches. -/
def Enduring (alone : Prop) (i : Nat) (P : SharedEngine τ → Prop) : Prop :=
  ∀ s s', Kept alone i s s' → P s → P s'

theorem Enduring.stable (hP : Enduring alone i P) : Stable guarded alone i P :=
  fun s s' hr => hP s s' hr.kept

theorem safe_triggerGuardFailure (err : RunError) (hP : Enduring alone i P) (hs : P s) :
    (triggerGuardFailure err : Prog cfg Unit).Safe (terms cfg guarded alone) i
      (fun _ s => P s ∧ s.guardErr ≠ none) s := by
  refine safe_op fun s₁ hr _ => ⟨trivial, fun a => ?_⟩
  have hs₂ : P { s₁ with guardErr := some (s₁.guardErr.getD err) } :=
    hP s₁ _ ⟨fun e he => by simp [he], id,
      fun _ => ⟨rfl, rfl, rfl, fun _ => rfl, fun _ h => .inr h⟩⟩ (hP s s₁ hr.kept hs)
  split
  · refine safe_last fun s₃ hr' _ => ⟨trivial, fun a => ?_⟩
    have hl := hr'.guardErr _ rfl
    refine ⟨hP s₃ _ ⟨fun _ h => h, fun _ => rfl,
      fun _ => ⟨rfl, rfl, rfl, fun _ => rfl, fun _ _ => .inl rfl⟩⟩
      (hP _ s₃ hr'.kept hs₂), fun h => ?_⟩
    have h : s₃.guardErr = none := h
    rw [h] at hl
    cases hl
  · exact ⟨hs₂, fun h => by cases h⟩

theorem safe_push {time : Time} {task : Task τ} {counter : Nat} (hP : Enduring alone i P)
    (hs : P s) (hd : s.drawn i = some counter)
    (hm : 0 < cfg.limits.maxEventsScheduled → (counter : Int) ≤ cfg.limits.maxEventsScheduled)
    (hsi : 0 < cfg.limits.maxEventQueueSize → i ∈ s.sized) :
    ((Op.push i ⟨time, counter, task⟩).perform : Prog cfg Unit).Safe (terms cfg guarded alone) i
      (fun _ s => P s ∧ ∃ event ∈ s.queue, event.time = time ∧ event.kind = task) s := by
  refine safe_last fun s₁ hr _ => ⟨⟨rfl, hr.drawn.trans hd, hm,
    fun h => hr.sized (hsi h)⟩, fun a => ⟨?_, ⟨time, counter, task⟩, ?_, rfl, rfl⟩⟩
  · exact hP s₁ _ ⟨fun _ h => h, id,
      fun _ => ⟨rfl, rfl, rfl, fun _ => rfl, fun _ h => .inr (h.cons rfl)⟩⟩ (hP s s₁ hr.kept hs)
  · exact List.mem_cons_self

/-- Unless an error is latched, a scheduled event is queued. -/
theorem safe_scheduleEvent (time : Time) (task : Task τ) (hP : Enduring alone i P) (hs : P s) :
    (scheduleEvent i time task : Prog cfg Unit).Safe (terms cfg guarded alone) i
      (fun _ s => P s ∧
        (s.guardErr = none → ∃ event ∈ s.queue, event.time = time ∧ event.kind = task)) s := by
  have ht : ∀ {s} err, P s → (triggerGuardFailure err : Prog cfg Unit).Safe
      (terms cfg guarded alone) i (fun _ s => P s ∧
        (s.guardErr = none → ∃ event ∈ s.queue, event.time = time ∧ event.kind = task)) s :=
    fun err hs => (safe_triggerGuardFailure err hP hs).mono fun _ _ h =>
      ⟨h.1, fun hn => absurd hn h.2⟩
  refine safe_op fun s₁ hr _ => ⟨rfl, fun a => ?_⟩
  generalize hrun : (Op.countEvent i).run cfg a s₁ = res
  obtain ⟨counter, s₂⟩ := res
  obtain ⟨hco, hs₂⟩ := Prod.mk.inj hrun
  have hP₂ : P s₂ := by
    subst hs₂
    exact hP s₁ _ ⟨fun _ h => h, id, fun _ => ⟨rfl, rfl, rfl, fun _ => rfl, fun _ h => .inr h⟩⟩
      (hP s s₁ hr.kept hs)
  have hd : s₂.drawn i = some counter := by
    subst hs₂ hco
    exact Function.update_self ..
  split
  · exact ht _ hP₂
  rename_i hsc
  have hm : 0 < cfg.limits.maxEventsScheduled →
      (counter : Int) ≤ cfg.limits.maxEventsScheduled := fun h =>
    not_lt.1 fun hlt => hsc ⟨h, hlt⟩
  split_ifs with hsi
  · refine safe_op fun s₃ hr' _ => ⟨rfl, fun a => ?_⟩
    generalize hrun' : (Op.queueSize i).run cfg a s₃ = res
    obtain ⟨_, s₄⟩ := res
    obtain ⟨hsi, hs₄⟩ := Prod.mk.inj hrun'
    have hP₄ : P s₄ := by
      subst hs₄
      exact hP s₃ _ ⟨fun _ h => h, id, fun _ => ⟨rfl, rfl, rfl, fun _ => rfl, fun _ h => .inr h⟩⟩
        (hP s₂ s₃ hr'.kept hP₂)
    have hd₄ : s₄.drawn i = some counter := by
      subst hs₄
      exact hr'.drawn.trans hd
    split_ifs with hf
    · exact ht _ hP₄
    · refine (safe_push hP hP₄ hd₄ hm fun _ => ?_).mono fun _ _ h => ⟨h.1, fun _ => h.2⟩
      subst hs₄ hsi
      simp [not_lt.1 hf]
  · exact (safe_push hP hP₂ hd hm fun h => absurd h hsi).mono fun _ _ h => ⟨h.1, fun _ => h.2⟩

theorem enduring_true : Enduring alone i fun _ : SharedEngine τ => True :=
  fun _ _ _ _ => trivial

/-! ### What `Run` knows -/

theorem InOrder.kept (h : InOrder frame s) (hk : Kept alone i s s')
    (hr : s.place.runner = some i) : InOrder frame s' := by
  obtain ⟨-, -, ht, -, hqu⟩ := hk.held hr
  rcases h with hc | ⟨hle, hq⟩
  · exact .inl (hk.cancelled hc)
  · exact (hqu _ hq).imp_right fun hq => ⟨ht ▸ hle, hq⟩

/-- What an iteration knows before its guard check, and while its handler is at work. -/
structure Unchecked (alone : Prop) (i : Nat) (frame : Frame) (s : SharedEngine τ) : Prop where
  place : s.place = .inside frame i false
  going : s.hindered = false
  order : alone → s.status = .running ∧ (s.guardErr = none → InOrder frame s)

theorem enduring_unchecked (i : Nat) (frame : Frame) :
    Enduring alone i (Unchecked alone i frame : SharedEngine τ → Prop) := by
  intro s s' hk h
  obtain ⟨hp, hgo, -, hs, -⟩ := hk.held (runner_inside h.place)
  exact ⟨hp.trans h.place, hgo.trans h.going, fun ha => ⟨(hs ha).trans (h.order ha).1, fun hn =>
    ((h.order ha).2 (hk.guardErr_eq_none hn)).kept hk (runner_inside h.place)⟩⟩

/-- What an iteration knows after its guard check: no error is latched, whether it can go on, and
something about the clock and the queue. -/
structure Known (guarded alone : Prop) (i : Nat) (frame : Frame) (hindered : Bool)
    (K : SharedEngine τ → Prop) (s : SharedEngine τ) : Prop where
  place : s.place = .inside frame i true
  going : s.hindered = hindered
  guardErr : guarded → s.guardErr = none
  known : alone → s.status = .running ∧ K s

/-- An iteration that can go on. -/
abbrev Checked (guarded alone : Prop) (i : Nat) (frame : Frame) (K : SharedEngine τ → Prop) :
    SharedEngine τ → Prop :=
  Known guarded alone i frame false K

/-- What survives the others inside an iteration. -/
def Lasting (guarded alone : Prop) (i : Nat) (frame : Frame) (K : SharedEngine τ → Prop) : Prop :=
  ∀ s s', s.place = .inside frame i true → RelyOn guarded alone i s s' → alone → K s → K s'

section Checked

variable {frame : Frame} {K K' : SharedEngine τ → Prop} {event : Event (Task τ)} {hindered : Bool}

theorem stable_checked (hK : Lasting guarded alone i frame K) :
    Stable guarded alone i (Known guarded alone i frame hindered K) := by
  intro s s' hr h
  have hh := hr.held (runner_inside h.place)
  exact ⟨hh.place.trans h.place, hh.hindered.trans h.going,
    fun hg => (hh.guardErr hg frame i h.place).trans (h.guardErr hg),
    fun ha => ⟨(hh.status ha).1.trans (h.known ha).1, hK s s' h.place hr ha (h.known ha).2⟩⟩

theorem Known.imp (h : Known guarded alone i frame hindered K s) (hK : K s → K' s) :
    Known guarded alone i frame hindered K' s :=
  ⟨h.place, h.going, h.guardErr, fun ha => ⟨(h.known ha).1, hK (h.known ha).2⟩⟩

theorem lasting_inOrder : Lasting guarded alone i frame (InOrder frame : SharedEngine τ → Prop) :=
  fun _ _ hp hr _ h => h.kept hr.kept (runner_inside hp)

/-- The clock is not past the end, and the end is kept. -/
def Going (frame : Frame) (s : SharedEngine τ) : Prop :=
  s.simTime ≤ frame.endTime ∧ EndKept frame.endTime s

theorem lasting_going : Lasting guarded alone i frame (Going frame : SharedEngine τ → Prop) := by
  intro s s' hp hr ha h
  have hh := hr.held (runner_inside hp)
  exact ⟨hh.simTime ▸ h.1, hh.kept ha frame i hp h.2⟩

/-- The clock is not past the end, and the run is cancelled. -/
def Idle (frame : Frame) (s : SharedEngine τ) : Prop :=
  s.simTime ≤ frame.endTime ∧ s.cancelled = true

theorem lasting_idle : Lasting guarded alone i frame (Idle frame : SharedEngine τ → Prop) := by
  intro s s' hp hr _ h
  exact ⟨(hr.held (runner_inside hp)).simTime ▸ h.1, hr.cancelled h.2⟩

/-- The event that an iteration has taken is not late, or the run is cancelled; and unless it is the
end of the simulation, the end is still queued. -/
structure InTime (frame : Frame) (event : Event (Task τ)) (s : SharedEngine τ) : Prop where
  queued : (s.cancelled = true ∨ EndQueued frame.endTime s) ∨
    event.kind.type = .simulationEnd ∧ event.time = frame.endTime
  time : s.cancelled = true ∨ event.time ≤ frame.endTime
  ending : event.kind.type = .simulationEnd → event.time ≤ frame.endTime

theorem InTime.kept (h : InTime frame event s) (hk : Kept alone i s s')
    (hr : s.place.runner = some i) : InTime frame event s' := by
  refine ⟨?_, h.time.imp_left hk.cancelled, h.ending⟩
  rcases h.queued with (hc | hq) | he
  · exact .inl (.inl (hk.cancelled hc))
  · exact .inl ((hk.held hr).2.2.2.2 _ hq)
  · exact .inr he

theorem lasting_inTime {t : Time} : Lasting guarded alone i frame fun s =>
    InTime frame event s ∧ s.simTime = t := by
  intro s s' hp hr _ h
  exact ⟨h.1.kept hr.kept (runner_inside hp), (hr.held (runner_inside hp)).simTime.trans h.2⟩

theorem lasting_inTime_le : Lasting guarded alone i frame fun s =>
    InTime frame event s ∧ s.simTime ≤ frame.endTime := by
  intro s s' hp hr _ h
  exact ⟨h.1.kept hr.kept (runner_inside hp), (hr.held (runner_inside hp)).simTime ▸ h.2⟩

/-- Taking an event off the queue while the end of the simulation is kept. -/
theorem EndKept.inTime {rest : List (Event (Task τ))} (h : EndKept frame.endTime s)
    (hp : popLeast s.queue = some (event, rest)) :
    InTime frame event { s with queue := rest } := by
  obtain ⟨⟨_, _, hq, rfl⟩, hm⟩ := popLeast_eq_some hp
  have hmem : event ∈ s.queue := by simp [hq]
  rcases h with ⟨x, hx, hty, ht⟩ | ⟨hc, hle⟩
  · have he : event.time ≤ frame.endTime :=
      ht ▸ time_le_of_rank_le (rank_le_of_key_le (hm x hx))
    refine ⟨?_, .inr he, fun _ => he⟩
    -- the queued end is the event that was taken, or another one
    rw [hq, List.mem_append, List.mem_cons] at hx
    rcases hx with hx | rfl | hx
    · exact .inl (.inr ⟨x, List.mem_append_left _ hx, hty, ht⟩)
    · exact .inr ⟨hty, ht⟩
    · exact .inl (.inr ⟨x, List.mem_append_right _ hx, hty, ht⟩)
  · exact ⟨.inl (.inl hc), .inl hc, hle event hmem⟩

end Checked

/-! ### The ways out of an iteration -/

/-- What an iteration knows when it returns. -/
structure Leaving (guarded alone : Prop) (i : Nat) (frame : Frame) (err : Option RunError)
    (s : SharedEngine τ) : Prop where
  place : ∃ checked, s.place = .inside frame i checked ∧
    (guarded → s.guardErr = none ∧ checked = true ∨ ∃ e, s.guardErr = some e ∧ err = some e)
  going : err = none ↔ s.hindered = false
  clock : alone → err = none → s.simTime = frame.endTime

theorem stable_leaving (i : Nat) (frame : Frame) (err : Option RunError) :
    Stable guarded alone i (Leaving guarded alone i frame err : SharedEngine τ → Prop) := by
  intro s s' hr h
  obtain ⟨checked, hp, hgu⟩ := h.place
  have hh := hr.held (runner_inside hp)
  refine ⟨⟨checked, hh.place.trans hp, fun hg => ?_⟩, by rw [h.going, hh.hindered],
    fun ha hn => hh.simTime.trans (h.clock ha hn)⟩
  rcases hgu hg with ⟨hn, rfl⟩ | ⟨e, he, herr⟩
  · exact .inl ⟨(hh.guardErr hg frame i hp).trans hn, rfl⟩
  · exact .inr ⟨e, hr.guardErr e he, herr⟩

theorem Leaving.guardErr (h : Leaving guarded alone i frame err s) (hg : guarded) {e : RunError}
    (he : s.guardErr = some e) : err = some e := by
  obtain ⟨_, -, hgu⟩ := h.place
  rcases hgu hg with ⟨hn, -⟩ | ⟨_, he', _⟩
  · simp [he] at hn
  · rwa [he.symm.trans he']

theorem Known.leaving {K : SharedEngine τ → Prop} {hindered : Bool}
    (h : Known guarded alone i frame hindered K s) (herr : err = none ↔ hindered = false)
    (hcl : K s → err = none → s.simTime = frame.endTime) : Leaving guarded alone i frame err s :=
  ⟨⟨true, h.place, fun hg => .inl ⟨h.guardErr hg, rfl⟩⟩, by rw [h.going, herr],
    fun ha => hcl (h.known ha).2⟩

/-- What an iteration knows after the deferred function. -/
def Settled (guarded alone : Prop) (i : Nat) (frame : Frame) (err : Option RunError)
    (s : SharedEngine τ) : Prop :=
  Leaving guarded alone i frame err s ∧ (alone → s.status = .completed ∧ s.metrics = true)

theorem safe_leave_settled (hs : Settled guarded alone i frame err s) :
    SafeCall cfg guarded alone i (Op.leave err).perform s := by
  refine safe_last fun s₁ hr _ => ⟨?_, fun _ => trivial⟩
  obtain ⟨checked, hp, -⟩ := hs.1.place
  have hh := hr.held (runner_inside hp)
  have hl := stable_leaving i frame err s s₁ hr hs.1
  refine ⟨frame, checked, hh.place.trans hp, fun hg e => hl.guardErr hg, hl.going,
    fun ha => ⟨?_, ?_, hl.clock ha⟩⟩
  · exact (hh.status ha).1.trans (hs.2 ha).1
  · exact (hh.status ha).2.trans (hs.2 ha).2

/-- The deferred function completes a run that nobody else has touched. -/
theorem safe_leave (hs : Leaving guarded alone i frame err s) (hst : alone → s.status = .running) :
    SafeCall cfg guarded alone i (leave err) s := by
  have hP : Stable guarded alone i fun s : SharedEngine τ =>
      Leaving guarded alone i frame err s ∧ (alone → s.status = .running) := by
    intro s s' hr h
    obtain ⟨_, hp, -⟩ := h.1.place
    exact ⟨stable_leaving i frame err s s' hr h.1,
      fun ha => ((hr.held (runner_inside hp)).status ha).1.trans (h.2 ha)⟩
  refine safe_read rfl hP ⟨hs, hst⟩ fun s₁ a hs₁ => ?_
  split_ifs with hne
  · refine safe_op fun s₂ hr _ => ⟨trivial, fun a => ?_⟩
    have h := (hP s₁ s₂ hr hs₁).1
    exact safe_leave_settled ⟨⟨h.place, h.going, h.clock⟩, fun _ => ⟨rfl, rfl⟩⟩
  · exact safe_leave_settled ⟨hs₁.1, fun ha => absurd (hs₁.2 ha) hne⟩

section Iteration

variable {frame : Frame} {K : SharedEngine τ → Prop} {event : Event (Task τ)}
  {P : SharedEngine τ → Prop}

theorem safe_leave_none (hs : Checked guarded alone i frame K s)
    (hcl : K s → s.simTime = frame.endTime) : SafeCall cfg guarded alone i (leave none) s :=
  safe_leave (hs.leaving (by simp) fun h _ => hcl h) fun ha => (hs.known ha).1

theorem safe_leave_some {err : RunError} (hs : Known guarded alone i frame true K s) :
    SafeCall cfg guarded alone i (leave (some err)) s :=
  safe_leave (hs.leaving (by simp) nofun) fun ha => (hs.known ha).1

/-- An iteration that goes back to the head of the loop. -/
theorem safe_continue (hK : Lasting guarded alone i frame K) (ho : ∀ s, K s → InOrder frame s)
    (hs : Checked guarded alone i frame K s) :
    SafeCall cfg guarded alone i Op.continue.perform s := by
  refine safe_last fun s₁ hr _ => ⟨?_, fun _ => trivial⟩
  have hs₁ := stable_checked hK s s₁ hr hs
  exact ⟨frame, true, hs₁.place, hs₁.going,
    fun ha => ⟨(hs₁.known ha).1, fun _ => ho s₁ (hs₁.known ha).2⟩⟩

/-- An iteration that goes back to the head of the loop after its handler. -/
theorem safe_continue_unchecked (hs : Unchecked alone i frame s) :
    SafeCall cfg guarded alone i Op.continue.perform s := by
  refine safe_last fun s₁ hr _ => ⟨?_, fun _ => trivial⟩
  have hs₁ := enduring_unchecked i frame s s₁ hr.kept hs
  exact ⟨frame, false, hs₁.place, hs₁.going, hs₁.order⟩

theorem safe_leaveCancelled (hK : Lasting guarded alone i frame K)
    (hs : Known guarded alone i frame true K s) :
    SafeCall cfg guarded alone i leaveCancelled s :=
  safe_read rfl (stable_checked hK) hs fun _ _ hs₁ => safe_leave_some hs₁

/-- Without an event, `Run` returns only if the clock shows the end, or is set to it. -/
theorem safe_handleEmptyQueue (hs : Checked guarded alone i frame (Idle frame) s) :
    SafeCall cfg guarded alone i (handleEmptyQueue frame) s := by
  have hP : Stable guarded alone i
      (Checked guarded alone i frame (Idle frame) : SharedEngine τ → Prop) :=
    stable_checked lasting_idle
  have hco : ∀ {s}, Checked guarded alone i frame (Idle frame) s →
      SafeCall cfg guarded alone i Op.continue.perform s :=
    fun hs => safe_continue lasting_idle (fun _ h => .inl h.2) hs
  refine safe_read rfl hP hs fun s₁ a hs₁ => ?_
  split_ifs with hlt
  · refine safe_read rfl hP hs₁ fun s₂ _ hs₂ => ?_
    split
    · exact hco hs₂
    refine safe_read rfl hP hs₂ fun s₃ _ hs₃ => ?_
    split
    · refine safe_op fun s₄ hr₄ _ => ?_
      have hs₄ := hP s₃ s₄ hr₄ hs₃
      refine ⟨⟨frame, hs₄.place⟩, fun a => ?_⟩
      exact safe_leave ⟨⟨true, hs₄.place, fun hg => .inl ⟨hs₄.guardErr hg, rfl⟩⟩,
        iff_of_true rfl hs₄.going, fun _ _ => rfl⟩
        fun ha => (hs₄.known ha).1
    · exact hco hs₃
  · exact safe_leave_none hs₁ fun h => le_antisymm h.1 (not_lt.1 hlt)

/-- What the thread that looks at its context finds out: whether it can go on. -/
theorem Known.look {r r' : Bool} (hs : Checked guarded alone i frame K s)
    (hK : K s → K { s with hindered := r || s.hindered }) (hr : r = r') :
    Known guarded alone i frame r' K { s with hindered := r || s.hindered } :=
  ⟨hs.place, by simp [hs.going, hr], hs.guardErr, fun ha => (hs.known ha).imp_right hK⟩

/-- A fact that does not depend on whether `Run` can go on. -/
def Blind (K : SharedEngine τ → Prop) : Prop :=
  ∀ s hindered, K s → K { s with hindered := hindered }

theorem safe_waitForEnd (hK : Lasting guarded alone i frame K) (hb : Blind K) (n : Nat)
    (hs : Checked guarded alone i frame K s) :
    (waitForEnd n : Prog cfg Bool).Safe (terms cfg guarded alone) i
      (fun caughtUp => Known guarded alone i frame (!caughtUp) K) s := by
  induction n generalizing s with
  | zero => exact hs
  | succ _ ih =>
    refine safe_op fun s₁ hr _ => ?_
    have hs₁ := stable_checked hK s s₁ hr hs
    refine ⟨runner_inside hs₁.place, fun a => ?_⟩
    show Program.Safe _ i _ (if (s₁.cancelled && a.notices) = true then _ else _) _
    split_ifs with hn
    · exact hs₁.look (hb s₁ _) hn
    · exact ih (hs₁.look (hb s₁ _) (eq_false_of_ne_true hn))

theorem safe_catchUp (hK : Lasting guarded alone i frame K) (hb : Blind K)
    (hs : Checked guarded alone i frame K s) :
    (catchUp frame event : Prog cfg Bool).Safe (terms cfg guarded alone) i
      (fun caughtUp => Known guarded alone i frame (!caughtUp) K) s := by
  rw [catchUp]
  split
  · exact safe_read rfl (stable_checked hK) hs fun _ _ hs₁ => safe_waitForEnd hK hb _ hs₁
  · exact hs

theorem safe_throttle (t : Time) (hP : Stable guarded alone i P) (hs : P s) :
    (throttle t event : Prog cfg Unit).Safe (terms cfg guarded alone) i (fun _ => P) s := by
  rw [throttle]
  split
  · exact safe_read rfl hP hs fun _ _ hs₁ => hs₁
  · exact hs

/-- The event that an iteration has taken is counted, and no handler has been started for it. -/
def Counted (cfg : Config τ) (s : SharedEngine τ) : Prop :=
  s.handlersStarted < s.processed ∧
    (0 < cfg.limits.maxEventsProcessed → (s.processed : Int) ≤ cfg.limits.maxEventsProcessed)

theorem stable_counted (hK : Lasting guarded alone i frame K) :
    Stable guarded alone i fun s => Checked guarded alone i frame K s ∧ Counted cfg s := by
  intro s s' hr h
  have hh := hr.held (runner_inside h.1.place)
  refine ⟨stable_checked hK s s' hr h.1, ?_⟩
  rw [Counted, hh.handlersStarted, hh.processed]
  exact h.2

/-- A handler starts only when no error is latched, and the simulation ends only at its end. -/
theorem safe_dispatch (he : event.kind.type = .simulationEnd → frame.endTime ≤ event.time)
    (hs : Checked guarded alone i frame (fun s => InTime frame event s ∧ s.simTime = event.time) s)
    (hco : Counted cfg s) :
    SafeCall cfg guarded alone i (dispatch frame event) s := by
  have hP : Stable guarded alone i (Checked guarded alone i frame fun s =>
      InTime frame event s ∧ s.simTime = event.time) := stable_checked lasting_inTime
  rw [dispatch]
  split
  · rename_i ht
    refine bind (safe_catchUp lasting_inTime
      (fun _ _ h => ⟨⟨h.1.queued, h.1.time, h.1.ending⟩, h.2⟩) hs) fun caughtUp s₁ hs₁ => ?_
    cases caughtUp
    · exact safe_leave_some hs₁
    · exact safe_leave_none hs₁ fun h => h.2.trans (le_antisymm (h.1.ending ht) (he ht))
  · rename_i ht
    have ho : ∀ s, InTime frame event s ∧ s.simTime = event.time → InOrder frame s := by
      rintro s ⟨h, hti⟩
      rcases h.queued with (hc | hq) | ⟨hend, -⟩
      · exact .inl hc
      · exact h.time.imp_right fun hle => ⟨hti ▸ hle, hq⟩
      · simp [ht] at hend
    split
    · refine safe_op fun s₁ hr _ => ?_
      obtain ⟨hs₁, hc₁⟩ : _ ∧ Counted cfg s₁ :=
        stable_counted lasting_inTime s s₁ hr ⟨hs, hco⟩
      refine ⟨⟨⟨frame, hs₁.place⟩, hs₁.guardErr, hc₁⟩, fun _ => ?_⟩
      simp only [Op.run, hs₁.place]
      -- from here on the handler is at work
      refine safe_continue_unchecked ⟨rfl, hs₁.going, fun ha => ⟨(hs₁.known ha).1, fun _ => ?_⟩⟩
      exact ho s₁ (hs₁.known ha).2
    · exact safe_continue lasting_inTime ho hs

/-- What an iteration knows after it has taken an event, whatever it latches itself. -/
structure Taken (alone : Prop) (i : Nat) (frame : Frame) (event : Event (Task τ)) (hindered : Bool)
    (s : SharedEngine τ) : Prop where
  place : s.place = .inside frame i true
  going : s.hindered = hindered
  known : alone → s.status = .running ∧ InTime frame event s ∧ s.simTime ≤ frame.endTime

theorem enduring_taken (i : Nat) (frame : Frame) (event : Event (Task τ)) (hindered : Bool) :
    Enduring alone i (Taken alone i frame event hindered) := by
  intro s s' hk h
  obtain ⟨hp, hgo, ht, hs, -⟩ := hk.held (runner_inside h.place)
  refine ⟨hp.trans h.place, hgo.trans h.going, fun ha => ?_⟩
  obtain ⟨hr, hin, hle⟩ := h.known ha
  exact ⟨(hs ha).trans hr, hin.kept hk (runner_inside h.place), ht ▸ hle⟩

/-- Too many events are processed: the iteration latches an error and returns what is latched. -/
theorem safe_leave_latched (err : RunError) (hs : Taken alone i frame event true s) :
    (triggerGuardFailure err >>= fun _ => (Op.guardrailErr false).perform >>= fun e => leave e :
      Prog cfg Unit).Safe (terms cfg guarded alone) i (fun _ _ => True) s := by
  refine bind (safe_triggerGuardFailure err (enduring_taken i frame event _)
    hs) fun _ s₁ ⟨hs₁, hne⟩ => ?_
  obtain ⟨e, he⟩ := Option.ne_none_iff_exists'.1 hne
  refine safe_op fun s₂ hr _ => ⟨trivial, fun a => ?_⟩
  have hs₂ := enduring_taken i frame event _ s₁ s₂ hr.kept hs₁
  have he₂ : s₂.guardErr = some e := hr.guardErr e he
  exact safe_leave ⟨⟨true, hs₂.place, fun _ => .inr ⟨e, he₂, he₂⟩⟩,
    by simp [Op.run, he₂, hs₂.going], fun _ hn => by simp [Op.run, he₂] at hn⟩
    fun ha => (hs₂.known ha).1

/-- The end of the simulation came too early and is scheduled again. -/
theorem safe_reschedule (hne : event.time < frame.endTime)
    (hs : Taken alone i frame event false s) :
    (scheduleEvent i frame.endTime simulationEndTask >>= fun _ => Op.continue.perform :
      Prog cfg Unit).Safe (terms cfg guarded alone) i (fun _ _ => True) s := by
  refine bind (safe_scheduleEvent _ _ (enduring_taken i frame event _) hs) fun _ s₁ ⟨hs₁, _⟩ => ?_
  refine safe_last fun s₂ hr _ => ⟨?_, fun _ => trivial⟩
  have hs₂ := enduring_taken i frame event _ s₁ s₂ hr.kept hs₁
  refine ⟨frame, true, hs₂.place, hs₂.going, fun ha => ?_⟩
  obtain ⟨hst, hin, hle⟩ := hs₂.known ha
  refine ⟨hst, fun _ => ?_⟩
  rcases hin.queued with (hc | hq) | ⟨-, ht⟩
  · exact .inl hc
  · exact .inr ⟨hle, hq⟩
  · exact absurd ht hne.ne

theorem safe_processEvent (hs : Checked guarded alone i frame
      (fun s => InTime frame event s ∧ s.simTime ≤ frame.endTime) s) :
    SafeCall cfg guarded alone i (processEvent i frame event) s := by
  have hP : Stable guarded alone i (Checked guarded alone i frame fun s =>
      InTime frame event s ∧ s.simTime ≤ frame.endTime) := stable_checked lasting_inTime_le
  refine safe_read rfl hP hs fun s₁ _ hs₁ => ?_
  refine safe_op fun s₂ hr hi => ?_
  have hs₂ := hP s₁ s₂ hr hs₁
  refine ⟨⟨frame, hs₂.place⟩, fun a => ?_⟩
  generalize hrun : Op.countProcessed.run cfg a s₂ = res
  obtain ⟨processed, s₃⟩ := res
  obtain ⟨hp, hs₃⟩ := Prod.mk.inj hrun
  have hk : Known guarded alone i frame (decide (cfg.limits.maxEventsProcessed > 0 ∧
      (processed : Int) > cfg.limits.maxEventsProcessed))
      (fun s => InTime frame event s ∧ s.simTime ≤ frame.endTime) s₃ := by
    subst hs₃ hp
    refine ⟨hs₂.place, by simp [hs₂.going], hs₂.guardErr, fun ha => ?_⟩
    obtain ⟨hst, h, hle⟩ := hs₂.known ha
    exact ⟨hst, ⟨h.queued, h.time, h.ending⟩, hle⟩
  have ht : Taken alone i frame event _ s₃ := ⟨hk.place, hk.going, hk.known⟩
  have hco : s₃.processed = processed ∧ s₃.handlersStarted < processed := by
    subst hs₃ hp
    exact ⟨rfl, Nat.lt_succ_of_le hi.started.1⟩
  split
  · rename_i hm
    rw [decide_eq_true hm] at ht
    exact safe_leave_latched _ ht
  rename_i hm
  rw [decide_eq_false hm] at hk ht
  split
  · rename_i he
    exact safe_reschedule he.2 ht
  rename_i he
  refine safe_op fun s₄ hr' _ => ?_
  have hcounted : Counted cfg s₃ := by
    rw [Counted, hco.1]
    exact ⟨hco.2, fun h => not_lt.1 fun hlt => hm ⟨h, hlt⟩⟩
  obtain ⟨hs₄, hc₄⟩ : _ ∧ Counted cfg s₄ :=
    stable_counted lasting_inTime_le s₃ s₄ hr' ⟨hk, hcounted⟩
  refine ⟨⟨frame, hs₄.place⟩, fun a => ?_⟩
  have hend : event.kind.type = .simulationEnd → frame.endTime ≤ event.time := fun hty =>
    not_lt.1 fun hlt => he ⟨by rw [hty]; rfl, hlt⟩
  have hset : Checked guarded alone i frame
      (fun s => InTime frame event s ∧ s.simTime = event.time)
        { s₄ with simTime := event.time } := by
    refine ⟨hs₄.place, hs₄.going, hs₄.guardErr, fun ha => ?_⟩
    obtain ⟨hst, h, -⟩ := hs₄.known ha
    exact ⟨hst, ⟨h.queued, h.time, h.ending⟩, rfl⟩
  refine bind (safe_throttle _ (stable_counted lasting_inTime)
    ⟨hset, hc₄⟩) fun _ s₆ ⟨hs₆, hc₆⟩ => ?_
  exact safe_dispatch hend hs₆ hc₆

theorem safe_takeEvent (hs : Checked guarded alone i frame (InOrder frame) s) :
    SafeCall cfg guarded alone i (takeEvent i frame) s := by
  refine safe_op fun s₁ hr _ => ?_
  have hs₁ := stable_checked lasting_inOrder s s₁ hr hs
  refine ⟨runner_inside hs₁.place, fun a => ?_⟩
  show SafeCall cfg guarded alone i (if s₁.cancelled = true then _ else _) _
  split_ifs with hc
  · exact safe_leaveCancelled lasting_inOrder (hs₁.look (fun h => h) hc)
  have hg : Checked guarded alone i frame (Going frame) (Op.done.run cfg a s₁).2 :=
    (hs₁.look (fun h => h) (eq_false_of_ne_true hc)).imp fun h =>
      (h.resolve_left hc).imp_right .inl
  refine safe_op fun s₂ hre _ => ?_
  have hs₂ := stable_checked lasting_going _ s₂ hre hg
  refine ⟨⟨frame, hs₂.place⟩, fun a => ?_⟩
  simp only [Op.run]
  cases hp : popLeast s₂.queue with
  | none =>
    -- the queue is empty, so somebody has emptied it
    refine safe_handleEmptyQueue (hs₂.imp fun h => ⟨h.1, ?_⟩)
    rcases h.2 with ⟨x, hx, -⟩ | ⟨hc, -⟩
    · rw [popLeast_eq_none_iff.1 hp] at hx
      cases hx
    · exact hc
  | some =>
    refine safe_processEvent ⟨hs₂.place, hs₂.going, hs₂.guardErr, fun ha => ?_⟩
    obtain ⟨hst, hle, hk⟩ := hs₂.known ha
    exact ⟨hst, hk.inTime hp, hle⟩

theorem safe_checkGuardrail (hs : Unchecked alone i frame s) :
    SafeCall cfg guarded alone i (checkGuardrail i frame) s := by
  refine safe_op fun s₁ hr _ => ?_
  have hs₁ := enduring_unchecked i frame s s₁ hr.kept hs
  refine ⟨⟨frame, hs₁.place⟩, fun a => ?_⟩
  simp only [Op.run, hs₁.place]
  cases hg : s₁.guardErr with
  | some err =>
    exact safe_leave ⟨⟨false, rfl, fun _ => .inr ⟨err, rfl, rfl⟩⟩, by simp, by simp⟩
      fun ha => (hs₁.order ha).1
  | none =>
    exact safe_takeEvent
      ⟨rfl, by simp [hs₁.going], fun _ => rfl, fun ha => ⟨(hs₁.order ha).1, (hs₁.order ha).2 hg⟩⟩

theorem safe_checkWallClock (hs : Unchecked alone i frame s) :
    (checkWallClock frame : Prog cfg Unit).Safe (terms cfg guarded alone) i
      (fun _ => Unchecked alone i frame) s := by
  have hP : Enduring alone i (Unchecked alone i frame : SharedEngine τ → Prop) :=
    enduring_unchecked i frame
  rw [checkWallClock]
  split
  · refine safe_read rfl hP.stable hs fun s₁ _ hs₁ => ?_
    split
    · exact (safe_triggerGuardFailure _ hP hs₁).mono fun _ _ h => h.1
    · exact hs₁
  · exact hs

end Iteration

/-! ### Calls -/

theorem safe_iteration (i : Nat) (s : SharedEngine τ) :
    SafeCall cfg guarded alone i (iteration i) s := by
  refine safe_op fun s₁ _ hi => ⟨rfl, fun a => ?_⟩
  cases hp : s₁.place with
  | head frame =>
    simp only [Op.run, hp]
    refine bind (safe_checkWallClock ⟨rfl, hi.going (.inr ⟨frame, hp⟩), fun ha => ?_⟩)
      fun _ _ h => safe_checkGuardrail h
    exact hi.head ha frame hp
  | _ =>
    simp only [Op.run, hp]
    trivial

/-- What `Run` knows before its loop. -/
structure Starting (alone : Prop) (i : Nat) (t : Time) (s : SharedEngine τ) : Prop where
  place : s.place = .starting i
  going : s.hindered = false
  status : alone → s.status = .running
  simTime : s.simTime = t

theorem runner_starting (h : s.place = .starting i) : s.place.runner = some i := by
  rw [h]
  rfl

theorem enduring_starting (i : Nat) (t : Time) :
    Enduring alone i (Starting alone i t : SharedEngine τ → Prop) := by
  intro s s' hk h
  obtain ⟨hp, hgo, ht, hs, -⟩ := hk.held (runner_starting h.place)
  exact ⟨hp.trans h.place, hgo.trans h.going, fun ha => (hs ha).trans (h.status ha),
    ht.trans h.simTime⟩

theorem safe_run (i : Nat) (duration : Time) (s : SharedEngine τ) :
    SafeCall cfg guarded alone i (run i duration) s := by
  refine safe_op fun s₁ _ hi => ⟨rfl, fun a => ?_⟩
  cases hp : s₁.place with
  | ready =>
    simp only [Op.run, hp, if_true]
    refine safe_op fun s₃ hr _ => ⟨trivial, fun a => ?_⟩
    have hh := hr.held rfl
    refine safe_op fun s₅ hr' _ => ⟨trivial, fun a => ?_⟩
    have hh' := hr'.held (runner_starting hh.place)
    have hs₅ : Starting alone i s₅.simTime s₅ :=
      ⟨hh'.place.trans hh.place, (hh'.hindered.trans hh.hindered).trans (hi.going (.inl hp)),
        fun ha => (hh'.status ha).1, rfl⟩
    have hP : Enduring alone i (Starting alone i s₅.simTime : SharedEngine τ → Prop) :=
      enduring_starting i s₅.simTime
    refine safe_read rfl hP.stable hs₅ fun s₇ _ hs₇ => ?_
    refine safe_read rfl hP.stable hs₇ fun s₈ _ hs₈ => ?_
    refine bind (safe_scheduleEvent _ _ hP hs₈) fun _ s₉ ho => ?_
    obtain ⟨hs₉, hq⟩ := ho
    refine safe_last fun s' hr₉ _ => ⟨?_, fun _ => trivial⟩
    have hs' := hP s₉ s' hr₉.kept hs₉
    refine ⟨hs'.place, hs'.simTime, hs'.status, fun hn => ?_, hs'.going⟩
    obtain ⟨event, hm, ht, hk⟩ := hq (hr₉.kept.guardErr_eq_none hn)
    exact (hr₉.held (runner_starting hs₉.place)).queued _
      ⟨event, hm, by rw [hk]; rfl, ht⟩
  | _ =>
    simp only [Op.run, hp]
    trivial

theorem safe_stop (i : Nat) (s : SharedEngine τ) : SafeCall cfg guarded alone i stop s :=
  safe_op fun _ _ _ => ⟨trivial, fun _ => safe_last fun _ hr _ =>
    ⟨hr.cancelled rfl, fun _ => trivial⟩⟩

theorem safe_body (call : Call τ) (i : Nat) (s : SharedEngine τ) :
    (call.body cfg i).Safe (terms cfg guarded alone) i (fun _ _ => True) s := by
  have hs : ∀ {s} time task, SafeCall cfg guarded alone i (scheduleEvent i time task) s :=
    fun time task =>
      (safe_scheduleEvent time task enduring_true trivial).mono fun _ _ _ => trivial
  cases call with
  | run duration => exact safe_run i duration s
  | iteration => exact safe_iteration i s
  | scheduleAtPriority time task => exact hs time task
  | scheduleAfter =>
    exact safe_read rfl enduring_true.stable trivial fun _ _ _ => hs _ _
  | triggerLimitExceeded err =>
    cases err with
    | none => trivial
    | some err =>
      exact (safe_triggerGuardFailure err enduring_true trivial).mono fun _ _ _ => trivial
  | stop => exact safe_stop i s
  | managerStart | managerComplete | managerFail | managerCancel =>
    exact safe_last fun _ _ _ => ⟨trivial, fun _ => trivial⟩

theorem Fresh.inv (h : Fresh s) : Inv cfg guarded alone s := by
  obtain ⟨t, rfl⟩ := h
  refine ⟨⟨List.nodup_nil, by simp, by simp, by simp⟩, fun _ hm => ⟨hm.le, fun h => ?_⟩,
    ⟨le_rfl, fun hm => hm.le⟩, nofun, fun _ => rfl⟩
  exact absurd rfl h

section Runs

variable {c : Pool (machine cfg)} (hc : RunsBy (Call.body cfg) (Regular guarded alone) Fresh c)
include hc

theorem inv_runsBy : Inv cfg guarded alone c.shared := by
  have hi : ∀ s : SharedEngine τ, Fresh s → Nat → True := fun _ _ _ => trivial
  exact (hc.safe (terms cfg guarded alone) (fun _ h => h.inv) hi (fun _ _ _ _ h => h)
    fun call i s _ _ => safe_body call i s).1

theorem pre_runsBy {op : Op τ} {next : op.Result → Prog cfg Unit}
    (hi : c.threads[i]? = some (.call op next)) : op.pre cfg guarded alone i c.shared := by
  have hid : ∀ s : SharedEngine τ, Fresh s → Nat → True := fun _ _ _ => trivial
  exact hc.pre (terms cfg guarded alone) (fun _ h => h.inv) hid (fun _ _ _ _ h => h)
    (fun call i s _ _ => safe_body call i s) hi

end Runs

end SimCore.EngineLoop
