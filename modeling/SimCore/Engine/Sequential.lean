import SimCore.Engine.Loop

/-!
# The engine left to itself

Without other goroutines the shared engine behaves as the sequential one: a scheduled event is
admitted or refused alike, and an iteration of the loop takes the event that the sequential engine
takes. An iteration that begins when an error is latched returns the error.

## Main definitions

* `Matches`: a shared engine and a sequential one in the same state

## Main results

* `matches_scheduleEvent`, `matches_iteration`: the programs follow the sequential engine
* `iteration_latched`: a latched error is returned
-/

namespace SimCore.EngineLoop

open Concurrent

variable {τ : Type} {cfg : Config τ} {s : SharedEngine τ} {i : Nat} {frame : Frame}

theorem yields_op {α : Type} {op : Op τ} {f : op.Result → Prog cfg α}
    {post : α → SharedEngine τ → Prop}
    (h : ∀ a, (f (op.run cfg a s).1).Yields post (op.run cfg a s).2) :
    (op.perform >>= f : Prog cfg α).Yields post s := h

/-- The first failure is latched and cancels the run. -/
theorem yields_triggerGuardFailure (err : RunError) {post : SharedEngine τ → Prop}
    (h : post { s with guardErr := some (s.guardErr.getD err)
                       cancelled := s.cancelled || s.guardErr.isNone }) :
    (triggerGuardFailure err : Prog cfg Unit).Yields (fun _ => post) s := by
  refine yields_op fun a => ?_
  cases hf : s.guardErr.isNone with
  | true =>
    rw [hf, Bool.or_true] at h
    simp only [Op.run, hf]
    exact fun _ => h
  | false =>
    rw [hf, Bool.or_false] at h
    simp only [Op.run, hf]
    exact h

theorem yields_throttle {event : Event (Task τ)} {post : Unit → SharedEngine τ → Prop} (t : Time)
    (h : post () s) : (throttle t event : Prog cfg Unit).Yields post s := by
  rw [throttle]
  split
  · exact fun _ => h
  · exact h

/-- The deferred function does not change what is returned. -/
theorem yields_leave (err : Option RunError) :
    (leave err : Prog cfg Unit).Yields
      (fun _ (s : SharedEngine τ) => s.place = .returned err) s := by
  refine yields_op fun a => ?_
  split
  · exact fun _ _ => rfl
  · exact fun _ => rfl

/-- An iteration that begins when an error is latched returns the error. -/
theorem iteration_latched {err : RunError} (hplace : s.place = .head frame)
    (he : s.guardErr = some err) (i : Nat) :
    (iteration i : Prog cfg Unit).Yields
      (fun _ (s : SharedEngine τ) => s.place = .returned (some err)) s := by
  have hc : ∀ s₁ : SharedEngine τ, s₁.place = .inside frame i false →
      s₁.guardErr = some err → (checkGuardrail i frame : Prog cfg Unit).Yields
        (fun _ (s : SharedEngine τ) => s.place = .returned (some err)) s₁ := by
    intro s₁ hp₁ he₁
    refine yields_op fun a => ?_
    simp only [Op.run, hp₁, he₁]
    exact yields_leave _
  refine yields_op fun a => ?_
  simp only [Op.run, hplace]
  refine Program.Yields.bind ?_
  rw [checkWallClock]
  split
  · refine yields_op fun a => ?_
    split
    · refine yields_triggerGuardFailure _ (hc _ rfl ?_)
      simp [Op.run, he]
    · exact hc _ rfl he
  · exact hc _ rfl he

/-! ### The sequential engine -/

/-- A shared engine and a sequential one in the same state. -/
structure Matches (cfg : Config τ) (s : SharedEngine τ) (e : Engine (Task τ)) : Prop where
  queue : e.queue = s.queue
  simTime : e.simTime = s.simTime
  eventCounter : e.eventCounter = s.eventCounter
  processed : e.processed = s.processed
  limits : e.limits = cfg.limits
  guardErr : s.guardErr = e.guardErr.map .limitExceeded

section Matches

variable {e e' : Engine (Task τ)} {time : Time} {task : Task τ} {event : Event (Task τ)}

section Counted

variable (h : Matches cfg s e) (drawn : Nat → Option Nat) (sized : List Nat)
include h

theorem Matches.refuse (err : LimitExceeded) :
    (triggerGuardFailure (.limitExceeded err) : Prog cfg Unit).Yields
      (fun _ (s' : SharedEngine τ) => Matches cfg s' (e.refuse time task err))
      { s with eventCounter := s.eventCounter + 1, drawn := drawn, sized := sized } := by
  refine yields_triggerGuardFailure _ ⟨h.queue, h.simTime, congrArg (· + 1) h.eventCounter,
    h.processed, h.limits, ?_⟩
  rw [h.guardErr]
  show some ((e.guardErr.map _).getD _) = (some (e.guardErr.getD err)).map _
  cases e.guardErr <;> rfl

theorem Matches.enqueue (i : Nat) :
    ((Op.push i ⟨time, s.eventCounter + 1, task⟩).perform : Prog cfg Unit).Yields
      (fun _ (s' : SharedEngine τ) => Matches cfg s' (e.enqueue time task))
      { s with eventCounter := s.eventCounter + 1, drawn := drawn, sized := sized } := by
  refine fun _ => ⟨?_, h.simTime, congrArg (· + 1) h.eventCounter, h.processed, h.limits,
    h.guardErr⟩
  show ⟨time, e.eventCounter + 1, task⟩ :: e.queue = _ :: s.queue
  rw [h.queue, h.eventCounter]

end Counted

/-- Scheduling an event, left to itself, is what the sequential engine does. -/
theorem matches_scheduleEvent (h : Matches cfg s e) (i : Nat) (time : Time) (task : Task τ) :
    (scheduleEvent i time task : Prog cfg Unit).Yields
      (fun _ (s' : SharedEngine τ) => Matches cfg s' (e.scheduleAt time task)) s := by
  refine yields_op fun a => ?_
  generalize hc : ((Op.countEvent i).run cfg a s).1 = counter
  have hca : (counter : Int) = s.eventCounter + 1 := by rw [← hc]; rfl
  rw [Engine.scheduleAt, h.limits, h.eventCounter, h.queue, ← hca]
  by_cases hs : cfg.limits.maxEventsScheduled > 0 ∧ (counter : Int) > cfg.limits.maxEventsScheduled
  · rw [if_pos hs, if_pos hs]
    exact h.refuse _ _ _
  rw [if_neg hs, if_neg hs]
  by_cases hsi : cfg.limits.maxEventQueueSize > 0
  · rw [if_pos hsi]
    refine yields_op fun a => ?_
    generalize hl : ((Op.queueSize i).run cfg a _).1 = size
    have hl : s.queue.length = size := hl
    rw [hl]
    by_cases hf : (size + 1 : Int) > cfg.limits.maxEventQueueSize
    · rw [if_pos hf, if_pos ⟨hsi, hf⟩]
      exact h.refuse _ _ _
    · rw [if_neg hf, if_neg fun hb => hf hb.2, ← hc]
      exact h.enqueue _ _ i
  · rw [if_neg hsi, if_neg fun hb => hsi hb.1, ← hc]
    exact h.enqueue _ _ i

theorem matches_scheduleEvent_first : let cfg : Config Unit := { handlers := fun _ => true }
    (scheduleEvent 0 5 ⟨.other (), 0⟩ : Prog cfg Unit).Yields (fun _ (s : SharedEngine Unit) =>
      Matches cfg s (Engine.scheduleAt {} 5 ⟨.other (), 0⟩)) {} :=
  matches_scheduleEvent ⟨rfl, rfl, rfl, rfl, rfl, rfl⟩ 0 5 _

theorem next_fields (h : e.next = some (event, e')) :
    popLeast e.queue = some (event, e'.queue) ∧ e'.simTime = event.time ∧
      e'.eventCounter = e.eventCounter ∧ e'.processed = e.processed + 1 ∧
      e'.limits = e.limits ∧ e.guardErr = none ∧ e'.guardErr = none := by
  have hg := (Engine.next_eq_some h).1
  have hg' := (Engine.next_eq_some h).2.1
  unfold Engine.next at h
  split at h
  · cases h
  split at h
  · cases h
  · rename_i hp
    obtain ⟨rfl, rfl⟩ := by simpa using h
    exact ⟨hp, rfl, rfl, rfl, rfl, hg, hg'⟩

/-- An iteration that finds no error and is not cancelled processes the least event. -/
theorem yields_iteration {rest : List (Event (Task τ))} {post : Unit → SharedEngine τ → Prop}
    (hplace : s.place = .head frame) (hg : s.guardErr = none) (hcancelled : s.cancelled = false)
    (hwall : cfg.maxWallClockRun ≤ 0) (hp : popLeast s.queue = some (event, rest))
    (h : (processEvent i frame event : Prog cfg Unit).Yields post
      { s with queue := rest, place := .inside frame i true }) :
    (iteration i : Prog cfg Unit).Yields post s := by
  refine yields_op fun a => ?_
  simp only [Op.run, hplace]
  refine Program.Yields.bind ?_
  rw [checkWallClock, if_neg (not_lt.2 hwall)]
  refine yields_op fun a => ?_
  simp only [Op.run, hg]
  refine yields_op fun a => ?_
  simp only [Op.run, hcancelled]
  refine yields_op fun a => ?_
  simp only [Op.run, hp]
  rw [hg, hcancelled] at h
  exact h

theorem overProcessed_iff (h : Matches cfg s e) (hnext : e.next = some (event, e')) :
    e'.overProcessed = true ↔ cfg.limits.maxEventsProcessed > 0 ∧
        ((s.processed + 1 : Nat) : Int) > cfg.limits.maxEventsProcessed := by
  obtain ⟨-, -, -, hp, hl, -⟩ := next_fields hnext
  rw [Engine.overProcessed, hl, h.limits, hp, h.processed, Bool.and_eq_true,
    decide_eq_true_iff, decide_eq_true_iff]

/-- An iteration takes the event of the sequential engine, and starts its handler if there is one,
unless too many events are processed: then it returns that. -/
theorem matches_iteration {type : τ} (h : Matches cfg s e) (hplace : s.place = .head frame)
    (hcancelled : s.cancelled = false) (hwall : cfg.maxWallClockRun ≤ 0)
    (hnext : e.next = some (event, e')) (hty : event.kind.type = .other type) (i : Nat) :
    (iteration i : Prog cfg Unit).Yields (fun _ (s' : SharedEngine τ) =>
      if e'.overProcessed then s'.place = .returned (some (.limitExceeded
        ⟨"max_events_processed", e'.processed, cfg.limits.maxEventsProcessed⟩))
      else s'.place = .head frame ∧ Matches cfg s' e' ∧
        s'.handlersStarted = s.handlersStarted + if cfg.handlers type then 1 else 0) s := by
  obtain ⟨hpop, hti, hcounter, hpr, hl, hgu, hg'⟩ := next_fields hnext
  have hn : s.guardErr = none := by rw [h.guardErr, hgu]; rfl
  have ho := overProcessed_iff h hnext
  refine yields_iteration hplace hn hcancelled hwall (h.queue ▸ hpop) ?_
  refine yields_op fun a => yields_op fun a => ?_
  generalize hco : (Op.countProcessed.run cfg a _).1 = processed
  have hco : s.processed + 1 = processed := hco
  rw [hco] at ho
  by_cases hmax : cfg.limits.maxEventsProcessed > 0 ∧ processed > cfg.limits.maxEventsProcessed
  · simp only [if_pos hmax, if_pos (ho.2 hmax), hpr, h.processed, hco]
    refine Program.Yields.bind (yields_triggerGuardFailure _ (yields_op fun a => ?_))
    simp only [Op.run, hn, Option.getD_none]
    exact yields_leave _
  simp only [if_neg fun hover => hmax (ho.1 hover)]
  have hm : ∀ s' : SharedEngine τ, s'.queue = e'.queue → s'.simTime = event.time →
      s'.eventCounter = s.eventCounter → s'.processed = s.processed + 1 → s'.guardErr = none →
      Matches cfg s' e' := fun s' hq ht hc hp hg =>
    ⟨hq.symm, hti.trans ht.symm, (hcounter.trans h.eventCounter).trans hc.symm,
      by rw [hpr, h.processed, hp], hl.trans h.limits, by rw [hg, hg']; rfl⟩
  have he : ¬(event.kind.type.isSimulationEnd = true ∧ event.time < frame.endTime) := by
    simp [hty, EventType.isSimulationEnd]
  rw [if_neg hmax, if_neg he]
  refine yields_op fun a => ?_
  refine Program.Yields.bind (yields_throttle _ ?_)
  rw [dispatch, hty]
  by_cases hh : cfg.handlers type = true
  · simp only [hh, if_true]
    exact fun _ _ => ⟨rfl, hm _ rfl rfl rfl rfl hn, rfl⟩
  · simp only [hh]
    exact fun _ => ⟨rfl, hm _ rfl rfl rfl rfl hn, rfl⟩

/-- The loop takes the only event, and starts its handler. -/
theorem matches_iteration_single : let cfg : Config Unit := { handlers := fun _ => true }
    let e := ({} : Engine (Task Unit)).scheduleAt 5 ⟨.other (), 0⟩
    let s : SharedEngine Unit :=
      { queue := e.queue, eventCounter := e.eventCounter, place := .head ⟨0, 9, 0, 0⟩ }
    ∃ event e', e.next = some (event, e') ∧ (iteration 0 : Prog cfg Unit).Yields
      (fun _ (s' : SharedEngine Unit) => s'.place = .head ⟨0, 9, 0, 0⟩ ∧ Matches cfg s' e' ∧
        s'.handlersStarted = 1) s := by
  intro cfg e s
  have hm : Matches cfg s e := ⟨rfl, rfl, rfl, rfl, rfl, rfl⟩
  have hn : e.next = some (_, _) := rfl
  exact ⟨_, _, hn, matches_iteration hm rfl rfl le_rfl hn rfl 0⟩

end Matches

end SimCore.EngineLoop
