import SimCore.Engine.Iterations
import SimCore.Engine.Sequential

/-!
# Guardrails of the event loop

The first guard error stays latched, no more handlers start and no more events are accepted than the
limits allow. Two more things hold only if the goroutines come in turn. A handler that starts, or a
`Run` that returns, has checked for an error before: an error that another goroutine latches after
the check is not seen. And an event that finds room in the queue is pushed later: another event may
take the room.

## Main results

* `guardrails_latch`, `guardrails_missed`: what the guardrails keep if goroutines come in turn, and
  what happens if they do not
-/

namespace SimCore.EngineLoop

open Concurrent

variable {τ : Type} {cfg : Config τ} {c : Pool (machine cfg)}

def engineOf (c : Pool (machine cfg)) : SharedEngine τ :=
  c.shared

/-- No other goroutine latches the first error between the guard check of an iteration and the start
of its handler or the end of `Run`, and no event is pushed between the size check and the push of
another goroutine. -/
def inTurn (s : SharedEngine τ) (i : Nat) (op : Op τ) (_ : Answer) : Bool :=
  latchesInTime s i op && pushesInTurn s i op

theorem Op.run_guardErr (op : Op τ) (a : Answer) {s : SharedEngine τ} {err : RunError}
    (h : s.guardErr = some err) : (op.run cfg a s).2.guardErr = some err := by
  cases op with
  | setGuardErr => simp [Op.run, h]
  | guardrailErr =>
    simp only [Op.run]
    split <;> exact h
  | next | startHandler | begin | enterIteration | «continue» =>
    simp only [Op.run]
    split <;> exact h
  | _ => exact h

/-- In every run with any limits, handlers and calls of other goroutines that come in turn: a
latched error stays, no handler starts when an error is latched, `Run` returns the latched error and
no other, and an iteration that begins with a latched error does return it. No more handlers start
than events may be processed, the queue holds no more events than it may, and no more events are
accepted than may be scheduled. -/
theorem guardrails_latch
    (hc : RunsBy (Call.body cfg) (fun s i op a => inTurn s i op a = true) Fresh c) :
    (∀ (op : Op τ) (a : Answer) (err : RunError), (engineOf c).guardErr = some err →
      (op.run cfg a (engineOf c)).2.guardErr = some err) ∧
    (∀ (i : Nat) (event : Event (Task τ)) (next : Unit → Prog cfg Unit),
      c.threads[i]? = some (.call (M := machine cfg) (.startHandler event) next) →
      (engineOf c).guardErr = none) ∧
    (∀ (i : Nat) (err : Option RunError) (next : Unit → Prog cfg Unit) (e : RunError),
      c.threads[i]? = some (.call (M := machine cfg) (.leave err) next) →
      (engineOf c).guardErr = some e → err = some e) ∧
    (∀ (i : Nat) (frame : Frame) (err : RunError), (engineOf c).place = .head frame →
      (engineOf c).guardErr = some err →
      (iteration i : Prog cfg Unit).Yields
        (fun _ (s : SharedEngine τ) => s.place = .returned (some err)) (engineOf c)) ∧
    (0 < cfg.limits.maxEventsProcessed →
      ((engineOf c).handlersStarted : Int) ≤ cfg.limits.maxEventsProcessed) ∧
    (0 < cfg.limits.maxEventQueueSize →
      ((engineOf c).queue.length : Int) ≤ cfg.limits.maxEventQueueSize) ∧
    (0 < cfg.limits.maxEventsScheduled →
      ((engineOf c).accepted.length : Int) ≤ cfg.limits.maxEventsScheduled) := by
  have hc' : RunsBy (Call.body cfg) (Regular True False) Fresh c := hc.mono fun s i op a h =>
    ⟨fun _ => Bool.and_eq_true_iff.1 (h : (latchesInTime s i op && pushesInTurn s i op) = true),
      False.elim⟩
  have hinv : Inv cfg True False (engineOf c) := inv_runsBy hc'
  refine ⟨fun op a err h => op.run_guardErr a h, fun i event next hi => ?_,
    fun i err next e hi he => ?_, fun i frame err hp herr => iteration_latched hp herr i,
    hinv.started.2, fun hm => (hinv.room trivial hm).1,
    fun hm => hinv.ledger.length_accepted_le hm⟩
  · obtain ⟨-, hg, -⟩ := pre_runsBy hc' hi
    exact hg trivial
  · obtain ⟨_, _, -, hg, -⟩ := pre_runsBy hc' hi
    exact hg trivial e he

/-- A run in which one event may be processed. -/
def oneEvent : Config Unit where
  limits := { maxEventsProcessed := 1 }
  handlers := fun _ => true

/-- An event is scheduled and handled, and a second one is too many. -/
def tooManyProcessed : List (Pool.Move (Call Unit) (machine oneEvent)) :=
  [.start (.scheduleAtPriority 5 { type := .other () }), .step 0 {}, .step 0 {},
    .start (.run 10)] ++ List.replicate 8 (.step 1 {}) ++
    [.start .iteration] ++ List.replicate 9 (.step 2 {}) ++
    [.start .iteration] ++ List.replicate 12 (.step 3 {})

/-- One handler was started, and `Run` has returned the first error. -/
theorem guardrails_latch_tooManyProcessed : ∃ c : Pool (machine oneEvent),
      RunsBy (Call.body oneEvent) (fun s i op a => inTurn s i op a = true) Fresh c ∧
      (engineOf c).place = .returned (some (.limitExceeded ⟨"max_events_processed", 2, 1⟩)) ∧
      (engineOf c).guardErr = some (.limitExceeded ⟨"max_events_processed", 2, 1⟩) ∧
      ((engineOf c).handlersStarted : Int) ≤ 1 := by
  have hc : RunsBy (Call.body oneEvent) (fun s i op a => inTurn s i op a = true) Fresh
      (Pool.play (Call.body oneEvent) ⟨({} : SharedEngine Unit), []⟩ tooManyProcessed) :=
    runsBy_play (.init ⟨0, rfl⟩) (by decide +kernel) fun _ _ _ _ h => h
  exact ⟨_, hc, by decide +kernel, by decide +kernel, (guardrails_latch hc).2.2.2.2.1 (by decide)⟩

/-- A run in real time in which two events may be scheduled. -/
def realTime : Config Unit where
  limits := { maxEventsScheduled := 2 }
  realTimeMode := true
  handlers := fun _ => true

/-- A queue for one event. -/
def oneSlot : Config Unit where
  limits := { maxEventQueueSize := 1 }
  handlers := fun _ => true

/-- An event waits for the wall clock when another goroutine schedules one event too many. -/
def latchedBeforeHandler : List (Pool.Move (Call Unit) (machine realTime)) :=
  [.start (.scheduleAtPriority 5 { type := .other () }), .step 0 {}, .step 0 {},
    .start (.run 10)] ++ List.replicate 8 (.step 1 {}) ++
    [.start .iteration] ++ List.replicate 8 (.step 2 {}) ++
    [.start (.scheduleAtPriority 7 { type := .other () })] ++ List.replicate 3 (.step 3 {})

/-- The end of the simulation waits for the wall clock when another goroutine schedules one event
too many. -/
def latchedBeforeEnd : List (Pool.Move (Call Unit) (machine realTime)) :=
  [.start (.run 10)] ++ List.replicate 8 (.step 0 {}) ++
    [.start .iteration] ++ List.replicate 9 (.step 1 {}) ++
    [.start (.scheduleAtPriority 20 { type := .other () })] ++ List.replicate 2 (.step 2 {}) ++
    [.start (.scheduleAtPriority 20 { type := .other () })] ++ List.replicate 3 (.step 3 {}) ++
    List.replicate 4 (.step 1 {})

/-- Two goroutines find room for one event. -/
def bothFindRoom : List (Pool.Move (Call Unit) (machine oneSlot)) :=
  [.start (.scheduleAtPriority 5 { type := .other () }),
    .start (.scheduleAtPriority 6 { type := .other () }), .step 0 {}, .step 0 {}, .step 1 {},
    .step 1 {}, .step 0 {}, .step 1 {}]

/-- A handler starts after an error was latched; `Run` returns another error than the latched one;
and a queue for one event holds two. -/
theorem guardrails_missed : (∃ c c' : Pool (machine realTime), Runs (Call.body realTime) Fresh c ∧
      c' = c.move (Call.body realTime) (.step 2 ({} : Answer)) ∧
      (engineOf c).guardErr = some (.limitExceeded ⟨"max_events_scheduled", 3, 2⟩) ∧
      (engineOf c).handlersStarted = 0 ∧ (engineOf c').handlersStarted = 1) ∧
    (∃ c : Pool (machine realTime), Runs (Call.body realTime) Fresh c ∧
      (engineOf c).guardErr = some (.limitExceeded ⟨"max_events_scheduled", 3, 2⟩) ∧
      (engineOf c).place = .returned (some simulationCancelled)) ∧
    (∃ c : Pool (machine oneSlot), Runs (Call.body oneSlot) Fresh c ∧
      (engineOf c).queue.length = 2) := by
  have h₁ : Runs (Call.body realTime) Fresh
      (Pool.play (Call.body realTime) ⟨({} : SharedEngine Unit), []⟩ latchedBeforeHandler) :=
    runs_play (.init ⟨0, rfl⟩) _
  have h₂ : Runs (Call.body realTime) Fresh
      (Pool.play (Call.body realTime) ⟨({} : SharedEngine Unit), []⟩ latchedBeforeEnd) :=
    runs_play (.init ⟨0, rfl⟩) _
  have h₃ : Runs (Call.body oneSlot) Fresh
      (Pool.play (Call.body oneSlot) ⟨({} : SharedEngine Unit), []⟩ bothFindRoom) :=
    runs_play (.init ⟨0, rfl⟩) _
  exact ⟨⟨_, _, h₁, rfl, by decide +kernel, by decide +kernel, by decide +kernel⟩,
    ⟨_, h₂, by decide +kernel, by decide +kernel⟩, ⟨_, h₃, by decide +kernel⟩⟩

end SimCore.EngineLoop
