import SimCore.Concurrent.Programs
import SimCore.Engine.EventLoop

/-!
# The engine among goroutines

The event loop shares the engine with other goroutines: a workload generator schedules events while
the loop runs, limits are reported from outside, and the executor stops the engine. Here the engine
is a shared state, every critical section and every atomic access is an operation on it, and the
engine's functions are programs over the operations.

`Run` prepares the run and then repeats its loop. Each iteration of the loop is a thread of its own,
which begins only when the one before is over. What a handler does is not modelled: it calls the
engine as any other goroutine may, between the start of the handler and the next iteration. Sleeping
does nothing, since other threads may act between any two operations.

The state also remembers what the engine does not: which number a thread has drawn and not used yet,
which threads have found room in the queue and not filled it, the numbers of the events that were
accepted, how many handlers were started, where `Run` is, and whether it has met something that
keeps it from going on: a latched error at the head of its loop, a context that is done, or one
event too many.

## Main definitions

* `SharedEngine`, `Op`, `Op.run`, `machine`: the shared state and the atomic operations
* `goesOn`: an operation does not keep `Run` from going on
* `scheduleEvent`, `triggerGuardFailure`, `stop`: what goroutines and handlers call
* `run`, `iteration`: the event loop
* `Call`, `Call.body`: everything that runs on the engine
-/

namespace SimCore.EngineLoop

open Concurrent

variable {τ : Type}

/-- Types of events. The end of the simulation is the engine's own. -/
inductive EventType (τ : Type) where
  | simulationEnd
  | other (type : τ)
deriving DecidableEq

def EventType.isSimulationEnd : EventType τ → Bool
  | .simulationEnd => true
  | .other _ => false

/-- What an event says besides its time. -/
structure Task (τ : Type) where
  type : EventType τ
  priority : Int := 0
deriving DecidableEq

instance : Prioritized (Task τ) := ⟨Task.priority⟩

inductive RunError where
  | limitExceeded (err : LimitExceeded)
  | other (message : String)
deriving DecidableEq

/-- What a run returns when its context is done. -/
def simulationCancelled : RunError :=
  .other "simulation cancelled"

/-- What is set before the engine runs. -/
structure Config (τ : Type) where
  limits : RuntimeLimits := {}
  maxWallClockRun : Time := 0
  realTimeMode : Bool := false
  /-- Whether a handler is registered for a type. -/
  handlers : τ → Bool

/-- The status that the run manager keeps. -/
inductive RunStatus where
  | pending
  | running
  | completed
  | failed
deriving DecidableEq

/-- The local variables of `Run`. -/
structure Frame where
  startTime : Time
  endTime : Time
  realTimeStart : Time
  wallStart : Time
deriving DecidableEq

/-- Where `Run` is: not called, before its loop, at the head of the loop, inside an iteration, or
over. An iteration is between its guard check and the start of its handler, or it is not. -/
inductive Place where
  | ready
  | starting (thread : Nat)
  | head (frame : Frame)
  | inside (frame : Frame) (thread : Nat) (checked : Bool)
  | returned (err : Option RunError)
deriving DecidableEq

/-- The engine and what it shares with the run manager. The engine never reads the fields from
`place` on. -/
structure SharedEngine (τ : Type) where
  queue : List (Event (Task τ)) := []
  simTime : Time := 0
  eventCounter : Nat := 0
  processed : Nat := 0
  guardErr : Option RunError := none
  cancelled : Bool := false
  status : RunStatus := .pending
  metrics : Bool := false
  place : Place := .ready
  drawn : Nat → Option Nat := fun _ => none
  sized : List Nat := []
  accepted : List Nat := []
  handlersStarted : Nat := 0
  hindered : Bool := false

/-- What the outside answers to an operation: the wall clock, and whether a wait that could notice
the end of the context does so. -/
structure Answer where
  clock : Time := 0
  notices : Bool := true
deriving DecidableEq

/-- The atomic operations on the engine. -/
inductive Op (τ : Type) where
  | countEvent (thread : Nat)
  | queueSize (thread : Nat)
  | push (thread : Nat) (event : Event (Task τ))
  | setGuardErr (err : RunError)
  | guardrailErr (head : Bool)
  | cancel
  | done
  | doneWithin
  | clear
  | next
  | peek
  | isEmpty
  | now
  | setSimTime (time : Time)
  | clock
  | countProcessed
  | startHandler (event : Event (Task τ))
  | managerStart
  | managerComplete
  | managerFail
  | managerStatus
  | begin (thread : Nat)
  | enterLoop (frame : Frame)
  | enterIteration (thread : Nat)
  | continue
  | leave (err : Option RunError)

/-- What an operation returns. -/
@[reducible] def Op.Result : Op τ → Type
  | .countEvent _ | .queueSize _ | .countProcessed => Nat
  | .setGuardErr _ | .done | .doneWithin | .isEmpty | .begin _ => Bool
  | .guardrailErr _ => Option RunError
  | .next | .peek => Option (Event (Task τ))
  | .now | .clock => Time
  | .managerStatus => RunStatus
  | .enterIteration _ => Option Frame
  | _ => Unit

/-- Whether an operation lets `Run` go on: no error is latched at the head of the loop, the context
is not found to be done, and not too many events are processed. -/
def goesOn (cfg : Config τ) (s : SharedEngine τ) (a : Answer) : Op τ → Bool
  | .guardrailErr true => s.guardErr.isNone
  | .done => !s.cancelled
  | .doneWithin => !(s.cancelled && a.notices)
  | .countProcessed => !decide (cfg.limits.maxEventsProcessed > 0 ∧
      ((s.processed + 1 : Nat) : Int) > cfg.limits.maxEventsProcessed)
  | _ => true

/-- What an operation does. -/
def Op.run (cfg : Config τ) : (op : Op τ) → Answer → SharedEngine τ → op.Result × SharedEngine τ
  | .countEvent i, _, s =>
    (s.eventCounter + 1, { s with eventCounter := s.eventCounter + 1
                                  drawn := Function.update s.drawn i (some (s.eventCounter + 1)) })
  | .queueSize i, _, s =>
    (s.queue.length, { s with
      sized := if (s.queue.length + 1 : Int) ≤ cfg.limits.maxEventQueueSize then i :: s.sized
        else s.sized })
  | .push i event, _, s =>
    ((), { s with queue := event :: s.queue
                  drawn := Function.update s.drawn i none
                  sized := s.sized.filter (· ≠ i)
                  accepted := event.sequence :: s.accepted })
  | .setGuardErr err, _, s =>
    (s.guardErr.isNone, { s with guardErr := some (s.guardErr.getD err) })
  | .guardrailErr head, _, s =>
    match head, s.place with
    | true, .inside frame i _ =>
      (s.guardErr, { s with place := .inside frame i s.guardErr.isNone
                            hindered := s.guardErr.isSome || s.hindered })
    | _, _ => (s.guardErr, s)
  | .cancel, _, s => ((), { s with cancelled := true })
  | .done, _, s => (s.cancelled, { s with hindered := s.cancelled || s.hindered })
  | .doneWithin, a, s =>
    (s.cancelled && a.notices, { s with hindered := s.cancelled && a.notices || s.hindered })
  | .clear, _, s => ((), { s with queue := [] })
  | .next, _, s =>
    match popLeast s.queue with
    | none => (none, s)
    | some (event, rest) => (some event, { s with queue := rest })
  | .peek, _, s => ((popLeast s.queue).map Prod.fst, s)
  | .isEmpty, _, s => (s.queue.isEmpty, s)
  | .now, _, s => (s.simTime, s)
  | .setSimTime time, _, s => ((), { s with simTime := time })
  | .clock, a, s => (a.clock, s)
  | .countProcessed, _, s =>
    (s.processed + 1, { s with
      processed := s.processed + 1
      hindered := decide (cfg.limits.maxEventsProcessed > 0 ∧
        ((s.processed + 1 : Nat) : Int) > cfg.limits.maxEventsProcessed) || s.hindered })
  | .startHandler _, _, s =>
    match s.place with
    | .inside frame i _ => ((), { s with place := .inside frame i false
                                         handlersStarted := s.handlersStarted + 1 })
    | _ => ((), { s with handlersStarted := s.handlersStarted + 1 })
  | .managerStart, _, s => ((), { s with status := .running })
  | .managerComplete, _, s => ((), { s with status := .completed, metrics := true })
  | .managerFail, _, s => ((), { s with status := .failed })
  | .managerStatus, _, s => (s.status, s)
  | .begin i, _, s =>
    match s.place with
    | .ready => (true, { s with place := .starting i })
    | _ => (false, s)
  | .enterLoop frame, _, s => ((), { s with place := .head frame })
  | .enterIteration i, _, s =>
    match s.place with
    | .head frame => (some frame, { s with place := .inside frame i false })
    | _ => (none, s)
  | .continue, _, s =>
    match s.place with
    | .inside frame _ _ => ((), { s with place := .head frame })
    | _ => ((), s)
  | .leave err, _, s => ((), { s with place := .returned err })

/-- The engine as a machine. -/
def machine (cfg : Config τ) : Machine where
  State := SharedEngine τ
  Op := Op τ
  Result := Op.Result
  Answer := Answer
  run := Op.run cfg

section Programs

variable {cfg : Config τ}

variable (cfg) in
abbrev Prog (α : Type) := Program (machine cfg) α

/-- The program of one operation. -/
abbrev Op.perform (op : Op τ) : Prog cfg op.Result :=
  Program.perform (M := machine cfg) op

abbrev done : Prog cfg Bool :=
  Op.done.perform

/-- Whether the context is found to be done during a short wait. -/
abbrev doneWithin : Prog cfg Bool :=
  Op.doneWithin.perform

/-- Latches a guardrail failure and cancels the run; the first failure wins. -/
def triggerGuardFailure (err : RunError) : Prog cfg Unit := do
  let first : Bool ← (Op.setGuardErr err).perform
  if first then
    Op.cancel.perform

/-- Schedules an event, unless a guardrail refuses it. -/
def scheduleEvent (i : Nat) (time : Time) (task : Task τ) : Prog cfg Unit := do
  let counter : Nat ← (Op.countEvent i).perform
  if cfg.limits.maxEventsScheduled > 0 ∧ (counter : Int) > cfg.limits.maxEventsScheduled then
    triggerGuardFailure
      (.limitExceeded ⟨"max_events_scheduled", counter, cfg.limits.maxEventsScheduled⟩)
  else if cfg.limits.maxEventQueueSize > 0 then
    let size : Nat ← (Op.queueSize i).perform
    if (size + 1 : Int) > cfg.limits.maxEventQueueSize then
      triggerGuardFailure
        (.limitExceeded ⟨"max_event_queue_size", size + 1, cfg.limits.maxEventQueueSize⟩)
    else
      (Op.push i ⟨time, counter, task⟩).perform
  else
    (Op.push i ⟨time, counter, task⟩).perform

def scheduleAfter (i : Nat) (delay : Time) (task : Task τ) : Prog cfg Unit := do
  let now : Time ← Op.now.perform
  scheduleEvent i (now + delay) task

/-- Stops the engine: cancels the run, then empties the queue. -/
def stop : Prog cfg Unit := do
  Op.cancel.perform
  Op.clear.perform

/-- The event that ends the simulation. -/
def simulationEndTask : Task τ :=
  { type := .simulationEnd }

/-- The beginning of `Run`, up to its loop. -/
def run (i : Nat) (duration : Time) : Prog cfg Unit := do
  let first : Bool ← (Op.begin i).perform
  if first then
    Op.managerStart.perform
    let startTime : Time ← Op.now.perform
    let realTimeStart : Time ← Op.clock.perform
    let wallStart : Time ← Op.clock.perform
    scheduleEvent i (startTime + duration) simulationEndTask
    (Op.enterLoop ⟨startTime, startTime + duration, realTimeStart, wallStart⟩).perform

/-- The end of `Run`: the deferred function completes the run if it is still running. -/
def leave (err : Option RunError) : Prog cfg Unit := do
  let status : RunStatus ← Op.managerStatus.perform
  if status = .running then
    Op.managerComplete.perform
  (Op.leave err).perform

/-- Fails the run if it takes longer than it may on the wall clock. -/
def checkWallClock (frame : Frame) : Prog cfg Unit := do
  if cfg.maxWallClockRun > 0 then
    let now : Time ← Op.clock.perform
    if now - frame.wallStart > cfg.maxWallClockRun then
      triggerGuardFailure (.limitExceeded ⟨"max_wall_clock_runtime",
        (now - frame.wallStart).tdiv 1000000, cfg.maxWallClockRun.tdiv 1000000⟩)

/-- `Run` returns because its context is done. -/
def leaveCancelled : Prog cfg Unit := do
  let err : Option RunError ← (Op.guardrailErr false).perform
  leave (some (err.getD simulationCancelled))

/-- An iteration that finds no event: close to the end the clock is set to it. -/
def handleEmptyQueue (frame : Frame) : Prog cfg Unit := do
  let now : Time ← Op.now.perform
  if now < frame.endTime then
    let nextEvent : Option (Event (Task τ)) ← Op.peek.perform
    if nextEvent.any fun event => event.kind.type.isSimulationEnd then
      Op.continue.perform
    else
      let empty : Bool ← Op.isEmpty.perform
      if empty ∧ frame.endTime - now < 200000000 then
        (Op.setSimTime frame.endTime).perform
        leave none
      else
        Op.continue.perform
  else
    leave none

/-- In real-time mode an event is held back until the wall clock has caught up. -/
def throttle (previousSimTime : Time) (event : Event (Task τ)) : Prog cfg Unit := do
  if cfg.realTimeMode ∧ event.time - previousSimTime > 0 then
    let _ : Time ← Op.clock.perform

/-- How many waits of at most 200 ms a time takes. -/
def waits (remaining : Time) : Nat :=
  ((remaining + 199999999) / 200000000).toNat

/-- The waits before the end; false if the context is done meanwhile. -/
def waitForEnd : Nat → Prog cfg Bool
  | 0 => pure true
  | n + 1 => do
    if ← doneWithin then
      pure false
    else
      waitForEnd n

/-- In real-time mode the simulation ends when the wall clock has caught up. -/
def catchUp (frame : Frame) (event : Event (Task τ)) : Prog cfg Bool := do
  if cfg.realTimeMode then
    let now : Time ← Op.clock.perform
    waitForEnd (waits ((event.time - frame.startTime) - (now - frame.realTimeStart)))
  else
    pure true

/-- What an iteration does with its event once the clock shows the event's time. -/
def dispatch (frame : Frame) (event : Event (Task τ)) : Prog cfg Unit :=
  match event.kind.type with
  | .simulationEnd => do
    if ← catchUp frame event then
      leave none
    else
      leave (some simulationCancelled)
  | .other type => do
    if cfg.handlers type then
      (Op.startHandler event).perform
    Op.continue.perform

/-- An iteration that takes an event. -/
def processEvent (i : Nat) (frame : Frame) (event : Event (Task τ)) : Prog cfg Unit := do
  let previousSimTime : Time ← Op.now.perform
  let processed : Nat ← Op.countProcessed.perform
  if cfg.limits.maxEventsProcessed > 0 ∧ (processed : Int) > cfg.limits.maxEventsProcessed then
    triggerGuardFailure
      (.limitExceeded ⟨"max_events_processed", processed, cfg.limits.maxEventsProcessed⟩)
    let err : Option RunError ← (Op.guardrailErr false).perform
    leave err
  else if event.kind.type.isSimulationEnd ∧ event.time < frame.endTime then
    scheduleEvent i frame.endTime simulationEndTask
    Op.continue.perform
  else
    (Op.setSimTime event.time).perform
    throttle previousSimTime event
    dispatch frame event

/-- What an iteration does once it has passed its guard check. -/
def takeEvent (i : Nat) (frame : Frame) : Prog cfg Unit := do
  if ← done then
    leaveCancelled
  else
    let event : Option (Event (Task τ)) ← Op.next.perform
    match event with
    | none => handleEmptyQueue frame
    | some event => processEvent i frame event

/-- The guard check of an iteration and what follows it. -/
def checkGuardrail (i : Nat) (frame : Frame) : Prog cfg Unit := do
  let err : Option RunError ← (Op.guardrailErr true).perform
  match err with
  | some err => leave (some err)
  | none => takeEvent i frame

/-- An iteration of the loop of `Run`. -/
def iteration (i : Nat) : Prog cfg Unit := do
  let frame : Option Frame ← (Op.enterIteration i).perform
  match frame with
  | none => pure ()
  | some frame => do
    checkWallClock frame
    checkGuardrail i frame

end Programs

/-- What runs on the engine. -/
inductive Call (τ : Type) where
  | run (duration : Time)
  | iteration
  | scheduleAtPriority (time : Time) (task : Task τ)
  | scheduleAfter (delay : Time) (task : Task τ)
  | triggerLimitExceeded (err : Option RunError)
  | stop
  | managerStart
  | managerComplete
  | managerFail
  | managerCancel

def Call.body (cfg : Config τ) : Call τ → Nat → Prog cfg Unit
  | .run duration, i => EngineLoop.run i duration
  | .iteration, i => EngineLoop.iteration i
  | .scheduleAtPriority time task, i => scheduleEvent i time task
  | .scheduleAfter delay task, i => EngineLoop.scheduleAfter i delay task
  | .triggerLimitExceeded none, _ => pure ()
  | .triggerLimitExceeded (some err), _ => triggerGuardFailure err
  | .stop, _ => EngineLoop.stop
  | .managerStart, _ => Op.managerStart.perform
  | .managerComplete, _ => Op.managerComplete.perform
  | .managerFail, _ => Op.managerFail.perform
  | .managerCancel, _ => Op.cancel.perform

/-- A new engine. -/
def Fresh (s : SharedEngine τ) : Prop :=
  ∃ t, s = { simTime := t }

end SimCore.EngineLoop
