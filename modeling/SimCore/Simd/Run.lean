import SimCore.Resource.Scaling
import SimCore.Simd.CompleteHandler
import Mathlib.Logic.Relation

/-!
# Runs

A run starts from a validated scenario whose service graph and placement can be built, and takes
steps: it handles the next event, or the outside acts on it. The outside schedules arrivals, drain
sweeps and the end of the simulation, scales services and hosts, sweeps draining instances, and may
stop the run with a guardrail error.

## Main definitions

* `handleEvent`: the handler of every kind of event
* `Step`, `Steps`, `Reachable`: the steps, runs and reachable states
* `runEvents`, `simulate`: the event loop, and the run of a scenario under given commands
-/

namespace SimCore.Simd

open Config Interaction Resource

/-- Handles an event. The stage of a request whose start or completion is handled changes with the
event that leaves the queue. -/
def handleEvent (env : Env) (s : State) : EventKind → State
  | .simulationEnd => { s with eng := { s.eng with ended := true } }
  | .drainSweep => handleDrainSweep env s
  | .workloadGenerate => s
  | .requestArrival d => handleRequestArrival env s d
  | .requestStart r instanceID =>
    handleRequestStart env (s.update r fun q => { q with stage := .idle }) r instanceID
  | .requestComplete r =>
    handleRequestComplete env
      ((s.update r fun q => { q with stage := .worked }).observe (.workDone r s.now)) r
  | .downstreamCall d => handleDownstreamCall env s d
  | .downstreamRetry d => handleDownstreamRetry env s d
  | .downstreamTimeout child parent isAsync => handleDownstreamTimeout env s child parent isAsync
  | .callerOverheadStart d => handleDownstreamCallerOverheadStart env s d
  | .callerOverheadEnd d => handleDownstreamCallerOverheadEnd env s d
  | .queueEnqueue d => handleQueueEnqueue env s d
  | .queueDequeue brokerID topic => handleQueueDequeue env s brokerID topic
  | .queueAckTimeout d => handleQueueAckTimeout env s d
  | .queueDLQ brokerID topic => handleQueueDLQ s brokerID topic
  | .asyncParentFinalize r => handleAsyncParentFinalize env s r
  | .topicPublish d => handleTopicPublish env s d
  | .topicDequeue brokerID topic group partition =>
    handleTopicDequeue env s brokerID topic group partition
  | .topicAckTimeout d => handleTopicAckTimeout env s d
  | .topicDLQ brokerID topic group partition offset =>
    handleTopicDLQ s brokerID topic group partition offset
  | .topicRetentionExpire brokerID topic group partition =>
    handleTopicRetentionExpire env s brokerID topic group partition

/-- One turn of the event loop; `none` if the run is over or nothing is queued. -/
def stepEvent (env : Env) (s : State) : Option State :=
  match s.eng.next with
  | none => none
  | some (event, eng) =>
    if eng.overProcessed then
      let err := ⟨"max_events_processed", eng.processed, eng.limits.maxEventsProcessed⟩
      some { s with eng := { s.eng.triggerGuardFailure err with
        queue := eng.queue, processed := eng.processed, refused_latches := by
          simp [Engine.triggerGuardFailure] } }
    else some (handleEvent env { s with eng := eng } event.kind)

/-- Removes draining instances at the latest simulation time that the manager has seen. -/
def controllerSweep (s : State) : State :=
  match s.rm.lastSimTime with
  | none => s
  | some t =>
    let (dropped, rm) := s.rm.processDrainingInstances t
    dropped.foldl failDroppedQueueRequest { s with rm := rm }

/-- The instances that an operation on the resource manager tells to drain while a start on them is
pending. -/
def busyDrains (s : State) (rm : Manager) : List String :=
  (rm.instances.filter fun i => i.lifecycle == .draining &&
    (s.rm.instance? i.id).any (·.lifecycle == .active) &&
    s.eng.issued.any fun event =>
      match event.kind with
      | .requestStart _ id => id == i.id
      | _ => false).map (·.id)

/-- A service or the hosts are scaled. -/
def scale (s : State) (op : Scaling) : State :=
  let rm := (op.run s.rm).2
  { s with rm := rm, trace := (busyDrains s rm).map Obs.busyDrain ++ s.trace }

/-- The events that are scheduled from outside the handlers. -/
def EventKind.external : EventKind → Bool
  | .requestArrival _ => true
  | .drainSweep => true
  | .workloadGenerate => true
  | .simulationEnd => true
  | _ => false

/-- An event is scheduled from outside the handlers. The state remembers if that was ever done for
the past. -/
def scheduleOutside (s : State) (t : Time) (k : EventKind) : State :=
  { s.scheduleAt t k with backdated := s.backdated || decide (t < s.now) }

/-- The steps of a run. -/
inductive Step (env : Env) : State → State → Prop
  /-- The next event is handled. -/
  | event {s s' : State} (h : stepEvent env s = some s') : Step env s s'
  /-- The workload or the executor schedules an event. -/
  | schedule {s : State} (t : Time) (k : EventKind) (hk : k.external = true) :
      Step env s (scheduleOutside s t k)
  /-- A service or the hosts are scaled. -/
  | scale {s : State} (op : Scaling) (h : op.timely s.now = true) : Step env s (scale s op)
  /-- The controller of an online run removes drained instances. -/
  | sweep {s : State} : Step env s (controllerSweep s)
  /-- A guardrail outside the engine stops the run. -/
  | abort {s : State} (err : LimitExceeded) :
      Step env s { s with eng := s.eng.triggerGuardFailure err }

/-- Settings of a run beside its scenario. -/
structure RunConfig where
  start : Time := 0
  clock : Time := 0
  limits : RuntimeLimits := {}
  maxActiveRequests : Int := 0
  maxTotalRequests : Int := 0
  maxCompletedKeep : Nat := 1000

/-- The state before the first step. -/
def initState (cfg : RunConfig) (m : Manager) : State where
  eng := { simTime := cfg.start, limits := cfg.limits }
  run := { maxActiveRequests := cfg.maxActiveRequests, maxTotalRequests := cfg.maxTotalRequests
           maxCompletedKeep := cfg.maxCompletedKeep }
  rm := m

/-- The initial states: the scenario is valid, its graph is acyclic and its services are placed. -/
structure Initial (env : Env) (s : State) : Prop where
  valid : validateScenario env.scenario = .ok ()
  graph : newGraph env.scenario = .ok ()
  placed : ∃ cfg m, Manager.initializeFromScenario env.scenario cfg.clock = .ok m ∧
    s = initState cfg m

/-- The states that a run can reach. -/
inductive Reachable (env : Env) : State → Prop
  | init {s : State} (h : Initial env s) : Reachable env s
  | step {s s' : State} (hs : Reachable env s) (h : Step env s s') : Reachable env s'

/-- The runs from one state to another. -/
def Steps (env : Env) : State → State → Prop :=
  Relation.ReflTransGen (Step env)

variable {env : Env} {s s' : State}

theorem Reachable.steps (hs : Reachable env s) (h : Steps env s s') : Reachable env s' := by
  induction h with
  | refl => exact hs
  | tail _ h ih => exact .step ih h

/-! ### The event loop -/

/-- The event loop, for at most `n` events. -/
def runEvents (env : Env) : Nat → State → State
  | 0, s => s
  | n + 1, s =>
    match stepEvent env s with
    | none => s
    | some s' => runEvents env n s'

theorem steps_runEvents (env : Env) (n : Nat) (s : State) : Steps env s (runEvents env n s) := by
  induction n generalizing s with
  | zero => exact .refl
  | succ n ih =>
    rw [runEvents]
    split
    · exact .refl
    · rename_i s' h
      exact .head (.event h) (ih s')

/-- The state before the first step of a scenario. -/
def startState (sc : Scenario) (cfg : RunConfig) : State :=
  initState cfg ((Manager.initializeFromScenario sc cfg.clock).toOption.getD {})

def canStart (sc : Scenario) (cfg : RunConfig) : Bool :=
  (validateScenario sc).toBool && (newGraph sc).toBool &&
    (Manager.initializeFromScenario sc cfg.clock).toBool

theorem initial_startState {cfg : RunConfig} (h : canStart env.scenario cfg = true) :
    Initial env (startState env.scenario cfg) := by
  simp only [canStart, Bool.and_eq_true] at h
  obtain ⟨⟨hva, hgr⟩, hpl⟩ := h
  refine ⟨?_, ?_, cfg, (Manager.initializeFromScenario env.scenario cfg.clock).toOption.getD {}, ?_,
    rfl⟩
  · cases hv : validateScenario env.scenario with
    | ok => rfl
    | error => simp [hv, Except.toBool] at hva
  · cases hg : newGraph env.scenario with
    | ok => rfl
    | error => simp [hg, Except.toBool] at hgr
  · cases hp : Manager.initializeFromScenario env.scenario cfg.clock with
    | ok => rfl
    | error => simp [hp, Except.toBool] at hpl

/-- What drives a run from outside. -/
inductive Command where
  | arrive (t : Time) (d : ArrivalData)
  | run (events : Nat)
  | scale (op : Scaling)

/-- Carries out a command; scaling that is not given the current time has no effect. -/
def perform (env : Env) (s : State) : Command → State
  | .arrive t d => scheduleOutside s t (.requestArrival d)
  | .run n => runEvents env n s
  | .scale op => if op.timely s.now then scale s op else s

/-- A run of a scenario under a list of commands. -/
def simulate (env : Env) (cfg : RunConfig) (cmds : List Command) : State :=
  cmds.foldl (perform env) (startState env.scenario cfg)

theorem steps_perform (env : Env) (s : State) (cmd : Command) :
    Steps env s (perform env s cmd) := by
  cases cmd with
  | arrive t d => exact .single (.schedule t _ rfl)
  | run n => exact steps_runEvents env n s
  | scale op =>
    rw [perform]
    split_ifs with h
    · exact .single (.scale op h)
    · exact .refl

theorem steps_foldl_perform (env : Env) (cmds : List Command) (s : State) :
    Steps env s (cmds.foldl (perform env) s) := by
  induction cmds generalizing s with
  | nil => exact .refl
  | cons cmd cmds ih => exact (steps_perform env s cmd).trans (ih _)

/-- The inputs of a run of a scenario in which every draw is zero. -/
def Env.still (sc : Scenario) : Env where
  scenario := sc
  rng := ⟨fun _ => 0, fun _ => 0, fun _ => le_rfl, fun _ => rfl⟩
  branching := ⟨fun _ => 0, fun _ => 0, fun _ => le_rfl, fun _ => rfl⟩
  routing := ⟨fun _ _ => 0, fun _ => 0, fun _ _ h => h⟩

theorem reachable_simulate (env : Env) (cfg : RunConfig) (cmds : List Command)
    (h : canStart env.scenario cfg = true) : Reachable env (simulate env cfg cmds) :=
  (Reachable.init (initial_startState h)).steps (steps_foldl_perform env cmds _)

end SimCore.Simd
