import SimCore.Concurrent.Programs
import SimCore.Runs.RunStore

/-!
# The run executor

The executor starts and stops runs. A start makes the run `RUNNING`, registers the function that
cancels it, and leaves a goroutine behind: a simulation, an optimization or an online optimization.
A stop cancels the goroutine and sets the status. When a goroutine ends, it cleans up what is
registered for the run. The timers and the controller of an online optimization may end its lease.

Each critical section, and each use of a context, is an atomic operation; the functions of the
executor are programs over them. What the executor calls and does not share with other goroutines,
such as the engine, is answered by the outside with any result. A context is named by the number of
the thread whose start created it, and so are the workload state and the managers that its goroutine
registers.

The state also remembers what the executor does not: which starts were accepted and are not over,
which goroutines run, which stops are on their way, and how far the lease of an online run has come.

## Main definitions

* `Executor`, `Op`, `Op.run`, `machine`: the shared state and the atomic operations
* `start`, `stop`, `signalOnlineLeaseEnd`: the calls
* `runSimulation`, `runOptimization`, `runOnlineOptimization`: the goroutines
* `Call`, `Call.body`: everything that runs on the executor
-/

namespace SimCore.Runs

open Concurrent

/-- The settings of the server that the executor reads. -/
structure Server where
  limitsErr : Option String := none
  validatePreStart : RunInput → Option String := fun _ => none
  validateOptimizationPreStart : RunInput → Option String := fun _ => none
  validateBatch : RunInput → Option String := fun _ => none
  optimizationRunner : Bool := true
  /-- Wall-clock limit of an optimization, if positive. -/
  maxWallClockRuntime : Int := 0

/-- How far the lease of an online run has come: no end was signalled, an end was signalled, the
goroutine asked for the reason and found none, or the matter is closed. -/
inductive Lease where
  | open
  | signalled
  | leaving
  | closed
deriving DecidableEq

/-- The store, what is registered for the runs, and the contexts that are cancelled. The executor
never reads the fields from `owners` on: the accepted starts that are not over, the goroutines that
run, whether one was started for the stored run, the stops that have not set the status yet, the run
of a context, whether the timers of an online run exist, and how far its lease has come. -/
structure Executor where
  store : RunStore := {}
  cancels : RunId → Option Nat := fun _ => none
  cancelled : Nat → Bool := fun _ => false
  workloadStates : RunId → Option Nat := fun _ => none
  resourceManagers : RunId → Option Nat := fun _ => none
  policyManagers : RunId → Option Nat := fun _ => none
  runScenarios : RunId → Option Nat := fun _ => none
  onlineCompletionReason : RunId → Option OnlineCompletion := fun _ => none
  onlineLeaseDeadline : RunId → Option Int := fun _ => none
  owners : RunId → List Nat := fun _ => []
  live : RunId → List Nat := fun _ => []
  launched : RunId → Bool := fun _ => false
  stopping : RunId → List Nat := fun _ => []
  contextRun : Nat → Option RunId := fun _ => none
  timers : RunId → Bool := fun _ => false
  lease : RunId → Lease := fun _ => .open

/-- The result of an optimization experiment. -/
structure Experiment where
  bestRunID : RunId := ""
  bestScore : ℚ := 0
  iterations : Int := 0
  candidateRunIDs : List RunId := []
deriving DecidableEq

/-- What the outside answers: the time in milliseconds, a generated id, the error of a call, the
result of an experiment, whether a deadline has passed, and the order in which a map is visited. -/
structure Answer where
  now : Int := 0
  generated : RunId := ""
  err : Option String := none
  experiment : Except String Experiment := .ok {}
  expired : Bool := false
  order : List RunId := []

/-- The statuses that the executor sets with `SetStatus`. -/
inductive Ending where
  | completed
  | failed
  | stopped
deriving DecidableEq

/-- The status of a run that ends. -/
def Ending.status : Ending → RunStatus
  | .completed => .completed
  | .failed => .failed
  | .stopped => .stopped

/-- Who sets the status: a start that is rejected, a stop, or the goroutine of the run. -/
inductive Writer where
  | start (self : Nat)
  | stop (self : Nat)
  | goroutine
deriving DecidableEq

/-- The atomic operations of the executor. -/
inductive Op where
  | create (runID : RunId) (input : Option RunInput) (parent : Option RunId)
  | cleanupNow
  | get (runID : RunId)
  | setStatusRunning (runID : RunId) (self : Nat)
  | setStatus (by_ : Writer) (runID : RunId) (ending : Ending) (errMsg : String)
  | setCollector (runID : RunId)
  | setMetrics (runID : RunId)
  | setOnlineCompletionReason (runID : RunId) (reason : OnlineCompletion)
  | setOptimizationResult (runID best : RunId) (score : ℚ) (iterations : Int)
      (candidates : List RunId)
  | trimOptimizationCandidates (runID best : RunId)
  | setFinalConfiguration (runID : RunId)
  | appendOptimizationStep (runID : RunId)
  | setOptimizationProgress (runID : RunId) (iteration : Int) (bestScore : ℚ)
  | registerCancel (runID : RunId) (self : Nat)
  | spawn (runID : RunId) (self : Nat)
  /-- A stop looks up the cancel function. -/
  | lookupCancel (runID : RunId) (self : Nat)
  | cancel (ctx : Nat)
  | ctxErr (ctx : Nat) (deadline : Bool)
  | registerRun (runID : RunId) (self : Nat)
  | runConfiguration (runID : RunId)
  | setOnlineLeaseDeadline (runID : RunId) (ttlMs : Int)
  | startTimers (runID : RunId)
  | signalLeaseEnd (runID : RunId) (reason : OnlineCompletion)
  | takeOnlineCompletionReason (runID : RunId)
  | cleanup (runID : RunId) (self : Nat)
  /-- A call whose effects stay with the caller. -/
  | ask
  | runExperiment

/-- What an operation returns. -/
def Op.Result : Op → Type
  | .get _ => Option RunRecord
  | .setStatusRunning _ _ => Except StartError RunRecord
  | .setStatus _ _ _ _ => Option RunRecord
  | .lookupCancel _ _ => Option Nat
  | .ctxErr _ _ => Bool
  | .runConfiguration _ => Bool
  | .signalLeaseEnd _ _ => Option Nat
  | .takeOnlineCompletionReason _ => Option OnlineCompletion
  | .ask => Option String
  | .runExperiment => Except String Experiment
  | _ => Unit

namespace Executor

/-- What was registered for a run is removed, and its context is cancelled. -/
def removeRun (e : Executor) (runID : RunId) : Executor :=
  { e with
    cancels := Function.update e.cancels runID none
    cancelled := match e.cancels runID with
      | some ctx => Function.update e.cancelled ctx true
      | none => e.cancelled
    workloadStates := Function.update e.workloadStates runID none
    resourceManagers := Function.update e.resourceManagers runID none
    policyManagers := Function.update e.policyManagers runID none
    runScenarios := Function.update e.runScenarios runID none
    onlineCompletionReason := Function.update e.onlineCompletionReason runID none
    onlineLeaseDeadline := Function.update e.onlineLeaseDeadline runID none }

/-- The accepted start of a thread is over. -/
def release (e : Executor) (runID : RunId) (self : Nat) : Executor :=
  { e with owners := Function.update e.owners runID ((e.owners runID).erase self)
           live := Function.update e.live runID ((e.live runID).erase self) }

/-- The executor with another store. -/
def withStore (e : Executor) (store : RunStore) : Executor :=
  { e with store := store }

/-- What a writer of a status leaves behind: a start is over, and so is a stop. -/
def wrote (e : Executor) (runID : RunId) : Writer → Executor
  | .start self => e.release runID self
  | .stop self =>
    { e with stopping := Function.update e.stopping runID ((e.stopping runID).erase self) }
  | .goroutine => e

end Executor

/-- The effect of an operation. -/
def Op.run (env : Server) : (op : Op) → Answer → Executor → op.Result × Executor
  | .create runID input parent, a, e =>
    match e.store.create runID env.validateBatch a.generated input parent a.now with
    | .ok (rec, store) =>
      ((), { e with store := store, launched := Function.update e.launched rec.id false })
    | .error _ => ((), e)
  | .cleanupNow, a, e => ((), e.withStore (e.store.cleanupNow a.now a.order))
  | .get runID, _, e => (e.store.get runID, e)
  | .setStatusRunning runID self, a, e =>
    let res := e.store.setStatusRunningWithOnlineConcurrencyGuard runID a.now
    (res.1, if res.1.toBool then
        { e with store := res.2
                 owners := Function.update e.owners runID (self :: e.owners runID)
                 lease := Function.update e.lease runID .open }
      else e)
  | .setStatus by_ runID ending errMsg, a, e =>
    let res := e.store.setStatus runID ending.status errMsg a.now
    (res.1, (e.withStore res.2).wrote runID by_)
  | .setCollector runID, _, e =>
    ((), e.withStore (e.store.update runID fun rec => { rec with collector := true }))
  | .setMetrics runID, _, e =>
    ((), e.withStore (e.store.update runID fun rec => { rec with metrics := true }))
  | .setOnlineCompletionReason runID reason, _, e =>
    ((), e.withStore (e.store.update runID fun rec =>
      { rec with onlineCompletionReason := some reason }))
  | .setOptimizationResult runID best score iterations candidates, _, e =>
    ((), e.withStore (e.store.setOptimizationResult runID best score iterations candidates))
  | .trimOptimizationCandidates runID best, _, e =>
    ((), e.withStore (e.store.trimOptimizationCandidates runID best))
  | .setFinalConfiguration runID, _, e =>
    ((), e.withStore (e.store.update runID fun rec => { rec with finalConfig := true }))
  | .appendOptimizationStep runID, _, e =>
    ((), e.withStore (e.store.update runID fun rec =>
      { rec with optimizationHistory := rec.optimizationHistory + 1 }))
  | .setOptimizationProgress runID iteration bestScore, _, e =>
    ((), e.withStore (e.store.update runID fun rec =>
      { rec with iterations := iteration, bestScore := bestScore }))
  | .registerCancel runID self, _, e =>
    let cancelled := match e.cancels runID with
      | some old => Function.update e.cancelled old true
      | none => e.cancelled
    ((), { e with cancels := Function.update e.cancels runID (some self)
                  cancelled := Function.update cancelled self false
                  contextRun := Function.update e.contextRun self (some runID) })
  | .spawn runID self, _, e =>
    ((), { e with live := Function.update e.live runID (self :: e.live runID)
                  launched := Function.update e.launched runID true })
  | .lookupCancel runID self, _, e =>
    (e.cancels runID,
      { e with stopping := Function.update e.stopping runID (self :: e.stopping runID) })
  | .cancel ctx, _, e => ((), { e with cancelled := Function.update e.cancelled ctx true })
  | .ctxErr ctx deadline, a, e => (e.cancelled ctx || (deadline && a.expired), e)
  | .registerRun runID self, _, e =>
    ((), { e with
      workloadStates := Function.update e.workloadStates runID (some self)
      resourceManagers := Function.update e.resourceManagers runID (some self)
      policyManagers := Function.update e.policyManagers runID (some self)
      runScenarios := Function.update e.runScenarios runID (some self) })
  | .runConfiguration runID, _, e =>
    (runID != "" && (e.resourceManagers runID).isSome && (e.workloadStates runID).isSome, e)
  | .setOnlineLeaseDeadline runID ttlMs, a, e =>
    ((), { e with
      onlineLeaseDeadline := Function.update e.onlineLeaseDeadline runID (some (a.now + ttlMs)) })
  | .startTimers runID, _, e => ((), { e with timers := Function.update e.timers runID true })
  | .signalLeaseEnd runID reason, _, e =>
    -- only the timers and the controller of an online run signal
    if e.timers runID then
      (e.cancels runID,
        { e with
          onlineCompletionReason := Function.update e.onlineCompletionReason runID (some reason)
          lease := Function.update e.lease runID
            (if e.lease runID = .open then .signalled else e.lease runID) })
    else (none, e)
  | .takeOnlineCompletionReason runID, _, e =>
    (e.onlineCompletionReason runID,
      { e with
        onlineCompletionReason := Function.update e.onlineCompletionReason runID none
        lease := Function.update e.lease runID
          (if e.onlineCompletionReason runID = none then .leaving else .closed) })
  | .cleanup runID self, _, e =>
    ((), { (e.removeRun runID).release runID self with
      lease := Function.update e.lease runID .closed })
  | .ask, a, e => (a.err, e)
  | .runExperiment, a, e => (a.experiment, e)

/-- The executor as a machine. -/
def machine (env : Server) : Machine where
  State := Executor
  Op := Op
  Result := Op.Result
  Answer := Answer
  run := Op.run env

/-! ### Programs -/

section Programs

variable (env : Server)

abbrev Prog (α : Type) := Program (machine env) α

variable {env}

/-- One operation. -/
abbrev Op.perform (op : Op) : Prog env op.Result :=
  Program.perform (M := machine env) op

/-- Whether a context is over. -/
abbrev ctxErr (ctx : Nat) (deadline : Bool) : Prog env Bool :=
  (Op.ctxErr ctx deadline).perform

abbrev setOnlineLeaseDeadline (runID : RunId) (ttlMs : Int) : Prog env Unit :=
  (Op.setOnlineLeaseDeadline runID ttlMs).perform

/-- Whether the configuration of a run can be read. -/
abbrev hasRunConfiguration (runID : RunId) : Prog env Bool :=
  (Op.runConfiguration runID).perform

/-- Persists the configuration of a run, as long as its state is registered. -/
def snapshotFinalConfiguration (runID : RunId) : Prog env Unit := do
  if ← hasRunConfiguration runID then
    (Op.setFinalConfiguration runID).perform

/-- Sends a notification, if the run asks for one. What is sent stays with the caller. -/
def sendNotificationIfConfigured (rec : RunRecord) : Prog env Unit := do
  if (rec.input.any fun input => input.callbackUrl != "") then
    snapshotFinalConfiguration rec.id
    let _ ← (Op.get rec.id).perform

/-- Sets a final status on behalf of the goroutine of a run, and notifies. -/
def finish (runID : RunId) (ending : Ending) (errMsg : String) : Prog env Unit := do
  match ← (Op.setStatus .goroutine runID ending errMsg).perform with
  | some updated => sendNotificationIfConfigured updated
  | none => return

/-- Everything that a simulation or an online optimization sets up before its engine runs: parsing,
resource manager, collector, scenario state and workload. Returns whether it succeeds; otherwise the
run has failed. -/
def prepare (runID : RunId) (self : Nat) : Prog env Bool := do
  if let some err ← Op.ask.perform then
    finish runID .failed ("invalid scenario: " ++ err)
    return false
  if let some err ← Op.ask.perform then
    finish runID .failed ("resource initialization failed: " ++ err)
    return false
  (Op.setCollector runID).perform
  if let some err ← Op.ask.perform then
    finish runID .failed ("scenario state creation failed: " ++ err)
    return false
  if let some err ← Op.ask.perform then
    finish runID .failed ("workload state initialization failed: " ++ err)
    return false
  (Op.registerRun runID self).perform
  return true

/-- The simulation of a run, up to its cleanup. -/
def runSimulationBody (runID : RunId) (self : Nat) : Prog env Unit := do
  let some rec ← (Op.get runID).perform | return
  if rec.input.isNone then return
  if !(← prepare runID self) then return
  if let some err ← Op.ask.perform then
    -- the engine failed; a cancelled run leaves the status to whoever cancelled it
    if ← ctxErr self false then
      let rec ← (Op.get runID).perform
      rec.forM sendNotificationIfConfigured
      return
    finish runID .failed err
    return
  (Op.setMetrics runID).perform
  let some rec ← (Op.get runID).perform | return
  if rec.status = .running then
    if (rec.input.bind (·.optimization)).isNone then
      (Op.setOptimizationResult runID runID 0 0 [runID]).perform
    snapshotFinalConfiguration runID
    finish runID .completed ""

def runSimulation (runID : RunId) (self : Nat) : Prog env Unit := do
  runSimulationBody runID self
  (Op.cleanup runID self).perform

/-- The optimization of a run, up to its cleanup. -/
def runOptimizationBody (runID : RunId) (self : Nat) : Prog env Unit := do
  let some rec ← (Op.get runID).perform | return
  if rec.input.isNone then return
  if !env.optimizationRunner then
    finish runID .failed "optimization not enabled"
    return
  if let some err ← Op.ask.perform then
    finish runID .failed ("invalid scenario: " ++ err)
    return
  match ← Op.runExperiment.perform with
  | .error err =>
    if ← ctxErr self (env.maxWallClockRuntime > 0) then return
    finish runID .failed err
  | .ok result =>
    (Op.setOptimizationResult runID result.bestRunID result.bestScore result.iterations
      result.candidateRunIDs).perform
    (Op.trimOptimizationCandidates runID result.bestRunID).perform
    if result.bestRunID ≠ "" then
      if ((← (Op.get result.bestRunID).perform).any (·.metrics)) then
        (Op.setMetrics runID).perform
    finish runID .completed ""

def runOptimization (runID : RunId) (self : Nat) : Prog env Unit := do
  runOptimizationBody runID self
  (Op.cleanup runID self).perform

/-- Ends an online run as completed, unless its status was set by somebody else. -/
def finalizeOnlineOptimizationRun (runID : RunId) (reason : Option OnlineCompletion) :
    Prog env Unit := do
  (Op.setMetrics runID).perform
  if let some reason := reason then
    (Op.setOnlineCompletionReason runID reason).perform
  let some rec ← (Op.get runID).perform | return
  if rec.status ≠ .running then return
  (Op.setOptimizationResult runID runID 0 (min rec.optimizationHistory maxInt32) [runID]).perform
  snapshotFinalConfiguration runID
  finish runID .completed ""

/-- What an online run does when its engine was cancelled and no lease ended. -/
def leaveCancelled (runID : RunId) : Prog env Unit := do
  let some rec ← (Op.get runID).perform | return
  if rec.status = .stopped then
    (Op.setMetrics runID).perform
    (Op.setOptimizationResult runID runID 0 (min rec.optimizationHistory maxInt32) [runID]).perform
    (← (Op.get runID).perform).forM sendNotificationIfConfigured
  else
    sendNotificationIfConfigured rec

/-- The online optimization of a run, up to its cleanup. -/
def runOnlineOptimizationBody (runID : RunId) (self : Nat) : Prog env Unit := do
  let some rec ← (Op.get runID).perform | return
  let some opt := rec.input.bind (·.optimization) | return
  if !(← prepare runID self) then return
  if opt.leaseTtlMs > 0 then
    setOnlineLeaseDeadline runID opt.leaseTtlMs
  (Op.startTimers runID).perform
  match ← Op.ask.perform with
  | some err =>
    match ← (Op.takeOnlineCompletionReason runID).perform with
    | some reason => finalizeOnlineOptimizationRun runID (some reason)
    | none =>
      if ← ctxErr self false then leaveCancelled runID
      else finish runID .failed err
  | none => finalizeOnlineOptimizationRun runID none

/-- The goroutine of an online optimization. -/
def runOnlineOptimization (runID : RunId) (self : Nat) : Prog env Unit := do
  runOnlineOptimizationBody runID self
  (Op.cleanup runID self).perform

/-- Why a start is rejected after the run was made running. -/
def startRejection (env : Server) (rec : RunRecord) : Option String :=
  (env.limitsErr.map fun err => "invalid SIMD guardrail configuration: " ++ err) <|>
    rec.input.bind env.validatePreStart <|>
    rec.input.bind env.validateOptimizationPreStart <|>
    (rec.input.bind (·.optimization)).bind validateOnlineOptimizationConfig

def goroutine (runID : RunId) (input : RunInput) (self : Nat) : Prog env Unit :=
  match input.optimization with
  | some opt =>
    if opt.online then runOnlineOptimization runID self else runOptimization runID self
  | none => runSimulation runID self

/-- Starts a run. The thread goes on as the goroutine of the run. -/
def start (runID : RunId) (self : Nat) : Prog env Unit := do
  if runID = "" then return
  match ← (Op.setStatusRunning runID self).perform with
  | .error _ => return
  | .ok updated =>
    if let some err := startRejection env updated then
      let _ ← (Op.setStatus (.start self) runID .failed err).perform
      return
    (Op.registerCancel runID self).perform
    -- on a run without input the source dereferences a nil pointer here
    let some input := updated.input | return
    (Op.spawn runID self).perform
    goroutine runID input self

/-- Marks a run as stopped, and notifies. An online run is notified of by its goroutine. -/
def markStopped (runID : RunId) (self : Nat) : Prog env Unit := do
  let some updated ← (Op.setStatus (.stop self) runID .stopped "").perform | return
  snapshotFinalConfiguration runID
  if !((updated.input.bind (·.optimization)).any (·.online)) then
    sendNotificationIfConfigured updated

/-- Stops a run: cancels its context and sets its status. -/
def stop (runID : RunId) (self : Nat) : Prog env Unit := do
  if runID = "" then return
  match ← (Op.lookupCancel runID self).perform with
  | some ctx =>
    (Op.cancel ctx).perform
    markStopped runID self
  | none => markStopped runID self

def signalOnlineLeaseEnd (runID : RunId) (reason : OnlineCompletion) : Prog env Unit := do
  if let some ctx ← (Op.signalLeaseEnd runID reason).perform then
    (Op.cancel ctx).perform

def renewOnlineLease (runID : RunId) : Prog env Unit := do
  if runID = "" then return
  let some rec ← (Op.get runID).perform | return
  if rec.status ≠ .running then return
  let some opt := rec.input.bind (·.optimization) | return
  if opt.online && opt.leaseTtlMs > 0 then
    setOnlineLeaseDeadline runID opt.leaseTtlMs

end Programs

/-- Everything that runs on the executor: the calls of clients, of experiments, of the timers and
the controller of an online run, and of the retention loop of the store. -/
inductive Call where
  | create (runID : RunId) (input : Option RunInput) (parent : Option RunId)
  | start (runID : RunId)
  | stop (runID : RunId)
  | renewOnlineLease (runID : RunId)
  | signalOnlineLeaseEnd (runID : RunId) (reason : OnlineCompletion)
  | appendOptimizationStep (runID : RunId)
  | setOptimizationProgress (runID : RunId) (iteration : Int) (bestScore : ℚ)
  | cleanupNow

def Call.body (env : Server) (call : Call) (self : Nat) : Prog env Unit :=
  match call with
  | .create runID input parent => (Op.create runID input parent).perform
  | .start runID => Runs.start runID self
  | .stop runID => Runs.stop runID self
  | .renewOnlineLease runID => Runs.renewOnlineLease runID
  | .signalOnlineLeaseEnd runID reason => Runs.signalOnlineLeaseEnd runID reason
  | .appendOptimizationStep runID => (Op.appendOptimizationStep runID).perform
  | .setOptimizationProgress runID iteration bestScore =>
    (Op.setOptimizationProgress runID iteration bestScore).perform
  | .cleanupNow => Op.cleanupNow.perform

/-- A server that has just started. -/
structure Fresh (e : Executor) : Prop where
  runs : e.store.runs = KeyMap.empty
  rest : e = { store := e.store }

end SimCore.Runs
