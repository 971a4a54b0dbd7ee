import SimCore.Interaction.Graph
import SimCore.Policy.Retry
import SimCore.Resource.BrokerQueue
import SimCore.Resource.Routing

/-!
# State of a simulation run

Requests, events, metric samples and the run state that the handlers of `internal/simd` share. The
source passes requests by pointer; here a request is named by its position in `State.heap`, and an
event names the request it carries.

Request metadata is a map from strings to values of any type in the source. Keys that the handlers
set with a fixed type are fields, and so is the assigned instance; the other text-valued keys, which
a workload row may also set, are kept in `Request.metadata`.

Some components are there for the specification only and no handler depends on them: the `stage`,
`call`, `onBehalf`, `edge`, `profileDraws` and `reservation` of a request, and the run's `calls` and
`trace`. A *logical call* is one synchronous downstream call that a request waits for; all its
attempts carry its number. A request works *on behalf* of a message if it was dispatched for it, or
is the retry of such a request. An attempt of a declared downstream call carries that call as its
`edge`.

## Main definitions

* `Job`, `Request`: a request, the part that the protocol reads and the rest
* `EventKind`: the events of a run with their data
* `State`, `Env`: the run state and the fixed inputs of a run
-/

namespace SimCore.Simd

open Config Interaction Resource

/-- Names of logical calls: positions in `State.calls`. -/
abbrev CallId := Nat

inductive Status where
  | pending
  | processing
  | completed
  | failed
deriving DecidableEq

/-- Where a request is in its local life: its start event is pending (`queued`), its completion
event is pending (`running`), its local work is finished (`worked`), or it has not been started and
never will be (`idle`). -/
inductive Stage where
  | idle
  | queued
  | running
  | worked
deriving DecidableEq

/-- What makes a request a broker consumer: its shard and the message it was dispatched for. -/
structure Delivery where
  shard : ShardRef
  message : QueuedMessage
deriving DecidableEq

/-- A CPU interval of an instance that was reserved for a request, with the cores of the instance
and the tail of its schedule before the reservation. -/
structure Reservation where
  start : Time
  finish : Time
  prior : Option Time
  cores : ℚ
deriving DecidableEq

/-- The part of a request that the run's protocol depends on. -/
structure Job where
  parent : Option ReqId := none
  serviceName : String := ""
  endpoint : String := ""
  arrivalTime : Time := 0
  completionTime : Option Time := none
  traceDepth : Int := 0
  asyncDepth : Int := 0
  downstreamAsync : Bool := false
  retryAttempt : Int := 0
  status : Status := .pending
  instanceID : Option String := none
  cpuDeferred : Option (Time × Time) := none
  cacheHit : Bool := false
  cacheMiss : Bool := false
  allocatedCPUMs : Option ℚ := none
  allocatedMemoryMB : Option ℚ := none
  desFinalized : Bool := false
  callerSyncResolved : Bool := false
  subtreeFailed : Bool := false
  syncWaitTimedOut : Bool := false
  asyncOpTimedOut : Bool := false
  asyncAttemptAbandoned : Bool := false
  brokerAckTimedOut : Bool := false
  deferredQueueFinalize : Bool := false
  queueAckDeadline : Option Time := none
  delivery : Option Delivery := none
  stage : Stage := .idle
  call : Option CallId := none
  onBehalf : Option Delivery := none
  edge : Option ResolvedCall := none
  profileDraws : Nat := 0
  reservation : Option Reservation := none
deriving DecidableEq, Inhabited

/-- A request with the metadata its handlers set. -/
structure Request extends Job where
  startTime : Option Time := none
  error : String := ""
  metadata : List (String × String) := []
  isRetry : Bool := false
  downstreamTimeoutMs : ℚ := 0
  localTimeout : Bool := false
  dbReserved : Bool := false
  deferredCallerExtraMs : ℚ := 0
deriving DecidableEq, Inhabited

namespace Request

/-- The text under a key, if there is one. -/
def lookup (q : Request) (key : String) : Option String :=
  if key = "instance_id" then q.instanceID else q.metadata.lookup key

/-- `metadataString`: the text under a key, empty if absent. -/
def text (q : Request) (key : String) : String :=
  (q.lookup key).getD ""

/-- Sets the text under a key. -/
def setText (q : Request) (key value : String) : Request :=
  if key = "instance_id" then { q with instanceID := some value }
  else { q with metadata := (key, value) :: q.metadata.filter (·.1 ≠ key) }

/-- Sets the text under a key unless it is empty. -/
def setTextIf (q : Request) (key value : String) : Request :=
  if value = "" then q else q.setText key value

/-- Whether the request is an ingress request. -/
def isRoot (q : Request) : Bool :=
  q.parent.isNone

theorem setText_toJob {k : String} (hk : k ≠ "instance_id") (q : Request) (v : String) :
    (q.setText k v).toJob = q.toJob := by
  simp [setText, hk]

theorem setText_instance (q : Request) (v : String) :
    (q.setText "instance_id" v).toJob = { q.toJob with instanceID := some v } := rfl

theorem setTextIf_toJob {k : String} (hk : k ≠ "instance_id") (q : Request) (v : String) :
    (q.setTextIf k v).toJob = q.toJob := by
  unfold setTextIf
  split
  · rfl
  · exact setText_toJob hk q v

end Request

/-! ### Events -/

/-- Caller routing metadata of a downstream spawn. -/
structure CallerTopology where
  callerInstanceID : String := ""
  callerHostZone : String := ""
  callerHostID : String := ""
deriving DecidableEq

/-- Data of a workload arrival. No handler reads `spec`: the workload pattern that scheduled the
arrival, and how often the pattern had been updated then. -/
structure ArrivalData where
  serviceID : String
  endpointPath : String
  source : String := ""
  sourceKind : String := ""
  trafficClass : String := ""
  metadata : List (String × String) := []
  spec : Option (String × Nat) := none
deriving DecidableEq

/-- The part of a spawn that its child inherits as a job. -/
structure SpawnCore where
  parent : ReqId
  serviceID : String
  endpointPath : String
  traceDepth : Int
  asyncDepth : Int
  isAsync : Bool
  retryAttempt : Int := 0
  call : Option CallId := none
  onBehalf : Option Delivery := none
  edge : Option ResolvedCall := none
deriving DecidableEq

/-- Data of a downstream spawn, first attempt or retry. -/
structure SpawnData extends SpawnCore where
  timeoutMs : ℚ
  caller : CallerTopology := {}
deriving DecidableEq

/-- Data of the caller's CPU overhead for one downstream edge. -/
structure OverheadData where
  spawn : SpawnData
  instanceID : String
  cpuMs : ℚ
  callerService : String
  callerEndpoint : String
  fromRetry : Bool
  reservedCPUStart : Time
  reservedCPUEnd : Time
  deliveryMs : Option ℚ := none
deriving DecidableEq

/-- Data of a publish to a queue or a topic. -/
structure PublishData where
  parent : ReqId
  brokerID : String
  topic : String
  traceDepth : Int
  asyncDepth : Int
  retryAttempt : Int
  deliveryMs : ℚ
  caller : CallerTopology := {}
  partitionKey : String := ""
deriving DecidableEq

/-- Data of an acknowledgement deadline; `group` and `partition` are for topics. -/
structure AckData where
  child : ReqId
  brokerID : String
  topic : String
  group : String := ""
  partition : Nat := 0
  message : QueuedMessage
deriving DecidableEq

inductive EventKind where
  | simulationEnd
  | drainSweep
  | workloadGenerate
  | requestArrival (data : ArrivalData)
  | requestStart (request : ReqId) (instanceID : String)
  | requestComplete (request : ReqId)
  | downstreamCall (data : SpawnData)
  | downstreamRetry (data : SpawnData)
  | downstreamTimeout (child parent : ReqId) (isAsync : Bool)
  | callerOverheadStart (data : OverheadData)
  | callerOverheadEnd (data : OverheadData)
  | queueEnqueue (data : PublishData)
  | queueDequeue (brokerID topic : String)
  | queueAckTimeout (data : AckData)
  | queueDLQ (brokerID topic : String)
  | asyncParentFinalize (request : ReqId)
  | topicPublish (data : PublishData)
  | topicDequeue (brokerID topic group : String) (partition : Nat)
  | topicAckTimeout (data : AckData)
  | topicDLQ (brokerID topic group : String) (partition offset : Nat)
  | topicRetentionExpire (brokerID topic group : String) (partition : Nat)
deriving DecidableEq

/-- Timeouts and acknowledgement deadlines come after the other events at the same time. -/
instance : Prioritized EventKind where
  priority
    | .downstreamTimeout _ _ _ => 1
    | .queueAckTimeout _ => 1
    | .topicAckTimeout _ => 1
    | _ => 0

/-! ### Samples and observations -/

/-- The metrics that the handlers record. -/
inductive Metric where
  | requestLatency | serviceRequestLatency | serviceProcessingLatency | queueWait
  | rootRequestLatency | requestCount | requestErrorCount | ingressLogicalFailure
  | cpuUtilization | memoryUtilization | queueLength | concurrentRequests
  | routeSelectionCount | localityRouteHitCount | localityRouteMissCount
  | sameZoneRequestCount | crossZoneRequestCount | crossZoneLatencyPenalty
  | sameZoneLatencyPenalty | externalLatencyPenalty | topologyLatencyPenalty
  | dbWait | activeConnections | cacheHitCount | cacheMissCount | downstreamCallerCPU
  | queueDepth | queuePublishAttemptCount | queueEnqueueCount | queueDequeueCount
  | queueDropCount | queueRedeliveryCount | queueDlqCount | messageAge | queuePublishLatency
  | topicPublishCount | topicDeliverCount | topicDropCount | topicRedeliveryCount
  | topicDlqCount | topicBacklogDepth | topicMessageAge | topicPublishLatency
  | topicConsumerLag
deriving DecidableEq

abbrev Labels := List (String × String)

/-- One `Record` call of the metrics collector. `subject` is the request it is about. -/
structure Sample where
  metric : Metric
  value : ℚ
  time : Time
  labels : Labels
  subject : Option ReqId
deriving DecidableEq

/-- What becomes of a request that fails before its local work: a retry replaces it, it is
finalised, or it is left as it is. -/
inductive Fate where
  | retried
  | finalized
  | dropped
deriving DecidableEq

/-- What the specification remembers of a run, in addition to the state. -/
inductive Obs where
  /-- The pending counter of `parent` was decremented on behalf of a logical call, or of none. -/
  | decrement (parent : ReqId) (call : Option CallId) (time : Time)
  /-- An attempt was made for an edge, with the timeout, the failure rate and the retryable flag
  that it uses. -/
  | attempted (request : ReqId) (edge : Option ResolvedCall) (timeoutMs failureRate : ℚ)
      (retryable : Bool)
  /-- A retry was scheduled for an attempt that the caller had already given up. -/
  | retryAfterIsolation (request : ReqId)
  /-- The caller's CPU for an edge could not be allocated; a retry replaces it or not. -/
  | overheadFailed (data : SpawnData) (retried : Bool)
  /-- A spawn ended without an attempt that can still answer. -/
  | callLost (data : SpawnData)
  /-- A start event found no endpoint or service. -/
  | startLost (request : ReqId)
  /-- A busy instance deferred the start of a request. -/
  | startDeferred (request : ReqId)
  /-- A request failed at its start. -/
  | startFailed (request : ReqId) (fate : Fate)
  /-- An ingress request was rejected on arrival. -/
  | rejected (request : ReqId)
  /-- A call failed before its attempt ran. -/
  | dependencyFailed (request : ReqId) (fate : Fate)
  /-- `FinalizeRequest` was called. -/
  | finalized (request : ReqId)
  /-- A timed-out asynchronous request completed and was not finalised. -/
  | completedAfterAsyncTimeout (request : ReqId)
  /-- The last call of a waiting request resolved, but the request was not found. -/
  | parentUnknown (request : ReqId)
  /-- A publish of a request is acknowledged at a time. -/
  | publishAck (request : ReqId) (time : Time)
  /-- The finalisation of a publisher is deferred until a time. -/
  | finalizeDeferred (request : ReqId) (deadline : Time)
  /-- The last call of a request resolved before its publish acknowledgement. -/
  | heldForAck (request : ReqId)
  /-- The publish acknowledgement of a request passed while it waited for its calls. -/
  | ackPassed (request : ReqId)
  /-- A request finished its local work. -/
  | workDone (request : ReqId) (time : Time)
  /-- A timed-out consumer finished its local work. -/
  | completedAfterAckTimeout (request : ReqId)
  /-- The acknowledgement deadline of a consumer passed after its local work was finished. -/
  | ackTimeoutAfterWork (request : ReqId)
  /-- The acknowledgement deadline passed before the consumer started, or after it failed. -/
  | ackTimeoutIgnored (request : ReqId)
  /-- A message was dispatched to a consumer request. -/
  | dispatched (request : ReqId) (delivery : Delivery) (time : Time)
  /-- The delivery of a consumer request gave back its in-flight slot. -/
  | released (request : ReqId) (shard : ShardRef)
  /-- A timed-out message went back to its shard with a new redelivery count. -/
  | requeued (request : ReqId) (redeliveries : Int) (time : Time)
  /-- A timed-out message was sent to the dead-letter handler. -/
  | deadLettered (request : ReqId) (time : Time)
  /-- A popped message found no parsable consumer target. -/
  | consumerTargetInvalid (shard : ShardRef)
  /-- A popped message found no parent request, or no consumer service. -/
  | consumerParentMissing (shard : ShardRef)
  /-- A popped message found no consumer instance. -/
  | consumerNoInstance (shard : ShardRef)
  /-- An outcome was reported to the circuit breaker, if one is configured. -/
  | breaker (request : ReqId) (success : Bool)
  /-- An instance was told to drain while a start on it was pending. -/
  | busyDrain (instanceID : String)
deriving DecidableEq

/-! ### The run state -/

/-- A pseudo-random stream: the value of the `i`-th draw, if it is uniform or normal. -/
structure RandomStream where
  float64 : Nat → ℚ
  normFloat64 : Nat → ℚ
  float64_nonneg : ∀ i, 0 ≤ float64 i
  float64_lt_one : ∀ i, float64 i < 1

/-- The verdict of the rate limiter and the circuit breaker on an arrival. -/
inductive Admission where
  | admitted
  | rateLimited
  | circuitOpen
deriving DecidableEq

/-- The fixed inputs of a run. `sampled` tells which finalised requests are retained, `admission`
what the rate limiter and the circuit breaker say about each ingress request. -/
structure Env where
  scenario : Scenario
  rng : RandomStream
  branching : RandomStream
  routing : RoutingOracle
  sampled : ReqId → Bool := fun _ => true
  admission : ReqId → Admission := fun _ => .admitted
  simEndTime : Option Time := none

structure State where
  eng : Engine EventKind := {}
  run : RunManager := {}
  heap : List Request := []
  pendingSync : ReqId → Option Nat := fun _ => none
  rm : Manager := {}
  brokers : BrokerQueues := {}
  topicPartitionCursor : String → Nat := fun _ => 0
  draws : Nat := 0
  branchDraws : Nat := 0
  nextMsg : Nat := 0
  samples : List Sample := []
  calls : List ReqId := []
  trace : List Obs := []
  backdated : Bool := false

namespace State

/-- Current simulation time. -/
def now (s : State) : Time :=
  s.eng.simTime

/-- The request with a given name. -/
def req (s : State) (r : ReqId) : Request :=
  s.heap.getD r default

/-- `GetRequest`: active or retained requests only. -/
def getRequest (s : State) (r : ReqId) : Option Request :=
  if s.run.knows r then some (s.req r) else none

/-- Writes through the pointer to a request. -/
def update (s : State) (r : ReqId) (f : Request → Request) : State :=
  { s with heap := s.heap.modify r f }

/-- Allocates a request; its name is the old heap length. -/
def alloc (s : State) (q : Request) : State :=
  { s with heap := s.heap ++ [q] }

def scheduleAt (s : State) (t : Time) (k : EventKind) : State :=
  { s with eng := s.eng.scheduleAt t k }

def scheduleStart (s : State) (t : Time) (r : ReqId) (instanceID : String) : State :=
  (s.update r fun q => { q with stage := .queued }).scheduleAt t (.requestStart r instanceID)

def scheduleComplete (s : State) (t : Time) (r : ReqId) : State :=
  (s.update r fun q => { q with stage := .running }).scheduleAt t (.requestComplete r)

def observe (s : State) (o : Obs) : State :=
  { s with trace := o :: s.trace }

/-- Records a sample at a given time. -/
def recordAt (s : State) (t : Time) (metric : Metric) (value : ℚ) (labels : Labels)
    (subject : Option ReqId) : State :=
  { s with samples := ⟨metric, value, t, labels, subject⟩ :: s.samples }

/-- Records a sample now. -/
def record (s : State) (metric : Metric) (value : ℚ) (labels : Labels) (subject : Option ReqId) :
    State :=
  s.recordAt s.now metric value labels subject

/-- `AddRequest`; a refusal latches a guardrail error through the cap's callback. -/
def addRequest (s : State) (r : ReqId) : State :=
  match s.run.refusal with
  | some err => { s with eng := s.eng.refuseRequest r err }
  | none => { s with run := s.run.addRequest r }

def finalizeRequest (env : Env) (s : State) (r : ReqId) : State :=
  let failed := (s.req r).status = .failed ∨ (s.req r).error ≠ ""
  { s with run := s.run.finalizeRequest r failed (env.sampled r) }.observe (.finalized r)

/-- A uniform draw. -/
def float64 (env : Env) (s : State) : ℚ × State :=
  (env.rng.float64 s.draws, { s with draws := s.draws + 1 })

/-- A normal draw with mean and standard deviation. -/
def normFloat64 (env : Env) (s : State) (mean sigma : ℚ) : ℚ × State :=
  (env.rng.normFloat64 s.draws * sigma + mean, { s with draws := s.draws + 1 })

end State

end SimCore.Simd
