import SimCore.Protocol.Flow

/-!
# The actions of the protocol

Every handler is a sequence of the actions below. An action says what it needs of the protocol state
and what it changes; what the needs do not say follows from the invariants of the protocol. The
branches that the source takes for routing and configuration reasons appear as different actions
with the same needs. Between two handlers the event loop takes the next event, or the run is driven
from outside; these are the moves.

An event is issued for a time that is not before the present one, unless it is a retry: the backoff
of a retry policy may be negative.

## Main definitions

* `Role`, `role`: what an event stands for
* `Flow.Fits`: the data of an event agree with the jobs
* `Act`, `Acts`: the actions and their sequences
* `Move`: what happens between two handlers
* `Turn`, `Turns`, `Reached`: the protocol states that actions and moves can reach
-/

namespace SimCore.Simd

open Resource Interaction

/-- The job of a spawned request. -/
def SpawnCore.job (c : SpawnCore) (now : Time) (status : Status) (stage : Stage)
    (instanceID : Option String) : Job where
  parent := some c.parent
  serviceName := c.serviceID
  endpoint := c.endpointPath
  arrivalTime := now
  traceDepth := c.traceDepth
  asyncDepth := c.asyncDepth
  downstreamAsync := c.isAsync
  retryAttempt := c.retryAttempt
  status := status
  instanceID := instanceID
  stage := stage
  call := c.call
  onBehalf := c.onBehalf
  edge := c.edge

/-- The spawn that replaces an attempt. -/
def Job.retryCore (j : Job) (p : ReqId) (isAsync : Bool) : SpawnCore where
  parent := p
  serviceID := j.serviceName
  endpointPath := j.endpoint
  traceDepth := j.traceDepth
  asyncDepth := j.asyncDepth
  isAsync := isAsync
  retryAttempt := j.retryAttempt + 1
  call := j.call
  onBehalf := j.onBehalf
  edge := j.edge

/-- The spawn of a declared call of a request. -/
def Job.edgeCore (j : Job) (r : ReqId) (rc : ResolvedCall) (isAsync : Bool) (call : Option CallId) :
    SpawnCore where
  parent := r
  serviceID := rc.serviceID
  endpointPath := rc.path
  traceDepth := j.traceDepth + 1
  asyncDepth := if isAsync then j.asyncDepth + 1 else j.asyncDepth
  isAsync := isAsync
  call := call
  edge := some rc

def consumerJob (del : Delivery) (now : Time) (svc path instanceID : String) : Job where
  parent := some del.message.parentRequestID
  serviceName := svc
  endpoint := path
  arrivalTime := now
  traceDepth := del.message.metadata.traceDepth
  asyncDepth := del.message.metadata.asyncDepth
  retryAttempt := del.message.metadata.retryAttempt
  instanceID := some instanceID
  delivery := some del
  stage := .queued
  onBehalf := some del

/-- A start draws the execution profile of a job on an instance; `cache` tells a hit from a miss. -/
@[simps] def Job.drawn (instanceID : String) (cache : Option Bool) (j : Job) : Job :=
  { j with instanceID := if instanceID = "" then j.instanceID else some instanceID
           cacheHit := j.cacheHit || cache == some true
           cacheMiss := j.cacheMiss || cache == some false
           profileDraws := j.profileDraws + 1 }

/-- A start uses a CPU interval of an instance: a new one, or the one that deferred it. -/
@[simps!] def Job.begun (instanceID : String) (cache : Option Bool) (fresh : Option Reservation)
    (j : Job) : Job :=
  { j.drawn instanceID cache with cpuDeferred := none, reservation := fresh <|> j.reservation }

/-- The spawn in question can be carried on: its caller's CPU interval is sound. -/
structure OverheadData.Sound (o : OverheadData) : Prop where
  start_le : o.reservedCPUStart ≤ o.reservedCPUEnd
  delivery : ∀ ms, o.deliveryMs = some ms → 0 ≤ ms

/-- The events of the caller's CPU work for a spawn, the later one first. -/
def OverheadData.events (o : OverheadData) : List (Time × EventKind) :=
  [(o.reservedCPUEnd, .callerOverheadEnd o), (o.reservedCPUStart, .callerOverheadStart o)]

end SimCore.Simd

namespace SimCore.Protocol

open Simd Resource Config Interaction

/-! ### What events stand for -/

/-- The part of a spawn that its child inherits as a job. -/
abbrev core (d : SpawnData) : SpawnCore :=
  d.toSpawnCore

/-- What an event stands for in the protocol. -/
inductive Role where
  /-- The start of a request. -/
  | start (r : ReqId)
  /-- The completion of a request's local work. -/
  | complete (r : ReqId)
  /-- The publish acknowledgement of a request. -/
  | finalize (r : ReqId)
  /-- A spawn on its way to an attempt. -/
  | spawn (c : SpawnCore)
  /-- The timeout of a call. -/
  | timeout (r p : ReqId) (isAsync : Bool)
  /-- The beginning of the caller's CPU work for a spawn. -/
  | overhead (c : SpawnCore)
  /-- A message on its way to a broker, with its depths. -/
  | publish (p : ReqId) (td ad : Int)
  /-- A shard may dispatch. -/
  | dequeue (ref : ShardRef)
  /-- The acknowledgement deadline of a delivery. -/
  | ack (r : ReqId) (del : Delivery)
  /-- A topic offset on its way to the dead-letter handler. -/
  | deadLetter (ref : ShardRef) (o : Nat)
  /-- An event that the protocol does not depend on. -/
  | other
deriving DecidableEq

/-- What an event stands for in the protocol. -/
def role : EventKind → Role
  | .requestStart r _ => .start r
  | .requestComplete r => .complete r
  | .asyncParentFinalize r => .finalize r
  | .downstreamCall d => .spawn (core d)
  | .downstreamRetry d => .spawn (core d)
  | .callerOverheadEnd o => .spawn (core o.spawn)
  | .downstreamTimeout r p isAsync => .timeout r p isAsync
  | .callerOverheadStart o => .overhead (core o.spawn)
  | .queueEnqueue d => .publish d.parent d.traceDepth d.asyncDepth
  | .topicPublish d => .publish d.parent d.traceDepth d.asyncDepth
  | .queueDequeue b t => .dequeue (.queue b t)
  | .topicDequeue b t g p => .dequeue (.topic b t p g)
  | .queueAckTimeout d => .ack d.child ⟨.queue d.brokerID d.topic, d.message⟩
  | .topicAckTimeout d =>
    .ack d.child ⟨.topic d.brokerID d.topic d.partition d.group, d.message⟩
  | .topicDLQ b t g p o => .deadLetter (.topic b t p g) o
  | _ => .other

-- only the kind of an event unfolds its role
attribute [simp] role.eq_1 role.eq_2 role.eq_3 role.eq_4 role.eq_5 role.eq_6 role.eq_7 role.eq_8
  role.eq_9 role.eq_10 role.eq_16

section Roles

variable (r : ReqId) (ref : ShardRef)

theorem role_of_external {k : EventKind} (hk : k.external = true) : role k = .other := by
  cases k <;> first | rfl | cases hk

def dequeueEvent : ShardRef → EventKind
  | .queue b t => .queueDequeue b t
  | .topic b t p g => .topicDequeue b t g p

@[simp] theorem role_dequeueEvent : role (dequeueEvent ref) = .dequeue ref := by
  cases ref <;> rfl

/-- The acknowledgement deadline event of a delivery. -/
def ackEvent (r : ReqId) (ref : ShardRef) (m : QueuedMessage) : EventKind :=
  match ref with
  | .queue b t => .queueAckTimeout { child := r, brokerID := b, topic := t, message := m }
  | .topic b t p g =>
    .topicAckTimeout { child := r, brokerID := b, topic := t, group := g, partition := p
                       message := m }

@[simp] theorem role_ackEvent (m : QueuedMessage) : role (ackEvent r ref m) = .ack r ⟨ref, m⟩ := by
  cases ref <;> rfl

/-- The event that takes a message to the dead-letter handler. -/
def deadLetterEvent (ref : ShardRef) (m : QueuedMessage) : EventKind :=
  match ref with
  | .queue b t => .queueDLQ b t
  | .topic b t p g => .topicDLQ b t g p m.topicOffset

/-- What a dead letter stands for: only topics keep the offset. -/
def deadLetterRole (ref : ShardRef) (m : QueuedMessage) : Role :=
  match ref with
  | .queue _ _ => .other
  | .topic _ _ _ _ => .deadLetter ref m.topicOffset

@[simp] theorem role_deadLetterEvent (m : QueuedMessage) :
    role (deadLetterEvent ref m) = deadLetterRole ref m := by
  cases ref <;> rfl

theorem deadLetterRole_cases (m : QueuedMessage) :
    deadLetterRole ref m = .other ∨ deadLetterRole ref m = .deadLetter ref m.topicOffset := by
  cases ref
  · exact .inl rfl
  · exact .inr rfl

end Roles

/-- Events that may be over without an effect on the protocol. -/
def plain : EventKind → Bool
  | .downstreamTimeout _ _ _ => true
  | .simulationEnd => true
  | .drainSweep => true
  | .workloadGenerate => true
  | .queueDLQ _ _ => true
  | .topicRetentionExpire _ _ _ _ => true
  | _ => false

theorem role_of_plain {k : EventKind} (hk : plain k = true) :
    (∃ r p isAsync, k = .downstreamTimeout r p isAsync) ∨ role k = .other := by
  cases k <;> first | exact .inl ⟨_, _, _, rfl⟩ | exact .inr rfl | cases hk

/-- The consumer groups of a topic, in delivery order. -/
def subscriberGroups (env : Env) (brokerID : String) : List String :=
  (topicSubscribers env brokerID).map fun sub => trimSpace sub.consumerGroup

/-! ### Configuration -/

/-- The limit on retries in force. -/
def retryLimit (env : Env) : Int :=
  match Policy.activeRetryPolicy env.scenario with
  | some p => p.maxRetries
  | none => 0

/-- The retry policy in force never schedules a retry in the past. -/
def Forward (env : Env) : Prop :=
  ∀ p, Policy.activeRetryPolicy env.scenario = some p →
    ∀ attempt, 0 ≤ Policy.getBackoffDuration p attempt

/-- Whether a service is a queue or a topic. -/
def brokerService (env : Env) (svc : String) : Bool :=
  match env.scenario.service? svc with
  | some tgt => tgt.kindNorm == "queue" || tgt.kindNorm == "topic"
  | none => false

/-- The limits on trace expansion allow the depths of a request. -/
def Allowed (env : Env) (td ad : Int) : Prop :=
  ∀ lim, env.scenario.simulationLimits = some lim →
    (0 < lim.maxTraceDepth → td ≤ lim.maxTraceDepth) ∧
      (0 < lim.maxAsyncHops → ad ≤ lim.maxAsyncHops)

/-- A request may make a declared call, synchronously or not. -/
structure Selected (env : Env) (j : Job) (rc : ResolvedCall) (isAsync : Bool) : Prop where
  declared : rc ∈ downstreamEdges env.scenario j.serviceName j.endpoint
  within : withinLimits env.scenario rc j.traceDepth j.asyncDepth = true
  mode : (usesAsyncBroker env.scenario rc || rc.call.isAsync) = isAsync

/-- A sample of the service latency of a request. -/
def LatencySample (r : ReqId) (x : Sample) : Prop :=
  x.metric = .serviceRequestLatency ∧ x.subject = some r

/-! ### Shards -/

/-- A shard without history. -/
structure FreshShard (sh : Shard) : Prop where
  messages : sh.messages = []
  inFlight : sh.inFlight = 0
  maxConcurrency : 0 < sh.maxConcurrency
  nextCommit : sh.nextCommitExclusive = 0
  pendingCommit : sh.pendingCommit = []
  retention : sh.retentionNextFireScheduled = none

/-- The shard after the acknowledgement of a delivery. -/
def acknowledged (del : Delivery) (sh : Shard) : Shard :=
  match del.shard with
  | .queue _ _ => sh.consumerFinished
  | .topic _ _ _ _ => sh.consumerFinished.recordTopicOffsetProcessed del.message.topicOffset

/-- The shard after a message reached it; a topic records the offset that is not stored. -/
def delivered (ref : ShardRef) (sh : Shard) (m : QueuedMessage) : Shard :=
  let (res, sh') := sh.enqueue m
  match ref with
  | .queue _ _ => sh'
  | .topic _ _ _ _ =>
    if res.accepted = false then sh'.recordTopicOffsetProcessed m.topicOffset
    else if res.droppedOldest then sh'.recordTopicOffsetProcessed res.evictedTopicOffset
    else sh'

/-- The name under which the delivery of a message is booked. -/
def booked (ref : ShardRef) (m : QueuedMessage) : ShardRef :=
  match ref with
  | .queue b t => .queue b t
  | .topic b t _ g => .topic b t m.metadata.partition g

/-- Acknowledgement timeout of a shard in milliseconds. -/
def ackTimeoutOf (env : Env) (ref : ShardRef) (sh : Shard) : ℚ :=
  match ref with
  | .queue b _ => (effectiveQueueForBroker env.scenario b).ackTimeoutMs
  | .topic _ _ _ _ => sh.ackTimeoutMs

/-- Redeliveries that a shard allows. -/
def redeliveryLimit (env : Env) (ref : ShardRef) (sh : Shard) : Int :=
  match ref with
  | .queue b _ => (effectiveQueueForBroker env.scenario b).maxRedeliveries
  | .topic _ _ _ _ => sh.maxRedeliveries

/-- The deadline of a delivery dispatched now, if its shard has an acknowledgement timeout. -/
def ackDeadline (env : Env) (now : Time) (r : ReqId) (ref : ShardRef) (sh : Shard)
    (m : QueuedMessage) : List (Time × EventKind) :=
  if ackTimeoutOf env ref sh > 0 then
    [(now + wholeMsToDuration (ackTimeoutOf env ref sh), ackEvent r ref m)]
  else []

/-- Retention of a shard in milliseconds; queues have none. -/
def retentionOf (env : Env) : ShardRef → Int
  | .queue _ _ => 0
  | .topic b _ _ _ => (effectiveTopicForBroker env.scenario b).retentionMs

/-- The time for which a shard has to schedule its next retention check, if it has to. -/
def nextRetention (env : Env) (now : Time) (ref : ShardRef) (sh : Shard) : Option Time :=
  if retentionOf env ref ≤ 0 then none
  else
    match sh.oldestQueuedEnqueueTime with
    | none => none
    | some t =>
      if sh.shouldScheduleRetentionAt (max now (t + retentionOf env ref * millisecond)) then
        some (max now (t + retentionOf env ref * millisecond))
      else none

/-- The shard after its next retention check has been scheduled. -/
def armed (env : Env) (now : Time) (ref : ShardRef) (sh : Shard) : Shard :=
  match nextRetention env now ref sh with
  | some t => { sh with retentionNextFireScheduled := some t }
  | none => sh

/-- The retention check of a shard; queues have none. -/
def retentionEvent : ShardRef → EventKind
  | .queue b t => .topicRetentionExpire b t "" 0
  | .topic b t p g => .topicRetentionExpire b t g p

@[simp] theorem role_retentionEvent (ref : ShardRef) : role (retentionEvent ref) = .other := by
  cases ref <;> rfl

/-- The event of the next retention check, if it has to be scheduled. -/
def retentionEvents (env : Env) (now : Time) (ref : ShardRef) (sh : Shard) :
    List (Time × EventKind) :=
  match nextRetention env now ref sh with
  | some t => [(t, retentionEvent ref)]
  | none => []

/-- The shard after a retention check: expired messages are gone and count as processed. -/
def purged (env : Env) (now : Time) (ref : ShardRef) (sh : Shard) : Shard :=
  let res := { sh with retentionNextFireScheduled := none }.expireQueuedByRetention now
    (retentionOf env ref)
  res.1.foldl Shard.recordTopicOffsetProcessed res.2

/-- A shard that lost messages may dispatch. -/
def purgedEvents (env : Env) (now : Time) (ref : ShardRef) (sh : Shard) : List (Time × EventKind) :=
  if (sh.expired now (retentionOf env ref)).isEmpty then [] else [(now, dequeueEvent ref)]

/-- A message that a publisher has handed to a broker. -/
structure Posted (now : Time) (id : Nat) (d : PublishData) (m : QueuedMessage) : Prop where
  id_eq : m.id = id
  time : m.enqueueTime = now
  redeliveries : m.redeliveries = 0
  parent : m.parentRequestID = d.parent
  traceDepth : m.metadata.traceDepth = d.traceDepth
  asyncDepth : m.metadata.asyncDepth = d.asyncDepth

/-! ### Calls -/

/-- The events that launch one logical call of a request. -/
inductive Launch (env : Env) (f : Flow) (r : ReqId) (k : CallId) : List (Time × EventKind) → Prop
  | call (t : Time) (d : SpawnData) (rc : ResolvedCall) (hs : Selected env (f.job r) rc false)
      (hd : core d = (f.job r).edgeCore r rc false (some k)) (hm : d.timeoutMs = rc.call.timeoutMs)
      (ht : f.now ≤ t) : Launch env f r k [(t, .downstreamCall d)]
  | overhead (o : OverheadData) (rc : ResolvedCall) (hs : Selected env (f.job r) rc false)
      (hd : core o.spawn = (f.job r).edgeCore r rc false (some k)) (hr : o.fromRetry = false)
      (ho : o.Sound) (ht : f.now ≤ o.reservedCPUStart) (hi : f.ledger.Has o.instanceID) :
      Launch env f r k o.events

/-- The events that launch `n` logical calls of a request, numbered from `k`. -/
inductive Launches (env : Env) (f : Flow) (r : ReqId) :
    CallId → Nat → List (Time × EventKind) → Prop
  | nil (k : CallId) : Launches env f r k 0 []
  | cons {k : CallId} {n : Nat} {es es' : List (Time × EventKind)} (h : Launch env f r k es)
      (hs : Launches env f r (k + 1) n es') : Launches env f r k (n + 1) (es' ++ es)

namespace Flow

/-- The settings that an attempt finds for its edge, by its target. -/
def edgeFor (env : Env) (f : Flow) (c : SpawnCore) : DownstreamCall :=
  (resolveDownstreamCallSpec env.scenario (f.job c.parent).serviceName (f.job c.parent).endpoint
    c.serviceID c.endpointPath).getD {}

/-- The timeout of the attempt that an event spawns: a call event carries it. -/
def timeoutFor (env : Env) (f : Flow) (c : SpawnCore) : EventKind → ℚ
  | .downstreamCall d => d.timeoutMs
  | _ => (f.edgeFor env c).timeoutMs

/-- The attempt that an event spawns, as the trace shows it. -/
def attempt (env : Env) (f : Flow) (k : EventKind) (c : SpawnCore) : Obs :=
  .attempted f.size c.edge (f.timeoutFor env c k) (f.edgeFor env c).failureRate
    (f.edgeFor env c).isRetryable

/-- The timeout of the attempt that an event spawns, if it has one. -/
def timeoutEvents (env : Env) (f : Flow) (k : EventKind) (c : SpawnCore) :
    List (Time × EventKind) :=
  if f.timeoutFor env c k > 0 then
    [(f.now + wholeMsToDuration (f.timeoutFor env c k),
      .downstreamTimeout f.size c.parent c.isAsync)]
  else []

/-- The depths that the children of a request get. -/
structure FitsDepth (env : Env) (f : Flow) (p : ReqId) (isAsync : Bool) (td ad : Int) : Prop where
  trace : td = (f.job p).traceDepth + 1
  async : ad = if isAsync then (f.job p).asyncDepth + 1 else (f.job p).asyncDepth
  allowed : Allowed env td ad

/-- The data of a spawn agree with the jobs and calls. -/
structure FitsSpawn (env : Env) (f : Flow) (c : SpawnCore) : Prop where
  parent_lt : c.parent < f.size
  depth : f.FitsDepth env c.parent (c.isAsync || c.onBehalf.isSome) c.traceDepth c.asyncDepth
  edge : ∀ rc, c.edge = some rc → rc.serviceID = c.serviceID ∧ rc.path = c.endpointPath ∧
    (usesAsyncBroker env.scenario rc || rc.call.isAsync) = c.isAsync ∧
    rc ∈ downstreamEdges env.scenario (f.job c.parent).serviceName (f.job c.parent).endpoint
  declared : c.edge.isNone = c.onBehalf.isSome
  reason : c.isAsync = true ∨ c.call.isSome = true ∨ c.onBehalf.isSome = true
  owner : ∀ k, c.call = some k → f.calls[k]? = some c.parent ∧ c.isAsync = false ∧
    c.onBehalf = none ∧ 0 ≤ c.retryAttempt ∧ brokerService env c.serviceID = false

/-- The data of an event agree with the jobs and calls. -/
def Fits (env : Env) (f : Flow) : Role → Prop
  | .start r | .complete r | .finalize r => r < f.size
  | .publish p td ad => p < f.size ∧ f.FitsDepth env p true td ad
  | .spawn c | .overhead c => f.FitsSpawn env c
  | .timeout r p isAsync => (f.job r).parent = some p ∧ (f.job r).downstreamAsync = isAsync
  | .ack r del => (f.job r).delivery = some del
  | _ => True

end Flow

/-- The counter of a request that waits for `n` calls; an exhausted counter is removed. -/
def countdown (n : Nat) : Option Nat :=
  if n = 0 then none else some n

/-- What is in hand after the counter of `p` went down to `n`. -/
def lastCall (p : ReqId) (n : Nat) : Hand :=
  if n = 0 then .due p false else .free

/-- What is in hand after a request was closed: its parent learns of it. -/
def reportTo (r : ReqId) (failed : Bool) : Option ReqId → Hand
  | some p => .report r p failed
  | none => .free

/-- The CPU interval that a start uses: it reserves one now, or an earlier start has done so. -/
inductive Flow.Admits (f : Flow) (r : ReqId) (cpuMs : ℚ) : Option Reservation → Prop
  | fresh (res : Reservation) (hd : (f.job r).cpuDeferred = none) (hn : res.start ≤ f.now)
      (hc : res.finish = res.start + ServiceInstance.cpuServiceTime res.cores cpuMs) :
      f.Admits r cpuMs (some res)
  | deferred (span : Time × Time) (hd : (f.job r).cpuDeferred = some span) : f.Admits r cpuMs none

namespace Flow

/-- A message reaches a shard; an accepted one lets the shard dispatch. -/
@[simps] def store (env : Env) (f : Flow) (ref : ShardRef) (sh : Shard) (m : QueuedMessage) :
    Flow :=
  { f with nextMsg := f.nextMsg + 1
           shards := Function.update f.shards ref
             (some (if (sh.enqueue m).1.accepted then armed env f.now ref (delivered ref sh m)
               else delivered ref sh m))
           events := if (sh.enqueue m).1.accepted then
               (f.now, dequeueEvent ref) ::
                 (retentionEvents env f.now ref (delivered ref sh m) ++ f.events)
             else f.events }

/-- Writes a shard and schedules its next retention check. -/
@[simps] def rearm (env : Env) (f : Flow) (ref : ShardRef) (sh : Shard) : Flow :=
  { f with shards := Function.update f.shards ref (some (armed env f.now ref sh))
           events := retentionEvents env f.now ref sh ++ f.events }

/-- Assigns the next offset of a partition. -/
@[simps] def advance (f : Flow) (b t : String) (p : Nat) : Flow :=
  { f with watermark := fun b' t' p' =>
      if b' = b ∧ t' = t ∧ p' = p then f.watermark b t p + 1 else f.watermark b' t' p' }

/-- The shard under a name, or a new one. -/
def Finds (f : Flow) (ref : ShardRef) (sh : Shard) : Prop :=
  f.shards ref = some sh ∨ f.shards ref = none ∧ FreshShard sh

end Flow

/-! ### Actions -/

/-- The actions of the handlers. -/
inductive Act (env : Env) : Flow → Flow → Prop
  /-- An event is over without an effect on the protocol. -/
  | discard {f : Flow} (t : Time) (k : EventKind) (hh : f.hand = .event t k)
      (hk : plain k = true) : Act env f (f.take .free)
  /-- The drain sweep goes on. -/
  | sweepAgain {f : Flow} (t t' : Time) (hh : f.hand = .event t .drainSweep) (ht : f.now ≤ t') :
      Act env f ((f.issue t' .drainSweep).take .free)
  /-- Drained instances are removed. -/
  | drain {f : Flow} (t : Time) (k : EventKind) (L : Ledger) (hh : f.hand = .event t k)
      (hL : f.ledger.Drained f.now L) : Act env f (f.setLedger L)
  /-- An ingress request arrives and is about to start. -/
  | accept {f : Flow} (t : Time) (d : ArrivalData) (x : Sample) (i : String)
      (hh : f.hand = .event t (.requestArrival d)) (hx : x.metric = .requestCount)
      (hl : observedSample x = true) (hi : f.ledger.Routable i) :
      Act env f (((((f.addJob
        { serviceName := d.serviceID, endpoint := d.endpointPath, arrivalTime := f.now
          instanceID := some i, stage := .queued }).register f.size).sample x).issue f.now
            (.requestStart f.size i)).take .free)
  /-- An ingress request is rejected. -/
  | reject {f : Flow} (t : Time) (d : ArrivalData) (x : Sample) (lbl : Labels) (i : Option String)
      (hh : f.hand = .event t (.requestArrival d)) (hx : x.metric = .requestCount)
      (hl : observedSample x = true) :
      Act env f ((((((f.addJob
        { serviceName := d.serviceID, endpoint := d.endpointPath, arrivalTime := f.now
          instanceID := i, status := .failed }).register f.size).sample x).blame f.size lbl).note
            (.rejected f.size)).take .free)
  /-- A busy instance defers the start of a request. -/
  | startDefer {f : Flow} (t : Time) (r : ReqId) (i : String) (cache : Option Bool)
      (res : Reservation) (hh : f.hand = .event t (.requestStart r i))
      (hd : (f.job r).cpuDeferred = none) (hi : f.ledger.Has i) (hn : f.now < res.start)
      (hc : res.start ≤ res.finish) : Act env f ((((f.setJob r fun j =>
        { j.drawn i cache with stage := .queued, cpuDeferred := some (res.start, res.finish)
                               reservation := some res }).issue res.start
          (.requestStart r i)).note (.startDeferred r)).take .free)
  /-- A request starts. -/
  | startRun {f : Flow} (t t' : Time) (r : ReqId) (i : String) (cache : Option Bool) (cpuMs mb : ℚ)
      (fresh : Option Reservation) (hh : f.hand = .event t (.requestStart r i))
      (hi : f.ledger.Has i) (ha : f.Admits r cpuMs fresh) (hmb : 0 ≤ mb) (ht : f.now ≤ t') :
      Act env f ((((f.setJob r fun j =>
        { j.begun i cache fresh with stage := .running, status := .processing
                                     allocatedCPUMs := some cpuMs
                                     allocatedMemoryMB := some mb }).book i fun a =>
          (a.take mb).enter).issue t' (.requestComplete r)).take .free)
  /-- A start finds no endpoint or service. -/
  | startLost {f : Flow} (t : Time) (r : ReqId) (i : String)
      (hh : f.hand = .event t (.requestStart r i)) :
      Act env f (((f.setJob r fun j => { j with stage := .idle }).note (.startLost r)).take .free)
  /-- A request fails locally at its start. -/
  | startFail {f : Flow} (t : Time) (r : ReqId) (i : String) (cache : Option Bool)
      (hh : f.hand = .event t (.requestStart r i)) :
      Act env f ((f.setJob r fun j =>
        { j.drawn i cache with stage := .idle, status := .failed }).take (.failed r .localFailure))
  /-- The instance of a request does not exist at its start. -/
  | startMissing {f : Flow} (t : Time) (r : ReqId) (i : String) (cache : Option Bool) (lbl : Labels)
      (hh : f.hand = .event t (.requestStart r i)) (hi : ¬ f.ledger.Has i) :
      Act env f ((((f.setJob r fun j =>
        { j.drawn i cache with stage := .idle, status := .failed }).blame r lbl).note
          (.breaker r false)).take (.failed r .resources))
  /-- A request fails at its start for lack of memory. -/
  | startRefuse {f : Flow} (t : Time) (r : ReqId) (i : String) (cache : Option Bool)
      (fresh : Option Reservation) (lbl : Labels) (hh : f.hand = .event t (.requestStart r i)) :
      Act env f ((((f.setJob r fun j =>
        { j.begun i cache fresh with stage := .idle, status := .failed }).blame r lbl).note
          (.breaker r false)).take (.failed r .resources))
  /-- A failed request is replaced by a new attempt. -/
  | retry {f : Flow} (r p : ReqId) (cause : Cause) (t : Time) (d : SpawnData)
      (hh : f.hand = .failed r cause) (hp : (f.job r).parent = some p)
      (ha : (f.job r).downstreamAsync = false) (hl : (f.job r).retryAttempt < retryLimit env)
      (hd : core d = (f.job r).retryCore p false) (ht : Forward env → f.now ≤ t) :
      Act env f (((((f.setJob r fun j => { j with callerSyncResolved := true }).issue t
        (.downstreamRetry d)).noteIf ((f.job r).callerSyncResolved = true)
          (.retryAfterIsolation r)).note (cause.obs r .retried)).take .free)
  /-- A failed request is to be finalised. -/
  | giveUp {f : Flow} (r : ReqId) (cause : Cause) (hh : f.hand = .failed r cause)
      (hc : cause ≠ .resources) :
      Act env f ((f.note (cause.obs r .finalized)).take (.due r true))
  /-- A failed request is left as it is; nobody waits for it. -/
  | drop {f : Flow} (r : ReqId) (hh : f.hand = .failed r .resources)
      (hn : (f.job r).parent = none ∨ (f.job r).downstreamAsync = true ∨
        (f.job r).callerSyncResolved = true) :
      Act env f ((f.note (.startFailed r .dropped)).take .free)
  /-- A failed request is left as it is, and its parent learns of it. -/
  | dropReport {f : Flow} (r p : ReqId) (hh : f.hand = .failed r .resources)
      (hp : (f.job r).parent = some p) :
      Act env f ((f.note (.startFailed r .dropped)).take (.report r p true))
  /-- A report changes nothing: the call is asynchronous, or already resolved. -/
  | reportSkip {f : Flow} (r p : ReqId) (failed : Bool) (hh : f.hand = .report r p failed)
      (hn : (f.job r).downstreamAsync = true ∨ (f.job r).callerSyncResolved = true) :
      Act env f (f.take .free)
  /-- A report finds a parent that does not wait. -/
  | reportIdle {f : Flow} (r p : ReqId) (failed : Bool) (hh : f.hand = .report r p failed)
      (ha : (f.job r).downstreamAsync = false) (hr : (f.job r).callerSyncResolved = false)
      (hn : f.pending p = none ∨ f.pending p = some 0) :
      Act env f ((f.setJob r fun j => { j with callerSyncResolved := true }).take .free)
  /-- A report takes one off the counter of the parent. -/
  | reportCount {f : Flow} (r p : ReqId) (failed : Bool) (n : Nat)
      (hh : f.hand = .report r p failed) (ha : (f.job r).downstreamAsync = false)
      (hr : (f.job r).callerSyncResolved = false) (hn : f.pending p = some (n + 1)) :
      Act env f (((((f.setJob r fun j => { j with callerSyncResolved := true }).setPending p
        (countdown n)).note (.decrement p (f.job r).call f.now)).failSubtree p failed).take
          (lastCall p n))
  /-- A synchronous call times out and is retried. -/
  | timeoutRetry {f : Flow} (t t' : Time) (r p : ReqId) (d : SpawnData)
      (hh : f.hand = .event t (.downstreamTimeout r p false))
      (hr : (f.job r).callerSyncResolved = false) (hs : (f.job r).status ≠ .completed)
      (hl : (f.job r).retryAttempt < retryLimit env) (hd : core d = (f.job r).retryCore p false)
      (ht : Forward env → f.now ≤ t') :
      Act env f ((((f.setJob r fun j =>
        { j with callerSyncResolved := true, syncWaitTimedOut := true }).note
          (.breaker r false)).issue t' (.downstreamRetry d)).take .free)
  /-- A synchronous call times out for good. -/
  | timeoutReport {f : Flow} (t : Time) (r p : ReqId)
      (hh : f.hand = .event t (.downstreamTimeout r p false))
      (hr : (f.job r).callerSyncResolved = false) (hs : (f.job r).status ≠ .completed) :
      Act env f (((f.setJob r fun j => { j with syncWaitTimedOut := true }).note
        (.breaker r false)).take (.report r p true))
  /-- An asynchronous call times out and is retried. -/
  | timeoutAbandon {f : Flow} (t t' : Time) (r p : ReqId) (d : SpawnData)
      (hh : f.hand = .event t (.downstreamTimeout r p true))
      (hs : (f.job r).status ≠ .completed ∧ (f.job r).status ≠ .failed)
      (hl : (f.job r).retryAttempt < retryLimit env) (hd : core d = (f.job r).retryCore p true)
      (ht : Forward env → f.now ≤ t') :
      Act env f ((((f.setJob r fun j => { j with asyncAttemptAbandoned := true }).note
        (.breaker r false)).issue t' (.downstreamRetry d)).take .free)
  /-- An asynchronous call times out for good. -/
  | timeoutGiveUp {f : Flow} (t : Time) (r p : ReqId)
      (hh : f.hand = .event t (.downstreamTimeout r p true))
      (hs : (f.job r).status ≠ .completed ∧ (f.job r).status ≠ .failed) :
      Act env f (((f.setJob r fun j => { j with asyncOpTimedOut := true }).note
        (.breaker r false)).take .free)
  /-- The caller's CPU work for a call begins. -/
  | overheadBegin {f : Flow} (t : Time) (o : OverheadData)
      (hh : f.hand = .event t (.callerOverheadStart o)) (hi : f.ledger.Has o.instanceID) :
      Act env f ((f.book o.instanceID Account.enter).take .free)
  /-- The caller's CPU is not available and the call is retried. -/
  | overheadRetry {f : Flow} (t t' : Time) (o : OverheadData) (d : SpawnData)
      (hh : f.hand = .event t (.callerOverheadStart o)) (hi : ¬ f.ledger.Has o.instanceID)
      (ha : o.spawn.isAsync = false) (hl : o.spawn.retryAttempt < retryLimit env)
      (hd : core d = { core o.spawn with retryAttempt := o.spawn.retryAttempt + 1 })
      (ht : Forward env → f.now ≤ t') :
      Act env f (((f.issue t' (.downstreamRetry d)).note (.overheadFailed o.spawn true)).take .free)
  /-- The caller's CPU is not available, and nobody waits for the call. -/
  | overheadIdle {f : Flow} (t : Time) (o : OverheadData)
      (hh : f.hand = .event t (.callerOverheadStart o)) (hi : ¬ f.ledger.Has o.instanceID)
      (hn : o.spawn.isAsync = true ∨ f.pending o.spawn.parent = none ∨
        f.pending o.spawn.parent = some 0) :
      Act env f ((f.note (.overheadFailed o.spawn false)).take .free)
  /-- The caller's CPU is not available, and the call counts as failed. -/
  | overheadCount {f : Flow} (t : Time) (o : OverheadData) (n : Nat)
      (hh : f.hand = .event t (.callerOverheadStart o)) (hi : ¬ f.ledger.Has o.instanceID)
      (ha : o.spawn.isAsync = false) (hn : f.pending o.spawn.parent = some (n + 1)) :
      Act env f (((((f.note (.overheadFailed o.spawn false)).setPending o.spawn.parent
        (countdown n)).note (.decrement o.spawn.parent o.spawn.call f.now)).setJob o.spawn.parent
          fun j => { j with subtreeFailed := true }).take (lastCall o.spawn.parent n))
  /-- A request that is due has been finalised before. -/
  | dueFinal {f : Flow} (r : ReqId) (failed : Bool) (hh : f.hand = .due r failed)
      (hf : (f.job r).desFinalized = true) : Act env f (f.take .free)
  /-- A publisher whose last call resolved waits for its publish acknowledgement. -/
  | hold {f : Flow} (r : ReqId) (deadline : Time) (hh : f.hand = .due r false)
      (hd : (f.job r).queueAckDeadline = some deadline) (ht : f.now < deadline) :
      Act env f ((f.note (.heldForAck r)).take .free)
  /-- A request that is due is not found. -/
  | unknown {f : Flow} (r : ReqId) (hh : f.hand = .due r false) (hk : f.run.knows r = false) :
      Act env f ((f.note (.parentUnknown r)).take .free)
  /-- The deferred metrics of a publisher are recorded. -/
  | settle {f : Flow} (r : ReqId) (x : Sample) (hh : f.hand = .due r false)
      (hs : (f.job r).subtreeFailed = false) (hd : (f.job r).deferredQueueFinalize = true)
      (ht : ∀ deadline, (f.job r).queueAckDeadline = some deadline → deadline ≤ f.now)
      (hx : LatencySample r x) :
      Act env f ((f.setJob r fun j =>
        { j with deferredQueueFinalize := false, queueAckDeadline := none }).sample x)
  /-- A request completes. -/
  | closeOk {f : Flow} (r : ReqId) (hh : f.hand = .due r false)
      (hf : (f.job r).desFinalized = false) (ha : (f.job r).asyncAttemptAbandoned = false)
      (hs : (f.job r).status ≠ .failed)
      (ho : ((f.job r).asyncOpTimedOut && (f.job r).downstreamAsync) = false)
      (ht : ∀ deadline, (f.job r).queueAckDeadline = some deadline → deadline ≤ f.now) :
      Act env f (((((f.setJob r fun j =>
        { j with desFinalized := true, status := .completed, completionTime := some f.now }).noteIf
          ((f.job r).syncWaitTimedOut = true ∧ (f.job r).callerSyncResolved = false)
            (.breaker r false)).noteIf ((f.job r).syncWaitTimedOut = false)
              (.breaker r true)).close r).take (reportTo r false (f.job r).parent))
  /-- An abandoned asynchronous request completes. -/
  | closeAbandoned {f : Flow} (r : ReqId) (hh : f.hand = .due r false)
      (hf : (f.job r).desFinalized = false) (ha : (f.job r).asyncAttemptAbandoned = true) :
      Act env f (((f.setJob r fun j =>
        { j with desFinalized := true, status := .completed
                 completionTime := some f.now }).close r).take .free)
  /-- A request that has already failed completes. -/
  | closeStale {f : Flow} (r : ReqId) (hh : f.hand = .due r false)
      (hf : (f.job r).desFinalized = false) (hs : (f.job r).status = .failed) :
      Act env f (((f.setJob r fun j =>
        { j with desFinalized := true
                 completionTime := some (j.completionTime.getD f.now) }).close r).take .free)
  /-- A timed-out asynchronous request completes and is not handed over. -/
  | closeTimedOut {f : Flow} (r : ReqId) (hh : f.hand = .due r false)
      (hf : (f.job r).desFinalized = false) (hs : (f.job r).status ≠ .failed)
      (ha : (f.job r).asyncAttemptAbandoned = false)
      (ho : ((f.job r).asyncOpTimedOut && (f.job r).downstreamAsync) = true) :
      Act env f ((((f.setJob r fun j =>
        { j with desFinalized := true, status := .completed
                 completionTime := some f.now }).note (.breaker r false)).note
          (.completedAfterAsyncTimeout r)).take .free)
  /-- A request fails. -/
  | closeFailed {f : Flow} (r : ReqId) (failed : Bool) (lbl : Labels) (hh : f.hand = .due r failed)
      (hw : failed = true ∨ (f.job r).subtreeFailed = true)
      (hf : (f.job r).desFinalized = false) :
      Act env f (((((f.setJob r fun j =>
        { j with desFinalized := true, status := .failed, completionTime := some f.now }).blame r
          lbl).note (.breaker r false)).close r).take (reportTo r true (f.job r).parent))
  /-- A closed request is handed over to the run manager. -/
  | finish {f : Flow} (r : ReqId) (c : List ReqId) (failed sampled : Bool) (hh : f.hand = .free)
      (hc : f.closing = r :: c) : Act env f (f.handOver r failed sampled)
  /-- An attempt is created and starts; it may time out. -/
  | spawnStart {f : Flow} (t : Time) (k : EventKind) (c : SpawnCore) (i : String)
      (hh : f.hand = .event t k) (hk : role k = .spawn c) (hi : f.ledger.Routable i) :
      Act env f (((((((f.arrive k).addJob (c.job f.now .pending .queued (some i))).register
        f.size).note (f.attempt env k c)).issue f.now (.requestStart f.size i)).issueAll
          (f.timeoutEvents env k c)).take .free)
  /-- An attempt fails before it runs. -/
  | spawnFail {f : Flow} (t : Time) (k : EventKind) (c : SpawnCore) (hh : f.hand = .event t k)
      (hk : role k = .spawn c) :
      Act env f (((((f.arrive k).addJob (c.job f.now .failed .idle none)).register f.size).note
        (f.attempt env k c)).take (.failed f.size .dependency))
  /-- An attempt finds no instance. -/
  | spawnLost {f : Flow} (t : Time) (k : EventKind) (c : SpawnCore) (d : SpawnData)
      (hh : f.hand = .event t k) (hk : role k = .spawn c) (hd : core d = c) :
      Act env f (((((f.arrive k).addJob (c.job f.now .failed .idle none)).note
        (f.attempt env k c)).note (.callLost d)).take .free)
  /-- A spawn finds no service. -/
  | spawnNone {f : Flow} (t : Time) (k : EventKind) (c : SpawnCore) (d : SpawnData)
      (hh : f.hand = .event t k) (hk : role k = .spawn c) (hd : core d = c) :
      Act env f (((f.arrive k).note (.callLost d)).take .free)
  /-- A spawn over an edge that publishes. -/
  | spawnPublish {f : Flow} (t t' : Time) (k k' : EventKind) (c : SpawnCore)
      (hh : f.hand = .event t k) (hk : role k = .spawn c)
      (hb : brokerService env c.serviceID = true)
      (hk' : role k' = .publish c.parent c.traceDepth c.asyncDepth) (ht : f.now ≤ t') :
      Act env f (((f.arrive k).issue t' k').take .free)
  /-- A retry first costs the caller CPU time. -/
  | retryOverhead {f : Flow} (t : Time) (d : SpawnData) (o : OverheadData)
      (hh : f.hand = .event t (.downstreamRetry d)) (hd : core o.spawn = core d)
      (hr : o.fromRetry = true) (ho : o.Sound) (ht : f.now ≤ o.reservedCPUStart)
      (hi : f.ledger.Has o.instanceID) : Act env f ((f.issueAll o.events).take .free)
  /-- The caller's CPU time is over and the first attempt is on its way. -/
  | overheadCall {f : Flow} (t t' : Time) (o : OverheadData) (d : SpawnData)
      (hh : f.hand = .event t (.callerOverheadEnd o)) (hr : o.fromRetry = false)
      (hd : core d = { core o.spawn with retryAttempt := 0 })
      (hm : d.timeoutMs = (f.edgeFor env (core o.spawn)).timeoutMs) (ht : f.now ≤ t') :
      Act env f (((f.arrive (.callerOverheadEnd o)).issue t' (.downstreamCall d)).take .free)
  /-- A request finishes its local work. -/
  | complete {f : Flow} (t : Time) (r : ReqId) (hh : f.hand = .event t (.requestComplete r))
      (ha : (f.job r).brokerAckTimedOut = false)
      (hd : ∀ del, (f.job r).delivery = some del → f.shards del.shard = none) :
      Act env f ((((f.release r).setJob r fun j => { j with stage := .worked }).note
        (.workDone r f.now)).take (.done r .opened))
  /-- A consumer finishes its local work and acknowledges its message. -/
  | completeAck {f : Flow} (t : Time) (r : ReqId) (del : Delivery) (sh : Shard)
      (hh : f.hand = .event t (.requestComplete r)) (ha : (f.job r).brokerAckTimedOut = false)
      (hd : (f.job r).delivery = some del) (hs : f.shards del.shard = some sh) :
      Act env f (((((((f.release r).setJob r fun j => { j with stage := .worked }).note
        (.workDone r f.now)).setShard del.shard (acknowledged del sh)).note
          (.released r del.shard)).issue f.now (dequeueEvent del.shard)).take (.done r .opened))
  /-- A timed-out consumer finishes its local work. -/
  | completeLate {f : Flow} (t : Time) (r : ReqId) (hh : f.hand = .event t (.requestComplete r))
      (ha : (f.job r).brokerAckTimedOut = true) :
      Act env f (((((f.release r).setJob r fun j => { j with stage := .worked }).note
        (.workDone r f.now)).note (.completedAfterAckTimeout r)).take .free)
  /-- The service latency of a request is recorded. -/
  | measure {f : Flow} (r : ReqId) (x : Sample) (hh : f.hand = .done r .opened)
      (hx : LatencySample r x) : Act env f ((f.sample x).take (.done r .counted))
  /-- A request makes an asynchronous call. -/
  | callAsync {f : Flow} (r : ReqId) (phase : Phase) (t : Time) (d : SpawnData) (rc : ResolvedCall)
      (hh : f.hand = .done r phase) (hp : phase ≠ .deferred) (hs : Selected env (f.job r) rc true)
      (hd : core d = (f.job r).edgeCore r rc true none) (hm : d.timeoutMs = rc.call.timeoutMs)
      (ht : f.now ≤ t) : Act env f (f.issue t (.downstreamCall d))
  /-- A request publishes. -/
  | publishAsync {f : Flow} (r : ReqId) (phase : Phase) (t : Time) (k : EventKind)
      (rc : ResolvedCall) (hh : f.hand = .done r phase) (hp : phase ≠ .deferred)
      (hs : Selected env (f.job r) rc true)
      (hk : role k = .publish r ((f.job r).traceDepth + 1) ((f.job r).asyncDepth + 1))
      (ht : f.now ≤ t) : Act env f (f.issue t k)
  /-- An asynchronous call or a publish first costs the request CPU time. -/
  | overheadAsync {f : Flow} (r : ReqId) (phase : Phase) (o : OverheadData) (rc : ResolvedCall)
      (hh : f.hand = .done r phase) (hp : phase ≠ .deferred) (hs : Selected env (f.job r) rc true)
      (hd : core o.spawn = (f.job r).edgeCore r rc true none) (hr : o.fromRetry = false)
      (ho : o.Sound) (ht : f.now ≤ o.reservedCPUStart) (hi : f.ledger.Has o.instanceID) :
      Act env f (f.issueAll o.events)
  /-- The time of a publish acknowledgement is known. -/
  | promise {f : Flow} (r : ReqId) (phase : Phase) (t : Time) (hh : f.hand = .done r phase)
      (hp : phase ≠ .deferred) : Act env f (f.note (.publishAck r t))
  /-- A publisher has to wait for its publish acknowledgements. -/
  | defer {f : Flow} (r : ReqId) (deadline : Time) (hh : f.hand = .done r .opened)
      (hp : ∀ t, .publishAck r t ∈ f.trace → t ≤ deadline) (ht : f.now ≤ deadline) :
      Act env f ((((f.setJob r fun j =>
        { j with deferredQueueFinalize := true, queueAckDeadline := some deadline }).issue deadline
          (.asyncParentFinalize r)).note (.finalizeDeferred r deadline)).take (.done r .deferred))
  /-- A request with nothing to wait for is due. -/
  | finishWork {f : Flow} (r : ReqId) (failed : Bool) (hh : f.hand = .done r .counted) :
      Act env f (f.take (.due r failed))
  /-- A request waits for its synchronous calls. -/
  | await {f : Flow} (r : ReqId) (phase : Phase) (n : Nat) (es : List (Time × EventKind))
      (hh : f.hand = .done r phase) (hp : phase ≠ .opened) (hn : 0 < n)
      (hes : Launches env f r f.calls.length n es) :
      Act env f ((((f.setPending r (some n)).addCalls r n).issueAll es).take .free)
  /-- A request waits for its publish acknowledgements only. -/
  | rest {f : Flow} (r : ReqId) (hh : f.hand = .done r .deferred) : Act env f (f.take .free)
  /-- The publish acknowledgement passes while the request waits for its calls. -/
  | ackPassed {f : Flow} (t : Time) (r : ReqId) (n : Nat)
      (hh : f.hand = .event t (.asyncParentFinalize r)) (hn : f.pending r = some (n + 1)) :
      Act env f ((f.note (.ackPassed r)).take .free)
  /-- The publish acknowledgement of a request that waits for nothing else. -/
  | ackDone {f : Flow} (t : Time) (r : ReqId) (x : Sample)
      (hh : f.hand = .event t (.asyncParentFinalize r))
      (hn : f.pending r = none ∨ f.pending r = some 0) (hx : LatencySample r x) :
      Act env f (((f.setJob r fun j =>
        { j with deferredQueueFinalize := false, queueAckDeadline := none }).sample x).take
          (.due r false))
  /-- A message reaches a queue. -/
  | enqueue {f : Flow} (t : Time) (d : PublishData) (topic : String) (sh : Shard)
      (m : QueuedMessage) (hh : f.hand = .event t (.queueEnqueue d))
      (hs : f.Finds (.queue d.brokerID topic) sh) (hm : Posted f.now f.nextMsg d m) :
      Act env f ((f.store env (.queue d.brokerID topic) sh m).take .free)
  /-- A message reaches a topic and takes the next offset of its partition. -/
  | publish {f : Flow} (t : Time) (d : PublishData) (topic : String) (partition : Nat)
      (hh : f.hand = .event t (.topicPublish d)) :
      Act env f ((f.advance d.brokerID topic partition).take
        (.fanout d topic partition (subscriberGroups env d.brokerID)))
  /-- A consumer group receives a published message. -/
  | deliver {f : Flow} (d : PublishData) (topic : String) (partition : Nat) (g : String)
      (gs : List String) (sh : Shard) (m : QueuedMessage)
      (hh : f.hand = .fanout d topic partition (g :: gs))
      (hs : f.Finds (.topic d.brokerID topic partition g) sh) (hm : Posted f.now f.nextMsg d m)
      (ho : m.topicOffset + 1 = f.watermark d.brokerID topic partition)
      (hp : m.metadata.partition = partition) :
      Act env f ((f.store env (.topic d.brokerID topic partition g) sh m).take
        (.fanout d topic partition gs))
  /-- All consumer groups have received the message. -/
  | delivered {f : Flow} (d : PublishData) (topic : String) (partition : Nat)
      (hh : f.hand = .fanout d topic partition []) : Act env f (f.take .free)
  /-- A shard has no message or no free slot. -/
  | dequeueNone {f : Flow} (t : Time) (k : EventKind) (ref : ShardRef) (hh : f.hand = .event t k)
      (hk : role k = .dequeue ref)
      (hs : ∀ sh, f.shards ref = some sh → sh.tryPopForDispatch = none) :
      Act env f (f.take .free)
  /-- A message is dispatched to a consumer request. -/
  | dispatch {f : Flow} (t : Time) (k : EventKind) (ref : ShardRef) (sh sh' : Shard)
      (m : QueuedMessage) (svc path i : String) (hh : f.hand = .event t k)
      (hk : role k = .dequeue ref) (hs : f.shards ref = some sh)
      (hp : sh.tryPopForDispatch = some (m, sh')) (hi : f.ledger.Routable i) :
      Act env f (((((((f.setShard ref sh').addJob (consumerJob ⟨ref, m⟩ f.now svc path i)).register
        f.size).issue f.now (.requestStart f.size i)).note
          (.dispatched f.size ⟨ref, m⟩ f.now)).issueAll
            (ackDeadline env f.now f.size ref sh' m)).take .free)
  /-- A popped message has no consumer target. -/
  | popInvalid {f : Flow} (t : Time) (k : EventKind) (ref : ShardRef) (sh sh' : Shard)
      (m : QueuedMessage) (hh : f.hand = .event t k) (hk : role k = .dequeue ref)
      (hs : f.shards ref = some sh) (hp : sh.tryPopForDispatch = some (m, sh')) :
      Act env f (((f.setShard ref sh').note (.consumerTargetInvalid ref)).take .free)
  /-- A popped message has no parent request. -/
  | popParentless {f : Flow} (t : Time) (k : EventKind) (ref : ShardRef) (sh sh' : Shard)
      (m : QueuedMessage) (hh : f.hand = .event t k) (hk : role k = .dequeue ref)
      (hs : f.shards ref = some sh) (hp : sh.tryPopForDispatch = some (m, sh')) :
      Act env f (((f.setShard ref sh'.consumerFinished).note (.consumerParentMissing ref)).take
        .free)
  /-- A popped message finds no consumer instance and goes back. -/
  | popNoInstance {f : Flow} (t : Time) (k : EventKind) (ref : ShardRef) (sh sh' : Shard)
      (m : QueuedMessage) (hh : f.hand = .event t k) (hk : role k = .dequeue ref)
      (hs : f.shards ref = some sh) (hp : sh.tryPopForDispatch = some (m, sh')) :
      Act env f (((f.rearm env ref (sh'.requeueFront m)).note (.consumerNoInstance ref)).take .free)
  /-- An acknowledgement deadline passes without effect. -/
  | ackIgnore {f : Flow} (t : Time) (k : EventKind) (r : ReqId) (del : Delivery)
      (hh : f.hand = .event t k) (hk : role k = .ack r del)
      (hn : f.run.knows r = false ∨ (f.job r).status ≠ .processing) :
      Act env f ((f.noteIf ((f.job r).stage ≠ .worked) (.ackTimeoutIgnored r)).take .free)
  /-- An acknowledgement deadline passes for a shard that does not exist. -/
  | ackVoid {f : Flow} (t : Time) (k : EventKind) (r : ReqId) (del : Delivery)
      (hh : f.hand = .event t k) (hk : role k = .ack r del)
      (hs : f.shards del.shard = none) : Act env f (f.take .free)
  /-- A consumer fails its deadline and the message goes back to the shard. -/
  | ackRequeue {f : Flow} (t : Time) (k : EventKind) (r : ReqId) (del : Delivery) (sh : Shard)
      (hh : f.hand = .event t k) (hk : role k = .ack r del)
      (hr : f.run.knows r = true) (hp : (f.job r).status = .processing)
      (hs : f.shards del.shard = some sh)
      (hl : del.message.redeliveries + 1 ≤ redeliveryLimit env del.shard sh) :
      Act env f (((((((f.setJob r fun j =>
        { j with status := .failed, brokerAckTimedOut := true }).noteIf
          ((f.job r).stage = .worked) (.ackTimeoutAfterWork r)).note (.released r del.shard)).rearm
            env del.shard ((sh.requeueFront { del.message with
              redeliveries := del.message.redeliveries + 1 }).noteRedelivery)).note
                (.requeued r (del.message.redeliveries + 1) f.now)).issue f.now
                  (dequeueEvent del.shard)).take .free)
  /-- A consumer fails its last deadline and the message goes to the dead-letter handler. -/
  | ackDead {f : Flow} (t : Time) (k : EventKind) (r : ReqId) (del : Delivery) (sh : Shard)
      (hh : f.hand = .event t k) (hk : role k = .ack r del)
      (hr : f.run.knows r = true) (hp : (f.job r).status = .processing)
      (hs : f.shards del.shard = some sh)
      (hl : redeliveryLimit env del.shard sh < del.message.redeliveries + 1) :
      Act env f ((((((((f.setJob r fun j =>
        { j with status := .failed, brokerAckTimedOut := true }).noteIf
          ((f.job r).stage = .worked) (.ackTimeoutAfterWork r)).note
            (.released r del.shard)).setShard del.shard sh.consumerFinished).issue f.now
              (deadLetterEvent del.shard del.message)).note (.deadLettered r f.now)).issue f.now
                (dequeueEvent del.shard)).take .free)
  /-- A dead letter of a queue is counted. -/
  | countDead {f : Flow} (t : Time) (b topic : String) (sh : Shard)
      (hh : f.hand = .event t (.queueDLQ b topic)) (hs : f.shards (.queue b topic) = some sh) :
      Act env f ((f.setShard (.queue b topic) sh.noteDLQ).take .free)
  /-- A dead letter of a topic is recorded as processed. -/
  | deadLetter {f : Flow} (t : Time) (k : EventKind) (ref : ShardRef) (o : Nat) (sh : Shard)
      (hh : f.hand = .event t k) (hk : role k = .deadLetter ref o)
      (hs : f.shards ref = some sh) :
      Act env f ((f.setShard ref (sh.noteDLQ.recordTopicOffsetProcessed o)).take .free)
  /-- A dead letter of a shard that does not exist. -/
  | deadLetterVoid {f : Flow} (t : Time) (k : EventKind) (ref : ShardRef) (o : Nat)
      (hh : f.hand = .event t k) (hk : role k = .deadLetter ref o)
      (hs : f.shards ref = none) : Act env f (f.take .free)
  /-- The oldest messages of a shard expire. -/
  | expire {f : Flow} (t : Time) (b topic g : String) (p : Nat) (sh : Shard)
      (hh : f.hand = .event t (.topicRetentionExpire b topic g p))
      (hs : f.shards (.topic b topic p g) = some sh)
      (hr : 0 < retentionOf env (.topic b topic p g)) :
      Act env f (((f.rearm env (.topic b topic p g)
        (purged env f.now (.topic b topic p g) sh)).issueAll
          (purgedEvents env f.now (.topic b topic p g) sh)).take .free)

/-- Sequences of actions. -/
def Acts (env : Env) : Flow → Flow → Prop :=
  Relation.ReflTransGen (Act env)

/-! ### Moves -/

/-- What happens between two handlers. -/
inductive Move : Flow → Flow → Prop
  /-- The next event is taken from the queue: a first one in time and priority, and the oldest of
  those. -/
  | pop {f : Flow} (t : Time) (k : EventKind) (newer older : List (Time × EventKind))
      (hh : f.hand = .free) (hc : f.closing = []) (hr : f.refused = [])
      (he : f.events = newer ++ (t, k) :: older) (hn : ∀ x ∈ newer, rank (t, k) ≤ rank x)
      (ho : ∀ x ∈ older, rank (t, k) < rank x) : Move f (f.pop t k (newer ++ older))
  /-- An event is scheduled from outside. -/
  | schedule {f : Flow} (t : Time) (k : EventKind) (hh : f.hand = .free) (hc : f.closing = [])
      (hk : k.external = true) : Move f (f.schedule t k)
  /-- A service or the hosts are scaled. -/
  | scale {f : Flow} (L : Ledger) (busy : List String) (hh : f.hand = .free) (hc : f.closing = [])
      (hL : L.Coherent) (hr : f.ledger.Rescaled L)
      (hb : ∀ a ∈ f.ledger.accounts, a.lifecycle = .active →
        (∃ a' ∈ L.accounts, a'.id = a.id ∧ a'.lifecycle = .draining) →
          (∃ t r, (t, EventKind.requestStart r a.id) ∈ f.events) → a.id ∈ busy) :
      Move f (f.rescale L busy)
  /-- The controller removes drained instances. -/
  | sweep {f : Flow} (t : Time) (L : Ledger) (hh : f.hand = .free) (hc : f.closing = [])
      (hL : f.ledger.Drained t L) : Move f (f.setLedger L)

/-- An action or a move. -/
def Turn (env : Env) (f f' : Flow) : Prop :=
  Act env f f' ∨ Move f f'

/-- Sequences of actions and moves. -/
def Turns (env : Env) : Flow → Flow → Prop :=
  Relation.ReflTransGen (Turn env)

/-- The protocol state before the first turn. -/
structure Flow.Initial (env : Env) (f : Flow) : Prop where
  valid : validateScenario env.scenario = .ok ()
  hand : f.hand = .free
  closing : f.closing = []
  events : f.events = []
  jobs : f.jobs = []
  pending : ∀ p, f.pending p = none
  calls : f.calls = []
  requests : f.run.requests = []
  totalRequests : f.run.totalRequests = 0
  completedCount : f.run.completedCount = 0
  failedCount : f.run.failedCount = 0
  refused : f.refused = []
  ledger : f.ledger.Coherent
  unused : ∀ a ∈ f.ledger.accounts,
    a.lifecycle = .active ∧ a.activeRequests = 0 ∧ a.activeMemoryMB = 0
  shards : ∀ ref, f.shards ref = none
  watermark : ∀ b t p, f.watermark b t p = 0
  samples : f.samples = 0
  trace : f.trace = 0

/-- The protocol states that actions and moves can reach. -/
inductive Reached (env : Env) : Flow → Prop
  | start {f : Flow} (h : f.Initial env) : Reached env f
  | turn {f f' : Flow} (hf : Reached env f) (h : Turn env f f') : Reached env f'

variable {env : Env} {f f' : Flow}

section

variable (hf : Reached env f)
include hf

theorem Reached.acts (h : Acts env f f') : Reached env f' := by
  induction h with
  | refl => exact hf
  | tail _ h ih => exact .turn ih (.inl h)

theorem Reached.turns (h : Turns env f f') : Reached env f' := by
  induction h with
  | refl => exact hf
  | tail _ h ih => exact .turn ih h

/-- What every turn preserves is preserved by every sequence of turns. -/
theorem Reached.turns_induction {P : Flow → Prop}
    (hP : ∀ {f f' : Flow}, Reached env f → Turn env f f' → P f → P f') (h : Turns env f f')
    (hp : P f) : P f' := by
  induction h with
  | refl => exact hp
  | tail ht h ih => exact hP (hf.turns ht) h ih

theorem Reached.valid : validateScenario env.scenario = .ok () := by
  induction hf with
  | start h => exact h.valid
  | turn _ _ ih => exact ih

end

end SimCore.Protocol
