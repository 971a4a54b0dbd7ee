import SimCore.Simd.Spawn

/-!
# Caller overhead and broker edges

A completed request makes its downstream calls one after the other. An edge may cost the caller CPU
time: then two events mark the reserved interval, and the second one carries the call on. An edge to
a queue or a topic publishes a message after the broker's delivery latency; any other edge spawns a
downstream request, after its call latency on a first attempt and at once on a retry.

## Main definitions

* `usesQueueBroker`, `usesTopicBroker`: which edges are broker edges
* `scheduleDownstreamWithCallerOverhead`: schedules one edge, returns the time after it
* `handleDownstreamCallerOverheadStart`, `handleDownstreamCallerOverheadEnd`
* `handleDownstreamCall`, `handleDownstreamRetry`
-/

namespace SimCore.Simd

open Config Interaction Resource

/-! ### Broker edges -/

/-- Whether an edge, or its target service, has the given kind. -/
def edgeHasKind (sc : Scenario) (kind : String) (rc : ResolvedCall) : Bool :=
  normWord rc.call.kind == kind ||
    (match sc.service? rc.serviceID with
      | some tgt => tgt.kindNorm == kind
      | none => false)

/-- Whether an edge publishes to a queue. -/
def usesQueueBroker (sc : Scenario) (rc : ResolvedCall) : Bool :=
  edgeHasKind sc "queue" rc

/-- Whether an edge publishes to a topic. -/
def usesTopicBroker (sc : Scenario) (rc : ResolvedCall) : Bool :=
  edgeHasKind sc "topic" rc

/-- Whether an edge publishes to a broker. -/
def usesAsyncBroker (sc : Scenario) (rc : ResolvedCall) : Bool :=
  usesQueueBroker sc rc || usesTopicBroker sc rc

def effectiveQueueForBroker (sc : Scenario) (brokerID : String) : QueueBehavior :=
  effectiveQueueBehavior (((sc.service? brokerID).bind Service.behavior).bind ServiceBehavior.queue)

def effectiveTopicForBroker (sc : Scenario) (brokerID : String) : TopicBehavior :=
  effectiveTopicBehavior (((sc.service? brokerID).bind Service.behavior).bind ServiceBehavior.topic)

/-- A sampled latency: none if the mean is not positive, and negative values count as zero. -/
def sampleDelayMs (env : Env) (s : State) (spec : LatencySpec) : ℚ × State :=
  if spec.mean > 0 then sampleLatencyMs env s ⟨spec.mean, max 0 spec.sigma⟩ else (0, s)

def sampleQueueDeliveryMs (env : Env) (s : State) (brokerID : String) : ℚ × State :=
  sampleDelayMs env s (effectiveQueueForBroker env.scenario brokerID).deliveryLatencyMs

def sampleTopicDeliveryMs (env : Env) (s : State) (brokerID : String) : ℚ × State :=
  sampleDelayMs env s (effectiveTopicForBroker env.scenario brokerID).deliveryLatencyMs

/-- One downstream edge of a caller on its way to be called. -/
structure EdgeCall where
  target : ResolvedCall
  parent : ReqId
  nextTD : Int
  nextAD : Int
  isAsync : Bool
  fromRetry : Bool := false
  retryAttempt : Int := 0
  caller : CallerTopology := {}
  call : Option CallId := none
  onBehalf : Option Delivery := none
  edge : Option ResolvedCall := none

def EdgeCall.spawn (c : EdgeCall) (caller : CallerTopology) : SpawnData where
  parent := c.parent
  serviceID := c.target.serviceID
  endpointPath := c.target.path
  traceDepth := c.nextTD
  asyncDepth := c.nextAD
  isAsync := c.isAsync
  timeoutMs := c.target.call.timeoutMs
  retryAttempt := c.retryAttempt
  caller := caller
  call := c.call
  onBehalf := c.onBehalf
  edge := c.edge

/-- The partition key of a publish: fixed on the edge, or read from the publisher's metadata. -/
def partitionKeyOf (parent : Request) (d : DownstreamCall) : String :=
  if trimSpace d.partitionKey ≠ "" then trimSpace d.partitionKey
  else if trimSpace d.partitionKeyFrom = "" then ""
  else parent.text (trimSpace d.partitionKeyFrom)

def EdgeCall.publish (s : State) (c : EdgeCall) (deliveryMs : ℚ) : PublishData where
  parent := c.parent
  brokerID := c.target.serviceID
  topic := c.target.path
  traceDepth := c.nextTD
  asyncDepth := c.nextAD
  retryAttempt := c.retryAttempt
  deliveryMs := deliveryMs
  caller := resolveCallerTopologyForSpawn s.rm (s.req c.parent) c.caller
  partitionKey := partitionKeyOf (s.req c.parent) c.target.call

/-- Schedules the enqueue after the delivery latency; returns the time of the acknowledgement. -/
def scheduleQueuePublishFromOverhead (env : Env) (s : State) (c : EdgeCall) (t : Time)
    (fixedDeliveryMs : Option ℚ) : Time × State :=
  let (delivery, s) :=
    match fixedDeliveryMs with
    | some ms => (ms, s)
    | none => sampleQueueDeliveryMs env s c.target.serviceID
  let ackTime := t + msToDuration delivery
  (ackTime, s.scheduleAt ackTime (.queueEnqueue (c.publish s delivery)))

/-- Schedules the publish after the delivery latency; returns the time of the acknowledgement. -/
def scheduleTopicPublishFromOverhead (env : Env) (s : State) (c : EdgeCall) (t : Time)
    (fixedDeliveryMs : Option ℚ) : Time × State :=
  let (delivery, s) :=
    match fixedDeliveryMs with
    | some ms => (ms, s)
    | none => sampleTopicDeliveryMs env s c.target.serviceID
  let ackTime := t + msToDuration delivery
  (ackTime, s.scheduleAt ackTime (.topicPublish (c.publish s delivery)))

/-! ### Caller overhead -/

/-- CPU reference of an edge: its call latency, else the CPU time of the target endpoint. -/
def referenceCPUForDownstream (sc : Scenario) (rc : ResolvedCall) : ℚ :=
  if rc.call.callLatencyMs.mean > 0 then rc.call.callLatencyMs.mean
  else
    match sc.endpoint? rc.serviceID rc.path with
    | some ep => if ep.meanCPUMs > 0 then ep.meanCPUMs else 0
    | none => 0

/-- Restriction of a fraction to `[0, 1]`. -/
def clampDownstreamFractionCPU (f : ℚ) : ℚ :=
  max 0 (min 1 f)

/-- CPU time that an edge costs the caller, in milliseconds. -/
def computeDownstreamCallerCPU (sc : Scenario) (rc : ResolvedCall) : ℚ :=
  let fr := clampDownstreamFractionCPU rc.call.downstreamFractionCPU
  if fr ≤ 0 then 0 else fr * referenceCPUForDownstream sc rc

/-- Schedules the spawn of an edge after its call latency. -/
def scheduleDownstreamCallEvent (env : Env) (s : State) (c : EdgeCall) (t : Time) : State :=
  let (latency, s) := sampleDelayMs env s c.target.call.callLatencyMs
  let caller := resolveCallerTopologyForSpawn s.rm (s.req c.parent) {}
  s.scheduleAt (t + msToDuration latency)
    (.downstreamCall { c.spawn caller with retryAttempt := 0 })

def execRetrySpawnImmediate (env : Env) (s : State) (c : EdgeCall) : State :=
  execDownstreamSpawn env s
    (c.spawn (resolveCallerTopologyForSpawn s.rm (s.req c.parent) c.caller))

/-- Carries an edge on once the caller's CPU work for it is over. -/
def dispatchEdge (env : Env) (s : State) (c : EdgeCall) (t : Time) (fixedDeliveryMs : Option ℚ) :
    Time × State :=
  if usesTopicBroker env.scenario c.target then
    scheduleTopicPublishFromOverhead env s c t fixedDeliveryMs
  else if usesQueueBroker env.scenario c.target then
    scheduleQueuePublishFromOverhead env s c t fixedDeliveryMs
  else if c.fromRetry then (t, execRetrySpawnImmediate env s c)
  else (t, scheduleDownstreamCallEvent env s c t)

/-- Reserves the caller's CPU for an edge, if the edge costs any and the instance exists. -/
def reserveCallerOverhead (env : Env) (s : State) (c : EdgeCall) (t : Time) :
    Option (((String × ℚ) × (Time × Time)) × State) :=
  let overhead := computeDownstreamCallerCPU env.scenario c.target
  let id := (s.req c.parent).text "instance_id"
  if overhead ≤ 0 ∨ id = "" then none
  else
    (s.rm.reserveCPUWork id t overhead).map fun ((start, finish), rm) =>
      (((id, overhead), (start, finish)), { s with rm := rm })

/-- Delivery latency of a broker edge, sampled when the caller's CPU is reserved. -/
def sampleEdgeDeliveryMs (env : Env) (s : State) (rc : ResolvedCall) : Option ℚ × State :=
  if usesTopicBroker env.scenario rc then
    let (ms, s) := sampleTopicDeliveryMs env s rc.serviceID
    (some ms, s)
  else if usesQueueBroker env.scenario rc then
    let (ms, s) := sampleQueueDeliveryMs env s rc.serviceID
    (some ms, s)
  else (none, s)

/-- Schedules one edge; returns the time at which the caller is done with it. -/
def scheduleDownstreamWithCallerOverhead (env : Env) (s : State) (c : EdgeCall) (tCursor : Time) :
    Time × State :=
  match reserveCallerOverhead env s c tCursor with
  | none => dispatchEdge env s c tCursor none
  | some (((id, overhead), (start, finish)), s) =>
    let caller := resolveCallerTopologyForSpawn s.rm (s.req c.parent) c.caller
    let (delivery, s) := sampleEdgeDeliveryMs env s c.target
    let d : OverheadData :=
      { spawn := c.spawn caller, instanceID := id, cpuMs := overhead
        callerService := (s.req c.parent).serviceName, callerEndpoint := (s.req c.parent).endpoint
        fromRetry := c.fromRetry, reservedCPUStart := start, reservedCPUEnd := finish
        deliveryMs := delivery }
    let s := s.scheduleAt start (.callerOverheadStart d)
    let s := s.scheduleAt finish (.callerOverheadEnd d)
    (finish + (match delivery with
      | some ms => msToDuration ms
      | none => 0), s)

/-- The edge that an overhead event follows, by its target; an unknown edge has no settings. -/
def OverheadData.edge (env : Env) (s : State) (d : OverheadData) : EdgeCall where
  target := ⟨d.spawn.serviceID, d.spawn.endpointPath, spawnEdge env s d.spawn⟩
  parent := d.spawn.parent
  nextTD := d.spawn.traceDepth
  nextAD := d.spawn.asyncDepth
  isAsync := d.spawn.isAsync
  fromRetry := d.fromRetry
  retryAttempt := d.spawn.retryAttempt
  caller := d.spawn.caller
  call := d.spawn.call
  onBehalf := d.spawn.onBehalf
  edge := d.spawn.edge

/-- Labels of the caller's CPU time for an edge. -/
def labelsDownstreamCallerCPU (s : State) (d : OverheadData) (rc : ResolvedCall) : Labels :=
  let mode := trimSpace rc.call.mode
  labelsForRequestMetrics (s.req d.spawn.parent) d.callerService d.callerEndpoint ++
    [("downstream_service", rc.serviceID), ("downstream_endpoint", rc.path),
      ("downstream_mode", if mode = "" then "sync" else mode)] ++
    if d.fromRetry then
      [("is_retry", "true"), ("attempt", itoa d.spawn.retryAttempt.toNat)]
    else []

/-- The caller's CPU work for an edge begins. -/
def handleDownstreamCallerOverheadStart (env : Env) (s : State) (d : OverheadData) : State :=
  let s := { s with rm := s.rm.noteSimTime s.now }
  match s.rm.allocateCPU d.instanceID d.cpuMs s.now with
  | some rm =>
    let s := { s with rm := rm }
    s.record .downstreamCallerCPU d.cpuMs (labelsDownstreamCallerCPU s d (d.edge env s).target)
      none
  | none =>
    let s := { s with
      rm := s.rm.rollbackCPUTailReservation d.instanceID d.reservedCPUStart d.reservedCPUEnd }
    let lbl := labelsForRequestMetrics (s.req d.spawn.parent) d.callerService d.callerEndpoint
    let s := s.record .requestErrorCount 1 (endpointErrorLabels lbl "cpu_capacity") none
    match maybeRetrySyncCallerOverheadFailure env s d.spawn with
    | some s => s.observe (.overheadFailed d.spawn true)
    | none =>
      propagateSyncPendingFromCallerOverheadFailure env (s.observe (.overheadFailed d.spawn false))
        d.spawn

/-- The caller's CPU work for an edge is over. -/
def handleDownstreamCallerOverheadEnd (env : Env) (s : State) (d : OverheadData) : State :=
  let s := { s with rm := (s.rm.noteSimTime s.now).releaseCPU d.instanceID s.now }
  (dispatchEdge env s (d.edge env s) s.now d.deliveryMs).2

/-- A first attempt. -/
def handleDownstreamCall (env : Env) (s : State) (d : SpawnData) : State :=
  execDownstreamSpawn env { s with rm := s.rm.noteSimTime s.now } d

/-- A retry: the caller pays its overhead again. -/
def handleDownstreamRetry (env : Env) (s : State) (d : SpawnData) : State :=
  let s := { s with rm := s.rm.noteSimTime s.now }
  let c : EdgeCall :=
    { target := ⟨d.serviceID, d.endpointPath, spawnEdge env s d⟩, parent := d.parent
      nextTD := d.traceDepth, nextAD := d.asyncDepth, isAsync := d.isAsync, fromRetry := true
      retryAttempt := d.retryAttempt, caller := d.caller, call := d.call
      onBehalf := d.onBehalf, edge := d.edge }
  (scheduleDownstreamWithCallerOverhead env s c s.now).2

end SimCore.Simd
