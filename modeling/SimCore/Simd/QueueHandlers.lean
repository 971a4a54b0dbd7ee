import SimCore.Simd.CallerOverhead

/-!
# Queue handlers

Publishing to a queue, dispatching its messages to consumer requests, and the acknowledgement
deadline of a delivery. A consumer request is an ordinary downstream request whose parent is the
publisher; its local completion acknowledges the message.

## Main definitions

* `handleQueueEnqueue`, `handleQueueDequeue`, `handleQueueAckTimeout`, `handleQueueDLQ`
* `metaQueueConsumerDone`: the acknowledgement
-/

namespace SimCore.Simd

open Config Interaction Resource

/-! ### Labels -/

/-- Labels of queue metrics; without a producer the broker stands in for it. -/
def queueBrokerLabels (brokerID topic producerSvc producerEp : String) : Labels :=
  (if producerSvc = "" then endpointLabelsWithOrigin brokerID topic originDownstream
    else endpointLabelsWithOrigin producerSvc producerEp originDownstream) ++
    [("broker_service", brokerID), ("topic", topic), ("queue", topic)]

def queueStateLabels (brokerID topic : String) : Labels :=
  [("broker_service", brokerID), ("topic", topic), ("queue", topic)]

def withReason (lbl : Labels) (reason : String) : Labels :=
  lbl ++ [("reason", reason)]

/-! ### Shards -/

def State.setShard (s : State) (ref : ShardRef) (shard : Shard) : State :=
  { s with brokers := s.brokers.set ref shard }

/-- `GetBrokerQueue`: the shard of a queue, created on first use. -/
def getBrokerQueue (env : Env) (s : State) (brokerID topic : String) : Shard :=
  (s.brokers.shards (.queue brokerID topic)).getD
    (newQueueShard brokerID topic (effectiveQueueForBroker env.scenario brokerID))

/-! ### Messages -/

/-- Metadata that a publisher gives to a message. -/
def messageMeta (s : State) (d : PublishData) : MessageMeta :=
  let parent := s.req d.parent
  let caller := d.caller.orElse (callerTopologyFromRequest s.rm parent)
  { traceDepth := d.traceDepth, asyncDepth := d.asyncDepth, retryAttempt := d.retryAttempt
    workloadFrom := parent.text "workload_from"
    workloadSourceKind := parent.text "workload_source_kind"
    workloadTrafficClass := parent.text "workload_traffic_class"
    instanceID := caller.callerInstanceID, callerHostZone := caller.callerHostZone
    callerHostID := caller.callerHostID }

def newConsumerRequest (s : State) (msg : QueuedMessage) (shard : ShardRef)
    (consumerSvc consumerPath : String) : Request :=
  let m := msg.metadata
  let q := createDownstreamRequest (s.req msg.parentRequestID) msg.parentRequestID consumerSvc
    consumerPath
  let q :=
    { q with arrivalTime := s.now, traceDepth := m.traceDepth, asyncDepth := m.asyncDepth
             retryAttempt := m.retryAttempt, delivery := some ⟨shard, msg⟩
             onBehalf := some ⟨shard, msg⟩ }
  (((q.setTextIf "workload_from" m.workloadFrom).setTextIf "workload_source_kind"
    m.workloadSourceKind).setTextIf "workload_traffic_class" m.workloadTrafficClass).setCaller
    ⟨m.instanceID, m.callerHostZone, m.callerHostID⟩

/-- Dispatches a message to a consumer request that starts now; `none` without an instance. -/
def dispatchConsumer (env : Env) (s : State) (msg : QueuedMessage) (shard : ShardRef)
    (consumerSvc consumerPath : String) : Option State :=
  let r := s.heap.length
  let q := newConsumerRequest s msg shard consumerSvc consumerPath
  match selectInstanceForRequest env s q (some r) with
  | .error _ => none
  | .ok (instanceID, s) =>
    let s := (s.alloc (q.setText "instance_id" instanceID)).addRequest r
    let s := s.record .requestCount 1 q.labels (some r)
    some ((s.scheduleStart s.now r instanceID).observe (.dispatched r ⟨shard, msg⟩ s.now))

/-! ### Handlers -/

/-- A message reaches a queue. -/
def handleQueueEnqueue (env : Env) (s : State) (d : PublishData) : State :=
  let s := { s with rm := s.rm.noteSimTime s.now }
  let topic := if d.topic = "" then "/" else d.topic
  let shard := getBrokerQueue env s d.brokerID topic
  let msg : QueuedMessage :=
    { id := s.nextMsg, enqueueTime := s.now, parentRequestID := d.parent
      metadata := messageMeta s d }
  let (res, shard) := shard.enqueue msg
  let s := { s with nextMsg := s.nextMsg + 1 }.setShard (.queue d.brokerID topic) shard
  let parent := s.req d.parent
  let lbl := queueBrokerLabels d.brokerID topic parent.serviceName parent.endpoint
  let stateLbl := queueStateLabels d.brokerID topic
  let s := s.record .queuePublishAttemptCount 1 lbl none
  if res.accepted = false then
    let s := s.record .queueDropCount 1 (withReason lbl res.dropReason) none
    s.record .queueDepth shard.depth stateLbl none
  else
    let s := s.record .queueEnqueueCount 1 lbl none
    let s :=
      if res.droppedOldest then s.record .queueDropCount 1 (withReason lbl "drop_oldest") none
      else s
    let s := s.record .queuePublishLatency d.deliveryMs lbl none
    let s := s.record .queueDepth shard.depth stateLbl none
    let s := s.record .messageAge 0 lbl none
    s.scheduleAt s.now (.queueDequeue d.brokerID topic)

/-- Schedules the acknowledgement deadline of a dispatched message. -/
def scheduleQueueAckTimeout (env : Env) (s : State) (child : ReqId) (brokerID topic : String)
    (msg : QueuedMessage) : State :=
  let ackMs := (effectiveQueueForBroker env.scenario brokerID).ackTimeoutMs
  if ackMs > 0 then
    s.scheduleAt (s.now + wholeMsToDuration ackMs)
      (.queueAckTimeout { child := child, brokerID := brokerID, topic := topic, message := msg })
  else s

/-- Hands a popped message to a consumer; `shard` is the shard after the pop. -/
def dispatchQueueMessage (env : Env) (s : State) (brokerID topic : String) (shard : Shard)
    (msg : QueuedMessage) : State :=
  let ref := ShardRef.queue brokerID topic
  match parseConsumerTarget shard.consumerTarget with
  | .error _ => s.observe (.consumerTargetInvalid ref)
  | .ok (consumerSvc, consumerPath) =>
    if s.run.knows msg.parentRequestID = false ∨ env.scenario.service? consumerSvc = none then
      (s.setShard ref shard.consumerFinished).observe (.consumerParentMissing ref)
    else
      match dispatchConsumer env s msg ref consumerSvc consumerPath with
      | none => (s.setShard ref (shard.requeueFront msg)).observe (.consumerNoInstance ref)
      | some s' => scheduleQueueAckTimeout env s' s.heap.length brokerID topic msg

/-- A queue may dispatch its next message. -/
def handleQueueDequeue (env : Env) (s : State) (brokerID topic : String) : State :=
  let s := { s with rm := s.rm.noteSimTime s.now }
  match s.brokers.shards (.queue brokerID topic) with
  | none => s
  | some shard =>
    match shard.tryPopForDispatch with
    | none => s
    | some (msg, shard) =>
      let s := s.setShard (.queue brokerID topic) shard
      let lbl := queueBrokerLabels brokerID topic "" ""
      let s := s.record .queueDequeueCount 1 lbl none
      let s := s.record .messageAge (durationToMs (s.now - msg.enqueueTime)) lbl none
      dispatchQueueMessage env s brokerID topic shard msg

/-- The consumer failed its acknowledgement deadline. -/
def failTimedOutConsumer (s : State) (child : ReqId) : State :=
  let s := s.update child fun q => { q with status := .failed, brokerAckTimedOut := true }
  s.record .requestErrorCount 1 (endpointErrorLabels (s.req child).labels "timeout") (some child)

/-- Remembers a deadline that passes without effect although the local work is not finished. -/
def observeIgnoredAckTimeout (s : State) (child : ReqId) : State :=
  if (s.req child).stage = .worked then s else s.observe (.ackTimeoutIgnored child)

/-- Remembers a deadline that fails a consumer although its local work is finished. -/
def observeLateAckTimeout (s : State) (child : ReqId) : State :=
  if (s.req child).stage = .worked then s.observe (.ackTimeoutAfterWork child) else s

/-- The acknowledgement deadline of a queue delivery. -/
def handleQueueAckTimeout (env : Env) (s : State) (d : AckData) : State :=
  let s := { s with rm := s.rm.noteSimTime s.now }
  if (s.getRequest d.child).map (fun q => q.status) ≠ some .processing then
    observeIgnoredAckTimeout s d.child
  else
    let ref := ShardRef.queue d.brokerID d.topic
    match s.brokers.shards ref with
    | none => s
    | some shard =>
      let s := failTimedOutConsumer (observeLateAckTimeout s d.child) d.child
      let s := s.observe (.released d.child ref)
      let nextRed := d.message.redeliveries + 1
      let s :=
        if nextRed > (effectiveQueueForBroker env.scenario d.brokerID).maxRedeliveries then
          ((s.setShard ref shard.consumerFinished).scheduleAt s.now
            (.queueDLQ d.brokerID d.topic)).observe (.deadLettered d.child s.now)
        else
          ((s.setShard ref
            ((shard.requeueFront { d.message with redeliveries := nextRed }).noteRedelivery)).record
              .queueRedeliveryCount 1 (queueBrokerLabels d.brokerID d.topic "" "") none).observe
                (.requeued d.child nextRed s.now)
      s.scheduleAt s.now (.queueDequeue d.brokerID d.topic)

/-- A message was sent to the dead-letter handler. -/
def handleQueueDLQ (s : State) (brokerID topic : String) : State :=
  let s := { s with rm := s.rm.noteSimTime s.now }
  let s :=
    match if topic = "" then none else s.brokers.shards (.queue brokerID topic) with
    | some shard => s.setShard (.queue brokerID topic) shard.noteDLQ
    | none => s
  s.record .queueDlqCount 1 (queueBrokerLabels brokerID topic "" "") none

/-- A queue consumer finished its local work: the slot is free and the queue may go on. -/
def metaQueueConsumerDone (s : State) (r : ReqId) (brokerID topic : String) : State :=
  let ref := ShardRef.queue brokerID topic
  match s.brokers.shards ref with
  | none => s
  | some shard =>
    let s := (s.setShard ref shard.consumerFinished).observe (.released r ref)
    let s := s.record .queueDepth shard.depth (queueStateLabels brokerID topic) none
    s.scheduleAt s.now (.queueDequeue brokerID topic)

end SimCore.Simd
