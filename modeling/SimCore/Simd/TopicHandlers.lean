import SimCore.Simd.QueueHandlers

/-!
# Topic handlers

Publishing to a topic partition, fan-out to the consumer groups, dispatch, acknowledgement deadline,
dead letters and retention. Every publish takes the next offset of its partition; each group either
stores the message or records the offset as processed.

## Main definitions

* `handleTopicPublish`, `handleTopicDequeue`, `handleTopicAckTimeout`, `handleTopicDLQ`,
  `handleTopicRetentionExpire`
* `metaTopicConsumerDone`: the acknowledgement
-/

namespace SimCore.Simd

open Config Interaction Resource

/-! ### Labels -/

/-- Labels of topic metrics; without a producer the broker stands in for it. -/
def topicBrokerLabels (brokerID topicPath producerSvc producerEp subName consumerGroup consumerSvc
    consumerEp : String) : Labels :=
  (if producerSvc = "" then endpointLabelsWithOrigin brokerID topicPath originDownstream
    else endpointLabelsWithOrigin producerSvc producerEp originDownstream ++
      [("producer_service", producerSvc), ("producer_endpoint", producerEp)]) ++
    [("topic_service", brokerID), ("broker_service", brokerID), ("topic", topicPath)] ++
    optionalLabel "consumer_group" consumerGroup ++ optionalLabel "subscriber" subName ++
    if consumerSvc = "" then []
    else [("consumer_service", consumerSvc), ("consumer_endpoint", consumerEp)]

def withTopicPartitionLabel (lbl : Labels) (partition : Nat) : Labels :=
  lbl ++ [("partition", itoa partition)]

def topicStateLabels (brokerID topicPath subName consumerGroup : String) (partition : Nat) :
    Labels :=
  [("topic_service", brokerID), ("broker_service", brokerID), ("topic", topicPath),
    ("partition", itoa partition)] ++
    optionalLabel "consumer_group" consumerGroup ++ optionalLabel "subscriber" subName

/-! ### Shards -/

/-- Backlog and lag gauges of a shard. -/
def recordTopicGauges (s : State) (brokerID topic : String) (partition : Nat) (group : String)
    (subName : String) (shard : Shard) : State :=
  let lbl := topicStateLabels brokerID topic subName group partition
  let lag := topicConsumerLagMessages (s.brokers.topicPartitionHW brokerID topic partition)
    shard.nextCommitExclusive
  (s.record .topicBacklogDepth shard.depth lbl none).record .topicConsumerLag lag lbl none

/-- The partition of a publish: by key hash, else round robin. -/
def topicPartitionForPublish (s : State) (brokerID topic : String) (partitions : Int)
    (partitionKey : String) : Nat × State :=
  if partitions ≤ 1 then (0, s)
  else if partitionKey ≠ "" then
    (partitionKey.toUTF8.toList.foldl (fun h c => (h * 31 + c.toNat) % partitions.toNat) 0, s)
  else
    let key := brokerID ++ "|" ++ topic
    let n := s.topicPartitionCursor key % partitions.toNat
    let next := (s.topicPartitionCursor key + 1) % partitions.toNat
    (n, { s with topicPartitionCursor := Function.update s.topicPartitionCursor key next })

/-- Schedules the next retention check of a shard at the expiry of its oldest message. -/
def scheduleTopicShardRetention (env : Env) (s : State) (brokerID topic : String) (partition : Nat)
    (group : String) : State :=
  let ret := (effectiveTopicForBroker env.scenario brokerID).retentionMs
  if ret ≤ 0 then s
  else
    let ref := ShardRef.topic brokerID topic partition group
    match s.brokers.shards ref with
    | none => s
    | some shard =>
      match shard.oldestQueuedEnqueueTime with
      | none => s
      | some t0 =>
        let deadline := max s.now (t0 + ret * millisecond)
        if shard.shouldScheduleRetentionAt deadline then
          (s.scheduleAt deadline (.topicRetentionExpire brokerID topic group partition)).setShard
            ref { shard with retentionNextFireScheduled := some deadline }
        else s

/-! ### Publish -/

/-- The subscribers of a topic in delivery order. -/
def topicSubscribers (env : Env) (brokerID : String) : List TopicSubscriber :=
  let raw := ((env.scenario.service? brokerID).bind Service.behavior).bind ServiceBehavior.topic
  let subs := canonicalTopicSubscribersForHash raw
  if subs.isEmpty then (effectiveTopicForBroker env.scenario brokerID).subscribers else subs

/-- Delivers a published message to one subscriber. -/
def publishToSubscriber (env : Env) (d : PublishData) (topic : String) (partition offset : Nat)
    (s : State) (sub : TopicSubscriber) : State :=
  let eff := effectiveTopicForBroker env.scenario d.brokerID
  let group := trimSpace sub.consumerGroup
  let name := trimSpace sub.name
  let ref := ShardRef.topic d.brokerID topic partition group
  let shard := (s.brokers.shards ref).getD
    (newTopicShard d.brokerID topic partition group eff sub)
  let msg : QueuedMessage :=
    { id := s.nextMsg, enqueueTime := s.now, parentRequestID := d.parent, topicOffset := offset
      metadata := { messageMeta s d with subscriber := name, partition := partition } }
  let s := { s with nextMsg := s.nextMsg + 1 }
  let (res, shard) := shard.enqueue msg
  let parent := s.req d.parent
  let lbl := withTopicPartitionLabel (topicBrokerLabels d.brokerID topic parent.serviceName
    parent.endpoint name group "" "") partition
  if res.accepted = false then
    let s := s.record .topicDropCount 1 (withReason lbl res.dropReason) none
    -- the partition log has advanced, so the group commits the offset it did not store
    let shard := shard.recordTopicOffsetProcessed offset
    recordTopicGauges (s.setShard ref shard) d.brokerID topic partition group name shard
  else
    let shard :=
      if res.droppedOldest then shard.recordTopicOffsetProcessed res.evictedTopicOffset else shard
    let s :=
      if res.droppedOldest then s.record .topicDropCount 1 (withReason lbl "drop_oldest") none
      else s
    let s := recordTopicGauges (s.setShard ref shard) d.brokerID topic partition group name shard
    let s := s.record .topicMessageAge 0 lbl none
    let s := scheduleTopicShardRetention env s d.brokerID topic partition group
    s.scheduleAt s.now (.topicDequeue d.brokerID topic group partition)

/-- A message reaches a topic. -/
def handleTopicPublish (env : Env) (s : State) (d : PublishData) : State :=
  let s := { s with rm := s.rm.noteSimTime s.now }
  let topic := if d.topic = "" then "/" else d.topic
  let parent := s.req d.parent
  let lbl := topicBrokerLabels d.brokerID topic parent.serviceName parent.endpoint "" "" "" ""
  let s := s.record .topicPublishCount 1 lbl none
  let s := s.record .topicPublishLatency d.deliveryMs lbl none
  let partitions := (effectiveTopicForBroker env.scenario d.brokerID).partitions
  let (partition, s) := topicPartitionForPublish s d.brokerID topic partitions d.partitionKey
  let (offset, brokers) := s.brokers.nextTopicPartitionOffset d.brokerID topic partition
  let s := { s with brokers := brokers }
  (topicSubscribers env d.brokerID).foldl (publishToSubscriber env d topic partition offset) s

/-! ### Dispatch and acknowledgement -/

/-- Schedules the acknowledgement deadline of a dispatched message. -/
def scheduleTopicAckTimeout (s : State) (child : ReqId) (brokerID topic group : String)
    (shard : Shard) (msg : QueuedMessage) : State :=
  if shard.ackTimeoutMs > 0 then
    s.scheduleAt (s.now + wholeMsToDuration shard.ackTimeoutMs)
      (.topicAckTimeout { child := child, brokerID := brokerID, topic := topic, group := group
                          partition := msg.metadata.partition, message := msg })
  else s

/-- Hands a popped message to a consumer; `shard` is the shard after the pop, `ref` its name. The
delivery is booked under the partition that the message carries. -/
def dispatchTopicMessage (env : Env) (s : State) (brokerID topic group : String) (ref : ShardRef)
    (shard : Shard) (msg : QueuedMessage) : State :=
  let partition := msg.metadata.partition
  match parseConsumerTarget shard.consumerTarget with
  | .error _ => s.observe (.consumerTargetInvalid ref)
  | .ok (consumerSvc, consumerPath) =>
    let lbl := withTopicPartitionLabel (topicBrokerLabels brokerID topic "" ""
      msg.metadata.subscriber group consumerSvc consumerPath) partition
    let s := s.record .topicDeliverCount 1 lbl none
    let s := s.record .topicMessageAge (durationToMs (s.now - msg.enqueueTime)) lbl none
    if s.run.knows msg.parentRequestID = false ∨ env.scenario.service? consumerSvc = none then
      (s.setShard ref shard.consumerFinished).observe (.consumerParentMissing ref)
    else
      match dispatchConsumer env s msg (.topic brokerID topic partition group) consumerSvc
          consumerPath with
      | none =>
        (scheduleTopicShardRetention env (s.setShard ref (shard.requeueFront msg)) brokerID topic
          partition group).observe (.consumerNoInstance ref)
      | some s' => scheduleTopicAckTimeout s' s.heap.length brokerID topic group shard msg

/-- A consumer group may dispatch its next message. -/
def handleTopicDequeue (env : Env) (s : State) (brokerID topic group : String) (partition : Nat) :
    State :=
  let s := { s with rm := s.rm.noteSimTime s.now }
  let ref := ShardRef.topic brokerID topic partition group
  match s.brokers.shards ref with
  | none => s
  | some shard =>
    match shard.tryPopForDispatch with
    | none => s
    | some (msg, shard) =>
      dispatchTopicMessage env (s.setShard ref shard) brokerID topic group ref shard msg

/-- The acknowledgement deadline of a topic delivery. -/
def handleTopicAckTimeout (env : Env) (s : State) (d : AckData) : State :=
  let s := { s with rm := s.rm.noteSimTime s.now }
  if (s.getRequest d.child).map (fun q => q.status) ≠ some .processing then
    observeIgnoredAckTimeout s d.child
  else
    let ref := ShardRef.topic d.brokerID d.topic d.partition d.group
    match s.brokers.shards ref with
    | none => s
    | some shard =>
      let s := failTimedOutConsumer (observeLateAckTimeout s d.child) d.child
      let s := s.observe (.released d.child ref)
      let nextRed := d.message.redeliveries + 1
      let lbl := withTopicPartitionLabel (topicBrokerLabels d.brokerID d.topic "" ""
        shard.subscriberName d.group "" "") d.partition
      let s :=
        if nextRed > shard.maxRedeliveries then
          ((s.setShard ref shard.consumerFinished).scheduleAt s.now
            (.topicDLQ d.brokerID d.topic d.group d.partition d.message.topicOffset)).observe
              (.deadLettered d.child s.now)
        else
          let s := (s.setShard ref
            ((shard.requeueFront { d.message with redeliveries := nextRed }).noteRedelivery)).record
              .topicRedeliveryCount 1 lbl none
          (scheduleTopicShardRetention env s d.brokerID d.topic d.partition d.group).observe
            (.requeued d.child nextRed s.now)
      s.scheduleAt s.now (.topicDequeue d.brokerID d.topic d.group d.partition)

/-- A message was sent to the dead-letter handler: its offset counts as processed. -/
def handleTopicDLQ (s : State) (brokerID topic group : String) (partition offset : Nat) : State :=
  let s := { s with rm := s.rm.noteSimTime s.now }
  let s :=
    match s.brokers.shards (.topic brokerID topic partition group) with
    | some shard =>
      s.setShard (.topic brokerID topic partition group)
        (shard.noteDLQ.recordTopicOffsetProcessed offset)
    | none => s
  s.record .topicDlqCount 1
    (withTopicPartitionLabel (topicBrokerLabels brokerID topic "" "" "" group "" "") partition) none

/-- A topic consumer finished its local work: the slot is free and the offset is processed. -/
def metaTopicConsumerDone (s : State) (r : ReqId) (brokerID topic : String) (partition : Nat)
    (group : String) (offset : Nat) : State :=
  let ref := ShardRef.topic brokerID topic partition group
  match s.brokers.shards ref with
  | none => s
  | some shard =>
    let shard := shard.consumerFinished.recordTopicOffsetProcessed offset
    let s := (s.setShard ref shard).observe (.released r ref)
    let s := recordTopicGauges s brokerID topic partition group shard.subscriberName shard
    s.scheduleAt s.now (.topicDequeue brokerID topic group partition)

/-- Retention: expired messages leave the backlog and their offsets count as processed. -/
def handleTopicRetentionExpire (env : Env) (s : State) (brokerID topic group : String)
    (partition : Nat) : State :=
  let s := { s with rm := s.rm.noteSimTime s.now }
  let ret := (effectiveTopicForBroker env.scenario brokerID).retentionMs
  let ref := ShardRef.topic brokerID topic partition group
  match if ret ≤ 0 then none else s.brokers.shards ref with
  | none => s
  | some shard =>
    let (removed, shard) :=
      { shard with retentionNextFireScheduled := none }.expireQueuedByRetention s.now ret
    let shard := removed.foldl Shard.recordTopicOffsetProcessed shard
    let s := s.setShard ref shard
    let reschedule := fun s : State =>
      if shard.depth > 0 then scheduleTopicShardRetention env s brokerID topic partition group
      else s
    if removed.isEmpty then reschedule s
    else
      let lbl := withTopicPartitionLabel (topicBrokerLabels brokerID topic "" ""
        shard.subscriberName group "" "") partition
      let s := s.record .topicDropCount removed.length (withReason lbl "retention_expired") none
      let s := recordTopicGauges s brokerID topic partition group shard.subscriberName shard
      (reschedule s).scheduleAt s.now (.topicDequeue brokerID topic group partition)

end SimCore.Simd
