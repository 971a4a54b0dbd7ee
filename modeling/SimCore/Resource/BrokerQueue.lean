import SimCore.Config.Broker
import SimCore.Engine.RunManager
import Mathlib.Logic.Function.Basic

/-!
# Broker shards

A shard is the backlog of one queue, or of one consumer group on one topic partition: a FIFO list of
messages, a counter of deliveries in flight bounded by `maxConcurrency`, and for topics the commit
frontier of the partition's offsets.

## Main definitions

* `Shard.enqueue`, `Shard.tryPopForDispatch`, `Shard.consumerFinished`, `Shard.requeueFront`
* `Shard.recordTopicOffsetProcessed`: advances the contiguous commit frontier
* `ShardRef`, `BrokerQueues`: the shards and the partition high watermarks

## Main results

* `Shard.enqueue_cases`: what an enqueue does under every drop policy
-/

namespace SimCore.Resource

open Config

/-- Metadata that a message carries from the publisher to the consumer request. -/
structure MessageMeta where
  traceDepth : Int := 0
  asyncDepth : Int := 0
  retryAttempt : Int := 0
  workloadFrom : String := ""
  workloadSourceKind : String := ""
  workloadTrafficClass : String := ""
  instanceID : String := ""
  callerHostZone : String := ""
  callerHostID : String := ""
  subscriber : String := ""
  partition : Nat := 0
deriving DecidableEq

/-- A broker backlog entry before a consumer request exists. -/
structure QueuedMessage where
  id : Nat
  enqueueTime : Time
  redeliveries : Int := 0
  parentRequestID : ReqId
  metadata : MessageMeta := {}
  topicOffset : Nat := 0
deriving DecidableEq

/-- One queue backlog, or one consumer group's backlog on one topic partition. -/
structure Shard where
  brokerID : String
  topic : String
  partition : Nat := 0
  capacity : Int
  maxConcurrency : Int
  maxRedeliveries : Int
  dropPolicy : String
  consumerTarget : String
  ackTimeoutMs : ℚ := 0
  consumerGroup : String := ""
  subscriberName : String := ""
  inFlight : Nat := 0
  messages : List QueuedMessage := []
  dropCount : Nat := 0
  redeliveryCount : Nat := 0
  dlqCount : Nat := 0
  nextCommitExclusive : Nat := 0
  pendingCommit : List Nat := []
  retentionNextFireScheduled : Option Time := none
deriving DecidableEq

structure EnqueueResult where
  accepted : Bool
  dropReason : String := ""
  droppedOldest : Bool := false
  evictedTopicOffset : Nat := 0
deriving DecidableEq

namespace Shard

/-- Whether the backlog is at capacity; capacity `0` is unlimited. -/
def capacityReached (s : Shard) : Bool :=
  decide (s.capacity > 0) && decide ((s.messages.length : Int) ≥ s.capacity)

/-- A rejected enqueue. -/
def rejectWith (s : Shard) (reason : String) : EnqueueResult × Shard :=
  ({ accepted := false, dropReason := reason }, { s with dropCount := s.dropCount + 1 })

/-- Adds a message according to the drop policy; `block` rejects at capacity. -/
def enqueue (s : Shard) (m : QueuedMessage) : EnqueueResult × Shard :=
  let policy := if normWord s.dropPolicy = "" then "block" else normWord s.dropPolicy
  if s.capacityReached = false then
    ({ accepted := true }, { s with messages := s.messages ++ [m] })
  else if policy = "reject" then s.rejectWith "reject"
  else if policy = "drop_newest" then s.rejectWith "drop_newest"
  else if policy = "drop_oldest" then
    match s.messages with
    | [] => ({ accepted := true }, { s with messages := [m] })
    | oldest :: rest =>
      ({ accepted := true, dropReason := "drop_oldest", droppedOldest := true
         evictedTopicOffset := oldest.topicOffset },
        { s with dropCount := s.dropCount + 1, messages := rest ++ [m] })
  else if policy = "block" then s.rejectWith "block_full"
  else s.rejectWith "reject"

/-- Current backlog length. -/
def depth (s : Shard) : Nat :=
  s.messages.length

/-- Whether all consumer slots are taken. -/
def saturated (s : Shard) : Bool :=
  decide (s.maxConcurrency > 0) && decide ((s.inFlight : Int) ≥ s.maxConcurrency)

/-- Takes the next message if a consumer slot is free. -/
def tryPopForDispatch (s : Shard) : Option (QueuedMessage × Shard) :=
  if s.saturated then none
  else
    match s.messages with
    | [] => none
    | m :: rest => some (m, { s with messages := rest, inFlight := s.inFlight + 1 })

/-- Ends one delivery in flight. -/
def consumerFinished (s : Shard) : Shard :=
  { s with inFlight := s.inFlight - 1 }

/-- Puts a message back at the front and ends its delivery. -/
def requeueFront (s : Shard) (m : QueuedMessage) : Shard :=
  { s with inFlight := s.inFlight - 1, messages := m :: s.messages }

def noteRedelivery (s : Shard) : Shard :=
  { s with redeliveryCount := s.redeliveryCount + 1 }

/-- Counts a dead letter. -/
def noteDLQ (s : Shard) : Shard :=
  { s with dlqCount := s.dlqCount + 1 }

/-- The queued messages old enough to expire, from the front. -/
def expired (s : Shard) (now : Time) (retentionMs : Int) : List QueuedMessage :=
  if retentionMs ≤ 0 then []
  else s.messages.takeWhile fun m => decide (m.enqueueTime ≤ now - retentionMs * millisecond)

/-- Removes expired messages from the front; returns their offsets in removal order. -/
def expireQueuedByRetention (s : Shard) (now : Time) (retentionMs : Int) : List Nat × Shard :=
  let removed := s.expired now retentionMs
  (removed.map (·.topicOffset),
    { s with messages := s.messages.drop removed.length
             dropCount := s.dropCount + removed.length })

/-- Moves the frontier over contiguous pending offsets, at most `fuel` of them. -/
def advanceCommit : Nat → Nat → List Nat → Nat × List Nat
  | 0, next, pending => (next, pending)
  | fuel + 1, next, pending =>
    if next ∈ pending then advanceCommit fuel (next + 1) (pending.filter (· ≠ next))
    else (next, pending)

/-- Marks an offset as processed and advances the contiguous frontier. -/
def recordTopicOffsetProcessed (s : Shard) (o : Nat) : Shard :=
  if o < s.nextCommitExclusive then s
  else
    let pending := if o ∈ s.pendingCommit then s.pendingCommit else o :: s.pendingCommit
    let (next, pending) := advanceCommit pending.length s.nextCommitExclusive pending
    { s with nextCommitExclusive := next, pendingCommit := pending }

/-- The retention deadline already scheduled is not after the candidate. -/
def shouldScheduleRetentionAt (s : Shard) (candidate : Time) : Bool :=
  match s.retentionNextFireScheduled with
  | none => true
  | some t => decide (candidate < t)

/-- Enqueue time of the head message. -/
def oldestQueuedEnqueueTime (s : Shard) : Option Time :=
  s.messages.head?.map (·.enqueueTime)

/-! ### What the operations leave alone -/

theorem record_eq (s : Shard) (o : Nat) : s.recordTopicOffsetProcessed o =
    { s with nextCommitExclusive := (s.recordTopicOffsetProcessed o).nextCommitExclusive
             pendingCommit := (s.recordTopicOffsetProcessed o).pendingCommit } := by
  unfold recordTopicOffsetProcessed
  split <;> rfl

@[simp] theorem record_messages (s : Shard) (o : Nat) :
    (s.recordTopicOffsetProcessed o).messages = s.messages := by
  rw [record_eq]

theorem foldl_record_eq (os : List Nat) (s : Shard) : os.foldl recordTopicOffsetProcessed s =
      { s with nextCommitExclusive := (os.foldl recordTopicOffsetProcessed s).nextCommitExclusive
               pendingCommit := (os.foldl recordTopicOffsetProcessed s).pendingCommit } := by
  induction os generalizing s with
  | nil => rfl
  | cons o os ih =>
    rw [List.foldl_cons, ih, record_eq]

/-- An enqueue appends the message, perhaps at the expense of the oldest one, or rejects it. -/
theorem enqueue_cases (s : Shard) (m : QueuedMessage) :
    (((s.enqueue m).1.accepted = false ∧ (s.enqueue m).1.droppedOldest = false) ∧
        (s.enqueue m).2 = { s with dropCount := s.dropCount + 1 }) ∨
      ((s.capacityReached = false ∧ (s.enqueue m).1 = { accepted := true }) ∧
        (s.enqueue m).2 = { s with messages := s.messages ++ [m] }) ∨
      ∃ oldest rest, s.messages = oldest :: rest ∧ (s.enqueue m).1.accepted = true ∧
        (s.enqueue m).1.droppedOldest = true ∧
        (s.enqueue m).1.evictedTopicOffset = oldest.topicOffset ∧
        (s.enqueue m).2 = { s with dropCount := s.dropCount + 1, messages := rest ++ [m] } := by
  unfold enqueue
  generalize (if normWord s.dropPolicy = "" then "block" else normWord s.dropPolicy) = policy
  by_cases hr : s.capacityReached = false
  · exact .inr (.inl ⟨⟨hr, by simp [hr]⟩, by simp [hr]⟩)
  · by_cases hold : policy = "drop_oldest"
    · subst hold
      cases hm : s.messages with
      | nil =>
        -- an empty backlog is below any capacity
        refine absurd ?_ hr
        simp only [capacityReached, hm, List.length_nil, Bool.and_eq_false_iff,
          decide_eq_false_iff_not]
        omega
      | cons oldest rest =>
        refine .inr (.inr ⟨oldest, rest, rfl, ?_⟩)
        simp [hr]
    · left
      rw [if_neg hr]
      by_cases hre : policy = "reject"
      · simp [hre, rejectWith]
      by_cases hn : policy = "drop_newest"
      · simp [hn, rejectWith]
      by_cases hb : policy = "block"
      · simp [hb, rejectWith]
      · simp [hold, hre, hn, hb, rejectWith]

theorem tryPopForDispatch_eq_some {s s' : Shard} {m : QueuedMessage}
    (h : s.tryPopForDispatch = some (m, s')) :
    s.saturated = false ∧ ∃ rest, s.messages = m :: rest ∧
      s' = { s with messages := rest, inFlight := s.inFlight + 1 } := by
  unfold tryPopForDispatch at h
  split at h
  · cases h
  · rename_i hs
    split at h
    · cases h
    · rename_i hc
      cases h
      exact ⟨by simpa using hs, _, hc, rfl⟩

end Shard

/-! ### The shard maps -/

/-- Names of shards: a queue of a broker, or a consumer group on a topic partition. The source keys
its maps by these parts joined with separators (`:` for queues, which no broker id of an edge
contains, and a control character for topics). -/
inductive ShardRef where
  | queue (brokerID topic : String)
  | topic (brokerID topic : String) (partition : Nat) (group : String)
deriving DecidableEq

/-- The shards and the high watermark of every topic partition. -/
structure BrokerQueues where
  shards : ShardRef → Option Shard := fun _ => none
  topicPartitionHW : String → String → Nat → Nat := fun _ _ _ => 0

namespace BrokerQueues

/-- Writes a shard. -/
def set (b : BrokerQueues) (ref : ShardRef) (shard : Shard) : BrokerQueues :=
  { b with shards := Function.update b.shards ref (some shard) }

/-- `NextTopicPartitionOffset`: assigns the next offset of a partition. -/
def nextTopicPartitionOffset (b : BrokerQueues) (brokerID topic : String) (partition : Nat) :
    Nat × BrokerQueues :=
  let o := b.topicPartitionHW brokerID topic partition
  (o, { b with topicPartitionHW := fun b' t' p' =>
    if b' = brokerID ∧ t' = topic ∧ p' = partition then o + 1 else b.topicPartitionHW b' t' p' })

end BrokerQueues

/-- A new queue shard with the effective behaviour of its broker. -/
def newQueueShard (brokerID topic : String) (eff : QueueBehavior) : Shard where
  brokerID := brokerID
  topic := topic
  capacity := max 0 eff.capacity
  maxConcurrency := if eff.consumerConcurrency ≤ (0 : Int) then 1 else eff.consumerConcurrency
  maxRedeliveries := eff.maxRedeliveries
  dropPolicy := eff.dropPolicy
  consumerTarget := eff.consumerTarget

/-- A new topic shard for one subscriber on one partition. -/
def newTopicShard (brokerID topic : String) (partition : Nat) (group : String) (eff : TopicBehavior)
    (sub : TopicSubscriber) : Shard where
  brokerID := brokerID
  topic := topic
  partition := partition
  capacity := max 0 eff.capacity
  maxConcurrency := if sub.consumerConcurrency ≤ (0 : Int) then 1 else sub.consumerConcurrency
  maxRedeliveries := sub.maxRedeliveries
  dropPolicy := if trimSpace sub.dropPolicy = "" then "block" else trimSpace sub.dropPolicy
  consumerTarget := trimSpace sub.consumerTarget
  ackTimeoutMs := sub.ackTimeoutMs
  consumerGroup := trimSpace group
  subscriberName := trimSpace sub.name

/-- `max(0, highWatermarkExclusive - committedExclusive)`. -/
def topicConsumerLagMessages (highWatermark committed : Nat) : ℚ :=
  (highWatermark - committed : Nat)

end SimCore.Resource
