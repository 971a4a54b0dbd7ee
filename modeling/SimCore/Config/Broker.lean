import SimCore.Config.Scenario

/-!
# Broker behaviour

Defaults, effective values and validation of queue and topic behaviour, and the two parsers of
`"serviceID:path"` targets. The validator accepts a target without a colon (the path is then `/`),
the runtime parser of consumer targets does not.

## Main definitions

* `effectiveQueueBehavior`, `effectiveTopicBehavior`: user values merged with the defaults
* `validateQueueBehavior`, `validateTopicBehavior`: the checks of the loader
* `parseDownstreamTargetForValidation`, `parseWorkloadTarget`: the two target parsers
-/

namespace SimCore.Config

/-! ### Targets -/

/-- The loader's target parser: `"serviceID:path"`, or `"serviceID"` with path `/`. -/
def parseDownstreamTargetForValidation (target : String) : Except String (String × String) :=
  let target := trimSpace target
  if target = "" then .error "target cannot be empty"
  else
    match splitN2 ':' target with
    | some (s, p) =>
      if trimSpace s = "" ∨ trimSpace p = "" then .error "service and path must be non-empty"
      else .ok (trimSpace s, trimSpace p)
    | none => .ok (target, "/")

/-- The parser of workload and consumer targets at run time: the colon is required. -/
def parseWorkloadTarget (target : String) : Except String (String × String) :=
  match splitN2 ':' target with
  | none =>
    .error ("invalid workload target format: " ++ target ++ " (expected serviceID:path)")
  | some (s, p) =>
    if trimSpace s = "" then
      .error ("invalid workload target format: " ++ target ++ " (serviceID must be non-empty)")
    else if trimSpace p = "" then
      .error ("invalid workload target format: " ++ target ++ " (path must be non-empty)")
    else .ok (trimSpace s, trimSpace p)

/-- The runtime parser of queue and topic consumer targets. -/
def parseConsumerTarget (target : String) : Except String (String × String) :=
  parseWorkloadTarget (trimSpace target)

/-! ### Effective values -/

/-- Queue semantics when nothing is configured. -/
def defaultQueueBehavior : QueueBehavior where
  capacity := 10000
  consumerConcurrency := 1
  deliveryLatencyMs := { mean := 1, sigma := 0 }
  ackTimeoutMs := 30000
  maxRedeliveries := 3
  dropPolicy := "block"

/-- The value of `v` if it satisfies the check, else the default. -/
def orDefault {α : Type} (check : Bool) (v default : α) : α :=
  if check then v else default

/-- User queue configuration merged with the defaults; capacity `-1` becomes unlimited (`0`). -/
def effectiveQueueBehavior : Option QueueBehavior → QueueBehavior
  | none => defaultQueueBehavior
  | some q =>
    let d := defaultQueueBehavior
    { capacity := if q.capacity = -1 then 0 else orDefault (q.capacity > 0) q.capacity d.capacity
      consumerConcurrency :=
        orDefault (q.consumerConcurrency > 0) q.consumerConcurrency d.consumerConcurrency
      minConsumerConcurrency :=
        orDefault (q.minConsumerConcurrency > 0) q.minConsumerConcurrency d.minConsumerConcurrency
      maxConsumerConcurrency :=
        orDefault (q.maxConsumerConcurrency > 0) q.maxConsumerConcurrency d.maxConsumerConcurrency
      consumerTarget :=
        orDefault (trimSpace q.consumerTarget ≠ "") (trimSpace q.consumerTarget) d.consumerTarget
      deliveryLatencyMs :=
        orDefault (q.deliveryLatencyMs.mean > 0 || q.deliveryLatencyMs.sigma > 0)
          q.deliveryLatencyMs d.deliveryLatencyMs
      ackTimeoutMs := orDefault (q.ackTimeoutMs > 0) q.ackTimeoutMs d.ackTimeoutMs
      maxRedeliveries := orDefault (q.maxRedeliveries ≥ 0) q.maxRedeliveries d.maxRedeliveries
      dlqTarget := orDefault (trimSpace q.dlqTarget ≠ "") (trimSpace q.dlqTarget) d.dlqTarget
      dropPolicy := orDefault (trimSpace q.dropPolicy ≠ "") (trimSpace q.dropPolicy) d.dropPolicy
      asyncFireAndForget := q.asyncFireAndForget || d.asyncFireAndForget }

/-- Topic semantics when nothing is configured. -/
def defaultTopicBehavior : TopicBehavior where
  partitions := 1
  retentionMs := 600000
  capacity := 10000
  deliveryLatencyMs := { mean := 1, sigma := 0 }
  publishAck := "leader_ack"

/-- User topic configuration merged with the defaults; capacity `-1` becomes unlimited (`0`). -/
def effectiveTopicBehavior : Option TopicBehavior → TopicBehavior
  | none => defaultTopicBehavior
  | some t =>
    let d := defaultTopicBehavior
    { partitions := orDefault (t.partitions > 0) t.partitions d.partitions
      retentionMs := orDefault (t.retentionMs > 0) t.retentionMs d.retentionMs
      capacity := if t.capacity = -1 then 0 else orDefault (t.capacity > 0) t.capacity d.capacity
      deliveryLatencyMs :=
        orDefault (t.deliveryLatencyMs.mean > 0 || t.deliveryLatencyMs.sigma > 0)
          t.deliveryLatencyMs d.deliveryLatencyMs
      publishAck := orDefault (trimSpace t.publishAck ≠ "") (trimSpace t.publishAck) d.publishAck
      asyncFireAndForget := t.asyncFireAndForget || d.asyncFireAndForget
      subscribers := orDefault (!t.subscribers.isEmpty) t.subscribers d.subscribers }

/-- Insertion of a subscriber behind the ones not above it, by group and then by target. -/
def insertSubscriber (sub : TopicSubscriber) : List TopicSubscriber → List TopicSubscriber
  | [] => [sub]
  | head :: rest =>
    let g := trimSpace sub.consumerGroup
    let h := trimSpace head.consumerGroup
    let before :=
      if g ≠ h then decide (g < h)
      else decide (trimSpace sub.consumerTarget < trimSpace head.consumerTarget)
    if before then sub :: head :: rest else head :: insertSubscriber sub rest

/-- Subscribers in a stable order by consumer group, `CanonicalTopicSubscribersForHash`. -/
def canonicalTopicSubscribersForHash (t : Option TopicBehavior) : List TopicSubscriber :=
  ((t.map TopicBehavior.subscribers).getD []).foldl (fun acc sub => insertSubscriber sub acc) []

/-! ### Validation -/

/-- A failed check with its message, as the early returns of the loader. -/
def check (ok : Bool) (message : String) : Except String Unit :=
  if ok then .ok () else .error message

def validDropPolicy (policy : String) : Bool :=
  policy == "block" || policy == "reject" || policy == "drop_oldest" || policy == "drop_newest"

/-- Checks that a target names a declared service and endpoint. -/
def checkTarget (label : String) (missing : String) (target : String) (serviceIDs : List String)
    (endpointRef : List String) : Except String Unit := do
  let (svc, path) ←
    match parseDownstreamTargetForValidation target with
    | .ok parts => Except.ok parts
    | .error message => .error (label ++ ": " ++ message)
  check (serviceIDs.contains svc) (missing ++ " service " ++ svc ++ " does not exist")
  check (endpointRef.contains (endpointKey svc path))
    (missing ++ " endpoint " ++ svc ++ ":" ++ path ++ " does not exist")

/-- The checks on the behaviour of a queue service. -/
def validateQueueBehavior (svcID : String) (q : Option QueueBehavior) (endpointRef : List String)
    (serviceIDs : List String) : Except String Unit := do
  let field := "service " ++ svcID ++ ": behavior.queue"
  match q with
  | none => .error (field ++ " is required for kind queue")
  | some q => do
    check (q.capacity ≥ -1) (field ++ ".capacity must be >= -1 (-1 = unlimited)")
    check (q.consumerConcurrency ≥ 0) (field ++ ".consumer_concurrency cannot be negative")
    check (q.minConsumerConcurrency ≥ 0) (field ++ ".min_consumer_concurrency cannot be negative")
    check (q.maxConsumerConcurrency ≥ 0) (field ++ ".max_consumer_concurrency cannot be negative")
    check (q.deliveryLatencyMs.mean ≥ 0 && q.deliveryLatencyMs.sigma ≥ 0)
      (field ++ ".delivery_latency_ms mean/sigma cannot be negative")
    check (q.ackTimeoutMs ≥ 0) (field ++ ".ack_timeout_ms cannot be negative")
    check (q.maxRedeliveries ≥ 0) (field ++ ".max_redeliveries cannot be negative")
    let eff := effectiveQueueBehavior (some q)
    check (trimSpace eff.consumerTarget ≠ "")
      (field ++ ".consumer_target is required (format serviceID:path)")
    checkTarget (field ++ ".consumer_target") ("service " ++ svcID ++ ": queue consumer_target")
      (trimSpace eff.consumerTarget) serviceIDs endpointRef
    check (eff.consumerConcurrency ≥ 0) (field ++ ".consumer_concurrency cannot be negative")
    check (eff.minConsumerConcurrency ≥ 0)
      (field ++ ".min_consumer_concurrency cannot be negative")
    check (eff.maxConsumerConcurrency ≥ 0)
      (field ++ ".max_consumer_concurrency cannot be negative")
    check (!(eff.minConsumerConcurrency > 0 && eff.minConsumerConcurrency < 1))
      (field ++ ".min_consumer_concurrency must be >= 1 when set")
    check (!(eff.maxConsumerConcurrency > 0 && eff.maxConsumerConcurrency < 1))
      (field ++ ".max_consumer_concurrency must be >= 1 when set")
    check (!(eff.minConsumerConcurrency > 0 && eff.maxConsumerConcurrency > 0 &&
        eff.minConsumerConcurrency > eff.maxConsumerConcurrency))
      (field ++ " min_consumer_concurrency cannot exceed max_consumer_concurrency")
    check (!(eff.consumerConcurrency > 0 && eff.minConsumerConcurrency > 0 &&
        eff.consumerConcurrency < eff.minConsumerConcurrency))
      (field ++ ".consumer_concurrency cannot be below min_consumer_concurrency")
    check (!(eff.consumerConcurrency > 0 && eff.maxConsumerConcurrency > 0 &&
        eff.consumerConcurrency > eff.maxConsumerConcurrency))
      (field ++ ".consumer_concurrency cannot exceed max_consumer_concurrency")
    check (validDropPolicy (normWord eff.dropPolicy))
      (field ++ ".drop_policy must be block, reject, drop_oldest, or drop_newest")
    if trimSpace eff.dlqTarget ≠ "" then
      checkTarget (field ++ ".dlq") ("service " ++ svcID ++ ": queue dlq") (trimSpace eff.dlqTarget)
        serviceIDs endpointRef
    else .ok ()

/-- The checks on one subscriber, given the groups and names already seen. -/
def validateTopicSubscriber (svcID : String) (i : Nat) (sub : TopicSubscriber)
    (groups names : List String) (endpointRef serviceIDs : List String) :
    Except String (List String × List String) := do
  let topic := "service " ++ svcID ++ ": behavior.topic"
  let field := topic ++ ".subscribers[" ++ itoa i ++ "]"
  check (trimSpace sub.consumerTarget ≠ "") (field ++ ".consumer_target is required")
  checkTarget (field ++ ".consumer_target")
    ("service " ++ svcID ++ ": topic subscriber consumer_target") (trimSpace sub.consumerTarget)
    serviceIDs endpointRef
  let g := trimSpace sub.consumerGroup
  check (g ≠ "") (field ++ ".consumer_group is required")
  check (!groups.contains g)
    ("service " ++ svcID ++ ": duplicate behavior.topic subscriber consumer_group " ++ quote g)
  let nm := trimSpace sub.name
  check (nm == "" || !names.contains nm)
    ("service " ++ svcID ++ ": duplicate behavior.topic subscriber name " ++ quote nm)
  check (sub.consumerConcurrency ≥ 0) (field ++ ".consumer_concurrency cannot be negative")
  check (sub.minConsumerConcurrency ≥ 0) (field ++ ".min_consumer_concurrency cannot be negative")
  check (sub.maxConsumerConcurrency ≥ 0) (field ++ ".max_consumer_concurrency cannot be negative")
  check (sub.ackTimeoutMs ≥ 0) (field ++ ".ack_timeout_ms cannot be negative")
  check (sub.maxRedeliveries ≥ 0) (field ++ ".max_redeliveries cannot be negative")
  check (!(sub.minConsumerConcurrency > 0 && sub.minConsumerConcurrency < 1))
    (field ++ ".min_consumer_concurrency must be >= 1 when set")
  check (!(sub.maxConsumerConcurrency > 0 && sub.maxConsumerConcurrency < 1))
    (field ++ ".max_consumer_concurrency must be >= 1 when set")
  check (!(sub.minConsumerConcurrency > 0 && sub.maxConsumerConcurrency > 0 &&
      sub.minConsumerConcurrency > sub.maxConsumerConcurrency))
    (field ++ " min_consumer_concurrency cannot exceed max_consumer_concurrency")
  check (!(sub.consumerConcurrency > 0 && sub.minConsumerConcurrency > 0 &&
      sub.consumerConcurrency < sub.minConsumerConcurrency))
    (field ++ ".consumer_concurrency cannot be below min_consumer_concurrency")
  check (!(sub.consumerConcurrency > 0 && sub.maxConsumerConcurrency > 0 &&
      sub.consumerConcurrency > sub.maxConsumerConcurrency))
    (field ++ ".consumer_concurrency cannot exceed max_consumer_concurrency")
  let dp := if normWord sub.dropPolicy = "" then "block" else normWord sub.dropPolicy
  check (validDropPolicy dp)
    (field ++ ".drop_policy must be block, reject, drop_oldest, or drop_newest")
  if trimSpace sub.dlq ≠ "" then
    checkTarget (field ++ ".dlq") ("service " ++ svcID ++ ": topic subscriber dlq")
      (trimSpace sub.dlq) serviceIDs endpointRef
  return (g :: groups, if nm = "" then names else nm :: names)

/-- The subscribers of a topic, checked in order. -/
def validateTopicSubscribers (svcID : String) (endpointRef serviceIDs : List String) :
    Nat → List TopicSubscriber → List String → List String → Except String Unit
  | _, [], _, _ => .ok ()
  | i, sub :: rest, groups, names => do
    let (groups, names) ← validateTopicSubscriber svcID i sub groups names endpointRef serviceIDs
    validateTopicSubscribers svcID endpointRef serviceIDs (i + 1) rest groups names

/-- The checks on the behaviour of a topic service. -/
def validateTopicBehavior (svcID : String) (t : Option TopicBehavior) (endpointRef : List String)
    (serviceIDs : List String) : Except String Unit := do
  let field := "service " ++ svcID ++ ": behavior.topic"
  match t with
  | none => .error (field ++ " is required for kind topic")
  | some t => do
    check (t.partitions ≥ 0) (field ++ ".partitions cannot be negative")
    check (t.retentionMs ≥ 0) (field ++ ".retention_ms cannot be negative")
    check (t.capacity ≥ -1) (field ++ ".capacity must be >= -1 (-1 = unlimited)")
    check (t.deliveryLatencyMs.mean ≥ 0 && t.deliveryLatencyMs.sigma ≥ 0)
      (field ++ ".delivery_latency_ms mean/sigma cannot be negative")
    let eff := effectiveTopicBehavior (some t)
    check (!eff.subscribers.isEmpty) (field ++ ".subscribers must be non-empty")
    check (eff.partitions ≥ 1) (field ++ ".partitions must be >= 1")
    validateTopicSubscribers svcID endpointRef serviceIDs 0 eff.subscribers [] []

end SimCore.Config
