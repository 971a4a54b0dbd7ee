import SimCore.Base.Text

/-!
# Scenarios

The scenario records of `pkg/config`, restricted to the fields that the run, its validation and the
search for better scenarios read, and the pure readings of single fields (`DownstreamCall.isAsync`,
`mergedLocalFailureRate` and so on). Optional YAML records are `Option`, maps are association lists,
and numbers written as floats in the source are rationals.

## Main definitions

* `Scenario` and its parts
* `Endpoint.key`: the map key `"serviceID:path"` of an endpoint
* `Scenario.service?`, `Scenario.endpoint?`: the lookups of the handler state
-/

namespace SimCore.Config

/-- Latency with mean and standard deviation, in milliseconds. -/
structure LatencySpec where
  mean : ℚ := 0
  sigma : ℚ := 0
deriving DecidableEq

/-- Instance selection policy of a service or an endpoint. -/
structure RoutingPolicy where
  strategy : String := ""
  stickyKeyFrom : String := ""
  localityZoneFrom : String := ""
  weights : List (String × ℚ) := []
deriving DecidableEq

/-- A declared call to a downstream service. -/
structure DownstreamCall where
  target : String := ""
  mode : String := ""
  kind : String := ""
  probability : ℚ := 0
  callCountMean : ℚ := 0
  callLatencyMs : LatencySpec := {}
  timeoutMs : ℚ := 0
  failureRate : ℚ := 0
  retryable : Option Bool := none
  downstreamFractionCPU : ℚ := 0
  partitionKey : String := ""
  partitionKeyFrom : String := ""
deriving DecidableEq

structure Endpoint where
  path : String
  meanCPUMs : ℚ := 0
  cpuSigmaMs : ℚ := 0
  defaultMemoryMB : ℚ := 0
  failureRate : ℚ := 0
  timeoutMs : ℚ := 0
  ioMs : LatencySpec := {}
  connectionPool : Int := 0
  routing : Option RoutingPolicy := none
  downstream : List DownstreamCall := []
  netLatencyMs : LatencySpec := {}
deriving DecidableEq

/-- Hit and miss sampling of cache-style services. -/
structure CacheBehavior where
  hitRate : ℚ := 0
  hitLatencyMs : LatencySpec := {}
  missLatencyMs : LatencySpec := {}
deriving DecidableEq

/-- Broker semantics of services with kind `queue`. -/
structure QueueBehavior where
  capacity : Int := 0
  consumerConcurrency : Int := 0
  minConsumerConcurrency : Int := 0
  maxConsumerConcurrency : Int := 0
  consumerTarget : String := ""
  deliveryLatencyMs : LatencySpec := {}
  ackTimeoutMs : ℚ := 0
  maxRedeliveries : Int := 0
  dlqTarget : String := ""
  dropPolicy : String := ""
  asyncFireAndForget : Bool := false
deriving DecidableEq

/-- One consumer group subscription on a topic service. -/
structure TopicSubscriber where
  name : String := ""
  consumerTarget : String := ""
  consumerGroup : String := ""
  consumerConcurrency : Int := 0
  minConsumerConcurrency : Int := 0
  maxConsumerConcurrency : Int := 0
  ackTimeoutMs : ℚ := 0
  maxRedeliveries : Int := 0
  dlq : String := ""
  dropPolicy : String := ""
deriving DecidableEq

/-- Publish and subscribe semantics of services with kind `topic`. -/
structure TopicBehavior where
  partitions : Int := 0
  retentionMs : Int := 0
  capacity : Int := 0
  deliveryLatencyMs : LatencySpec := {}
  publishAck : String := ""
  asyncFireAndForget : Bool := false
  subscribers : List TopicSubscriber := []
deriving DecidableEq

/-- Failure, saturation, pool, cache and broker semantics of a service. -/
structure ServiceBehavior where
  failureRate : ℚ := 0
  saturationLatencyFactor : ℚ := 0
  maxConnections : Int := 0
  cache : Option CacheBehavior := none
  queue : Option QueueBehavior := none
  topic : Option TopicBehavior := none
deriving DecidableEq

/-- Placement preferences and constraints of a service. -/
structure PlacementPolicy where
  requiredZones : List String := []
  antiAffinityZones : List String := []
  requiredHostLabels : List (String × String) := []
  antiAffinityServices : List String := []
  maxReplicasPerHost : Int := 0
deriving DecidableEq

/-- The dimensions in which optimizers may scale a service. -/
structure ScalingPolicy where
  horizontal : Bool := false
  verticalCPU : Bool := false
  verticalMemory : Bool := false
deriving DecidableEq

/-- A microservice. -/
structure Service where
  id : String
  kind : String := ""
  role : String := ""
  replicas : Int := 1
  model : String := "cpu"
  cpuCores : ℚ := 0
  memoryMB : ℚ := 0
  externalNetworkLatencyMs : Option LatencySpec := none
  behavior : Option ServiceBehavior := none
  scaling : Option ScalingPolicy := none
  placement : Option PlacementPolicy := none
  routing : Option RoutingPolicy := none
  endpoints : List Endpoint := []
deriving DecidableEq

structure Host where
  id : String
  cores : Int
  memoryGB : Int := 0
  zone : String := ""
  labels : List (String × String) := []
deriving DecidableEq

/-- Caps on downstream trace expansion; zero means unlimited. -/
structure SimulationLimits where
  maxTraceDepth : Int := 0
  maxAsyncHops : Int := 0
deriving DecidableEq

/-- Topology overlays on the network latency of downstream hops. -/
structure NetworkConfig where
  symmetricCrossZoneLatency : Bool := false
  sameHostLatencyMs : LatencySpec := {}
  sameZoneLatencyMs : LatencySpec := {}
  defaultCrossZoneLatencyMs : LatencySpec := {}
  crossZoneLatencyMs : List (String × List (String × LatencySpec)) := []
  externalLatencyMs : LatencySpec := {}
deriving DecidableEq

/-- Arrival process of a workload row. -/
structure ArrivalSpec where
  type : String
  rateRPS : ℚ
  stdDevRPS : ℚ := 0
  burstRateRPS : ℚ := 0
  burstDurationSeconds : ℚ := 0
  quietDurationSeconds : ℚ := 0
deriving DecidableEq

/-- A workload entry point. -/
structure WorkloadPattern where
  source : String
  sourceKind : String := ""
  trafficClass : String := ""
  metadata : List (String × String) := []
  target : String
  arrival : ArrivalSpec
deriving DecidableEq

/-- How failed calls are retried. -/
structure RetryPolicy where
  enabled : Bool
  maxRetries : Int
  backoff : String
  baseMs : Int
deriving DecidableEq

/-- Whether services are scaled during a run. -/
structure AutoscalingPolicy where
  enabled : Bool
deriving DecidableEq

/-- The policies of a scenario. -/
structure Policies where
  autoscaling : Option AutoscalingPolicy := none
  retries : Option RetryPolicy := none
deriving DecidableEq

/-- A complete simulation scenario. -/
structure Scenario where
  simulationLimits : Option SimulationLimits := none
  network : Option NetworkConfig := none
  hosts : List Host
  services : List Service
  workload : List WorkloadPattern
  policies : Option Policies := none
deriving DecidableEq

/-- The retry configuration, if there is one. -/
def Scenario.retries (sc : Scenario) : Option RetryPolicy :=
  sc.policies.bind Policies.retries

/-! ### Readings of single fields -/

/-- Whether an edge is asynchronous; the empty mode is synchronous. -/
def DownstreamCall.isAsync (d : DownstreamCall) : Bool :=
  normWord d.mode == "async" || normWord d.mode == "event"

/-- Whether retries are allowed on an edge; omitted means yes. -/
def DownstreamCall.isRetryable (d : DownstreamCall) : Bool :=
  d.retryable.getD true

def Service.kindNorm (svc : Service) : String :=
  normWord svc.kind

/-- The map key of an endpoint, `"serviceID:path"`. -/
def endpointKey (serviceID path : String) : String :=
  serviceID ++ ":" ++ path

/-- Lookup in a Go map filled from a list: a later entry overwrites an earlier one. -/
def lookupLast {α : Type} (key : String) (entries : List (String × α)) : Option α :=
  entries.reverse.lookup key

/-- `state.services[id]`. -/
def Scenario.service? (sc : Scenario) (id : String) : Option Service :=
  lookupLast id (sc.services.map fun svc => (svc.id, svc))

/-- The entries written into `state.endpoints`, in order. -/
def Scenario.endpointEntries (sc : Scenario) : List (String × Endpoint) :=
  sc.services.flatMap fun svc => svc.endpoints.map fun ep => (endpointKey svc.id ep.path, ep)

/-- `state.endpoints[key]`. -/
def Scenario.endpoint? (sc : Scenario) (serviceID path : String) : Option Endpoint :=
  lookupLast (endpointKey serviceID path) sc.endpointEntries

/-- Failure probability of a call: the edge's rate, merged with the rate of an external target. -/
def mergedDependencyFailureRate (ds : DownstreamCall) (tgt : Option Service) : ℚ :=
  let p := if ds.failureRate < 0 then 0 else ds.failureRate
  let p :=
    match tgt.bind fun svc => svc.behavior.map fun b => (svc, b) with
    | some (svc, b) =>
      if svc.kindNorm = "external" ∧ b.failureRate > 0 then 1 - (1 - p) * (1 - b.failureRate)
      else p
    | none => p
  if p > 1 then 1 else p

/-- Probability that a request fails locally. -/
def mergedLocalFailureRate (svc : Service) (ep : Endpoint) : ℚ :=
  let p := (svc.behavior.map ServiceBehavior.failureRate).getD 0 + ep.failureRate
  if p > 1 then 1 else if p < 0 then 0 else p

/-- Whether the request occupies a datastore connection after its CPU work. -/
def isDatastoreWorkload (svc : Service) (ep : Endpoint) : Bool :=
  if svc.kindNorm == "database" || normWord svc.role == "datastore" ||
      normWord svc.model == "db_latency" then
    true
  else if svc.kindNorm == "external" then
    decide (ep.ioMs.mean > 0) || decide (ep.ioMs.sigma > 0) || decide (ep.connectionPool > 0) ||
      (match svc.behavior with
        | some b => decide (b.maxConnections > 0)
        | none => false)
  else
    false

/-- The connection limit in force: the endpoint's pool, else the service's, else none (`0`). -/
def effectiveDBMaxConnections (svc : Service) (ep : Endpoint) : Int :=
  if ep.connectionPool > 0 then ep.connectionPool
  else
    match svc.behavior with
    | some b => if b.maxConnections > 0 then b.maxConnections else 0
    | none => 0

/-- A service with one endpoint and one client on some hosts, for examples. -/
def oneService (hosts : List Host) (memoryMB : ℚ) : Scenario where
  hosts := hosts
  services := [{ id := "api", replicas := 1, cpuCores := 1, memoryMB := memoryMB
                 endpoints := [{ path := "/", meanCPUMs := 1 }] }]
  workload := [{ source := "client", target := "api:/"
                 arrival := { type := "poisson", rateRPS := 1 } }]

end SimCore.Config
