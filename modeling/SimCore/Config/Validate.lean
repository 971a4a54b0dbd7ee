import SimCore.Config.Broker

/-!
# Scenario validation

`ValidateScenario` of the loader, check by check and in the order of the source. Every check is an
early return with its message. The source writes normalised arrival types back into the workload
rows; the rewritten rows are `Scenario.normalizedWorkload`.

## Main definitions

* `validateScenario`: the loader's verdict on a scenario
* `Scenario.normalizedWorkload`: the workload rows as the loader leaves them
* `Scenario.Valid`: the scenarios the loader accepts
-/

namespace SimCore.Config

/-- Runs a check on every element, with its index, and stops at the first failure. -/
def checkEach {α : Type} (f : Nat → α → Except String Unit) : Nat → List α → Except String Unit
  | _, [] => .ok ()
  | i, a :: rest => do
    f i a
    checkEach f (i + 1) rest

/-- Whether a latency has a negative part. -/
def LatencySpec.negative (l : LatencySpec) : Bool :=
  decide (l.mean < 0) || decide (l.sigma < 0)

/-- Whether a rate lies outside `[0, 1]`. -/
def outsideUnit (p : ℚ) : Bool :=
  decide (p < 0) || decide (p > 1)

/-- The arrival types after normalisation; `burst` is an alias of `bursty`. -/
def normalizeArrivalType (t : String) : Except String String :=
  let t := trimSpace (toLower t)
  if t = "" then .error "arrival type cannot be empty"
  else
    let t := if t = "burst" then "bursty" else t
    if ["poisson", "exponential", "uniform", "normal", "gaussian", "bursty", "constant"].contains t
    then .ok t
    else .error ("invalid arrival type " ++ quote t ++ " (supported: poisson, exponential, " ++
      "uniform, normal, gaussian, bursty, constant; alias burst -> bursty)")

/-- The checks on one host, given the ids already seen. -/
def validateHosts : List String → List Host → Except String Unit
  | _, [] => .ok ()
  | seen, host :: rest => do
    check (host.id ≠ "") "host id cannot be empty"
    check (!seen.contains host.id) ("duplicate host id: " ++ host.id)
    check (host.cores > 0) ("host " ++ host.id ++ ": cores must be positive")
    check (host.memoryGB ≥ 0) ("host " ++ host.id ++ ": memory_gb cannot be negative")
    validateHosts (host.id :: seen) rest

/-- The service kinds the loader accepts. -/
def validKinds : List String :=
  ["", "api_gateway", "service", "database", "cache", "external", "queue", "topic"]

/-- The service models the loader accepts. -/
def validModels : List String := ["cpu", "mixed", "db_latency"]

/-- The checks on a service's cache behaviour. -/
def validateCache (field : String) (c : CacheBehavior) : Except String Unit := do
  check (!outsideUnit c.hitRate)
    (field ++ ".cache.hit_rate must be in [0,1], got " ++ toString c.hitRate)
  check (!c.hitLatencyMs.negative) (field ++ ".cache.hit_latency_ms mean/sigma cannot be negative")
  check (!c.missLatencyMs.negative)
    (field ++ ".cache.miss_latency_ms mean/sigma cannot be negative")

/-- The checks on a service's behaviour block. -/
def validateBehavior (svcID : String) (b : ServiceBehavior) : Except String Unit := do
  let field := "service " ++ svcID ++ ": behavior"
  check (!outsideUnit b.failureRate)
    (field ++ ".failure_rate must be in [0,1], got " ++ toString b.failureRate)
  check (b.saturationLatencyFactor ≥ 0)
    (field ++ ".saturation_latency_factor cannot be negative")
  check (b.maxConnections ≥ 0) (field ++ ".max_connections cannot be negative")
  match b.cache with
  | some c => validateCache field c
  | none => .ok ()

def validateEndpoint (svcID : String) (ep : Endpoint) : Except String Unit := do
  check (ep.path ≠ "") ("service " ++ svcID ++ ": endpoint path cannot be empty")
  let field := "service " ++ svcID ++ ", endpoint " ++ ep.path ++ ": "
  check (ep.meanCPUMs ≥ 0) (field ++ "mean_cpu_ms cannot be negative")
  check (ep.cpuSigmaMs ≥ 0) (field ++ "cpu_sigma_ms cannot be negative")
  check (ep.netLatencyMs.mean ≥ 0) (field ++ "net_latency_ms.mean cannot be negative")
  check (ep.netLatencyMs.sigma ≥ 0) (field ++ "net_latency_ms.sigma cannot be negative")
  check (!outsideUnit ep.failureRate)
    (field ++ "failure_rate must be in [0,1], got " ++ toString ep.failureRate)
  check (ep.timeoutMs ≥ 0) (field ++ "timeout_ms cannot be negative")
  check (!ep.ioMs.negative) (field ++ "io_ms mean/sigma cannot be negative")
  check (ep.connectionPool ≥ 0) (field ++ "connection_pool cannot be negative")

/-- First pass over the services: ids and local properties, given the ids already seen. -/
def validateServices : List String → List Service → Except String Unit
  | _, [] => .ok ()
  | seen, svc :: rest => do
    check (svc.id ≠ "") "service id cannot be empty"
    check (!seen.contains svc.id) ("duplicate service id: " ++ svc.id)
    let field := "service " ++ svc.id ++ ": "
    check (svc.replicas > 0) (field ++ "replicas must be positive")
    check (validKinds.contains svc.kindNorm)
      (field ++ "unknown or unsupported kind " ++ quote svc.kind)
    check (validModels.contains svc.model)
      (field ++ "invalid model " ++ svc.model ++ " (must be cpu, mixed, or db_latency)")
    check (!svc.endpoints.isEmpty) (field ++ "at least one endpoint must be defined")
    match svc.behavior with
    | some b => validateBehavior svc.id b
    | none => .ok ()
    checkEach (fun _ ep => validateEndpoint svc.id ep) 0 svc.endpoints
    validateServices (svc.id :: seen) rest

def validDownstreamModes : List String := ["", "sync", "async", "event"]

def validDownstreamKinds : List String := ["", "rest", "grpc", "db", "queue", "topic", "external"]

/-- Second pass: the checks on one downstream call, given the declared ids, keys and kinds. -/
def validateDownstream (sc : Scenario) (serviceIDs endpointRef : List String) (svcID path : String)
    (ds : DownstreamCall) : Except String Unit := do
  let field := "service " ++ svcID ++ ", endpoint " ++ path ++ ": "
  check (ds.target ≠ "") (field ++ "downstream 'to' cannot be empty")
  let (tgtSvc, tgtPath) ←
    match parseDownstreamTargetForValidation ds.target with
    | .ok parts => Except.ok parts
    | .error message => .error (field ++ "downstream to " ++ quote ds.target ++ ": " ++ message)
  check (serviceIDs.contains tgtSvc)
    (field ++ "downstream service " ++ tgtSvc ++ " does not exist")
  check (endpointRef.contains (endpointKey tgtSvc tgtPath))
    (field ++ "downstream endpoint " ++ tgtSvc ++ ":" ++ tgtPath ++ " does not exist")
  let kind := normWord ds.kind
  check (validDownstreamModes.contains (normWord ds.mode))
    (field ++ "invalid downstream mode " ++ quote ds.mode)
  check (validDownstreamKinds.contains kind) (field ++ "invalid downstream kind " ++ quote ds.kind)
  check (!outsideUnit ds.probability)
    (field ++ "downstream probability must be in [0,1], got " ++ toString ds.probability)
  check (ds.timeoutMs ≥ 0) (field ++ "downstream timeout_ms cannot be negative")
  check (!outsideUnit ds.failureRate)
    (field ++ "downstream failure_rate must be in [0,1], got " ++ toString ds.failureRate)
  check (!outsideUnit ds.downstreamFractionCPU)
    (field ++ "downstream_fraction_cpu must be in [0,1], got " ++ toString ds.downstreamFractionCPU)
  let tgtKind := ((sc.service? tgtSvc).map Service.kindNorm).getD ""
  check (!(kind == "queue" && tgtKind != "queue"))
    (field ++ "downstream kind queue requires target service " ++ tgtSvc ++ " to have kind queue")
  check (!(tgtKind == "queue" && kind != "" && kind != "queue"))
    (field ++ "downstream to queue service " ++ tgtSvc ++ " must use kind queue (or omit kind)")
  check (!(kind == "topic" && tgtKind != "topic"))
    (field ++ "downstream kind topic requires target service " ++ tgtSvc ++ " to have kind topic")
  check (!(tgtKind == "topic" && kind != "" && kind != "topic"))
    (field ++ "downstream to topic service " ++ tgtSvc ++ " must use kind topic (or omit kind)")

/-- The checks on one workload row. -/
def validateWorkload (serviceIDs endpointRef : List String) (i : Nat) (wl : WorkloadPattern) :
    Except String Unit := do
  let field := "workload " ++ itoa i ++ ": "
  check (wl.source ≠ "") (field ++ "'from' cannot be empty")
  check (wl.target ≠ "") (field ++ "'to' cannot be empty")
  check (wl.arrival.type ≠ "") (field ++ "arrival type cannot be empty")
  match normalizeArrivalType wl.arrival.type with
  | .ok _ => .ok ()
  | .error message => .error (field ++ message)
  check (wl.arrival.rateRPS > 0) (field ++ "arrival rate_rps must be positive")
  let (svc, path) ←
    match parseDownstreamTargetForValidation wl.target with
    | .ok parts => Except.ok parts
    | .error message => .error (field ++ "invalid to " ++ quote wl.target ++ ": " ++ message)
  check (serviceIDs.contains svc) (field ++ "target service " ++ svc ++ " does not exist")
  check (endpointRef.contains (endpointKey svc path))
    (field ++ "target endpoint " ++ svc ++ ":" ++ path ++ " does not exist")

/-- The loader's verdict on a scenario. -/
def validateScenario (sc : Scenario) : Except String Unit := do
  match sc.simulationLimits with
  | some lim => do
    check (lim.maxTraceDepth ≥ 0) "simulation_limits.max_trace_depth cannot be negative"
    check (lim.maxAsyncHops ≥ 0) "simulation_limits.max_async_hops cannot be negative"
  | none => .ok ()
  check (!sc.hosts.isEmpty) "at least one host must be defined"
  validateHosts [] sc.hosts
  check (!sc.services.isEmpty) "at least one service must be defined"
  validateServices [] sc.services
  let serviceIDs := sc.services.map Service.id
  let endpointRef := sc.endpointEntries.map Prod.fst
  checkEach (fun _ svc =>
    if svc.kindNorm = "queue" then
      validateQueueBehavior svc.id (svc.behavior.bind ServiceBehavior.queue) endpointRef serviceIDs
    else .ok ()) 0 sc.services
  checkEach (fun _ svc =>
    if svc.kindNorm = "topic" then
      validateTopicBehavior svc.id (svc.behavior.bind ServiceBehavior.topic) endpointRef serviceIDs
    else .ok ()) 0 sc.services
  checkEach (fun _ svc =>
    checkEach (fun _ ep =>
      checkEach (fun _ ds => validateDownstream sc serviceIDs endpointRef svc.id ep.path ds) 0
        ep.downstream) 0 svc.endpoints) 0 sc.services
  check (!sc.workload.isEmpty) "at least one workload pattern must be defined"
  checkEach (validateWorkload serviceIDs endpointRef) 0 sc.workload

/-- A workload row as the loader leaves it: the arrival type is replaced by its normal form. -/
def WorkloadPattern.normalized (wl : WorkloadPattern) : WorkloadPattern :=
  { wl with arrival := { wl.arrival with
      type := (normalizeArrivalType wl.arrival.type).toOption.getD wl.arrival.type } }

@[simp] theorem WorkloadPattern.normalized_rateRPS (wl : WorkloadPattern) :
    wl.normalized.arrival.rateRPS = wl.arrival.rateRPS := by
  rw [WorkloadPattern.normalized]

@[simp] theorem WorkloadPattern.normalized_target (wl : WorkloadPattern) :
    wl.normalized.target = wl.target := by
  rw [WorkloadPattern.normalized]

/-- The workload rows as the loader leaves them. -/
def Scenario.normalizedWorkload (sc : Scenario) : List WorkloadPattern :=
  sc.workload.map WorkloadPattern.normalized

/-- The scenarios the loader accepts. -/
def Scenario.Valid (sc : Scenario) : Prop :=
  (validateScenario sc).isOk = true

instance (sc : Scenario) : Decidable sc.Valid :=
  inferInstanceAs (Decidable (_ = true))

end SimCore.Config
