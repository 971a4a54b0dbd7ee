import SimCore.Simd.State

/-!
# Labels, gauges, instance selection and network topology

The parts of the handlers that read the run state and record samples, without touching requests or
events: metric labels, instance and host gauges, instance selection with its routing metrics, and
the network penalty of a downstream hop.

## Main definitions

* `labelsForRequestMetrics`, `endpointErrorLabels`: labels of request metrics
* `selectInstanceForRequest`: routing with its metrics
* `applyTopologyNetworkPenaltyMs`: the topology overlay on a hop's network latency
* `resolveCallerTopologyForSpawn`: caller metadata of a downstream spawn
-/

namespace SimCore.Simd

open Config Interaction Resource

/-! ### Labels -/

/-- The origin of requests of users. -/
def originIngress : String := "ingress"

/-- The origin of calls and messages. -/
def originDownstream : String := "downstream"

/-- Labels of an endpoint, with the origin of a request. -/
def endpointLabelsWithOrigin (serviceName endpointPath origin : String) : Labels :=
  [("service", serviceName), ("endpoint", endpointPath), ("origin", origin)]

/-- A label that is left out when its value is empty. -/
def optionalLabel (key value : String) : Labels :=
  if value = "" then [] else [(key, value)]

/-- Labels of a request's metrics at an endpoint. -/
def labelsForRequestMetrics (q : Request) (serviceID endpointPath : String) : Labels :=
  endpointLabelsWithOrigin serviceID endpointPath
      (if q.isRoot then originIngress else originDownstream) ++
    optionalLabel "traffic_class" (q.text "workload_traffic_class") ++
    optionalLabel "source_kind" (q.text "workload_source_kind") ++
    if q.isRetry then [("is_retry", "true"), ("attempt", itoa q.retryAttempt.toNat)] else []

/-- Labels of a request's metrics at its own service and endpoint. -/
def Request.labels (q : Request) : Labels :=
  labelsForRequestMetrics q q.serviceName q.endpoint

/-- Labels of a failure with its reason. -/
def endpointErrorLabels (base : Labels) (reason : String) : Labels :=
  base ++ optionalLabel "reason" reason

/-- Labels of the time that a request waits for an instance. -/
def labelsForQueueWaitMetrics (q : Request) (serviceID endpointPath instanceID : String) : Labels :=
  labelsForRequestMetrics q serviceID endpointPath ++ optionalLabel "instance" instanceID

/-- Labels of the gauges of an instance. -/
def createInstanceLabels (serviceID instanceID : String) : Labels :=
  [("service", serviceID), ("instance", instanceID)]

/-- Labels of the gauges of a host. -/
def createHostLabels (hostID : String) : Labels :=
  [("host", hostID)]

/-! ### Gauges and latencies -/

/-- Records the gauges of an instance and of its host. -/
def recordInstanceAndHostGauges (s : State) (serviceID instanceID : String) (t : Time) : State :=
  match s.rm.instance? instanceID with
  | none => s
  | some inst =>
    let lbl := createInstanceLabels serviceID instanceID
    let s := s.recordAt t .cpuUtilization (inst.cpuUtilizationAt t) lbl none
    let s := s.recordAt t .memoryUtilization inst.memoryUtilization lbl none
    let s := s.recordAt t .queueLength inst.requestQueue.length lbl none
    let s := s.recordAt t .concurrentRequests inst.activeRequests lbl none
    match s.rm.host? inst.hostID with
    | none => s
    | some host =>
      let lbl := createHostLabels inst.hostID
      (s.recordAt t .cpuUtilization host.cpuUtilization lbl none).recordAt t .memoryUtilization
        host.memoryUtilization lbl none

/-- Time at this hop from arrival, in milliseconds. -/
def localServiceHopLatencyMs (q : Request) (t : Time) : ℚ :=
  durationToMs (t - q.arrivalTime)

/-- Time at this hop from the start of service, in milliseconds. -/
def localServiceProcessingLatencyMs (q : Request) (t : Time) : ℚ :=
  match q.startTime with
  | none => localServiceHopLatencyMs q t
  | some start => durationToMs (t - start)

/-- Hop and processing latency of a request, each with the caller's extra time. -/
def recordServiceLatencies (s : State) (r : ReqId) (extraMs : ℚ) : State :=
  let q := s.req r
  (s.record .serviceRequestLatency (localServiceHopLatencyMs q s.now + extraMs) q.labels
    (some r)).record .serviceProcessingLatency (localServiceProcessingLatencyMs q s.now + extraMs)
    q.labels (some r)

/-! ### Instance selection -/

/-- Zone of the host of an instance, empty if unknown. -/
def calleeZoneForInstance (m : Manager) (instanceID : String) : String :=
  match (m.instance? instanceID).bind fun inst => m.host? inst.hostID with
  | some h => trimSpace h.zone
  | none => ""

/-- Host of an instance, empty if unknown. -/
def calleeHostForInstance (m : Manager) (instanceID : String) : String :=
  match m.instance? instanceID with
  | some inst => trimSpace inst.hostID
  | none => ""

/-- The metadata key that locality routing reads: the endpoint's, else the service's. -/
def localityKey (sc : Scenario) (q : Request) : String :=
  match sc.service? q.serviceName with
  | none => ""
  | some svc =>
    match (svc.endpoints.filterMap fun ep =>
        if ep.path = q.endpoint then
          (ep.routing.map fun p => trimSpace p.localityZoneFrom).filter (· ≠ "")
        else none).head? with
    | some key => key
    | none => (svc.routing.map fun p => trimSpace p.localityZoneFrom).getD ""

/-- Zone of the caller as the routing metrics see it. -/
def routingCallerZone (m : Manager) (q : Request) (key : String) : String :=
  let zone := q.text "caller_host_zone"
  let zone :=
    if zone = "" ∧ q.text "caller_instance_id" ≠ "" then
      calleeZoneForInstance m (q.text "caller_instance_id")
    else zone
  if zone = "" ∧ key ≠ "" then trimSpace (q.text key) else zone

/-- Counts a hit or a miss if both zones are known. -/
def recordZoneMatch (s : State) (hit miss : Metric) (zone calleeZone : String) (lbl : Labels)
    (subject : Option ReqId) : State :=
  if zone = "" ∨ calleeZone = "" then s
  else if equalFold zone calleeZone then s.record hit 1 lbl subject
  else s.record miss 1 lbl subject

/-- Selects an instance for a request and records the routing metrics. -/
def selectInstanceForRequest (env : Env) (s : State) (q : Request) (subject : Option ReqId) :
    Except String (String × State) :=
  match s.rm.selectInstanceForRequest env.routing q.serviceName
      ⟨q.endpoint, fun key => q.lookup key⟩ s.now with
  | .error message => .error message
  | .ok ((id, strategy), rm) =>
    let s := { s with rm := rm }
    let lbl := q.labels ++ [("strategy", strategy), ("instance", id)]
    let s := s.record .routeSelectionCount 1 lbl subject
    let key := localityKey env.scenario q
    let calleeZone := calleeZoneForInstance s.rm id
    let callerZone := routingCallerZone s.rm q key
    let targetZone := if key = "" then "" else trimSpace (q.text key)
    let s := recordZoneMatch s .localityRouteHitCount .localityRouteMissCount targetZone calleeZone
      lbl subject
    .ok (id, recordZoneMatch s .sameZoneRequestCount .crossZoneRequestCount callerZone calleeZone
      lbl subject)

/-! ### Network topology -/

/-- Latency of a directed zone pair, by exact and then by folded names. -/
def lookupDirectedCrossZone (m : List (String × List (String × LatencySpec)))
    (callerZone calleeZone : String) : Option LatencySpec :=
  match (m.lookup callerZone).bind (·.lookup calleeZone) with
  | some spec => some spec
  | none =>
    ((m.filter fun entry => equalFold (trimSpace entry.1) callerZone).flatMap fun entry =>
      (entry.2.filter fun e => equalFold (trimSpace e.1) calleeZone).map (·.2)).head?

/-- Latency of a hop between two different zones. -/
def findCrossZoneLatencySpec (net : NetworkConfig) (callerZone calleeZone : String) :
    Option LatencySpec :=
  if equalFold callerZone calleeZone then none
  else
    match lookupDirectedCrossZone net.crossZoneLatencyMs callerZone calleeZone with
    | some spec => some spec
    | none =>
      match if net.symmetricCrossZoneLatency then
          lookupDirectedCrossZone net.crossZoneLatencyMs calleeZone callerZone else none with
      | some spec => some spec
      | none =>
        let d := net.defaultCrossZoneLatencyMs
        if d.mean ≠ 0 ∨ d.sigma ≠ 0 then some d else none

/-- Zone of the caller: that of its instance, else the one in the metadata. -/
def downstreamCallerHostZone (m : Manager) (q : Request) : String :=
  let zone := calleeZoneForInstance m (q.text "caller_instance_id")
  if zone = "" then trimSpace (q.text "caller_host_zone") else zone

/-- Host of the caller: that of its instance, else the one in the metadata. -/
def downstreamCallerHostID (m : Manager) (q : Request) : String :=
  match m.instance? (q.text "caller_instance_id") with
  | some inst => trimSpace inst.hostID
  | none => trimSpace (q.text "caller_host_id")

/-- A non-negative normal sample of a latency. -/
def sampleLatencyMs (env : Env) (s : State) (spec : LatencySpec) : ℚ × State :=
  let (v, s) := s.normFloat64 env spec.mean spec.sigma
  (max 0 v, s)

/-- A penalty that applies only if its latency is configured. -/
def configuredPenalty (spec : LatencySpec) (recorded : List Metric) :
    Option (LatencySpec × List Metric) :=
  if spec.mean = 0 ∧ spec.sigma = 0 then none else some (spec, recorded)

/-- The penalty that applies to a hop: its latency and the metrics that record it. -/
def topologyPenalty (sc : Scenario) (m : Manager) (q : Request) (svc : Service)
    (instanceID : String) : Option (LatencySpec × List Metric) :=
  match sc.network with
  | none => none
  | some net =>
    if svc.kindNorm = "external" then
      configuredPenalty (svc.externalNetworkLatencyMs.getD net.externalLatencyMs)
        [.externalLatencyPenalty, .topologyLatencyPenalty]
    else
      let callerZ := downstreamCallerHostZone m q
      let calleeZ := calleeZoneForInstance m instanceID
      let callerHost := downstreamCallerHostID m q
      let calleeHost := calleeHostForInstance m instanceID
      if callerZ = "" ∨ calleeZ = "" then none
      else if callerHost ≠ "" ∧ calleeHost ≠ "" ∧ callerHost = calleeHost then
        configuredPenalty net.sameHostLatencyMs [.topologyLatencyPenalty]
      else if equalFold callerZ calleeZ then
        if callerHost = "" ∨ calleeHost = "" then none
        else configuredPenalty net.sameZoneLatencyMs
          [.sameZoneLatencyPenalty, .topologyLatencyPenalty]
      else
        (findCrossZoneLatencySpec net callerZ calleeZ).map fun spec =>
          (spec, [.crossZoneLatencyPenalty, .topologyLatencyPenalty])

/-- Zone labels of a penalty; an external hop has none. -/
def penaltyLabels (m : Manager) (q : Request) (svc : Service) (instanceID : String) : Labels :=
  if svc.kindNorm = "external" then q.labels
  else
    q.labels ++ [("caller_zone", downstreamCallerHostZone m q),
      ("callee_zone", calleeZoneForInstance m instanceID)]

/-- The network penalty of a downstream hop in milliseconds. -/
def applyTopologyNetworkPenaltyMs (env : Env) (s : State) (r : ReqId) (instanceID : String) :
    ℚ × State :=
  let q := s.req r
  match if q.isRoot then none else env.scenario.service? q.serviceName with
  | none => (0, s)
  | some svc =>
    match topologyPenalty env.scenario s.rm q svc instanceID with
    | none => (0, s)
    | some (spec, recorded) =>
      let (pen, s) := sampleLatencyMs env s spec
      if pen ≤ 0 then (0, s)
      else
        let lbl := penaltyLabels s.rm q svc instanceID
        (pen, recorded.foldl (fun s m => s.record m pen lbl (some r)) s)

/-! ### Caller metadata of spawns -/

/-- Caller routing metadata of a spawn: the live instance first, then the event's snapshot, then the
parent's own metadata. -/
def resolveCallerTopologyForSpawn (m : Manager) (parent : Request) (explicit : CallerTopology) :
    CallerTopology :=
  let id := trimSpace explicit.callerInstanceID
  let id := if id = "" then trimSpace (parent.text "instance_id") else id
  let zone := trimSpace explicit.callerHostZone
  let host := trimSpace explicit.callerHostID
  match if id = "" then none else m.instance? id with
  | some inst =>
    let hid := trimSpace inst.hostID
    match m.host? hid with
    | some h => ⟨id, trimSpace h.zone, hid⟩
    | none => ⟨id, zone, hid⟩
  | none =>
    ⟨id, if zone = "" then trimSpace (parent.text "caller_host_zone") else zone,
      if host = "" then trimSpace (parent.text "caller_host_id") else host⟩

/-- Caller metadata as the publisher of a message gives it. -/
def callerTopologyFromRequest (m : Manager) (parent : Request) : CallerTopology :=
  let id := parent.text "instance_id"
  match if id = "" then none else m.instance? id with
  | some inst =>
    let hid := trimSpace inst.hostID
    match m.host? hid with
    | some h => ⟨id, trimSpace h.zone, hid⟩
    | none => ⟨id, "", hid⟩
  | none =>
    ⟨id, trimSpace (parent.text "caller_host_zone"), trimSpace (parent.text "caller_host_id")⟩

/-- Fills the empty fields of explicit caller metadata. -/
def CallerTopology.orElse (a b : CallerTopology) : CallerTopology where
  callerInstanceID := if a.callerInstanceID = "" then b.callerInstanceID else a.callerInstanceID
  callerHostZone := if a.callerHostZone = "" then b.callerHostZone else a.callerHostZone
  callerHostID := if a.callerHostID = "" then b.callerHostID else a.callerHostID

/-- Writes caller metadata into a request, leaving out empty fields. -/
def Request.setCaller (q : Request) (c : CallerTopology) : Request :=
  ((q.setTextIf "caller_instance_id" c.callerInstanceID).setTextIf "caller_host_zone"
    c.callerHostZone).setTextIf "caller_host_id" c.callerHostID

end SimCore.Simd
