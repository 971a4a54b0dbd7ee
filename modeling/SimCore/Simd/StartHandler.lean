import SimCore.Simd.TopicHandlers

/-!
# Arrival and start of requests

An ingress request is created on arrival and starts on the instance that routing selects. Its start
draws the work of the request, may fail it locally, reserves CPU on the instance (a busy instance
defers the start), allocates memory and CPU, and schedules the completion.

## Main definitions

* `handleRequestArrival`, `handleRequestStart`, `handleDrainSweep`
* `dequeueNextRequestForInstance`
-/

namespace SimCore.Simd

open Config Interaction Resource

/-! ### Draining instances -/

/-- Fails a pending request that was queued on an evicted instance. -/
def failDroppedQueueRequest (s : State) (r : ReqId) : State :=
  if (s.getRequest r).map (fun q => q.status) = some .pending then
    recordFailureSamples (s.update r fun q => { q with status := .failed }) r "drain_evicted"
  else s

/-- Notes the time and removes draining instances; the requests queued on them fail. -/
def drainTick (s : State) : State :=
  let (dropped, rm) := (s.rm.noteSimTime s.now).processDrainingInstances s.now
  dropped.foldl failDroppedQueueRequest { s with rm := rm }

def drainSweepInterval : Int := 100 * millisecond

def handleDrainSweep (env : Env) (s : State) : State :=
  let s := drainTick s
  let next := s.now + drainSweepInterval
  if env.simEndTime.all fun finish => next < finish then s.scheduleAt next .drainSweep else s

/-! ### Arrival -/

def newIngressRequest (d : ArrivalData) (t : Time) : Request :=
  let q : Request := { serviceName := d.serviceID, endpoint := d.endpointPath, arrivalTime := t }
  let q := ((q.setTextIf "workload_from" d.source).setTextIf "workload_source_kind"
    d.sourceKind).setTextIf "workload_traffic_class" d.trafficClass
  d.metadata.foldl (fun q (kv : String × String) => q.setText kv.1 kv.2) q

/-- Rejects an ingress request. -/
def rejectArrival (s : State) (r : ReqId) (d : ArrivalData) (reason : String) : State :=
  let el := endpointErrorLabels
    (endpointLabelsWithOrigin d.serviceID d.endpointPath originIngress) reason
  let s := s.update r fun q => { q with status := .failed }
  let s := s.record .requestErrorCount 1 el (some r)
  (s.record .ingressLogicalFailure 1 el (some r)).observe (.rejected r)

/-- A workload request arrives. -/
def handleRequestArrival (env : Env) (s : State) (d : ArrivalData) : State :=
  let s := drainTick s
  let r := s.heap.length
  let s := (s.alloc (newIngressRequest d s.now)).addRequest r
  let s := s.record .requestCount 1
    (endpointLabelsWithOrigin d.serviceID d.endpointPath originIngress) (some r)
  match env.admission r with
  | .rateLimited => rejectArrival s r d "rate_limited"
  | .circuitOpen => rejectArrival s r d "circuit_open"
  | .admitted =>
    match selectInstanceForRequest env s (s.req r) (some r) with
    | .error _ => rejectArrival s r d "no_instance"
    | .ok (instanceID, s) =>
      (s.update r fun q => { q.setText "instance_id" instanceID with stage := .queued }).scheduleAt
        s.now (.requestStart r instanceID)

/-! ### The work of a request -/

/-- CPU time, network latency and memory of a request. -/
structure Work where
  cpuTimeMs : ℚ
  netLatencyMs : ℚ
  memoryMB : ℚ

/-- The work of the `db_latency` model: CPU below the query latency. -/
def dbLatencyWork (svc : Service) (ep : Endpoint) (w : Work) : Work :=
  let netMean := max 0 ep.netLatencyMs.mean
  let ceiling :=
    if ep.meanCPUMs > netMean * (11 / 10) then ep.meanCPUMs * (105 / 100)
    else max (netMean * (55 / 100)) (ep.meanCPUMs * (85 / 100))
  { cpuTimeMs := if w.cpuTimeMs > ceiling then ceiling else w.cpuTimeMs
    netLatencyMs := if svc.kindNorm = "database" then w.netLatencyMs * (102 / 100)
      else w.netLatencyMs
    memoryMB := w.memoryMB * (105 / 100) }

/-- Adjustments by the kind of the service. -/
def kindWork (svc : Service) (w : Work) : Work :=
  if svc.kindNorm = "database" then
    if normWord svc.model = "db_latency" then w
    else { w with netLatencyMs := w.netLatencyMs * (105 / 100) }
  else if svc.kindNorm = "cache" then
    { w with cpuTimeMs := w.cpuTimeMs * (85 / 100), netLatencyMs := w.netLatencyMs * (9 / 10) }
  else if svc.kindNorm = "external" then
    { w with netLatencyMs := w.netLatencyMs * (11 / 10) }
  else w

/-- Costs of a request from the endpoint's distributions and the service's model and kind. -/
def resolveServiceExecutionProfile (env : Env) (s : State) (svc : Service) (ep : Endpoint) :
    Work × State :=
  let (cpu, s) := sampleLatencyMs env s ⟨ep.meanCPUMs, ep.cpuSigmaMs⟩
  let (net, s) := sampleLatencyMs env s ep.netLatencyMs
  let w : Work := ⟨cpu, net, if ep.defaultMemoryMB ≤ 0 then 10 else ep.defaultMemoryMB⟩
  let w := if normWord svc.model = "db_latency" then dbLatencyWork svc ep w else w
  (kindWork svc w, s)

/-- Slow-down of a busy instance. -/
def saturate (s : State) (svc : Service) (instanceID : String) (w : Work) : Work :=
  match s.rm.instance? instanceID, svc.behavior with
  | some inst, some b =>
    if b.saturationLatencyFactor > 0 then
      let f := 1 + b.saturationLatencyFactor * inst.cpuUtilizationAt s.now
      { w with cpuTimeMs := w.cpuTimeMs * f, netLatencyMs := w.netLatencyMs * f }
    else w
  | _, _ => w

/-- Cache hit or miss of a request. -/
def sampleCache (env : Env) (s : State) (r : ReqId) (svc : Service) (w : Work) : Work × State :=
  match svc.behavior.bind ServiceBehavior.cache with
  | none => (w, s)
  | some c =>
    let (u, s) := s.float64 env
    if u < c.hitRate then
      let (hit, s) := sampleLatencyMs env s c.hitLatencyMs
      (⟨hit * (4 / 10), hit * (6 / 10), w.memoryMB * (85 / 100)⟩,
        s.update r fun q => { q with cacheHit := true })
    else
      let (miss, s) := sampleLatencyMs env s c.missLatencyMs
      ({ w with cpuTimeMs := w.cpuTimeMs + miss / 2, netLatencyMs := w.netLatencyMs + miss / 2 },
        s.update r fun q => { q with cacheMiss := true })

/-- Whether the request fails locally, with the draw used. -/
def drawLocalFailure (env : Env) (s : State) (svc : Service) (ep : Endpoint) : Bool × State :=
  let p := mergedLocalFailureRate svc ep
  if p > 0 then
    let (u, s) := s.float64 env
    (decide (u < p), s)
  else (false, s)

/-- Datastore work of an endpoint. -/
def sampleEndpointIOWorkloadMs (env : Env) (s : State) (ep : Endpoint) : ℚ × State :=
  if ep.ioMs.mean > 0 ∨ ep.ioMs.sigma > 0 then sampleLatencyMs env s ep.ioMs
  else sampleLatencyMs env s ep.netLatencyMs

/-! ### Start -/

/-- Assigns the instance, and for ingress requests the caller metadata that children inherit. -/
def assignInstance (s : State) (r : ReqId) (instanceID : String) : State :=
  let s := s.update r fun q => q.setTextIf "instance_id" instanceID
  let q := s.req r
  match if q.isRoot && q.text "caller_host_id" == "" then s.rm.instance? instanceID else none with
  | none => s
  | some inst =>
    if inst.hostID = "" then s
    else
      let zone := ((s.rm.host? inst.hostID).map fun h => trimSpace h.zone).getD ""
      s.update r fun q => (q.setText "caller_host_id" inst.hostID).setTextIf "caller_host_zone" zone

/-- A request fails locally at its start: it is retried, or finalised as failed. -/
def failLocally (env : Env) (s : State) (r : ReqId) : State :=
  let s := s.update r fun q => { q with status := .failed }
  match maybeRetrySyncStartFailure env s r with
  | some s =>
    (s.record .requestErrorCount 1 (endpointErrorLabels (s.req r).labels "local_failure")
      (some r)).observe (.startFailed r .retried)
  | none =>
    finalizeRequestFailure env (s.observe (.startFailed r .finalized)) r "local_failure"

/-- A request fails for lack of resources: it is retried, or its parent learns of the failure. -/
def failStart (env : Env) (s : State) (r : ReqId) (reason : String) : State :=
  let s := s.update r fun q => { q with status := .failed }
  let s := (recordFailureSamples s r reason).observe (.breaker r false)
  match maybeRetrySyncStartFailure env s r with
  | some s => s.observe (.startFailed r .retried)
  | none =>
    propagateSyncChildFailureFromStartFailure env (s.observe (.startFailed r .dropped)) r

/-- Schedules the completion, at the endpoint's deadline if the work takes longer. -/
def scheduleCompletion (s : State) (r : ReqId) (ep : Endpoint) (cpuStart finish : Time) : State :=
  let deadline := cpuStart + wholeMsToDuration ep.timeoutMs
  if ep.timeoutMs > 0 ∧ finish > deadline then
    (s.update r fun q => { q with localTimeout := true }).scheduleComplete deadline r
  else s.scheduleComplete finish r

/-- Datastore work after the CPU work; returns its end, `none` if the instance is gone. -/
def reserveDatastore (env : Env) (s : State) (r : ReqId) (svc : Service) (ep : Endpoint)
    (instanceID : String) (cpuEnd : Time) : Option (Time × State) :=
  if isDatastoreWorkload svc ep = false then some (cpuEnd, s)
  else
    let maxConn := effectiveDBMaxConnections svc ep
    let (ioMs, s) := sampleEndpointIOWorkloadMs env s ep
    match s.rm.reserveDBWork instanceID cpuEnd ioMs maxConn with
    | none => none
    | some ((ioEnd, waitMs), rm) =>
      let s := { s with rm := rm }
      let q := s.req r
      let s :=
        if waitMs > 0 then
          s.record .dbWait waitMs (labelsForQueueWaitMetrics q q.serviceName q.endpoint instanceID)
            (some r)
        else s
      let s := if maxConn > 0 then s.update r fun q => { q with dbReserved := true } else s
      match s.rm.instance? instanceID with
      | none => some (ioEnd, s)
      | some inst =>
        some (ioEnd, s.record .activeConnections inst.dbActiveConnections
          (createInstanceLabels q.serviceName instanceID) none)

/-- The request runs: memory and CPU are allocated and the completion is scheduled. -/
def runRequest (env : Env) (s : State) (r : ReqId) (svc : Service) (ep : Endpoint)
    (instanceID : String) (w : Work) (cpuStart cpuEnd : Time) : State :=
  let (penalty, s) := applyTopologyNetworkPenaltyMs env s r instanceID
  let net := w.netLatencyMs + penalty
  let s := s.update r fun q => { q with status := .processing, startTime := some cpuStart }
  let q := s.req r
  let waitMs : ℚ := max 0 ((cpuStart - q.arrivalTime : Int) / 1000000)
  let s := s.record .queueWait waitMs
    (labelsForQueueWaitMetrics q q.serviceName q.endpoint instanceID) (some r)
  match s.rm.allocateMemory instanceID w.memoryMB with
  | .error _ =>
    failStart env { s with rm := s.rm.rollbackCPUTailReservation instanceID cpuStart cpuEnd } r
      "memory_capacity"
  | .ok rm =>
    match rm.allocateCPU instanceID w.cpuTimeMs cpuStart with
    | none =>
      let rm := (rm.releaseMemory instanceID w.memoryMB).rollbackCPUTailReservation instanceID
        cpuStart cpuEnd
      failStart env { s with rm := rm } r "cpu_capacity"
    | some rm =>
      let s := { s with rm := rm }.update r fun q =>
        { q with allocatedCPUMs := some w.cpuTimeMs, allocatedMemoryMB := some w.memoryMB }
      let s := recordInstanceAndHostGauges s q.serviceName instanceID s.now
      match reserveDatastore env s r svc ep instanceID cpuEnd with
      | none => s
      | some (ioEnd, s) => scheduleCompletion s r ep cpuStart (ioEnd + msToDuration net)

/-- Remembers the interval reserved for a request; `rm` is the manager before the reservation. -/
def noteReservation (s : State) (r : ReqId) (rm : Manager) (instanceID : String)
    (cpuStart cpuEnd : Time) : State :=
  let prior := rm.instance? instanceID
  s.update r fun q =>
    { q with reservation := some ⟨cpuStart, cpuEnd, prior.bind ServiceInstance.cpuNextFree,
        (prior.map ServiceInstance.cpuCores).getD 0⟩ }

/-- CPU admission: a reserved interval is used, else one is reserved; a later interval defers. -/
def admitCPU (env : Env) (s : State) (r : ReqId) (svc : Service) (ep : Endpoint)
    (instanceID : String) (w : Work) : State :=
  match (s.req r).cpuDeferred with
  | some (cpuStart, cpuEnd) =>
    runRequest env (s.update r fun q => { q with cpuDeferred := none }) r svc ep instanceID w
      cpuStart cpuEnd
  | none =>
    match s.rm.reserveCPUWork instanceID (s.req r).arrivalTime w.cpuTimeMs with
    | none => failStart env s r "no_instance"
    | some ((cpuStart, cpuEnd), rm) =>
      let s := noteReservation { s with rm := rm } r s.rm instanceID cpuStart cpuEnd
      if cpuStart > s.now then
        ((s.update r fun q => { q with cpuDeferred := some (cpuStart, cpuEnd) }).scheduleStart
          cpuStart r instanceID).observe (.startDeferred r)
      else runRequest env s r svc ep instanceID w cpuStart cpuEnd

def handleRequestStart (env : Env) (s : State) (r : ReqId) (instanceID : String) : State :=
  let s := drainTick s
  let q := s.req r
  match env.scenario.endpoint? q.serviceName q.endpoint, env.scenario.service? q.serviceName with
  | some ep, some svc =>
    let (w, s) := resolveServiceExecutionProfile env s svc ep
    let s := s.update r fun q => { q with profileDraws := q.profileDraws + 1 }
    let s := assignInstance s r instanceID
    let (w, s) := sampleCache env s r svc (saturate s svc instanceID w)
    let (fails, s) := drawLocalFailure env s svc ep
    if fails then failLocally env s r else admitCPU env s r svc ep instanceID w
  | _, _ => s.observe (.startLost r)

/-- Schedules the next request queued on an instance. -/
def dequeueNextRequestForInstance (s : State) (instanceID serviceID : String) (t : Time) : State :=
  match s.rm.dequeueRequest instanceID with
  | (none, _) => s
  | (some r, rm) =>
    let s := { s with rm := rm }
    if s.run.knows r then
      recordInstanceAndHostGauges (s.scheduleStart t r instanceID) serviceID instanceID t
    else s

end SimCore.Simd
