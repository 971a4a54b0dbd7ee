import SimCore.Improvement.Capacity

/-!
# Scores of candidates

A candidate of the batch search is scored by how far its metrics exceed the limits of the
specification, and by what it costs. A candidate is feasible if the weighted sum of its violations
is within a tolerance; feasible ones come first, then smaller violations, then smaller costs, then
smaller hashes.

Numbers are rationals. Metrics that the score does not read are left out, as are the fallbacks for
missing records that no caller reaches.

## Main definitions

* `RunMetrics`: what is measured
* `BatchScore`, `computeBatchScore`: the score
* `computeInfraCostWeighted`, `computeChurn`: the parts of the cost
-/

namespace SimCore.Improvement

open Config Batchspec

/-- Tolerance of comparisons of scores. -/
def scoreEps : ℚ := 1 / 1000000000

/-! ### Metrics -/

structure ServiceMetrics where
  serviceName : String
  cpuUtilization : ℚ := 0
  memoryUtilization : ℚ := 0
  concurrentRequests : Int := 0
  queueLength : Int := 0
deriving DecidableEq

structure HostMetrics where
  cpuUtilization : ℚ := 0
  memoryUtilization : ℚ := 0
deriving DecidableEq

structure RunMetrics where
  latencyP95Ms : ℚ := 0
  latencyP99Ms : ℚ := 0
  throughputRps : ℚ := 0
  ingressThroughputRps : ℚ := 0
  totalRequests : Int := 0
  failedRequests : Int := 0
  ingressRequests : Int := 0
  ingressFailedRequests : Int := 0
  queueDepthSum : ℚ := 0
  topicBacklogDepthSum : ℚ := 0
  topicConsumerLagSum : ℚ := 0
  queueOldestMessageAgeMs : ℚ := 0
  topicOldestMessageAgeMs : ℚ := 0
  queueDropCountTotal : Int := 0
  topicDropCountTotal : Int := 0
  queueDlqCountTotal : Int := 0
  topicDlqCountTotal : Int := 0
  localityHitRate : ℚ := 0
  crossZoneRequestFraction : ℚ := 0
  topologyLatencyPenaltyMsMean : ℚ := 0
  serviceMetrics : List ServiceMetrics := []
  hostMetrics : List HostMetrics := []
deriving DecidableEq

namespace RunMetrics

/-- Failed requests of users per request; attempts count if there is no request of a user. -/
def userVisibleErrorRate (m : RunMetrics) : ℚ :=
  if m.ingressRequests > 0 then m.ingressFailedRequests / m.ingressRequests
  else if m.totalRequests > 0 then m.failedRequests / m.totalRequests
  else 0

/-- Requests of users per second; all requests count if that is not measured. -/
def throughput (m : RunMetrics) : ℚ :=
  if m.ingressThroughputRps ≤ 0 then m.throughputRps else m.ingressThroughputRps

end RunMetrics

/-- Largest and mean utilisations. -/
structure UtilStats where
  maxCPU : ℚ := 0
  meanCPU : ℚ := 0
  maxMem : ℚ := 0
  meanMem : ℚ := 0
  n : Nat := 0
deriving DecidableEq

/-- Largest and mean of pairs of CPU and memory utilisations. -/
def utilStats (l : List (ℚ × ℚ)) : UtilStats where
  maxCPU := (l.map (·.1)).foldl max 0
  meanCPU := if l.length > 0 then (l.map (·.1)).sum / l.length else 0
  maxMem := (l.map (·.2)).foldl max 0
  meanMem := if l.length > 0 then (l.map (·.2)).sum / l.length else 0
  n := l.length

/-- Utilisations of the services that are not clients. -/
def serviceUtilStats (m : Option RunMetrics) : UtilStats :=
  utilStats ((((m.map RunMetrics.serviceMetrics).getD []).filter fun s =>
    !("client".isPrefixOf s.serviceName)).map fun s => (s.cpuUtilization, s.memoryUtilization))

def hostUtilStats (m : Option RunMetrics) : UtilStats :=
  utilStats (((m.map RunMetrics.hostMetrics).getD []).map fun h =>
    (h.cpuUtilization, h.memoryUtilization))

/-! ### Costs -/

/-- The distance of a utilisation from a band. -/
def bandPenalty (u : ℚ) (band : UtilizationBand) : ℚ :=
  if u ≥ band.low ∧ u ≤ band.high then 0 else if u < band.low then band.low - u else u - band.high

/-- How far largest and mean utilisation are from a band. -/
def balanceTerm (maxU meanU : ℚ) (band : UtilizationBand) : ℚ :=
  7 / 10 * bandPenalty maxU band + 3 / 10 * bandPenalty meanU band

/-- The weighted cost of the resources of a scenario. -/
def computeInfraCostWeighted (sc : Scenario) (w : BatchCostWeights) : ℚ :=
  w.serviceCPU * needCPU sc + w.serviceMemoryGB *
      (sc.services.map fun svc => replicaCount svc * (serviceMem svc / 1024)).sum +
    w.replicas * (sc.services.map replicaCount).sum +
    w.hosts * sc.hosts.length +
    w.hostCPU * (sc.hosts.map Host.cores).sum +
    w.hostMemoryGB * (sc.hosts.map hostMem).sum

/-- The relative distance of a service from its baseline. -/
def serviceChurn (b c : Service) : ℚ :=
  if b.id ≠ c.id then 0
  else |((c.replicas - b.replicas : Int) : ℚ)| / max 1 b.replicas +
    |c.cpuCores - b.cpuCores| / max (1 / 4) b.cpuCores +
    |c.memoryMB - b.memoryMB| / max 128 b.memoryMB

/-- The relative distance of a scenario from the baseline. -/
def computeChurn (base cur : Scenario) : ℚ :=
  (List.zipWith serviceChurn base.services cur.services).sum +
    |(((cur.hosts.length : Int) - base.hosts.length : Int) : ℚ)| / max 1 base.hosts.length

/-! ### Violations -/

/-- How far a value is above a limit, relative to the limit. -/
def aboveLimit (limit value : ℚ) : ℚ :=
  if limit > 0 then max 0 (value / limit - 1) else 0

/-- How far a value is below a limit, relative to the value. -/
def belowLimit (limit value : ℚ) : ℚ :=
  if limit > 0 then max 0 (limit / max value scoreEps - 1) else 0

/-- The parts of a score and what they add up to. -/
structure BatchScore where
  feasible : Bool := false
  violationScore : ℚ := 0
  efficiencyScore : ℚ := 0
  latViolation : ℚ := 0
  p99Violation : ℚ := 0
  errViolation : ℚ := 0
  tputViolation : ℚ := 0
  queueDepthViolation : ℚ := 0
  topicBacklogViolation : ℚ := 0
  topicLagViolation : ℚ := 0
  queueOldestAgeViolation : ℚ := 0
  topicOldestAgeViolation : ℚ := 0
  queueDropViolation : ℚ := 0
  topicDropViolation : ℚ := 0
  queueDlqViolation : ℚ := 0
  topicDlqViolation : ℚ := 0
  localityViolation : ℚ := 0
  crossZoneViolation : ℚ := 0
  topologyLatencyViolation : ℚ := 0
  infraCost : ℚ := 0
  serviceCPUBal : ℚ := 0
  serviceMemBal : ℚ := 0
  hostCPUBal : ℚ := 0
  hostMemBal : ℚ := 0
  churn : ℚ := 0
  localityPenalty : ℚ := 0
  crossZonePenalty : ℚ := 0
  topologyPenalty : ℚ := 0
deriving DecidableEq

def violations (spec : BatchSpec) (m : Option RunMetrics) : BatchScore where
  latViolation := aboveLimit spec.maxP95Ms (m.elim 0 (·.latencyP95Ms))
  p99Violation := aboveLimit spec.maxP99Ms (m.elim 0 (·.latencyP99Ms))
  errViolation := aboveLimit spec.maxErrorRate (m.elim 0 (·.userVisibleErrorRate))
  tputViolation := belowLimit spec.minThroughput (m.elim 0 (·.throughput))
  queueDepthViolation := m.elim 0 fun m => aboveLimit spec.maxQueueDepthSum m.queueDepthSum
  topicBacklogViolation := m.elim 0 fun m =>
    aboveLimit spec.maxTopicBacklogDepthSum m.topicBacklogDepthSum
  topicLagViolation := m.elim 0 fun m =>
    aboveLimit spec.maxTopicConsumerLagSum m.topicConsumerLagSum
  queueOldestAgeViolation := m.elim 0 fun m =>
    aboveLimit spec.maxQueueOldestMessageAgeMs m.queueOldestMessageAgeMs
  topicOldestAgeViolation := m.elim 0 fun m =>
    aboveLimit spec.maxTopicOldestMessageAgeMs m.topicOldestMessageAgeMs
  queueDropViolation := m.elim 0 fun m => aboveLimit spec.maxQueueDropCount m.queueDropCountTotal
  topicDropViolation := m.elim 0 fun m => aboveLimit spec.maxTopicDropCount m.topicDropCountTotal
  queueDlqViolation := m.elim 0 fun m => aboveLimit spec.maxQueueDlqCount m.queueDlqCountTotal
  topicDlqViolation := m.elim 0 fun m => aboveLimit spec.maxTopicDlqCount m.topicDlqCountTotal
  localityViolation := m.elim 0 fun m => belowLimit spec.minLocalityHitRate m.localityHitRate
  crossZoneViolation := m.elim 0 fun m =>
    aboveLimit spec.maxCrossZoneRequestFraction m.crossZoneRequestFraction
  topologyLatencyViolation := m.elim 0 fun m =>
    aboveLimit spec.maxTopologyLatencyPenaltyMeanMs m.topologyLatencyPenaltyMsMean

def weightedViolations (pw : BatchPenaltyWeights) (s : BatchScore) : ℚ :=
  pw.p95 * s.latViolation + pw.p99 * s.p99Violation + pw.errorRate * s.errViolation +
    pw.throughput * s.tputViolation +
    pw.queueDepth * s.queueDepthViolation +
    pw.topicBacklog * s.topicBacklogViolation +
    pw.topicLag * s.topicLagViolation +
    pw.queueOldestAge * s.queueOldestAgeViolation +
    pw.topicOldestAge * s.topicOldestAgeViolation +
    pw.queueDrop * s.queueDropViolation +
    pw.topicDrop * s.topicDropViolation +
    pw.queueDlq * s.queueDlqViolation +
    pw.topicDlq * s.topicDlqViolation +
    pw.locality * s.localityViolation +
    pw.crossZone * s.crossZoneViolation +
    pw.topologyLatency * s.topologyLatencyViolation

/-! ### Scores -/

/-- The penalty weights in force. -/
def penaltyWeights (spec : BatchSpec) : BatchPenaltyWeights :=
  spec.penaltyWeights.getD defaultPenaltyWeights

/-- The cost weights in force. -/
def costWeights (spec : BatchSpec) : BatchCostWeights :=
  spec.costWeights.getD defaultCostWeights

/-- Costs and utilisations of a candidate; without metrics of hosts, those of services stand for
them. -/
def withCosts (spec : BatchSpec) (baseline scenario : Scenario) (m : Option RunMetrics)
    (s : BatchScore) : BatchScore :=
  let svc := serviceUtilStats m
  let host := if (hostUtilStats m).n > 0 then hostUtilStats m else svc
  { s with
    serviceCPUBal := if svc.n > 0 then balanceTerm svc.maxCPU svc.meanCPU spec.serviceCPUBand else 0
    serviceMemBal := if svc.n > 0 then balanceTerm svc.maxMem svc.meanMem spec.serviceMemBand else 0
    hostCPUBal := if host.n > 0 then balanceTerm host.maxCPU host.meanCPU spec.hostCPUBand else 0
    hostMemBal := if host.n > 0 then balanceTerm host.maxMem host.meanMem spec.hostMemBand else 0
    infraCost := computeInfraCostWeighted scenario (costWeights spec)
    churn := computeChurn baseline scenario
    localityPenalty := m.elim 0 fun m => max 0 (1 - m.localityHitRate)
    crossZonePenalty := m.elim 0 (·.crossZoneRequestFraction)
    topologyPenalty := m.elim 0 (·.topologyLatencyPenaltyMsMean) }

def weightedCosts (pw : BatchPenaltyWeights) (cw : BatchCostWeights) (s : BatchScore) : ℚ :=
  s.infraCost + pw.serviceCPUBalance * s.serviceCPUBal + pw.serviceMemoryBalance * s.serviceMemBal +
    pw.hostCPUBalance * s.hostCPUBal +
    pw.hostMemoryBalance * s.hostMemBal +
    pw.locality * s.localityPenalty +
    pw.crossZone * s.crossZonePenalty +
    pw.topologyLatency * s.topologyPenalty +
    cw.churn * s.churn

/-- The score of a scenario with its metrics. -/
def computeBatchScore (spec : BatchSpec) (baseline scenario : Scenario) (m : Option RunMetrics) :
    BatchScore :=
  let s := withCosts spec baseline scenario m (violations spec m)
  { s with
    violationScore := weightedViolations (penaltyWeights spec) s
    efficiencyScore := weightedCosts (penaltyWeights spec) (costWeights spec) s
    feasible := decide (weightedViolations (penaltyWeights spec) s ≤ scoreEps) }

@[simp] theorem computeBatchScore_feasible (spec : BatchSpec) (baseline scenario : Scenario)
    (m : Option RunMetrics) : (computeBatchScore spec baseline scenario m).feasible =
      decide (weightedViolations (penaltyWeights spec) (violations spec m) ≤ scoreEps) := rfl

end SimCore.Improvement
