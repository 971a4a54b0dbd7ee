import SimCore.Config.ScalingPolicy
import SimCore.Config.Accepted

/-!
# The specification of a batch search

A client sends the limits, bounds and step sizes of a batch optimization; what it leaves out, or
sets to a value that is not positive, is filled in from defaults and from the baseline scenario. The
result is validated.

Fields that nothing reads after parsing (the search strategy, the step of the host count, the
message itself) are left out. Fields of type `int32` are integers; where the source computes with
them, the result is wrapped.

## Main definitions

* `BatchOptimizationConfig`: what the client sends
* `BatchSpec`, `defaultBatchSpec`, `parseBatchSpec`: the specification
* `BatchSpec.refinementSpec`: smaller steps for the pass after the search

## Main results

* `parsed_of_parseBatchSpec`: what holds of every specification that is accepted
-/

namespace SimCore.Batchspec

open Config

/-! ### Records -/

/-- Weights of the resources in the cost of a scenario. -/
structure BatchCostWeights where
  serviceCPU : ℚ := 0
  serviceMemoryGB : ℚ := 0
  replicas : ℚ := 0
  hosts : ℚ := 0
  hostCPU : ℚ := 0
  hostMemoryGB : ℚ := 0
  churn : ℚ := 0
deriving DecidableEq

/-- Weights of violated limits and of unbalanced utilisations. -/
structure BatchPenaltyWeights where
  p95 : ℚ := 0
  p99 : ℚ := 0
  errorRate : ℚ := 0
  throughput : ℚ := 0
  serviceCPUBalance : ℚ := 0
  serviceMemoryBalance : ℚ := 0
  hostCPUBalance : ℚ := 0
  hostMemoryBalance : ℚ := 0
  queueDepth : ℚ := 0
  topicBacklog : ℚ := 0
  topicLag : ℚ := 0
  queueOldestAge : ℚ := 0
  topicOldestAge : ℚ := 0
  queueDrop : ℚ := 0
  topicDrop : ℚ := 0
  queueDlq : ℚ := 0
  topicDlq : ℚ := 0
  locality : ℚ := 0
  crossZone : ℚ := 0
  topologyLatency : ℚ := 0
deriving DecidableEq

structure UtilizationBand where
  low : ℚ := 0
  high : ℚ := 0
deriving DecidableEq

/-- The sizes of the changes that the search makes. -/
structure BatchStepSizes where
  replicaStep : Int := 0
  serviceCPURatio : ℚ := 0
  serviceMemoryRatio : ℚ := 0
  hostCPUStepCores : Int := 0
  hostMemoryStepGB : Int := 0
deriving DecidableEq

/-- What the client sends; zero stands for an omitted number. -/
structure BatchOptimizationConfig where
  allowedActions : List BatchScalingAction := []
  freezeWorkload : Option Bool := none
  freezePolicies : Option Bool := none
  maxP95LatencyMs : ℚ := 0
  maxP99LatencyMs : ℚ := 0
  maxErrorRate : ℚ := 0
  minThroughputRps : ℚ := 0
  maxQueueDepthSum : ℚ := 0
  maxTopicBacklogDepthSum : ℚ := 0
  maxTopicConsumerLagSum : ℚ := 0
  maxQueueOldestMessageAgeMs : ℚ := 0
  maxTopicOldestMessageAgeMs : ℚ := 0
  maxQueueDropCount : ℚ := 0
  maxTopicDropCount : ℚ := 0
  maxQueueDlqCount : ℚ := 0
  maxTopicDlqCount : ℚ := 0
  minLocalityHitRate : ℚ := 0
  maxCrossZoneRequestFraction : ℚ := 0
  maxTopologyLatencyPenaltyMeanMs : ℚ := 0
  serviceCPUUtilizationBand : Option UtilizationBand := none
  serviceMemoryUtilizationBand : Option UtilizationBand := none
  hostCPUUtilizationBand : Option UtilizationBand := none
  hostMemoryUtilizationBand : Option UtilizationBand := none
  minHosts : Int := 0
  maxHosts : Int := 0
  minReplicasPerService : Int := 0
  maxReplicasPerService : Int := 0
  minCPUCoresPerInstance : ℚ := 0
  maxCPUCoresPerInstance : ℚ := 0
  minMemoryMBPerInstance : ℚ := 0
  maxMemoryMBPerInstance : ℚ := 0
  minHostCPUCores : Int := 0
  maxHostCPUCores : Int := 0
  minHostMemoryGB : Int := 0
  maxHostMemoryGB : Int := 0
  stepSizes : Option BatchStepSizes := none
  beamWidth : Int := 0
  maxSearchDepth : Int := 0
  maxNeighborsPerState : Int := 0
  reevaluationsPerCandidate : Int := 0
  infeasibleBeamWidth : Int := 0
  costWeights : Option BatchCostWeights := none
  penaltyWeights : Option BatchPenaltyWeights := none
  enableLocalRefinement : Option Bool := none
  deterministicCandidateSeeds : Option Bool := none
deriving DecidableEq

/-- The specification of a batch search; a limit that is not positive does not apply. -/
structure BatchSpec where
  allowedActions : List BatchScalingAction := []
  /-- The allowed actions in the order of the enumeration. -/
  allowedActionsOrdered : List BatchScalingAction := []
  freezeWorkload : Bool := false
  freezePolicies : Bool := false
  maxP95Ms : ℚ := 0
  maxP99Ms : ℚ := 0
  maxErrorRate : ℚ := 0
  minThroughput : ℚ := 0
  maxQueueDepthSum : ℚ := 0
  maxTopicBacklogDepthSum : ℚ := 0
  maxTopicConsumerLagSum : ℚ := 0
  maxQueueOldestMessageAgeMs : ℚ := 0
  maxTopicOldestMessageAgeMs : ℚ := 0
  maxQueueDropCount : ℚ := 0
  maxTopicDropCount : ℚ := 0
  maxQueueDlqCount : ℚ := 0
  maxTopicDlqCount : ℚ := 0
  minLocalityHitRate : ℚ := 0
  maxCrossZoneRequestFraction : ℚ := 0
  maxTopologyLatencyPenaltyMeanMs : ℚ := 0
  serviceCPUBand : UtilizationBand := {}
  serviceMemBand : UtilizationBand := {}
  hostCPUBand : UtilizationBand := {}
  hostMemBand : UtilizationBand := {}
  minHosts : Int := 0
  maxHosts : Int := 0
  minReplicasPerSvc : Int := 0
  maxReplicasPerSvc : Int := 0
  minCPUPerInst : ℚ := 0
  maxCPUPerInst : ℚ := 0
  minMemPerInst : ℚ := 0
  maxMemPerInst : ℚ := 0
  minHostCPUCores : Int := 0
  maxHostCPUCores : Int := 0
  minHostMemGB : Int := 0
  maxHostMemGB : Int := 0
  replicaStep : Int := 0
  serviceCPURatio : ℚ := 0
  serviceMemRatio : ℚ := 0
  hostCPUStepCores : Int := 0
  hostMemStepGB : Int := 0
  beamWidth : Int := 0
  maxSearchDepth : Int := 0
  maxNeighborsPerState : Int := 0
  reevalPerCandidate : Int := 0
  infeasibleBeamWidth : Int := 0
  costWeights : Option BatchCostWeights := none
  penaltyWeights : Option BatchPenaltyWeights := none
  enableLocalRefinement : Bool := false
  deterministicCandidateSeeds : Bool := false
deriving DecidableEq

/-! ### Defaults -/

/-- The actions in the order in which neighbours are generated. -/
def batchScalingActionEnumOrder : List BatchScalingAction :=
  [.serviceScaleOut, .serviceScaleIn, .serviceScaleUpCPU, .serviceScaleDownCPU,
    .serviceScaleUpMemory, .serviceScaleDownMemory, .hostScaleOut, .hostScaleIn, .hostScaleUpCPU,
    .hostScaleDownCPU, .hostScaleUpMemory, .hostScaleDownMemory, .queueScaleUpConcurrency,
    .queueScaleDownConcurrency, .topicSubscriberScaleUpConcurrency,
    .topicSubscriberScaleDownConcurrency]

/-- A set of actions in the order of the enumeration. -/
def orderedActionsFromMap (actions : List BatchScalingAction) : List BatchScalingAction :=
  batchScalingActionEnumOrder.filter actions.contains

/-- Conversion to `int32` with saturation. -/
def safeInt32FromInt (v : Int) : Int :=
  max (-2 ^ 31) (min (2 ^ 31 - 1) v)

/-- The result of an `int32` computation. -/
def wrapInt32 (v : Int) : Int :=
  Int.bmod v (2 ^ 32)

/-- Cost weights when none are given. -/
def defaultCostWeights : BatchCostWeights where
  serviceCPU := 1
  serviceMemoryGB := 1
  replicas := 1
  hosts := 1
  hostCPU := 1
  hostMemoryGB := 1
  churn := 1 / 2

/-- Penalty weights when none are given. -/
def defaultPenaltyWeights : BatchPenaltyWeights where
  p95 := 1
  p99 := 1
  errorRate := 1
  throughput := 1
  serviceCPUBalance := 1
  serviceMemoryBalance := 1
  hostCPUBalance := 1
  hostMemoryBalance := 1
  queueDepth := 1
  topicBacklog := 1
  topicLag := 1
  queueOldestAge := 1
  topicOldestAge := 1
  queueDrop := 1
  topicDrop := 1
  queueDlq := 1
  topicDlq := 1
  locality := 1
  crossZone := 1
  topologyLatency := 1

/-- The bounds of the search around a baseline. -/
def initBoundsFromBaseline (s : BatchSpec) (base : Scenario) : BatchSpec :=
  let nh := max (safeInt32FromInt base.hosts.length) 1
  let s := { s with
    minHosts := nh
    maxHosts := wrapInt32 (nh + 4)
    minReplicasPerSvc := 1
    maxReplicasPerSvc := 32
    minCPUPerInst := 1 / 4
    maxCPUPerInst := 32
    minMemPerInst := 128
    maxMemPerInst := 65536 }
  match base.hosts with
  | [] => s
  | host :: _ =>
    let c := max (safeInt32FromInt host.cores) 1
    let gb := if safeInt32FromInt host.memoryGB < 1 then 16 else safeInt32FromInt host.memoryGB
    { s with
      minHostCPUCores := c
      maxHostCPUCores := wrapInt32 (c * 4)
      minHostMemGB := gb
      maxHostMemGB := wrapInt32 (gb * 4) }

/-- The specification when the client asks for nothing in particular. -/
def defaultBatchSpec (base : Scenario) : BatchSpec :=
  initBoundsFromBaseline
    { allowedActions := batchScalingActionEnumOrder
      allowedActionsOrdered := orderedActionsFromMap batchScalingActionEnumOrder
      freezeWorkload := true
      freezePolicies := true
      maxP95Ms := 500
      maxP99Ms := 1000
      maxErrorRate := 1 / 20
      serviceCPUBand := ⟨45 / 100, 70 / 100⟩
      serviceMemBand := ⟨45 / 100, 75 / 100⟩
      hostCPUBand := ⟨40 / 100, 75 / 100⟩
      hostMemBand := ⟨40 / 100, 80 / 100⟩
      replicaStep := 1
      serviceCPURatio := 1 / 10
      serviceMemRatio := 1 / 10
      hostCPUStepCores := 1
      hostMemStepGB := 1
      beamWidth := 8
      maxSearchDepth := 8
      maxNeighborsPerState := 24
      reevalPerCandidate := 3
      infeasibleBeamWidth := 4
      enableLocalRefinement := true
      deterministicCandidateSeeds := true
      costWeights := some defaultCostWeights
      penaltyWeights := some defaultPenaltyWeights } base

/-! ### Parsing -/

/-- A number of the client if it is positive, else the default. -/
def positiveOr {α : Type} [Zero α] [LT α] [DecidableLT α] (v default : α) : α :=
  if 0 < v then v else default

/-- A band of the client if one of its ends is positive, else the default. -/
def bandOr (b : Option UtilizationBand) (default : UtilizationBand) : UtilizationBand :=
  match b with
  | some b => if b.low > 0 ∨ b.high > 0 then b else default
  | none => default

/-- The defaults overwritten by what the client sends. -/
def mergeBatchSpec (pb : BatchOptimizationConfig) (s : BatchSpec) : BatchSpec :=
  let steps := pb.stepSizes.getD {}
  { s with
    freezeWorkload := pb.freezeWorkload.getD s.freezeWorkload
    freezePolicies := pb.freezePolicies.getD s.freezePolicies
    maxP95Ms := positiveOr pb.maxP95LatencyMs s.maxP95Ms
    maxP99Ms := positiveOr pb.maxP99LatencyMs s.maxP99Ms
    maxErrorRate := positiveOr pb.maxErrorRate s.maxErrorRate
    minThroughput := positiveOr pb.minThroughputRps s.minThroughput
    maxQueueDepthSum := positiveOr pb.maxQueueDepthSum s.maxQueueDepthSum
    maxTopicBacklogDepthSum := positiveOr pb.maxTopicBacklogDepthSum s.maxTopicBacklogDepthSum
    maxTopicConsumerLagSum := positiveOr pb.maxTopicConsumerLagSum s.maxTopicConsumerLagSum
    maxQueueOldestMessageAgeMs :=
      positiveOr pb.maxQueueOldestMessageAgeMs s.maxQueueOldestMessageAgeMs
    maxTopicOldestMessageAgeMs :=
      positiveOr pb.maxTopicOldestMessageAgeMs s.maxTopicOldestMessageAgeMs
    maxQueueDropCount := positiveOr pb.maxQueueDropCount s.maxQueueDropCount
    maxTopicDropCount := positiveOr pb.maxTopicDropCount s.maxTopicDropCount
    maxQueueDlqCount := positiveOr pb.maxQueueDlqCount s.maxQueueDlqCount
    maxTopicDlqCount := positiveOr pb.maxTopicDlqCount s.maxTopicDlqCount
    minLocalityHitRate := positiveOr pb.minLocalityHitRate s.minLocalityHitRate
    maxCrossZoneRequestFraction :=
      positiveOr pb.maxCrossZoneRequestFraction s.maxCrossZoneRequestFraction
    maxTopologyLatencyPenaltyMeanMs :=
      positiveOr pb.maxTopologyLatencyPenaltyMeanMs s.maxTopologyLatencyPenaltyMeanMs
    serviceCPUBand := bandOr pb.serviceCPUUtilizationBand s.serviceCPUBand
    serviceMemBand := bandOr pb.serviceMemoryUtilizationBand s.serviceMemBand
    hostCPUBand := bandOr pb.hostCPUUtilizationBand s.hostCPUBand
    hostMemBand := bandOr pb.hostMemoryUtilizationBand s.hostMemBand
    minHosts := positiveOr pb.minHosts s.minHosts
    maxHosts := positiveOr pb.maxHosts s.maxHosts
    minReplicasPerSvc := positiveOr pb.minReplicasPerService s.minReplicasPerSvc
    maxReplicasPerSvc := positiveOr pb.maxReplicasPerService s.maxReplicasPerSvc
    minCPUPerInst := positiveOr pb.minCPUCoresPerInstance s.minCPUPerInst
    maxCPUPerInst := positiveOr pb.maxCPUCoresPerInstance s.maxCPUPerInst
    minMemPerInst := positiveOr pb.minMemoryMBPerInstance s.minMemPerInst
    maxMemPerInst := positiveOr pb.maxMemoryMBPerInstance s.maxMemPerInst
    minHostCPUCores := positiveOr pb.minHostCPUCores s.minHostCPUCores
    maxHostCPUCores := positiveOr pb.maxHostCPUCores s.maxHostCPUCores
    minHostMemGB := positiveOr pb.minHostMemoryGB s.minHostMemGB
    maxHostMemGB := positiveOr pb.maxHostMemoryGB s.maxHostMemGB
    replicaStep := positiveOr steps.replicaStep s.replicaStep
    serviceCPURatio := positiveOr steps.serviceCPURatio s.serviceCPURatio
    serviceMemRatio := positiveOr steps.serviceMemoryRatio s.serviceMemRatio
    hostCPUStepCores := positiveOr steps.hostCPUStepCores s.hostCPUStepCores
    hostMemStepGB := positiveOr steps.hostMemoryStepGB s.hostMemStepGB
    beamWidth := positiveOr pb.beamWidth s.beamWidth
    maxSearchDepth := positiveOr pb.maxSearchDepth s.maxSearchDepth
    maxNeighborsPerState := positiveOr pb.maxNeighborsPerState s.maxNeighborsPerState
    reevalPerCandidate := positiveOr pb.reevaluationsPerCandidate s.reevalPerCandidate
    infeasibleBeamWidth := positiveOr pb.infeasibleBeamWidth s.infeasibleBeamWidth
    costWeights := if pb.costWeights.isSome then pb.costWeights else s.costWeights
    penaltyWeights := if pb.penaltyWeights.isSome then pb.penaltyWeights else s.penaltyWeights
    enableLocalRefinement := pb.enableLocalRefinement.getD s.enableLocalRefinement
    deterministicCandidateSeeds :=
      pb.deterministicCandidateSeeds.getD s.deterministicCandidateSeeds }

/-- The actions that the client allows; without any, all of them. -/
def mergeActions (pb : BatchOptimizationConfig) (s : BatchSpec) : Except String BatchSpec := do
  if pb.allowedActions.isEmpty then return s
  let actions := pb.allowedActions.filter fun a => a ≠ .unspecified
  check (!actions.isEmpty) "allowed_actions has no valid entries"
  return { s with allowedActions := actions
                  allowedActionsOrdered := orderedActionsFromMap actions }

/-- The checks on a merged specification; the widths and the depth are brought into range. -/
def validateBatchSpec (s : BatchSpec) : Except String BatchSpec := do
  check (!(s.maxP95Ms ≤ 0 || s.maxP99Ms ≤ 0))
    "max_p95_latency_ms and max_p99_latency_ms must be > 0"
  check (!(s.maxErrorRate ≤ 0 || s.maxErrorRate > 1)) "max_error_rate must be in (0,1]"
  check (!(s.maxQueueDepthSum < 0 || s.maxTopicBacklogDepthSum < 0 ||
    s.maxTopicConsumerLagSum < 0)) "broker backlog/lag limits cannot be negative"
  check (!(s.maxQueueOldestMessageAgeMs < 0 || s.maxTopicOldestMessageAgeMs < 0))
    "broker oldest message age limits cannot be negative"
  check (!(s.maxQueueDropCount < 0 || s.maxTopicDropCount < 0 || s.maxQueueDlqCount < 0 ||
    s.maxTopicDlqCount < 0)) "broker drop/dlq limits cannot be negative"
  check (!(s.minLocalityHitRate < 0 || s.minLocalityHitRate > 1))
    "min_locality_hit_rate must be in [0,1]"
  check (!(s.maxCrossZoneRequestFraction < 0 || s.maxCrossZoneRequestFraction > 1))
    "max_cross_zone_request_fraction must be in [0,1]"
  check (!(s.maxTopologyLatencyPenaltyMeanMs < 0))
    "max_topology_latency_penalty_mean_ms cannot be negative"
  check (!(s.serviceCPUBand.low ≥ s.serviceCPUBand.high ||
    s.serviceMemBand.low ≥ s.serviceMemBand.high)) "invalid service utilization bands"
  check (!(s.hostCPUBand.low ≥ s.hostCPUBand.high || s.hostMemBand.low ≥ s.hostMemBand.high))
    "invalid host utilization bands"
  check (!(s.minHosts > s.maxHosts)) "min_hosts > max_hosts"
  check (!(s.minReplicasPerSvc > s.maxReplicasPerSvc))
    "min_replicas_per_service > max_replicas_per_service"
  check (!(s.minCPUPerInst ≥ s.maxCPUPerInst || s.minMemPerInst ≥ s.maxMemPerInst))
    "invalid per-instance min/max"
  check (!(s.minHostCPUCores > s.maxHostCPUCores || s.minHostMemGB > s.maxHostMemGB))
    "invalid host min/max"
  check (!(s.beamWidth < 1 || s.maxSearchDepth < 1))
    "beam_width and max_search_depth must be >= 1"
  check (!(s.maxNeighborsPerState < 1)) "max_neighbors_per_state must be >= 1"
  return { s with
    infeasibleBeamWidth := max s.infeasibleBeamWidth 1
    beamWidth := min s.beamWidth 256
    maxSearchDepth := min s.maxSearchDepth 64 }

def parseBatchSpec (pb : Option BatchOptimizationConfig) (base : Scenario) :
    Except String BatchSpec := do
  match pb with
  | none => .error "batch optimization config is nil"
  | some pb => do
    let s ← mergeActions pb (defaultBatchSpec base)
    validateBatchSpec (mergeBatchSpec pb s)

/-- Smaller steps for the pass after the search. -/
def BatchSpec.refinementSpec (s : BatchSpec) : BatchSpec :=
  let neighbors :=
    if s.maxNeighborsPerState > 8 then Int.tdiv s.maxNeighborsPerState 2
    else s.maxNeighborsPerState
  { s with
    replicaStep := max (Int.tdiv s.replicaStep 2) 1
    serviceCPURatio := max (s.serviceCPURatio * (1 / 2)) (1 / 100)
    serviceMemRatio := max (s.serviceMemRatio * (1 / 2)) (1 / 100)
    hostCPUStepCores :=
      if s.hostCPUStepCores > 1 then Int.tdiv s.hostCPUStepCores 2 else s.hostCPUStepCores
    hostMemStepGB := if s.hostMemStepGB > 1 then Int.tdiv s.hostMemStepGB 2 else s.hostMemStepGB
    maxNeighborsPerState := max neighbors 8 }

/-! ### Accepted specifications -/

section

variable {α : Type} [Zero α] [Preorder α] [DecidableLT α] {v d : α}

theorem positiveOr_pos (hd : 0 < d) : 0 < positiveOr v d := by
  rw [positiveOr]
  split_ifs with hv
  · exact hv
  · exact hd

end

/-- What holds of the specifications that the parser accepts for a baseline. -/
structure Parsed (base : Scenario) (s : BatchSpec) : Prop where
  hosts : 0 < s.minHosts ∧ s.minHosts ≤ s.maxHosts
  replicas : 0 < s.minReplicasPerSvc ∧ s.minReplicasPerSvc ≤ s.maxReplicasPerSvc
  cpu : 0 < s.minCPUPerInst ∧ s.minCPUPerInst < s.maxCPUPerInst
  mem : 0 < s.minMemPerInst ∧ s.minMemPerInst < s.maxMemPerInst
  hostCPU : base.hosts ≠ [] → 0 < s.minHostCPUCores
  hostCPU_le : s.minHostCPUCores ≤ s.maxHostCPUCores
  hostMem : base.hosts ≠ [] → 0 < s.minHostMemGB
  hostMem_le : s.minHostMemGB ≤ s.maxHostMemGB
  replicaStep : 0 < s.replicaStep
  cpuRatio : 0 < s.serviceCPURatio
  memRatio : 0 < s.serviceMemRatio
  hostCPUStep : 0 < s.hostCPUStepCores
  hostMemStep : 0 < s.hostMemStepGB

/-- The defaults that parsing falls back to. -/
theorem defaultBatchSpec_bounds (base : Scenario) : 1 ≤ (defaultBatchSpec base).minHosts ∧
      (base.hosts ≠ [] → 1 ≤ (defaultBatchSpec base).minHostCPUCores) ∧
      (base.hosts ≠ [] → 1 ≤ (defaultBatchSpec base).minHostMemGB) := by
  unfold defaultBatchSpec initBoundsFromBaseline
  cases base.hosts with
  | nil => exact ⟨le_max_right _ _, fun h => (h rfl).elim, fun h => (h rfl).elim⟩
  | cons =>
    refine ⟨le_max_right _ _, fun _ => le_max_right _ _, fun _ => ?_⟩
    simp only
    split_ifs with hgb
    · norm_num
    · exact not_lt.1 hgb

/-- Minimal sizes and steps do not depend on the baseline. -/
theorem defaultBatchSpec_pos (base : Scenario) :
    0 < (defaultBatchSpec base).minReplicasPerSvc ∧ 0 < (defaultBatchSpec base).minCPUPerInst ∧
      0 < (defaultBatchSpec base).minMemPerInst ∧ 0 < (defaultBatchSpec base).replicaStep ∧
      0 < (defaultBatchSpec base).serviceCPURatio ∧ 0 < (defaultBatchSpec base).serviceMemRatio ∧
      0 < (defaultBatchSpec base).hostCPUStepCores ∧ 0 < (defaultBatchSpec base).hostMemStepGB := by
  unfold defaultBatchSpec initBoundsFromBaseline
  cases base.hosts with
  | nil => norm_num
  | cons => norm_num

theorem mergeActions_eq {pb : BatchOptimizationConfig} {s s' : BatchSpec}
    (h : mergeActions pb s = .ok s') : ∃ actions ordered,
      s' = { s with allowedActions := actions, allowedActionsOrdered := ordered } := by
  unfold mergeActions at h
  split at h
  · cases h
    exact ⟨s.allowedActions, s.allowedActionsOrdered, rfl⟩
  · obtain ⟨-, -, h⟩ := bind_eq_ok.1 h
    cases h
    exact ⟨_, _, rfl⟩

theorem validateBatchSpec_eq {s s' : BatchSpec} (h : validateBatchSpec s = .ok s') : s' = { s with
      infeasibleBeamWidth := max s.infeasibleBeamWidth 1
      beamWidth := min s.beamWidth 256
      maxSearchDepth := min s.maxSearchDepth 64 } ∧
    s.minHosts ≤ s.maxHosts ∧ s.minReplicasPerSvc ≤ s.maxReplicasPerSvc ∧
    s.minCPUPerInst < s.maxCPUPerInst ∧ s.minMemPerInst < s.maxMemPerInst ∧
    s.minHostCPUCores ≤ s.maxHostCPUCores ∧ s.minHostMemGB ≤ s.maxHostMemGB := by
  unfold validateBatchSpec at h
  simp only [bind_eq_ok, check_eq_ok, exists_const] at h
  obtain ⟨-, -, -, -, -, -, -, -, -, -, hho, hr, hi, hh, -, -, h⟩ := h
  cases h
  simp only [Bool.not_eq_true', Bool.or_eq_false_iff, decide_eq_false_iff_not, not_lt, not_le,
    ge_iff_le, gt_iff_lt] at hho hr hi hh
  exact ⟨rfl, hho, hr, hi.1, hi.2, hh.1, hh.2⟩

theorem parsed_of_parseBatchSpec {pb : Option BatchOptimizationConfig} {base : Scenario}
    {s : BatchSpec} (h : parseBatchSpec pb base = .ok s) : Parsed base s := by
  cases pb with
  | none => cases h
  | some =>
    obtain ⟨_, ha, hv⟩ := bind_eq_ok.1 h
    obtain ⟨_, _, rfl⟩ := mergeActions_eq ha
    obtain ⟨rfl, hhosts, hr, hc, hm, hh, hho⟩ := validateBatchSpec_eq hv
    obtain ⟨dhosts, dhostCPU, dhostMem⟩ := defaultBatchSpec_bounds base
    obtain ⟨dreplicas, dcpu, dmem, dstep, dcpuRatio, dmemRatio, dhostStep, dmemStep⟩ :=
      defaultBatchSpec_pos base
    exact
      { hosts := ⟨positiveOr_pos dhosts, hhosts⟩
        replicas := ⟨positiveOr_pos dreplicas, hr⟩
        cpu := ⟨positiveOr_pos dcpu, hc⟩
        mem := ⟨positiveOr_pos dmem, hm⟩
        hostCPU := fun hne => positiveOr_pos (dhostCPU hne)
        hostCPU_le := hh
        hostMem := fun hne => positiveOr_pos (dhostMem hne)
        hostMem_le := hho
        replicaStep := positiveOr_pos dstep
        cpuRatio := positiveOr_pos dcpuRatio
        memRatio := positiveOr_pos dmemRatio
        hostCPUStep := positiveOr_pos dhostStep
        hostMemStep := positiveOr_pos dmemStep }

/-- An accepted value from a computed check on it. -/
theorem exists_ok_of_toOption_map {α : Type} {x : Except String α} {p : α → Bool}
    (h : x.toOption.map p = some true) : ∃ a, x = .ok a ∧ p a = true := by
  cases x with
  | error => cases h
  | ok a => exact ⟨a, rfl, Option.some.inj h⟩

theorem halved_pos {n : Int} (h : 0 < n) : 0 < if n > 1 then Int.tdiv n 2 else n := by
  split_ifs
  · rw [Int.tdiv_eq_ediv_of_nonneg h.le]
    omega
  · exact h

/-- The steps of the refinement pass stay positive, and its bounds are those of the search. -/
theorem Parsed.refinementSpec {base cur : Scenario} {s : BatchSpec} (h : Parsed base s)
    (hb : base.hosts ≠ []) : Parsed cur s.refinementSpec where
  __ := h
  hostCPU _ := h.hostCPU hb
  hostMem _ := h.hostMem hb
  replicaStep := lt_max_of_lt_right one_pos
  cpuRatio := lt_max_of_lt_right (by norm_num)
  memRatio := lt_max_of_lt_right (by norm_num)
  hostCPUStep := halved_pos h.hostCPUStep
  hostMemStep := halved_pos h.hostMemStep

end SimCore.Batchspec
