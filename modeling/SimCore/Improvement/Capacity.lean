import SimCore.Batchspec.Spec

/-!
# Capacity and bounds of candidate scenarios

Before a candidate of the batch search is simulated, its total demand is compared with the total
capacity of its hosts, and its sizes with the bounds of the specification. Each of the checks has
its own idea of a value that the scenario omits: the capacity check fills in the defaults of the
runtime, the bounds of cores and memory of instances are applied to the values as written.

## Main definitions

* `serviceCPU`, `serviceMem`, `hostMem`: values with the defaults filled in
* `staticCapacityOK`: the demand fits the hosts in total
* `withinBatchBounds`: all sizes are within the bounds
-/

namespace SimCore.Improvement

open Config Batchspec

/-! ### Defaults -/

/-- Cores of an instance when the scenario gives none. -/
def defaultServiceCPUCores : ℚ := 1

/-- Memory in MB of an instance when the scenario gives none. -/
def defaultServiceMemoryMB : ℚ := 512

/-- Cores of an instance of a service. -/
def serviceCPU (svc : Service) : ℚ :=
  if svc.cpuCores ≤ 0 then defaultServiceCPUCores else svc.cpuCores

/-- Memory in MB of an instance of a service. -/
def serviceMem (svc : Service) : ℚ :=
  if svc.memoryMB ≤ 0 then defaultServiceMemoryMB else svc.memoryMB

/-- The number of instances of a service, at least one. -/
def replicaCount (svc : Service) : ℚ :=
  if (svc.replicas : ℚ) < 1 then 1 else svc.replicas

/-- Memory in GB of a host. -/
def hostMem (h : Host) : Int :=
  if h.memoryGB < 1 then 16 else h.memoryGB

/-! ### Capacity -/

/-- Cores that all instances need. -/
def needCPU (sc : Scenario) : ℚ :=
  (sc.services.map fun svc => replicaCount svc * serviceCPU svc).sum

/-- Memory in MB that all instances need. -/
def needMem (sc : Scenario) : ℚ :=
  (sc.services.map fun svc => replicaCount svc * serviceMem svc).sum

/-- Cores of all hosts. -/
def capCPU (sc : Scenario) : ℚ :=
  (sc.hosts.map fun h => (h.cores : ℚ)).sum

/-- Memory in MB of all hosts. -/
def capMem (sc : Scenario) : ℚ :=
  (sc.hosts.map fun h => (hostMem h : ℚ) * 1024).sum

/-- Whether a total demand is within a total capacity; without capacity there is no limit. -/
def fitsTotal (need cap : ℚ) : Bool :=
  decide (need ≤ (if cap ≤ 0 then need else cap) * (1001 / 1000))

/-- Whether the hosts have the cores and the memory for all instances in total. -/
def staticCapacityOK (sc : Scenario) : Bool :=
  !sc.services.isEmpty && fitsTotal (needCPU sc) (capCPU sc) && fitsTotal (needMem sc) (capMem sc)

/-! ### Bounds -/

/-- Whether a configured concurrency is within its configured bounds; zero stands for none. -/
def concurrencyInRange (n lo hi : Int) : Bool :=
  !(decide (lo > 0) && decide (n > 0) && decide (n < lo)) &&
    !(decide (hi > 0) && decide (n > 0) && decide (n > hi))

/-- Whether the sizes of a service are within the bounds. -/
def serviceInBounds (spec : BatchSpec) (svc : Service) : Bool :=
  !(decide (svc.replicas < spec.minReplicasPerSvc) ||
      decide (svc.replicas > spec.maxReplicasPerSvc)) &&
    !(decide (svc.cpuCores < spec.minCPUPerInst) || decide (svc.cpuCores > spec.maxCPUPerInst)) &&
    !(decide (svc.memoryMB < spec.minMemPerInst) || decide (svc.memoryMB > spec.maxMemPerInst)) &&
    (match svc.behavior.bind ServiceBehavior.queue with
      | some q => concurrencyInRange q.consumerConcurrency q.minConsumerConcurrency
          q.maxConsumerConcurrency
      | none => true) &&
    (match svc.behavior.bind ServiceBehavior.topic with
      | some t => t.subscribers.all fun sub => concurrencyInRange sub.consumerConcurrency
          sub.minConsumerConcurrency sub.maxConsumerConcurrency
      | none => true)

/-- Whether the sizes of a host are within the bounds. -/
def hostInBounds (spec : BatchSpec) (h : Host) : Bool :=
  !(decide (h.cores < spec.minHostCPUCores) || decide (h.cores > spec.maxHostCPUCores)) &&
    !(decide (hostMem h < spec.minHostMemGB) || decide (hostMem h > spec.maxHostMemGB))

/-- Whether a scenario is within the bounds of the search. -/
def withinBatchBounds (spec : BatchSpec) (sc : Scenario) : Bool :=
  !(decide ((sc.hosts.length : Int) < spec.minHosts) ||
      decide ((sc.hosts.length : Int) > spec.maxHosts)) &&
    sc.services.all (serviceInBounds spec) && sc.hosts.all (hostInBounds spec)

section

variable {spec : BatchSpec}

theorem sizes_of_serviceInBounds {svc : Service} (h : serviceInBounds spec svc = true) :
    (spec.minReplicasPerSvc ≤ svc.replicas ∧ svc.replicas ≤ spec.maxReplicasPerSvc) ∧
      (spec.minCPUPerInst ≤ svc.cpuCores ∧ svc.cpuCores ≤ spec.maxCPUPerInst) ∧
      spec.minMemPerInst ≤ svc.memoryMB ∧ svc.memoryMB ≤ spec.maxMemPerInst := by
  simp only [serviceInBounds, Bool.and_eq_true, Bool.not_eq_true', Bool.or_eq_false_iff,
    decide_eq_false_iff_not, not_lt, gt_iff_lt] at h
  obtain ⟨⟨⟨⟨hr, hc⟩, hm⟩, -⟩, -⟩ := h
  exact ⟨hr, hc, hm⟩

theorem concurrencyInRange_iff {n lo hi : Int} : concurrencyInRange n lo hi = true ↔
    (0 < lo → 0 < n → lo ≤ n) ∧ (0 < hi → 0 < n → n ≤ hi) := by
  simp only [concurrencyInRange, Bool.and_eq_true, Bool.not_eq_true', Bool.and_eq_false_iff,
    decide_eq_false_iff_not]
  omega

theorem concurrency_of_serviceInBounds {svc : Service} (h : serviceInBounds spec svc = true) :
    (∀ q ∈ svc.behavior.bind ServiceBehavior.queue, concurrencyInRange q.consumerConcurrency
        q.minConsumerConcurrency q.maxConsumerConcurrency = true) ∧
      ∀ t ∈ svc.behavior.bind ServiceBehavior.topic, ∀ sub ∈ t.subscribers,
        concurrencyInRange sub.consumerConcurrency sub.minConsumerConcurrency
          sub.maxConsumerConcurrency = true := by
  simp only [serviceInBounds, Bool.and_eq_true] at h
  constructor
  · intro q hq
    simpa [Option.mem_def.1 hq] using h.1.2
  · intro t ht
    simpa [Option.mem_def.1 ht] using h.2

theorem hostInBounds_iff {h : Host} : hostInBounds spec h = true ↔
    (spec.minHostCPUCores ≤ h.cores ∧ h.cores ≤ spec.maxHostCPUCores) ∧
      spec.minHostMemGB ≤ hostMem h ∧ hostMem h ≤ spec.maxHostMemGB := by
  simp only [hostInBounds, Bool.and_eq_true, Bool.not_eq_true', Bool.or_eq_false_iff,
    decide_eq_false_iff_not, not_lt, gt_iff_lt]

theorem withinBatchBounds_iff {sc : Scenario} : withinBatchBounds spec sc = true ↔
    (spec.minHosts ≤ sc.hosts.length ∧ (sc.hosts.length : Int) ≤ spec.maxHosts) ∧
      (∀ svc ∈ sc.services, serviceInBounds spec svc = true) ∧
      ∀ h ∈ sc.hosts, hostInBounds spec h = true := by
  simp only [withinBatchBounds, Bool.and_eq_true, Bool.not_eq_true', Bool.or_eq_false_iff,
    decide_eq_false_iff_not, not_lt, gt_iff_lt, List.all_eq_true, and_assoc]

end

end SimCore.Improvement
