import SimCore.Improvement.Score
import SimCore.Base.SliceSort

/-!
# Neighbours of a scenario

One step of the batch search: every allowed action is applied to every service or host it applies
to, and what is within capacity and bounds is kept, ordered by the change of capacity and cut to a
maximal number. An action that makes a value larger or smaller clamps it to the bounds of the
specification.

The source passes the baseline along and does not read it. Copies of the scenario are values here.

## Main definitions

* `serviceChange`, `hostChange`: the effect of an action on one service or host
* `actionNeighbors`: the scenarios that an action leads to
* `generateBatchNeighbors`: the neighbours of a scenario
-/

namespace SimCore.Improvement

open Config Batchspec List

/-! ### Signals -/

/-- Whether a positive limit is exceeded by a factor. -/
def exceeds (limit value factor : ℚ) : Bool :=
  decide (limit > 0) && decide (value > limit * factor)

/-- Whether the metrics look overloaded. -/
def neighborStress (spec : BatchSpec) : Option RunMetrics → Bool
  | none => true
  | some m =>
    let util := serviceUtilStats (some m)
    exceeds spec.maxP95Ms m.latencyP95Ms (1005 / 1000) ||
      (decide (util.n > 0) && decide (util.maxCPU > spec.serviceCPUBand.high)) ||
      (decide (spec.minThroughput > 0) &&
        decide (m.throughput < spec.minThroughput * (95 / 100))) ||
      exceeds spec.maxQueueDepthSum m.queueDepthSum (101 / 100) ||
      exceeds spec.maxTopicBacklogDepthSum m.topicBacklogDepthSum (101 / 100) ||
      exceeds spec.maxTopicConsumerLagSum m.topicConsumerLagSum (101 / 100) ||
      exceeds spec.maxQueueOldestMessageAgeMs m.queueOldestMessageAgeMs (101 / 100) ||
      exceeds spec.maxTopicOldestMessageAgeMs m.topicOldestMessageAgeMs (101 / 100) ||
      exceeds spec.maxQueueDropCount m.queueDropCountTotal (101 / 100) ||
      exceeds spec.maxTopicDropCount m.topicDropCountTotal (101 / 100) ||
      exceeds spec.maxQueueDlqCount m.queueDlqCountTotal (101 / 100) ||
      exceeds spec.maxTopicDlqCount m.topicDlqCountTotal (101 / 100)

/-- How much capacity a neighbour adds. -/
def capacityDelta (cur nb : Scenario) : ℚ :=
  (List.zipWith (fun c n : Service => ((n.replicas - c.replicas : Int) : ℚ) * 50 +
    (n.cpuCores - c.cpuCores) * 2 + (n.memoryMB - c.memoryMB) / 256) cur.services nb.services).sum +
    (((nb.hosts.length : Int) - cur.hosts.length : Int) : ℚ) * 80

/-- The position of a service by its name. -/
def serviceIndexByID (sc : Scenario) (id : String) : Option Nat :=
  lookupLast id (sc.services.zipIdx.map fun p => (p.1.id, p.2))

/-- The load of a service in the metrics. -/
def servicePressureScore (m : Option RunMetrics) (id : String) : ℚ :=
  let named := ((m.map RunMetrics.serviceMetrics).getD []).filter fun s =>
    trimSpace s.serviceName ≠ ""
  (lookupLast id (named.map fun s => (s.serviceName, s.cpuUtilization + s.memoryUtilization +
    (s.concurrentRequests : ℚ) * (1 / 100) + (s.queueLength : ℚ) * (5 / 100)))).getD 0

/-- The consumer targets of queues and topics. -/
def consumerTargets (svc : Service) : List String :=
  match svc.behavior with
  | none => []
  | some b => (b.queue.map QueueBehavior.consumerTarget).toList ++
      ((b.topic.map TopicBehavior.subscribers).getD []).map TopicSubscriber.consumerTarget

/-- The services that consume from brokers, the most loaded first. -/
def brokerConsumerTargetServiceIndices (cur : Scenario) (m : Option RunMetrics) : List Nat :=
  let seen := (cur.services.flatMap consumerTargets).filterMap fun target =>
    (splitN2 ':' (trimSpace target)).bind fun parts => serviceIndexByID cur (trimSpace parts.1)
  let id (i : Nat) : String := (cur.services[i]?.map Service.id).getD ""
  insertionSort.sort (fun i j =>
    let pi := servicePressureScore m (id i)
    let pj := servicePressureScore m (id j)
    if pi = pj then decide (id i < id j) else decide (pi > pj)) seen.dedup

/-- The services to scale out or up: under stress those that consume from brokers, if there are
any. -/
def scaleIndices (spec : BatchSpec) (cur : Scenario) (m : Option RunMetrics) : List Nat :=
  let consumers := if neighborStress spec m then brokerConsumerTargetServiceIndices cur m else []
  if consumers.isEmpty then List.range cur.services.length else consumers

/-! ### Actions on one service or host -/

/-- The number of consumers in a run. -/
def effectiveConcurrency (n : Int) : Int :=
  if n ≤ 0 then 1 else n

/-- The largest number of consumers. -/
def concurrencyLimit (spec : BatchSpec) (maxConcurrency : Int) : Int :=
  if maxConcurrency ≤ 0 then
    if spec.maxReplicasPerSvc < 1 then 64 else spec.maxReplicasPerSvc
  else maxConcurrency

/-- The concurrency after an increase, unless it is at its maximum. The step is added before the
result is compared with the maximum. -/
def raiseConcurrency (spec : BatchSpec) (concurrency maxConcurrency : Int) : Option Int :=
  let curC := effectiveConcurrency concurrency
  let maxC := concurrencyLimit spec maxConcurrency
  if curC ≥ maxC then none else some (min (wrapInt64 (curC + spec.replicaStep)) maxC)

/-- The concurrency after a decrease, unless it is at its minimum. -/
def lowerConcurrency (spec : BatchSpec) (concurrency minConcurrency : Int) : Option Int :=
  let curC := effectiveConcurrency concurrency
  let minC := if minConcurrency ≤ 0 then 1 else minConcurrency
  if curC ≤ minC then none else some (max (curC - spec.replicaStep) minC)

/-- Changes the concurrency of the queue of a service. -/
def changeQueue (change : QueueBehavior → Option Int) (svc : Service) : List Service :=
  match svc.behavior with
  | none => []
  | some b =>
    match b.queue with
    | none => []
    | some q => (change q).toList.map fun n =>
      { svc with behavior := some { b with queue := some { q with consumerConcurrency := n } } }

/-- Changes the concurrency of one subscriber of a topic, of each in turn. -/
def changeSubscribers (change : TopicSubscriber → Option Int) (svc : Service) : List Service :=
  match svc.behavior with
  | none => []
  | some b =>
    match b.topic with
    | none => []
    | some t => (List.range t.subscribers.length).flatMap fun j =>
      match t.subscribers[j]? with
      | none => []
      | some sub => (change sub).toList.map fun n =>
        { svc with behavior := some { b with topic := some { t with
            subscribers := t.subscribers.set j { sub with consumerConcurrency := n } } } }

/-- What an action makes of a service. -/
def serviceChange (spec : BatchSpec) (act : BatchScalingAction) (svc : Service) : List Service :=
  match act with
  | .serviceScaleOut =>
    if svc.replicas ≥ spec.maxReplicasPerSvc then []
    else [{ svc with replicas := min (svc.replicas + spec.replicaStep) spec.maxReplicasPerSvc }]
  | .serviceScaleIn =>
    if svc.replicas - spec.replicaStep < spec.minReplicasPerSvc then []
    else [{ svc with replicas := max (svc.replicas - spec.replicaStep) spec.minReplicasPerSvc }]
  | .serviceScaleUpCPU =>
    [{ svc with cpuCores := min (serviceCPU svc * (1 + spec.serviceCPURatio)) spec.maxCPUPerInst }]
  | .serviceScaleDownCPU =>
    [{ svc with cpuCores := max (serviceCPU svc * (1 - spec.serviceCPURatio)) spec.minCPUPerInst }]
  | .serviceScaleUpMemory =>
    [{ svc with memoryMB := min (serviceMem svc * (1 + spec.serviceMemRatio)) spec.maxMemPerInst }]
  | .serviceScaleDownMemory =>
    [{ svc with memoryMB := max (serviceMem svc * (1 - spec.serviceMemRatio)) spec.minMemPerInst }]
  | .queueScaleUpConcurrency =>
    changeQueue (fun q => raiseConcurrency spec q.consumerConcurrency q.maxConsumerConcurrency) svc
  | .queueScaleDownConcurrency =>
    changeQueue (fun q => lowerConcurrency spec q.consumerConcurrency q.minConsumerConcurrency) svc
  | .topicSubscriberScaleUpConcurrency =>
    changeSubscribers (fun s =>
      raiseConcurrency spec s.consumerConcurrency s.maxConsumerConcurrency) svc
  | .topicSubscriberScaleDownConcurrency =>
    changeSubscribers (fun s =>
      lowerConcurrency spec s.consumerConcurrency s.minConsumerConcurrency) svc
  | _ => []

/-- Whether the scaling policy of a service is asked before an action, and allows it. -/
def allowsAction (act : BatchScalingAction) (svc : Service) : Bool :=
  match act with
  | .queueScaleUpConcurrency | .queueScaleDownConcurrency | .topicSubscriberScaleUpConcurrency
  | .topicSubscriberScaleDownConcurrency => true
  | _ => serviceAllowsBatchScalingAction svc act

/-- What an action makes of a host. -/
def hostChange (spec : BatchSpec) (act : BatchScalingAction) (h : Host) : List Host :=
  match act with
  | .hostScaleUpCPU =>
    [{ h with cores := min (h.cores + spec.hostCPUStepCores) spec.maxHostCPUCores }]
  | .hostScaleDownCPU =>
    [{ h with cores := max (h.cores - spec.hostCPUStepCores) spec.minHostCPUCores }]
  | .hostScaleUpMemory =>
    [{ h with memoryGB := min (h.memoryGB + spec.hostMemStepGB) spec.maxHostMemGB }]
  | .hostScaleDownMemory =>
    [{ h with memoryGB := max (h.memoryGB - spec.hostMemStepGB) spec.minHostMemGB }]
  | _ => []

/-! ### Actions on a scenario -/

def setService (sc : Scenario) (i : Nat) (svc : Service) : Scenario :=
  { sc with services := sc.services.set i svc }

def setHost (sc : Scenario) (i : Nat) (h : Host) : Scenario :=
  { sc with hosts := sc.hosts.set i h }

/-- The scenarios with one of the given services changed. -/
def changeServices (cur : Scenario) (indices : List Nat) (change : Service → List Service) :
    List Scenario :=
  indices.flatMap fun i => (cur.services[i]?.toList).flatMap fun svc =>
    (change svc).map (setService cur i)

/-- The scenarios with one host changed. -/
def changeHosts (cur : Scenario) (change : Host → List Host) : List Scenario :=
  (List.range cur.hosts.length).flatMap fun i => (cur.hosts[i]?.toList).flatMap fun h =>
    (change h).map (setHost cur i)

/-- A further host with the sizes of the first one, named by its position. -/
def hostScaleOut (spec : BatchSpec) (cur : Scenario) : List Scenario :=
  match cur.hosts with
  | [] => []
  | h0 :: _ =>
    if (cur.hosts.length : Int) ≥ spec.maxHosts then []
    else [{ cur with hosts := cur.hosts ++
      [{ id := "host-" ++ itoa (cur.hosts.length + 1), cores := h0.cores
         memoryGB := h0.memoryGB }] }]

/-- The scenario without its last host. -/
def hostScaleIn (spec : BatchSpec) (cur : Scenario) : List Scenario :=
  if (cur.hosts.length : Int) ≤ spec.minHosts then []
  else [{ cur with hosts := cur.hosts.dropLast }]

/-- The scenarios that an action leads to. -/
def actionNeighbors (spec : BatchSpec) (cur : Scenario) (m : Option RunMetrics)
    (act : BatchScalingAction) : List Scenario :=
  let change (svc : Service) : List Service :=
    if allowsAction act svc then serviceChange spec act svc else []
  match act with
  | .serviceScaleOut | .serviceScaleUpCPU | .serviceScaleUpMemory =>
    changeServices cur (scaleIndices spec cur m) change
  | .hostScaleOut => hostScaleOut spec cur
  | .hostScaleIn => hostScaleIn spec cur
  | .hostScaleUpCPU | .hostScaleDownCPU | .hostScaleUpMemory | .hostScaleDownMemory =>
    changeHosts cur (hostChange spec act)
  | .unspecified => []
  | _ => changeServices cur (List.range cur.services.length) change

/-- The scenarios with a changed arrival rate. -/
def workloadNeighbors (cur : Scenario) : List Scenario :=
  (List.range cur.workload.length).flatMap fun i => (cur.workload[i]?.toList).flatMap fun w =>
    [11 / 10, 9 / 10].map fun mul =>
      { cur with workload := cur.workload.set i { w with
          arrival := { w.arrival with rateRPS := max (w.arrival.rateRPS * mul) (1 / 100) } } }

/-- The scenario with autoscaling switched. -/
def policyNeighbors (cur : Scenario) : List Scenario :=
  match cur.policies with
  | none => []
  | some p =>
    match p.autoscaling with
    | none => []
    | some a => [{ cur with policies := some { p with
        autoscaling := some { a with enabled := !a.enabled } } }]

/-- The allowed actions in order. -/
def searchActions (spec : BatchSpec) : List BatchScalingAction :=
  if spec.allowedActionsOrdered.isEmpty then orderedActionsFromMap spec.allowedActions
  else spec.allowedActionsOrdered

/-- Whether a scenario is within capacity and bounds. -/
def admissible (spec : BatchSpec) (sc : Scenario) : Bool :=
  staticCapacityOK sc && withinBatchBounds spec sc

/-- All neighbours within capacity and bounds. -/
def allNeighbors (spec : BatchSpec) (cur : Scenario) (m : Option RunMetrics) : List Scenario :=
  ((searchActions spec).flatMap (actionNeighbors spec cur m) ++
    (if spec.freezeWorkload then [] else workloadNeighbors cur) ++
    (if spec.freezePolicies then [] else policyNeighbors cur)).filter (admissible spec)

/-- Under stress those that add capacity first, otherwise those that take it away. -/
def orderNeighborsForExpansion (spec : BatchSpec) (cur : Scenario) (m : Option RunMetrics)
    (neighbors : List Scenario) : List Scenario :=
  insertionSort.sort (fun a b =>
    if neighborStress spec m then decide (capacityDelta cur a > capacityDelta cur b)
    else decide (capacityDelta cur a < capacityDelta cur b)) neighbors

/-- The largest number of neighbours. -/
def maxNeighbors (spec : BatchSpec) : Nat :=
  if spec.maxNeighborsPerState ≤ 0 then 24 else spec.maxNeighborsPerState.toNat

/-- The neighbours of a scenario with its metrics, in the order of expansion. -/
def generateBatchNeighbors (spec : BatchSpec) (cur : Scenario) (m : Option RunMetrics) :
    List Scenario :=
  (orderNeighborsForExpansion spec cur m (allNeighbors spec cur m)).take (maxNeighbors spec)

/-! ### Membership -/

variable {spec : BatchSpec} {cur ns : Scenario} {m : Option RunMetrics} {act : BatchScalingAction}

theorem mem_allNeighbors_of_mem (h : ns ∈ generateBatchNeighbors spec cur m) :
    ns ∈ allNeighbors spec cur m :=
  (insertionSort.perm _ _).mem_iff.1 (mem_of_mem_take h)

theorem admissible_of_mem (h : ns ∈ generateBatchNeighbors spec cur m) :
    staticCapacityOK ns = true ∧ withinBatchBounds spec ns = true := by
  have hm := (mem_filter.1 (mem_allNeighbors_of_mem h)).2
  rwa [admissible, Bool.and_eq_true] at hm

/-- The neighbours come from the actions, from the workload or from the policies. -/
theorem mem_allNeighbors : ns ∈ allNeighbors spec cur m ↔
    ((∃ act ∈ searchActions spec, ns ∈ actionNeighbors spec cur m act) ∨
      (spec.freezeWorkload = false ∧ ns ∈ workloadNeighbors cur) ∨
      (spec.freezePolicies = false ∧ ns ∈ policyNeighbors cur)) ∧ admissible spec ns = true := by
  rw [allNeighbors, mem_filter, mem_append, mem_append, mem_flatMap, or_assoc]
  cases spec.freezeWorkload <;> cases spec.freezePolicies <;> simp

theorem mem_workloadNeighbors (h : ns ∈ workloadNeighbors cur) : ∃ i w r,
    cur.workload[i]? = some w ∧ 0 < r ∧ ns = { cur with workload := cur.workload.set i { w with
      arrival := { w.arrival with rateRPS := r } } } := by
  simp only [workloadNeighbors, mem_flatMap, mem_map, Option.mem_toList] at h
  obtain ⟨i, -, w, hw, _, -, rfl⟩ := h
  exact ⟨i, w, _, hw, lt_max_of_lt_right (by norm_num), rfl⟩

theorem mem_policyNeighbors (h : ns ∈ policyNeighbors cur) :
    ∃ p, ns = { cur with policies := p } := by
  unfold policyNeighbors at h
  split at h
  · cases h
  · split at h
    · cases h
    · exact ⟨_, mem_singleton.1 h⟩

theorem mem_changeServices {indices : List Nat} {change : Service → List Service} :
    ns ∈ changeServices cur indices change ↔ ∃ i ∈ indices, ∃ svc, cur.services[i]? = some svc ∧
      ∃ svc' ∈ change svc, ns = setService cur i svc' := by
  simp [changeServices, mem_flatMap, eq_comm]

theorem mem_changeHosts {change : Host → List Host} :
    ns ∈ changeHosts cur change ↔ ∃ i h, cur.hosts[i]? = some h ∧
      ∃ h' ∈ change h, ns = setHost cur i h' := by
  simp only [changeHosts, mem_flatMap, mem_range, Option.mem_toList, mem_map]
  constructor
  · rintro ⟨i, -, h, hh, h', hh', rfl⟩
    exact ⟨i, h, hh, h', hh', rfl⟩
  · rintro ⟨i, h, hh, h', hh', rfl⟩
    exact ⟨i, (List.getElem?_eq_some_iff.1 hh).1, h, hh, h', hh', rfl⟩

/-- A number of consumers below its limit can be raised by a step in 64 bits. -/
def RaiseFits (spec : BatchSpec) (n hi : Int) : Prop :=
  effectiveConcurrency n < concurrencyLimit spec hi →
    effectiveConcurrency n + spec.replicaStep < 2 ^ 63

theorem effectiveConcurrency_pos (n : Int) : 0 < effectiveConcurrency n := by
  unfold effectiveConcurrency
  split_ifs <;> omega

theorem effectiveConcurrency_of_pos {n : Int} (hn : 0 < n) : effectiveConcurrency n = n :=
  if_neg hn.not_ge

theorem lt_raiseConcurrency {n hi k : Int} (hs : 0 < spec.replicaStep) (hf : RaiseFits spec n hi)
    (h : raiseConcurrency spec n hi = some k) : effectiveConcurrency n < k := by
  have hp := effectiveConcurrency_pos n
  simp only [raiseConcurrency, Option.ite_none_left_eq_some, Option.some.injEq, not_le] at h
  obtain ⟨hlt, rfl⟩ := h
  rw [wrapInt64_of_lt (by omega) (hf hlt)]
  omega

/-- An increase that does not fit leaves a negative number, which a run takes for one consumer. -/
theorem raiseConcurrency_lt {n hi k : Int} (hs : spec.replicaStep < 2 ^ 31)
    (hf : ¬RaiseFits spec n hi) (h : raiseConcurrency spec n hi = some k) :
    effectiveConcurrency k < effectiveConcurrency n := by
  simp only [RaiseFits, Classical.not_imp, not_lt] at hf
  simp only [raiseConcurrency, Option.ite_none_left_eq_some, Option.some.injEq] at h
  obtain ⟨-, rfl⟩ := h
  generalize effectiveConcurrency n = c at hf ⊢
  unfold effectiveConcurrency wrapInt64
  omega

theorem lowerConcurrency_spec {n lo k : Int} (hs : 0 < spec.replicaStep)
    (h : lowerConcurrency spec n lo = some k) : 0 < k ∧ k < effectiveConcurrency n := by
  simp only [lowerConcurrency, Option.ite_none_left_eq_some, Option.some.injEq] at h
  split_ifs at * <;> omega

theorem mem_changeQueue {change : QueueBehavior → Option Int} {svc svc' : Service} :
    svc' ∈ changeQueue change svc ↔ ∃ b q n, svc.behavior = some b ∧ b.queue = some q ∧
      change q = some n ∧ svc' = { svc with
        behavior := some { b with queue := some { q with consumerConcurrency := n } } } := by
  unfold changeQueue
  split
  · simp [*]
  · split
    · simp [*]
    · simp [*, eq_comm]

theorem mem_changeSubscribers {change : TopicSubscriber → Option Int} {svc svc' : Service} :
    svc' ∈ changeSubscribers change svc ↔ ∃ b t j sub n, svc.behavior = some b ∧
      b.topic = some t ∧ t.subscribers[j]? = some sub ∧ change sub = some n ∧
      svc' = { svc with behavior := some { b with topic := some { t with
        subscribers := t.subscribers.set j { sub with consumerConcurrency := n } } } } := by
  unfold changeSubscribers
  split
  · simp [*]
  · rename_i b hb
    split
    · simp [*]
    · rename_i t ht
      simp only [mem_flatMap, mem_range]
      constructor
      · rintro ⟨j, -, hm⟩
        split at hm
        · cases hm
        · rename_i sub hs
          obtain ⟨n, hn, rfl⟩ := mem_map.1 hm
          exact ⟨b, t, j, sub, n, hb, ht, hs, Option.mem_toList.1 hn, rfl⟩
      · rintro ⟨b', t', j, _, n, hb', ht', hs, hn, rfl⟩
        obtain rfl : b' = b := by simpa [hb] using hb'.symm
        obtain rfl : t' = t := by simpa [ht] using ht'.symm
        refine ⟨j, (List.getElem?_eq_some_iff.1 hs).1, ?_⟩
        simp [hs, hn]

/-- An action changes one service, changes one host, or adds or removes a host. -/
theorem mem_actionNeighbors (h : ns ∈ actionNeighbors spec cur m act) :
    (∃ i svc svc', cur.services[i]? = some svc ∧ svc' ∈ serviceChange spec act svc ∧
        ns = setService cur i svc') ∨
      (∃ i h h', cur.hosts[i]? = some h ∧ h' ∈ hostChange spec act h ∧ ns = setHost cur i h') ∨
      (act = .hostScaleOut ∧ ns ∈ hostScaleOut spec cur) ∨
      (act = .hostScaleIn ∧ ns ∈ hostScaleIn spec cur) := by
  have hs : ∀ indices, ns ∈ changeServices cur indices (fun svc =>
      if allowsAction act svc then serviceChange spec act svc else []) →
      ∃ i svc svc', cur.services[i]? = some svc ∧ svc' ∈ serviceChange spec act svc ∧
        ns = setService cur i svc' := by
    intro indices hm
    obtain ⟨i, -, svc, hsvc, svc', hs', rfl⟩ := mem_changeServices.1 hm
    refine ⟨i, svc, svc', hsvc, ?_, rfl⟩
    split_ifs at hs' with ha
    · exact hs'
    · cases hs'
  have hh : ns ∈ changeHosts cur (hostChange spec act) →
      ∃ i h h', cur.hosts[i]? = some h ∧ h' ∈ hostChange spec act h ∧ ns = setHost cur i h' := by
    intro hm
    obtain ⟨i, host, hho, host', hh', hns⟩ := mem_changeHosts.1 hm
    exact ⟨i, host, host', hho, hh', hns⟩
  cases act with
  | unspecified => cases h
  | hostScaleOut => exact .inr (.inr (.inl ⟨rfl, h⟩))
  | hostScaleIn => exact .inr (.inr (.inr ⟨rfl, h⟩))
  | hostScaleUpCPU | hostScaleDownCPU | hostScaleUpMemory | hostScaleDownMemory =>
    exact .inr (.inl (hh h))
  | serviceScaleOut | serviceScaleUpCPU | serviceScaleUpMemory | serviceScaleIn
  | serviceScaleDownCPU | serviceScaleDownMemory | queueScaleUpConcurrency
  | queueScaleDownConcurrency | topicSubscriberScaleUpConcurrency
  | topicSubscriberScaleDownConcurrency => exact .inl (hs _ h)

end SimCore.Improvement
