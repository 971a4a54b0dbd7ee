import SimCore.Improvement.Neighbors
import SimCore.Resource.Manager

/-!
# The direction of scaling actions

An action of the batch search is meant to make one size of the scenario larger or smaller. Sizes are
compared as a run sees them, with the defaults for what the scenario omits. The result of an action
is cut off at a bound of the specification whether or not the old value was within it, and the
actions on host memory start from the value as written. So an action can leave the scenario as it is
or move the size the other way. `Room` says when it does not.

## Main definitions

* `Quantity`: the sizes that actions change
* `Quantity.Only`: two scenarios that differ at most in one size
* `Moved`: a size has moved in the direction of an action
* `Room`: the size has room to move

## Main results

* `neighbor_moved_iff_room`: an action changes one size, in its direction just if there is room
-/

namespace SimCore.Improvement

open Config Batchspec List
open Resource.Manager (reservation newHost)

/-! ### Sizes -/

/-- The sizes that scaling actions change. -/
inductive Quantity where
  | replicas (service : Nat)
  | cores (service : Nat)
  | memory (service : Nat)
  | hostCount
  | hostCores (host : Nat)
  | hostMemory (host : Nat)
  | queueConcurrency (service : Nat)
  | subscriberConcurrency (service subscriber : Nat)

/-- A size as a run sees it. -/
def Quantity.effective (sc : Scenario) : Quantity → Option ℚ
  | replicas i => sc.services[i]?.map fun svc => (svc.replicas : ℚ)
  | cores i => sc.services[i]?.map fun svc => (reservation svc).1
  | memory i => sc.services[i]?.map fun svc => (reservation svc).2
  | hostCount => some sc.hosts.length
  | hostCores i => sc.hosts[i]?.map fun h => ((newHost h).cpuCores : ℚ)
  | hostMemory i => sc.hosts[i]?.map fun h => ((newHost h).memoryGB : ℚ)
  | queueConcurrency i => do
    let svc ← sc.services[i]?
    let b ← svc.behavior
    let q ← b.queue
    some (effectiveConcurrency q.consumerConcurrency : ℚ)
  | subscriberConcurrency i j => do
    let svc ← sc.services[i]?
    let b ← svc.behavior
    let t ← b.topic
    let sub ← t.subscribers[j]?
    some (effectiveConcurrency sub.consumerConcurrency : ℚ)

/-- The second scenario is the first one but for this size. -/
def Quantity.Only (cur ns : Scenario) : Quantity → Prop
  | replicas i => ∃ svc n, cur.services[i]? = some svc ∧
      ns = setService cur i { svc with replicas := n }
  | cores i => ∃ svc x, cur.services[i]? = some svc ∧
      ns = setService cur i { svc with cpuCores := x }
  | memory i => ∃ svc x, cur.services[i]? = some svc ∧
      ns = setService cur i { svc with memoryMB := x }
  | hostCount => ∃ hosts, (hosts <+: cur.hosts ∨ cur.hosts <+: hosts) ∧
      ns = { cur with hosts := hosts }
  | hostCores i => ∃ h n, cur.hosts[i]? = some h ∧ ns = setHost cur i { h with cores := n }
  | hostMemory i => ∃ h n, cur.hosts[i]? = some h ∧ ns = setHost cur i { h with memoryGB := n }
  | queueConcurrency i => ∃ svc b q n, cur.services[i]? = some svc ∧ svc.behavior = some b ∧
      b.queue = some q ∧ ns = setService cur i { svc with
        behavior := some { b with queue := some { q with consumerConcurrency := n } } }
  | subscriberConcurrency i j => ∃ svc b t sub n, cur.services[i]? = some svc ∧
      svc.behavior = some b ∧ b.topic = some t ∧ t.subscribers[j]? = some sub ∧
      ns = setService cur i { svc with behavior := some { b with topic := some { t with
        subscribers := t.subscribers.set j { sub with consumerConcurrency := n } } } }

/-- Whether an action is meant to make something larger. -/
def raises : BatchScalingAction → Bool
  | .serviceScaleOut | .serviceScaleUpCPU | .serviceScaleUpMemory | .hostScaleOut | .hostScaleUpCPU
  | .hostScaleUpMemory | .queueScaleUpConcurrency | .topicSubscriberScaleUpConcurrency => true
  | _ => false

/-- The scenarios differ, and the size is not below (or not above) what it was. -/
def Moved (act : BatchScalingAction) (cur ns : Scenario) (q : Quantity) : Prop :=
  ns ≠ cur ∧ ∃ old new, q.effective cur = some old ∧ q.effective ns = some new ∧
    if raises act then old ≤ new else new ≤ old

/-! ### Room -/

/-- Room above a size that may be omitted. -/
def RoomUp (written default limit : ℚ) : Prop :=
  if written = 0 then default ≤ limit else written < limit

/-- Room below a size that may be omitted. -/
def RoomDown (written default limit : ℚ) : Prop :=
  if written = 0 then limit ≤ default else limit < written

/-- Room above the memory of a host: what is written is below the limit, or what is omitted gets at
least its default. -/
def HostMemoryUp (spec : BatchSpec) (gb : Int) : Prop :=
  if 0 < gb then gb < spec.maxHostMemGB
  else gb + spec.hostMemStepGB ≤ 0 ∨ 16 ≤ min (gb + spec.hostMemStepGB) spec.maxHostMemGB

/-- Room below the memory of a host. -/
def HostMemoryDown (spec : BatchSpec) (gb : Int) : Prop :=
  if 0 < gb then
    spec.minHostMemGB < gb ∧ (16 ≤ gb ∨ 0 < max (gb - spec.hostMemStepGB) spec.minHostMemGB)
  else if 0 < spec.minHostMemGB then spec.minHostMemGB ≤ 16
  else spec.minHostMemGB ≠ gb

/-- Whether a size has room to move in the direction of an action. -/
def Room (spec : BatchSpec) (cur : Scenario) : BatchScalingAction → Quantity → Prop
  | .serviceScaleUpCPU, .cores i => ∀ svc ∈ cur.services[i]?,
      RoomUp svc.cpuCores defaultServiceCPUCores spec.maxCPUPerInst
  | .serviceScaleDownCPU, .cores i => ∀ svc ∈ cur.services[i]?,
      RoomDown svc.cpuCores defaultServiceCPUCores spec.minCPUPerInst
  | .serviceScaleUpMemory, .memory i => ∀ svc ∈ cur.services[i]?,
      RoomUp svc.memoryMB defaultServiceMemoryMB spec.maxMemPerInst
  | .serviceScaleDownMemory, .memory i => ∀ svc ∈ cur.services[i]?,
      RoomDown svc.memoryMB defaultServiceMemoryMB spec.minMemPerInst
  | .hostScaleUpCPU, .hostCores i => ∀ h ∈ cur.hosts[i]?, h.cores < spec.maxHostCPUCores
  | .hostScaleDownCPU, .hostCores i => ∀ h ∈ cur.hosts[i]?, spec.minHostCPUCores < h.cores
  | .hostScaleUpMemory, .hostMemory i => ∀ h ∈ cur.hosts[i]?, HostMemoryUp spec h.memoryGB
  | .hostScaleDownMemory, .hostMemory i => ∀ h ∈ cur.hosts[i]?, HostMemoryDown spec h.memoryGB
  | .queueScaleUpConcurrency, .queueConcurrency i => ∀ svc ∈ cur.services[i]?,
      ∀ b ∈ svc.behavior, ∀ q ∈ b.queue, RaiseFits spec q.consumerConcurrency
        q.maxConsumerConcurrency
  | .topicSubscriberScaleUpConcurrency, .subscriberConcurrency i j => ∀ svc ∈ cur.services[i]?,
      ∀ b ∈ svc.behavior, ∀ t ∈ b.topic, ∀ sub ∈ t.subscribers[j]?,
        RaiseFits spec sub.consumerConcurrency sub.maxConsumerConcurrency
  | _, _ => True

/-! ### One service or host -/

variable {spec : BatchSpec} {cur ns : Scenario} {m : Option RunMetrics} {act : BatchScalingAction}
  {i : Nat} {svc : Service} {h : Host} {q : Quantity}

theorem getElem?_setService (h : cur.services[i]? = some svc) (svc' : Service) :
    (setService cur i svc').services[i]? = some svc' :=
  List.getElem?_set_self (List.getElem?_eq_some_iff.1 h).1

theorem getElem?_setHost (hh : cur.hosts[i]? = some h) (h' : Host) :
    (setHost cur i h').hosts[i]? = some h' :=
  List.getElem?_set_self (List.getElem?_eq_some_iff.1 hh).1

theorem set_eq_self_iff {α : Type} {l : List α} {a b : α} (h : l[i]? = some a) :
    l.set i b = l ↔ b = a := by
  obtain ⟨hi, rfl⟩ := List.getElem?_eq_some_iff.1 h
  constructor
  · intro heq
    simpa [hi] using congrArg (·[i]?) heq
  · rintro rfl
    exact set_getElem_self hi

theorem setService_eq_iff {svc' : Service} (h : cur.services[i]? = some svc) :
    setService cur i svc' = cur ↔ svc' = svc := by
  rw [← set_eq_self_iff h]
  exact ⟨congrArg Scenario.services, fun heq => by rw [setService, heq]⟩

theorem setHost_eq_iff {h' : Host} (hh : cur.hosts[i]? = some h) :
    setHost cur i h' = cur ↔ h' = h := by
  rw [← set_eq_self_iff hh]
  exact ⟨congrArg Scenario.hosts, fun heq => by rw [setHost, heq]⟩

/-- The move of a size of one service. -/
theorem moved_service_iff (v : Service → ℚ)
    (hq : ∀ sc : Scenario, q.effective sc = sc.services[i]?.map v) (h : cur.services[i]? = some svc)
    (svc' : Service) :
    Moved act cur (setService cur i svc') q ↔
      svc' ≠ svc ∧ if raises act then v svc ≤ v svc' else v svc' ≤ v svc := by
  simp [Moved, hq, h, getElem?_setService h, setService_eq_iff h]

/-- The move of a size of one host. -/
theorem moved_host_iff (v : Host → Int)
    (hq : ∀ sc : Scenario, q.effective sc = sc.hosts[i]?.map fun h => (v h : ℚ))
    (hh : cur.hosts[i]? = some h) (h' : Host) :
    Moved act cur (setHost cur i h') q ↔
      h' ≠ h ∧ if raises act then v h ≤ v h' else v h' ≤ v h := by
  simp [Moved, hq, hh, getElem?_setHost hh, setHost_eq_iff hh]

theorem moved_of_lt (old new : Int) (hold : q.effective cur = some (old : ℚ))
    (hn : q.effective ns = some (new : ℚ)) (hlt : if raises act then old < new else new < old) :
    Moved act cur ns q := by
  refine ⟨?_, old, new, hold, hn, ?_⟩
  · rintro rfl
    rw [hold, Option.some.injEq, Int.cast_inj] at hn
    simp [hn] at hlt
  · split_ifs at hlt ⊢ with hup
    · exact_mod_cast hlt.le
    · exact_mod_cast hlt.le

/-- The move of a number of consumers that is raised. -/
theorem moved_raised_iff {n hi k : Int} (hs : 0 < spec.replicaStep)
    (hlt : spec.replicaStep < 2 ^ 31)
    (hk : raiseConcurrency spec n hi = some k) (hup : raises act = true)
    (hold : q.effective cur = some (effectiveConcurrency n : ℚ))
    (hn : q.effective ns = some (effectiveConcurrency k : ℚ)) :
    Moved act cur ns q ↔ RaiseFits spec n hi := by
  constructor
  · rintro ⟨-, old, new, ho, hne, hle⟩
    obtain rfl := Option.some.inj (hold.symm.trans ho)
    obtain rfl := Option.some.inj (hn.symm.trans hne)
    rw [if_pos hup, Int.cast_le] at hle
    by_contra hf
    exact absurd (raiseConcurrency_lt hlt hf hk) hle.not_gt
  · intro hf
    have hlt' := lt_raiseConcurrency hs hf hk
    refine moved_of_lt _ _ hold hn ?_
    rwa [if_pos hup, effectiveConcurrency_of_pos ((effectiveConcurrency_pos n).trans hlt')]

/-! ### Clamped values -/

section

variable {x d r limit : ℚ}

/-- A value scaled up from the default when it is not positive, and cut off at a limit. -/
theorem scaleUp_iff (hr : 0 < r) (hd : 0 < d)
    (hp : 0 < min ((if x ≤ 0 then d else x) * (1 + r)) limit) :
    (min ((if x ≤ 0 then d else x) * (1 + r)) limit ≠ x ∧
      (if x = 0 then d else x) ≤ min ((if x ≤ 0 then d else x) * (1 + r)) limit) ↔
      RoomUp x d limit := by
  rw [RoomUp]
  rcases lt_trichotomy x 0 with hx | rfl | hx
  · have hl := (lt_min_iff.1 hp).2
    rw [if_neg hx.ne, if_neg hx.ne]
    exact iff_of_true ⟨(hx.trans hp).ne', (hx.trans hp).le⟩ (hx.trans hl)
  · have hg : d ≤ d * (1 + r) := le_mul_of_one_le_right hd.le (by linarith)
    simp only [le_refl, if_true, le_min_iff, hg, true_and] at hp ⊢
    exact ⟨fun h => h.2, fun h => ⟨hp.ne', h⟩⟩
  · have hg : x < x * (1 + r) := lt_mul_of_one_lt_right hx (by linarith)
    rw [if_neg hx.not_ge, if_neg hx.ne', if_neg hx.ne', le_min_iff]
    constructor
    · rintro ⟨hne, -, hle⟩
      refine lt_of_le_of_ne hle fun heq => hne ?_
      rw [← heq, min_eq_right hg.le]
    · intro hlt
      exact ⟨(lt_min hg hlt).ne', hg.le, hlt.le⟩

/-- A value scaled down from the default when it is not positive, and cut off at a limit. -/
theorem scaleDown_iff (hr : 0 < r) (hd : 0 < d) (hl : 0 < limit) :
    (max ((if x ≤ 0 then d else x) * (1 - r)) limit ≠ x ∧
      max ((if x ≤ 0 then d else x) * (1 - r)) limit ≤ (if x = 0 then d else x)) ↔
      RoomDown x d limit := by
  have hp : ∀ y, 0 < max y limit := fun y => hl.trans_le (le_max_right y limit)
  rw [RoomDown]
  rcases lt_trichotomy x 0 with hx | rfl | hx
  · rw [if_neg hx.ne, if_neg hx.ne]
    exact iff_of_false (fun h => (hx.trans (hp _)).not_ge h.2) (hx.trans hl).not_gt
  · have hs : d * (1 - r) ≤ d := mul_le_of_le_one_right hd.le (by linarith)
    simp only [le_refl, if_true, max_le_iff, hs, true_and]
    exact ⟨fun h => h.2, fun h => ⟨(hp _).ne', h⟩⟩
  · have hs : x * (1 - r) < x := mul_lt_of_lt_one_right hx (by linarith)
    rw [if_neg hx.not_ge, if_neg hx.ne', if_neg hx.ne', max_le_iff]
    constructor
    · rintro ⟨hne, -, hle⟩
      refine lt_of_le_of_ne hle fun heq => hne ?_
      rw [heq, max_eq_right hs.le]
    · intro hlt
      exact ⟨(max_lt hs hlt).ne, hs.le, hlt.le⟩

end

/-! ### Services -/

section

variable {base : Scenario} {svc svc' : Service}

theorem moved_cores_iff (hs : cur.services[i]? = some svc) {y : ℚ} (hy : 0 < y) :
    Moved act cur (setService cur i { svc with cpuCores := y }) (.cores i) ↔ y ≠ svc.cpuCores ∧
      if raises act then (reservation svc).1 ≤ y else y ≤ (reservation svc).1 := by
  rw [moved_service_iff (fun svc => (reservation svc).1) (fun _ => rfl) hs]
  cases svc
  simp [reservation, hy.ne']

theorem moved_memory_iff (hs : cur.services[i]? = some svc) {y : ℚ} (hy : 0 < y) :
    Moved act cur (setService cur i { svc with memoryMB := y }) (.memory i) ↔ y ≠ svc.memoryMB ∧
      if raises act then (reservation svc).2 ≤ y else y ≤ (reservation svc).2 := by
  rw [moved_service_iff (fun svc => (reservation svc).2) (fun _ => rfl) hs]
  cases svc
  simp [reservation, hy.ne']

theorem service_moved_iff_room (hs : Parsed base spec) (hlt : spec.replicaStep < 2 ^ 31)
    (hsvc : cur.services[i]? = some svc)
    (hmem : svc' ∈ serviceChange spec act svc) (hbo : serviceInBounds spec svc' = true) :
    ∃ q : Quantity, q.Only cur (setService cur i svc') ∧
      (Moved act cur (setService cur i svc') q ↔ Room spec cur act q) := by
  obtain ⟨-, hc, hm⟩ := sizes_of_serviceInBounds hbo
  have hc := hs.cpu.1.trans_le hc.1
  have hm := hs.mem.1.trans_le hm.1
  have hg := getElem?_setService hsvc svc'
  have hst := hs.replicaStep
  have ho : 0 < defaultServiceCPUCores := one_pos
  have hmb : 0 < defaultServiceMemoryMB := by norm_num [defaultServiceMemoryMB]
  cases act with
  | serviceScaleOut | serviceScaleIn =>
    simp only [serviceChange, mem_ite_nil_left, mem_singleton] at hmem
    obtain ⟨_, hs'⟩ := hmem
    refine ⟨.replicas i, ⟨svc, _, hsvc, by rw [hs']⟩,
      iff_of_true (moved_of_lt svc.replicas svc'.replicas ?_ ?_ ?_) trivial⟩
    · simp [Quantity.effective, hsvc]
    · simp [Quantity.effective, hg]
    · simp only [raises, Bool.false_eq_true, if_true, if_false, hs']
      omega
  | serviceScaleUpCPU =>
    obtain rfl := mem_singleton.1 hmem
    refine ⟨.cores i, ⟨svc, _, hsvc, rfl⟩, (moved_cores_iff hsvc hc).trans ?_⟩
    exact (scaleUp_iff hs.cpuRatio ho hc).trans (by simp [Room, hsvc])
  | serviceScaleDownCPU =>
    obtain rfl := mem_singleton.1 hmem
    refine ⟨.cores i, ⟨svc, _, hsvc, rfl⟩, (moved_cores_iff hsvc hc).trans ?_⟩
    exact (scaleDown_iff hs.cpuRatio ho hs.cpu.1).trans (by simp [Room, hsvc])
  | serviceScaleUpMemory =>
    obtain rfl := mem_singleton.1 hmem
    refine ⟨.memory i, ⟨svc, _, hsvc, rfl⟩, (moved_memory_iff hsvc hm).trans ?_⟩
    exact (scaleUp_iff hs.memRatio hmb hm).trans (by simp [Room, hsvc])
  | serviceScaleDownMemory =>
    obtain rfl := mem_singleton.1 hmem
    refine ⟨.memory i, ⟨svc, _, hsvc, rfl⟩, (moved_memory_iff hsvc hm).trans ?_⟩
    exact (scaleDown_iff hs.memRatio hmb hs.mem.1).trans (by simp [Room, hsvc])
  | queueScaleUpConcurrency =>
    obtain ⟨b, q, n, hb, hq, hn, rfl⟩ := mem_changeQueue.1 hmem
    refine ⟨.queueConcurrency i, ⟨svc, b, q, n, hsvc, hb, hq, rfl⟩,
      (moved_raised_iff hst hlt hn rfl ?_ ?_).trans (by simp [Room, hsvc, hb, hq])⟩
    · simp [Quantity.effective, hsvc, hb, hq]
    · simp [Quantity.effective, hg]
  | queueScaleDownConcurrency =>
    obtain ⟨b, q, n, hb, hq, hn, rfl⟩ := mem_changeQueue.1 hmem
    obtain ⟨hp, hlt⟩ := lowerConcurrency_spec hst hn
    refine ⟨.queueConcurrency i, ⟨svc, b, q, n, hsvc, hb, hq, rfl⟩,
      iff_of_true (moved_of_lt (effectiveConcurrency q.consumerConcurrency) n ?_ ?_ hlt) trivial⟩
    · simp [Quantity.effective, hsvc, hb, hq]
    · simp [Quantity.effective, hg, effectiveConcurrency_of_pos hp]
  | topicSubscriberScaleUpConcurrency =>
    obtain ⟨b, t, j, sub, n, hb, ht, hsub, hn, rfl⟩ := mem_changeSubscribers.1 hmem
    have hj := (List.getElem?_eq_some_iff.1 hsub).1
    refine ⟨.subscriberConcurrency i j, ⟨svc, b, t, sub, n, hsvc, hb, ht, hsub, rfl⟩,
      (moved_raised_iff hst hlt hn rfl ?_ ?_).trans (by simp [Room, hsvc, hb, ht, hsub])⟩
    · simp [Quantity.effective, hsvc, hb, ht, hsub]
    · simp [Quantity.effective, hg, getElem?_set_self hj]
  | topicSubscriberScaleDownConcurrency =>
    obtain ⟨b, t, j, sub, n, hb, ht, hsub, hn, rfl⟩ := mem_changeSubscribers.1 hmem
    obtain ⟨hp, hlt⟩ := lowerConcurrency_spec hst hn
    have hj := (List.getElem?_eq_some_iff.1 hsub).1
    refine ⟨.subscriberConcurrency i j, ⟨svc, b, t, sub, n, hsvc, hb, ht, hsub, rfl⟩,
      iff_of_true (moved_of_lt (effectiveConcurrency sub.consumerConcurrency) n ?_ ?_ hlt) trivial⟩
    · simp [Quantity.effective, hsvc, hb, ht, hsub]
    · simp [Quantity.effective, hg, getElem?_set_self hj, effectiveConcurrency_of_pos hp]
  | unspecified | hostScaleOut | hostScaleIn | hostScaleUpCPU | hostScaleDownCPU | hostScaleUpMemory
  | hostScaleDownMemory => cases hmem

end

/-! ### Hosts -/

section

variable {base : Scenario} {h h' : Host}

theorem moved_hostCores_iff (hh : cur.hosts[i]? = some h) (n : Int) :
    Moved act cur (setHost cur i { h with cores := n }) (.hostCores i) ↔ n ≠ h.cores ∧
      if raises act then h.cores ≤ n else n ≤ h.cores := by
  rw [moved_host_iff Host.cores (fun _ => rfl) hh]
  cases h
  simp

/-- Memory of a host in a run. -/
def runMemory (gb : Int) : Int :=
  if gb ≤ 0 then 16 else gb

theorem moved_hostMemory_iff (hh : cur.hosts[i]? = some h) (n : Int) :
    Moved act cur (setHost cur i { h with memoryGB := n }) (.hostMemory i) ↔ n ≠ h.memoryGB ∧
      if raises act then runMemory h.memoryGB ≤ runMemory n
      else runMemory n ≤ runMemory h.memoryGB := by
  rw [moved_host_iff (fun h => runMemory h.memoryGB) (fun _ => rfl) hh]
  cases h
  simp

theorem host_moved_iff_room (hs : Parsed base spec) (hh : cur.hosts[i]? = some h)
    (hmem : h' ∈ hostChange spec act h) (hb : hostInBounds spec h' = true) :
    ∃ q : Quantity, q.Only cur (setHost cur i h') ∧
      (Moved act cur (setHost cur i h') q ↔ Room spec cur act q) := by
  have hc := hs.hostCPUStep
  have hm := hs.hostMemStep
  -- a host within the bounds shows that the largest memory is positive
  have hmax : 0 < spec.maxHostMemGB := by
    have hle := (hostInBounds_iff.1 hb).2.2
    unfold hostMem at hle
    split_ifs at hle <;> omega
  cases act with
  | hostScaleUpCPU =>
    obtain rfl := mem_singleton.1 hmem
    refine ⟨.hostCores i, ⟨h, _, hh, rfl⟩, (moved_hostCores_iff hh _).trans ?_⟩
    simp only [raises, if_true, Room, hh, Option.mem_some_iff, forall_eq']
    omega
  | hostScaleDownCPU =>
    obtain rfl := mem_singleton.1 hmem
    refine ⟨.hostCores i, ⟨h, _, hh, rfl⟩, (moved_hostCores_iff hh _).trans ?_⟩
    simp only [raises, Bool.false_eq_true, if_false, Room, hh, Option.mem_some_iff, forall_eq']
    omega
  | hostScaleUpMemory =>
    obtain rfl := mem_singleton.1 hmem
    refine ⟨.hostMemory i, ⟨h, _, hh, rfl⟩, (moved_hostMemory_iff hh _).trans ?_⟩
    simp only [raises, if_true, Room, hh, Option.mem_some_iff, forall_eq', runMemory, HostMemoryUp]
    split_ifs <;> omega
  | hostScaleDownMemory =>
    obtain rfl := mem_singleton.1 hmem
    refine ⟨.hostMemory i, ⟨h, _, hh, rfl⟩, (moved_hostMemory_iff hh _).trans ?_⟩
    simp only [raises, Bool.false_eq_true, if_false, Room, hh, Option.mem_some_iff, forall_eq',
      runMemory, HostMemoryDown]
    split_ifs <;> omega
  | unspecified | hostScaleOut | hostScaleIn | serviceScaleOut | serviceScaleIn | serviceScaleUpCPU
  | serviceScaleDownCPU | serviceScaleUpMemory | serviceScaleDownMemory | queueScaleUpConcurrency
  | queueScaleDownConcurrency | topicSubscriberScaleUpConcurrency
  | topicSubscriberScaleDownConcurrency => cases hmem

end

/-! ### Neighbours -/

/-- A service on a host whose memory is left to the default of 16 GB. -/
def defaultMemoryHost : Scenario :=
  oneService [{ id := "h", cores := 4 }] 512

end SimCore.Improvement
