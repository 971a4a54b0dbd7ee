import SimCore.Config.Declared
import SimCore.Improvement.Neighbors

/-!
# Neighbours can be run

Every scenario that the batch search derives from a baseline should be one that the loader accepts.
The bounds of a parsed specification see to replicas, cores and concurrency, and everything that
the loader looks at besides is taken over from the baseline. Two things can go wrong. A new host is
named by its position, and the baseline may have used the name already. And the step by which a
concurrency is raised can lead out of 64 bits before the result is compared with the maximum.

## Main definitions

* `Resized`: one service, but for the sizes that actions change
* `Explored`: the scenarios that the search can reach
* `RaisesFit`: no raised concurrency overflows
* `FreshNames`: the baseline leaves the names of new hosts alone

## Main results

* `explored_valid`, `refinement_valid`: with fresh names and without overflow, the loader accepts
  all neighbours, those of the refinement pass included
-/

namespace SimCore.Improvement

open Config Batchspec List

variable {spec : BatchSpec} {base cur ns : Scenario} {m : Option RunMetrics}
  {act : BatchScalingAction} {svc svc' : Service}

/-! ### Elements that correspond -/

section

variable {α β : Type} {R : α → α → Prop} {l l' : List α}

theorem forall₂_set (hr : ∀ a, R a a) {i : Nat} {a b : α} (hi : l[i]? = some a) (hab : R a b) :
    List.Forall₂ R l (l.set i b) := by
  induction l generalizing i with
  | nil => cases hi
  | cons c _ ih =>
    cases i with
    | zero =>
      obtain rfl := Option.some.inj hi
      exact .cons hab (forall₂_same.2 fun a _ => hr a)
    | succ => exact .cons (hr c) (ih hi)

theorem exists_of_forall₂ (h : List.Forall₂ R l l') {b : α} (hb : b ∈ l') : ∃ a ∈ l, R a b := by
  induction h with
  | nil => cases hb
  | cons hh _ ih =>
    rcases mem_cons.1 hb with rfl | hb
    · exact ⟨_, mem_cons_self, hh⟩
    · obtain ⟨a, ha, hab⟩ := ih hb
      exact ⟨a, mem_cons_of_mem _ ha, hab⟩

theorem map_eq_of_forall₂ {f : α → β} (hf : ∀ a b, R a b → f b = f a)
    (h : List.Forall₂ R l l') : l'.map f = l.map f := by
  induction h with
  | nil => rfl
  | cons hh _ ih => rw [map_cons, map_cons, hf _ _ hh, ih]

end

/-! ### Services -/

/-- A service with other sizes. A concurrency that is set is positive. -/
inductive Resized (svc : Service) : Service → Prop
  | sizes (r : Int) (c m : ℚ) : Resized svc { svc with replicas := r, cpuCores := c, memoryMB := m }
  | queue {b : ServiceBehavior} {q : QueueBehavior} {n : Int} (hb : svc.behavior = some b)
      (hq : b.queue = some q) (hn : 0 < n) : Resized svc { svc with
        behavior := some { b with queue := some { q with consumerConcurrency := n } } }
  | subscriber {b : ServiceBehavior} {t : TopicBehavior} {j : Nat} {sub : TopicSubscriber} {n : Int}
      (hb : svc.behavior = some b) (ht : b.topic = some t) (hsub : t.subscribers[j]? = some sub)
      (hn : 0 < n) : Resized svc { svc with behavior := some { b with topic := some { t with
        subscribers := t.subscribers.set j { sub with consumerConcurrency := n } } } }

theorem Resized.refl (svc : Service) : Resized svc svc :=
  .sizes svc.replicas svc.cpuCores svc.memoryMB

/-- What an action raises in a service fits into 64 bits. -/
def FitsIn (spec : BatchSpec) (act : BatchScalingAction) (svc : Service) : Prop :=
  ∀ b ∈ svc.behavior,
    (act = .queueScaleUpConcurrency → ∀ q ∈ b.queue,
      RaiseFits spec q.consumerConcurrency q.maxConsumerConcurrency) ∧
    (act = .topicSubscriberScaleUpConcurrency → ∀ t ∈ b.topic, ∀ sub ∈ t.subscribers,
      RaiseFits spec sub.consumerConcurrency sub.maxConsumerConcurrency)

theorem pos_of_raiseConcurrency {n hi k : Int} (hs : 0 < spec.replicaStep)
    (hf : RaiseFits spec n hi) (h : raiseConcurrency spec n hi = some k) : 0 < k :=
  (effectiveConcurrency_pos n).trans (lt_raiseConcurrency hs hf h)

theorem resized_of_mem (hs : 0 < spec.replicaStep) (hf : FitsIn spec act svc)
    (h : svc' ∈ serviceChange spec act svc) : Resized svc svc' := by
  cases act with
  | serviceScaleOut | serviceScaleIn =>
    simp only [serviceChange, mem_ite_nil_left, mem_singleton] at h
    obtain ⟨-, rfl⟩ := h
    exact .sizes _ svc.cpuCores svc.memoryMB
  | serviceScaleUpCPU | serviceScaleDownCPU =>
    obtain rfl := mem_singleton.1 h
    exact .sizes svc.replicas _ svc.memoryMB
  | serviceScaleUpMemory | serviceScaleDownMemory =>
    obtain rfl := mem_singleton.1 h
    exact .sizes svc.replicas svc.cpuCores _
  | queueScaleUpConcurrency =>
    obtain ⟨b, q, n, hb, hq, hn, rfl⟩ := mem_changeQueue.1 h
    exact .queue hb hq (pos_of_raiseConcurrency hs ((hf b hb).1 rfl q hq) hn)
  | queueScaleDownConcurrency =>
    obtain ⟨b, q, n, hb, hq, hn, rfl⟩ := mem_changeQueue.1 h
    exact .queue hb hq (lowerConcurrency_spec hs hn).1
  | topicSubscriberScaleUpConcurrency =>
    obtain ⟨b, t, j, sub, n, hb, ht, hsub, hn, rfl⟩ := mem_changeSubscribers.1 h
    have hfit := (hf b hb).2 rfl t ht sub (mem_of_getElem? hsub)
    exact .subscriber hb ht hsub (pos_of_raiseConcurrency hs hfit hn)
  | topicSubscriberScaleDownConcurrency =>
    obtain ⟨b, t, j, _, n, hb, ht, hsub, hn, rfl⟩ := mem_changeSubscribers.1 h
    exact .subscriber hb ht hsub (lowerConcurrency_spec hs hn).1
  | unspecified | hostScaleOut | hostScaleIn | hostScaleUpCPU | hostScaleDownCPU | hostScaleUpMemory
  | hostScaleDownMemory => cases h

namespace Resized

variable {ids refs : List String} {id : String} {n : Int} {sub : TopicSubscriber}

/-- What the loader and the other services see of a service. -/
theorem same (h : Resized svc svc') : svc'.id = svc.id ∧ svc'.kind = svc.kind ∧
    svc'.model = svc.model ∧ svc'.endpoints = svc.endpoints := by
  cases h <;> exact ⟨rfl, rfl, rfl, rfl⟩

theorem checks (h : Resized svc svc') (hs : ServiceChecks svc) (hr : 0 < svc'.replicas) :
    ServiceChecks svc' := by
  cases h with
  | sizes => exact { hs with replicas := hr }
  | queue hb hq hn | subscriber hb ht hsub hn =>
    exact { hs with
      replicas := hr
      behavior := fun b' hb' => by
        obtain rfl := Option.some.inj hb'
        have hok := hs.behavior _ hb
        exact hok }

theorem queue_ok {q : QueueBehavior} (hn : 0 < n)
    (hr : concurrencyInRange n q.minConsumerConcurrency q.maxConsumerConcurrency = true)
    (h : validateQueueBehavior id (some q) refs ids = .ok ()) :
    validateQueueBehavior id (some { q with consumerConcurrency := n }) refs ids = .ok () := by
  obtain ⟨hlo, hhi⟩ := concurrencyInRange_iff.1 hr
  have hd : ∀ d, orDefault (decide (n > 0)) n d = n := fun d => by simp [orDefault, hn]
  simp only [validateQueueBehavior, check_bind_eq_ok, check_eq_ok, effectiveQueueBehavior] at h ⊢
  obtain ⟨hc, -, hmin, hmax, hl, ha, hred, ht, hp, -, hm', hmax', hm'', hmax'', hm, -, -, hre⟩ := h
  refine ⟨hc, decide_eq_true hn.le, hmin, hmax, hl, ha, hred, ht, hp, ?_, hm',
    hmax', hm'', hmax'', hm, ?_, ?_, hre⟩
  · simpa [hd] using hn.le
  · by_cases hs : 0 < q.minConsumerConcurrency
    · simpa [hd, orDefault, hs, hn] using hlo hs hn
    · simp [orDefault, hs, defaultQueueBehavior]
  · by_cases hs : 0 < q.maxConsumerConcurrency
    · simpa [hd, orDefault, hs, hn] using hhi hs hn
    · simp [orDefault, hs, defaultQueueBehavior]

theorem subscriber_ok {k : Nat} (hn : 0 < n)
    (hr : concurrencyInRange n sub.minConsumerConcurrency sub.maxConsumerConcurrency = true)
    {groups names : List String} {seen : List String × List String}
    (h : validateTopicSubscriber id k sub groups names refs ids = .ok seen) :
    validateTopicSubscriber id k { sub with consumerConcurrency := n } groups names refs ids =
      .ok seen := by
  obtain ⟨_, _⟩ := concurrencyInRange_iff.1 hr
  simp only [validateTopicSubscriber, check_bind_eq_ok, check_eq_ok] at h ⊢
  obtain ⟨ht, hp, hgr, hg, hna, -, hmin, hmax, ha, hred, hm', hmax', hm, -, -, hre⟩ := h
  refine ⟨ht, hp, hgr, hg, hna, decide_eq_true hn.le, hmin, hmax, ha, hred,
    hm', hmax', hm, ?_, ?_, hre⟩
  · have hlo' : sub.minConsumerConcurrency ≤ 0 ∨ sub.minConsumerConcurrency ≤ n := by omega
    simpa [hn] using hlo'
  · have hhi' : sub.maxConsumerConcurrency ≤ 0 ∨ n ≤ sub.maxConsumerConcurrency := by omega
    simpa [hn] using hhi'

theorem subscribers_ok {k j : Nat} {subs : List TopicSubscriber} (hn : 0 < n)
    (hs : subs[j]? = some sub)
    (hra : concurrencyInRange n sub.minConsumerConcurrency sub.maxConsumerConcurrency = true)
    {groups names : List String}
    (h : validateTopicSubscribers id refs ids k subs groups names = .ok ()) :
    validateTopicSubscribers id refs ids k (subs.set j { sub with consumerConcurrency := n }) groups
      names = .ok () := by
  induction subs generalizing k j groups names with
  | nil => cases hs
  | cons _ _ ih =>
    rw [validateTopicSubscribers, bind_eq_ok] at h
    obtain ⟨seen, hh, hr⟩ := h
    cases j with
    | zero =>
      obtain rfl := Option.some.inj hs
      rw [set_cons_zero, validateTopicSubscribers, bind_eq_ok]
      exact ⟨seen, subscriber_ok hn hra hh, hr⟩
    | succ =>
      rw [set_cons_succ, validateTopicSubscribers, bind_eq_ok]
      exact ⟨seen, hh, ih hs hr⟩

theorem topic_ok {t : TopicBehavior} {j : Nat} (hn : 0 < n) (hsub : t.subscribers[j]? = some sub)
    (hr : concurrencyInRange n sub.minConsumerConcurrency sub.maxConsumerConcurrency = true)
    (h : validateTopicBehavior id (some t) refs ids = .ok ()) :
    validateTopicBehavior id (some { t with
      subscribers := t.subscribers.set j { sub with consumerConcurrency := n } }) refs ids =
      .ok () := by
  have hs : t.subscribers ≠ [] := by
    rintro heq
    simp [heq] at hsub
  have hg : ∀ l d : List TopicSubscriber, l ≠ [] → orDefault (!l.isEmpty) l d = l := by
    intro l d hl
    simp [orDefault, hl]
  have hset : t.subscribers.set j { sub with consumerConcurrency := n } ≠ [] := by
    simpa using hs
  simp only [validateTopicBehavior, check_bind_eq_ok, check_eq_ok, effectiveTopicBehavior,
    hg _ _ hs, hg _ _ hset] at h ⊢
  obtain ⟨hp, hret, hc, hlat, -, hp', hsu⟩ := h
  exact ⟨hp, hret, hc, hlat, by simpa using hs, hp', subscribers_ok hn hsub hr hsu⟩

theorem queues (h : Resized svc svc') (hbo : serviceInBounds spec svc' = true)
    (hok : validateQueueBehavior svc.id (svc.behavior.bind ServiceBehavior.queue) refs ids =
      .ok ()) :
    validateQueueBehavior svc'.id (svc'.behavior.bind ServiceBehavior.queue) refs ids = .ok () := by
  obtain ⟨hr, -⟩ := concurrency_of_serviceInBounds hbo
  cases h with
  | sizes => exact hok
  | queue hb hq hn =>
    rw [hb, Option.bind_some, hq] at hok
    exact queue_ok hn (hr _ rfl) hok
  | subscriber hb =>
    rw [hb, Option.bind_some] at hok
    exact hok

theorem topics (h : Resized svc svc') (hbo : serviceInBounds spec svc' = true)
    (hok : validateTopicBehavior svc.id (svc.behavior.bind ServiceBehavior.topic) refs ids =
      .ok ()) :
    validateTopicBehavior svc'.id (svc'.behavior.bind ServiceBehavior.topic) refs ids = .ok () := by
  obtain ⟨-, hr⟩ := concurrency_of_serviceInBounds hbo
  cases h with
  | sizes => exact hok
  | queue hb =>
    rw [hb, Option.bind_some] at hok
    exact hok
  | @subscriber _ t j sub n hb ht hs hn =>
    rw [hb, Option.bind_some, ht] at hok
    have hm : { sub with consumerConcurrency := n } ∈
        t.subscribers.set j { sub with consumerConcurrency := n } :=
      List.mem_set (List.getElem?_eq_some_iff.1 hs).1 _
    exact topic_ok hn hs (hr _ rfl _ hm) hok

end Resized

/-! ### Scenarios -/

/-- A scenario with other sizes and rates, and other hosts. -/
structure Reshaped (cur ns : Scenario) : Prop where
  limits : ns.simulationLimits = cur.simulationLimits
  services : List.Forall₂ Resized cur.services ns.services
  workload : List.Forall₂ (fun w w' => w' = w ∨ ∃ r > 0, w' = { w with
    arrival := { w.arrival with rateRPS := r } }) cur.workload ns.workload
  hosts : ∀ h ∈ ns.hosts, h.id ≠ "" ∧ 0 ≤ h.memoryGB

namespace Reshaped

section

variable (h : Reshaped cur ns)
include h

theorem ids : ns.services.map Service.id = cur.services.map Service.id :=
  map_eq_of_forall₂ (fun _ _ hs => hs.same.1) h.services

theorem endpointEntries : ns.endpointEntries = cur.endpointEntries := by
  rw [Scenario.endpointEntries, Scenario.endpointEntries, flatMap_def, flatMap_def]
  congr 1
  refine map_eq_of_forall₂ (fun svc svc' hs => ?_) h.services
  rw [hs.same.1, hs.same.2.2.2]

theorem kindNorm (id : String) :
    (ns.service? id).map Service.kindNorm = (cur.service? id).map Service.kindNorm := by
  rw [Scenario.service?, Scenario.service?, lookupLast, lookupLast, ← lookup_map_value,
    ← lookup_map_value, map_reverse, map_reverse, map_map, map_map]
  congr 2
  refine map_eq_of_forall₂ (fun svc svc' hs => ?_) h.services
  show (svc'.id, svc'.kindNorm) = (svc.id, svc.kindNorm)
  rw [Service.kindNorm, Service.kindNorm, hs.same.1, hs.same.2.1]

theorem validateDownstream_eq (ids refs : List String) (id path : String) (ds : DownstreamCall) :
    validateDownstream ns ids refs id path ds = validateDownstream cur ids refs id path ds := by
  unfold validateDownstream
  simp only [h.kindNorm]

end

theorem row {ids refs : List String} {i : Nat} {w : WorkloadPattern} {r : ℚ} (hr : 0 < r)
    (h : validateWorkload ids refs i w = .ok ()) :
    validateWorkload ids refs i { w with arrival := { w.arrival with rateRPS := r } } = .ok () := by
  simp only [validateWorkload, check_bind_eq_ok, check_eq_ok] at h ⊢
  obtain ⟨hs, ht, hty, hre⟩ := h
  refine ⟨hs, ht, hty, ?_⟩
  cases hnorm : normalizeArrivalType w.arrival.type with
  | error => simp [hnorm, check_bind_eq_ok] at hre
  | ok =>
    simp only [hnorm, check_bind_eq_ok, check_eq_ok] at hre ⊢
    exact ⟨trivial, decide_eq_true hr, hre.2.2⟩

theorem rows (h : Reshaped cur ns) {ids refs : List String}
    (hro : ∀ i wl, cur.workload[i]? = some wl → validateWorkload ids refs i wl = .ok ()) (i : Nat)
    (wl : WorkloadPattern) (hi : ns.workload[i]? = some wl) :
    validateWorkload ids refs i wl = .ok () := by
  obtain ⟨hlt, rfl⟩ := List.getElem?_eq_some_iff.1 hi
  have hlt' : i < cur.workload.length := h.workload.length_eq ▸ hlt
  have hok := hro i _ (getElem?_eq_getElem hlt')
  rcases h.workload.get hlt' hlt with heq | ⟨r, hr, heq⟩
  · simp only [get_eq_getElem] at heq
    rwa [heq]
  · simp only [get_eq_getElem] at heq
    rw [heq]
    exact row hr hok

theorem checked (h : Reshaped cur ns) (hcur : Checked cur) (hsp : Parsed base spec)
    (hba : base.hosts ≠ []) (hb : withinBatchBounds spec ns = true)
    (hn : (ns.hosts.map (·.id)).Nodup) : Checked ns := by
  obtain ⟨hl, hs, hh⟩ := withinBatchBounds_iff.1 hb
  have hp := hsp.hosts.1
  have hc : ∀ svc ∈ ns.services, ServiceChecks svc := by
    intro svc' hs'
    obtain ⟨svc, hsvc, hr⟩ := exists_of_forall₂ h.services hs'
    obtain ⟨⟨hre, -⟩, -⟩ := sizes_of_serviceInBounds (hs svc' hs')
    exact hr.checks (hcur.serviceChecks svc hsvc) (hsp.replicas.1.trans_le hre)
  have hro := h.rows hcur.rows
  refine
    { hosts := hn
      someHost := fun hnil => by
        rw [hnil] at hl
        exact absurd hl.1 (by simpa using hp)
      cores := fun host hho =>
        (hsp.hostCPU hba).trans_le (hostInBounds_iff.1 (hh host hho)).1.1
      services := by simpa only [h.ids] using hcur.services
      replicas := fun svc hsvc => (hc svc hsvc).replicas
      queues := fun svc' hs' hk => ?_
      topics := fun svc' hs' hk => ?_
      downstream := fun svc' hs' ep hep ds hds => ?_
      workload := fun wl hwl => ?_
      limits := h.limits ▸ hcur.limits
      hostChecks := h.hosts
      someService := fun hnil => hcur.someService (by simpa [hnil] using h.services)
      serviceChecks := hc
      someWorkload := fun hnil => hcur.someWorkload (by simpa [hnil] using h.workload)
      rows := by rwa [h.ids, h.endpointEntries] }
  · obtain ⟨svc, hsvc, hr⟩ := exists_of_forall₂ h.services hs'
    rw [Service.kindNorm, hr.same.2.1] at hk
    rw [h.ids, h.endpointEntries]
    exact hr.queues (hs svc' hs') (hcur.queues svc hsvc hk)
  · obtain ⟨svc, hsvc, hr⟩ := exists_of_forall₂ h.services hs'
    rw [Service.kindNorm, hr.same.2.1] at hk
    rw [h.ids, h.endpointEntries]
    exact hr.topics (hs svc' hs') (hcur.topics svc hsvc hk)
  · obtain ⟨svc, hsvc, hr⟩ := exists_of_forall₂ h.services hs'
    rw [hr.same.2.2.2] at hep
    rw [h.validateDownstream_eq, h.ids, h.endpointEntries, hr.same.1]
    exact hcur.downstream svc hsvc ep hep ds hds
  · obtain ⟨i, hi⟩ := mem_iff_getElem?.1 hwl
    rw [h.ids, h.endpointEntries]
    exact ⟨i, hro i wl hi⟩

end Reshaped

section

variable {host host' : Host}

theorem id_of_mem_hostChange (h : host' ∈ hostChange spec act host) : host'.id = host.id := by
  unfold hostChange at h
  split at h
  case h_5 => cases h
  all_goals
    obtain rfl := mem_singleton.1 h
    rfl

theorem memory_of_mem_hostChange (hs : Parsed base spec) (hb : base.hosts ≠ [])
    (h : host' ∈ hostChange spec act host) (hm : 0 ≤ host.memoryGB) : 0 ≤ host'.memoryGB := by
  have hmin := hs.hostMem hb
  have hle := hs.hostMem_le
  have hst := hs.hostMemStep
  unfold hostChange at h
  split at h
  case h_5 => cases h
  all_goals obtain rfl := mem_singleton.1 h
  · exact hm
  · exact hm
  · show 0 ≤ min (host.memoryGB + spec.hostMemStepGB) spec.maxHostMemGB
    omega
  · show 0 ≤ max (host.memoryGB - spec.hostMemStepGB) spec.minHostMemGB
    omega

end

/-- The name of a new host by its position. -/
def hostName (k : Nat) : String :=
  "host-" ++ itoa k

theorem hostName_injective : Function.Injective hostName := fun i j h =>
  itoa_injective (by simpa [hostName] using h)

/-- The new host is a copy of the first one with a new name. -/
theorem mem_hostScaleOut (h : ns ∈ hostScaleOut spec cur) : ∃ h0 ∈ cur.hosts,
    ns = { cur with hosts := cur.hosts ++ [{ id := hostName (cur.hosts.length + 1)
                                             cores := h0.cores, memoryGB := h0.memoryGB }] } := by
  unfold hostScaleOut at h
  split at h
  · cases h
  · rename_i h0 _ hh
    simp only [mem_ite_nil_left, mem_singleton] at h
    obtain ⟨-, rfl⟩ := h
    exact ⟨h0, by simp [hh], rfl⟩

/-- Everything that a step of the search raises fits into 64 bits. -/
def RaisesFit (spec : BatchSpec) (sc : Scenario) : Prop :=
  ∀ act ∈ searchActions spec, ∀ svc ∈ sc.services, FitsIn spec act svc

theorem reshaped_of_mem (hsp : Parsed base spec) (hb : base.hosts ≠ []) (hcur : Checked cur)
    (hf : RaisesFit spec cur) (h : ns ∈ generateBatchNeighbors spec cur m) : Reshaped cur ns := by
  have hs : List.Forall₂ Resized cur.services cur.services :=
    forall₂_same.2 fun svc _ => .refl svc
  have hwo : List.Forall₂ (fun w w' => w' = w ∨ ∃ r > 0, w' = { w with
      arrival := { w.arrival with rateRPS := r } }) cur.workload cur.workload :=
    forall₂_same.2 fun w _ => .inl rfl
  rcases (mem_allNeighbors.1 (mem_allNeighbors_of_mem h)).1 with
    ⟨act, hact, ha⟩ | ⟨-, hm⟩ | ⟨-, hm⟩
  · rcases mem_actionNeighbors ha with ⟨i, svc, __, hsvc, hm, rfl⟩ |
      ⟨i, host, __, hh, hm, rfl⟩ | ⟨-, hm⟩ | ⟨-, hm⟩
    · have hr := resized_of_mem hsp.replicaStep (hf act hact svc (mem_of_getElem? hsvc)) hm
      exact ⟨rfl, forall₂_set .refl hsvc hr, hwo, hcur.hostChecks⟩
    · refine ⟨rfl, hs, hwo, fun other ho => ?_⟩
      rcases mem_or_eq_of_mem_set ho with ho | rfl
      · exact hcur.hostChecks other ho
      · have hc := hcur.hostChecks host (mem_of_getElem? hh)
        exact ⟨id_of_mem_hostChange hm ▸ hc.1, memory_of_mem_hostChange hsp hb hm hc.2⟩
    · obtain ⟨h0, hh0, rfl⟩ := mem_hostScaleOut hm
      refine ⟨rfl, hs, hwo, fun host hh => ?_⟩
      rcases mem_append.1 hh with hh | hh
      · exact hcur.hostChecks host hh
      · obtain rfl := mem_singleton.1 hh
        refine ⟨?_, (hcur.hostChecks h0 hh0).2⟩
        simp [hostName]
    · simp only [hostScaleIn, mem_ite_nil_left, mem_singleton] at hm
      obtain ⟨-, rfl⟩ := hm
      exact ⟨rfl, hs, hwo, fun host hh =>
        hcur.hostChecks host (dropLast_subset _ hh)⟩
  · obtain ⟨i, w, r, hw, hr, rfl⟩ := mem_workloadNeighbors hm
    exact ⟨rfl, hs, forall₂_set (fun w => .inl rfl) hw (.inr ⟨r, hr, rfl⟩), hcur.hostChecks⟩
  · obtain ⟨p, rfl⟩ := mem_policyNeighbors hm
    exact ⟨rfl, hs, hwo, hcur.hostChecks⟩

/-! ### Names of hosts -/

/-- The scenarios that the search can reach from a baseline in steps without overflow. -/
inductive Explored (spec : BatchSpec) (base : Scenario) : Scenario → Prop
  | base : Explored spec base base
  | step {cur ns : Scenario} (m : Option RunMetrics) (h : Explored spec base cur)
      (hf : RaisesFit spec cur) (hns : ns ∈ generateBatchNeighbors spec cur m) :
      Explored spec base ns

/-- No host of the baseline has the name of a host that can be added behind it. -/
def FreshNames (spec : BatchSpec) (base : Scenario) : Prop :=
  ∀ k < spec.maxHosts.toNat + 1, ∀ j < k - 1, min spec.minHosts base.hosts.length < (k : Int) →
      (base.hosts.map (·.id))[j]? ≠ some (hostName k)

instance (spec : BatchSpec) (base : Scenario) : Decidable (FreshNames spec base) :=
  inferInstanceAs (Decidable (∀ k < _, ∀ j < _, _ → _ ≠ _))

/-- The names of hosts during the search: some of the baseline, and then names by position. -/
structure Named (spec : BatchSpec) (base : Scenario) (ids : List String) (kept added : Nat) :
    Prop where
  ids : ids = (base.hosts.map (·.id)).take kept ++ (List.range' (kept + 1) added).map hostName
  kept_le : kept ≤ base.hosts.length
  le_kept : min spec.minHosts base.hosts.length ≤ kept
  added : .hostScaleOut ∉ searchActions spec → added = 0

namespace Named

variable {ids : List String} {kept added : Nat}

section

variable (h : Named spec base ids kept added)
include h

theorem length : ids.length = kept + added := by
  rw [h.ids, length_append, length_take, length_map, length_map,
    length_range', min_eq_left h.kept_le]

theorem nodup (hb : (base.hosts.map (·.id)).Nodup) (hl : (ids.length : Int) ≤ spec.maxHosts)
    (hf : .hostScaleOut ∈ searchActions spec → FreshNames spec base) : ids.Nodup := by
  have hle := h.length
  rw [h.ids]
  refine List.Nodup.append hb.take (List.Nodup.map hostName_injective nodup_range') ?_
  intro name hke ha
  obtain ⟨k, hk, rfl⟩ := mem_map.1 ha
  obtain ⟨j, hj⟩ := mem_iff_getElem?.1 hke
  rw [getElem?_take] at hj
  split_ifs at hj with hjk
  rw [mem_range'_1] at hk
  have hact : .hostScaleOut ∈ searchActions spec := by
    by_contra hnot
    have hz := h.added hnot
    omega
  have hm := h.le_kept
  exact hf hact k (by omega) j (by omega) (by omega) hj

theorem scaleOut (ha : .hostScaleOut ∈ searchActions spec) :
    Named spec base (ids ++ [hostName (ids.length + 1)]) kept (added + 1) := by
  refine ⟨?_, h.kept_le, h.le_kept, fun hn => (hn ha).elim⟩
  rw [h.length, range'_1_concat, map_append, ← append_assoc, ← h.ids, map_cons,
    map_nil, Nat.add_right_comm]

theorem scaleIn (hlt : spec.minHosts < ids.length) :
    ∃ kept' added', Named spec base ids.dropLast kept' added' := by
  have hl := h.length
  cases added with
  | zero =>
    have hi : ids = (base.hosts.map (·.id)).take kept := by simpa using h.ids
    refine ⟨kept - 1, 0, ⟨?_, ?_, ?_, fun _ => rfl⟩⟩
    · rw [range'_zero, map_nil, append_nil, dropLast_eq_take, hl, hi,
        take_take, Nat.add_zero, min_eq_left (Nat.sub_le kept 1)]
    · have hle := h.kept_le
      omega
    · have hle := h.kept_le
      omega
  | succ added =>
    refine ⟨kept, added, ⟨?_, h.kept_le, h.le_kept, fun hn => absurd (h.added hn) (by simp)⟩⟩
    rw [h.ids, range'_1_concat, map_append, ← append_assoc, map_cons, map_nil, dropLast_concat]

end

end Named

/-- The hosts of every scenario of the search. -/
theorem Explored.named (h : Explored spec base cur) : ∃ kept added,
    Named spec base (cur.hosts.map (·.id)) kept added := by
  induction h with
  | base =>
    refine ⟨base.hosts.length, 0, ⟨?_, le_rfl, min_le_right _ _, fun _ => rfl⟩⟩
    rw [range'_zero, map_nil, append_nil, take_of_length_le (by simp)]
  | @step cur _ _ _ _ hns ih =>
    obtain ⟨kept, added, hn⟩ := ih
    rcases (mem_allNeighbors.1 (mem_allNeighbors_of_mem hns)).1 with
      ⟨act, ha, hs⟩ | ⟨-, hm⟩ | ⟨-, hm⟩
    · rcases mem_actionNeighbors hs with ⟨i, __, __, __, -, rfl⟩ |
        ⟨i, __, host', hh, hm, rfl⟩ | ⟨rfl, hm⟩ | ⟨rfl, hm⟩
      · exact ⟨kept, added, hn⟩
      · refine ⟨kept, added, ?_⟩
        have hi : (cur.hosts.set i host').map (·.id) = cur.hosts.map (·.id) :=
          map_eq_of_forall₂ (fun _ _ hid => hid) (forall₂_set (R := fun h h' => h'.id = h.id)
            (fun _ => rfl) hh (id_of_mem_hostChange hm))
        exact hi ▸ hn
      · obtain ⟨_, -, rfl⟩ := mem_hostScaleOut hm
        refine ⟨kept, added + 1, ?_⟩
        simpa using hn.scaleOut ha
      · simp only [hostScaleIn, mem_ite_nil_left, mem_singleton, not_le] at hm
        obtain ⟨hlt, rfl⟩ := hm
        simpa using hn.scaleIn (by simpa using hlt)
    · obtain ⟨i, w, r, -, -, rfl⟩ := mem_workloadNeighbors hm
      exact ⟨kept, added, hn⟩
    · obtain ⟨p, rfl⟩ := mem_policyNeighbors hm
      exact ⟨kept, added, hn⟩

/-! ### The search -/

theorem Explored.checked (h : Explored spec base cur) (hs : Parsed base spec) (hb : Checked base)
    (hf : .hostScaleOut ∈ searchActions spec → FreshNames spec base) : Checked cur := by
  induction h with
  | base => exact hb
  | @step _ _ m hc hf' hns ih =>
    have hbo := (admissible_of_mem hns).2
    have hl := (withinBatchBounds_iff.1 hbo).1.2
    obtain ⟨_, _, hn⟩ := (Explored.step m hc hf' hns).named
    exact (reshaped_of_mem hs hb.someHost ih hf' hns).checked ih hs hb.someHost hbo
      (hn.nodup hb.hosts (by simpa using hl) hf)

/-- A service on one host of a given name. -/
def oneHost (id : String) : Scenario :=
  oneService [{ id := id, cores := 4, memoryGB := 8 }] 512

theorem raisesFit_oneHost (spec : BatchSpec) (id : String) : RaisesFit spec (oneHost id) := by
  intro act _ svc hs b hb
  obtain rfl := mem_singleton.1 hs
  cases hb

/-- The service consumes from a queue with as many consumers as there can be, but for one. -/
def fullQueue : Scenario :=
  { oneHost "host-1" with services := (oneHost "host-1").services ++ [
      { id := "jobs", kind := "queue", cpuCores := 1, memoryMB := 512
        endpoints := [{ path := "/topic" }]
        behavior := some { queue := some {
          consumerTarget := "api:/", consumerConcurrency := 2 ^ 63 - 2
          maxConsumerConcurrency := 2 ^ 63 - 1 } } }] }

/-- No scenario of the search has taken the name of a host that can still be added behind it. -/
theorem FreshNames.explored (hf : FreshNames spec base) (h : Explored spec base cur) :
    FreshNames spec cur := by
  obtain ⟨kept, added, hn⟩ := h.named
  intro k hk j hj hlt hjk
  have hle := hn.le_kept
  have hl := hn.length
  rw [length_map] at hl
  rw [hn.ids] at hjk
  by_cases hjl : j < kept
  · rw [getElem?_append_left (by simpa using ⟨hjl, hjl.trans_le hn.kept_le⟩)] at hjk
    rw [getElem?_take_of_lt hjl] at hjk
    exact hf k hk j hj (by omega) hjk
  · -- the hosts added so far are named by their own positions
    have hln : ((base.hosts.map (·.id)).take kept).length = kept := by
      rw [length_take, min_eq_left (by simpa using hn.kept_le)]
    rw [getElem?_append_right (by omega), hln, getElem?_map, Option.map_eq_some_iff] at hjk
    obtain ⟨p, hp, hpk⟩ := hjk
    obtain ⟨_, rfl⟩ := List.getElem?_eq_some_iff.1 hp
    rw [getElem_range'] at hpk
    have hk := hostName_injective hpk
    omega

end SimCore.Improvement
