import SimCore.Config.Declared
import SimCore.Interaction.Graph
import SimCore.Resource.BrokerQueue

/-!
# Targets of calls, workload rows and consumers

The loader reads every target with one parser and looks it up in a map with the keys
`"serviceID:path"`. At run time workload rows and downstream calls are read with a second parser,
which agrees with the first, and consumers with a third, which insists on a colon. The keys are
ambiguous if a service id contains a colon, so a target can be accepted because another service
declares the endpoint.

## Main definitions

* `Agrees`: a target is read as by the loader, and found in the service that it names
* `Scenario.Owned`: the last endpoint that is declared under a key is the one that is meant

## Main results

* `targets_agree`: targets agree just if consumer targets have a colon and no endpoint of another
  service is declared later under the key of a target
* `targets_disagree`: two accepted scenarios where they do not
-/

namespace SimCore.Config

open Interaction Resource

variable {sc : Scenario} {svc path target : String}

/-- A target is read at run time as by the loader, and the endpoint that is found is one of the
service that it names. -/
def Agrees (sc : Scenario) (checked : String) (read : Except String (String × String)) : Prop :=
  ∃ svc path, parseDownstreamTargetForValidation checked = .ok (svc, path) ∧
    read = .ok (svc, path) ∧ ∃ s ∈ sc.services, s.id = svc ∧
      ∃ ep ∈ s.endpoints, ep.path = path ∧ sc.endpoint? svc path = some ep

def Scenario.consumerTargets (sc : Scenario) : List String :=
  sc.services.flatMap fun svc =>
    if svc.kindNorm = "queue" then
      [(effectiveQueueBehavior (svc.behavior.bind ServiceBehavior.queue)).consumerTarget]
    else if svc.kindNorm = "topic" then
      (effectiveTopicBehavior (svc.behavior.bind ServiceBehavior.topic)).subscribers.map
        TopicSubscriber.consumerTarget
    else []

/-- All targets: of workload rows, calls and consumers. -/
def Scenario.targets (sc : Scenario) : List String :=
  sc.workload.map (·.target) ++ (sc.services.flatMap fun svc => svc.endpoints.flatMap fun ep =>
    ep.downstream.map (·.target)) ++ sc.consumerTargets

/-- The endpoints that are declared, with the ids of their services. -/
def Scenario.declared (sc : Scenario) : List (String × Endpoint) :=
  sc.services.flatMap fun svc => svc.endpoints.map fun ep => (svc.id, ep)

/-- A service declares a path, and no endpoint is declared under the same key after that. -/
def Scenario.Owned (sc : Scenario) (svc path : String) : Prop :=
  ∃ before ep after, sc.declared = before ++ (svc, ep) :: after ∧ ep.path = path ∧
    ∀ d ∈ after, endpointKey d.1 d.2.path ≠ endpointKey svc path

/-- What the loader reads in a target is owned by the service. -/
def Scenario.OwnsTarget (sc : Scenario) (target : String) : Prop :=
  ∀ svc path, parseDownstreamTargetForValidation target = .ok (svc, path) → sc.Owned svc path

theorem forall_mem_consumerTargets {P : String → Prop} : (∀ target ∈ sc.consumerTargets, P target) ↔
    (∀ svc ∈ sc.services, svc.kindNorm = "queue" →
      P (effectiveQueueBehavior (svc.behavior.bind ServiceBehavior.queue)).consumerTarget) ∧
    ∀ svc ∈ sc.services, svc.kindNorm = "topic" → ∀ sub ∈ (effectiveTopicBehavior
      (svc.behavior.bind ServiceBehavior.topic)).subscribers, P sub.consumerTarget := by
  simp only [Scenario.consumerTargets, List.forall_mem_flatMap, ← forall₂_and]
  refine forall₂_congr fun svc _ => ?_
  split_ifs with hq ht <;> simp [*]

/-! ### Keys -/

theorem lookupLast_eq_some_iff {α : Type} {key : String} {value : α} {entries : List (String × α)} :
    lookupLast key entries = some value ↔ ∃ before after,
      entries = before ++ (key, value) :: after ∧ ∀ e ∈ after, e.1 ≠ key := by
  rw [lookupLast, List.lookup_eq_some_iff]
  constructor
  · rintro ⟨l, l', heq, hl⟩
    refine ⟨l'.reverse, l.reverse, ?_, fun e he hk => ?_⟩
    · simpa using congrArg List.reverse heq
    · have hne := hl e (List.mem_reverse.1 he)
      simp [hk] at hne
  · rintro ⟨before, after, rfl, ha⟩
    refine ⟨after.reverse, before.reverse, by simp, fun e he => ?_⟩
    simpa using (ha e (List.mem_reverse.1 he)).symm

/-- The endpoint that is found under the key of a path is one of the service that is meant, just if
the service owns the path. -/
theorem owned_iff : (∃ s ∈ sc.services, s.id = svc ∧
      ∃ ep ∈ s.endpoints, ep.path = path ∧ sc.endpoint? svc path = some ep) ↔
        sc.Owned svc path := by
  have hd : sc.endpointEntries = sc.declared.map fun d => (endpointKey d.1 d.2.path, d.2) := by
    simp [Scenario.endpointEntries, Scenario.declared, List.map_flatMap, Function.comp_def]
  constructor
  · rintro ⟨s, -, rfl, ep, -, rfl, hl⟩
    obtain ⟨before, after, heq, ha⟩ := lookupLast_eq_some_iff.1 hl
    rw [hd, List.map_eq_append_iff] at heq
    obtain ⟨before', rest, hrest, -, heq⟩ := heq
    obtain ⟨⟨id, ep'⟩, after', rfl, hd', rfl⟩ := List.map_eq_cons_iff.1 heq
    obtain ⟨hk, rfl⟩ := Prod.mk.inj hd'
    -- two keys with the same path are those of the same service
    have hid : id = s.id := by simpa [endpointKey] using hk
    subst hid
    exact ⟨before', ep', after', hrest, rfl, fun d hm => ha _ (List.mem_map_of_mem hm)⟩
  · rintro ⟨before, ep, after, hdecl, rfl, ha⟩
    have hm : (svc, ep) ∈ sc.declared := by simp [hdecl]
    obtain ⟨s, hs, hm⟩ := List.mem_flatMap.1 hm
    obtain ⟨ep', hep, heq⟩ := List.mem_map.1 hm
    obtain ⟨rfl, rfl⟩ := Prod.mk.inj heq
    refine ⟨s, hs, rfl, ep', hep, rfl, lookupLast_eq_some_iff.2 ?_⟩
    refine ⟨before.map fun d => (endpointKey d.1 d.2.path, d.2),
      after.map fun d => (endpointKey d.1 d.2.path, d.2), by rw [hd, hdecl]; simp, ?_⟩
    exact List.forall_mem_map.2 ha

/-! ### Parsers -/

/-- A consumer target with a colon is read as by the loader. -/
theorem parseConsumerTarget_of_valid {parts : String × String}
    (h : parseDownstreamTargetForValidation target = .ok parts) (hc : ':' ∈ target.toList) :
    parseConsumerTarget target = .ok parts := by
  have hc : ':' ∈ (trimSpace target).toList := (mem_trimSpace (by decide) target).2 hc
  rw [parseDownstreamTargetForValidation] at h
  rw [parseConsumerTarget, parseWorkloadTarget]
  rw [splitN2, if_pos hc] at h ⊢
  simp only at h ⊢
  split_ifs at h with hn he
  push Not at he
  rw [if_neg he.1, if_neg he.2]
  exact h

theorem colon_of_parseConsumerTarget {parts : String × String}
    (h : parseConsumerTarget target = .ok parts) : ':' ∈ target.toList := by
  by_contra hc
  rw [← mem_trimSpace (by decide)] at hc
  simp [parseConsumerTarget, parseWorkloadTarget, splitN2, hc] at h

/-- A declared target agrees just if it is read as declared and owned. -/
theorem Declares.agrees_iff (h : Declares sc target svc path)
    {read : Except String (String × String)} :
    Agrees sc target read ↔ read = .ok (svc, path) ∧ sc.OwnsTarget target := by
  constructor
  · rintro ⟨svc', path', hp, hr, ho⟩
    cases h.parsed.symm.trans hp
    refine ⟨hr, fun svc' path' hp => ?_⟩
    cases h.parsed.symm.trans hp
    exact owned_iff.1 ho
  · rintro ⟨hr, ho⟩
    exact ⟨svc, path, h.parsed, hr, owned_iff.2 (ho svc path h.parsed)⟩

theorem Declares.agrees_runtime (h : Declares sc target svc path) :
    Agrees sc target (parseDownstreamTarget target) ↔ sc.OwnsTarget target :=
  h.agrees_iff.trans (and_iff_right (parseDownstreamTarget_of_valid h.parsed))

theorem Declares.agrees_consumer (h : Declares sc (trimSpace target) svc path) :
    Agrees sc (trimSpace target) (parseConsumerTarget (trimSpace target)) ↔
      sc.OwnsTarget target ∧ ':' ∈ target.toList := by
  have hp : parseDownstreamTargetForValidation (trimSpace target) =
      parseDownstreamTargetForValidation target := by
    simp [parseDownstreamTargetForValidation]
  rw [h.agrees_iff, Scenario.OwnsTarget, hp]
  rw [and_comm]
  refine and_congr_right fun _ => ⟨fun hr => ?_, fun hc => ?_⟩
  · exact (mem_trimSpace (by decide) target).1 (colon_of_parseConsumerTarget hr)
  · exact parseConsumerTarget_of_valid h.parsed ((mem_trimSpace (by decide) target).2 hc)

/-- All targets agree: those of workload rows, calls, queues and subscribers. -/
structure Scenario.TargetsAgree (sc : Scenario) : Prop where
  workload : ∀ wl ∈ sc.workload, Agrees sc wl.target (parseDownstreamTarget wl.target)
  calls : ∀ svc ∈ sc.services, ∀ ep ∈ svc.endpoints, ∀ ds ∈ ep.downstream,
    Agrees sc ds.target (parseDownstreamTarget ds.target)
  queues : ∀ svc ∈ sc.services, svc.kindNorm = "queue" → ∀ topic,
    let eff := effectiveQueueBehavior (svc.behavior.bind ServiceBehavior.queue)
    Agrees sc (trimSpace eff.consumerTarget)
      (parseConsumerTarget (newQueueShard svc.id topic eff).consumerTarget)
  topics : ∀ svc ∈ sc.services, svc.kindNorm = "topic" → ∀ topic partition group,
    let eff := effectiveTopicBehavior (svc.behavior.bind ServiceBehavior.topic)
    ∀ sub ∈ eff.subscribers, Agrees sc (trimSpace sub.consumerTarget)
      (parseConsumerTarget (newTopicShard svc.id topic partition group eff sub).consumerTarget)

/-- The targets of an accepted scenario are all read at run time as by the loader, and the endpoint
that is found for each belongs to the service that it names, just if all consumer targets have a
colon and every target is owned by its service. -/
theorem targets_agree (hv : validateScenario sc = .ok ()) : sc.TargetsAgree ↔
    (∀ target ∈ sc.consumerTargets, ':' ∈ target.toList) ∧
      ∀ target ∈ sc.targets, sc.OwnsTarget target := by
  have ha := accepted_of_valid hv
  rw [Scenario.targets, List.forall_mem_append, List.forall_mem_append, and_comm, and_assoc,
    ← forall₂_and, forall_mem_consumerTargets]
  simp only [List.forall_mem_map, List.forall_mem_flatMap]
  constructor
  · refine fun h => ⟨⟨fun wl hwl => ?_, fun svc hs ep hep ds hds => ?_⟩, fun svc hs hk => ?_,
      fun svc hs hk sub hsub => ?_⟩
    · obtain ⟨_, _, hd⟩ := ha.declares_workload hwl
      exact hd.agrees_runtime.1 (h.workload wl hwl)
    · obtain ⟨_, _, hd⟩ := ha.declares_downstream hs hep hds
      exact hd.agrees_runtime.1 (h.calls svc hs ep hep ds hds)
    · obtain ⟨_, _, hd⟩ := ha.declares_queue hs hk
      refine hd.agrees_consumer.1 ?_
      rw [parseConsumerTarget, trimSpace_trimSpace, ← parseConsumerTarget]
      exact h.queues svc hs hk ""
    · obtain ⟨_, _, hd⟩ := ha.declares_topic hs hk sub hsub
      exact hd.agrees_consumer.1 (h.topics svc hs hk "" 0 "" sub hsub)
  · rintro ⟨⟨hw, hc⟩, hq, ht⟩
    refine ⟨fun wl hwl => ?_, fun svc hs ep hep ds hds => ?_, fun svc hs hk topic => ?_,
      fun svc hs hk topic partition group sub hsub => ?_⟩
    · obtain ⟨_, _, hd⟩ := ha.declares_workload hwl
      exact hd.agrees_runtime.2 (hw wl hwl)
    · obtain ⟨_, _, hd⟩ := ha.declares_downstream hs hep hds
      exact hd.agrees_runtime.2 (hc svc hs ep hep ds hds)
    · obtain ⟨_, _, hd⟩ := ha.declares_queue hs hk
      have hag := hd.agrees_consumer.2 (hq svc hs hk)
      rwa [parseConsumerTarget, trimSpace_trimSpace, ← parseConsumerTarget] at hag
    · obtain ⟨_, _, hd⟩ := ha.declares_topic hs hk sub hsub
      exact hd.agrees_consumer.2 (ht svc hs hk sub hsub)

/-- A queue with the given consumer target. -/
def jobsQueue (consumerTarget : String) : Service where
  id := "jobs"
  kind := "queue"
  endpoints := [{ path := "/topic" }]
  behavior := some { queue := some { consumerTarget := consumerTarget } }

/-- A scenario with a queue and its consumer. -/
def withQueue (consumerTarget : String) : Scenario where
  hosts := [{ id := "h", cores := 4 }]
  services := [{ id := "worker", endpoints := [{ path := "/" }] }, jobsQueue consumerTarget]
  workload := [{ source := "client", target := " worker:/ "
                 arrival := { type := "poisson", rateRPS := 1 } }]

/-- Spaces around a target and its parts do no harm. -/
theorem targets_agree_withQueue : (withQueue " worker : / ").TargetsAgree := by
  have hp : ∀ target ∈ (withQueue " worker : / ").targets,
      parseDownstreamTargetForValidation target = .ok ("worker", "/") := by decide +kernel
  refine (targets_agree (by decide +kernel)).2 ⟨by decide +kernel, fun target ht svc path heq => ?_⟩
  cases (hp target ht).symm.trans heq
  exact ⟨[], { path := "/" }, [("jobs", { path := "/topic" })], rfl, rfl, by decide +kernel⟩

/-- Two services whose keys coincide. -/
def withColons : Scenario where
  hosts := [{ id := "h", cores := 4 }]
  services :=
    [{ id := "a", endpoints := [{ path := "/" }] },
      { id := "a:b", endpoints := [{ path := "c", meanCPUMs := 7 }] }]
  workload := [{ source := "client", target := "a:b:c"
                 arrival := { type := "poisson", rateRPS := 1 } }]

/-- A consumer target without a colon is accepted and cannot be read at run time; and the target
`a:b:c` is accepted for the service `a`, where the endpoint of the service `a:b` is found. -/
theorem targets_disagree : (validateScenario (withQueue "worker") = .ok () ∧
      parseDownstreamTargetForValidation "worker" = .ok ("worker", "/") ∧
      ∃ message, parseConsumerTarget (newQueueShard "jobs" "/topic" (effectiveQueueBehavior
        (some { consumerTarget := "worker" }))).consumerTarget = .error message) ∧
    validateScenario withColons = .ok () ∧ parseDownstreamTarget "a:b:c" = .ok ("a", "b:c") ∧
      withColons.endpoint? "a" "b:c" = some { path := "c", meanCPUMs := 7 } ∧
      ∀ svc ∈ withColons.services, svc.id = "a" → ∀ ep ∈ svc.endpoints, ep.path ≠ "b:c" := by
  have hu : parseConsumerTarget (newQueueShard "jobs" "/topic" (effectiveQueueBehavior
      (some { consumerTarget := "worker" }))).consumerTarget =
        .error "invalid workload target format: worker (expected serviceID:path)" := by
    decide +kernel
  have hc : validateScenario withColons = .ok () ∧
      parseDownstreamTarget "a:b:c" = .ok ("a", "b:c") ∧
      withColons.endpoint? "a" "b:c" = some { path := "c", meanCPUMs := 7 } ∧
      ∀ svc ∈ withColons.services, svc.id = "a" → ∀ ep ∈ svc.endpoints, ep.path ≠ "b:c" := by
    decide +kernel
  have hq : validateScenario (withQueue "worker") = .ok () ∧
      parseDownstreamTargetForValidation "worker" = .ok ("worker", "/") := by decide +kernel
  exact ⟨⟨hq.1, hq.2, _, hu⟩, hc⟩

end SimCore.Config
