import SimCore.Config.Validate
import Mathlib.Data.List.Nodup

/-!
# What the loader accepts

The facts about an accepted scenario that a run relies on, read off the checks of
`validateScenario`.

## Main definitions

* `Accepted`: the checks that a run relies on
* `Checked`: all checks

## Main results

* `checked_iff`: the loader accepts the scenarios that pass all checks
* `accepted_of_valid`: an accepted scenario has passed those that a run relies on
-/

namespace SimCore.Config

open List

/-! ### Sequences of checks -/

variable {α : Type} {u : Unit} {seen : List String} {sc : Scenario}

theorem bind_eq_ok {β : Type} {x : Except String α} {g : α → Except String β} {b : β} :
    (x >>= g) = .ok b ↔ ∃ a, x = .ok a ∧ g a = .ok b := by
  cases x <;> simp [bind, Except.bind]

theorem check_bind_eq_ok {β : Type} {x : Except String Unit} {g : Unit → Except String β} {b : β} :
    (x >>= g) = .ok b ↔ x = .ok () ∧ g () = .ok b := by
  cases x <;> simp [bind, Except.bind]

theorem check_eq_ok {ok : Bool} {message : String} : check ok message = .ok u ↔ ok = true := by
  cases ok <;> simp [check]

theorem checkEach_eq_ok {g : Nat → α → Except String Unit} {i : Nat} {l : List α} :
    checkEach g i l = .ok u ↔ ∀ j a, l[j]? = some a → g (i + j) a = .ok () := by
  induction l generalizing i with
  | nil => simp [checkEach]
  | cons b _ ih =>
    simp only [checkEach, check_bind_eq_ok, ih]
    constructor
    · rintro ⟨hb, hl⟩ j a ha
      cases j with
      | zero => simpa [Option.some.inj ha] using hb
      | succ j => simpa [Nat.add_assoc, Nat.add_comm 1] using hl j a ha
    · intro h
      refine ⟨h 0 b rfl, fun j a ha => ?_⟩
      simpa [Nat.add_assoc, Nat.add_comm 1] using h (j + 1) a ha

theorem checkEach_const_eq_ok {g : α → Except String Unit} {i : Nat} {l : List α} :
    checkEach (fun _ => g) i l = .ok u ↔ ∀ a ∈ l, g a = .ok () := by
  simp only [checkEach_eq_ok, mem_iff_getElem?]
  exact ⟨fun h a ⟨j, hj⟩ => h j a hj, fun h j a hj => h a ⟨j, hj⟩⟩

theorem validateHosts_eq_ok {hosts : List Host} :
    validateHosts seen hosts = .ok u ↔ (hosts.map (·.id)).Nodup ∧ ∀ host ∈ hosts,
      host.id ∉ seen ∧ host.id ≠ "" ∧ 0 < host.cores ∧ 0 ≤ host.memoryGB := by
  induction hosts generalizing seen with
  | nil => simp [validateHosts]
  | cons _ _ ih =>
    simp only [validateHosts, check_bind_eq_ok, check_eq_ok, ih, map_cons, nodup_cons,
      mem_map, mem_cons, not_or, not_exists, not_and, Bool.not_eq_true',
      contains_eq_mem, decide_eq_false_iff_not, decide_eq_true_eq]
    grind -ring -linarith

/-- The checks on a service by itself. -/
structure ServiceChecks (svc : Service) : Prop where
  id : svc.id ≠ ""
  replicas : 0 < svc.replicas
  kind : svc.kindNorm ∈ validKinds
  model : svc.model ∈ validModels
  someEndpoint : svc.endpoints ≠ []
  behavior : ∀ b ∈ svc.behavior, validateBehavior svc.id b = .ok ()
  endpoints : ∀ ep ∈ svc.endpoints, validateEndpoint svc.id ep = .ok ()

theorem validateServices_cons_eq_ok {svc : Service} {services : List Service} :
    validateServices seen (svc :: services) = .ok u ↔
      (svc.id ∉ seen ∧ ServiceChecks svc) ∧ validateServices (svc.id :: seen) services = .ok u := by
  rw [validateServices]
  simp only [check_bind_eq_ok, check_eq_ok]
  constructor
  · rintro ⟨hid, hs, hre, hk, hm, hso, hr⟩
    obtain ⟨hbe, he, hr⟩ : (∀ b ∈ svc.behavior, validateBehavior svc.id b = .ok ()) ∧
        (∀ ep ∈ svc.endpoints, validateEndpoint svc.id ep = .ok ()) ∧
        validateServices (svc.id :: seen) services = .ok u := by
      cases hb : svc.behavior <;>
        simpa [hb, check_bind_eq_ok, checkEach_const_eq_ok] using hr
    exact ⟨⟨by simpa using hs, by simpa using hid, by simpa using hre,
      by simpa using hk, by simpa using hm, by simpa using hso, hbe, he⟩,
      hr⟩
  · rintro ⟨⟨hs, h⟩, hr⟩
    refine ⟨by simpa using h.id, by simpa using hs, by simpa using h.replicas,
      by simpa using h.kind, by simpa using h.model, by simpa using h.someEndpoint, ?_⟩
    have hbe := h.behavior
    have he := h.endpoints
    cases hb : svc.behavior <;>
      simpa [hb, check_bind_eq_ok, checkEach_const_eq_ok, hr]
        using And.intro hbe he

theorem validateServices_eq_ok {services : List Service} :
    validateServices seen services = .ok u ↔ (services.map (·.id)).Nodup ∧ ∀ svc ∈ services,
      svc.id ∉ seen ∧ ServiceChecks svc := by
  induction services generalizing seen with
  | nil => simp [validateServices]
  | cons _ _ ih =>
    simp only [validateServices_cons_eq_ok, ih, map_cons, nodup_cons, mem_map,
      mem_cons, not_or, not_exists, not_and]
    grind -ring -linarith

/-- The checks that an accepted scenario has passed. -/
structure Accepted (sc : Scenario) : Prop where
  hosts : (sc.hosts.map (·.id)).Nodup
  someHost : sc.hosts ≠ []
  cores : ∀ h ∈ sc.hosts, 0 < h.cores
  services : (sc.services.map (·.id)).Nodup
  replicas : ∀ svc ∈ sc.services, 0 < svc.replicas
  queues : ∀ svc ∈ sc.services, svc.kindNorm = "queue" →
    validateQueueBehavior svc.id (svc.behavior.bind ServiceBehavior.queue)
      (sc.endpointEntries.map Prod.fst) (sc.services.map Service.id) = .ok ()
  topics : ∀ svc ∈ sc.services, svc.kindNorm = "topic" →
    validateTopicBehavior svc.id (svc.behavior.bind ServiceBehavior.topic)
      (sc.endpointEntries.map Prod.fst) (sc.services.map Service.id) = .ok ()
  downstream : ∀ svc ∈ sc.services, ∀ ep ∈ svc.endpoints, ∀ ds ∈ ep.downstream,
    validateDownstream sc (sc.services.map Service.id) (sc.endpointEntries.map Prod.fst) svc.id
      ep.path ds = .ok ()
  workload : ∀ wl ∈ sc.workload, ∃ i,
    validateWorkload (sc.services.map Service.id) (sc.endpointEntries.map Prod.fst) i wl = .ok ()

/-- All checks of the loader. -/
structure Checked (sc : Scenario) : Prop extends Accepted sc where
  limits : ∀ lim ∈ sc.simulationLimits, 0 ≤ lim.maxTraceDepth ∧ 0 ≤ lim.maxAsyncHops
  hostChecks : ∀ h ∈ sc.hosts, h.id ≠ "" ∧ 0 ≤ h.memoryGB
  someService : sc.services ≠ []
  serviceChecks : ∀ svc ∈ sc.services, ServiceChecks svc
  someWorkload : sc.workload ≠ []
  rows : ∀ i wl, sc.workload[i]? = some wl →
    validateWorkload (sc.services.map Service.id) (sc.endpointEntries.map Prod.fst) i wl = .ok ()

theorem checked_iff : Checked sc ↔ validateScenario sc = .ok () := by
  have hp : validateScenario sc = .ok () ↔
      (∀ lim ∈ sc.simulationLimits, 0 ≤ lim.maxTraceDepth ∧ 0 ≤ lim.maxAsyncHops) ∧
      sc.hosts ≠ [] ∧ validateHosts [] sc.hosts = .ok () ∧
      sc.services ≠ [] ∧ validateServices [] sc.services = .ok () ∧
      (∀ svc ∈ sc.services, svc.kindNorm = "queue" →
        validateQueueBehavior svc.id (svc.behavior.bind ServiceBehavior.queue)
          (sc.endpointEntries.map Prod.fst) (sc.services.map Service.id) = .ok ()) ∧
      (∀ svc ∈ sc.services, svc.kindNorm = "topic" →
        validateTopicBehavior svc.id (svc.behavior.bind ServiceBehavior.topic)
          (sc.endpointEntries.map Prod.fst) (sc.services.map Service.id) = .ok ()) ∧
      (∀ svc ∈ sc.services, ∀ ep ∈ svc.endpoints, ∀ ds ∈ ep.downstream,
        validateDownstream sc (sc.services.map Service.id) (sc.endpointEntries.map Prod.fst) svc.id
          ep.path ds = .ok ()) ∧
      sc.workload ≠ [] ∧ checkEach (validateWorkload (sc.services.map Service.id)
        (sc.endpointEntries.map Prod.fst)) 0 sc.workload = .ok () := by
    unfold validateScenario
    cases sc.simulationLimits <;>
      simp [check_bind_eq_ok, check_eq_ok, checkEach_const_eq_ok, and_assoc]
  rw [hp, validateHosts_eq_ok, validateServices_eq_ok, checkEach_eq_ok]
  constructor
  · intro h
    exact ⟨h.limits, h.someHost, ⟨h.hosts, fun host hho => ⟨not_mem_nil,
        (h.hostChecks host hho).1, h.cores host hho, (h.hostChecks host hho).2⟩⟩,
      h.someService, ⟨h.services, fun svc hsvc => ⟨not_mem_nil, h.serviceChecks svc hsvc⟩⟩,
      h.queues, h.topics, h.downstream, h.someWorkload,
        fun i wl hi => by simpa using h.rows i wl hi⟩
  · rintro ⟨hl, hso, ⟨hhosts, hc⟩, hsv, ⟨hids, hs⟩, hq, ht, hd, hne, hr⟩
    simp only [Nat.zero_add] at hr
    refine ⟨⟨hhosts, hso, fun h hh => (hc h hh).2.2.1, hids,
      fun svc hsvc => (hs svc hsvc).2.replicas, hq, ht, hd, fun wl hwl => ?_⟩,
      hl, fun h hh => ⟨(hc h hh).2.1, (hc h hh).2.2.2⟩, hsv,
      fun svc hsvc => (hs svc hsvc).2, hne, hr⟩
    obtain ⟨i, hi⟩ := mem_iff_getElem?.1 hwl
    exact ⟨i, hr i wl hi⟩

theorem accepted_of_valid (h : validateScenario sc = .ok ()) : Accepted sc :=
  (checked_iff.2 h).toAccepted

/-- An accepted workload row has a known type, a positive rate and a declared target. -/
theorem Accepted.workload_row (h : Accepted sc) {wl : WorkloadPattern} (hwl : wl ∈ sc.workload) :
    0 < wl.arrival.rateRPS ∧ (∃ type, normalizeArrivalType wl.arrival.type = .ok type) ∧
    ∃ svc path, parseDownstreamTargetForValidation wl.target = .ok (svc, path) ∧
      svc ∈ sc.services.map Service.id ∧
      endpointKey svc path ∈ sc.endpointEntries.map Prod.fst := by
  obtain ⟨i, hok⟩ := h.workload wl hwl
  simp only [validateWorkload, bind_eq_ok, check_eq_ok] at hok
  obtain ⟨-, -, -, -, -, -, hr⟩ := hok
  split at hr
  · rename_i type ht
    simp only [bind_eq_ok, check_eq_ok] at hr
    obtain ⟨-, -, -, hra, hr⟩ := hr
    refine ⟨of_decide_eq_true hra, ⟨type, ht⟩, ?_⟩
    split at hr
    · rename_i parts hp
      simp only [bind_eq_ok, check_eq_ok, Except.ok.injEq, exists_eq_left'] at hr
      obtain ⟨_, hs, hk⟩ := hr
      exact ⟨parts.1, parts.2, hp, by simpa using hs, by simpa using hk⟩
    · simp only [bind_eq_ok, reduceCtorEq, false_and, exists_false] at hr
  · simp only [bind_eq_ok, reduceCtorEq, false_and, exists_false] at hr

/-- A declared call has a declared target, which for one of kind queue or topic is of that kind. -/
theorem Accepted.downstream_call (h : Accepted sc) {svc : Service} (hsvc : svc ∈ sc.services)
    {ep : Endpoint} (hep : ep ∈ svc.endpoints) {ds : DownstreamCall} (hds : ds ∈ ep.downstream) :
    ∃ svc path, parseDownstreamTargetForValidation ds.target = .ok (svc, path) ∧
      svc ∈ sc.services.map Service.id ∧
      endpointKey svc path ∈ sc.endpointEntries.map Prod.fst ∧
      ∀ kind, kind = "queue" ∨ kind = "topic" → normWord ds.kind = kind →
        ((sc.service? svc).map Service.kindNorm).getD "" = kind := by
  have hok := h.downstream svc hsvc ep hep ds hds
  unfold validateDownstream at hok
  simp only [bind_eq_ok, check_eq_ok, exists_const] at hok
  obtain ⟨-, hok⟩ := hok
  split at hok
  · rename_i parts hp
    simp only [bind_eq_ok, check_eq_ok, exists_const, Except.ok.injEq, exists_eq_left'] at hok
    obtain ⟨hs, hk, -, -, -, -, -, -, hq, -, ht, -⟩ := hok
    refine ⟨parts.1, parts.2, hp, by simpa using hs, by simpa using hk, ?_⟩
    rintro kind (rfl | rfl) hki
    · simpa [hki] using hq
    · simpa [hki] using ht
  · simp only [bind_eq_ok, reduceCtorEq, false_and, exists_false] at hok

end SimCore.Config
