import SimCore.Config.Accepted

/-!
# Declared targets

What the loader has checked about the targets of workload rows, downstream calls and consumers.

## Main definitions

* `Declares`: what has been checked about one target

## Main results

* `Accepted.declares_workload`, `Accepted.declares_downstream`, `Accepted.declares_queue`,
  `Accepted.declares_topic`: all targets of an accepted scenario have been checked
-/

namespace SimCore.Config

open List

variable {sc : Scenario} {α : Type} {svc : Service}

/-- What the loader has checked about a target: the service exists, and so does the key. -/
structure Declares (sc : Scenario) (target svc path : String) : Prop where
  parsed : parseDownstreamTargetForValidation target = .ok (svc, path)
  service : svc ∈ sc.services.map Service.id
  key : endpointKey svc path ∈ sc.endpointEntries.map Prod.fst

/-! ### Lookups -/

theorem mem_of_lookup {key : String} {value : α} {entries : List (String × α)}
    (h : entries.lookup key = some value) : (key, value) ∈ entries := by
  induction entries with
  | nil => simp at h
  | cons _ _ ih =>
    rw [lookup_cons] at h
    split at h
    · rename_i heq
      cases h
      rw [beq_iff_eq.1 heq]
      exact mem_cons_self
    · exact mem_cons_of_mem _ (ih h)

theorem lookup_map_value {β : Type} (f : α → β) (m : List (String × α)) (key : String) :
    (m.map fun e => (e.1, f e.2)).lookup key = (m.lookup key).map f := by
  induction m with
  | nil => rfl
  | cons _ _ ih =>
    rw [map_cons, lookup_cons, lookup_cons, ih]
    split <;> rfl

theorem exists_lookupLast {key : String} {entries : List (String × α)}
    (h : key ∈ entries.map Prod.fst) :
    ∃ value, lookupLast key entries = some value ∧ (key, value) ∈ entries := by
  rw [lookupLast]
  cases hl : entries.reverse.lookup key with
  | none =>
    rw [lookup_eq_none_iff] at hl
    obtain ⟨entry, he, rfl⟩ := mem_map.1 h
    simpa using hl entry (mem_reverse.2 he)
  | some value => exact ⟨value, rfl, mem_reverse.1 (mem_of_lookup hl)⟩

/-! ### The checks of the loader -/

theorem checkTarget_eq_ok {label missing target : String} {u : Unit}
    (h : checkTarget label missing target (sc.services.map Service.id)
      (sc.endpointEntries.map Prod.fst) = .ok u) : ∃ svc path, Declares sc target svc path := by
  rw [checkTarget] at h
  split at h
  · rename_i parts hp
    simp only [bind_eq_ok, check_eq_ok, Except.ok.injEq, exists_eq_left'] at h
    obtain ⟨_, hs, hk⟩ := h
    exact ⟨parts.1, parts.2, hp, by simpa using hs, by simpa using hk⟩
  · simp only [bind_eq_ok, reduceCtorEq, false_and, exists_false] at h

theorem Accepted.declares_workload (h : Accepted sc) {wl : WorkloadPattern}
    (hwl : wl ∈ sc.workload) : ∃ svc path, Declares sc wl.target svc path := by
  obtain ⟨-, -, svc, path, hp, hs, hk⟩ := h.workload_row hwl
  exact ⟨svc, path, hp, hs, hk⟩

theorem Accepted.declares_downstream (h : Accepted sc) (hsvc : svc ∈ sc.services) {ep : Endpoint}
    (hep : ep ∈ svc.endpoints) {ds : DownstreamCall} (hds : ds ∈ ep.downstream) :
    ∃ svc path, Declares sc ds.target svc path := by
  obtain ⟨svc, path, hp, hs, hk, -⟩ := h.downstream_call hsvc hep hds
  exact ⟨svc, path, hp, hs, hk⟩

theorem Accepted.declares_queue (h : Accepted sc) (hs : svc ∈ sc.services)
    (hk : svc.kindNorm = "queue") : ∃ id path,
      Declares sc (trimSpace (effectiveQueueBehavior
        (svc.behavior.bind ServiceBehavior.queue)).consumerTarget) id path := by
  have hok := h.queues svc hs hk
  cases hq : svc.behavior.bind ServiceBehavior.queue with
  | none =>
    rw [hq] at hok
    cases hok
  | some =>
    rw [hq] at hok
    simp only [validateQueueBehavior, bind_eq_ok, check_eq_ok, exists_const] at hok
    obtain ⟨-, -, -, -, -, -, -, -, _, ht, -⟩ := hok
    exact checkTarget_eq_ok ht

theorem declares_topicSubscriber {svcID : String} {i : Nat} {sub : TopicSubscriber}
    {groups names : List String} {res : List String × List String}
    (h : validateTopicSubscriber svcID i sub groups names (sc.endpointEntries.map Prod.fst)
      (sc.services.map Service.id) = .ok res) :
    ∃ id path, Declares sc (trimSpace sub.consumerTarget) id path := by
  simp only [validateTopicSubscriber, bind_eq_ok, check_eq_ok] at h
  obtain ⟨-, -, _, ht, -⟩ := h
  exact checkTarget_eq_ok ht

theorem declares_topicSubscribers {svcID : String} {i : Nat} {subs : List TopicSubscriber}
    {groups names : List String} {u : Unit}
    (h : validateTopicSubscribers svcID (sc.endpointEntries.map Prod.fst)
      (sc.services.map Service.id) i subs groups names = .ok u) :
    ∀ sub ∈ subs, ∃ id path, Declares sc (trimSpace sub.consumerTarget) id path := by
  induction subs generalizing i groups names with
  | nil => simp
  | cons _ _ ih =>
    rw [validateTopicSubscribers, bind_eq_ok] at h
    obtain ⟨res, hs, hr⟩ := h
    intro sub' hm
    rcases mem_cons.1 hm with rfl | hm
    · exact declares_topicSubscriber hs
    · exact ih hr sub' hm

theorem Accepted.declares_topic (h : Accepted sc) (hsvc : svc ∈ sc.services)
    (hk : svc.kindNorm = "topic") : ∀ sub ∈
      (effectiveTopicBehavior (svc.behavior.bind ServiceBehavior.topic)).subscribers,
      ∃ id path, Declares sc (trimSpace sub.consumerTarget) id path := by
  have hok := h.topics svc hsvc hk
  cases ht : svc.behavior.bind ServiceBehavior.topic with
  | none =>
    rw [ht] at hok
    cases hok
  | some =>
    rw [ht] at hok
    simp only [validateTopicBehavior, bind_eq_ok, check_eq_ok, exists_const] at hok
    obtain ⟨-, -, -, -, -, -, hs⟩ := hok
    exact declares_topicSubscribers hs

end SimCore.Config
