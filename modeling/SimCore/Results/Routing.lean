import SimCore.Results.Hosts

/-!
# The routing cache

The manager keeps, for every service, the sorted list of its active instances and a cursor into it.
The list is rebuilt at the end of the operations that change the set of active instances, except
that a scale-up which fails halfway leaves it as it was.

## Main definitions

* `Manager.Active`: an instance of a service is active
* `Manager.selections`: what consecutive selections for a service return
* `Routed`: the cache and the cursor of every service are right

## Main results

* `Operation.cache`: an operation rebuilds the cache or leaves the set of active instances
* `routing_exact`: the cache is right after every history without a scale-up that fails halfway
* `stranded_replica_not_routed`: a scale-up that fails halfway leaves an instance out of the cache
-/

namespace SimCore.Resource

open Config Manager List

namespace Manager

/-- An instance of a service is active. -/
def Active (m : Manager) (svc id : String) : Prop :=
  ∃ i ∈ m.instances, i.id = id ∧ i.serviceName = svc ∧ i.lifecycle = .active

/-- The instances that consecutive selections for a service return. -/
def selections (svc : String) : Nat → Manager → List String
  | 0, _ => []
  | n + 1, m =>
    match m.selectInstanceForService svc with
    | .ok (id, m') => id :: selections svc n m'
    | .error _ => []

variable {m : Manager} {svc : String}

theorem selectInstanceForService_eq
    (hc : m.roundRobinIdx svc < (m.sortedServiceInstMap svc).length) :
    m.selectInstanceForService svc = .ok ((m.sortedServiceInstMap svc).get ⟨_, hc⟩,
      { m with
        roundRobinIdx := Function.update m.roundRobinIdx svc
          ((m.roundRobinIdx svc + 1) % (m.sortedServiceInstMap svc).length) }) := by
  have hne : (m.sortedServiceInstMap svc).isEmpty = false := by
    rw [isEmpty_eq_false_iff]
    exact ne_nil_of_length_pos (by omega)
  simp [selectInstanceForService, hne, getElem?_eq_getElem hc]

/-- The `j`-th of consecutive selections is `j` places after the cursor. -/
theorem mem_selections {n j : Nat} (hj : j < n)
    (hc : m.roundRobinIdx svc < (m.sortedServiceInstMap svc).length) {id : String}
    (hid : (m.sortedServiceInstMap svc)[(m.roundRobinIdx svc + j) %
      (m.sortedServiceInstMap svc).length]? = some id) : id ∈ m.selections svc n := by
  induction n generalizing m j with
  | zero => omega
  | succ _ ih =>
    rw [selections, selectInstanceForService_eq hc]
    cases j with
    | zero =>
      rw [Nat.add_zero, Nat.mod_eq_of_lt hc, getElem?_eq_getElem hc] at hid
      exact mem_cons.2 (.inl (Option.some.inj hid).symm)
    | succ j =>
      refine mem_cons_of_mem _ (ih (j := j) (by omega) ?_ ?_)
      · simpa using Nat.mod_lt _ (Nat.zero_lt_of_lt hc)
      · simpa [Nat.add_right_comm, Nat.add_assoc] using hid

/-- As many consecutive selections as there are instances return every instance. -/
theorem mem_selections_of_mem (hcu : m.roundRobinIdx svc < (m.sortedServiceInstMap svc).length)
    {id : String} (hid : id ∈ m.sortedServiceInstMap svc) :
    id ∈ m.selections svc (m.sortedServiceInstMap svc).length := by
  obtain ⟨k, hk, rfl⟩ := getElem_of_mem hid
  set n := (m.sortedServiceInstMap svc).length with hn
  set c := m.roundRobinIdx svc with hc
  refine mem_selections (j := (k + n - c) % n) (Nat.mod_lt _ (by omega)) hcu ?_
  have hp : (c + (k + n - c) % n) % n = k := by
    rw [Nat.add_mod_mod, Nat.add_sub_cancel' (by omega), Nat.add_mod_right, Nat.mod_eq_of_lt hk]
  rw [← hc, ← hn, hp]
  exact getElem?_eq_getElem hk

end Manager

/-- The cache of every service lists its active instances, and the cursor is in it. -/
def Routed (m : Manager) : Prop :=
  ∀ svc, m.sortedServiceInstMap svc = m.activeIDs svc ∧
    (m.sortedServiceInstMap svc ≠ [] → m.roundRobinIdx svc < (m.sortedServiceInstMap svc).length)

/-- The operation is a scale-up that runs out of room after it has placed some of its replicas. -/
def Operation.strands (m : Manager) : Operation → Bool
  | .scale op => op.strands m
  | _ => false

variable {m m' : Manager} {sc : Scenario}

theorem activeIDs_of_layout (h : m'.layout.sites = m.layout.sites) (svc : String) :
    m'.activeIDs svc = m.activeIDs svc := by
  have hv : ∀ m : Manager, m.activeIDs svc = sortStrings (((m.layout.sites.filter
      (·.serviceName == svc)).filter (·.lifecycle == .active)).map (·.id)) := by
    intro m
    simp only [activeIDs, layout, filter_map, map_map]
    rfl
  rw [hv, hv, h]

theorem activeIDs_withResources (svc : String) (cpu mem : ℚ) (svc' : String) :
    (m.withResources svc cpu mem).activeIDs svc' = m.activeIDs svc' := by
  have hm : ∀ {g : ServiceInstance → ServiceInstance} {is : List ServiceInstance},
      (∀ i, (g i).id = i.id ∧ (g i).serviceName = i.serviceName ∧ (g i).lifecycle = i.lifecycle) →
      (((is.map g).filter (·.serviceName == svc')).filter (·.lifecycle == .active)).map (·.id) =
        ((is.filter (·.serviceName == svc')).filter (·.lifecycle == .active)).map (·.id) := by
    intro g is hg
    simp [filter_map, Function.comp_def, hg]
  unfold activeIDs withResources
  rw [hm]
  intro i
  split <;> exact ⟨rfl, rfl, rfl⟩

theorem routed_rebuildSortedInstanceCache (m : Manager) : Routed m.rebuildSortedInstanceCache := by
  intro svc
  constructor
  · simp only [rebuildSortedInstanceCache, activeIDs, filter_filter]
    rfl
  · intro hne
    have hp := length_pos_iff.2 hne
    simp only [rebuildSortedInstanceCache] at hp ⊢
    split_ifs with hc
    · exact hp
    · omega

/-- What an operation does to the routing cache: it rebuilds the cache, or it leaves the cache and
the active instances and moves a cursor within the cache. -/
structure CacheKept (m m' : Manager) : Prop where
  cache : m'.sortedServiceInstMap = m.sortedServiceInstMap
  active : ∀ svc, m'.activeIDs svc = m.activeIDs svc
  cursor : ∀ svc, m'.roundRobinIdx svc = m.roundRobinIdx svc ∨
    m'.roundRobinIdx svc < (m.sortedServiceInstMap svc).length

theorem CacheKept.refl (m : Manager) : CacheKept m m :=
  ⟨rfl, fun _ => rfl, fun _ => .inl rfl⟩

theorem CacheKept.routed (h : CacheKept m m') (hm : Routed m) : Routed m' := by
  intro svc
  obtain ⟨hca, hc⟩ := hm svc
  rw [h.cache, h.active]
  refine ⟨hca, fun hne => ?_⟩
  obtain hs | hlt := h.cursor svc
  · rw [hs]
    exact hc hne
  · exact hlt

theorem cache_scaleService {clock : Time} {svc : String} {n : Int} {opts : ScaleServiceOptions}
    (h : (Scaling.scaleService clock svc n opts).strands m = false) :
    (∃ m₁, (m.scaleServiceWithOptions clock svc n opts).2 = rebuildSortedInstanceCache m₁) ∨
      (m.scaleServiceWithOptions clock svc n opts).2 = m := by
  cases hresult : (m.scaleServiceWithOptions clock svc n opts).1 with
  | error => exact .inr ((Scaling.failed (.scaleService clock svc n opts) hresult).2 h)
  | ok =>
    unfold scaleServiceWithOptions at hresult ⊢
    simp only at hresult ⊢
    split_ifs at hresult ⊢
    · split at hresult
      · cases hresult
      · have ht := congrArg Except.toBool hresult
        exact .inl ⟨_, if_pos ht⟩
    · exact .inl ⟨_, rfl⟩
    · exact .inr rfl

theorem cache_scaling {op : Scaling} (h : op.strands m = false) :
    (∃ m₁, (op.run m).2 = rebuildSortedInstanceCache m₁) ∨ CacheKept m (op.run m).2 := by
  cases op with
  | scaleService =>
    obtain hr | hs := cache_scaleService h
    · exact .inl hr
    · refine .inr ?_
      rw [Scaling.run, hs]
      exact .refl m
  | updateServiceResources svc cpu mem headroom =>
    right
    obtain hs | ⟨hs, -⟩ := updateServiceResources_cases m svc cpu mem headroom
    · rw [Scaling.run, hs]
      exact .refl m
    · rw [Scaling.run, hs]
      exact ⟨rfl, activeIDs_withResources svc cpu mem, fun _ => .inl rfl⟩
  | increaseHostCapacity => exact .inr ⟨rfl, fun _ => rfl, fun _ => .inl rfl⟩
  | decreaseHostCapacity =>
    right
    simp only [Scaling.run, decreaseHostCapacity]
    split_ifs <;> exact ⟨rfl, fun _ => rfl, fun _ => .inl rfl⟩
  | scaleOutHosts n =>
    right
    simp only [Scaling.run, scaleOutHosts]
    split_ifs
    · exact .refl m
    · split
      · exact .refl m
      · exact addAutoHost_induction (C := CacheKept m) (.refl m) _ n _ fun m' i _ h => { h with }
  | scaleInHosts =>
    right
    simp only [Scaling.run, scaleInHosts]
    split_ifs <;> exact ⟨rfl, fun _ => rfl, fun _ => .inl rfl⟩
  | setScaleDownDrainTimeout =>
    right
    simp only [Scaling.run, setScaleDownDrainTimeout]
    split <;> exact ⟨rfl, fun _ => rfl, fun _ => .inl rfl⟩

theorem Operation.cache {op : Operation} (h : op.strands m = false) :
    (∃ m₁, op.run m = rebuildSortedInstanceCache m₁) ∨ CacheKept m (op.run m) := by
  cases op with
  | use u =>
    right
    have hu := u.unmoved m
    exact ⟨hu.cache, activeIDs_of_layout (congrArg Layout.sites hu.layout), hu.cursor⟩
  | scale => exact cache_scaling h
  | drain t =>
    simp only [run, processDrainingInstances]
    split
    · right
      rename_i hn
      have hu := (Usage.noteSimTime t).unmoved m
      have hk : CacheKept m (m.noteSimTime t) :=
        ⟨hu.cache, activeIDs_of_layout (congrArg Layout.sites hu.layout), hu.cursor⟩
      simpa [isEmpty_iff.1 hn.1, isEmpty_iff.1 hn.2] using hk
    · exact .inl ⟨_, rfl⟩

/-- The cache is right after every history without a scale-up that fails halfway. -/
theorem ManagedBy.routed (hm : ManagedBy (fun m op => op.strands m = false) sc m) : Routed m := by
  induction hm with
  | init _ _ h =>
    simp only [initializeFromScenario, bind, Except.bind] at h
    split at h
    · cases h
    · split at h
      · cases h
      · cases h
        exact routed_rebuildSortedInstanceCache _
  | step _ op hok ih =>
    obtain ⟨m₁, hr⟩ | hk := op.cache hok
    · rw [hr]
      exact routed_rebuildSortedInstanceCache m₁
    · exact hk.routed ih

/-- After every history without a scale-up that fails halfway, the cache of a service lists exactly
its active instances in order and the cursor is in it. So a selection finds an active instance, and
consecutive ones find every active instance. -/
theorem routing_exact (hm : ManagedBy (fun m op => op.strands m = false) sc m) (svc : String) :
    (m.sortedServiceInstMap svc).Pairwise (· < ·) ∧
    (∀ id, id ∈ m.sortedServiceInstMap svc ↔ m.Active svc id) ∧
    (m.sortedServiceInstMap svc ≠ [] → m.roundRobinIdx svc < (m.sortedServiceInstMap svc).length) ∧
    m.selectInstanceForService svc ≠ .error .indexOutOfRange ∧
    (∀ id m', m.selectInstanceForService svc = .ok (id, m') → m.Active svc id) ∧
    (∀ oracle req t choice m', m.selectInstanceForRequest oracle svc req t = .ok (choice, m') →
      m.Active svc choice.1) ∧
    ∀ id, m.Active svc id → id ∈ m.selections svc (m.sortedServiceInstMap svc).length := by
  obtain ⟨hca, hc⟩ := hm.routed svc
  have hmem : ∀ id, id ∈ m.sortedServiceInstMap svc ↔ m.Active svc id := by
    intro id
    rw [hca]
    exact mem_activeIDs
  refine ⟨?_, hmem, hc, ?_, fun id m' h => ?_, fun oracle req t choice m' h => ?_, fun id hid => ?_⟩
  · rw [hca]
    have hle : (m.activeIDs svc).Pairwise (· ≤ ·) := sortStrings_sorted _
    have hne := nodup_activeIDs hm.coherent.toPlaced svc
    refine (hle.and hne).imp fun h => ?_
    by_contra hlt
    exact h.2 (String.le_antisymm h.1 (String.not_lt.1 hlt))
  · by_cases hne : m.sortedServiceInstMap svc = []
    · simp [selectInstanceForService, hne]
    · rw [selectInstanceForService_eq (hc hne)]
      exact nofun
  · by_cases hne : m.sortedServiceInstMap svc = []
    · simp [selectInstanceForService, hne] at h
    · rw [selectInstanceForService_eq (hc hne)] at h
      cases h
      exact (hmem _).1 (get_mem _ _)
  · exact (hmem _).1 (ledger_selectInstanceForRequest h).2
  · have hid := (hmem id).2 hid
    exact mem_selections_of_mem (hc (ne_nil_of_mem hid)) hid

theorem routing_exact_smallHost :
    let m := managerAfter smallHost [.scale (.scaleService 0 "api" 2 ⟨0, 0⟩)]
    m.sortedServiceInstMap "api" = ["api-instance-0", "api-instance-1"] ∧
      "api-instance-1" ∈ m.selections "api" (m.sortedServiceInstMap "api").length := by
  intro m
  have hm : ManagedBy (fun m op => op.strands m = false) smallHost m :=
    .step (managedBy_start (by decide +kernel)) (.scale (.scaleService 0 "api" 2 ⟨0, 0⟩))
      (by decide +kernel)
  obtain ⟨-, hmem, -, -, -, -, hs⟩ := routing_exact hm "api"
  have hc : m.sortedServiceInstMap "api" = ["api-instance-0", "api-instance-1"] := by
    decide +kernel
  exact ⟨hc, hs _ ((hmem _).1 (by simp [hc]))⟩

/-- The replica that a failing scale-up has placed is active, but no selection returns it, and
scaling to the number of active instances changes nothing. -/
theorem stranded_replica_not_routed : let m := managerAfter smallHost failedScaleUp
    Managed smallHost m ∧ (∃ i ∈ m.instances, i.id = "api-instance-1" ∧ i.serviceName = "api" ∧
        i.lifecycle = .active) ∧
      m.sortedServiceInstMap "api" = ["api-instance-0"] ∧
      m.selections "api" 3 = ["api-instance-0", "api-instance-0", "api-instance-0"] ∧
      (managerAfter smallHost (failedScaleUp ++
        [.scale (.scaleService 0 "api" 2 ⟨0, 0⟩)])).sortedServiceInstMap "api" =
          ["api-instance-0"] := by
  refine ⟨managed_managerAfter (by decide +kernel) _, ?_⟩
  decide +kernel

end SimCore.Resource
