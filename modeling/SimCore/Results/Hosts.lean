import SimCore.Resource.Operations

/-!
# Hosts and instances

What holds of the resource manager after any sequence of operations on it.

## Main results

* `reservations_within_capacity`: the reservations on a host do not exceed its capacity, unless a
  larger capacity wraps around
* `indexes_consistent`: the lists of instances agree, names are not used again, and every service
  keeps an active instance
* `failure_leaves_manager`: an operation that fails has no effect, unless it is a scale-up that
  places some of its replicas
-/

namespace SimCore.Resource

open Config Manager List ManagedBy

variable {sc : Scenario} {m m' : Manager}

/-! ### Capacity -/

/-- As long as no host is enlarged beyond the integers of the machine, its instances never reserve
more cores and memory than it has, up to the tolerances. -/
theorem reservations_within_capacity (hm : ManagedBy (fun m op => op.InRange m) sc m)
    (hsc : ∀ svc ∈ sc.services, 0 ≤ svc.cpuCores ∧ 0 ≤ svc.memoryMB) {h : Host} (hh : h ∈ m.hosts) :
    ((m.instances.filter (·.hostID == h.id)).map (·.cpuCores)).sum ≤ h.cpuCores + 1 / 1000000000 ∧
      ((m.instances.filter (·.hostID == h.id)).map (·.memoryMB)).sum ≤
        1024 * (max 1 h.memoryGB : Int) + 1 / 1000000 := by
  have hw := (within hm (fun _ _ h => h) hsc).2 h.rack (mem_map_of_mem hh)
  have hid : h.rack.id = h.id := rfl
  rw [hid, load_layout] at hw
  obtain ⟨hc, hmem⟩ := hw
  refine ⟨hc, ?_⟩
  have hcap : h.rack.memoryCapacityMB + memSlack =
      1024 * (max 1 h.memoryGB : Int) + 1 / 1000000 := by
    rw [Rack.memoryCapacityMB, memSlack, max_comm, mul_comm]
    rfl
  exact hcap ▸ hmem

def smallHost : Scenario :=
  oneService [{ id := "h", cores := 2, memoryGB := 1 }] 100

/-- A scale-up to three replicas fails on a host with two cores, after it has placed one. -/
def failedScaleUp : List Operation :=
  [.scale (.scaleService 0 "api" 3 ⟨0, 0⟩)]

/-- A scale-up that fails after it has placed a replica, and larger hosts. -/
theorem reservations_within_capacity_smallHost :
    let m := managerAfter smallHost (failedScaleUp ++ [.scale (.increaseHostCapacity 1 1)])
    m.instances.length = 2 ∧ ∀ h ∈ m.hosts, h.cpuCores = 3 ∧
      ((m.instances.filter (·.hostID == h.id)).map (·.cpuCores)).sum ≤
        h.cpuCores + 1 / 1000000000 := by
  intro m
  have hm : ManagedBy (fun m op => op.InRange m) smallHost m := by
    refine .step (.step (managedBy_start (by decide +kernel)) _ trivial)
      (.scale (.increaseHostCapacity 1 1)) ?_
    show ∀ h ∈ _, (_ → _) ∧ (_ → _)
    decide +kernel
  refine ⟨by decide +kernel, fun h hh => ⟨?_, ?_⟩⟩
  · revert h
    decide +kernel
  · exact (reservations_within_capacity hm (by simp [smallHost, oneService]) hh).1

/-- A host of two full cores that is enlarged by the largest integer is left with one core. -/
theorem increase_shrinks_host :
    let m := managerAfter smallHost
      [.scale (.scaleService 0 "api" 2 ⟨0, 0⟩), .scale (.increaseHostCapacity (2 ^ 63 - 1) 0)]
    Managed smallHost m ∧ ∀ h ∈ m.hosts, h.cpuCores = 1 ∧
      ((m.instances.filter (·.hostID == h.id)).map (·.cpuCores)).sum = 2 := by
  refine ⟨managed_managerAfter (by decide +kernel) _, ?_⟩
  decide +kernel

/-! ### Indexes -/

/-- Every instance is on a host that exists, and in the lists of that host only. -/
structure Indexed (m : Manager) : Prop where
  names : (m.instances.map (·.id)).Nodup
  hosted : ∀ i ∈ m.instances, ∃ h ∈ m.hosts, h.id = i.hostID
  once : ∀ i ∈ m.instances, ∀ hostID,
    (m.hostToInstances hostID).count i.id = if hostID = i.hostID then 1 else 0
  listed : ∀ i ∈ m.instances, ∀ h ∈ m.hosts,
    h.serviceInstances.count i.id = if h.id = i.hostID then 1 else 0
  only : (∀ hostID, ∀ id ∈ m.hostToInstances hostID, ∃ i ∈ m.instances, i.id = id) ∧
    ∀ h ∈ m.hosts, ∀ id ∈ h.serviceInstances, ∃ i ∈ m.instances, i.id = id

theorem indexed_of_managed (hm : Managed sc m) : Indexed m := by
  have hc := coherent hm
  have hids : (m.instances.map (·.id)).Nodup := by
    simpa [ledger, ServiceInstance.account, Function.comp_def] using hc.ids
  have hl : ∀ hostID, m.hostToInstances hostID =
      (m.instances.filter (·.hostID == hostID)).map (·.id) := by
    intro hostID
    have hli : m.hostToInstances hostID = _ := hc.listed hostID
    rw [hli, ledger, filter_map, map_map]
    rfl
  have hs : ∀ h ∈ m.hosts, h.serviceInstances = m.hostToInstances h.id :=
    fun h hh => listed hm h.rack (mem_map_of_mem hh)
  have ho : ∀ i ∈ m.instances, ∀ hostID,
      (m.hostToInstances hostID).count i.id = if hostID = i.hostID then 1 else 0 := by
    intro i hi hostID
    have hn : (m.hostToInstances hostID).Nodup := by
      rw [hl]
      exact hids.sublist (filter_sublist.map _)
    rw [hn.count, hl]
    by_cases hho : hostID = i.hostID
    · rw [if_pos hho, if_pos]
      exact mem_map_of_mem (mem_filter.2 ⟨hi, by simp [hho]⟩)
    · rw [if_neg hho, if_neg]
      intro hmem
      obtain ⟨j, hj, hid⟩ := mem_map.1 hmem
      obtain ⟨hj, hjh⟩ := mem_filter.1 hj
      obtain rfl := inj_on_of_nodup_map hids hj hi hid
      have hjh : j.hostID = hostID := by simpa using hjh
      exact hho hjh.symm
  have hon : ∀ hostID, ∀ id ∈ m.hostToInstances hostID, ∃ i ∈ m.instances, i.id = id := by
    intro hostID id hid
    rw [hl] at hid
    obtain ⟨i, hi, hid⟩ := mem_map.1 hid
    exact ⟨i, mem_of_mem_filter hi, hid⟩
  refine ⟨hids, fun i hi => ?_, ho, fun i hi h hh => ?_, hon, fun h hh id hid => ?_⟩
  · obtain ⟨h, hh, hid⟩ := mem_map.1 (hc.hosted i.account (mem_map_of_mem hi))
    exact ⟨h, hh, hid⟩
  · rw [hs h hh]
    exact ho i hi h.id
  · exact hon h.id id (hs h hh ▸ hid)

/-- A name that is not in use any more is never used again. -/
theorem name_not_reused {m₁ m₂ m₃ : Manager} (hm : Managed sc m₁) (h₁₂ : Operated m₁ m₂)
    (h₂₃ : Operated m₂ m₃) {i : ServiceInstance} (hi : i ∈ m₁.instances)
    (hg : ∀ j ∈ m₂.instances, j.id ≠ i.id) : ∀ j ∈ m₃.instances, j.id ≠ i.id := by
  intro j hj hid
  have hc := coherent hm
  obtain ⟨hc₂, _, -⟩ := h₁₂.fresh hc
  obtain ⟨-, -, hnew⟩ := h₂₃.fresh hc₂
  obtain ⟨k, hk, hn⟩ := hc.named i.account (mem_map_of_mem hi)
  obtain ⟨j', hj', hid'⟩ | ⟨_, _, _, hn'⟩ := hnew j hj
  · exact hg j' hj' (hid'.trans hid)
  · have hn : i.id = instanceName i.serviceName k := hn
    have hk : k < m₁.nextInstanceID := hk
    have hkk := Ledger.instanceName_inj ((hn.symm.trans hid.symm).trans hn')
    omega

/-- A service with an instance has an active one ever after. -/
theorem active_ever_after (hm : Managed sc m) (h : Operated m m') {i : ServiceInstance}
    (hi : i ∈ m.instances) :
    ∃ j ∈ m'.instances, j.serviceName = i.serviceName ∧ j.lifecycle = .active := by
  obtain ⟨s, hs, hsvc, ha⟩ :=
    h.serves (coherent hm) (staffed hm i.site (mem_map_of_mem hi))
  obtain ⟨j, hj, rfl⟩ := mem_map.1 hs
  exact ⟨j, hj, hsvc, ha⟩

/-- A scale-in changes nothing, or it removes hosts without instances down to the requested number,
at least one. -/
theorem scaleInHosts_spec (hm : Managed sc m) (target : Int) (rank : String → Nat) :
    (m.scaleInHosts target rank).2 = m ∨
      ((m.scaleInHosts target rank).2.hosts.length : Int) = max target 1 ∧
      (∀ h ∈ (m.scaleInHosts target rank).2.hosts, h ∈ m.hosts) ∧
      (m.scaleInHosts target rank).2.instances = m.instances ∧
      ∀ h ∈ m.hosts, h ∉ (m.scaleInHosts target rank).2.hosts →
        ∀ i ∈ m.instances, i.hostID ≠ h.id := by
  have hcoh := coherent hm
  unfold scaleInHosts
  simp only
  split_ifs with hd hf
  · exact .inl rfl
  · exact .inl rfl
  · right
    obtain ⟨hn, hs⟩ := emptyHosts_nodup hcoh.toPlaced rank
    set removed := (m.emptyHosts rank).take (m.hosts.length - (max target 1).toNat) with hr
    have hl := length_removeHosts hcoh.toPlaced
      (hn.sublist (take_sublist _ _) : removed.Nodup)
      fun id hid => hs id (mem_of_mem_take hid)
    have ht : removed.length = m.hosts.length - (max target 1).toNat := by
      rw [hr, length_take]
      omega
    refine ⟨?_, fun h hh => mem_of_mem_filter hh, rfl, fun h hh hg i hi hho => ?_⟩
    · simp only
      omega
    · have hmem : h.id ∈ removed := by
        by_contra hnot
        exact hg (mem_filter.2 ⟨hh, by simpa using hnot⟩)
      have hnil := emptyHosts_empty rank h.id (mem_of_mem_take hmem)
      have hc := (indexed_of_managed hm).once i hi h.id
      rw [hnil, if_pos hho.symm] at hc
      cases hc

theorem scaleService_template (hm : Managed sc m) (clock : Time) (svc : String) (n : Int)
    (opts : ScaleServiceOptions) :
    (m.scaleServiceWithOptions clock svc n opts).1 ≠ .error .indexOutOfRange := by
  have hc := coherent hm
  unfold scaleServiceWithOptions
  simp only
  split_ifs with ho hn hup hh hd
  · simp
  · simp
  · simp
  · obtain ⟨i, hi, hs⟩ : ∃ i ∈ m.instances, i.serviceName = svc := by simpa using hn
    obtain ⟨j, hj, hjs, hac⟩ := active_ever_after hm .refl hi
    have hmem : j.id ∈ m.activeIDs svc := mem_activeIDs.2 ⟨j, hj, rfl, hjs.trans hs, hac⟩
    have ha : sortStrings (((m.instances.filter (·.serviceName == svc)).filter
        (·.lifecycle == .active)).map (·.id)) = m.activeIDs svc := rfl
    rw [ha]
    cases hids : m.activeIDs svc with
    | nil => simp [hids] at hmem
    | cons id ids =>
      obtain ⟨k, hk, rfl, -⟩ := mem_activeIDs.1 (hids ▸ mem_cons_self ..)
      simp only [head?_cons, Option.bind_some, instance?_eq_some hc.toPlaced hk]
      obtain hok | he := addReplicas_result clock svc k.cpuCores k.memoryMB
        (n.toNat - (k.id :: ids).length) m
      · exact hok ▸ nofun
      · exact he ▸ nofun
  · simp
  · simp

/-- The indexes of the manager agree with its instances and hosts after every history; names of
instances are not used again, a service keeps an active instance, so a scale-up has one to copy, and
a scale-in removes only hosts without instances. -/
theorem indexes_consistent (hm : Managed sc m) : Indexed m ∧ m.hosts ≠ [] ∧
    (∀ m₂ m₃, Operated m m₂ → Operated m₂ m₃ → ∀ i ∈ m.instances,
      (∀ j ∈ m₂.instances, j.id ≠ i.id) → ∀ j ∈ m₃.instances, j.id ≠ i.id) ∧
    (∀ m', Operated m m' → ∀ i ∈ m.instances,
      ∃ j ∈ m'.instances, j.serviceName = i.serviceName ∧ j.lifecycle = .active) ∧
    (∀ clock svc n opts, (m.scaleServiceWithOptions clock svc n opts).1 ≠ .error .indexOutOfRange) ∧
    ∀ target rank, (m.scaleInHosts target rank).2 = m ∨
      ((m.scaleInHosts target rank).2.hosts.length : Int) = max target 1 ∧
      (∀ h ∈ (m.scaleInHosts target rank).2.hosts, h ∈ m.hosts) ∧
      (m.scaleInHosts target rank).2.instances = m.instances ∧
      ∀ h ∈ m.hosts, h ∉ (m.scaleInHosts target rank).2.hosts →
        ∀ i ∈ m.instances, i.hostID ≠ h.id :=
  ⟨indexed_of_managed hm, hosts_ne_nil hm, fun _ _ h₁₂ h₂₃ _ hi => name_not_reused hm h₁₂ h₂₃ hi,
    fun _ h _ hi => active_ever_after hm h hi,
    scaleService_template hm, scaleInHosts_spec hm⟩

theorem indexes_consistent_smallHost : let m := managerAfter smallHost failedScaleUp
    m.nextInstanceID = 2 ∧ Indexed m ∧ m.hosts ≠ [] := by
  intro m
  have hm : Managed smallHost m := managed_managerAfter (by decide +kernel) _
  obtain ⟨hi, hh, -⟩ := indexes_consistent hm
  exact ⟨by decide +kernel, hi, hh⟩

/-! ### Failures -/

/-- An operation that fails leaves the manager as it was exactly if it does not run out of room
after it has placed some of its replicas. -/
theorem failure_leaves_manager (op : Scaling) {e : ScalingError} (h : (op.run m).1 = .error e) :
    (op.run m).2 = m ↔ op.strands m = false :=
  op.failed h

theorem failure_leaves_manager_smallHost :
    let m := managerAfter smallHost [.scale (.scaleService 0 "api" 2 ⟨0, 0⟩)]
    let op : Scaling := .scaleService 0 "api" 3 ⟨0, 0⟩
    (op.run m).1 = .error (.noHostHasCapacity 1 100) ∧ (op.run m).2 = m := by
  intro m op
  have he : (op.run m).1 = .error (.noHostHasCapacity 1 100) := by decide +kernel
  exact ⟨he, (failure_leaves_manager op he).2 (by decide +kernel)⟩

/-- A host with room for one more replica takes it although two are asked for. -/
theorem failed_scale_up_places_replica : let m := managerAfter smallHost []
    let op : Scaling := .scaleService 0 "api" 3 ⟨0, 0⟩
    Managed smallHost m ∧ (op.run m).1 = .error (.noHostHasCapacity 1 100) ∧
      m.instances.length = 1 ∧ (op.run m).2.instances.length = 2 ∧
      m.nextInstanceID = 1 ∧ (op.run m).2.nextInstanceID = 2 := by
  refine ⟨managed_managerAfter (by decide +kernel) _, ?_⟩
  decide +kernel

end SimCore.Resource
