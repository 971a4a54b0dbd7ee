import SimCore.Resource.Operations

/-!
# Memory in use and the gauge of a host

A host carries a gauge, the cached share of its memory that is in use. It is set when memory is
allocated or released on the host and when an instance is evicted from it, but not when the capacity
of the host changes or when an idle instance is removed.

## Main definitions

* `Manager.memoryInUse`: memory in use on a host
* `Manager.Fresh`: the gauge of a host shows the memory in use
* `Operation.Unmeters`: the operation can make the gauge of a host wrong

## Main results

* `Operation.fresh`: other operations leave the gauge right
* `Manager.fresh_allocateMemory`, `Manager.fresh_releaseMemory`: allocation and release set it right
* `ManagedBy.memory_nonneg`: memory in use is never negative
-/

namespace SimCore.Resource

open Config Manager List Account Host

namespace Ledger

/-- Memory in use on a host. -/
def memoryOn (L : Ledger) (hostID : String) : ℚ :=
  ((L.accounts.filter (·.hostID == hostID)).map (·.activeMemoryMB)).sum

variable {L L' : Ledger} {hostID : String}

theorem memoryOn_eq_sum (L : Ledger) (hostID : String) : L.memoryOn hostID =
    (L.accounts.map fun a => if a.hostID = hostID then a.activeMemoryMB else 0).sum := by
  rw [memoryOn]
  induction L.accounts with
  | nil => rfl
  | cons a _ ih =>
    by_cases ha : a.hostID = hostID <;> simp [ha, ih]

/-- A change that keeps the memory of every account of the host keeps the memory on the host. -/
theorem memoryOn_modify {g : Account → Account} (hg : ∀ a, (g a).hostID = a.hostID) {id : String}
    (hm : ∀ a ∈ L.accounts, a.id = id → a.hostID = hostID →
      (g a).activeMemoryMB = a.activeMemoryMB) :
    (L.modify id g).memoryOn hostID = L.memoryOn hostID := by
  rw [memoryOn_eq_sum, memoryOn_eq_sum, modify, map_map]
  refine congrArg sum (map_congr_left fun a ha => ?_)
  simp only [Function.comp_apply]
  split
  · rename_i hid
    rw [hg]
    split_ifs with hh
    · exact hm a ha hid hh
    · rfl
  · rfl

theorem memoryOn_take (hL : (L.accounts.map (·.id)).Nodup) {a : Account} (ha : a ∈ L.accounts)
    (mb : ℚ) : (L.modify a.id (Account.take mb)).memoryOn a.hostID = L.memoryOn a.hostID + mb := by
  rw [memoryOn_eq_sum, memoryOn_eq_sum, modify]
  simp only [map_map]
  have ho : ∀ b ∈ L.accounts, ((fun b => if b.hostID = a.hostID then b.activeMemoryMB else 0) ∘
      fun b => if b.id = a.id then take mb b else b) b = if b = a then a.activeMemoryMB + mb
        else if b.hostID = a.hostID then b.activeMemoryMB else 0 := by
    intro b hb
    by_cases hid : b.id = a.id
    · obtain rfl := inj_on_of_nodup_map hL hb ha hid
      simp [Account.take]
    · have hne : b ≠ a := fun h => hid (congrArg _ h)
      simp [hid, hne]
  rw [map_congr_left ho, sum_map_ite_eq, count_eq_one_of_mem hL.of_map ha]
  simp only [if_true, one_nsmul]
  ring

/-- Accounts that hold no memory of the host may leave. -/
theorem memoryOn_filter (keep : Account → Bool) {accounts : List Account}
    (hz : ∀ a ∈ accounts, keep a = false → a.hostID = hostID → a.activeMemoryMB = 0) :
    (((accounts.filter keep).filter (·.hostID == hostID)).map (·.activeMemoryMB)).sum =
      ((accounts.filter (·.hostID == hostID)).map (·.activeMemoryMB)).sum := by
  induction accounts with
  | nil => rfl
  | cons a _ ih =>
    cases hkeep : keep a <;> by_cases hh : a.hostID = hostID <;> simp_all

theorem Rescaled.memoryOn (h : L.Rescaled L') (hostID : String) :
    L'.memoryOn hostID = L.memoryOn hostID := by
  obtain ⟨-, g, new, hacc, hg, hn⟩ := h
  rw [memoryOn_eq_sum, memoryOn_eq_sum, hacc, map_append, sum_append, map_map]
  have hold : L.accounts.map ((fun a => if a.hostID = hostID then a.activeMemoryMB else 0) ∘ g) =
      L.accounts.map fun a => if a.hostID = hostID then a.activeMemoryMB else 0 := by
    refine map_congr_left fun a ha => ?_
    obtain ⟨hp, -, hm, -⟩ := hg a ha
    simp [hp.hostID, hm]
  have hz : (new.map fun a => if a.hostID = hostID then a.activeMemoryMB else 0).sum = 0 := by
    refine sum_eq_zero fun x hx => ?_
    obtain ⟨a, ha, rfl⟩ := mem_map.1 hx
    simp [(hn a ha).2.2.1]
  rw [hold, hz, add_zero]

end Ledger

/-- The name, the memory and the gauge of a host. -/
def Host.gauge (h : Host) : String × Int × ℚ :=
  (h.id, h.memoryGB, h.memoryUtilization)

namespace Manager

def memoryInUse (m : Manager) (hostID : String) : ℚ :=
  ((m.instances.filter (·.hostID == hostID)).map (·.activeMemoryMB)).sum

/-- The gauge of a host shows the memory in use. -/
def Fresh (m : Manager) (hostID : String) : Prop :=
  ∀ h ∈ m.hosts, h.id = hostID →
    h.memoryUtilization = Host.clampUnit (m.memoryInUse hostID / 1024 / h.memoryGB)

variable {m m' : Manager} {hostID : String} {id : String} {i : ServiceInstance}

theorem memoryOn_ledger (m : Manager) (hostID : String) :
    m.ledger.memoryOn hostID = m.memoryInUse hostID := by
  simp only [Ledger.memoryOn, ledger, memoryInUse, filter_map, map_map]
  rfl

theorem memoryInUse_of_ledger (h : m'.ledger = m.ledger) :
    m'.memoryInUse hostID = m.memoryInUse hostID := by
  rw [← memoryOn_ledger, ← memoryOn_ledger, h]

/-- The gauge stays right if nothing that it shows changes. -/
theorem Fresh.keep (hm : m.Fresh hostID) (hmem : m'.memoryInUse hostID = m.memoryInUse hostID)
    (hg : ∀ h ∈ m'.hosts, h.id = hostID → h.gauge ∈ m.hosts.map Host.gauge) :
    m'.Fresh hostID := by
  intro h hh hid
  obtain ⟨h', hh', heq⟩ := mem_map.1 (hg h hh hid)
  obtain ⟨hid', hgb, hu⟩ := Prod.mk.inj heq |>.imp_right Prod.mk.inj
  rw [hmem, ← hgb, ← hu]
  exact hm h' hh' (hid'.trans hid)

theorem Fresh.keep_gauges (hm : m.Fresh hostID)
    (hmem : m'.memoryInUse hostID = m.memoryInUse hostID)
    (hg : m'.hosts.map Host.gauge = m.hosts.map Host.gauge) : m'.Fresh hostID :=
  hm.keep hmem fun _ hh _ => hg ▸ mem_map_of_mem hh

theorem gauges_updateHostCPU (id : String) (t : Time) :
    (m.updateHostCPU id t).hosts.map Host.gauge = m.hosts.map Host.gauge := by
  refine map_changed_eq (fun h => ?_) m.hosts
  unfold updateCPUUtilization
  split_ifs <;> rfl

/-! ### Setting a gauge -/

theorem fresh_updateHostMemory (hm : m.ledger.Placed) (hp : m.layout.Equipped) (hostID : String) :
    (m.updateHostMemory hostID).Fresh hostID := by
  rintro h hh hid
  have hmem : (m.updateHostMemory hostID).memoryInUse hostID = m.memoryInUse hostID :=
    memoryInUse_of_ledger (ledger_updateHostMemory hostID)
  obtain ⟨h', hh', rfl⟩ := mem_map.1 hh
  rw [hmem]
  have hid' : h'.id = hostID := by
    by_contra hne
    rw [if_neg hne] at hid
    exact hne hid
  have hgb : 0 < h'.memoryGB := (hp h'.rack (mem_map_of_mem hh')).2
  simp only [if_pos hid', updateMemoryUtilization, collectInstancesForHost_eq hm, memoryInUse]
  by_cases hn : (m.instances.filter (·.hostID == hostID)).isEmpty = true
  · simp [isEmpty_iff.1 hn, clampUnit]
  · simp [hn, hgb]

theorem fresh_updateHostMemory_of_ne (hm : m.Fresh hostID) (hne : id ≠ hostID) :
    (m.updateHostMemory id).Fresh hostID := by
  refine hm.keep (memoryInUse_of_ledger (ledger_updateHostMemory id)) fun h hh hid => ?_
  obtain ⟨h', hh', rfl⟩ := mem_map.1 hh
  by_cases hid' : h'.id = id
  · exfalso
    simp only [if_pos hid'] at hid
    have hn : (h'.updateMemoryUtilization (m.collectInstancesForHost id)).id = h'.id := by
      unfold updateMemoryUtilization
      split_ifs <;> rfl
    exact hne (hid'.symm.trans (hn.symm.trans hid))
  · simp only [if_neg hid']
    exact mem_map_of_mem hh'

/-- After a change of one account and an update of the gauge of its host, the gauges of that host
and of those that were right before are right. -/
theorem fresh_modify_update {m₁ : Manager} (hm : m.ledger.Placed) (hi : i ∈ m.instances)
    {g : Account → Account} (hg : ∀ a : Account, a.SamePlace (g a))
    (hl : m₁.ledger = m.ledger.modify i.id g) (hpos : m₁.layout.Equipped)
    (hga : m₁.hosts.map Host.gauge = m.hosts.map Host.gauge)
    (h : i.hostID = hostID ∨ m.Fresh hostID) :
    m₁.ledger.Placed ∧ (m₁.updateHostMemory i.hostID).Fresh hostID := by
  have hp : m₁.ledger.Placed := by
    rw [hl]
    refine hm.map (g := fun a => if a.id = i.id then g a else a) fun a => ?_
    split
    · exact hg a
    · exact ⟨rfl, rfl, rfl, rfl⟩
  refine ⟨hp, ?_⟩
  by_cases hh : i.hostID = hostID
  · subst hh
    exact fresh_updateHostMemory hp hpos _
  · refine fresh_updateHostMemory_of_ne ((h.resolve_left hh).keep_gauges ?_ hga) hh
    rw [← memoryOn_ledger, ← memoryOn_ledger, hl]
    refine Ledger.memoryOn_modify (fun a => (hg a).hostID) fun a ha hid hah => ?_
    obtain rfl := hm.eq_of_id ha (mem_map_of_mem hi) hid
    exact absurd hah hh

theorem samePlace_take (mb : ℚ) (a : Account) : a.SamePlace (a.take mb) :=
  ⟨rfl, rfl, rfl, rfl⟩

theorem samePlace_give (mb : ℚ) (a : Account) : a.SamePlace (a.give mb) := by
  unfold give
  split <;> exact ⟨rfl, rfl, rfl, rfl⟩

theorem fresh_allocateMemory (hm : m.ledger.Placed) (hp : m.layout.Equipped) {mb : ℚ}
    (hi : m.instance? id = some i) (h : m.allocateMemory id mb = .ok m')
    (hf : i.hostID = hostID ∨ m.Fresh hostID) : m'.Fresh hostID := by
  have hid : i.id = id := by simpa using find?_some hi
  subst hid
  unfold allocateMemory at h
  rw [hi] at h
  simp only at h
  split at h
  · cases h
  · split at h
    · cases h
    · cases h
      exact (fresh_modify_update hm (mem_of_find?_eq_some hi) (samePlace_take mb)
        (ledger_modifyInstance (fun _ => by rfl) i.id) hp rfl hf).2

theorem fresh_releaseMemory (hm : m.ledger.Coherent) (hp : m.layout.Equipped) (mb : ℚ)
    (hi : m.instance? id = some i) (hf : i.hostID = hostID ∨ m.Fresh hostID) :
    (m.releaseMemory id mb).Fresh hostID := by
  have hid : i.id = id := by simpa using find?_some hi
  obtain ⟨_, -, hh⟩ := exists_host hm hi
  subst hid
  unfold releaseMemory
  simp only [hi, hh]
  exact (fresh_modify_update hm.toPlaced (mem_of_find?_eq_some hi) (samePlace_give mb)
    (ledger_modifyInstance (fun i => account_releaseMemory i mb) i.id) hp rfl hf).2

/-! ### The use of instances -/

theorem gauges_use (m : Manager) {u : Usage}
    (hu : (∀ id mb, u ≠ .allocateMemory id mb) ∧ ∀ id mb, u ≠ .releaseMemory id mb) :
    (u.run m).hosts.map Host.gauge = m.hosts.map Host.gauge := by
  have he := u.effect m
  generalize u.run m = m' at he
  cases he with
  | same | note | touch => rfl
  | select h =>
    obtain ⟨⟨_, _, _, rfl⟩, -⟩ := h
    rfl
  | work _ hostID t => exact gauges_updateHostCPU hostID t
  | memory _ _ hg =>
    obtain ⟨rfl, -⟩ | ⟨rfl, -⟩ := hg
    · exact absurd rfl (hu.1 _ _)
    · exact absurd rfl (hu.2 _ _)

/-- A use of an instance leaves right gauges right. -/
theorem Fresh.use (hf : m.Fresh hostID) (hm : m.ledger.Coherent) (hp : m.layout.Equipped)
    (u : Usage) : (u.run m).Fresh hostID := by
  by_cases hu : (∀ id mb, u ≠ .allocateMemory id mb) ∧ ∀ id mb, u ≠ .releaseMemory id mb
  · refine hf.keep_gauges ?_ (gauges_use m hu)
    have hb := u.books hm
    rw [← memoryOn_ledger, ← memoryOn_ledger]
    generalize (u.run m).ledger = L at hb
    cases hb with
    | same => rfl
    | enter =>
      exact Ledger.memoryOn_modify (g := enter) (fun _ => rfl) fun _ _ _ _ => rfl
    | leave =>
      exact Ledger.memoryOn_modify (g := leave) (fun _ => rfl) fun _ _ _ _ => rfl
    | take id mb => exact absurd rfl (hu.1 id mb)
    | give id mb => exact absurd rfl (hu.2 id mb)
  · cases u with
    | allocateMemory =>
      rw [Usage.run]
      split
      · rename_i h
        obtain ⟨i, hi⟩ := Option.isSome_iff_exists.1 (has_iff.1 (ledger_allocateMemory h).2)
        exact fresh_allocateMemory hm.toPlaced hp hi h (.inr hf)
      · exact hf
    | releaseMemory id mb =>
      rw [Usage.run]
      cases hi : m.instance? id with
      | none => simpa [releaseMemory, hi] using hf
      | some => exact fresh_releaseMemory hm hp mb hi (.inr hf)
    | _ => simp at hu

/-! ### Placement and scaling -/

theorem gauges_addReplica (clock : Time) (svc id : String) (cpu mem : ℚ) :
    (m.addReplica clock svc id cpu mem).hosts.map Host.gauge = m.hosts.map Host.gauge :=
  map_changed_eq (fun _ => by rfl) m.hosts

theorem gauges_addReplicas (clock : Time) (svc : String) (cpu mem : ℚ) (n : Nat) (m : Manager) :
    (addReplicas clock svc cpu mem n m).2.hosts.map Host.gauge = m.hosts.map Host.gauge := by
  induction n generalizing m with
  | zero => rfl
  | succ _ ih =>
    rw [addReplicas]
    split
    · rfl
    · exact (ih _).trans (gauges_addReplica ..)

/-- No memory is in use after the initial placement, and the gauges show that. -/
theorem fresh_initializeFromScenario {sc : Scenario} {clock : Time}
    (hv : validateScenario sc = .ok ()) (h : initializeFromScenario sc clock = .ok m)
    (hostID : String) : m.Fresh hostID := by
  have hu := (coherent_initializeFromScenario (accepted_of_valid hv).hosts h).2
  have hg : m.hosts.map gauge = (sc.hosts.map newHost).map gauge := by
    obtain ⟨_, hp, rfl⟩ := initializeFromScenario_induction
      (C := fun _ m => m.hosts.map gauge = (sc.hosts.map newHost).map gauge)
      (B := fun _ _ _ m => m.hosts.map gauge = (sc.hosts.map newHost).map gauge) rfl
      (fun _ h _ _ => h) (fun _ _ h => (gauges_addReplica ..).trans h) (fun h => h) h
    exact hp
  have hz : m.memoryInUse hostID = 0 := by
    rw [← memoryOn_ledger]
    refine sum_eq_zero fun x hx => ?_
    obtain ⟨a, ha, rfl⟩ := mem_map.1 hx
    exact (hu a (mem_of_mem_filter ha)).2.2
  intro h' hh' _
  have hm : h'.gauge ∈ (sc.hosts.map newHost).map gauge := hg ▸ mem_map_of_mem hh'
  rw [map_map] at hm
  obtain ⟨c, -, heq⟩ := mem_map.1 hm
  have hut : h'.memoryUtilization = 0 := (congrArg (·.2.2) heq).symm
  simp [hut, hz, clampUnit]

theorem gauges_scaleService (clock : Time) (svc : String) (n : Int) (opts : ScaleServiceOptions) :
    (m.scaleServiceWithOptions clock svc n opts).2.hosts.map Host.gauge =
      m.hosts.map Host.gauge := by
  unfold scaleServiceWithOptions
  simp only
  split_ifs
  · rfl
  · rfl
  · rfl
  · split
    · rfl
    · rename_i template _
      have hg := gauges_addReplicas clock svc template.cpuCores template.memoryMB
        (n.toNat - (sortStrings (((m.instances.filter (·.serviceName == svc)).filter
          (·.lifecycle == .active)).map (·.id))).length) m
      split
      · exact hg
      · exact hg
  · rfl
  · rfl

theorem Fresh.foldl_addAutoHost (hf : m.Fresh hostID) (hm : m.ledger.Coherent) (template : Host)
    (target : Int) (ks : List Nat) :
    (ks.foldl (Manager.addAutoHost template target) m).Fresh hostID := by
  refine (addAutoHost_induction (C := fun m' => m'.Fresh hostID ∧ m'.ledger.Coherent) ⟨hf, hm⟩
    template target ks fun m' k hn ⟨hf', hm'⟩ => ⟨?_, coherent_addHost hm' hn⟩).1
  refine forall_mem_append.2 ⟨hf', forall_mem_singleton.2 ?_⟩
  rintro rfl
  have he : m'.instances.filter (·.hostID == (autoHost template k).id) = [] :=
    filter_eq_nil_iff.2 fun i hi => by simpa using hostID_ne_of_new hm'.toPlaced hn i hi
  have hz : (autoHost template k).memoryUtilization = 0 := rfl
  simp [memoryInUse, he, clampUnit, hz]

/-- A host without memory in use has a right gauge whatever its capacity. -/
theorem Fresh.mapHosts (hf : m.Fresh hostID) {f : Host → Host} (hid : ∀ h, (f h).id = h.id)
    (hu : ∀ h, (f h).memoryUtilization = h.memoryUtilization)
    (h : (∀ h, (f h).memoryGB = h.memoryGB) ∨ m.memoryInUse hostID = 0) :
    (m.mapHosts f).Fresh hostID := by
  intro h' hh' hid'
  have hm : (m.mapHosts f).memoryInUse hostID = m.memoryInUse hostID := rfl
  obtain ⟨h₀, hh₀, rfl⟩ := mem_map.1 hh'
  have hold := hf h₀ hh₀ ((hid h₀).symm.trans hid')
  rw [hm, hu, hold]
  rcases h with hgb | hz
  · rw [hgb]
  · simp [hz]

end Manager

/-- The operation can make the gauge of a host wrong: it changes the capacity while memory is in
use, or it removes an idle instance that has not given its memory back. -/
def Operation.Unmeters (m : Manager) (hostID : String) : Operation → Prop
  | .scale (.increaseHostCapacity _ memoryGBDelta) => 0 < memoryGBDelta ∧ m.memoryInUse hostID ≠ 0
  | .scale (.decreaseHostCapacity _ memoryGBDelta) => memoryGBDelta < 0 ∧ m.memoryInUse hostID ≠ 0
  | .drain _ => ∃ i ∈ m.instances, drainedIdle i = true ∧ i.hostID = hostID ∧ i.activeMemoryMB ≠ 0
  | _ => False

section Operations

variable {m m' : Manager} {hostID : String}

theorem Manager.Fresh.scaling (hf : m.Fresh hostID) (hm : m.ledger.Coherent) {op : Scaling}
    (hop : ¬ (Operation.scale op).Unmeters m hostID) : (op.run m).2.Fresh hostID := by
  have hmem : (op.run m).2.memoryInUse hostID = m.memoryInUse hostID := by
    rw [← memoryOn_ledger, ← memoryOn_ledger]
    exact (coherent_scaling hm op).2.memoryOn hostID
  cases op with
  | scaleService clock svc n opts =>
    exact hf.keep_gauges hmem (gauges_scaleService clock svc n opts)
  | updateServiceResources svc cpu mem headroom =>
    refine hf.keep_gauges hmem ?_
    obtain hs | ⟨hs, -⟩ := updateServiceResources_cases m svc cpu mem headroom
    · rw [Scaling.run, hs]
    · rw [Scaling.run, hs]
      rfl
  | increaseHostCapacity _ mem =>
    refine hf.mapHosts (fun _ => rfl) (fun _ => rfl) ?_
    by_cases hd : 0 < mem
    · exact .inr (by_contra fun hne => hop ⟨hd, hne⟩)
    · exact .inl fun h => if_neg hd
  | decreaseHostCapacity _ mem =>
    rw [Scaling.run]
    unfold Manager.decreaseHostCapacity
    split
    · exact hf
    · split
      · exact hf
      · refine hf.mapHosts (fun _ => rfl) (fun _ => rfl) ?_
        by_cases hd : mem < 0
        · exact .inr (by_contra fun hne => hop ⟨hd, hne⟩)
        · exact .inl fun h => if_neg hd
  | scaleOutHosts target =>
    rw [Scaling.run]
    unfold Manager.scaleOutHosts
    simp only
    split_ifs
    · exact hf
    · split
      · exact hf
      · exact hf.foldl_addAutoHost hm _ target _
  | scaleInHosts =>
    refine hf.keep hmem fun h hh _ => ?_
    rw [Scaling.run] at hh
    unfold Manager.scaleInHosts at hh
    simp only at hh
    split_ifs at hh
    · exact mem_map_of_mem hh
    · exact mem_map_of_mem hh
    · exact mem_map_of_mem (mem_of_mem_filter hh)
  | setScaleDownDrainTimeout =>
    refine hf.keep_gauges hmem ?_
    rw [Scaling.run]
    unfold Manager.setScaleDownDrainTimeout
    split <;> rfl

/-! ### Draining -/

/-- Removing an instance that holds no memory of the host leaves a right gauge right. -/
theorem Manager.Fresh.removeIdle (hf : m.Fresh hostID) (hm : m.ledger.Placed) {id : String}
    (t : Time) (hz : ∀ a ∈ m.ledger.accounts, a.id = id → a.hostID = hostID →
      a.activeMemoryMB = 0) :
    (m.removeInstance id t false).Fresh hostID := by
  have hmem : (m.removeInstance id t false).memoryInUse hostID = m.memoryInUse hostID := by
    rw [← memoryOn_ledger, ← memoryOn_ledger, ledger_removeInstance hm]
    refine Ledger.memoryOn_filter _ fun a ha hk => hz a ha ?_
    simpa using hk
  refine hf.keep_gauges hmem ?_
  unfold removeInstance
  split
  · rfl
  · exact map_changed_eq (fun _ => by rfl) m.hosts

/-- The account of an instance that is evicted. -/
def Account.cleared (a : Account) : Account :=
  { a with activeRequests := 0, activeMemoryMB := 0 }

/-- The manager after the accounting of an instance has been cleared. -/
def Manager.evict (m : Manager) (i : ServiceInstance) (t : Time) : Manager :=
  ((m.modifyInstance i.id fun i => evictResourceState i t).updateHostCPU i.hostID
    t).updateHostMemory i.hostID

/-- Nothing waits on an instance, so an eviction clears its work and its memory only. -/
theorem ledger_evictResourceState (hm : m.ledger.Placed) (id : String) (t : Time) :
    (m.modifyInstance id fun i => evictResourceState i t).ledger =
      m.ledger.modify id Account.cleared := by
  have hmap : (m.instances.map fun i => if i.id = id then evictResourceState i t else i).map
      ServiceInstance.account = (m.instances.map ServiceInstance.account).map fun a =>
        if a.id = id then a.cleared else a := by
    simp only [map_map]
    refine map_congr_left fun i hi => ?_
    have hid : i.account.id = i.id := rfl
    have hq : i.requestQueue = [] := hm.queue i.account (mem_map_of_mem hi)
    simp only [Function.comp_apply, hid]
    split
    · simp only [ServiceInstance.account, evictResourceState, cleared, hq]
    · rfl
  simp only [ledger, modifyInstance, Ledger.modify, hmap]

theorem removeInstance_evict (hm : m.ledger.Placed) {i : ServiceInstance} (hi : i ∈ m.instances)
    (t : Time) : m.removeInstance i.id t true = (m.evict i t).removeInstance i.id t false := by
  have hf := instance?_eq_some hm hi
  have hc : (m.evict i t).instance? i.id = some (evictResourceState i t) := by
    have hids : ((fun j : ServiceInstance => j.id == i.id) ∘ fun j =>
        if j.id = i.id then evictResourceState j t else j) = fun j => j.id == i.id := by
      funext j
      simp only [Function.comp_apply]
      split <;> rfl
    have hf' : m.instances.find? (fun j => j.id == i.id) = some i := hf
    simp only [Manager.evict, updateHostMemory, updateHostCPU, modifyHost, modifyInstance,
      instance?, find?_map, hids, hf', Option.map_some, if_true]
  unfold removeInstance
  rw [hf, hc]
  rfl

/-- An eviction sets the gauge of its host and leaves the others. -/
theorem Manager.Fresh.evict (hf : m.Fresh hostID) (hm : m.ledger.Placed)
    (hpos : m.layout.Equipped) {i : ServiceInstance} (hi : i ∈ m.instances) (t : Time) :
    (m.evict i t).Fresh hostID ∧ (m.evict i t).ledger = m.ledger.modify i.id Account.cleared ∧
      (m.evict i t).ledger.Placed := by
  set m₁ := (m.modifyInstance i.id fun i => evictResourceState i t).updateHostCPU i.hostID t
    with hm₁
  have hl : m₁.ledger = m.ledger.modify i.id cleared := by
    rw [hm₁, ledger_updateHostCPU, ledger_evictResourceState hm]
  have hp₁ : m₁.layout.Equipped := by
    have hla : m₁.layout = m.layout := by
      rw [hm₁, layout_updateHostCPU, layout_modifyInstance fun _ => by rfl]
    exact hla ▸ hpos
  have hr : (m.evict i t).ledger = m₁.ledger := ledger_updateHostMemory i.hostID
  obtain ⟨hp, hs⟩ := fresh_modify_update hm hi (g := cleared)
    (fun _ => ⟨rfl, rfl, rfl, rfl⟩) hl hp₁ (gauges_updateHostCPU i.hostID t) (.inr hf)
  exact ⟨hs, hr.trans hl, hr ▸ hp⟩

/-- Removing an overdue instance leaves right gauges right. -/
theorem Manager.Fresh.removeOverdue (hfr : m.Fresh hostID) (hm : m.ledger.Placed)
    (hpos : m.layout.Equipped) (id : String) (t : Time) :
    (m.removeInstance id t true).Fresh hostID := by
  cases hf : m.instance? id with
  | none => simpa [removeInstance, hf] using hfr
  | some i =>
    have hi := mem_of_find?_eq_some hf
    have hid : i.id = id := by simpa using find?_some hf
    subst hid
    obtain ⟨he, hl, hp⟩ := hfr.evict hm hpos hi t
    rw [removeInstance_evict hm hi]
    refine he.removeIdle hp t fun a ha hid _ => ?_
    rw [hl] at ha
    obtain ⟨b, -, rfl⟩ := mem_map.1 ha
    by_cases hb : b.id = i.id
    · simp only [if_pos hb]
      rfl
    · simp only [if_neg hb] at hid
      exact absurd hid hb

theorem equipped_removeInstance (hp : m.layout.Equipped) (id : String) (t : Time) (evict : Bool) :
    (m.removeInstance id t evict).layout.Equipped := by
  cases hi : m.instance? id with
  | none =>
    rw [removeInstance, hi]
    exact hp
  | some =>
    rw [layout_removeInstance hi]
    intro r hr
    obtain ⟨r', hr', rfl⟩ := mem_map.1 hr
    have hp := hp r' hr'
    split <;> exact hp

theorem Manager.Fresh.drain (hf : m.Fresh hostID) (hm : m.ledger.Placed)
    (hpos : m.layout.Equipped) {t : Time} (hop : ¬ (Operation.drain t).Unmeters m hostID) :
    (m.processDrainingInstances t).2.Fresh hostID := by
  refine (processDrainingInstances_induction (C := fun m' => m'.Fresh hostID ∧ m'.ledger.Placed ∧
    m'.layout.Equipped ∧ m'.ledger.accounts ⊆ m.ledger.accounts) ?_ ?_ fun m' h => ?_).1
  · obtain ⟨_, h⟩ := m.noteSimTime_eq t
    rw [h]
    exact ⟨hf.keep_gauges rfl rfl, hm, hpos, List.Subset.refl _⟩
  · rintro _ i evict hi - hidle ⟨hf, hp, hpos, hsub⟩
    have hs := ledger_removeInstance hp i.id t evict
    refine ⟨?_, hs ▸ hp.strike _, equipped_removeInstance hpos i.id t evict, ?_⟩
    · cases evict with
      | true => exact hf.removeOverdue hp hpos i.id t
      | false =>
        refine hf.removeIdle hp t fun a ha hid hh => by_contra fun hne => ?_
        obtain rfl := hm.eq_of_id (hsub ha) (mem_map_of_mem hi) hid
        exact hop ⟨i, hi, hidle rfl, hh, hne⟩
    · rw [hs]
      exact fun a ha => hsub (mem_of_mem_filter ha)
  · exact ⟨h.1.keep_gauges rfl rfl, (coherent_rebuildSortedInstanceCache h.2.1).toPlaced, h.2.2⟩

/-- An operation that does not unmeter a host leaves its right gauge right. -/
theorem Operation.fresh {op : Operation} (hf : m.Fresh hostID) (hm : m.ledger.Coherent)
    (hp : m.layout.Equipped) (hop : ¬ op.Unmeters m hostID) : (op.run m).Fresh hostID := by
  cases op with
  | use u => exact hf.use hm hp u
  | scale => exact hf.scaling hm hop
  | drain => exact hf.drain hm.toPlaced hp hop

/-! ### Amounts -/

/-- The amounts of memory are not negative. -/
def Operation.NonNegative : Operation → Prop
  | .use (.allocateMemory _ mb) => 0 ≤ mb
  | .use (.releaseMemory _ mb) => 0 ≤ mb
  | _ => True

theorem Operation.memory_nonneg {op : Operation} (hop : op.NonNegative) (hm : m.ledger.Coherent)
    (hnn : ∀ a ∈ m.ledger.accounts, 0 ≤ a.activeMemoryMB) :
    ∀ a ∈ (op.run m).ledger.accounts, 0 ≤ a.activeMemoryMB := by
  cases op with
  | use u =>
    have hmo : ∀ {id : String} {g : Account → Account},
        (∀ a : Account, 0 ≤ a.activeMemoryMB → 0 ≤ (g a).activeMemoryMB) →
        ∀ a ∈ (m.ledger.modify id g).accounts, 0 ≤ a.activeMemoryMB := by
      intro id g hg a ha
      obtain ⟨b, hb, rfl⟩ := mem_map.1 ha
      split
      · exact hg b (hnn b hb)
      · exact hnn b hb
    have hbo := u.books hm
    have hr : (Operation.use u).run m = u.run m := rfl
    rw [hr]
    generalize (u.run m).ledger = L at hbo
    cases hbo with
    | same => exact hnn
    | enter => exact hmo fun a ha => ha
    | leave => exact hmo fun a ha => ha
    | take => exact hmo fun a ha => add_nonneg ha hop
    | give =>
      refine hmo fun a ha => ?_
      unfold give
      split_ifs with hle
      · exact sub_nonneg.2 hle
      · exact ha
  | scale op =>
    obtain ⟨-, g, _, hacc, hg, hn⟩ := (coherent_scaling hm op).2
    intro a ha
    have ha : a ∈ (op.run m).2.ledger.accounts := ha
    rw [hacc] at ha
    rcases mem_append.1 ha with ha | ha
    · obtain ⟨b, hb, rfl⟩ := mem_map.1 ha
      rw [(hg b hb).2.2.1]
      exact hnn b hb
    · rw [(hn a ha).2.2.1]
  | drain t =>
    intro a ha
    have ha : a ∈ (m.processDrainingInstances t).2.ledger.accounts := ha
    rw [(drained_processDrainingInstances hm t).accounts] at ha
    exact hnn a (mem_of_mem_filter ha)

theorem ManagedBy.memory_nonneg {sc : Scenario}
    (hm : ManagedBy (fun _ op => op.NonNegative) sc m) (hostID : String) :
    0 ≤ m.memoryInUse hostID := by
  have hnn : ∀ a ∈ m.ledger.accounts, 0 ≤ a.activeMemoryMB := by
    induction hm with
    | init _ hv h =>
      intro a ha
      rw [((coherent_initializeFromScenario (accepted_of_valid hv).hosts h).2 a ha).2.2]
    | step hm op hok ih => exact op.memory_nonneg hok hm.coherent ih
  rw [← memoryOn_ledger]
  refine sum_nonneg fun x hx => ?_
  obtain ⟨a, ha, rfl⟩ := mem_map.1 hx
  exact hnn a (mem_of_mem_filter ha)

end Operations

end SimCore.Resource
