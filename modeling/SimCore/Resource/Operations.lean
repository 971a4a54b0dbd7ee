import SimCore.Config.Accepted
import SimCore.Resource.Layout

/-!
# Histories of the resource manager

The manager starts with the placement of a validated scenario. After that it is scaled, drained and
used by requests, in any order; an operation that fails may still have changed it. Every operation
is a sequence of changes of the layout, and the books stay coherent.

## Main definitions

* `Usage`, `Operation`: what requests do with instances, and all operations
* `ManagedBy`, `Managed`: the managers that operations can reach, under a condition or in any way
* `Operated`: the histories from one manager to another

## Main results

* `Usage.unmoved`: the use of instances moves none of them
* `ManagedBy.coherent`: the books are coherent after every history
* `Operation.changes`, `Manager.changes_initializeFromScenario`: what operations and the initial
  placement do to the layout
-/

namespace SimCore.Resource

open Config Manager List

/-- What requests do with instances. -/
inductive Usage where
  | noteSimTime (t : Time)
  | selectForService (svc : String)
  | selectForRequest (oracle : RoutingOracle) (svc : String) (req : RoutingRequest) (t : Time)
  | reserveCPUWork (id : String) (arrival : Time) (cpuDemandMs : ℚ)
  | rollbackCPUTailReservation (id : String) (cpuStart cpuEnd : Time)
  | reserveDBWork (id : String) (arrival : Time) (durMs : ℚ) (maxSlots : Int)
  | releaseDBConnection (id : String)
  | allocateCPU (id : String) (cpuTimeMs : ℚ) (t : Time)
  | releaseCPU (id : String) (t : Time)
  | allocateMemory (id : String) (mb : ℚ)
  | releaseMemory (id : String) (mb : ℚ)
  | dequeueRequest (id : String)

/-- The manager after a use; one that fails has no effect. -/
def Usage.run (m : Manager) : Usage → Manager
  | .noteSimTime t => m.noteSimTime t
  | .selectForService svc =>
    match m.selectInstanceForService svc with
    | .ok (_, m') => m'
    | .error _ => m
  | .selectForRequest oracle svc req t =>
    match m.selectInstanceForRequest oracle svc req t with
    | .ok (_, m') => m'
    | .error _ => m
  | .reserveCPUWork id arrival demand =>
    match m.reserveCPUWork id arrival demand with
    | some (_, m') => m'
    | none => m
  | .rollbackCPUTailReservation id cpuStart cpuEnd =>
    m.rollbackCPUTailReservation id cpuStart cpuEnd
  | .reserveDBWork id arrival dur slots =>
    match m.reserveDBWork id arrival dur slots with
    | some (_, m') => m'
    | none => m
  | .releaseDBConnection id => m.releaseDBConnection id
  | .allocateCPU id cpuTimeMs t => (m.allocateCPU id cpuTimeMs t).getD m
  | .releaseCPU id t => m.releaseCPU id t
  | .allocateMemory id mb =>
    match m.allocateMemory id mb with
    | .ok m' => m'
    | .error _ => m
  | .releaseMemory id mb => m.releaseMemory id mb
  | .dequeueRequest id => (m.dequeueRequest id).2

/-- The operations on a resource manager. -/
inductive Operation where
  | use (u : Usage)
  | scale (op : Scaling)
  | drain (t : Time)

/-- The manager after an operation. -/
def Operation.run (m : Manager) : Operation → Manager
  | .use u => u.run m
  | .scale op => (op.run m).2
  | .drain t => (m.processDrainingInstances t).2

/-- The managers that operations under a condition can reach from the placement of a validated
scenario. -/
inductive ManagedBy (ok : Manager → Operation → Prop) (sc : Scenario) : Manager → Prop
  | init {m : Manager} (clock : Time) (hv : validateScenario sc = .ok ())
      (h : initializeFromScenario sc clock = .ok m) : ManagedBy ok sc m
  | step {m : Manager} (hm : ManagedBy ok sc m) (op : Operation) (hok : ok m op) :
      ManagedBy ok sc (op.run m)

/-- The managers that operations can reach from the placement of a validated scenario. -/
def Managed : Scenario → Manager → Prop :=
  ManagedBy fun _ _ => True

/-- The manager of a scenario after a list of operations. -/
def managerAfter (sc : Scenario) (ops : List Operation) : Manager :=
  ops.foldl Operation.run ((initializeFromScenario sc 0).toOption.getD {})

/-- The histories from one manager to another. -/
def Operated : Manager → Manager → Prop :=
  Relation.ReflTransGen fun m m' => ∃ op : Operation, m' = op.run m

/-! ### The use of instances -/

/-- Nothing moves: the layout and the routing cache stay, and a cursor moves within the cache. -/
structure Unmoved (m m' : Manager) : Prop where
  layout : m'.layout = m.layout
  cache : m'.sortedServiceInstMap = m.sortedServiceInstMap
  cursor : ∀ svc, m'.roundRobinIdx svc = m.roundRobinIdx svc ∨
    m'.roundRobinIdx svc < (m.sortedServiceInstMap svc).length

namespace Unmoved

variable {m m' : Manager}

theorem refl (m : Manager) : Unmoved m m :=
  ⟨rfl, rfl, fun _ => .inl rfl⟩

theorem modifyInstance {f : ServiceInstance → ServiceInstance} (hf : ∀ i, (f i).site = i.site)
    (id : String) : Unmoved m (m.modifyInstance id f) :=
  ⟨layout_modifyInstance hf id, rfl, fun _ => .inl rfl⟩

theorem updateHostCPU (h : Unmoved m m') (hostID : String) (t : Time) :
    Unmoved m (m'.updateHostCPU hostID t) :=
  ⟨(layout_updateHostCPU hostID t).trans h.layout, h.cache, h.cursor⟩

theorem updateHostMemory (h : Unmoved m m') (hostID : String) :
    Unmoved m (m'.updateHostMemory hostID) :=
  ⟨(layout_updateHostMemory hostID).trans h.layout, h.cache, h.cursor⟩

end Unmoved

/-- What a use of instances does to the manager. -/
inductive Usage.Effect (m : Manager) (u : Usage) : Manager → Prop
  | same : Usage.Effect m u m
  | note (last : Option Time) : Usage.Effect m u { m with lastSimTime := last }
  | select {m' : Manager} (h : m.Reselected m') : Usage.Effect m u m'
  | touch (id : String) (f : ServiceInstance → ServiceInstance)
      (hf : ∀ i, (f i).site = i.site ∧ (i.requestQueue = [] → (f i).account = i.account)) :
      Usage.Effect m u (m.modifyInstance id f)
  | work (id : String) {f : ServiceInstance → ServiceInstance} {g : Account → Account}
      (hostID : String) (t : Time) (hf : ∀ i, (f i).site = i.site ∧ (f i).account = g i.account)
      (hg : g = Account.enter ∨ g = Account.leave) :
      Usage.Effect m u ((m.modifyInstance id f).updateHostCPU hostID t)
  | memory {id : String} {f : ServiceInstance → ServiceInstance} {g : Account → Account}
      {mb : ℚ} (hostID : String) (hf : ∀ i, (f i).site = i.site ∧ (f i).account = g i.account)
      (hg : u = .allocateMemory id mb ∧ g = Account.take mb ∨
        u = .releaseMemory id mb ∧ g = Account.give mb) :
      Usage.Effect m u ((m.modifyInstance id f).updateHostMemory hostID)

theorem Usage.effect (m : Manager) (u : Usage) : u.Effect m (u.run m) := by
  cases u with
  | noteSimTime t =>
    obtain ⟨last, h⟩ := m.noteSimTime_eq t
    rw [run, h]
    exact .note last
  | selectForService =>
    rw [run]
    split
    · rename_i h
      exact .select (selectInstanceForService_spec h)
    · exact .same
  | selectForRequest =>
    rw [run]
    split
    · rename_i h
      exact .select (selectInstanceForRequest_spec h).2
    · exact .same
  | reserveCPUWork id arrival demand =>
    rw [run, Manager.reserveCPUWork]
    cases m.instance? id with
    | none => exact .same
    | some =>
      exact .touch id (fun i => (i.reserveCPUWork arrival demand).2) fun _ => ⟨rfl, fun _ => rfl⟩
  | rollbackCPUTailReservation id =>
    refine .touch id _ fun i => ?_
    unfold ServiceInstance.rollbackCPUTailReservation
    split <;> exact ⟨rfl, fun _ => rfl⟩
  | reserveDBWork id arrival dur slots =>
    rw [run, Manager.reserveDBWork]
    cases m.instance? id with
    | none => exact .same
    | some =>
      refine .touch id _ fun i => ⟨?_, fun _ => account_reserveDBWork i arrival dur slots⟩
      unfold ServiceInstance.reserveDBWork ServiceInstance.reserveDBFor
      simp only
      split
      · rfl
      · split <;> rfl
  | releaseDBConnection id => exact .touch id _ fun _ => ⟨rfl, fun _ => rfl⟩
  | allocateCPU id cpuTimeMs t =>
    rw [run, Manager.allocateCPU]
    split
    · exact .same
    · split
      · exact .same
      · refine .work id _ _ (fun i => ⟨?_, account_allocateCPU i cpuTimeMs t⟩) (.inl rfl)
        unfold ServiceInstance.allocateCPU
        split <;> rfl
  | releaseCPU id =>
    rw [run, Manager.releaseCPU]
    split
    · exact .same
    · split
      · exact .same
      · exact .work id _ _ (fun _ => ⟨rfl, rfl⟩) (.inr rfl)
  | allocateMemory =>
    rw [run, Manager.allocateMemory]
    split
    · rename_i h
      split at h
      · cases h
      · split at h
        · cases h
        · split at h
          · cases h
          · cases h
            exact .memory _ (fun _ => ⟨rfl, rfl⟩) (.inl ⟨rfl, rfl⟩)
    · exact .same
  | releaseMemory _ mb =>
    rw [run, Manager.releaseMemory]
    split
    · exact .same
    · split
      · exact .same
      · refine .memory _ (fun i => ⟨?_, account_releaseMemory i mb⟩) (.inr ⟨rfl, rfl⟩)
        unfold ServiceInstance.releaseMemory
        split <;> rfl
  | dequeueRequest id =>
    rw [run, Manager.dequeueRequest]
    split
    · exact .same
    · refine .touch id _ fun i => ?_
      unfold ServiceInstance.dequeueRequest
      split
      · exact ⟨rfl, fun _ => rfl⟩
      · rename_i hq
        exact ⟨rfl, fun hn => nomatch hq.symm.trans hn⟩

theorem Usage.unmoved (m : Manager) (u : Usage) : Unmoved m (u.run m) := by
  have he := u.effect m
  generalize u.run m = m' at he
  cases he with
  | same => exact .refl m
  | note => exact ⟨rfl, rfl, fun _ => .inl rfl⟩
  | select h =>
    obtain ⟨⟨_, _, _, rfl⟩, hc⟩ := h
    exact ⟨rfl, rfl, hc⟩
  | touch id _ hf => exact .modifyInstance (fun i => (hf i).1) id
  | work id _ _ hf => exact (Unmoved.modifyInstance (fun i => (hf i).1) id).updateHostCPU _ _
  | memory _ hf => exact (Unmoved.modifyInstance (fun i => (hf i).1) _).updateHostMemory _

variable {m : Manager}

/-- Nothing waits on an instance, so a change that it would show in its queue only changes nothing.
-/
theorem ledger_modifyInstance_idle (hm : m.ledger.Placed) {f : ServiceInstance → ServiceInstance}
    (hf : ∀ i, i.requestQueue = [] → (f i).account = i.account) (id : String) :
    (m.modifyInstance id f).ledger = m.ledger := by
  have hmap : (m.instances.map fun i => if i.id = id then f i else i).map ServiceInstance.account =
      m.instances.map ServiceInstance.account := by
    rw [map_map]
    refine map_congr_left fun i hi => ?_
    rw [Function.comp_apply, apply_ite ServiceInstance.account,
      hf i (hm.queue i.account (mem_map_of_mem hi)), ite_self]
  simp only [ledger, modifyInstance, hmap]

/-- What a use of an instance does to the books. -/
inductive Usage.Books (L : Ledger) : Usage → Ledger → Prop
  | same (u : Usage) : Usage.Books L u L
  | enter (u : Usage) (id : String) : Usage.Books L u (L.modify id Account.enter)
  | leave (u : Usage) (id : String) : Usage.Books L u (L.modify id Account.leave)
  | take (id : String) (mb : ℚ) :
      Usage.Books L (.allocateMemory id mb) (L.modify id (Account.take mb))
  | give (id : String) (mb : ℚ) :
      Usage.Books L (.releaseMemory id mb) (L.modify id (Account.give mb))

theorem Usage.books (hm : m.ledger.Coherent) (u : Usage) : u.Books m.ledger (u.run m).ledger := by
  have he := u.effect m
  generalize u.run m = m' at he
  cases he with
  | same | note => exact .same _
  | select h =>
    obtain ⟨⟨_, _, _, rfl⟩, -⟩ := h
    exact .same _
  | touch _ _ hf =>
    rw [ledger_modifyInstance_idle hm.toPlaced fun i => (hf i).2]
    exact .same _
  | work id _ _ hf hg =>
    rw [ledger_updateHostCPU, ledger_modifyInstance fun i => (hf i).2]
    obtain rfl | rfl := hg
    · exact .enter _ id
    · exact .leave _ id
  | memory _ hf hg =>
    rw [ledger_updateHostMemory, ledger_modifyInstance fun i => (hf i).2]
    obtain ⟨rfl, rfl⟩ | ⟨rfl, rfl⟩ := hg
    · exact .take _ _
    · exact .give _ _

theorem Usage.coherent (hm : m.ledger.Coherent) (u : Usage) : (u.run m).ledger.Coherent := by
  have hb := u.books hm
  generalize (u.run m).ledger = L at hb
  cases hb with
  | same => exact hm
  | enter _ id => exact hm.enter id
  | leave _ id => exact hm.leave id
  | take id mb => exact hm.take id mb
  | give id mb => exact hm.give id mb

/-! ### Histories -/

theorem Operation.coherent (hm : m.ledger.Coherent) (op : Operation) :
    (op.run m).ledger.Coherent := by
  cases op with
  | use u => exact u.coherent hm
  | scale op => exact (coherent_scaling hm op).1
  | drain t => exact (drained_processDrainingInstances hm t).coherent

section Managed

variable {ok : Manager → Operation → Prop} {sc : Scenario} {m m' : Manager}

theorem ManagedBy.valid (hm : ManagedBy ok sc m) : validateScenario sc = .ok () := by
  induction hm with
  | init _ hv => exact hv
  | step _ _ _ ih => exact ih

theorem ManagedBy.coherent (hm : ManagedBy ok sc m) : m.ledger.Coherent := by
  induction hm with
  | init _ hv h => exact (coherent_initializeFromScenario (accepted_of_valid hv).hosts h).1
  | step _ op _ ih => exact op.coherent ih

/-- A scenario is valid and its services can be placed. -/
def canPlace (sc : Scenario) : Bool :=
  (validateScenario sc).toBool && (initializeFromScenario sc 0).toBool

theorem managedBy_start (h : canPlace sc = true) : ManagedBy ok sc (managerAfter sc []) := by
  simp only [canPlace, Bool.and_eq_true] at h
  unfold managerAfter
  cases hv : validateScenario sc with
  | error => simp [hv, Except.toBool] at h
  | ok =>
    cases hi : initializeFromScenario sc 0 with
    | error => simp [hi, Except.toBool] at h
    | ok => exact .init 0 hv hi

theorem managed_managerAfter (h : canPlace sc = true) (ops : List Operation) :
    Managed sc (managerAfter sc ops) := by
  have hs : Managed sc ((initializeFromScenario sc 0).toOption.getD {}) := managedBy_start h
  unfold managerAfter
  generalize (initializeFromScenario sc 0).toOption.getD {} = m at hs
  induction ops generalizing m with
  | nil => exact hs
  | cons op _ ih => exact ih _ (.step hs op trivial)

end Managed

/-- No host becomes larger than an integer of the machine. -/
def Operation.InRange (m : Manager) : Operation → Prop
  | .scale op => op.InRange m
  | _ => True

/-- The new instances of an operation are copies. -/
def Operation.Copies (op : Operation) (m : Manager) (s : Site) : Prop :=
  match op with
  | .scale op => op.Copies m s
  | _ => False

theorem Operation.changes (hm : m.ledger.Coherent) (op : Operation) :
    Changes (fun _ => op.Copies m) (op.InRange m) m.layout (op.run m).layout := by
  cases op with
  | use u =>
    have hs : ((Operation.use u).run m).layout = m.layout := (u.unmoved m).layout
    rw [hs]
    exact .refl
  | scale op => exact changes_scaling hm op
  | drain t => exact changes_processDrainingInstances hm.toPlaced t

/-! ### The initial placement -/

/-- What the initial placement of an instance obeys: its service has replicas left, only services up
to it have instances, its host is in a required zone, and none of the services that its placement
avoids has an instance there. -/
structure Seated (pre : List Service) (svc : Service) (L : Layout) (s : Site) : Prop where
  service : s.serviceName = svc.id
  cpu : s.cpuCores = (reservation svc).1
  mem : s.memoryMB = (reservation svc).2
  declared : ∀ s' ∈ L.sites, ∃ svc' ∈ pre ++ [svc], s'.serviceName = svc'.id
  replicas : (L.sites.filter (·.serviceName == svc.id)).length < svc.replicas.toNat
  zone : ∃ h : Host, h.rack ∈ L.racks ∧ h.id = s.hostID ∧ zoneAdmits svc.placement h = true
  antiAffinity : ∀ p, svc.placement = some p → ∀ s' ∈ L.sites, s'.hostID = s.hostID →
    ∀ blocked ∈ p.antiAffinityServices,
      equalFold (trimSpace blocked) (trimSpace s'.serviceName) = false

/-- The layout of the hosts before the first instance is placed. -/
def emptyLayout (sc : Scenario) : Layout where
  racks := (sc.hosts.map newHost).map Host.rack

/-- An instance of the initial placement of a scenario, which is on the hosts of the scenario. -/
def InitialSite (sc : Scenario) (L : Layout) (s : Site) : Prop :=
  L.racks.map Rack.frame = (emptyLayout sc).racks.map Rack.frame ∧
    ∃ pre svc post, sc.services = pre ++ svc :: post ∧ Seated pre svc L s

namespace Manager

variable {m m' : Manager} {svc : Service} {hostIDs : List String} {start : Nat}

theorem holds_of_hasRoom {h : Host} {cpu mem : ℚ} (hr : m.hasRoom h cpu mem = true) :
    h.rack.Holds ((m.layout.load h.id).1 + cpu, (m.layout.load h.id).2 + mem) := by
  have hle : (m.layout.load h.id).1 + cpu ≤ h.cpuCores + cpuSlack ∧
      (m.layout.load h.id).2 + mem ≤ h.memoryCapacityMB + memSlack := by
    simpa [hasRoom, hostLoad_eq, cpuSlack, memSlack] using hr
  exact hle

theorem findHost_spec {h : Host} (hf : m.findHost svc hostIDs start = some h) :
    h ∈ m.hosts ∧ zoneAdmits svc.placement h = true ∧
      m.antiAffinityAdmits svc.placement h.id = true ∧
      m.hasRoom h (reservation svc).1 (reservation svc).2 = true := by
  have ha := find?_some (p := fun h => zoneAdmits svc.placement h &&
    m.antiAffinityAdmits svc.placement h.id && m.hasRoom h (reservation svc).1 (reservation svc).2)
    hf
  simp only [Bool.and_eq_true] at ha
  exact ⟨mem_hosts_of_find hf, ha.1.1, ha.1.2, ha.2⟩

/-- The host that the initial placement finds takes the instance. -/
theorem seated_of_findHost (hm : m.ledger.Placed) {pre : List Service} {host : Host}
    (hf : m.findHost svc hostIDs start = some host)
    (hd : ∀ i ∈ m.instances, ∃ svc' ∈ pre ++ [svc], i.serviceName = svc'.id)
    (hc : (m.instances.filter (·.serviceName == svc.id)).length < svc.replicas.toNat) :
    Seated pre svc m.layout
      (m.newSite svc.id host.id (reservation svc).1 (reservation svc).2) := by
  obtain ⟨hmem, hz, ha, -⟩ := findHost_spec hf
  refine ⟨rfl, rfl, rfl, fun s hs => ?_, ?_, ⟨host, mem_map_of_mem hmem, rfl, hz⟩, ?_⟩
  · obtain ⟨i, hi, rfl⟩ := mem_map.1 hs
    exact hd i hi
  · have hsi : (m.layout.sites.filter (·.serviceName == svc.id)).length =
        (m.instances.filter (·.serviceName == svc.id)).length := by
      simp only [layout, filter_map, length_map]
      rfl
    exact hsi ▸ hc
  · intro p hp s hs hh blocked hb
    obtain ⟨i, hi, rfl⟩ := mem_map.1 hs
    simp only [antiAffinityAdmits, hp, collectInstancesForHost_eq hm, all_eq_true,
      Bool.not_eq_eq_eq_not, Bool.not_true] at ha
    have hh : i.hostID = host.id := hh
    exact ha i (mem_filter.2 ⟨hi, by simp [hh]⟩) blocked hb

/-- The layout while the replicas of a service are placed: changes of the empty layout on the same
hosts, with instances of the services up to it. -/
structure Placing (sc : Scenario) (svcs : List Service) (m : Manager) : Prop where
  changes : Changes (InitialSite sc) True (emptyLayout sc) m.layout
  frames : m.layout.racks.map Rack.frame = (emptyLayout sc).racks.map Rack.frame
  placed : m.ledger.Placed
  declared : ∀ i ∈ m.instances, ∃ svc ∈ svcs, i.serviceName = svc.id

/-- One more replica is placed. -/
theorem Placing.add {sc : Scenario} {pre post : List Service} {host : Host}
    (hm : Placing sc (pre ++ [svc]) m) (hsc : sc.services = pre ++ svc :: post)
    (hc : (m.instances.filter (·.serviceName == svc.id)).length < svc.replicas.toNat)
    (hf : m.findHost svc hostIDs start = some host) (clock : Time) :
    Placing sc (pre ++ [svc]) (m.addInstance clock svc host) := by
  obtain ⟨hmem, -, -, hr⟩ := findHost_spec hf
  have hs := seated_of_findHost hm.placed hf hm.declared hc
  exact ⟨hm.changes.tail (change_addReplica hm.placed hmem clock
      ⟨hm.frames, pre, svc, post, hsc, hs⟩ (holds_of_hasRoom hr)),
    (frame_addReplica ..).trans hm.frames, placed_addReplica hm.placed hmem ..,
    forall_mem_append.2 ⟨hm.declared, forall_mem_singleton.2 ⟨svc, by simp, rfl⟩⟩⟩

theorem changes_initializeFromScenario {sc : Scenario} {clock : Time}
    (hv : validateScenario sc = .ok ()) (h : initializeFromScenario sc clock = .ok m) :
    Changes (InitialSite sc) True (emptyLayout sc) m.layout := by
  have ha := accepted_of_valid hv
  refine Exists.elim (initializeFromScenario_induction (C := Placing sc) (B := fun pre svc n m =>
    Placing sc (pre ++ [svc]) m ∧ (∃ post, sc.services = pre ++ svc :: post) ∧
      (m.instances.filter (·.serviceName == svc.id)).length = n) ?_ ?_ ?_ (fun h => h.1) h)
    fun _ ⟨hp, hm⟩ => hm ▸ hp.changes
  · refine ⟨.refl, rfl, ?_, by simp⟩
    constructor <;> simp [ledger, newHost, Function.comp_def, ha.hosts]
  · intro pre svc post m hsc hm service endpoint
    refine ⟨⟨hm.changes, hm.frames, hm.placed, fun i hi => ?_⟩, ⟨post, hsc⟩, ?_⟩
    · obtain ⟨svc', hs', hna⟩ := hm.declared i hi
      exact ⟨svc', mem_append_left _ hs', hna⟩
    · -- services have distinct names, so the service has no instance yet
      refine length_eq_zero_iff.2 (filter_eq_nil_iff.2 fun i hi hs => ?_)
      obtain ⟨svc', hs', hna⟩ := hm.declared i hi
      have hids := ha.services
      rw [hsc, map_append, map_cons] at hids
      exact (nodup_append.1 hids).2.2 svc'.id (mem_map_of_mem hs') svc.id
        mem_cons_self (hna.symm.trans (by simpa using hs))
  · rintro _ _ n m _ _ _ hn hf ⟨hm, ⟨post, hsc⟩, hc⟩
    refine ⟨hm.add hsc (hc.trans_lt hn) hf clock, ⟨post, hsc⟩, ?_⟩
    simp [addInstance, addReplica, hc]

end Manager

/-! ### Failing operations -/

namespace Manager

/-- Whether the first of the replicas that a scale-up adds finds a host. -/
def placesFirst (m : Manager) (svc : String) : Bool :=
  match (m.activeIDs svc).head?.bind m.instance? with
  | some template => (m.pickHostForNewInstance svc template.cpuCores template.memoryMB).isSome
  | none => false

variable {m m' : Manager}

theorem addReplicas_result (clock : Time) (svc : String) (cpu mem : ℚ) (n : Nat) (m : Manager) :
    (addReplicas clock svc cpu mem n m).1 = .ok () ∨
      (addReplicas clock svc cpu mem n m).1 = .error (.noHostHasCapacity cpu mem) := by
  induction n generalizing m with
  | zero => exact .inl rfl
  | succ _ ih =>
    simp only [addReplicas]
    split
    · exact .inr rfl
    · exact ih _

theorem nextInstanceID_addReplicas (clock : Time) (svc : String) (cpu mem : ℚ) (n : Nat)
    (m : Manager) : m.nextInstanceID ≤ (addReplicas clock svc cpu mem n m).2.nextInstanceID := by
  induction n generalizing m with
  | zero => exact le_rfl
  | succ _ ih =>
    simp only [addReplicas]
    split
    · exact le_rfl
    · rename_i host _
      exact (Nat.le_succ _).trans (ih (m.addReplica clock svc host.id cpu mem))

/-- A scale-up that fails has changed the manager if it has found a host for a replica. -/
theorem addReplicas_failed {clock : Time} {svc : String} {cpu mem : ℚ} {n : Nat} {e : ScalingError}
    (h : (addReplicas clock svc cpu mem n m).1 = .error e) :
    (addReplicas clock svc cpu mem n m).2 = m ↔
      (m.pickHostForNewInstance svc cpu mem).isSome = false := by
  cases n with
  | zero => cases h
  | succ n =>
    simp only [addReplicas] at h ⊢
    cases hpick : m.pickHostForNewInstance svc cpu mem with
    | none => simp
    | some host =>
      have hn := nextInstanceID_addReplicas clock svc cpu mem n
        (m.addReplica clock svc host.id cpu mem)
      have hsu : (m.addReplica clock svc host.id cpu mem).nextInstanceID =
          m.nextInstanceID + 1 := rfl
      refine iff_of_false (fun hs => ?_) (by simp)
      simp only [hs] at hn
      omega

end Manager

/-- A scale-up runs out of room after it has placed some of its replicas; they stay, and the routing
cache is not rebuilt. -/
def Scaling.strands (m : Manager) : Scaling → Bool
  | .scaleService clock svc n opts =>
    !(m.scaleServiceWithOptions clock svc n opts).1.toBool &&
      decide (n > (m.activeIDs svc).length) && m.placesFirst svc
  | _ => false

/-- A scale-up that fails has an effect only if it has placed a replica. -/
theorem scaleService_failed {clock : Time} {svc : String} {n : Int} {opts : ScaleServiceOptions}
    {e : ScalingError} (h : (m.scaleServiceWithOptions clock svc n opts).1 = .error e) :
    (m.scaleServiceWithOptions clock svc n opts).2 = m ↔
      (decide (n > (m.activeIDs svc).length) && m.placesFirst svc) = false := by
  have ha : sortStrings (((m.instances.filter (·.serviceName == svc)).filter
      (·.lifecycle == .active)).map (·.id)) = m.activeIDs svc := rfl
  unfold scaleServiceWithOptions at h ⊢
  simp only [ha] at h ⊢
  split_ifs at h ⊢ with ho hn hup hh hd
  · have hf : ¬ n > (m.activeIDs svc).length := by omega
    simp [hf]
  · have hnil : m.activeIDs svc = [] := by
      rw [← ha, isEmpty_iff.1 hn]
      rfl
    simp [placesFirst, hnil]
  · have hp : ∀ cpu mem, m.pickHostForNewInstance svc cpu mem = none := by
      simp [pickHostForNewInstance, isEmpty_iff.1 hh, sortStrings]
    have hr : m.placesFirst svc = false := by
      unfold placesFirst
      split <;> simp [hp]
    simp [hr]
  · unfold placesFirst
    cases htemplate : (m.activeIDs svc).head?.bind m.instance? with
    | none => simp
    | some =>
      simp only [htemplate] at h ⊢
      simp only [h, Except.toBool, Bool.false_eq_true, if_false, addReplicas_failed h, hup,
        decide_true, Bool.true_and]

/-- An operation that fails has an effect only if it strands replicas. -/
theorem Scaling.failed (op : Scaling) {e : ScalingError} (h : (op.run m).1 = .error e) :
    (op.run m).2 = m ↔ op.strands m = false := by
  cases op with
  | scaleService clock svc n opts =>
    have h : (m.scaleServiceWithOptions clock svc n opts).1 = .error e := h
    refine (scaleService_failed h).trans ?_
    simp [strands, h, Except.toBool]
  | updateServiceResources =>
    refine iff_of_true ?_ rfl
    simp only [run] at h ⊢
    unfold updateServiceResourcesWithHeadroom at h ⊢
    simp only at h ⊢
    split_ifs at h ⊢ <;> rfl
  | increaseHostCapacity => cases h
  | decreaseHostCapacity =>
    refine iff_of_true ?_ rfl
    simp only [run] at h ⊢
    unfold Manager.decreaseHostCapacity at h ⊢
    split_ifs at h ⊢
    rfl
  | scaleOutHosts =>
    refine iff_of_true ?_ rfl
    simp only [run] at h ⊢
    unfold Manager.scaleOutHosts at h ⊢
    simp only at h ⊢
    split_ifs at h ⊢
    split at h
    · rfl
    · cases h
  | scaleInHosts =>
    refine iff_of_true ?_ rfl
    simp only [run] at h ⊢
    unfold Manager.scaleInHosts at h ⊢
    simp only at h ⊢
    split_ifs at h ⊢
    rfl
  | setScaleDownDrainTimeout => cases h

/-! ### Invariants of histories -/

section Histories

variable {ok : Manager → Operation → Prop} {sc : Scenario} {m m' : Manager}

/-- What the initial placement establishes and every change keeps holds after every history. -/
theorem ManagedBy.induction {Q : Layout → Prop} (hm : ManagedBy ok sc m) (hQ : Q (emptyLayout sc))
    (hi : ∀ {L L'}, Change (InitialSite sc) True L L' → Q L → Q L')
    (hs : ∀ {m L L'} (op : Operation), ManagedBy ok sc m → Q m.layout → ok m op →
      Change (fun _ => op.Copies m) (op.InRange m) L L' → Q L → Q L') : Q m.layout := by
  induction hm with
  | init _ hv h => exact (changes_initializeFromScenario hv h).induction hi hQ
  | step hm op hok ih => exact (op.changes hm.coherent).induction (hs op hm ih hok) ih

theorem sane_emptyLayout (hsc : Accepted sc) : (emptyLayout sc).Sane := by
  refine ⟨by simp [emptyLayout], fun r hr => ?_⟩
  obtain ⟨_, hh', rfl⟩ := mem_map.1 hr
  obtain ⟨h, hh, rfl⟩ := mem_map.1 hh'
  refine ⟨hsc.cores h hh, ?_⟩
  have hp : (0 : Int) < if h.memoryGB ≤ (0 : Int) then 16 else h.memoryGB := by
    split <;> omega
  exact hp

theorem within_emptyLayout (hsc : Accepted sc) : (emptyLayout sc).Within := by
  intro r hr
  have hc : (0 : ℚ) < r.cpuCores := by exact_mod_cast ((sane_emptyLayout hsc).racks r hr).1
  simp only [Rack.Holds, Layout.load, emptyLayout, filter_nil, map_nil, sum_nil,
    Rack.memoryCapacityMB, cpuSlack, memSlack]
  constructor <;> positivity

section

variable (hm : ManagedBy ok sc m)
include hm

theorem ManagedBy.equipped : m.layout.Equipped :=
  hm.induction (sane_emptyLayout (accepted_of_valid hm.valid)).racks (fun h => h.equipped)
    fun _ _ _ _ h => h.equipped

/-- Instances with reservations that are not negative never overcommit a host whose capacity has not
wrapped around. -/
theorem ManagedBy.within (hin : ∀ m op, ok m op → op.InRange m)
    (hsc : ∀ svc ∈ sc.services, 0 ≤ svc.cpuCores ∧ 0 ≤ svc.memoryMB) :
    m.layout.Sane ∧ m.layout.Within := by
  have ha := accepted_of_valid hm.valid
  refine hm.induction (Q := fun L => L.Sane ∧ L.Within)
    ⟨sane_emptyLayout ha, within_emptyLayout ha⟩ (fun h hL => ?_)
    fun op _ hl hok h hL => ?_
  · refine ⟨h.sane (fun s hs => ?_) hL.1, h.within trivial hL.1 hL.2⟩
    obtain ⟨-, _, svc, _, hservices, hse⟩ := hs
    obtain ⟨hc, hmem⟩ := hsc svc (by simp [hservices])
    rw [hse.cpu, hse.mem, reservation]
    constructor
    · simp only
      split
      · norm_num [defaultInstanceCPUCores]
      · exact hc
    · simp only
      split
      · norm_num [defaultInstanceMemoryMB]
      · exact hmem
  · refine ⟨h.sane (fun s hs => ?_) hL.1, h.within (hin _ op hok) hL.1 hL.2⟩
    -- a copy reserves what an instance reserves already
    cases op with
    | scale =>
      obtain ⟨-, i, hi, -, hc, hmem⟩ := hs
      rw [← hc, ← hmem]
      exact hl.1.sites i.site (mem_map_of_mem hi)
    | use | drain => exact hs.elim

theorem ManagedBy.listed : m.layout.Listed := by
  refine hm.induction (fun r hr => ?_) (fun h => h.listed) fun _ _ _ _ h => h.listed
  obtain ⟨_, hh', rfl⟩ := mem_map.1 hr
  obtain ⟨h, _, rfl⟩ := mem_map.1 hh'
  rfl

theorem ManagedBy.staffed : m.layout.Staffed :=
  hm.induction (by simp [Layout.Staffed, emptyLayout]) (fun h => h.staffed)
    fun _ _ _ _ h => h.staffed

theorem ManagedBy.hosts_ne_nil : m.hosts ≠ [] := by
  have hr : m.layout.racks ≠ [] := by
    refine hm.induction (Q := fun L => L.racks ≠ []) ?_ (fun h => h.racks_ne_nil)
      fun _ _ _ _ h => h.racks_ne_nil
    simpa [emptyLayout] using (accepted_of_valid hm.valid).someHost
  intro hn
  simp [layout, hn] at hr

end

/-- Later instances that were not there before have a name that was not given out before. -/
theorem Operated.fresh (hm : m.ledger.Coherent) (h : Operated m m') :
    m'.ledger.Coherent ∧ m.nextInstanceID ≤ m'.nextInstanceID ∧
      ∀ i ∈ m'.instances, (∃ j ∈ m.instances, j.id = i.id) ∨
        ∃ svc k, m.nextInstanceID ≤ k ∧ i.id = instanceName svc k := by
  induction h with
  | refl => exact ⟨hm, le_rfl, fun i hi => .inl ⟨i, hi, rfl⟩⟩
  | @tail m₁ _ _ h ih =>
    obtain ⟨op, rfl⟩ := h
    obtain ⟨hc, hle, hold⟩ := ih
    obtain ⟨hle', hn⟩ := (op.changes hc).fresh
    refine ⟨op.coherent hc, hle.trans hle', fun i hi => ?_⟩
    obtain ⟨s, hs, hid⟩ | ⟨svc, k, hk, hid⟩ := hn i.site (mem_map_of_mem hi)
    · obtain ⟨j, hj, rfl⟩ := mem_map.1 hs
      have hid : j.id = i.id := hid
      rw [← hid]
      exact hold j hj
    · have hk : m₁.nextInstanceID ≤ k := hk
      exact .inr ⟨svc, k, hle.trans hk, hid⟩

theorem Operated.serves (hm : m.ledger.Coherent) (h : Operated m m') {svc : String}
    (hs : m.layout.Serves svc) : m'.layout.Serves svc := by
  have hb : m'.ledger.Coherent ∧ m'.layout.Serves svc := by
    induction h with
    | refl => exact ⟨hm, hs⟩
    | tail _ h ih =>
      obtain ⟨op, rfl⟩ := h
      exact ⟨op.coherent ih.1, (op.changes ih.1).serves ih.2⟩
  exact hb.2

end Histories

end SimCore.Resource
