import SimCore.Resource.Instance

/-!
# The resource manager

Hosts, instances and the operations that the event handlers run on them: reservation and release
of CPU, memory and datastore slots, removal of draining instances, and the placement of the initial
instances. Maps with a default value are functions.

## Main definitions

* `Manager`: hosts, instances, the routing cache and its cursors
* `Manager.initializeFromScenario`: first-fit placement of all replicas
* `Manager.reserveCPUWork`, `Manager.allocateMemory`, `Manager.allocateCPU` and their inverses
* `Manager.processDrainingInstances`: removal of idle or overdue draining instances
-/

namespace SimCore.Resource

open Config List

/-- Hosts, instances and routing state. -/
structure Manager where
  hosts : List Host := []
  instances : List ServiceInstance := []
  hostToInstances : String → List String := fun _ => []
  sortedServiceInstMap : String → List String := fun _ => []
  roundRobinIdx : String → Nat := fun _ => 0
  weightedRoundRobinIdx : String → Nat := fun _ => 0
  routingDraws : Nat := 0
  serviceRouting : String → Option RoutingPolicy := fun _ => none
  endpointRouting : String → Option RoutingPolicy := fun _ => none
  nextInstanceID : Nat := 0
  lastSimTime : Option Time := none
  drainTimeout : Int := 0

namespace Manager

/-- `GetServiceInstance`. -/
def instance? (m : Manager) (id : String) : Option ServiceInstance :=
  m.instances.find? (·.id == id)

/-- `GetHost`. -/
def host? (m : Manager) (id : String) : Option Host :=
  m.hosts.find? (·.id == id)

/-- Applies a change to one instance. -/
def modifyInstance (m : Manager) (id : String) (f : ServiceInstance → ServiceInstance) : Manager :=
  { m with instances := m.instances.map fun i => if i.id = id then f i else i }

/-- Applies a change to one host. -/
def modifyHost (m : Manager) (id : String) (f : Host → Host) : Manager :=
  { m with hosts := m.hosts.map fun h => if h.id = id then f h else h }

/-- The instances on a host, in the order they were placed. -/
def collectInstancesForHost (m : Manager) (hostID : String) : List ServiceInstance :=
  (m.hostToInstances hostID).filterMap m.instance?

/-- Recomputes the CPU utilisation of a host. -/
def updateHostCPU (m : Manager) (hostID : String) (t : Time) : Manager :=
  m.modifyHost hostID fun h => h.updateCPUUtilization t (m.collectInstancesForHost hostID)

def updateHostMemory (m : Manager) (hostID : String) : Manager :=
  m.modifyHost hostID fun h => h.updateMemoryUtilization (m.collectInstancesForHost hostID)

/-- Records the latest simulation time. -/
def noteSimTime (m : Manager) (t : Time) : Manager :=
  match m.lastSimTime with
  | some last => if t > last then { m with lastSimTime := some t } else m
  | none => { m with lastSimTime := some t }

/-- Reserves the next CPU interval on an instance. -/
def reserveCPUWork (m : Manager) (id : String) (arrival : Time) (cpuDemandMs : ℚ) :
    Option ((Time × Time) × Manager) :=
  (m.instance? id).map fun inst =>
    ((inst.reserveCPUWork arrival cpuDemandMs).1,
      m.modifyInstance id fun i => (i.reserveCPUWork arrival cpuDemandMs).2)

variable {m m' : Manager} {id : String} {arrival : Time}

theorem reserveCPUWork_span {cpuDemandMs : ℚ} {span : Time × Time}
    (h : m.reserveCPUWork id arrival cpuDemandMs = some (span, m')) :
    arrival ≤ span.1 ∧ span.1 ≤ span.2 := by
  obtain ⟨inst, -, heq⟩ := Option.map_eq_some_iff.1 h
  obtain ⟨rfl, -⟩ := Prod.mk.inj heq
  exact ⟨inst.le_reserveCPUWork_start arrival cpuDemandMs,
    inst.reserveCPUWork_start_le arrival cpuDemandMs⟩

/-- A reserved interval is as long as the work takes on the cores of its instance. -/
theorem reserveCPUWork_finish {cpuDemandMs : ℚ} {span : Time × Time}
    (h : m.reserveCPUWork id arrival cpuDemandMs = some (span, m')) :
    ∃ inst, m.instance? id = some inst ∧
      span.2 = span.1 + ServiceInstance.cpuServiceTime inst.cpuCores cpuDemandMs := by
  obtain ⟨inst, hi, heq⟩ := Option.map_eq_some_iff.1 h
  obtain ⟨rfl, -⟩ := Prod.mk.inj heq
  exact ⟨inst, hi, rfl⟩

/-- Reserves a datastore slot on an instance; returns the end of the work and the wait. -/
def reserveDBWork (m : Manager) (id : String) (arrival : Time) (durMs : ℚ) (maxSlots : Int) :
    Option ((Time × ℚ) × Manager) :=
  (m.instance? id).map fun inst =>
    ((inst.reserveDBWork arrival durMs maxSlots).1,
      m.modifyInstance id fun i => (i.reserveDBWork arrival durMs maxSlots).2)

theorem le_reserveDBWork_end {durMs : ℚ} {maxSlots : Int} {res : Time × ℚ}
    (h : m.reserveDBWork id arrival durMs maxSlots = some (res, m')) : arrival ≤ res.1 := by
  obtain ⟨inst, -, heq⟩ := Option.map_eq_some_iff.1 h
  obtain ⟨rfl, -⟩ := Prod.mk.inj heq
  exact inst.le_reserveDBWork_end arrival durMs maxSlots

/-- Ends a pooled datastore operation. -/
def releaseDBConnection (m : Manager) (id : String) : Manager :=
  m.modifyInstance id ServiceInstance.releaseDBConnection

/-- Reverts a CPU reservation at the tail of the schedule. -/
def rollbackCPUTailReservation (m : Manager) (id : String) (cpuStart cpuEnd : Time) : Manager :=
  m.modifyInstance id fun i => i.rollbackCPUTailReservation cpuStart cpuEnd

/-- Accounts CPU time on an instance and its host. -/
def allocateCPU (m : Manager) (id : String) (cpuTimeMs : ℚ) (t : Time) : Option Manager :=
  match m.instance? id with
  | none => none
  | some inst =>
    match m.host? inst.hostID with
    | none => none
    | some _ =>
      some ((m.modifyInstance id fun i => i.allocateCPU cpuTimeMs t).updateHostCPU inst.hostID t)

/-- Accounts the end of CPU work on an instance and its host. -/
def releaseCPU (m : Manager) (id : String) (t : Time) : Manager :=
  match m.instance? id with
  | none => m
  | some inst =>
    match m.host? inst.hostID with
    | none => m
    | some _ =>
      (m.modifyInstance id ServiceInstance.releaseCPU).updateHostCPU inst.hostID t

/-- Why a memory allocation fails. -/
inductive MemoryError where
  | notFound
  | hostMemoryCapacity
deriving DecidableEq

/-- Allocates memory on an instance unless its host has no room. -/
def allocateMemory (m : Manager) (id : String) (mb : ℚ) : Except MemoryError Manager :=
  match m.instance? id with
  | none => .error .notFound
  | some inst =>
    match m.host? inst.hostID with
    | none => .error .notFound
    | some host =>
      if host.memoryGB > 0 ∧ host.memoryUtilization + mb / 1024 / host.memoryGB > 1 then
        .error .hostMemoryCapacity
      else
        .ok ((m.modifyInstance id fun i => i.allocateMemory mb).updateHostMemory inst.hostID)

/-- Returns memory of an instance. -/
def releaseMemory (m : Manager) (id : String) (mb : ℚ) : Manager :=
  match m.instance? id with
  | none => m
  | some inst =>
    match m.host? inst.hostID with
    | none => m
    | some _ => (m.modifyInstance id fun i => i.releaseMemory mb).updateHostMemory inst.hostID

/-- Takes the next request of an instance queue. -/
def dequeueRequest (m : Manager) (id : String) : Option Nat × Manager :=
  match m.instance? id with
  | none => (none, m)
  | some inst => (inst.dequeueRequest.1, m.modifyInstance id fun i => i.dequeueRequest.2)

/-! ### The routing cache and draining instances -/

/-- Insertion of a string into an ascending list. -/
def insertSorted (s : String) : List String → List String
  | [] => [s]
  | t :: ts => if s < t then s :: t :: ts else t :: insertSorted s ts

def sortStrings (ss : List String) : List String :=
  ss.foldl (fun acc s => insertSorted s acc) []

/-- Rebuilds the cache of routable instances of every service, sorted by id. -/
def rebuildSortedInstanceCache (m : Manager) : Manager :=
  let cache := fun svc =>
    sortStrings ((m.instances.filter fun i => i.isRoutable && i.serviceName == svc).map (·.id))
  { m with sortedServiceInstMap := cache
           roundRobinIdx := fun svc =>
            if (cache svc).length > 0 ∧ m.roundRobinIdx svc ≥ (cache svc).length then 0
            else m.roundRobinIdx svc }

/-- Clears the accounting of an instance that is evicted at its drain deadline. -/
def evictResourceState (i : ServiceInstance) (t : Time) : ServiceInstance :=
  { i with activeRequests := 0, activeMemoryMB := 0, requestQueue := [], cpuUsageInWindow := 0
           windowStartTime := t, cpuNextFree := none, dbSlotFree := [], dbActiveConnections := 0 }

/-- Removes an instance; an evicted one is first cleared and its host recomputed. -/
def removeInstance (m : Manager) (id : String) (t : Time) (evictAccounting : Bool) : Manager :=
  match m.instance? id with
  | none => m
  | some inst =>
    let m :=
      if evictAccounting then
        ((m.modifyInstance id fun i => evictResourceState i t).updateHostCPU inst.hostID
          t).updateHostMemory inst.hostID
      else m
    { m with
      instances := m.instances.filter fun i => i.id ≠ id
      hostToInstances :=
        Function.update m.hostToInstances inst.hostID
          ((m.hostToInstances inst.hostID).filter (· ≠ id))
      hosts := m.hosts.map fun h =>
        if h.id = inst.hostID then { h with serviceInstances := h.serviceInstances.erase id }
        else h }

/-- Whether a draining instance has no work left. -/
def drainedIdle (i : ServiceInstance) : Bool :=
  i.lifecycle == .draining && i.activeRequests == 0 && i.requestQueue.isEmpty

/-- Whether a draining instance is busy past its deadline. -/
def drainOverdue (i : ServiceInstance) (t : Time) : Bool :=
  i.lifecycle == .draining && !(i.activeRequests == 0 && i.requestQueue.isEmpty) &&
    (match i.drainDeadline with
      | some deadline => decide (t ≥ deadline)
      | none => false)

/-- Removes idle and overdue draining instances; returns the requests queued on evicted ones. -/
def processDrainingInstances (m : Manager) (t : Time) : List Nat × Manager :=
  let m := m.noteSimTime t
  let evicted := m.instances.filter fun i => drainOverdue i t
  let idle := m.instances.filter drainedIdle
  let m' := evicted.foldl (fun m i => m.removeInstance i.id t true) m
  let m' := idle.foldl (fun m i => m.removeInstance i.id t false) m'
  (evicted.flatMap (·.requestQueue),
    if evicted.isEmpty ∧ idle.isEmpty then m' else m'.rebuildSortedInstanceCache)

/-! ### Initial placement -/

/-- CPU cores of an instance when the scenario gives none. -/
def defaultInstanceCPUCores : ℚ := 1

/-- Memory in MB of an instance when the scenario gives none. -/
def defaultInstanceMemoryMB : ℚ := 512

/-- The reservation of one instance of a service: cores and memory. -/
def reservation (svc : Service) : ℚ × ℚ :=
  (if svc.cpuCores = 0 then defaultInstanceCPUCores else svc.cpuCores,
    if svc.memoryMB = 0 then defaultInstanceMemoryMB else svc.memoryMB)

/-- Cores and memory reserved on a host by the instances placed so far. -/
def hostLoad (m : Manager) (hostID : String) : ℚ × ℚ :=
  let placed := m.instances.filter (·.hostID == hostID)
  ((placed.map (·.cpuCores)).sum, (placed.map (·.memoryMB)).sum)

/-- Whether the hard zone requirement of the placement admits a host. -/
def zoneAdmits (placement : Option PlacementPolicy) (h : Host) : Bool :=
  match placement with
  | none => true
  | some p =>
    p.requiredZones.isEmpty ||
      p.requiredZones.any fun z => equalFold (trimSpace h.zone) (trimSpace z)

/-- Whether no instance on the host belongs to a service the placement avoids. -/
def antiAffinityAdmits (m : Manager) (placement : Option PlacementPolicy) (hostID : String) :
    Bool :=
  match placement with
  | none => true
  | some p =>
    (m.collectInstancesForHost hostID).all fun inst =>
      p.antiAffinityServices.all fun blocked =>
        !equalFold (trimSpace blocked) (trimSpace inst.serviceName)

/-- Whether a host has room for one more instance with the given reservation. -/
def hasRoom (m : Manager) (h : Host) (cpu mem : ℚ) : Bool :=
  decide ((m.hostLoad h.id).1 + cpu ≤ h.cpuCores + 1 / 1000000000) &&
    decide ((m.hostLoad h.id).2 + mem ≤ h.memoryCapacityMB + 1 / 1000000)

/-- The first host, cyclically from `start`, that admits one more instance of a service. -/
def findHost (m : Manager) (svc : Service) (hostIDs : List String) (start : Nat) : Option Host :=
  ((List.range hostIDs.length).filterMap fun j =>
    (hostIDs[(start + j) % hostIDs.length]?).bind m.host?).find? fun h =>
      zoneAdmits svc.placement h && m.antiAffinityAdmits svc.placement h.id &&
        m.hasRoom h (reservation svc).1 (reservation svc).2

def instanceName (serviceID : String) (n : Nat) : String :=
  serviceID ++ "-instance-" ++ itoa n

/-- Places one new instance of a service, with its reservation, on a host. -/
def addReplica (m : Manager) (clock : Time) (serviceID hostID : String) (cpu mem : ℚ) : Manager :=
  let id := instanceName serviceID m.nextInstanceID
  { m with
    instances := m.instances ++
      [{ id := id, serviceName := serviceID, hostID := hostID, cpuCores := cpu, memoryMB := mem
         windowStartTime := clock }]
    hosts := m.hosts.map fun h =>
      if h.id = hostID then { h with serviceInstances := h.serviceInstances ++ [id] } else h
    hostToInstances :=
      Function.update m.hostToInstances hostID (m.hostToInstances hostID ++ [id])
    nextInstanceID := m.nextInstanceID + 1 }

/-- Places one new instance of a configured service on a host. -/
def addInstance (m : Manager) (clock : Time) (svc : Service) (host : Host) : Manager :=
  m.addReplica clock svc.id host.id (reservation svc).1 (reservation svc).2

/-- Places the replicas `replica, replica + 1, …` of a service. -/
def placeReplicas (clock : Time) (svc : Service) (hostIDs : List String) :
    Nat → Nat → Manager → Except String Manager
  | _, 0, m => .ok m
  | replica, left + 1, m =>
    match m.findHost svc hostIDs (replica % hostIDs.length) with
    | some host =>
      placeReplicas clock svc hostIDs (replica + 1) left (m.addInstance clock svc host)
    | none => .error ("cannot place service " ++ svc.id ++ ": insufficient host capacity")

/-- The manager with the routing policies of a service. -/
def routed (svc : Service) (m : Manager) : Manager :=
  let m :=
    match svc.routing with
    | some p => { m with serviceRouting := Function.update m.serviceRouting svc.id (some p) }
    | none => m
  svc.endpoints.foldl (fun m ep =>
    match ep.routing with
    | some p =>
      { m with endpointRouting :=
          Function.update m.endpointRouting (endpointKey svc.id ep.path) (some p) }
    | none => m) m

/-- Routing policies and replicas of the services, in order. -/
def placeServices (clock : Time) (hostIDs : List String) :
    List Service → Manager → Except String Manager
  | [], m => .ok m
  | svc :: rest, m => do
    let m ← placeReplicas clock svc hostIDs 0 svc.replicas.toNat (routed svc m)
    placeServices clock hostIDs rest m

/-- The runtime host of a configured one; omitted memory is 16 GB. -/
def newHost (h : Config.Host) : Host where
  id := h.id
  cpuCores := h.cores
  memoryGB := if h.memoryGB ≤ (0 : Int) then 16 else h.memoryGB
  zone := h.zone
  labels := h.labels

/-- The manager of a new run: hosts, placed instances and the routing cache. -/
def initializeFromScenario (sc : Scenario) (clock : Time) : Except String Manager := do
  let hosts := sc.hosts.map newHost
  let hostIDs := sortStrings (hosts.map (·.id))
  if hostIDs.isEmpty then .error "no hosts defined"
  else
    let m ← placeServices clock hostIDs sc.services { hosts := hosts }
    return m.rebuildSortedInstanceCache

theorem exists_routed (svc : Service) (m : Manager) : ∃ service endpoint,
    routed svc m = { m with serviceRouting := service, endpointRouting := endpoint } := by
  refine foldlRecOn (motive := fun m' => ∃ service endpoint, m' = { m with
    serviceRouting := service, endpointRouting := endpoint }) _ _ ?_ ?_
  · split <;> exact ⟨_, _, rfl⟩
  · rintro _ ⟨_, _, rfl⟩ _ -
    split <;> exact ⟨_, _, rfl⟩

/-! ### The clock of a placement -/

/-- A placement as it would be at another time. -/
def rewind (clock : Time) (m : Manager) : Manager :=
  { m with instances := m.instances.map fun i => { i with windowStartTime := clock } }

section

variable (clock clock' : Time) (m : Manager)

theorem hostLoad_rewind (hostID : String) :
    (m.rewind clock).hostLoad hostID = m.hostLoad hostID := by
  simp [hostLoad, rewind, filter_map, Function.comp_def]

theorem collectInstancesForHost_rewind (hostID : String) :
    (m.rewind clock).collectInstancesForHost hostID =
      (m.collectInstancesForHost hostID).map fun i => { i with windowStartTime := clock } := by
  have hf : ∀ id, (m.rewind clock).instance? id =
      (m.instance? id).map fun i => { i with windowStartTime := clock } := by
    intro id
    simp only [instance?, rewind, find?_map]
    rfl
  simp only [collectInstancesForHost, map_filterMap, hf]
  rfl

theorem findHost_rewind (svc : Service) (hostIDs : List String) (first : Nat) :
    (m.rewind clock).findHost svc hostIDs first = m.findHost svc hostIDs first := by
  have hr : ∀ (h : Host) (cpu mem : ℚ),
      (m.rewind clock).hasRoom h cpu mem = m.hasRoom h cpu mem := by
    intro h cpu mem
    simp only [hasRoom, hostLoad_rewind]
  have ha : ∀ placement hostID, (m.rewind clock).antiAffinityAdmits placement hostID =
      m.antiAffinityAdmits placement hostID := by
    intro placement hostID
    cases placement with
    | none => rfl
    | some => simp [antiAffinityAdmits, collectInstancesForHost_rewind, all_map, Function.comp_def]
  have hh : (m.rewind clock).host? = m.host? := rfl
  simp only [findHost, ha, hr, hh]

theorem addInstance_rewind (svc : Service) (host : Host) :
    (m.rewind clock').addInstance clock' svc host =
      (m.addInstance clock svc host).rewind clock' := by
  simp [addInstance, addReplica, rewind]

theorem placeReplicas_rewind (svc : Service) (hostIDs : List String) (replica left : Nat) :
    placeReplicas clock' svc hostIDs replica left (m.rewind clock') =
      (placeReplicas clock svc hostIDs replica left m).map (rewind clock') := by
  induction left generalizing replica m with
  | zero => rfl
  | succ _ ih =>
    rw [placeReplicas, placeReplicas, findHost_rewind]
    split
    · rw [addInstance_rewind clock]
      exact ih _ _
    · rfl

theorem placeServices_rewind (hostIDs : List String) (services : List Service) :
    placeServices clock' hostIDs services (m.rewind clock') =
      (placeServices clock hostIDs services m).map (rewind clock') := by
  induction services generalizing m with
  | nil => rfl
  | cons svc services ih =>
    have hs : routed svc (m.rewind clock') = (routed svc m).rewind clock' := by
      rw [routed, routed, ← foldl_hom (rewind clock')]
      · cases svc.routing <;> rfl
      · intro m ep
        cases ep.routing <;> rfl
    rw [placeServices, placeServices, hs, placeReplicas_rewind clock]
    cases placeReplicas clock svc hostIDs 0 svc.replicas.toNat (routed svc m) with
    | error => rfl
    | ok m₁ => exact ih m₁

end

/-- Whether the services can be placed does not depend on the clock. -/
theorem placed_of_placed {sc : Scenario} {clock : Time} {m : Manager}
    (h : initializeFromScenario sc clock = .ok m) (clock' : Time) :
    ∃ m', initializeFromScenario sc clock' = .ok m' := by
  rw [initializeFromScenario] at h ⊢
  split_ifs at h ⊢ with hn
  have hs := placeServices_rewind clock clock' { hosts := sc.hosts.map newHost }
    (sortStrings ((sc.hosts.map newHost).map (·.id))) sc.services
  rw [show rewind clock' { hosts := sc.hosts.map newHost } = { hosts := sc.hosts.map newHost }
    from rfl] at hs
  rw [hs]
  cases hplaced : placeServices clock (sortStrings ((sc.hosts.map newHost).map (·.id))) sc.services
      { hosts := sc.hosts.map newHost } with
  | error =>
    rw [hplaced] at h
    cases h
  | ok => exact ⟨_, rfl⟩

end Manager

end SimCore.Resource
