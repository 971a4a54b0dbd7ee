import SimCore.Resource.Manager

/-!
# Scaling of services and hosts

The operations of an online run on the resource manager: replicas of a service are added or drained,
the reservation of its instances changes, and hosts are added, removed, enlarged or reduced. An
operation returns an error or succeeds; one that fails may have changed the manager before.

Iteration over a Go map is in no fixed order. Where the order matters, the operation takes a `rank`
that orders the hosts.

## Main definitions

* `Manager.scaleServiceWithOptions`, `Manager.updateServiceResourcesWithHeadroom`
* `Manager.scaleOutHosts`, `Manager.scaleInHosts`, `Manager.increaseHostCapacity`,
  `Manager.decreaseHostCapacity`
* `Scaling`, `Scaling.run`: the operations and their effect
-/

namespace SimCore.Resource

open Config

/-- Tolerance of the comparisons of cores. -/
def cpuSlack : ℚ := 1 / 1000000000

/-- Tolerance of the comparisons of memory. -/
def memSlack : ℚ := 1 / 1000000

/-- Why a scaling operation fails. -/
inductive ScalingError where
  | replicasTooFew (replicas : Int)
  | serviceNotFound (serviceID : String)
  | noHosts
  /-- The source indexes an empty slice and panics. -/
  | indexOutOfRange
  | noHostHasCapacity (cpu mem : ℚ)
  | negativeResources
  | instanceInUse
  | hostCapacityExceeded
  | noTemplateHost
  | tooFewEmptyHosts (target : Int) (available : Nat)
  | hostAllocationExceeds
deriving DecidableEq

namespace Manager

/-! ### Replicas -/

/-- Cores and memory reserved on a host by its instances. -/
def reserved (m : Manager) (hostID : String) : ℚ × ℚ :=
  let placed := m.collectInstancesForHost hostID
  ((placed.map (·.cpuCores)).sum, (placed.map (·.memoryMB)).sum)

/-- Whether a host has room for a further reservation. -/
def fits (m : Manager) (h : Host) (cpu mem : ℚ) : Bool :=
  decide ((m.reserved h.id).1 + cpu ≤ h.cpuCores + cpuSlack) &&
    decide ((m.reserved h.id).2 + mem ≤ h.memoryCapacityMB + memSlack)

/-- The first host with room, cyclically from the number of instances of the service. -/
def pickHostForNewInstance (m : Manager) (serviceID : String) (cpu mem : ℚ) : Option Host :=
  let hostIDs := sortStrings (m.hosts.map (·.id))
  let start := (m.instances.filter (·.serviceName == serviceID)).length % hostIDs.length
  ((List.range hostIDs.length).filterMap fun j =>
    (hostIDs[(start + j) % hostIDs.length]?).bind m.host?).find? fun h => m.fits h cpu mem

/-- Adds `n` replicas; those placed before a failure stay. -/
def addReplicas (clock : Time) (serviceID : String) (cpu mem : ℚ) :
    Nat → Manager → Except ScalingError Unit × Manager
  | 0, m => (.ok (), m)
  | n + 1, m =>
    match m.pickHostForNewInstance serviceID cpu mem with
    | none => (.error (.noHostHasCapacity cpu mem), m)
    | some host =>
      addReplicas clock serviceID cpu mem n (m.addReplica clock serviceID host.id cpu mem)

/-- Simulated drain budget when none is configured, one hour. -/
def defaultDrainTimeout : Int := 3600 * 1000 * millisecond

/-- Simulation time and drain budget of a scale operation. -/
structure ScaleServiceOptions where
  simTime : Time
  drainTimeout : Int := 0
deriving DecidableEq

/-- The drain budget in force. -/
def effectiveDrainTimeout (m : Manager) (opts : ScaleServiceOptions) : Int :=
  if opts.drainTimeout > 0 then opts.drainTimeout
  else if m.drainTimeout > 0 then m.drainTimeout
  else defaultDrainTimeout

/-- Sets the drain budget of later scale operations. -/
def setScaleDownDrainTimeout (m : Manager) (d : Int) : Manager :=
  if d > 0 then { m with drainTimeout := d } else m

def drainInstances (m : Manager) (ids : List String) (deadline : Time) : Manager :=
  { m with instances := m.instances.map fun i =>
      if i.id ∈ ids then { i with lifecycle := .draining, drainDeadline := some deadline } else i }

/-- Changes the number of active replicas of a service. The new replicas are copies of the first
active one; without one, the source indexes an empty slice. -/
def scaleServiceWithOptions (m : Manager) (clock : Time) (serviceID : String) (newReplicas : Int)
    (opts : ScaleServiceOptions) : Except ScalingError Unit × Manager :=
  if newReplicas < 1 then (.error (.replicasTooFew newReplicas), m)
  else
    let all := m.instances.filter (·.serviceName == serviceID)
    let active := sortStrings ((all.filter (·.lifecycle == .active)).map (·.id))
    if all.isEmpty then (.error (.serviceNotFound serviceID), m)
    else if newReplicas > active.length then
      if m.hosts.isEmpty then (.error .noHosts, m)
      else match active.head?.bind m.instance? with
      | none => (.error .indexOutOfRange, m)
      | some template =>
        let res := addReplicas clock serviceID template.cpuCores template.memoryMB
          (newReplicas.toNat - active.length) m
        (res.1, if res.1.toBool then res.2.rebuildSortedInstanceCache else res.2)
    else if newReplicas < active.length then
      (.ok (), (m.drainInstances (active.drop newReplicas.toNat)
        (opts.simTime + m.effectiveDrainTimeout opts)).rebuildSortedInstanceCache)
    else (.ok (), m)

/-! ### Reservations -/

/-- Slack above the active memory when memory is reduced and no slack is given. -/
def defaultMemoryDownsizeHeadroomMB : ℚ := 16

/-- Whether the live work of an instance admits a new reservation; zero leaves a value. -/
def admitsResources (i : ServiceInstance) (cpu mem headroom : ℚ) : Bool :=
  !(decide (cpu > 0 ∧ cpu + cpuSlack < i.cpuCores) &&
      (i.activeRequests != 0 || !i.requestQueue.isEmpty)) &&
    !decide (mem > 0 ∧ mem + cpuSlack < i.memoryMB ∧ mem + cpuSlack < i.activeMemoryMB + headroom)

/-- The instance with a new reservation; zero leaves a value. -/
def setResources (i : ServiceInstance) (cpu mem : ℚ) : ServiceInstance :=
  { i with cpuCores := if cpu > 0 then cpu else i.cpuCores
           memoryMB := if mem > 0 then mem else i.memoryMB }

/-- The instances of a service with a new reservation. -/
def withResources (m : Manager) (serviceID : String) (cpu mem : ℚ) : Manager :=
  { m with instances := m.instances.map fun i =>
      if i.serviceName = serviceID then setResources i cpu mem else i }

/-- Whether a host has the capacity for what its instances reserve. A host without cores or memory
is not checked in that dimension. -/
def withinCapacity (m : Manager) (h : Host) : Bool :=
  (m.collectInstancesForHost h.id).isEmpty ||
    !decide (h.cpuCores > 0 ∧ (m.reserved h.id).1 > h.cpuCores + cpuSlack) &&
      !decide (h.memoryGB > 0 ∧ (m.reserved h.id).2 > (h.memoryGB : ℚ) * 1024 + memSlack)

/-- Changes the reservation of every instance of a service. -/
def updateServiceResourcesWithHeadroom (m : Manager) (serviceID : String)
    (cpu mem headroomMB : ℚ) : Except ScalingError Unit × Manager :=
  let instances := m.instances.filter (·.serviceName == serviceID)
  let headroom := if headroomMB ≤ 0 then defaultMemoryDownsizeHeadroomMB else headroomMB
  if cpu < 0 ∨ mem < 0 then (.error .negativeResources, m)
  else if instances.isEmpty then (.error (.serviceNotFound serviceID), m)
  else if instances.all (admitsResources · cpu mem headroom) = false then
    (.error .instanceInUse, m)
  else if m.hosts.all (m.withResources serviceID cpu mem).withinCapacity = false then
    (.error .hostCapacityExceeded, m)
  else (.ok (), m.withResources serviceID cpu mem)

/-- A change of reservations fails without effect, or fits every host. -/
theorem updateServiceResources_cases (m : Manager) (serviceID : String) (cpu mem headroomMB : ℚ) :
    (m.updateServiceResourcesWithHeadroom serviceID cpu mem headroomMB).2 = m ∨
      (m.updateServiceResourcesWithHeadroom serviceID cpu mem headroomMB).2 =
          m.withResources serviceID cpu mem ∧ 0 ≤ cpu ∧ 0 ≤ mem ∧
        ∀ h ∈ m.hosts, (m.withResources serviceID cpu mem).withinCapacity h = true := by
  unfold updateServiceResourcesWithHeadroom
  simp only
  split
  · exact .inl rfl
  · rename_i hn
    split
    · exact .inl rfl
    · generalize (if headroomMB ≤ 0 then defaultMemoryDownsizeHeadroomMB else headroomMB) = headroom
      split
      · exact .inl rfl
      · split_ifs with ha
        · exact .inl rfl
        · push Not at hn
          exact .inr ⟨rfl, hn.1, hn.2, List.all_eq_true.1 (by simpa using ha)⟩

/-! ### Hosts -/

/-- The hosts in the order of a rank. -/
def hostsInOrder (m : Manager) (rank : String → Nat) : List Host :=
  m.hosts.mergeSort fun h h' => decide (rank h.id ≤ rank h'.id)

/-- Adds one host with the capacity of a template, unless there are enough hosts or the name is
taken. -/
def addAutoHost (template : Host) (target : Int) (m : Manager) (index : Nat) : Manager :=
  let id := "host-auto-" ++ itoa index
  if (m.hosts.length : Int) < target ∧ (m.host? id).isNone then
    { m with hosts := m.hosts ++
        [{ id := id, cpuCores := template.cpuCores, memoryGB := template.memoryGB }] }
  else m

/-- Adds hosts up to a number. At most as many names as there are hosts are taken, so trying
`target` names adds all of them. -/
def scaleOutHosts (m : Manager) (target : Int) (rank : String → Nat) :
    Except ScalingError Unit × Manager :=
  let current := m.hosts.length
  if target ≤ current then (.ok (), m)
  else
    match (m.hostsInOrder rank).head? with
    | none => (.error .noTemplateHost, m)
    | some template =>
      (.ok (), (List.range' (current + 1) target.toNat).foldl (addAutoHost template target) m)

/-- Applies a change to every host. -/
def mapHosts (m : Manager) (f : Host → Host) : Manager :=
  { m with hosts := m.hosts.map f }

/-- Enlarges every host; deltas that are not positive are ignored. A sum that wraps around leaves
one core or one gigabyte. -/
def increaseHostCapacity (m : Manager) (cpuDelta memoryGBDelta : Int) : Manager :=
  m.mapHosts fun h =>
    { h with
      cpuCores := if cpuDelta > 0 then max (wrapInt64 (h.cpuCores + cpuDelta)) 1 else h.cpuCores
      memoryGB :=
        if memoryGBDelta > 0 then max (wrapInt64 (h.memoryGB + memoryGBDelta)) 1 else h.memoryGB }

/-- Whether the instances of a host fit into its capacity changed by the deltas. -/
def fitsDecreased (m : Manager) (cpuDelta memoryGBDelta : Int) (h : Host) : Bool :=
  !decide ((m.reserved h.id).1 > (max (wrapInt64 (h.cpuCores + cpuDelta)) 1 : Int) + cpuSlack) &&
    !decide ((m.reserved h.id).2 >
      ((max (wrapInt64 (h.memoryGB + memoryGBDelta)) 1 : Int) : ℚ) * 1024 + memSlack)

/-- Reduces every host; deltas that are not negative are ignored, but checked. -/
def decreaseHostCapacity (m : Manager) (cpuDelta memoryGBDelta : Int) :
    Except ScalingError Unit × Manager :=
  if cpuDelta ≥ 0 ∧ memoryGBDelta ≥ 0 then (.ok (), m)
  else if m.hosts.all (m.fitsDecreased cpuDelta memoryGBDelta) = false then
    (.error .hostAllocationExceeds, m)
  else
    (.ok (), m.mapHosts fun h =>
      { h with
        cpuCores := if cpuDelta < 0 then max (wrapInt64 (h.cpuCores + cpuDelta)) 1 else h.cpuCores
        memoryGB :=
          if memoryGBDelta < 0 then max (wrapInt64 (h.memoryGB + memoryGBDelta)) 1
          else h.memoryGB })

/-- The number of a host added by `scaleOutHosts`, `none` for other hosts. -/
def autoIndex (id : String) : Option Int :=
  if "host-auto-".isPrefixOf id then some ((atoi (String.ofList (id.toList.drop 10))).getD 0)
  else none

/-- The hosts without instances: added ones first, the latest first, then the others. -/
def emptyHosts (m : Manager) (rank : String → Nat) : List String :=
  let empty := ((m.hostsInOrder rank).map (·.id)).filter fun id => (m.hostToInstances id).isEmpty
  ((empty.filter fun id => (autoIndex id).isSome).mergeSort fun a b =>
      decide ((autoIndex b).getD 0 ≤ (autoIndex a).getD 0)) ++
    empty.filter fun id => (autoIndex id).isNone

/-- Removes hosts without instances down to a number of hosts, at least one. -/
def scaleInHosts (m : Manager) (target : Int) (rank : String → Nat) :
    Except ScalingError Unit × Manager :=
  let current := m.hosts.length
  if target ≥ current ∨ current ≤ 1 then (.ok (), m)
  else
    let toRemove := current - (max target 1).toNat
    let candidates := m.emptyHosts rank
    if candidates.length < toRemove then
      (.error (.tooFewEmptyHosts (max target 1) candidates.length), m)
    else
      let removed := candidates.take toRemove
      (.ok (), { m with
        hosts := m.hosts.filter fun h => h.id ∉ removed
        hostToInstances := fun id => if id ∈ removed then [] else m.hostToInstances id })

end Manager

/-- The operations on a resource manager outside the event handlers. -/
inductive Scaling where
  | scaleService (clock : Time) (serviceID : String) (replicas : Int)
      (opts : Manager.ScaleServiceOptions)
  | updateServiceResources (serviceID : String) (cpu mem headroom : ℚ)
  | increaseHostCapacity (cpuDelta memoryGBDelta : Int)
  | decreaseHostCapacity (cpuDelta memoryGBDelta : Int)
  | scaleOutHosts (target : Int) (rank : String → Nat)
  | scaleInHosts (target : Int) (rank : String → Nat)
  | setScaleDownDrainTimeout (d : Int)

/-- Whether an operation that takes the simulation time is given the current one. -/
def Scaling.timely (now : Time) : Scaling → Bool
  | .scaleService _ _ _ opts => opts.simTime == now
  | _ => true

/-- The result of an operation and the manager after it. -/
def Scaling.run : Scaling → Manager → Except ScalingError Unit × Manager
  | .scaleService clock svc n opts, m => m.scaleServiceWithOptions clock svc n opts
  | .updateServiceResources svc cpu mem headroom, m =>
    m.updateServiceResourcesWithHeadroom svc cpu mem headroom
  | .increaseHostCapacity cpu mem, m => (.ok (), m.increaseHostCapacity cpu mem)
  | .decreaseHostCapacity cpu mem, m => m.decreaseHostCapacity cpu mem
  | .scaleOutHosts n rank, m => m.scaleOutHosts n rank
  | .scaleInHosts n rank, m => m.scaleInHosts n rank
  | .setScaleDownDrainTimeout d, m => (.ok (), m.setScaleDownDrainTimeout d)

/-- No host becomes larger than an integer of the machine. -/
def Scaling.InRange (m : Manager) : Scaling → Prop
  | .increaseHostCapacity cpuDelta memoryGBDelta => ∀ h ∈ m.hosts,
    (0 < cpuDelta → h.cpuCores + cpuDelta < 2 ^ 63) ∧
      (0 < memoryGBDelta → h.memoryGB + memoryGBDelta < 2 ^ 63)
  | _ => True

end SimCore.Resource
