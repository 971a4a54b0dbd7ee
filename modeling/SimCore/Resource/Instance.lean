import SimCore.Config.Scenario
import Mathlib.Logic.Function.Basic

/-!
# Service instances and hosts

A service instance serves CPU work in one FIFO schedule whose tail is `cpuNextFree`, accounts memory
and active requests, and schedules datastore work on a pool of connection slots. A host aggregates
the utilisation of its instances.

## Main definitions

* `ServiceInstance` with `reserveCPUWork`, `rollbackCPUTailReservation`, `reserveDBWork`
* `Host` with `updateCPUUtilization`, `updateMemoryUtilization`
-/

namespace SimCore.Resource

/-- Whether an instance accepts new work. -/
inductive InstanceLifecycle where
  | active
  | draining
deriving DecidableEq

/-- A service instance with its resource accounting. -/
structure ServiceInstance where
  id : String
  serviceName : String
  hostID : String
  lifecycle : InstanceLifecycle := .active
  drainDeadline : Option Time := none
  cpuCores : ℚ
  memoryMB : ℚ
  cpuUsageInWindow : ℚ := 0
  windowStartTime : Time
  activeMemoryMB : ℚ := 0
  activeRequests : Nat := 0
  requestQueue : List Nat := []
  cpuNextFree : Option Time := none
  dbSlotFree : List (Option Time) := []
  dbActiveConnections : Nat := 0
deriving DecidableEq

namespace ServiceInstance

/-- The utilisation window, one second. -/
def cpuUsageWindow : Int := 1000 * millisecond

def maxDBSlotsCap : Nat := 64

/-- Whether the instance should receive new requests. -/
def isRoutable (s : ServiceInstance) : Bool :=
  s.lifecycle == .active

/-- CPU utilisation at a simulation time, within `[0, 1]`. -/
def cpuUtilizationAt (s : ServiceInstance) (t : Time) : ℚ :=
  if s.cpuCores = 0 then 0
  else if t ≥ s.windowStartTime + cpuUsageWindow then 0
  else max 0 (min 1 ((s.cpuUsageInWindow / durationToMs cpuUsageWindow) / s.cpuCores))

def memoryUtilization (s : ServiceInstance) : ℚ :=
  if s.memoryMB = 0 then 0 else s.activeMemoryMB / s.memoryMB

/-- Accounts CPU time of a request that starts. -/
def allocateCPU (s : ServiceInstance) (cpuTimeMs : ℚ) (t : Time) : ServiceInstance :=
  let s :=
    if t ≥ s.windowStartTime + cpuUsageWindow then
      { s with windowStartTime := t, cpuUsageInWindow := 0 }
    else s
  { s with cpuUsageInWindow := s.cpuUsageInWindow + cpuTimeMs
           activeRequests := s.activeRequests + 1 }

/-- Accounts the end of a request's CPU work. -/
def releaseCPU (s : ServiceInstance) : ServiceInstance :=
  { s with activeRequests := s.activeRequests - 1 }

/-- Accounts memory of a request that starts. -/
def allocateMemory (s : ServiceInstance) (mb : ℚ) : ServiceInstance :=
  { s with activeMemoryMB := s.activeMemoryMB + mb }

/-- Returns memory, unless more is returned than is in use. -/
def releaseMemory (s : ServiceInstance) (mb : ℚ) : ServiceInstance :=
  if s.activeMemoryMB ≥ mb then { s with activeMemoryMB := s.activeMemoryMB - mb } else s

/-- `math.Round` on a non-negative number of nanoseconds. -/
def roundNonneg (q : ℚ) : Int :=
  ⌊q + 1 / 2⌋

/-- Simulation time that a demand takes on the given cores. -/
def cpuServiceTime (cores cpuDemandMs : ℚ) : Int :=
  let cores := if cores < 1 / 1000000000 then 1 / 1000000000 else cores
  roundNonneg (max 0 (cpuDemandMs / cores) * millisecond)

/-- Reserves the next FIFO CPU interval of a length and moves the tail to its end. -/
def reserveCPUFor (s : ServiceInstance) (arrival : Time) (dur : Int) :
    (Time × Time) × ServiceInstance :=
  let start :=
    match s.cpuNextFree with
    | some free => if free > arrival then free else arrival
    | none => arrival
  ((start, start + dur), { s with cpuNextFree := some (start + dur) })

/-- Reserves the next FIFO CPU interval for a demand; the simulation takes durations as exact. -/
def reserveCPUWork (s : ServiceInstance) (arrival : Time) (cpuDemandMs : ℚ) :
    (Time × Time) × ServiceInstance :=
  s.reserveCPUFor arrival (cpuServiceTime s.cpuCores cpuDemandMs)

/-- Reverts the last reservation if its end is still the tail of the schedule. -/
def rollbackCPUTailReservation (s : ServiceInstance) (cpuStart cpuEnd : Time) : ServiceInstance :=
  if s.cpuNextFree = some cpuEnd then { s with cpuNextFree := some cpuStart } else s

/-- The start a connection slot can give to work arriving at a time. -/
def slotStart (arrival : Time) : Option Time → Time
  | some free => if free > arrival then free else arrival
  | none => arrival

/-- The first slot with the earliest start, with that start. -/
def bestSlot (arrival : Time) : List (Option Time) → Option (Nat × Time)
  | [] => none
  | slot :: rest =>
    match bestSlot arrival rest with
    | some (i, t) =>
      if t < slotStart arrival slot then some (i + 1, t) else some (0, slotStart arrival slot)
    | none => some (0, slotStart arrival slot)

/-- Schedules datastore work of a length on the connection pool; returns its end and the wait in
ms. -/
def reserveDBFor (s : ServiceInstance) (arrival : Time) (dur maxSlots : Int) :
    (Time × ℚ) × ServiceInstance :=
  if maxSlots ≤ 0 then ((arrival + dur, 0), s)
  else
    let slots := min maxSlots.toNat maxDBSlotsCap
    let free := s.dbSlotFree ++ List.replicate (slots - s.dbSlotFree.length) none
    match bestSlot arrival (free.take slots) with
    | none => ((arrival + dur, 0), s)
    | some (i, start) =>
      ((start + dur, max 0 ((start - arrival : Int) / 1000000)),
        { s with dbSlotFree := free.set i (some (start + dur))
                 dbActiveConnections := s.dbActiveConnections + 1 })

/-- Time that datastore work takes. -/
def dbServiceTime (durMs : ℚ) : Int :=
  roundNonneg (max 0 durMs * millisecond)

/-- Schedules datastore work; the simulation takes durations as exact. -/
def reserveDBWork (s : ServiceInstance) (arrival : Time) (durMs : ℚ) (maxSlots : Int) :
    (Time × ℚ) × ServiceInstance :=
  s.reserveDBFor arrival (dbServiceTime durMs) maxSlots

/-! ### Times of reservations -/

section Times

variable (s : ServiceInstance) (arrival : Time)

theorem roundNonneg_nonneg {q : ℚ} (hq : 0 ≤ q) : 0 ≤ roundNonneg q :=
  Int.floor_nonneg.2 (add_nonneg hq (by norm_num))

theorem cpuServiceTime_nonneg (cores cpuDemandMs : ℚ) : 0 ≤ cpuServiceTime cores cpuDemandMs :=
  roundNonneg_nonneg (mul_nonneg (le_max_left _ _) (by norm_num [millisecond]))

theorem dbServiceTime_nonneg (durMs : ℚ) : 0 ≤ dbServiceTime durMs :=
  roundNonneg_nonneg (mul_nonneg (le_max_left _ _) (by norm_num [millisecond]))

@[simp] theorem slotStart_some (free : Time) : slotStart arrival (some free) = max arrival free :=
  (max_def_lt arrival free).symm

theorem le_slotStart (slot : Option Time) : arrival ≤ slotStart arrival slot := by
  cases slot with
  | none => exact le_rfl
  | some free => simp

theorem le_reserveCPUWork_start (cpuDemandMs : ℚ) :
    arrival ≤ (s.reserveCPUWork arrival cpuDemandMs).1.1 :=
  le_slotStart arrival s.cpuNextFree

theorem reserveCPUWork_start_le (cpuDemandMs : ℚ) :
    (s.reserveCPUWork arrival cpuDemandMs).1.1 ≤ (s.reserveCPUWork arrival cpuDemandMs).1.2 :=
  le_add_of_nonneg_right (cpuServiceTime_nonneg _ _)

theorem bestSlot_ne_none (slot : Option Time) (slots : List (Option Time)) :
    bestSlot arrival (slot :: slots) ≠ none := by
  rw [bestSlot]
  split
  · split <;> simp
  · simp

/-- The first of the earliest slots is one of them, and no slot is earlier. -/
theorem bestSlot_spec {slots : List (Option Time)} {i : Nat} {t : Time}
    (h : bestSlot arrival slots = some (i, t)) :
    (∃ slot, slots[i]? = some slot ∧ slotStart arrival slot = t) ∧
      ∀ slot ∈ slots, t ≤ slotStart arrival slot := by
  induction slots generalizing i t with
  | nil => cases h
  | cons slot slots ih =>
    rw [bestSlot] at h
    split at h
    · rename_i hb
      obtain ⟨hi, hle⟩ := ih hb
      split_ifs at h with hlt
      · cases h
        exact ⟨hi, List.forall_mem_cons.2 ⟨hlt.le, hle⟩⟩
      · cases h
        exact ⟨⟨slot, rfl, rfl⟩, List.forall_mem_cons.2
          ⟨le_rfl, fun x hx => (not_lt.1 hlt).trans (hle x hx)⟩⟩
    · rename_i hn
      cases h
      cases slots with
      | nil => exact ⟨⟨slot, rfl, rfl⟩, by simp⟩
      | cons => exact absurd hn (bestSlot_ne_none arrival _ _)

theorem le_reserveDBWork_end (durMs : ℚ) (maxSlots : Int) :
    arrival ≤ (s.reserveDBWork arrival durMs maxSlots).1.1 := by
  have hd := dbServiceTime_nonneg durMs
  unfold reserveDBWork reserveDBFor
  simp only
  split
  · exact le_add_of_nonneg_right hd
  · split
    · exact le_add_of_nonneg_right hd
    · rename_i hb
      obtain ⟨⟨slot, -, rfl⟩, -⟩ := bestSlot_spec arrival hb
      exact le_add_of_le_of_nonneg (le_slotStart arrival slot) hd

end Times

/-- Ends a pooled datastore operation. -/
def releaseDBConnection (s : ServiceInstance) : ServiceInstance :=
  { s with dbActiveConnections := s.dbActiveConnections - 1 }

/-- Takes the next request of the instance queue. -/
def dequeueRequest (s : ServiceInstance) : Option Nat × ServiceInstance :=
  match s.requestQueue with
  | [] => (none, s)
  | r :: rest => (some r, { s with requestQueue := rest })

end ServiceInstance

structure Host where
  id : String
  cpuCores : Int
  memoryGB : Int
  zone : String := ""
  labels : List (String × String) := []
  cpuUtilization : ℚ := 0
  memoryUtilization : ℚ := 0
  serviceInstances : List String := []
deriving DecidableEq

namespace Host

/-- Restriction of a utilisation to `[0, 1]`. -/
def clampUnit (u : ℚ) : ℚ :=
  max 0 (min 1 u)

/-- Recomputes the CPU utilisation from the host's instances. -/
def updateCPUUtilization (h : Host) (t : Time) (instances : List ServiceInstance) : Host :=
  if instances.isEmpty then { h with cpuUtilization := 0 }
  else if h.cpuCores > 0 then
    { h with cpuUtilization :=
        clampUnit ((instances.map fun i => i.cpuUtilizationAt t * i.cpuCores).sum / h.cpuCores) }
  else h

/-- Recomputes the memory utilisation from the host's instances. -/
def updateMemoryUtilization (h : Host) (instances : List ServiceInstance) : Host :=
  if instances.isEmpty then { h with memoryUtilization := 0 }
  else if h.memoryGB > 0 then
    { h with memoryUtilization :=
        clampUnit ((instances.map ServiceInstance.activeMemoryMB).sum / 1024 / h.memoryGB) }
  else h

def memoryCapacityMB (h : Host) : ℚ :=
  (max h.memoryGB 1 : Int) * 1024

end Host

end SimCore.Resource
