import SimCore.Resource.Memory

/-!
# Memory of hosts

`AllocateMemory` compares the gauge of the host with its capacity. So it is exact as long as the
gauge is right: since the last allocation or release on the host, its capacity has not changed while
memory was in use, and no idle instance has been removed that still held memory.

## Main definitions

* `Metered`: the histories after which the gauge of a host is right

## Main results

* `allocation_exact`: on a host with a right gauge, an allocation succeeds only within the capacity
  and fails only beyond it
* `allocation_after_decrease`: after a decrease of the capacity an allocation can exceed it
-/

namespace SimCore.Resource

open Config Manager

/-- The operation sets the gauge of a host. -/
def Operation.Meters (m : Manager) (hostID : String) : Operation → Prop
  | .use (.allocateMemory id mb) =>
    ∃ i, m.instance? id = some i ∧ i.hostID = hostID ∧ (m.allocateMemory id mb).toBool = true
  | .use (.releaseMemory id _) => ∃ i, m.instance? id = some i ∧ i.hostID = hostID
  | _ => False

/-- The histories with amounts that are not negative in which, since the last allocation or release
of memory on the host, nothing can have made its gauge wrong. -/
inductive Metered (sc : Scenario) (hostID : String) : Manager → Prop
  | init {m : Manager} (clock : Time) (hv : validateScenario sc = .ok ())
      (h : initializeFromScenario sc clock = .ok m) : Metered sc hostID m
  | keep {m : Manager} (hm : Metered sc hostID m) (op : Operation) (hnn : op.NonNegative)
      (hop : ¬ op.Unmeters m hostID) : Metered sc hostID (op.run m)
  | meter {m : Manager} (hm : ManagedBy (fun _ op => op.NonNegative) sc m) (op : Operation)
      (hnn : op.NonNegative) (hop : op.Meters m hostID) : Metered sc hostID (op.run m)

variable {sc : Scenario} {hostID : String} {m m' : Manager}

theorem Metered.managed (hm : Metered sc hostID m) :
    ManagedBy (fun _ op => op.NonNegative) sc m := by
  induction hm with
  | init clock hv h => exact .init clock hv h
  | keep _ op hnn _ ih => exact .step ih op hnn
  | meter hm op hnn => exact .step hm op hnn

theorem Metered.fresh (hm : Metered sc hostID m) : m.Fresh hostID := by
  induction hm with
  | init _ hv h => exact fresh_initializeFromScenario hv h hostID
  | keep hm op _ hop ih => exact op.fresh ih hm.managed.coherent hm.managed.equipped hop
  | @meter m hm op _ hop =>
    match op, hop with
    | .use (.allocateMemory id mb), ⟨i, hi, hh, hok⟩ =>
      cases ha : m.allocateMemory id mb with
      | error => simp [ha, Except.toBool] at hok
      | ok m' =>
        have hr : (Operation.use (.allocateMemory id mb)).run m = m' := by
          simp [Operation.run, Usage.run, ha]
        rw [hr]
        exact fresh_allocateMemory hm.coherent.toPlaced hm.equipped hi ha (.inl hh)
    | .use (.releaseMemory id mb), ⟨i, hi, hh⟩ =>
      exact fresh_releaseMemory hm.coherent hm.equipped mb hi (.inl hh)

/-- What a right gauge says about an allocation. -/
theorem gauge_spec {x G : ℚ} (mb : ℚ) (hx : 0 ≤ x) (hG : 0 < G) :
    (¬ Host.clampUnit (x / 1024 / G) + mb / 1024 / G > 1 → 0 < mb ∨ x ≤ 1024 * G →
      x + mb ≤ 1024 * G) ∧
    (Host.clampUnit (x / 1024 / G) + mb / 1024 / G > 1 → 1024 * G < x + mb) := by
  have hs : ∀ y, y / 1024 / G ≤ 1 ↔ y ≤ 1024 * G := by
    intro y
    rw [div_le_iff₀ hG, div_le_iff₀ (by norm_num : (0 : ℚ) < 1024), one_mul, mul_comm]
  have ha : x / 1024 / G + mb / 1024 / G = (x + mb) / 1024 / G := by ring
  have hnn : 0 ≤ x / 1024 / G := by positivity
  constructor
  · intro hf hc
    rw [gt_iff_lt, not_lt] at hf
    by_cases ho : x ≤ 1024 * G
    · rw [Host.clampUnit, min_eq_right ((hs x).2 ho), max_eq_right hnn, ha] at hf
      exact (hs _).1 hf
    · -- the gauge shows a full host
      have hfu : 1 ≤ x / 1024 / G := le_of_not_ge fun h => ho ((hs x).1 h)
      rw [Host.clampUnit, min_eq_left hfu, max_eq_right zero_le_one] at hf
      have hp : 0 < mb / 1024 / G := by
        have := hc.resolve_right ho
        positivity
      linarith
  · intro he
    have hle : Host.clampUnit (x / 1024 / G) ≤ x / 1024 / G :=
      max_le hnn (min_le_right _ _)
    rw [← not_le, ← hs, not_le, ← ha]
    linarith

/-- On a host with a right gauge an allocation that succeeds is within the capacity, unless it is an
allocation of nothing on a host that is over its capacity already; one that fails would exceed the
capacity. -/
theorem allocation_exact (hm : Metered sc hostID m) {id : String} {i : ServiceInstance}
    (hi : m.instance? id = some i) (hhost : i.hostID = hostID) {h : Host} (hh : h ∈ m.hosts)
    (hid : h.id = hostID) (mb : ℚ) :
    (∀ m', m.allocateMemory id mb = .ok m' → (0 < mb ∨ m.memoryInUse hostID ≤ 1024 * h.memoryGB) →
        m'.memoryInUse hostID ≤ 1024 * h.memoryGB) ∧
    (m.allocateMemory id mb = .error .hostMemoryCapacity →
      1024 * h.memoryGB < m.memoryInUse hostID + mb) := by
  have hcoh := hm.managed.coherent
  have hgb : 0 < h.memoryGB := (hm.managed.equipped h.rack (List.mem_map_of_mem hh)).2
  have hgb' : (0 : ℚ) < h.memoryGB := by exact_mod_cast hgb
  obtain ⟨hfi, he⟩ := gauge_spec mb (hm.managed.memory_nonneg hostID) hgb'
  rw [← hm.fresh h hh hid] at hfi he
  have hf : m.host? i.hostID = some h := by
    obtain ⟨h', hh', hf⟩ := exists_host hcoh hi
    have hn : h'.id = i.hostID := by simpa using List.find?_some hf
    have hids : (m.hosts.map (·.id)).Nodup := hcoh.hosts
    rw [hf, List.inj_on_of_nodup_map hids hh' hh (hn.trans (hhost.trans hid.symm))]
  constructor
  · intro m' ha hc
    have hmem : m'.memoryInUse hostID = m.memoryInUse hostID + mb := by
      have hid' : i.id = id := by simpa using List.find?_some hi
      rw [← memoryOn_ledger, ← memoryOn_ledger, (ledger_allocateMemory ha).1, ← hid', ← hhost]
      exact Ledger.memoryOn_take hcoh.ids (List.mem_map_of_mem (List.mem_of_find?_eq_some hi)) mb
    rw [hmem]
    refine hfi (fun hgt => ?_) hc
    rw [allocateMemory, hi] at ha
    simp only [hf] at ha
    rw [if_pos ⟨hgb, hgt⟩] at ha
    cases ha
  · intro ha
    rw [allocateMemory, hi] at ha
    simp only [hf] at ha
    split at ha
    · rename_i hgt
      exact he hgt.2
    · cases ha

/-- A service on a host with 4 GB. -/
def fourGB : Scenario :=
  oneService [{ id := "h", cores := 2, memoryGB := 4 }] 100

/-- Allocates memory on the only instance. -/
def allocate (mb : ℚ) : Operation :=
  .use (.allocateMemory "api-instance-0" mb)

/-- Whether an allocation on the only instance is refused for lack of memory. -/
def refuses (m : Manager) (mb : ℚ) : Bool :=
  match m.allocateMemory "api-instance-0" mb with
  | .error .hostMemoryCapacity => true
  | _ => false

theorem allocateMemory_of_refuses {mb : ℚ} (h : refuses m mb = true) :
    m.allocateMemory "api-instance-0" mb = .error .hostMemoryCapacity := by
  unfold refuses at h
  split at h
  · assumption
  · cases h

theorem allocation_exact_fourGB : let m := managerAfter fourGB [allocate 2048]
    (m.allocateMemory "api-instance-0" 2048).toBool = true ∧
      m.allocateMemory "api-instance-0" 2049 = .error .hostMemoryCapacity ∧
      1024 * 4 < m.memoryInUse "h" + 2049 := by
  intro m
  have hs : ManagedBy (fun _ op => op.NonNegative) fourGB (managerAfter fourGB []) :=
    managedBy_start (by decide +kernel)
  have hm : Metered fourGB "h" m := by
    refine .meter hs (allocate 2048) (by norm_num [allocate, Operation.NonNegative]) ?_
    exact ⟨(managerAfter fourGB []).instances.head (by decide +kernel), by decide +kernel,
      by decide +kernel, by decide +kernel⟩
  have hf : m.allocateMemory "api-instance-0" 2049 = .error .hostMemoryCapacity :=
    allocateMemory_of_refuses (by decide +kernel)
  have hi : m.instance? "api-instance-0" = some (m.instances.head (by decide +kernel)) := by
    decide +kernel
  obtain ⟨-, he⟩ := allocation_exact hm hi (by decide +kernel)
    (h := m.hosts.head (by decide +kernel)) (List.head_mem _) (by decide +kernel) 2049
  have hgb : (m.hosts.head (by decide +kernel)).memoryGB = 4 := by decide +kernel
  refine ⟨by decide +kernel, hf, ?_⟩
  have hlt := he hf
  rw [hgb] at hlt
  exact_mod_cast hlt

/-- A decrease of the capacity leaves the gauge of a half full host as it was, so an allocation
succeeds although the host is full; an increase leaves the gauge of a full host, so an allocation
fails although half of the host is free. -/
theorem allocation_after_decrease :
    let half := managerAfter fourGB [allocate 2048, .scale (.decreaseHostCapacity 0 (-2))]
    let full := managerAfter fourGB [allocate 4096, .scale (.increaseHostCapacity 0 4)]
    Managed fourGB half ∧ Managed fourGB full ∧ half.hosts.map (·.memoryGB) = [2] ∧
      ((allocate 1024).run half).memoryInUse "h" = 3072 ∧
      full.hosts.map (·.memoryGB) = [8] ∧ full.memoryInUse "h" = 4096 ∧
      refuses full 1024 = true := by
  refine ⟨managed_managerAfter (by decide +kernel) _, managed_managerAfter (by decide +kernel) _,
    ?_⟩
  decide +kernel

end SimCore.Resource
