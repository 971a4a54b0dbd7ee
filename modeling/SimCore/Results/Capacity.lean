import Mathlib.Algebra.BigOperators.Ring.List
import SimCore.Improvement.Capacity
import SimCore.Resource.Operations

/-!
# Placement and the capacity prefilter

The batch search discards a candidate whose total demand exceeds the total capacity of its hosts by
more than a tolerance. Placement at the start of a run works host by host. What can be placed passes
the prefilter: the reservations on each host are within its capacity, and summed over the hosts they
are the total demand.

## Main results

* `staticCapacityOK_of_initialize`: a scenario whose instances can be placed passes the prefilter
-/

namespace SimCore.Improvement

open Config Batchspec Resource Resource.Manager List

variable {sc : Scenario} {m m' : Manager} {clock : Time}

/-! ### Sums over hosts -/

theorem sum_map_filter_key {α β : Type} [DecidableEq β] (key : α → β) (w : α → ℚ) {keys : List β}
    (hke : keys.Nodup) (l : List α) (hl : ∀ a ∈ l, key a ∈ keys) :
    (keys.map fun k => ((l.filter (key · == k)).map w).sum).sum = (l.map w).sum := by
  induction l with
  | nil => simp
  | cons a l ih =>
    have hs : (fun k => (((a :: l).filter (key · == k)).map w).sum) =
        fun k => (if k = key a then w a else 0) + ((l.filter (key · == k)).map w).sum := by
      funext k
      by_cases hk : key a = k
      · simp [hk]
      · simp [hk, Ne.symm hk]
    have ho : (keys.map fun k => if k = key a then w a else 0).sum = w a := by
      rw [sum_map_ite_eq, hke.count, if_pos (hl a mem_cons_self)]
      simp
    rw [hs, sum_map_add, ho, ih fun b hb => hl b (mem_cons_of_mem _ hb), map_cons, sum_cons]

/-! ### What placement adds -/

section

-- the cores or the memory of a reservation
variable (part : ℚ × ℚ → ℚ)

def reservedTotal (m : Manager) : ℚ :=
  (m.instances.map fun i => part (i.cpuCores, i.memoryMB)).sum

def hostSizes (m : Manager) : List (String × Int × Int) :=
  m.hosts.map fun h => (h.id, h.cpuCores, h.memoryGB)

variable {part}

theorem reservedTotal_initializeFromScenario (part : ℚ × ℚ → ℚ)
    (h : initializeFromScenario sc clock = .ok m) :
    reservedTotal part m =
        (sc.services.map fun svc => svc.replicas.toNat * part (reservation svc)).sum ∧
      hostSizes m = (sc.hosts.map newHost).map fun h => (h.id, h.cpuCores, h.memoryGB) := by
  set sizes := (sc.hosts.map newHost).map fun h => (h.id, h.cpuCores, h.memoryGB) with hsi
  refine Exists.elim (initializeFromScenario_induction (C := fun pre m => reservedTotal part m =
      (pre.map fun svc => svc.replicas.toNat * part (reservation svc)).sum ∧ hostSizes m = sizes)
    (B := fun pre svc n m => reservedTotal part m = (pre.map fun svc =>
      svc.replicas.toNat * part (reservation svc)).sum + n * part (reservation svc) ∧
        hostSizes m = sizes) ?_ ?_ ?_ ?_ h) fun _ ⟨hp, hm⟩ => hm ▸ hp
  · exact ⟨by simp [reservedTotal], hsi.symm⟩
  · rintro pre svc _ m - ⟨ht, hs⟩ _ _
    exact ⟨ht.trans (by simp), hs⟩
  · rintro pre svc n m _ _ host - - ⟨ht, hs⟩
    constructor
    · have ho : reservedTotal part (m.addInstance clock svc host) =
          reservedTotal part m + part (reservation svc) := by
        simp [reservedTotal, addInstance, addReplica]
      rw [ho, ht, Nat.cast_add, Nat.cast_one]
      ring
    · exact (map_changed_eq (fun _ => by rfl) m.hosts).trans hs
  · rintro _ _ m ⟨ht, hs⟩
    exact ⟨by simpa using ht, hs⟩

end

/-! ### The prefilter -/

/-- The reservations on a host do not exceed its capacity, up to the tolerances. -/
theorem hostLoad_le (hm : ManagedBy (fun m op => op.InRange m) sc m)
    (hsc : ∀ svc ∈ sc.services, 0 ≤ svc.cpuCores ∧ 0 ≤ svc.memoryMB) {h : Resource.Host}
    (hh : h ∈ m.hosts) :
    ((m.instances.filter (·.hostID == h.id)).map (·.cpuCores)).sum ≤ h.cpuCores + cpuSlack ∧
      ((m.instances.filter (·.hostID == h.id)).map (·.memoryMB)).sum ≤
        h.memoryCapacityMB + memSlack := by
  have hw := (ManagedBy.within hm (fun _ _ h => h) hsc).2 h.rack (mem_map_of_mem hh)
  have hid : h.rack.id = h.id := rfl
  rw [hid, load_layout] at hw
  exact hw

/-- What is reserved in total is the sum over the hosts. -/
theorem reservedTotal_eq_sum_hosts (hm : ManagedBy (fun m op => op.InRange m) sc m)
    (w : ServiceInstance → ℚ) :
    (m.hosts.map fun h => ((m.instances.filter (·.hostID == h.id)).map w).sum).sum =
      (m.instances.map w).sum := by
  have hc := ManagedBy.coherent hm
  have hids : (m.hosts.map (·.id)).Nodup := hc.hosts
  have hh : ∀ i ∈ m.instances, i.hostID ∈ m.hosts.map (·.id) := fun i hi =>
    hc.hosted i.account (mem_map_of_mem hi)
  have hs := sum_map_filter_key (·.hostID) w hids m.instances hh
  rwa [map_map] at hs

/-- A demand within the capacities and tolerances of all hosts is within the tolerance of the
prefilter. -/
theorem fitsTotal_of_sum_le (slack : ℚ) {need : ℚ} {caps : List ℚ} (hs : caps ≠ [])
    (hca : ∀ c ∈ caps, 1 ≤ c) (hsl : slack ≤ 1 / 1000)
    (hn : need ≤ (caps.map fun c => c + slack).sum) : fitsTotal need caps.sum = true := by
  have ht : (caps.map fun c => c + slack).sum ≤ (caps.map fun c => c * (1001 / 1000)).sum := by
    refine sum_le_sum fun c hc => ?_
    have := hca c hc
    linarith
  rw [sum_map_mul_right, map_id'] at ht
  have hp : 0 < caps.sum := by
    obtain ⟨c, caps, rfl⟩ := exists_cons_of_ne_nil hs
    have hr : 0 ≤ caps.sum := sum_nonneg fun c hc =>
      zero_le_one.trans (hca c (mem_cons_of_mem _ hc))
    have hc := hca c mem_cons_self
    rw [sum_cons]
    linarith
  rw [fitsTotal, if_neg (not_le.2 hp), decide_eq_true_eq]
  exact hn.trans ht

/-- A scenario whose instances can be placed passes the prefilter of the batch search. -/
theorem staticCapacityOK_of_initialize (hv : validateScenario sc = .ok ())
    (hsc : ∀ svc ∈ sc.services, 0 ≤ svc.cpuCores ∧ 0 ≤ svc.memoryMB)
    (h : initializeFromScenario sc clock = .ok m) : staticCapacityOK sc = true := by
  have hm : ManagedBy (fun m op => op.InRange m) sc m := .init clock hv h
  have ha := accepted_of_valid hv
  have hr : ∀ svc ∈ sc.services, replicaCount svc = (svc.replicas.toNat : ℚ) := by
    intro svc hsvc
    have hp := ha.replicas svc hsvc
    have hca : ((svc.replicas.toNat : Int) : ℚ) = (svc.replicas : ℚ) := by
      rw [Int.toNat_of_nonneg hp.le]
    have ho : (1 : ℚ) ≤ svc.replicas := by exact_mod_cast hp
    rw [replicaCount, if_neg (not_lt.2 ho), ← hca, Int.cast_natCast]
  have hcpu : ∀ svc ∈ sc.services, serviceCPU svc = (reservation svc).1 := fun svc hsvc => by
    simp [serviceCPU, reservation, (hsc svc hsvc).1.ge_iff_eq', defaultServiceCPUCores,
      defaultInstanceCPUCores]
  have hmem : ∀ svc ∈ sc.services, serviceMem svc = (reservation svc).2 := fun svc hsvc => by
    simp [serviceMem, reservation, (hsc svc hsvc).2.ge_iff_eq', defaultServiceMemoryMB,
      defaultInstanceMemoryMB]
  have hn : needCPU sc = (m.instances.map (·.cpuCores)).sum := by
    refine Eq.trans ?_ (reservedTotal_initializeFromScenario Prod.fst h).1.symm
    exact congrArg _ (map_congr_left fun svc hsvc => by rw [hr svc hsvc, hcpu svc hsvc])
  have hne : needMem sc = (m.instances.map (·.memoryMB)).sum := by
    refine Eq.trans ?_ (reservedTotal_initializeFromScenario Prod.snd h).1.symm
    exact congrArg _ (map_congr_left fun svc hsvc => by rw [hr svc hsvc, hmem svc hsvc])
  have hs := (reservedTotal_initializeFromScenario Prod.fst h).2
  have hco : (m.hosts.map fun h => (h.cpuCores : ℚ)) = sc.hosts.map fun h => (h.cores : ℚ) := by
    have hmap := congrArg (map fun s => (s.2.1 : ℚ)) hs
    simp only [hostSizes, map_map] at hmap
    exact hmap
  have hgb : m.hosts.map Resource.Host.memoryCapacityMB =
      sc.hosts.map fun h => (hostMem h : ℚ) * 1024 := by
    have hmap := congrArg (map fun s => (max s.2.2 1 : Int) * (1024 : ℚ)) hs
    simp only [hostSizes, map_map] at hmap
    refine hmap.trans (map_congr_left fun h _ => ?_)
    have hd : max (newHost h).memoryGB 1 = hostMem h := by
      simp only [hostMem, newHost]
      split_ifs <;> omega
    simp only [Function.comp_apply, hd]
  have hcoresPos : ∀ c ∈ m.hosts.map fun h => (h.cpuCores : ℚ), 1 ≤ c := by
    intro c hc
    rw [hco] at hc
    obtain ⟨h, hh, rfl⟩ := mem_map.1 hc
    exact_mod_cast ha.cores h hh
  have hme : ∀ c ∈ m.hosts.map Resource.Host.memoryCapacityMB, 1 ≤ c := by
    intro c hc
    obtain ⟨h, -, rfl⟩ := mem_map.1 hc
    have ho : (1 : ℚ) ≤ (max h.memoryGB 1 : Int) := by exact_mod_cast le_max_right _ _
    rw [Resource.Host.memoryCapacityMB]
    linarith
  have hho : m.hosts ≠ [] := ManagedBy.hosts_ne_nil hm
  have hse : sc.services ≠ [] := by
    intro hnil
    unfold validateScenario at hv
    split at hv
    · simp [hnil, bind_eq_ok, check_eq_ok] at hv
    · simp [hnil, bind_eq_ok, check_eq_ok] at hv
  rw [staticCapacityOK, capCPU, capMem, ← hco, ← hgb, Bool.and_eq_true, Bool.and_eq_true]
  refine ⟨⟨by simpa using hse, fitsTotal_of_sum_le cpuSlack (by simpa using hho)
    hcoresPos (by norm_num [cpuSlack]) ?_⟩, fitsTotal_of_sum_le memSlack
    (by simpa using hho) hme (by norm_num [memSlack]) ?_⟩
  · rw [hn, ← reservedTotal_eq_sum_hosts hm, map_map]
    exact sum_le_sum fun h hh => (hostLoad_le hm hsc hh).1
  · rw [hne, ← reservedTotal_eq_sum_hosts hm, map_map]
    exact sum_le_sum fun h hh => (hostLoad_le hm hsc hh).2

/-- Two replicas with default sizes fill the cores of two hosts of default memory. -/
def fullHosts : Scenario where
  hosts := [{ id := "a", cores := 1 }, { id := "b", cores := 1 }]
  services := [{ id := "api", replicas := 2, endpoints := [{ path := "/", meanCPUMs := 1 }] }]
  workload :=
    [{ source := "client", target := "api:/", arrival := { type := "poisson", rateRPS := 1 } }]

theorem staticCapacityOK_of_initialize_fullHosts :
    needCPU fullHosts = capCPU fullHosts ∧ staticCapacityOK fullHosts = true := by
  refine ⟨by decide +kernel, ?_⟩
  have hp : canPlace fullHosts = true := by decide +kernel
  simp only [canPlace, Bool.and_eq_true] at hp
  cases hv : validateScenario fullHosts with
  | error => simp [hv, Except.toBool] at hp
  | ok =>
    cases hi : initializeFromScenario fullHosts 0 with
    | error => simp [hi, Except.toBool] at hp
    | ok m => exact staticCapacityOK_of_initialize hv (by simp [fullHosts]) hi

end SimCore.Improvement
