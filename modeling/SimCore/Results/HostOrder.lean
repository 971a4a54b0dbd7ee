import Mathlib.Data.List.Perm.Subperm
import SimCore.Resource.Operations
import SimCore.Base.Sorting

/-!
# Scaling hosts and the order of the host map

A scale-out copies the capacity of the first host that the iteration over the host map yields, and a
scale-in removes hosts without instances in an order that leaves ties to that iteration. Both are
independent of the order of the map in the cases described here and in no others.

## Main definitions

* `Manager.idleHosts`: the hosts without instances
* `removalPriority`: what the order of removal looks at

## Main results

* `host_scaling_order`: when the hosts after a scale-out or a scale-in do not depend on the order of
  the map
* `host_scaling_order_matters`: a manager for which they do
-/

namespace SimCore.Resource

open Config Manager List

variable {sc : Scenario} {m : Manager} {target : Int}

/-! ### Scale-out -/

theorem foldl_addAutoHost_hosts (template : Host) (target : Int) (is : List Nat) (m : Manager) :
    ∃ added : List Host, (is.foldl (addAutoHost template target) m).hosts = m.hosts ++ added ∧
      (∀ h ∈ added, h.cpuCores = template.cpuCores ∧ h.memoryGB = template.memoryGB) ∧
      (added = [] → (m.hosts.length : Int) < target →
        ∀ i ∈ is, "host-auto-" ++ itoa i ∈ m.hosts.map (·.id)) := by
  induction is generalizing m with
  | nil => exact ⟨[], by simp, by simp, by simp⟩
  | cons i _ ih =>
    rw [foldl_cons]
    by_cases ha : (m.hosts.length : Int) < target ∧ (m.host? ("host-auto-" ++ itoa i)).isNone
    · have hs : (addAutoHost template target m i).hosts = m.hosts ++
          [{ id := "host-auto-" ++ itoa i, cpuCores := template.cpuCores
             memoryGB := template.memoryGB }] := by
        rw [addAutoHost]
        simp only [if_pos ha]
      obtain ⟨added, hho, hc, -⟩ := ih (addAutoHost template target m i)
      refine ⟨_ :: added, by rw [hho, hs, append_assoc, singleton_append], ?_, by simp⟩
      rintro h (_ | ⟨_, hh⟩)
      · exact ⟨rfl, rfl⟩
      · exact hc h hh
    · have hs : addAutoHost template target m i = m := by
        rw [addAutoHost]
        simp only [if_neg ha]
      rw [hs]
      obtain ⟨added, hho, hc, hn⟩ := ih m
      refine ⟨added, hho, hc, fun hnil hlt => ?_⟩
      rintro j (_ | ⟨_, hj⟩)
      · obtain ⟨h, hh⟩ : ∃ h, m.host? ("host-auto-" ++ itoa i) = some h := by
          rw [← Option.isSome_iff_exists, Option.isSome_iff_ne_none]
          simpa [hlt] using ha
        have hid : h.id = "host-auto-" ++ itoa i := by simpa using find?_some hh
        exact hid ▸ mem_map_of_mem (mem_of_find?_eq_some hh)
      · exact hn hnil hlt j hj

/-- Of as many names as there are to be hosts, one is free. -/
theorem exists_free_name (hlt : (m.hosts.length : Int) < target) :
    ∃ i ∈ List.range' (m.hosts.length + 1) target.toNat,
      "host-auto-" ++ itoa i ∉ m.hosts.map (·.id) := by
  by_contra hnone
  push Not at hnone
  have hinj : Function.Injective fun i => "host-auto-" ++ itoa i := fun i j h =>
    itoa_injective (by simpa using h)
  have hn : ((range' (m.hosts.length + 1) target.toNat).map
      fun i => "host-auto-" ++ itoa i).Nodup :=
    (nodup_range' 1 Nat.one_pos).map hinj
  have hs : ((range' (m.hosts.length + 1) target.toNat).map
      fun i => "host-auto-" ++ itoa i) ⊆ m.hosts.map (·.id) := by
    intro id hid
    obtain ⟨i, hi, rfl⟩ := mem_map.1 hid
    exact hnone i hi
  have hl := (List.Nodup.subperm hn hs).length_le
  rw [length_map, length_map, length_range'] at hl
  omega

/-- A host can be the first of the map. -/
theorem exists_rank_head (hi : (m.hosts.map (·.id)).Nodup) {h : Host} (hh : h ∈ m.hosts) :
    ∃ rank, (m.hostsInOrder rank).head? = some h := by
  let rank : String → Nat := fun id => if id = h.id then 0 else 1
  refine ⟨rank, ?_⟩
  have hs : (m.hostsInOrder rank).Pairwise fun a b => decide (rank a.id ≤ rank b.id) = true :=
    pairwise_mergeSort (fun a b c => by simpa using Nat.le_trans)
      (fun a b => by simpa using Nat.le_total _ _) _
  have hm : h ∈ m.hostsInOrder rank := mem_mergeSort.2 hh
  cases horder : m.hostsInOrder rank with
  | nil => simp [horder] at hm
  | cons g gs =>
    rw [horder] at hs hm
    refine congrArg some ?_
    rcases mem_cons.1 hm with rfl | ht
    · rfl
    · have hle := (pairwise_cons.1 hs).1 h ht
      have hg : g ∈ m.hosts := mem_mergeSort.1 (horder ▸ mem_cons_self (l := gs))
      have hid : g.id = h.id := by
        by_contra hne
        simp [rank, hne] at hle
      exact inj_on_of_nodup_map hi hg hh hid

/-- The hosts after a scale-out do not depend on the order of the map exactly if no host is added or
all hosts have the same capacity. -/
theorem scaleOutHosts_order (hids : (m.hosts.map (·.id)).Nodup) :
    (∀ rank rank', (m.scaleOutHosts target rank).2.hosts = (m.scaleOutHosts target rank').2.hosts) ↔
      target ≤ m.hosts.length ∨ ∀ h ∈ m.hosts, ∀ h' ∈ m.hosts,
        h.cpuCores = h'.cpuCores ∧ h.memoryGB = h'.memoryGB := by
  by_cases hle : target ≤ m.hosts.length
  · simp [scaleOutHosts, hle]
  have ha : ∀ rank template, (m.hostsInOrder rank).head? = some template →
      (m.scaleOutHosts target rank).2 = (range' (m.hosts.length + 1) target.toNat).foldl
        (addAutoHost template target) m := by
    intro rank template hhe
    simp only [scaleOutHosts, if_neg hle, hhe]
  constructor
  · refine fun hs => .inr fun h hh h' hh' => ?_
    obtain ⟨rank, hr⟩ := exists_rank_head hids hh
    obtain ⟨rank', hr'⟩ := exists_rank_head hids hh'
    have heq := hs rank rank'
    rw [ha rank h hr, ha rank' h' hr'] at heq
    obtain ⟨added, hho, hcap, hn⟩ := foldl_addAutoHost_hosts h target
      (range' (m.hosts.length + 1) target.toNat) m
    obtain ⟨added', hho', hcap', -⟩ := foldl_addAutoHost_hosts h' target
      (range' (m.hosts.length + 1) target.toNat) m
    rw [hho, hho', append_cancel_left_eq] at heq
    subst heq
    cases added with
    | nil =>
      obtain ⟨i, hi, hf⟩ := exists_free_name (m := m) (not_le.1 hle)
      exact (hf (hn rfl (not_le.1 hle) i hi)).elim
    | cons g =>
      obtain ⟨hc, hm⟩ := hcap g mem_cons_self
      obtain ⟨hc', hm'⟩ := hcap' g mem_cons_self
      exact ⟨hc.symm.trans hc', hm.symm.trans hm'⟩
  · rintro (h | hu) rank rank'
    · exact (hle h).elim
    have hp : ∀ rank, (m.hostsInOrder rank).Perm m.hosts := fun rank => mergeSort_perm _ _
    cases hho : m.hosts with
    | nil =>
      have hnil : ∀ rank, m.hostsInOrder rank = [] := fun rank => by
        simpa [hho] using hp rank
      simp [scaleOutHosts, hnil]
    | cons =>
      have hhe : ∀ rank, ∃ h, (m.hostsInOrder rank).head? = some h ∧ h ∈ m.hosts := by
        intro rank
        cases ho : m.hostsInOrder rank with
        | nil =>
          have hl := (hp rank).length_eq
          simp [ho, hho] at hl
        | cons h =>
          exact ⟨h, rfl, (hp rank).mem_iff.1 (ho ▸ mem_cons_self)⟩
      obtain ⟨h, hr, hh⟩ := hhe rank
      obtain ⟨h', hr', hh'⟩ := hhe rank'
      have hs : addAutoHost h target = addAutoHost h' target := by
        obtain ⟨hco, hmem⟩ := hu h hh h' hh'
        funext m' i
        rw [addAutoHost, addAutoHost, hco, hmem]
      rw [ha rank h hr, ha rank' h' hr', hs]

/-! ### Scale-in -/

/-- The hosts without instances. -/
def Manager.idleHosts (m : Manager) : List String :=
  (m.hosts.map (·.id)).filter fun id => (m.hostToInstances id).isEmpty

/-- What the order of removal looks at: the number of an added host; other hosts come last. -/
def removalPriority (id : String) : WithBot Int :=
  autoIndex id

theorem emptyHosts_perm_idleHosts (m : Manager) (rank : String → Nat) :
    (m.emptyHosts rank).Perm m.idleHosts :=
  (emptyHosts_perm rank).trans (((mergeSort_perm _ _).map _).filter _)

/-- Hosts are removed by descending priority, ties in the order of the map. -/
theorem emptyHosts_pairwise (hids : (m.hosts.map (·.id)).Nodup) (rank : String → Nat) :
    (m.emptyHosts rank).Pairwise (ByKey removalPriority rank) := by
  set empty := ((m.hostsInOrder rank).map (·.id)).filter fun id => (m.hostToInstances id).isEmpty
    with he
  have hn : empty.Nodup :=
    (((mergeSort_perm _ _).map _).nodup_iff.2 hids).filter _
  have hr : empty.Pairwise fun a b => rank a ≤ rank b := by
    refine List.Pairwise.filter _ (pairwise_map.2 ?_)
    have hs : (m.hostsInOrder rank).Pairwise fun h h' => decide (rank h.id ≤ rank h'.id) = true :=
      pairwise_mergeSort (fun a b c => by simpa using Nat.le_trans)
        (fun a b => by simpa using Nat.le_total _ _) m.hosts
    exact hs.imp fun h => by simpa using h
  have hau := pairwise_mergeSort_ties
    (r := fun a b => decide ((autoIndex b).getD 0 ≤ (autoIndex a).getD 0))
    (fun a b c => by simpa using fun h h' => le_trans h' h)
    (fun a b => by simpa using le_total _ _) (hn.filter fun id => (autoIndex id).isSome)
    (hr.filter fun id => (autoIndex id).isSome)
  refine pairwise_append.2 ⟨?_, ?_, ?_⟩
  · refine hau.imp_of_mem fun {a b} ha hb hab => ?_
    obtain ⟨i, hi⟩ := Option.isSome_iff_exists.1
      (mem_filter.1 (mem_mergeSort.1 ha)).2
    obtain ⟨j, hj⟩ := Option.isSome_iff_exists.1
      (mem_filter.1 (mem_mergeSort.1 hb)).2
    simp only [hi, hj, Option.getD_some, decide_eq_true_eq] at hab
    have ha : removalPriority a = (i : WithBot Int) := hi
    have hb : removalPriority b = (j : WithBot Int) := hj
    rw [ByKey, ha, hb, WithBot.coe_lt_coe, WithBot.coe_inj]
    rcases hab.1.lt_or_eq with hlt | heq
    · exact .inl hlt
    · exact .inr ⟨heq.symm, hab.2 heq.ge⟩
  · refine (hr.filter _).imp_of_mem fun {a b} ha hb hab => .inr ⟨?_, hab⟩
    have ha : removalPriority a = ⊥ := Option.isNone_iff_eq_none.1 (mem_filter.1 ha).2
    have hb : removalPriority b = ⊥ := Option.isNone_iff_eq_none.1 (mem_filter.1 hb).2
    rw [ha, hb]
  · intro a ha b hb
    obtain ⟨i, hi⟩ := Option.isSome_iff_exists.1
      (mem_filter.1 (mem_mergeSort.1 ha)).2
    have ha : removalPriority a = (i : WithBot Int) := hi
    have hb : removalPriority b = ⊥ := Option.isNone_iff_eq_none.1 (mem_filter.1 hb).2
    rw [ByKey, ha, hb]
    exact .inl (WithBot.bot_lt_coe i)

/-- The hosts after a scale-in, whether it succeeds, fails or has nothing to do. -/
theorem scaleInHosts_hosts (m : Manager) (target : Int) (rank : String → Nat) :
    (m.scaleInHosts target rank).2.hosts =
      if m.idleHosts.length < m.hosts.length - (max target 1).toNat then m.hosts
      else m.hosts.filter fun h =>
        h.id ∉ (m.emptyHosts rank).take (m.hosts.length - (max target 1).toNat) := by
  have hl := (emptyHosts_perm_idleHosts m rank).length_eq
  unfold scaleInHosts
  simp only
  split_ifs with hd hf hf' hf'
  · rfl
  · have hz : m.hosts.length - (max target 1).toNat = 0 := by omega
    simp [hz]
  · rfl
  · omega
  · omega
  · rfl

/-- The hosts after a scale-in do not depend on the order of the map exactly if hosts that the order
of removal does not distinguish are all removed or all kept. -/
theorem scaleInHosts_order (hids : (m.hosts.map (·.id)).Nodup) :
    (∀ rank rank', (m.scaleInHosts target rank).2.hosts = (m.scaleInHosts target rank').2.hosts) ↔
      SettledCut removalPriority (m.hosts.length - (max target 1).toNat) m.idleHosts := by
  set k := m.hosts.length - (max target 1).toNat with hk
  have hi : m.idleHosts.Nodup := hids.filter _
  by_cases hf : m.idleHosts.length < k
  · have hc : SettledCut removalPriority k m.idleHosts := fun id _ =>
      .inr (countP_le_length.trans hf.le)
    refine iff_of_true (fun rank rank' => ?_) hc
    rw [scaleInHosts_hosts, scaleInHosts_hosts, if_pos hf, if_pos hf]
  rw [settledCut_iff hi (emptyHosts_perm_idleHosts m) (emptyHosts_pairwise hids)]
  simp only [scaleInHosts_hosts, ← hk, if_neg hf]
  constructor
  · intro hs rank rank' id hid
    obtain ⟨h, hh, rfl⟩ : ∃ h ∈ m.hosts, h.id = id := by
      have hm := (emptyHosts_perm_idleHosts m rank).mem_iff.1 (mem_of_mem_take hid)
      simpa using mem_of_mem_filter hm
    by_contra hn
    have hke : h ∈ m.hosts.filter fun h => h.id ∉ (m.emptyHosts rank).take k :=
      hs rank' rank ▸ mem_filter.2 ⟨hh, by simpa using hn⟩
    simp [hid] at hke
  · intro hs rank rank'
    refine filter_congr fun h _ => ?_
    have hiff : h.id ∈ (m.emptyHosts rank).take k ↔ h.id ∈ (m.emptyHosts rank').take k :=
      ⟨hs rank rank' h.id, hs rank' rank h.id⟩
    simp [hiff]

/-! ### Both -/

/-- The hosts after a scale-out do not depend on the order of the host map exactly if nothing is
added or all hosts have the same capacity; those after a scale-in do not depend on it exactly if the
hosts without instances that the order of removal does not distinguish are all removed or all
kept. -/
theorem host_scaling_order (hm : Managed sc m) (target : Int) : ((∀ rank rank',
        (m.scaleOutHosts target rank).2.hosts = (m.scaleOutHosts target rank').2.hosts) ↔
      target ≤ m.hosts.length ∨ ∀ h ∈ m.hosts, ∀ h' ∈ m.hosts,
        h.cpuCores = h'.cpuCores ∧ h.memoryGB = h'.memoryGB) ∧
    ((∀ rank rank', (m.scaleInHosts target rank).2.hosts = (m.scaleInHosts target rank').2.hosts) ↔
      SettledCut removalPriority (m.hosts.length - (max target 1).toNat) m.idleHosts) := by
  have hi : (m.hosts.map (·.id)).Nodup := (ManagedBy.coherent hm).hosts
  exact ⟨scaleOutHosts_order hi, scaleInHosts_order hi⟩

/-- A service on the first of three hosts of different sizes. -/
def threeSizes : Scenario :=
  oneService [{ id := "a", cores := 2, memoryGB := 4 }, { id := "b", cores := 4, memoryGB := 8 },
    { id := "c", cores := 8, memoryGB := 16 }] 100

/-- Scaling in to one host leaves the one with the instance, in any order of the map. -/
theorem host_scaling_order_threeSizes : let m := managerAfter threeSizes []
    m.idleHosts = ["b", "c"] ∧ ∀ rank rank',
      (m.scaleInHosts 1 rank).2.hosts = (m.scaleInHosts 1 rank').2.hosts := by
  intro m
  have hm : Managed threeSizes m := managed_managerAfter (by decide +kernel) _
  refine ⟨by decide +kernel, (host_scaling_order hm 1).2.2 (by decide +kernel)⟩

/-- A fourth host has two or eight cores and a scale-in to two hosts removes one host or another,
depending on which host the iteration over the map yields first. -/
theorem host_scaling_order_matters : let m := managerAfter threeSizes []
    let forwards : String → Nat := fun id => if id = "a" then 0 else if id = "b" then 1 else 2
    let backwards : String → Nat := fun id => if id = "a" then 2 else if id = "b" then 1 else 0
    Managed threeSizes m ∧
      (m.scaleOutHosts 4 forwards).2.hosts.map (fun h => (h.id, h.cpuCores, h.memoryGB)) =
        [("a", 2, 4), ("b", 4, 8), ("c", 8, 16), ("host-auto-4", 2, 4)] ∧
      (m.scaleOutHosts 4 backwards).2.hosts.map (fun h => (h.id, h.cpuCores, h.memoryGB)) =
        [("a", 2, 4), ("b", 4, 8), ("c", 8, 16), ("host-auto-4", 8, 16)] ∧
      (m.scaleInHosts 2 forwards).2.hosts.map (fun h => h.id) = ["a", "c"] ∧
      (m.scaleInHosts 2 backwards).2.hosts.map (fun h => h.id) = ["a", "b"] := by
  intro m forwards backwards
  have hhosts : m.hosts = [{ id := "a", cpuCores := 2, memoryGB := 4
                             serviceInstances := ["api-instance-0"] },
      { id := "b", cpuCores := 4, memoryGB := 8 },
      { id := "c", cpuCores := 8, memoryGB := 16 }] := by
    decide +kernel
  have hforwards : m.hostsInOrder forwards = m.hosts := by
    simp [hostsInOrder, hhosts, forwards, mergeSort]
  have hbackwards : m.hostsInOrder backwards = m.hosts.reverse := by
    simp [hostsInOrder, hhosts, backwards, mergeSort]
  refine ⟨managed_managerAfter (by decide +kernel) _, ?_, ?_, ?_, ?_⟩
  · rw [scaleOutHosts, hforwards, hhosts]
    decide +kernel
  · rw [scaleOutHosts, hbackwards, hhosts]
    decide +kernel
  · rw [scaleInHosts_hosts, emptyHosts, hforwards, hhosts]
    decide +kernel
  · rw [scaleInHosts_hosts, emptyHosts, hbackwards, hhosts]
    decide +kernel

end SimCore.Resource
