import SimCore.Resource.Ledger
import Mathlib.Algebra.BigOperators.Group.List.Basic
import Mathlib.Algebra.Order.BigOperators.Group.List
import Mathlib.Logic.Relation

/-!
# The layout of instances on hosts

What placement depends on in the resource manager: which instances reserve how much on which hosts,
and how the manager lists them. The layout changes in a few ways, and every operation on the manager
is a sequence of them; the use of instances by requests does not change it.

## Main definitions

* `Site`, `Rack`, `Layout`, `Manager.layout`: reservations, capacities and lists
* `Change`, `Changes`: the ways in which a layout changes
* `Layout.Sane`, `Layout.Within`, `Layout.Listed`, `Layout.Serves`: invariants of layouts

## Main results

* `Change.within`: no host is overcommitted
* `Change.listed`: the lists of the hosts agree with the index of the manager
* `Changes.serves`: a service keeps an active instance
* `Manager.changes_scaling`, `Manager.changes_processDrainingInstances`: what the operations change
-/

namespace SimCore.Resource

open Config Manager List

/-- The reservation of an instance. -/
structure Site where
  id : String
  serviceName : String
  hostID : String
  lifecycle : InstanceLifecycle
  cpuCores : ℚ
  memoryMB : ℚ
deriving DecidableEq

/-- The reservation of an instance. -/
def ServiceInstance.site (i : ServiceInstance) : Site where
  id := i.id
  serviceName := i.serviceName
  hostID := i.hostID
  lifecycle := i.lifecycle
  cpuCores := i.cpuCores
  memoryMB := i.memoryMB

/-- Where an instance is. -/
structure Seat where
  id : String
  serviceName : String
  hostID : String
deriving DecidableEq

/-- Where an instance is. -/
def Site.seat (s : Site) : Seat := ⟨s.id, s.serviceName, s.hostID⟩

/-- A host without its utilisation. -/
structure Rack where
  id : String
  cpuCores : Int
  memoryGB : Int
  zone : String
  labels : List (String × String)
  serviceInstances : List String
deriving DecidableEq

/-- A host without its utilisation. -/
def Host.rack (h : Host) : Rack where
  id := h.id
  cpuCores := h.cpuCores
  memoryGB := h.memoryGB
  zone := h.zone
  labels := h.labels
  serviceInstances := h.serviceInstances

namespace Rack

def memoryCapacityMB (r : Rack) : ℚ :=
  (max r.memoryGB 1 : Int) * 1024

/-- What placement policies ask about a host, with its name. -/
def frame (r : Rack) : String × String × List (String × String) :=
  (r.id, r.zone, r.labels)

/-- A host has the capacity for cores and memory, up to the tolerances. -/
def Holds (r : Rack) (load : ℚ × ℚ) : Prop :=
  load.1 ≤ r.cpuCores + cpuSlack ∧ load.2 ≤ r.memoryCapacityMB + memSlack

/-- A change of capacity leaves everything else. -/
structure SameFrame (r r' : Rack) : Prop where
  id : r'.id = r.id
  zone : r'.zone = r.zone
  labels : r'.labels = r.labels
  serviceInstances : r'.serviceInstances = r.serviceInstances

end Rack

/-- Instances on hosts, and the lists that the manager keeps of them. -/
@[ext] structure Layout where
  sites : List Site := []
  racks : List Rack := []
  hostToInstances : String → List String := fun _ => []
  nextInstanceID : Nat := 0

namespace Layout

variable (L : Layout)

/-- Cores and memory reserved on a host. -/
def load (hostID : String) : ℚ × ℚ :=
  (((L.sites.filter (·.hostID == hostID)).map (·.cpuCores)).sum,
    ((L.sites.filter (·.hostID == hostID)).map (·.memoryMB)).sum)

/-- An instance is placed on its host. -/
def place (s : Site) : Layout where
  sites := L.sites ++ [s]
  racks := L.racks.map fun r =>
    if r.id = s.hostID then { r with serviceInstances := r.serviceInstances ++ [s.id] } else r
  hostToInstances :=
    Function.update L.hostToInstances s.hostID (L.hostToInstances s.hostID ++ [s.id])
  nextInstanceID := L.nextInstanceID + 1

/-- Instances are told to drain. -/
def drain (ids : List String) : Layout :=
  { L with sites := L.sites.map fun s =>
      if s.id ∈ ids then { s with lifecycle := .draining } else s }

/-- An instance is removed from its host. -/
def remove (id hostID : String) : Layout :=
  { L with
    sites := L.sites.filter fun s => s.id ≠ id
    racks := L.racks.map fun r =>
      if r.id = hostID then { r with serviceInstances := r.serviceInstances.erase id } else r
    hostToInstances :=
      Function.update L.hostToInstances hostID ((L.hostToInstances hostID).filter (· ≠ id)) }

/-- The reservation of the instances of a service changes; zero leaves a value. -/
def resize (svc : String) (cpu mem : ℚ) : Layout :=
  { L with sites := L.sites.map fun s =>
      if s.serviceName = svc then
        { s with cpuCores := if cpu > 0 then cpu else s.cpuCores
                 memoryMB := if mem > 0 then mem else s.memoryMB }
      else s }

/-- Hosts are removed. -/
def removeRacks (removed : List String) : Layout :=
  { L with
    racks := L.racks.filter fun r => r.id ∉ removed
    hostToInstances := fun id => if id ∈ removed then [] else L.hostToInstances id }

end Layout

/-- The ways in which a layout changes. What a new instance obeys is a parameter, and so is the
condition under which hosts of changed capacity still hold their instances. -/
inductive Change (P : Layout → Site → Prop) (E : Prop) : Layout → Layout → Prop
  | place {L : Layout} (s : Site) (hP : P L s)
      (hid : s.id = instanceName s.serviceName L.nextInstanceID) (ha : s.lifecycle = .active)
      (hh : ∃ r ∈ L.racks, r.id = s.hostID)
      (hfit : ∀ r ∈ L.racks, r.id = s.hostID →
        r.Holds ((L.load s.hostID).1 + s.cpuCores, (L.load s.hostID).2 + s.memoryMB)) :
      Change P E L (L.place s)
  | drain {L : Layout} (ids : List String)
      (hk : ∀ s ∈ L.sites, s.lifecycle = .active → ∃ s' ∈ L.sites,
        s'.serviceName = s.serviceName ∧ s'.lifecycle = .active ∧ s'.id ∉ ids) :
      Change P E L (L.drain ids)
  | remove {L : Layout} (id hostID : String)
      (hd : ∀ s ∈ L.sites, s.id = id → s.lifecycle = .draining)
      (hn : (L.hostToInstances hostID).Nodup) : Change P E L (L.remove id hostID)
  | resize {L : Layout} (svc : String) (cpu mem : ℚ) (hc : 0 ≤ cpu) (hm : 0 ≤ mem)
      (hfit : ∀ r ∈ L.racks, 0 < r.cpuCores → 0 < r.memoryGB →
        r.Holds ((L.resize svc cpu mem).load r.id)) : Change P E L (L.resize svc cpu mem)
  | capacity {L : Layout} (g : Rack → Rack) (hs : ∀ r : Rack, r.SameFrame (g r))
      (hpos : ∀ r ∈ L.racks, 0 < r.cpuCores → 0 < r.memoryGB →
        0 < (g r).cpuCores ∧ 0 < (g r).memoryGB)
      (hfit : E → ∀ r ∈ L.racks, r.Holds (L.load r.id) → (g r).Holds (L.load r.id)) :
      Change P E L { L with racks := L.racks.map g }
  | addRack {L : Layout} (r : Rack)
      (ht : ∃ t ∈ L.racks, r.cpuCores = t.cpuCores ∧ r.memoryGB = t.memoryGB)
      (hl : r.serviceInstances = []) (hn : ∀ r' ∈ L.racks, r'.id ≠ r.id)
      (hs : ∀ s ∈ L.sites, s.hostID ≠ r.id) (hi : L.hostToInstances r.id = []) :
      Change P E L { L with racks := L.racks ++ [r] }
  | removeRacks {L : Layout} (removed : List String) (he : ∀ s ∈ L.sites, s.hostID ∉ removed)
      (hi : ∀ id ∈ removed, L.hostToInstances id = []) (hk : ∃ r ∈ L.racks, r.id ∉ removed) :
      Change P E L (L.removeRacks removed)

/-- Sequences of changes. -/
def Changes (P : Layout → Site → Prop) (E : Prop) : Layout → Layout → Prop :=
  Relation.ReflTransGen (Change P E)

/-! ### Invariants -/

namespace Layout

variable (L : Layout)

/-- Hosts have cores and memory. -/
def Equipped : Prop :=
  ∀ r ∈ L.racks, 0 < r.cpuCores ∧ 0 < r.memoryGB

/-- Reservations are not negative, and hosts have cores and memory. -/
structure Sane : Prop where
  sites : ∀ s ∈ L.sites, 0 ≤ s.cpuCores ∧ 0 ≤ s.memoryMB
  racks : L.Equipped

/-- No host is overcommitted. -/
def Within : Prop :=
  ∀ r ∈ L.racks, r.Holds (L.load r.id)

/-- The list of every host is the one in the index of the manager. -/
def Listed : Prop :=
  ∀ r ∈ L.racks, r.serviceInstances = L.hostToInstances r.id

/-- A service has an active instance. -/
def Serves (svc : String) : Prop :=
  ∃ s ∈ L.sites, s.serviceName = svc ∧ s.lifecycle = .active

end Layout

section Invariants

variable {P : Layout → Site → Prop} {E : Prop} {L L' : Layout}

theorem load_place (s : Site) (hostID : String) : (L.place s).load hostID =
      if s.hostID = hostID then
        ((L.load hostID).1 + s.cpuCores, (L.load hostID).2 + s.memoryMB)
      else L.load hostID := by
  simp only [Layout.load, Layout.place, filter_append]
  by_cases hs : s.hostID = hostID <;> simp [hs]

theorem load_drain (ids : List String) (hostID : String) :
    (L.drain ids).load hostID = L.load hostID := by
  simp [Layout.load, Layout.drain, filter_map, Function.comp_def, apply_ite Site.hostID,
    apply_ite Site.cpuCores, apply_ite Site.memoryMB]

theorem load_remove_le (hL : L.Sane) (id host hostID : String) :
    ((L.remove id host).load hostID).1 ≤ (L.load hostID).1 ∧
      ((L.remove id host).load hostID).2 ≤ (L.load hostID).2 := by
  have hsub : ((L.remove id host).sites.filter (·.hostID == hostID)).Sublist
      (L.sites.filter (·.hostID == hostID)) := filter_sublist.filter _
  constructor
  · refine (hsub.map _).sum_le_sum fun x hx => ?_
    obtain ⟨s, hs, rfl⟩ := mem_map.1 hx
    exact (hL.sites s (mem_of_mem_filter hs)).1
  · refine (hsub.map _).sum_le_sum fun x hx => ?_
    obtain ⟨s, hs, rfl⟩ := mem_map.1 hx
    exact (hL.sites s (mem_of_mem_filter hs)).2

section

variable (h : Change P E L L')
include h

/-- A host of the changed layout was there, with cores and memory if it had them, or is a copy. -/
theorem Change.equipped (hL : L.Equipped) : L'.Equipped := by
  intro r hr
  cases h with
  | drain | resize => exact hL r hr
  | place | remove =>
    obtain ⟨r', hr', rfl⟩ := mem_map.1 hr
    have hp := hL r' hr'
    split <;> exact hp
  | capacity _ _ hp =>
    obtain ⟨r', hr', rfl⟩ := mem_map.1 hr
    exact hp r' hr' (hL r' hr').1 (hL r' hr').2
  | addRack _ ht =>
    rcases mem_append.1 hr with hr | hr
    · exact hL r hr
    · obtain ⟨t, ht, hc, hm⟩ := ht
      rw [mem_singleton.1 hr, hc, hm]
      exact hL t ht
  | removeRacks => exact hL r (mem_of_mem_filter hr)

/-- An instance of the changed layout was there before, at the same place, or is a new one. -/
theorem Change.site_cases {s : Site} (hs : s ∈ L'.sites) : (∃ s' ∈ L.sites, s.seat = s'.seat ∧
      (0 ≤ s'.cpuCores ∧ 0 ≤ s'.memoryMB → 0 ≤ s.cpuCores ∧ 0 ≤ s.memoryMB)) ∨
    P L s ∧ s.id = instanceName s.serviceName L.nextInstanceID ∧ s.lifecycle = .active := by
  cases h with
  | place _ hP hid ha =>
    rcases mem_append.1 hs with hs | hs
    · exact .inl ⟨s, hs, rfl, id⟩
    · obtain rfl := mem_singleton.1 hs
      exact .inr ⟨hP, hid, ha⟩
  | drain =>
    obtain ⟨s', hs', rfl⟩ := mem_map.1 hs
    refine .inl ⟨s', hs', ?_⟩
    split <;> exact ⟨rfl, id⟩
  | resize _ _ _ hc hm =>
    obtain ⟨s', hs', rfl⟩ := mem_map.1 hs
    refine .inl ⟨s', hs', ?_⟩
    split
    · refine ⟨rfl, fun hp => ⟨?_, ?_⟩⟩
      · rw [apply_ite (0 ≤ ·)]
        exact ite_prop_iff_and.2 ⟨fun _ => hc, fun _ => hp.1⟩
      · rw [apply_ite (0 ≤ ·)]
        exact ite_prop_iff_and.2 ⟨fun _ => hm, fun _ => hp.2⟩
    · exact ⟨rfl, id⟩
  | remove => exact .inl ⟨s, mem_of_mem_filter hs, rfl, id⟩
  | capacity | addRack | removeRacks => exact .inl ⟨s, hs, rfl, id⟩

theorem Change.sane (hP : ∀ s, P L s → 0 ≤ s.cpuCores ∧ 0 ≤ s.memoryMB)
    (hL : L.Sane) : L'.Sane := by
  refine ⟨fun s hs => ?_, h.equipped hL.racks⟩
  obtain ⟨s', hs', -, hp⟩ | ⟨hs, -, -⟩ := h.site_cases hs
  · exact hp (hL.sites s' hs')
  · exact hP s hs

theorem Change.within (he : E) (hL : L.Sane) (hw : L.Within) : L'.Within := by
  cases h with
  | place s _ _ _ _ hf =>
    intro r hr
    obtain ⟨r', hr', rfl⟩ := mem_map.1 hr
    have hold := hw r' hr'
    rw [load_place]
    by_cases hr : r'.id = s.hostID
    · have hro := hf r' hr' hr
      simp only [hr, if_true]
      exact hro
    · simpa [hr, Ne.symm hr] using hold
  | drain =>
    intro r hr
    rw [load_drain]
    exact hw r hr
  | remove id hostID =>
    intro r hr
    obtain ⟨r', hr', rfl⟩ := mem_map.1 hr
    obtain ⟨hcpu, hm⟩ := load_remove_le hL id hostID r'.id
    obtain ⟨hc', hm'⟩ := hw r' hr'
    split
    · exact ⟨hcpu.trans hc', hm.trans hm'⟩
    · exact ⟨hcpu.trans hc', hm.trans hm'⟩
  | resize _ _ _ _ _ hf =>
    exact fun r hr => hf r hr (hL.racks r hr).1 (hL.racks r hr).2
  | capacity _ hs _ hf =>
    intro r hr
    obtain ⟨r', hr', rfl⟩ := mem_map.1 hr
    rw [(hs r').id]
    exact hf he r' hr' (hw r' hr')
  | addRack _ ht _ _ hs =>
    intro r' hr'
    rcases mem_append.1 hr' with hr' | hr'
    · exact hw r' hr'
    -- nothing is on the new host
    · obtain rfl := mem_singleton.1 hr'
      have he : L.sites.filter (·.hostID == r'.id) = [] :=
        filter_eq_nil_iff.2 fun s hs' => by simpa using hs s hs'
      obtain ⟨t, ht, hcpu, hm⟩ := ht
      obtain ⟨hc, _⟩ := hL.racks t ht
      simp only [Layout.load, he, map_nil, sum_nil, Rack.Holds, Rack.memoryCapacityMB,
        hcpu, hm, cpuSlack, memSlack]
      constructor
      · positivity
      · positivity
  | removeRacks =>
    exact fun r hr => hw r (mem_of_mem_filter hr)

theorem Change.listed (hL : L.Listed) : L'.Listed := by
  cases h with
  | place s =>
    intro r hr
    obtain ⟨r', hr', rfl⟩ := mem_map.1 hr
    by_cases hid : r'.id = s.hostID
    · simp [Layout.place, hid, hL r' hr']
    · simp [Layout.place, hid, hL r' hr']
  | remove id hostID _ hn =>
    intro r hr
    obtain ⟨r', hr', rfl⟩ := mem_map.1 hr
    by_cases hid : r'.id = hostID
    · have hli := hL r' hr'
      simp only [Layout.remove, hid, if_true, hli, Function.update_self]
      rw [hn.erase_eq_filter id]
      exact filter_congr fun x _ => by by_cases hx : x = id <;> simp [hx]
    · simp [Layout.remove, hid, hL r' hr']
  | drain | resize => exact hL
  | capacity _ hs =>
    intro r hr
    obtain ⟨r', hr', rfl⟩ := mem_map.1 hr
    rw [(hs r').id, (hs r').serviceInstances]
    exact hL r' hr'
  | addRack _ _ hl _ _ hi =>
    intro r' hr'
    rcases mem_append.1 hr' with hr' | hr'
    · exact hL r' hr'
    · rw [mem_singleton.1 hr', hl, hi]
  | removeRacks =>
    intro r hr
    obtain ⟨hr, hk⟩ := mem_filter.1 hr
    simp only [decide_eq_true_eq] at hk
    simp only [Layout.removeRacks, if_neg hk]
    exact hL r hr

/-- A service that has an active instance keeps one. -/
theorem Change.serves {svc : String} (hL : L.Serves svc) : L'.Serves svc := by
  obtain ⟨s, hs, hsvc, ha⟩ := hL
  cases h with
  | place => exact ⟨s, mem_append_left _ hs, hsvc, ha⟩
  | drain _ hk =>
    obtain ⟨s', hs', hsvc', ha', hid⟩ := hk s hs ha
    refine ⟨s', mem_map.2 ⟨s', hs', if_neg hid⟩, hsvc'.trans hsvc, ha'⟩
  | remove _ _ hd =>
    refine ⟨s, mem_filter.2 ⟨hs, ?_⟩, hsvc, ha⟩
    simp only [ne_eq, decide_not, Bool.not_eq_eq_eq_not, Bool.not_true, decide_eq_false_iff_not]
    intro hid
    rw [hd s hs hid] at ha
    cases ha
  | resize =>
    refine ⟨_, mem_map_of_mem hs, ?_, ?_⟩
    · split <;> exact hsvc
    · split <;> exact ha
  | capacity | addRack | removeRacks => exact ⟨s, hs, hsvc, ha⟩

end

/-- A service with an instance has an active one. -/
def Layout.Staffed (L : Layout) : Prop :=
  ∀ s ∈ L.sites, L.Serves s.serviceName

theorem Change.staffed (h : Change P E L L') (hL : L.Staffed) : L'.Staffed := by
  intro s hs
  obtain ⟨s', hs', hse, -⟩ | ⟨-, -, ha⟩ := h.site_cases hs
  · have hsvc : s.serviceName = s'.serviceName := congrArg Seat.serviceName hse
    rw [hsvc]
    exact h.serves (hL s' hs')
  · exact ⟨s, hs, rfl, ha⟩

/-- Instances that were not there before have a name that was not given out before. -/
theorem Change.fresh (h : Change P E L L') : L.nextInstanceID ≤ L'.nextInstanceID ∧
    ∀ s ∈ L'.sites, (∃ s' ∈ L.sites, s'.id = s.id) ∨
      ∃ svc k, L.nextInstanceID ≤ k ∧ s.id = instanceName svc k := by
  refine ⟨?_, fun s hs => ?_⟩
  · cases h with
    | place => exact Nat.le_succ _
    | _ => exact le_rfl
  · obtain ⟨s', hs', hse, -⟩ | ⟨-, hid, -⟩ := h.site_cases hs
    · exact .inl ⟨s', hs', congrArg Seat.id hse.symm⟩
    · exact .inr ⟨_, _, le_rfl, hid⟩

theorem Changes.fresh (h : Changes P E L L') : L.nextInstanceID ≤ L'.nextInstanceID ∧
    ∀ s ∈ L'.sites, (∃ s' ∈ L.sites, s'.id = s.id) ∨
      ∃ svc k, L.nextInstanceID ≤ k ∧ s.id = instanceName svc k := by
  induction h with
  | refl => exact ⟨le_rfl, fun s hs => .inl ⟨s, hs, rfl⟩⟩
  | tail _ h ih =>
    obtain ⟨hle, hn⟩ := h.fresh
    refine ⟨ih.1.trans hle, fun s hs => ?_⟩
    obtain ⟨s', hs', hid⟩ | ⟨svc, k, hk, hid⟩ := hn s hs
    · rw [← hid]
      exact ih.2 s' hs'
    · exact .inr ⟨svc, k, ih.1.trans hk, hid⟩

/-- An instance stays where it is until it is removed. -/
theorem Change.seats (h : Change P E L L') :
    (L'.sites.map Site.seat).Sublist (L.sites.map Site.seat) ∨
      ∃ s, P L s ∧ L'.sites.map Site.seat = L.sites.map Site.seat ++ [s.seat] := by
  cases h with
  | place s hP => exact .inr ⟨s, hP, by simp [Layout.place]⟩
  | remove => exact .inl (filter_sublist.map _)
  | drain | resize =>
    left
    simp only [Layout.drain, Layout.resize]
    rw [map_changed_eq fun _ => by rfl]
  | capacity | addRack | removeRacks => exact .inl (List.Sublist.refl _)

/-- A host with instances keeps its zone and its labels. -/
theorem Change.frames (h : Change P E L L') {r : Rack} (hr : r ∈ L'.racks) :
    r.frame ∈ L.racks.map Rack.frame ∨ ∀ s ∈ L'.sites, s.hostID ≠ r.id := by
  cases h with
  | place | remove =>
    left
    obtain ⟨r', hr', rfl⟩ := mem_map.1 hr
    refine mem_map.2 ⟨r', hr', ?_⟩
    split <;> rfl
  | drain | resize => exact .inl (mem_map_of_mem hr)
  | capacity _ hs =>
    left
    obtain ⟨r', hr', rfl⟩ := mem_map.1 hr
    exact mem_map.2 ⟨r', hr', by simp [Rack.frame, (hs r').id, (hs r').zone, (hs r').labels]⟩
  | addRack _ _ _ _ hs =>
    rcases mem_append.1 hr with hr | hr
    · exact .inl (mem_map_of_mem hr)
    · rw [mem_singleton.1 hr]
      exact .inr hs
  | removeRacks => exact .inl (mem_map_of_mem (mem_of_mem_filter hr))

theorem Change.racks_ne_nil (h : Change P E L L') (hL : L.racks ≠ []) : L'.racks ≠ [] := by
  cases h with
  | place | remove | capacity => simpa [Layout.place, Layout.remove] using hL
  | drain | resize => exact hL
  | addRack => simp
  | removeRacks _ _ _ hk =>
    obtain ⟨r, hr, hid⟩ := hk
    exact ne_nil_of_mem (mem_filter.2 ⟨hr, by simpa using hid⟩)

/-- What every change keeps is kept by every sequence of changes. -/
theorem Changes.induction {Q : Layout → Prop} (hQ : ∀ {L L'}, Change P E L L' → Q L → Q L')
    (h : Changes P E L L') (hL : Q L) : Q L' := by
  induction h with
  | refl => exact hL
  | tail _ h ih => exact hQ h ih

theorem Changes.serves (h : Changes P E L L') {svc : String} (hL : L.Serves svc) : L'.Serves svc :=
  h.induction (fun h => h.serves) hL

end Invariants

/-! ### The layout of the manager -/

namespace Manager

variable {m m' : Manager} {P : Layout → Site → Prop} {E : Prop} {svc id : String} {cpu mem : ℚ}

/-- The layout of the instances of the manager on its hosts. -/
def layout (m : Manager) : Layout where
  sites := m.instances.map ServiceInstance.site
  racks := m.hosts.map Host.rack
  hostToInstances := m.hostToInstances
  nextInstanceID := m.nextInstanceID

theorem layout_modifyInstance {f : ServiceInstance → ServiceInstance}
    (hf : ∀ i, (f i).site = i.site) (id : String) : (m.modifyInstance id f).layout = m.layout := by
  simp only [layout, modifyInstance, map_changed_eq hf]

theorem layout_modifyHost {f : Host → Host} (hf : ∀ h, (f h).rack = h.rack) (hostID : String) :
    (m.modifyHost hostID f).layout = m.layout := by
  simp only [layout, modifyHost, map_changed_eq hf]

@[simp] theorem layout_updateHostCPU (hostID : String) (t : Time) :
    (m.updateHostCPU hostID t).layout = m.layout := by
  refine layout_modifyHost (fun h => ?_) hostID
  unfold Host.updateCPUUtilization
  split_ifs <;> rfl

@[simp] theorem layout_updateHostMemory (hostID : String) :
    (m.updateHostMemory hostID).layout = m.layout := by
  refine layout_modifyHost (fun h => ?_) hostID
  unfold Host.updateMemoryUtilization
  split_ifs <;> rfl

@[simp] theorem layout_noteSimTime (t : Time) : (m.noteSimTime t).layout = m.layout := by
  obtain ⟨_, h⟩ := m.noteSimTime_eq t
  rw [h]
  rfl

theorem collectInstancesForHost_eq (hm : m.ledger.Placed) (hostID : String) :
    m.collectInstancesForHost hostID = m.instances.filter (·.hostID == hostID) := by
  have hli : m.hostToInstances hostID = (m.instances.filter (·.hostID == hostID)).map (·.id) := by
    have hl : m.hostToInstances hostID = _ := hm.listed hostID
    rw [hl, ledger, filter_map, map_map]
    rfl
  rw [collectInstancesForHost, hli, filterMap_map]
  have hs : ∀ i ∈ m.instances.filter (·.hostID == hostID),
      (m.instance? ∘ fun i : ServiceInstance => i.id) i = some i :=
    fun i hi => instance?_eq_some hm (mem_of_mem_filter hi)
  rw [filterMap_congr hs, filterMap_some]

theorem load_layout (hostID : String) :
    m.layout.load hostID = (((m.instances.filter (·.hostID == hostID)).map (·.cpuCores)).sum,
      ((m.instances.filter (·.hostID == hostID)).map (·.memoryMB)).sum) := by
  simp only [Layout.load, layout, filter_map, map_map]
  rfl

theorem reserved_eq (hm : m.ledger.Placed) (hostID : String) :
    m.reserved hostID = m.layout.load hostID := by
  rw [reserved, collectInstancesForHost_eq hm, load_layout]

theorem hostLoad_eq (hostID : String) : m.hostLoad hostID = m.layout.load hostID := by
  rw [hostLoad, load_layout]

/-! ### Placement -/

/-- The reservation of a new instance. -/
def newSite (m : Manager) (svc hostID : String) (cpu mem : ℚ) : Site :=
  ⟨instanceName svc m.nextInstanceID, svc, hostID, .active, cpu, mem⟩

theorem layout_addReplica (clock : Time) (svc hostID : String) (cpu mem : ℚ) :
    (m.addReplica clock svc hostID cpu mem).layout =
      m.layout.place (m.newSite svc hostID cpu mem) := by
  refine Layout.ext ?_ (map_changed (q := fun r : Rack => r.id = hostID) (fun _ => by rfl) m.hosts)
    rfl rfl
  simp only [layout, addReplica, Layout.place, map_append]
  rfl

theorem frame_addReplica (clock : Time) (svc hostID : String) (cpu mem : ℚ) :
    (m.addReplica clock svc hostID cpu mem).layout.racks.map Rack.frame =
      m.layout.racks.map Rack.frame := by
  rw [layout_addReplica]
  exact map_changed_eq (fun _ => by rfl) m.layout.racks

theorem change_addReplica (hm : m.ledger.Placed) {host : Host} (hh : host ∈ m.hosts) (clock : Time)
    (hP : P m.layout (m.newSite svc host.id cpu mem))
    (hf : host.rack.Holds ((m.layout.load host.id).1 + cpu, (m.layout.load host.id).2 + mem)) :
    Change P E m.layout (m.addReplica clock svc host.id cpu mem).layout := by
  rw [layout_addReplica]
  refine .place _ hP rfl rfl ⟨host.rack, mem_map_of_mem hh, rfl⟩ fun r hr hid => ?_
  obtain ⟨h, hh', rfl⟩ := mem_map.1 hr
  have hi : (m.hosts.map (·.id)).Nodup := hm.hosts
  obtain rfl := inj_on_of_nodup_map hi hh' hh hid
  exact hf

theorem holds_of_fits (hm : m.ledger.Placed) {h : Host} (hf : m.fits h cpu mem = true) :
    h.rack.Holds ((m.layout.load h.id).1 + cpu, (m.layout.load h.id).2 + mem) := by
  have hr : (m.layout.load h.id).1 + cpu ≤ h.cpuCores + cpuSlack ∧
      (m.layout.load h.id).2 + mem ≤ h.memoryCapacityMB + memSlack := by
    simpa [fits, reserved_eq hm] using hf
  exact hr

/-- The new instances of a scale-up are copies of an instance of the service. -/
theorem changes_addReplicas (hm : m.ledger.Placed) (clock : Time) (svc : String) (cpu mem : ℚ)
    (hP : ∀ L s, s.serviceName = svc → s.cpuCores = cpu → s.memoryMB = mem → P L s) (n : Nat) :
    Changes P E m.layout (addReplicas clock svc cpu mem n m).2.layout := by
  induction n generalizing m with
  | zero => exact .refl
  | succ _ ih =>
    rw [addReplicas]
    split
    · exact .refl
    · rename_i hh
      have hmem := mem_hosts_of_find hh
      have hf := holds_of_fits hm (find?_some (p := fun h => m.fits h cpu mem) hh)
      exact .head (change_addReplica hm hmem clock (hP _ _ rfl rfl rfl) hf)
        (ih (placed_addReplica hm hmem clock svc cpu mem))

/-! ### Draining -/

theorem layout_drainInstances (ids : List String) (deadline : Time) :
    (m.drainInstances ids deadline).layout = m.layout.drain ids :=
  Layout.ext (map_changed (q := fun s : Site => s.id ∈ ids) (fun _ => by rfl) m.instances)
    rfl rfl rfl

theorem layout_removeInstance {inst : ServiceInstance} (hi : m.instance? id = some inst)
    (t : Time) (evict : Bool) :
    (m.removeInstance id t evict).layout = m.layout.remove id inst.hostID := by
  unfold removeInstance
  simp only [hi]
  set m₁ := if evict then ((m.modifyInstance id fun i => evictResourceState i t).updateHostCPU
    inst.hostID t).updateHostMemory inst.hostID else m with hm₁
  have hs : m₁.layout = m.layout := by
    rw [hm₁]
    split
    · rw [layout_updateHostMemory, layout_updateHostCPU]
      exact layout_modifyInstance (fun _ => by rfl) id
    · rfl
  rw [← hs]
  refine Layout.ext ?_
    (map_changed (q := fun r : Rack => r.id = inst.hostID) (fun _ => by rfl) m₁.hosts) rfl rfl
  simp only [layout, Layout.remove, filter_map]
  rfl

theorem changes_removeInstance (hm : m.ledger.Placed) (t : Time) (evict : Bool)
    (hd : ∀ a ∈ m.ledger.accounts, a.id = id → a.lifecycle = .draining) :
    Changes P E m.layout (m.removeInstance id t evict).layout := by
  cases hi : m.instance? id with
  | none =>
    rw [removeInstance, hi]
    exact .refl
  | some inst =>
    rw [layout_removeInstance hi]
    refine .single (.remove _ _ (fun s hs hid => ?_) ?_)
    · obtain ⟨j, hj, rfl⟩ := mem_map.1 hs
      exact hd j.account (mem_map_of_mem hj) hid
    · have hl : m.layout.hostToInstances inst.hostID = _ := hm.listed inst.hostID
      rw [hl]
      exact hm.ids.sublist (filter_sublist.map _)

theorem changes_processDrainingInstances (hm : m.ledger.Placed) (t : Time) :
    Changes P E m.layout (m.processDrainingInstances t).2.layout := by
  refine (processDrainingInstances_induction (C := fun m' => Changes P E m.layout m'.layout ∧
    m'.ledger.Placed ∧ m'.ledger.accounts ⊆ m.ledger.accounts) ?_ ?_ fun _ h => ?_).1
  · rw [layout_noteSimTime, ledger_noteSimTime]
    exact ⟨.refl, hm, List.Subset.refl _⟩
  · rintro _ i evict hi hd - ⟨hc, hp, hsub⟩
    have hs := ledger_removeInstance hp i.id t evict
    refine ⟨hc.trans (changes_removeInstance hp t evict fun a ha hid => ?_), hs ▸ hp.strike _, ?_⟩
    · -- the remaining instances were there before
      rw [hm.eq_of_id (hsub ha) (mem_map_of_mem hi) hid]
      exact hd
    · rw [hs]
      exact fun a ha => hsub (mem_of_mem_filter ha)
  · exact ⟨h.1, (coherent_rebuildSortedInstanceCache h.2.1).toPlaced, h.2.2⟩

/-! ### Scaling -/

/-- The active instances of a service, by name. -/
def activeIDs (m : Manager) (svc : String) : List String :=
  sortStrings
    (((m.instances.filter (·.serviceName == svc)).filter (·.lifecycle == .active)).map (·.id))

theorem mem_activeIDs : id ∈ m.activeIDs svc ↔
    ∃ i ∈ m.instances, i.id = id ∧ i.serviceName = svc ∧ i.lifecycle = .active := by
  simp only [activeIDs, mem_sortStrings, mem_map, mem_filter, beq_iff_eq]
  constructor
  · rintro ⟨i, ⟨⟨hi, hs⟩, ha⟩, hid⟩
    exact ⟨i, hi, hid, hs, ha⟩
  · rintro ⟨i, hi, hid, hs, ha⟩
    exact ⟨i, ⟨⟨hi, hs⟩, ha⟩, hid⟩

theorem nodup_activeIDs (hm : m.ledger.Placed) (svc : String) : (m.activeIDs svc).Nodup := by
  refine (sortStrings_perm _).nodup_iff.2 ((nodup_instances hm).sublist (List.Sublist.map _ ?_))
  exact filter_sublist.trans filter_sublist

/-- A scale-down keeps the first active instances. -/
theorem change_drainInstances (hm : m.ledger.Placed) {n : Nat} (hn : 0 < n)
    (hlt : n < (m.activeIDs svc).length) (deadline : Time) :
    Change P E m.layout (m.drainInstances ((m.activeIDs svc).drop n) deadline).layout := by
  rw [layout_drainInstances]
  refine .drain _ fun s hs ha => ?_
  obtain ⟨i, hi, rfl⟩ := mem_map.1 hs
  by_cases hsvc : i.serviceName = svc
  · cases hids : m.activeIDs svc with
    | nil => simp [hids] at hlt
    | cons id ids =>
      obtain ⟨j, hj, hid, hjs, hja⟩ := mem_activeIDs.1 (hids ▸ mem_cons_self ..)
      refine ⟨j.site, mem_map_of_mem hj, hjs.trans hsvc.symm, hja, fun hmem => ?_⟩
      have hno := hids ▸ nodup_activeIDs hm svc
      obtain ⟨k, rfl⟩ := Nat.exists_eq_succ_of_ne_zero hn.ne'
      have hmem : j.site.id ∈ ids := mem_of_mem_drop (by simpa using hmem)
      exact (nodup_cons.1 hno).1 (hid ▸ hmem)
  · refine ⟨i.site, hs, rfl, ha, fun hmem => hsvc ?_⟩
    obtain ⟨j, hj, hid, hjs, -⟩ := mem_activeIDs.1 (mem_of_mem_drop hmem)
    obtain rfl := inj_on_of_nodup_map (nodup_instances hm) hj hi hid
    exact hjs

theorem layout_withResources (svc : String) (cpu mem : ℚ) :
    (m.withResources svc cpu mem).layout = m.layout.resize svc cpu mem :=
  Layout.ext (map_changed (q := fun s : Site => s.serviceName = svc) (fun _ => by rfl) m.instances)
    rfl rfl rfl

/-- A host with cores and memory holds what it has the capacity for. -/
theorem holds_of_withinCapacity (hm : m.ledger.Placed) {h : Host} (hcpu : 0 < h.cpuCores)
    (hmem : 0 < h.memoryGB) (hw : m.withinCapacity h = true) :
    h.rack.Holds (m.layout.load h.id) := by
  have hmax : max h.memoryGB 1 = h.memoryGB := max_eq_left hmem
  have hr : (m.layout.load h.id).1 ≤ h.cpuCores + cpuSlack ∧
      (m.layout.load h.id).2 ≤ h.memoryCapacityMB + memSlack := by
    simp only [withinCapacity, collectInstancesForHost_eq hm, reserved_eq hm, Bool.or_eq_true,
      Bool.and_eq_true, Bool.not_eq_eq_eq_not, Bool.not_true, decide_eq_false_iff_not, not_and,
      not_lt, List.isEmpty_iff] at hw
    rw [Host.memoryCapacityMB, hmax]
    rcases hw with he | ⟨hc, hm'⟩
    · rw [load_layout, he]
      simp only [List.map_nil, List.sum_nil, cpuSlack, memSlack]
      constructor <;> positivity
    · exact ⟨hc hcpu, hm' hmem⟩
  exact hr

theorem layout_mapHosts {f : Host → Host} {g : Rack → Rack} (hf : ∀ h, (f h).rack = g h.rack) :
    (m.mapHosts f).layout = { m.layout with racks := m.layout.racks.map g } := by
  have hm : (m.hosts.map f).map Host.rack = (m.hosts.map Host.rack).map g := by
    simp only [map_map]
    exact map_congr_left fun h _ => hf h
  simp only [layout, mapHosts, hm]

theorem le_max_wrapInt64 {n d : Int} (hd : 0 < d) (h : n + d < 2 ^ 63) :
    n ≤ max (wrapInt64 (n + d)) 1 := by
  unfold wrapInt64
  omega

theorem change_increaseHostCapacity (cpu mem : Int) :
    Change P ((Scaling.increaseHostCapacity cpu mem).InRange m) m.layout
      (m.increaseHostCapacity cpu mem).layout := by
  rw [increaseHostCapacity, layout_mapHosts (g := fun r => { r with
    cpuCores := if cpu > 0 then max (wrapInt64 (r.cpuCores + cpu)) 1 else r.cpuCores
    memoryGB := if mem > 0 then max (wrapInt64 (r.memoryGB + mem)) 1 else r.memoryGB })
    fun _ => by rfl]
  refine .capacity _ (fun _ => ⟨rfl, rfl, rfl, rfl⟩) (fun r _ hc hm => ?_) fun hin r hr hold => ?_
  · simp only
    constructor
    · split <;> omega
    · split <;> omega
  · obtain ⟨h, hh, rfl⟩ := mem_map.1 hr
    obtain ⟨hcpu, hgb⟩ := hin h hh
    have hco : h.cpuCores ≤
        if cpu > 0 then max (wrapInt64 (h.cpuCores + cpu)) 1 else h.cpuCores := by
      split
      · exact le_max_wrapInt64 ‹_› (hcpu ‹_›)
      · exact le_rfl
    have hme : h.memoryGB ≤
        if mem > 0 then max (wrapInt64 (h.memoryGB + mem)) 1 else h.memoryGB := by
      split
      · exact le_max_wrapInt64 ‹_› (hgb ‹_›)
      · exact le_rfl
    constructor
    · refine hold.1.trans (add_le_add_left ?_ _)
      exact_mod_cast hco
    · refine hold.2.trans (add_le_add_left (mul_le_mul_of_nonneg_right ?_ (by norm_num)) _)
      exact_mod_cast max_le_max_right 1 hme

theorem change_reducedHosts (hm : m.ledger.Placed) {cpu mem : Int}
    (hfit : ∀ h ∈ m.hosts, m.fitsDecreased cpu mem h = true) :
    Change P E m.layout (m.mapHosts fun h => { h with
      cpuCores := if cpu < 0 then max (wrapInt64 (h.cpuCores + cpu)) 1 else h.cpuCores
      memoryGB :=
        if mem < 0 then max (wrapInt64 (h.memoryGB + mem)) 1 else h.memoryGB }).layout := by
  rw [layout_mapHosts (g := fun r => { r with
    cpuCores := if cpu < 0 then max (wrapInt64 (r.cpuCores + cpu)) 1 else r.cpuCores
    memoryGB := if mem < 0 then max (wrapInt64 (r.memoryGB + mem)) 1 else r.memoryGB })
    fun _ => by rfl]
  refine .capacity _ (fun _ => ⟨rfl, rfl, rfl, rfl⟩) (fun r _ hc hm => ?_) fun _ r hr hold => ?_
  · simp only
    constructor
    · split <;> omega
    · split <;> omega
  · obtain ⟨h, hh, rfl⟩ := mem_map.1 hr
    have hf := hfit h hh
    simp only [fitsDecreased, reserved_eq hm, Bool.and_eq_true, Bool.not_eq_eq_eq_not,
      Bool.not_true, decide_eq_false_iff_not, not_lt] at hf
    constructor
    · simp only
      split
      · exact hf.1
      · exact hold.1
    · simp only [Rack.memoryCapacityMB]
      split
      · have hmax : max (max (wrapInt64 (h.memoryGB + mem)) 1) 1 =
            max (wrapInt64 (h.memoryGB + mem)) 1 :=
          max_eq_left (le_max_right _ _)
        have hm' : max (max (wrapInt64 (h.rack.memoryGB + mem)) 1) 1 =
            max (wrapInt64 (h.memoryGB + mem)) 1 := hmax
        rw [hm']
        exact hf.2
      · exact hold.2

theorem change_addAutoHost {template : Host} {i : Nat} (hm : m.ledger.Placed)
    (hn : ∀ h ∈ m.hosts, h.id ≠ (autoHost template i).id)
    (ht : ∃ t ∈ m.hosts, t.cpuCores = template.cpuCores ∧ t.memoryGB = template.memoryGB) :
    Change P E m.layout
      ({ m with hosts := m.hosts ++ [autoHost template i] } : Manager).layout := by
  have hs := hostID_ne_of_new hm hn
  have hl : ({ m with hosts := m.hosts ++ [autoHost template i] } : Manager).layout =
      { m.layout with racks := m.layout.racks ++ [(autoHost template i).rack] } := by
    simp only [layout, map_append]
    rfl
  rw [hl]
  refine .addRack _ ?_ rfl (forall_mem_map.2 hn) (forall_mem_map.2 hs) ?_
  · obtain ⟨t, ht, hc, hmem⟩ := ht
    exact ⟨t.rack, mem_map_of_mem ht, hc.symm, hmem.symm⟩
  · refine (hm.listed _).trans (map_eq_nil_iff.2 (filter_eq_nil_iff.2 ?_))
    exact forall_mem_map.2 fun j hj => mt beq_iff_eq.1 (hs j hj)

theorem changes_foldl_addAutoHost (hm : m.ledger.Coherent) {template : Host} (target : Int)
    (ht : ∃ t ∈ m.hosts, t.cpuCores = template.cpuCores ∧ t.memoryGB = template.memoryGB)
    (is : List Nat) : Changes P E m.layout (is.foldl (addAutoHost template target) m).layout := by
  refine (addAutoHost_induction
    (C := fun m' => Changes P E m.layout m'.layout ∧ m'.ledger.Coherent ∧
    ∃ t ∈ m'.hosts, t.cpuCores = template.cpuCores ∧ t.memoryGB = template.memoryGB)
    ⟨.refl, hm, ht⟩ template target is fun m' i hn ⟨hc, hm', ht'⟩ =>
      ⟨hc.tail (change_addAutoHost hm'.toPlaced hn ht'), coherent_addHost hm' hn, ?_⟩).1
  obtain ⟨t, ht, hcap⟩ := ht'
  exact ⟨t, mem_append_left _ ht, hcap⟩

theorem change_removeHosts (hm : m.ledger.Placed) {removed : List String}
    (he : ∀ id ∈ removed, m.hostToInstances id = []) (hk : ∃ h ∈ m.hosts, h.id ∉ removed) :
    Change P E m.layout ({ m with
      hosts := m.hosts.filter fun h => h.id ∉ removed
      hostToInstances := fun id =>
        if id ∈ removed then [] else m.hostToInstances id } : Manager).layout := by
  have hl : ({ m with
      hosts := m.hosts.filter fun h => h.id ∉ removed
      hostToInstances := fun id =>
        if id ∈ removed then [] else m.hostToInstances id } : Manager).layout =
      m.layout.removeRacks removed := by
    simp only [layout, Layout.removeRacks, filter_map]
    rfl
  rw [hl]
  have hr : ∃ r ∈ m.layout.racks, r.id ∉ removed := by
    obtain ⟨h, hh, hid⟩ := hk
    exact ⟨h.rack, mem_map_of_mem hh, hid⟩
  exact .removeRacks removed (forall_mem_map.2 (hostID_notMem_of_empty hm he)) he hr

/-- The hosts that a scale-in removes are different ones. -/
theorem emptyHosts_nodup (hm : m.ledger.Placed) (rank : String → Nat) :
    (m.emptyHosts rank).Nodup ∧ ∀ id ∈ m.emptyHosts rank, id ∈ m.hosts.map (·.id) := by
  have hp : ((m.hostsInOrder rank).map (·.id)).Perm (m.hosts.map (·.id)) :=
    (mergeSort_perm _ _).map _
  constructor
  · refine (emptyHosts_perm rank).nodup_iff.2 (List.Nodup.filter _ ?_)
    exact hp.nodup_iff.2 hm.hosts
  · intro id hid
    exact hp.mem_iff.1 (mem_of_mem_filter ((emptyHosts_perm rank).mem_iff.1 hid))

theorem length_removeHosts (hm : m.ledger.Placed) {removed : List String} (hn : removed.Nodup)
    (hsub : ∀ id ∈ removed, id ∈ m.hosts.map (·.id)) :
    (m.hosts.filter fun h => h.id ∉ removed).length + removed.length = m.hosts.length := by
  have hi : (m.hosts.map (·.id)).Nodup := hm.hosts
  have hin : ((m.hosts.map (·.id)).filter fun id => id ∈ removed).Perm removed := by
    refine (perm_ext_iff_of_nodup (hi.filter _) hn).2 fun id => ?_
    simp only [mem_filter, decide_eq_true_eq]
    exact ⟨fun h => h.2, fun h => ⟨hsub id h, h⟩⟩
  have hl : (m.hosts.filter fun h => h.id ∈ removed).length = removed.length := by
    rw [← hin.length_eq, filter_map, length_map]
    rfl
  have hs := length_eq_length_filter_add (l := m.hosts) fun h => decide (h.id ∈ removed)
  have hnot : (fun h : Host => !decide (h.id ∈ removed)) = fun h => decide (h.id ∉ removed) := by
    funext h
    simp
  rw [hnot] at hs
  omega

end Manager

/-- The operation asks for more replicas of a service than are active. -/
def Scaling.Raises (m : Manager) (svc : String) : Scaling → Prop
  | .scaleService _ svc' n _ => svc' = svc ∧ ((m.activeIDs svc).length : Int) < n
  | _ => False

/-- A new instance is a copy of an instance of a service that the operation raises. -/
def Scaling.Copies (op : Scaling) (m : Manager) (s : Site) : Prop :=
  op.Raises m s.serviceName ∧ ∃ i ∈ m.instances,
    i.serviceName = s.serviceName ∧ i.cpuCores = s.cpuCores ∧ i.memoryMB = s.memoryMB

namespace Manager

variable {m : Manager}

theorem changes_scaleService (hm : m.ledger.Coherent) (clock : Time) (svc : String) (n : Int)
    (opts : ScaleServiceOptions) :
    Changes (fun _ => (Scaling.scaleService clock svc n opts).Copies m) E m.layout
      (m.scaleServiceWithOptions clock svc n opts).2.layout := by
  unfold scaleServiceWithOptions
  simp only
  have ha : sortStrings (((m.instances.filter (·.serviceName == svc)).filter
      (·.lifecycle == .active)).map (·.id)) = m.activeIDs svc := rfl
  rw [ha]
  split_ifs with ho hno hup hh hd
  · exact .refl
  · exact .refl
  · exact .refl
  · split
    · exact .refl
    · rename_i template ht
      have hmem : template ∈ m.instances ∧ template.serviceName = svc := by
        obtain ⟨id, hid, hf⟩ := Option.bind_eq_some_iff.1 ht
        have hmem := mem_of_find?_eq_some hf
        obtain ⟨i, hi, hid', hsvc, -⟩ := mem_activeIDs.1 (mem_of_mem_head? hid)
        have hn : template.id = id := by simpa using find?_some hf
        obtain rfl := inj_on_of_nodup_map (nodup_instances hm.toPlaced) hmem hi
          (hn.trans hid'.symm)
        exact ⟨hmem, hsvc⟩
      have hch := changes_addReplicas (E := E) (P := fun _ => (Scaling.scaleService clock svc n
        opts).Copies m) hm.toPlaced clock svc template.cpuCores template.memoryMB
        (fun L s hs hc hmb => ⟨⟨hs.symm, by rw [hs]; exact hup⟩, template, hmem.1,
          hmem.2.trans hs.symm, hc.symm, hmb.symm⟩)
        (n.toNat - (m.activeIDs svc).length)
      split
      · exact hch
      · exact hch
  · exact .single (change_drainInstances hm.toPlaced (by omega) (by omega) _)
  · exact .refl

theorem changes_scaling (hm : m.ledger.Coherent) (op : Scaling) :
    Changes (fun _ => op.Copies m) (op.InRange m) m.layout (op.run m).2.layout := by
  cases op with
  | scaleService clock svc n opts => exact changes_scaleService hm clock svc n opts
  | updateServiceResources svc cpu mem headroom =>
    rw [Scaling.run]
    obtain heq | ⟨heq, hcpu, hmem, hf⟩ := updateServiceResources_cases m svc cpu mem headroom
    · rw [heq]
      exact .refl
    · rw [heq, layout_withResources]
      refine .single (.resize svc cpu mem hcpu hmem fun r hr hc hmb => ?_)
      obtain ⟨h, hh, rfl⟩ := mem_map.1 hr
      rw [← layout_withResources]
      exact holds_of_withinCapacity (by rw [ledger_withResources]; exact hm.toPlaced) hc hmb
        (hf h hh)
  | increaseHostCapacity cpu mem => exact .single (change_increaseHostCapacity cpu mem)
  | decreaseHostCapacity =>
    simp only [Scaling.run, decreaseHostCapacity]
    split
    · exact .refl
    · split
      · exact .refl
      · rename_i ha
        exact .single (change_reducedHosts hm.toPlaced (all_eq_true.1 (by simpa using ha)))
  | scaleOutHosts n =>
    simp only [Scaling.run, scaleOutHosts]
    split_ifs
    · exact .refl
    · split
      · exact .refl
      · rename_i template ht
        refine changes_foldl_addAutoHost hm n ⟨template, ?_, rfl, rfl⟩ _
        have hmem := mem_of_mem_head? ht
        rw [hostsInOrder, mem_mergeSort] at hmem
        exact hmem
  | scaleInHosts n rank =>
    simp only [Scaling.run, scaleInHosts]
    split_ifs with hd hfew
    · exact .refl
    · exact .refl
    · obtain ⟨hn, hs⟩ := emptyHosts_nodup hm.toPlaced rank
      set removed := (m.emptyHosts rank).take (m.hosts.length - (max n 1).toNat) with hre
      have hl := length_removeHosts hm.toPlaced (hn.sublist (take_sublist _ _) : removed.Nodup)
        fun id hid => hs id (mem_of_mem_take hid)
      have hta : removed.length = m.hosts.length - (max n 1).toNat := by
        rw [hre, length_take]
        omega
      obtain ⟨h, hh⟩ := exists_mem_of_length_pos
        (show 0 < (m.hosts.filter fun h => h.id ∉ removed).length by omega)
      obtain ⟨hh, hk⟩ := mem_filter.1 hh
      exact .single (change_removeHosts hm.toPlaced
        (fun id hid => emptyHosts_empty rank id (mem_of_mem_take hid))
        ⟨h, hh, by simpa using hk⟩)
  | setScaleDownDrainTimeout =>
    simp only [Scaling.run, setScaleDownDrainTimeout]
    split <;> exact .refl

end Manager

end SimCore.Resource
