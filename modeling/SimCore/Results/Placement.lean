import SimCore.Resource.Operations

/-!
# Placement policies

The initial placement looks at the required zones of a service and at the services it avoids, in the
order of declaration; a scale-up looks at the capacity only. So a placement policy is obeyed after
every history if the rest of it holds anyway and the services it concerns are not scaled up.

## Main definitions

* `Obeys`: an instance obeys the hard constraints of a placement policy
* `PlacementSettled`: the constraints of a scenario that the initial placement does not look at hold
* `Unconstrained`: no hard constraint concerns a service

## Main results

* `policies_obeyed`: placement policies are obeyed if only unconstrained services are scaled up
* `scale_up_ignores_zone`: a scale-up places an instance outside of the required zone
-/

namespace SimCore.Config

/-- A placement policy avoids hosts with instances of a service. -/
def PlacementPolicy.Avoids (p : PlacementPolicy) (svc : String) : Prop :=
  ∃ blocked ∈ p.antiAffinityServices, equalFold (trimSpace blocked) (trimSpace svc) = true

/-- A placement policy requires a zone, if it requires any. -/
def PlacementPolicy.InZone (p : PlacementPolicy) (zone : String) : Prop :=
  p.requiredZones = [] ∨ ∃ z ∈ p.requiredZones, equalFold (trimSpace zone) (trimSpace z) = true

/-- A zone and labels obey the other constraints of a placement policy on hosts. -/
def PlacementPolicy.Allows (p : PlacementPolicy) (zone : String) (labels : List (String × String)) :
    Prop :=
  (∀ z ∈ p.antiAffinityZones, equalFold (trimSpace zone) (trimSpace z) = false) ∧
    ∀ l ∈ p.requiredHostLabels, labels.lookup l.1 = some l.2

/-- A placement policy has no hard constraint. -/
def PlacementPolicy.Soft (p : PlacementPolicy) : Prop :=
  p.requiredZones = [] ∧ p.antiAffinityZones = [] ∧ p.requiredHostLabels = [] ∧
    p.antiAffinityServices = [] ∧ p.maxReplicasPerHost ≤ 0

end SimCore.Config

namespace SimCore.Resource

open Config Manager List

/-- An instance obeys the hard constraints of a placement policy. -/
structure Obeys (p : PlacementPolicy) (m : Manager) (i : ServiceInstance) : Prop where
  host : ∃ h ∈ m.hosts, h.id = i.hostID ∧ p.InZone h.zone ∧ p.Allows h.zone h.labels
  apart : ∀ j ∈ m.instances, j.hostID = i.hostID → j.id ≠ i.id → ¬ p.Avoids j.serviceName
  spread : 0 < p.maxReplicasPerHost → ((m.instances.filter fun j =>
      j.serviceName == i.serviceName && j.hostID == i.hostID).length : Int) ≤ p.maxReplicasPerHost

/-- Every host in a required zone of a service obeys its other constraints on hosts, services are
declared after those that they avoid, and no service has more replicas than a host may take. -/
structure PlacementSettled (sc : Scenario) : Prop where
  hosts : ∀ svc ∈ sc.services, ∀ p, svc.placement = some p → ∀ h ∈ sc.hosts,
    p.InZone h.zone → p.Allows h.zone h.labels
  order : sc.services.Pairwise fun svc later =>
    ∀ p, svc.placement = some p → ¬ p.Avoids later.id
  replicas : ∀ svc ∈ sc.services, ∀ p, svc.placement = some p → 0 < p.maxReplicasPerHost →
    svc.replicas ≤ p.maxReplicasPerHost

/-- A service has no hard constraints, and no other service avoids it. -/
def Unconstrained (sc : Scenario) (name : String) : Prop :=
  ∀ svc ∈ sc.services, ∀ p, svc.placement = some p → (svc.id = name → p.Soft) ∧ ¬ p.Avoids name

/-- Only services without constraints are scaled up. -/
def RaisesUnconstrained (sc : Scenario) (m : Manager) : Operation → Prop
  | .scale op => ∀ name, op.Raises m name → Unconstrained sc name
  | _ => True

/-! ### Layouts -/

/-- The places of the instances obey the placement policies. -/
structure Respected (sc : Scenario) (L : Layout) : Prop where
  hosts : ∀ svc ∈ sc.services, ∀ p, svc.placement = some p → ∀ s ∈ L.sites.map Site.seat,
    s.serviceName = svc.id → ∀ r ∈ L.racks, r.id = s.hostID →
    p.InZone r.zone ∧ p.Allows r.zone r.labels
  apart : ∀ svc ∈ sc.services, ∀ p, svc.placement = some p → ∀ s ∈ L.sites.map Site.seat,
    s.serviceName = svc.id → ∀ s' ∈ L.sites.map Site.seat, s'.hostID = s.hostID → s'.id ≠ s.id →
    ¬ p.Avoids s'.serviceName
  replicas : ∀ svc ∈ sc.services, ∀ p, svc.placement = some p → 0 < p.maxReplicasPerHost →
    ((L.sites.map Site.seat).filter (·.serviceName == svc.id)).length ≤ svc.replicas.toNat

/-- A new instance obeys the placement policies, and the others still do. -/
structure FitsIn (sc : Scenario) (L : Layout) (s : Site) : Prop where
  host : ∀ svc ∈ sc.services, ∀ p, svc.placement = some p → s.serviceName = svc.id →
    ∀ r ∈ L.racks, r.id = s.hostID → p.InZone r.zone ∧ p.Allows r.zone r.labels
  avoids : ∀ svc ∈ sc.services, ∀ p, svc.placement = some p → s.serviceName = svc.id →
    ∀ s' ∈ L.sites.map Site.seat, s'.hostID = s.hostID → ¬ p.Avoids s'.serviceName
  avoided : ∀ svc ∈ sc.services, ∀ p, svc.placement = some p → ∀ s' ∈ L.sites.map Site.seat,
    s'.serviceName = svc.id → s'.hostID = s.hostID → ¬ p.Avoids s.serviceName
  replicas : ∀ svc ∈ sc.services, ∀ p, svc.placement = some p → 0 < p.maxReplicasPerHost →
    s.serviceName = svc.id →
    ((L.sites.map Site.seat).filter (·.serviceName == svc.id)).length < svc.replicas.toNat

section Layouts

variable {sc : Scenario} {P : Layout → Site → Prop} {E : Prop} {L L' : Layout}

/-- A change keeps the policies if its new instance fits in. -/
theorem respected_of_change (h : Change P E L L') (hP : ∀ s, P L s → FitsIn sc L s)
    (hL : Respected sc L) : Respected sc L' := by
  have hra : ∀ seat ∈ L'.sites.map Site.seat, ∀ r ∈ L'.racks, r.id = seat.hostID →
      ∃ r' ∈ L.racks, r'.id = seat.hostID ∧ r'.zone = r.zone ∧ r'.labels = r.labels := by
    intro seat hse r hr hid
    obtain ⟨s, hs, rfl⟩ := mem_map.1 hse
    obtain hf | hfr := h.frames hr
    · obtain ⟨r', hr', heq⟩ := mem_map.1 hf
      obtain ⟨hid', hz, hl⟩ := Prod.mk.inj heq |>.imp_right Prod.mk.inj
      exact ⟨r', hr', hid'.trans hid, hz, hl⟩
    · exact absurd hid.symm (hfr s hs)
  refine ⟨fun svc hsvc p hp seat hse hn r hr hid => ?_,
    fun svc hsvc p hp seat hse hn seat' hs' hh hid => ?_, fun svc hsvc p hp hm => ?_⟩ <;>
    obtain hsub | ⟨s, hs, hseats⟩ := h.seats
  · obtain ⟨r', hr', hid', hz, hl⟩ := hra seat hse r hr hid
    rw [← hz, ← hl]
    exact hL.hosts svc hsvc p hp seat (hsub.mem hse) hn r' hr' hid'
  · obtain ⟨r', hr', hid', hz, hl⟩ := hra seat hse r hr hid
    rw [← hz, ← hl]
    rw [hseats] at hse
    rcases mem_append.1 hse with hse | hse
    · exact hL.hosts svc hsvc p hp seat hse hn r' hr' hid'
    · obtain rfl := mem_singleton.1 hse
      exact (hP s hs).host svc hsvc p hp hn r' hr' hid'
  · exact hL.apart svc hsvc p hp seat (hsub.mem hse) hn seat' (hsub.mem hs') hh hid
  · rw [hseats] at hse hs'
    rcases mem_append.1 hse with hse | hse <;> rcases mem_append.1 hs' with hs' | hs'
    · exact hL.apart svc hsvc p hp seat hse hn seat' hs' hh hid
    · obtain rfl := mem_singleton.1 hs'
      exact (hP s hs).avoided svc hsvc p hp seat hse hn hh.symm
    · obtain rfl := mem_singleton.1 hse
      exact (hP s hs).avoids svc hsvc p hp hn seat' hs' hh
    · exact absurd ((mem_singleton.1 hs').trans (mem_singleton.1 hse).symm ▸ rfl) hid
  · exact (hsub.filter _).length_le.trans (hL.replicas svc hsvc p hp hm)
  · rw [hseats, filter_append, length_append]
    by_cases hn : s.serviceName = svc.id
    · have ho : ([s.seat].filter (·.serviceName == svc.id)).length = 1 := by
        simp [Site.seat, hn]
      have hlt := (hP s hs).replicas svc hsvc p hp hm hn
      omega
    · have hno : ([s.seat].filter (·.serviceName == svc.id)).length = 0 := by
        simp [Site.seat, hn]
      have hle := hL.replicas svc hsvc p hp hm
      omega

/-- An instance of a service without constraints fits in everywhere. -/
theorem fitsIn_of_unconstrained {s : Site} (hs : Unconstrained sc s.serviceName) :
    FitsIn sc L s := by
  refine ⟨?_, ?_, ?_, ?_⟩
  · intro svc hsvc p hp hn r hr hid
    obtain ⟨hz, ha, hl, -⟩ := (hs svc hsvc p hp).1 hn.symm
    exact ⟨.inl hz, by simp [PlacementPolicy.Allows, ha, hl]⟩
  · intro svc hsvc p hp hn s' hs' hh
    obtain ⟨-, -, -, hse, -⟩ := (hs svc hsvc p hp).1 hn.symm
    simp [PlacementPolicy.Avoids, hse]
  · intro svc hsvc p hp s' hs' hn hh
    exact (hs svc hsvc p hp).2
  · intro svc hsvc p hp hm hn
    obtain ⟨-, -, -, -, _⟩ := (hs svc hsvc p hp).1 hn.symm
    omega

/-- An instance of the initial placement fits in if the constraints that the placement does not look
at hold anyway. -/
theorem fitsIn_of_initial (hv : Accepted sc) (hsc : PlacementSettled sc) {s : Site}
    (hs : InitialSite sc L s) : FitsIn sc L s := by
  obtain ⟨hf, _, svc, _, hservices, hse⟩ := hs
  have hm : svc ∈ sc.services := by simp [hservices]
  have hsa : ∀ svc' ∈ sc.services, s.serviceName = svc'.id → svc' = svc := by
    intro svc' hsvc' hn
    exact inj_on_of_nodup_map hv.services hsvc' hm (hn.symm.trans hse.service)
  refine ⟨?_, ?_, ?_, ?_⟩
  · intro svc' hsvc' p hp hn r hr hid
    obtain rfl := hsa svc' hsvc' hn
    obtain ⟨h, hh, hid', hzo⟩ := hse.zone
    -- hosts have distinct names
    have hi : ((L.racks.map Rack.frame).map Prod.fst).Nodup := by
      rw [hf]
      simpa [emptyLayout, Function.comp_def, Rack.frame, Host.rack, newHost] using hv.hosts
    have hfr : h.rack.frame = r.frame :=
      inj_on_of_nodup_map hi (mem_map_of_mem hh) (mem_map_of_mem hr)
        (hid'.trans hid.symm)
    obtain ⟨-, hz, _⟩ := Prod.mk.inj hfr |>.imp_right Prod.mk.inj
    have hin : p.InZone h.zone := by
      simpa [zoneAdmits, hp, PlacementPolicy.InZone, List.isEmpty_iff] using hzo
    replace hin : p.InZone r.zone := hz ▸ hin
    have hco : r.frame ∈ (emptyLayout sc).racks.map Rack.frame :=
      hf ▸ mem_map_of_mem hr
    simp only [emptyLayout, map_map, mem_map] at hco
    obtain ⟨c, hc, heq⟩ := hco
    obtain ⟨-, hcz, hcl⟩ := Prod.mk.inj heq |>.imp_right Prod.mk.inj
    have hcz : c.zone = r.zone := hcz
    refine ⟨hin, ?_⟩
    rw [← hcz, ← hcl]
    exact hsc.hosts svc' hsvc' p hp c hc (hcz ▸ hin)
  · rintro svc' hsvc' p hp hn seat hseat hho ⟨blocked, hb, hfo⟩
    obtain rfl := hsa svc' hsvc' hn
    obtain ⟨s', hs', rfl⟩ := mem_map.1 hseat
    have hnot := hse.antiAffinity p hp s' hs' hho blocked hb
    exact Bool.false_ne_true (hnot.symm.trans hfo)
  · intro svc' hsvc' p hp seat hseat hn hho
    obtain ⟨s', hs', rfl⟩ := mem_map.1 hseat
    obtain ⟨svc₂, hs₂, hn₂⟩ := hse.declared s' hs'
    rcases mem_append.1 hs₂ with hpre | hl
    · -- a service declared earlier avoids no later one
      have hm₂ : svc₂ ∈ sc.services := by simp [hservices, hpre]
      obtain rfl := inj_on_of_nodup_map hv.services hsvc' hm₂ (hn.symm.trans hn₂)
      rw [hse.service]
      have ho := hsc.order
      rw [hservices] at ho
      exact (pairwise_append.1 ho).2.2 svc' hpre svc (mem_cons_self ..) p hp
    · -- another replica of the service
      obtain rfl := mem_singleton.1 hl
      obtain rfl := inj_on_of_nodup_map hv.services hsvc' hm (hn.symm.trans hn₂)
      rintro ⟨blocked, hb, hfo⟩
      have hnot := hse.antiAffinity p hp s' hs' hho blocked hb
      rw [hn₂, ← hse.service, hfo] at hnot
      cases hnot
  · intro svc' hsvc' p hp hmax hn
    obtain rfl := hsa svc' hsvc' hn
    have hcount := hse.replicas
    have hseats : ((L.sites.map Site.seat).filter (·.serviceName == svc'.id)).length =
        (L.sites.filter (·.serviceName == svc'.id)).length := by
      rw [filter_map, length_map]
      rfl
    exact hseats ▸ hcount

end Layouts

/-! ### Histories -/

/-- Placement policies are obeyed after every history in which only unconstrained services are
scaled up, if the constraints that the initial placement does not look at hold anyway. -/
theorem policies_obeyed {sc : Scenario} {m : Manager} (hsc : PlacementSettled sc)
    (hm : ManagedBy (RaisesUnconstrained sc) sc m) {svc : Service} (hsvc : svc ∈ sc.services)
    {p : PlacementPolicy} (hp : svc.placement = some p) {i : ServiceInstance}
    (hi : i ∈ m.instances) (hname : i.serviceName = svc.id) : Obeys p m i := by
  have ha := accepted_of_valid hm.valid
  have hr : Respected sc m.layout := by
    refine hm.induction (Q := Respected sc) ?_ (fun h hL => ?_) fun op _ _ hok h hL => ?_
    · constructor <;> simp [emptyLayout]
    · exact respected_of_change h (fun s => fitsIn_of_initial ha hsc) hL
    · refine respected_of_change h (fun s hs => ?_) hL
      cases op with
      | scale op => exact fitsIn_of_unconstrained (hok s.serviceName hs.1)
      | use | drain => exact hs.elim
  have hse : ∀ j ∈ m.instances, j.site.seat ∈ m.layout.sites.map Site.seat :=
    fun j hj => mem_map_of_mem (mem_map_of_mem hj)
  refine ⟨?_, fun j hj hho hid => ?_, fun hmax => ?_⟩
  · obtain ⟨h, hh, hid⟩ := mem_map.1 (hm.coherent.hosted i.account (mem_map_of_mem hi))
    exact ⟨h, hh, hid, hr.hosts svc hsvc p hp i.site.seat (hse i hi) hname h.rack
      (mem_map_of_mem hh) hid⟩
  · exact hr.apart svc hsvc p hp i.site.seat (hse i hi) hname j.site.seat (hse j hj) hho hid
  · have hc := hr.replicas svc hsvc p hp hmax
    have hseats : ((m.layout.sites.map Site.seat).filter (·.serviceName == svc.id)).length =
        (m.instances.filter (·.serviceName == svc.id)).length := by
      simp only [layout, map_map, filter_map, length_map]
      rfl
    have hsub : (m.instances.filter fun j =>
        j.serviceName == i.serviceName && j.hostID == i.hostID).Sublist
          (m.instances.filter (·.serviceName == svc.id)) := by
      refine monotone_filter_right _ fun j hj => ?_
      simp only [Bool.and_eq_true] at hj
      simpa [← hname] using hj.1
    have hle := hsub.length_le
    have hre := hsc.replicas svc hsvc p hp hmax
    omega

/-- A service that requires one of two zones, beside a service without constraints. -/
def zoned : Scenario where
  hosts := [{ id := "h1", cores := 4, zone := "a" }, { id := "h2", cores := 4, zone := "b" }]
  services := [{ id := "api", replicas := 1, cpuCores := 1, memoryMB := 100
                 placement := some { requiredZones := ["a"] }
                 endpoints := [{ path := "/", meanCPUMs := 1 }] },
               { id := "worker", replicas := 1, cpuCores := 1, memoryMB := 100
                 endpoints := [{ path := "/", meanCPUMs := 1 }] }]
  workload :=
    [{ source := "client", target := "api:/", arrival := { type := "poisson", rateRPS := 1 } }]

theorem policies_obeyed_zoned :
    let m := managerAfter zoned [.scale (.scaleService 0 "worker" 2 ⟨0, 0⟩)]
    m.instances.length = 3 ∧ ∃ i ∈ m.instances, Obeys { requiredZones := ["a"] } m i := by
  intro m
  have hm : ManagedBy (RaisesUnconstrained zoned) zoned m := by
    refine .step (managedBy_start (by decide +kernel))
      (.scale (.scaleService 0 "worker" 2 ⟨0, 0⟩)) ?_
    rintro _ ⟨rfl, -⟩
    simp [Unconstrained, zoned, PlacementPolicy.Avoids]
  have hsc : PlacementSettled zoned := by
    refine ⟨?_, ?_, ?_⟩ <;>
      simp [zoned, PlacementPolicy.InZone, PlacementPolicy.Allows, PlacementPolicy.Avoids]
  have hs : zoned.services.head (by decide) ∈ zoned.services := head_mem _
  refine ⟨by decide +kernel, m.instances.head (by decide +kernel), head_mem _, ?_⟩
  exact policies_obeyed hsc hm hs rfl (head_mem _) (by decide +kernel)

/-- A scale-up succeeds and places an instance outside of the zone that its service requires. -/
theorem scale_up_ignores_zone : let m := managerAfter zoned []
    let op : Scaling := .scaleService 0 "api" 2 ⟨0, 0⟩
    Managed zoned m ∧ (op.run m).1 = .ok () ∧
      ∃ i ∈ (op.run m).2.instances, ∃ h ∈ (op.run m).2.hosts, h.id = i.hostID ∧
        i.serviceName = "api" ∧ h.zone = "b" := by
  refine ⟨managed_managerAfter (by decide +kernel) _, ?_⟩
  decide +kernel

end SimCore.Resource
