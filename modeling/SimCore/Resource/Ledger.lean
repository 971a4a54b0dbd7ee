import SimCore.Resource.Routing
import SimCore.Resource.Scaling
import Mathlib.Data.List.Nodup

/-!
# The books of the resource manager

What the run's protocol depends on in the resource manager: which instances exist, on which hosts
they are, which of them receive requests, and what each has in use. Most operations of the manager
leave these books alone; the others change them in a way that a lemma of this module says. The books
stay coherent: names of instances are never used twice, every instance is on a host that exists and
is listed there, only active instances receive requests, and no request waits in an instance queue.

## Main definitions

* `Account`, `Ledger`, `Manager.ledger`: the books
* `Ledger.Coherent`: their invariants
* `Ledger.Rescaled`: what scaling may change

## Main results

* `Manager.coherent_initializeFromScenario`: the books of a new placement are coherent
* `Manager.drained_processDrainingInstances`: draining keeps them coherent and removes the drained
  accounts
* `Manager.coherent_scaling`: scaling keeps them coherent
* `Manager.ledger_selectInstanceForRequest`: routing selects an instance that receives requests
-/

namespace SimCore.Resource

open Config Manager List ServiceInstance

/-- The account of an instance. -/
structure Account where
  id : String
  serviceName : String
  hostID : String
  lifecycle : InstanceLifecycle
  drainDeadline : Option Time
  activeRequests : Nat
  activeMemoryMB : ℚ
  requestQueue : List Nat
deriving DecidableEq

def ServiceInstance.account (i : ServiceInstance) : Account where
  id := i.id
  serviceName := i.serviceName
  hostID := i.hostID
  lifecycle := i.lifecycle
  drainDeadline := i.drainDeadline
  activeRequests := i.activeRequests
  activeMemoryMB := i.activeMemoryMB
  requestQueue := i.requestQueue

namespace Account

/-- CPU work begins. -/
def enter (a : Account) : Account :=
  { a with activeRequests := a.activeRequests + 1 }

/-- CPU work ends. -/
def leave (a : Account) : Account :=
  { a with activeRequests := a.activeRequests - 1 }

/-- Memory is taken. -/
def take (mb : ℚ) (a : Account) : Account :=
  { a with activeMemoryMB := a.activeMemoryMB + mb }

/-- Memory is given back, unless more is given back than is in use. -/
def give (mb : ℚ) (a : Account) : Account :=
  if a.activeMemoryMB ≥ mb then { a with activeMemoryMB := a.activeMemoryMB - mb } else a

/-- Whether the drain deadline has passed. -/
def overdue (t : Time) (a : Account) : Bool :=
  match a.drainDeadline with
  | some deadline => decide (t ≥ deadline)
  | none => false

/-- Whether draining removes the instance: it is idle, or its deadline has passed. -/
def drained (t : Time) (a : Account) : Bool :=
  a.lifecycle == .draining &&
    (a.activeRequests == 0 && a.requestQueue.isEmpty || a.overdue t)

/-- The account of a new instance. -/
def opened (svc hostID : String) (k : Nat) : Account :=
  ⟨instanceName svc k, svc, hostID, .active, none, 0, 0, []⟩

/-- Where an instance is and what waits for it, which its use does not change. -/
structure SamePlace (a a' : Account) : Prop where
  id : a'.id = a.id
  serviceName : a'.serviceName = a.serviceName
  hostID : a'.hostID = a.hostID
  requestQueue : a'.requestQueue = a.requestQueue

end Account

/-- The books of the resource manager. -/
@[ext] structure Ledger where
  accounts : List Account
  hosts : List String
  hostToInstances : String → List String
  routable : String → List String
  nextInstanceID : Nat

namespace Ledger

/-- An instance exists. -/
def Has (L : Ledger) (id : String) : Prop :=
  ∃ a ∈ L.accounts, a.id = id

/-- An instance receives requests. -/
def Routable (L : Ledger) (id : String) : Prop :=
  ∃ svc, id ∈ L.routable svc

/-- Changes the account of an instance. -/
def modify (L : Ledger) (id : String) (g : Account → Account) : Ledger :=
  { L with accounts := L.accounts.map fun a => if a.id = id then g a else a }

/-- Strikes the accounts of the instances that are not kept. -/
abbrev strike (L : Ledger) (keep : String → Bool) : Ledger :=
  { L with accounts := L.accounts.filter fun a => keep a.id
           hostToInstances := fun h => (L.hostToInstances h).filter keep }

/-- The instances are on their hosts, under names of their own. -/
structure Placed (L : Ledger) : Prop where
  ids : (L.accounts.map (·.id)).Nodup
  hosts : L.hosts.Nodup
  named : ∀ a ∈ L.accounts, ∃ k < L.nextInstanceID, a.id = instanceName a.serviceName k
  hosted : ∀ a ∈ L.accounts, a.hostID ∈ L.hosts
  listed : ∀ h, L.hostToInstances h = (L.accounts.filter (·.hostID == h)).map (·.id)
  queue : ∀ a ∈ L.accounts, a.requestQueue = []

/-- The invariants of the books. -/
structure Coherent (L : Ledger) : Prop extends Placed L where
  routable : ∀ svc, ∀ id ∈ L.routable svc, ∃ a ∈ L.accounts, a.id = id ∧ a.lifecycle = .active

/-- What scaling may change: instances are told to drain, and new ones are added. -/
structure Rescaled (L L' : Ledger) : Prop where
  next_le : L.nextInstanceID ≤ L'.nextInstanceID
  accounts : ∃ (g : Account → Account) (new : List Account), L'.accounts = L.accounts.map g ++ new ∧
    (∀ a ∈ L.accounts, a.SamePlace (g a) ∧ (g a).activeRequests = a.activeRequests ∧
      (g a).activeMemoryMB = a.activeMemoryMB ∧ (a.lifecycle = .draining → g a = a)) ∧
    ∀ a ∈ new, a.lifecycle = .active ∧ a.activeRequests = 0 ∧ a.activeMemoryMB = 0 ∧
      ∃ k, L.nextInstanceID ≤ k ∧ a.id = instanceName a.serviceName k

/-- What draining at a time changes: the drained accounts leave the books. -/
structure Drained (t : Time) (L L' : Ledger) : Prop where
  coherent : L'.Coherent
  next_eq : L'.nextInstanceID = L.nextInstanceID
  accounts : L'.accounts = L.accounts.filter fun a => !a.drained t

variable {L L' : Ledger} {id : String} {g : Account → Account}

theorem modify_of_not_has (h : ¬ L.Has id) : L.modify id g = L := by
  have hm : L.accounts.map (fun a => if a.id = id then g a else a) = L.accounts.map fun a => a :=
    map_congr_left fun a ha => if_neg fun heq => h ⟨a, ha, heq⟩
  rw [modify, hm, map_id'']
  exact fun _ => rfl

theorem Has.modify {id' : String} (h : L.Has id) (hg : ∀ a : Account, (g a).id = a.id) :
    (L.modify id' g).Has id := by
  obtain ⟨a, ha, rfl⟩ := h
  refine ⟨_, mem_map_of_mem ha, ?_⟩
  split
  · exact hg a
  · rfl

theorem modify_modify {g' : Account → Account} (hg : ∀ a : Account, (g a).id = a.id) :
    (L.modify id g).modify id g' = L.modify id fun a => g' (g a) := by
  simp only [Ledger.modify, map_map]
  congr 1
  refine map_congr_left fun a _ => ?_
  by_cases ha : a.id = id <;> simp [ha, hg]

theorem Placed.map (hL : L.Placed) (hg : ∀ a : Account, a.SamePlace (g a)) :
    { L with accounts := L.accounts.map g }.Placed where
  ids := by
    have hi : (L.accounts.map g).map (·.id) = L.accounts.map (·.id) := by
      simp [(hg _).id]
    exact hi ▸ hL.ids
  hosts := hL.hosts
  named := forall_mem_map.2 fun a ha => by
    simpa only [(hg a).id, (hg a).serviceName] using hL.named a ha
  hosted := forall_mem_map.2 fun a ha => (hg a).hostID ▸ hL.hosted a ha
  listed := by
    intro h
    have hl : ((L.accounts.map g).filter (·.hostID == h)).map (·.id) =
        (L.accounts.filter (·.hostID == h)).map (·.id) := by
      simp [filter_map, Function.comp_def, (hg _).hostID, (hg _).id]
    exact (hL.listed h).trans hl.symm
  queue := forall_mem_map.2 fun a ha => (hg a).requestQueue.trans (hL.queue a ha)

section

variable (hL : L.Coherent)
include hL

theorem Coherent.modify
    (hg : ∀ a : Account, a.SamePlace (g a) ∧ (g a).lifecycle = a.lifecycle) :
    (L.modify id g).Coherent := by
  have hi : ∀ a : Account, a.SamePlace (if a.id = id then g a else a) ∧
      (if a.id = id then g a else a).lifecycle = a.lifecycle := by
    intro a
    split
    · exact hg a
    · exact ⟨⟨rfl, rfl, rfl, rfl⟩, rfl⟩
  refine ⟨hL.toPlaced.map fun a => (hi a).1, fun svc x hx => ?_⟩
  obtain ⟨a, ha, rfl, hac⟩ := hL.routable svc x hx
  exact ⟨_, mem_map_of_mem ha, (hi a).1.id, (hi a).2.trans hac⟩

theorem Coherent.enter (id : String) : (L.modify id Account.enter).Coherent :=
  hL.modify fun _ => ⟨⟨rfl, rfl, rfl, rfl⟩, rfl⟩

theorem Coherent.leave (id : String) : (L.modify id Account.leave).Coherent :=
  hL.modify fun _ => ⟨⟨rfl, rfl, rfl, rfl⟩, rfl⟩

theorem Coherent.take (id : String) (mb : ℚ) : (L.modify id (Account.take mb)).Coherent :=
  hL.modify fun _ => ⟨⟨rfl, rfl, rfl, rfl⟩, rfl⟩

theorem Coherent.give (id : String) (mb : ℚ) : (L.modify id (Account.give mb)).Coherent := by
  refine hL.modify fun a => ?_
  unfold Account.give
  split <;> exact ⟨⟨rfl, rfl, rfl, rfl⟩, rfl⟩

end

theorem Placed.strike (hL : L.Placed) (keep : String → Bool) : (L.strike keep).Placed where
  ids := hL.ids.sublist (filter_sublist.map _)
  hosts := hL.hosts
  named := fun a ha => hL.named a (mem_of_mem_filter ha)
  hosted := fun a ha => hL.hosted a (mem_of_mem_filter ha)
  listed := by
    intro h
    simp [hL.listed h, filter_map, Bool.and_comm]
  queue := fun a ha => hL.queue a (mem_of_mem_filter ha)

theorem Placed.strike_eq_self (hL : L.Placed) {keep : String → Bool}
    (hk : ∀ a ∈ L.accounts, keep a.id = true) : L.strike keep = L := by
  refine Ledger.ext (filter_eq_self.2 hk) rfl (funext fun h => ?_) rfl rfl
  rw [filter_eq_self, hL.listed h]
  exact forall_mem_map.2 fun a ha => hk a (mem_of_mem_filter ha)

theorem strike_strike (L : Ledger) (keep keep' : String → Bool) :
    (L.strike keep).strike keep' = L.strike fun x => keep' x && keep x := by
  simp

/-- What happens to an account before it is struck leaves no trace. -/
theorem accounts_strike_modify (L : Ledger) (hg : ∀ a : Account, (g a).id = a.id) :
    ((L.modify id g).strike (· ≠ id)).accounts = (L.strike (· ≠ id)).accounts := by
  simp only [modify]
  induction L.accounts with
  | nil => rfl
  | cons a => by_cases ha : a.id = id <;> simp_all

theorem Placed.eq_of_id (hL : L.Placed) {a b : Account} (ha : a ∈ L.accounts) (hb : b ∈ L.accounts)
    (h : a.id = b.id) : a = b :=
  inj_on_of_nodup_map hL.ids ha hb h

theorem instanceName_inj {svc svc' : String} {k k' : Nat}
    (h : instanceName svc k = instanceName svc' k') : k = k' :=
  itoa_eq_of_append_eq ⟨"-instance".toList, by decide⟩ h

theorem Placed.not_has (hL : L.Placed) {svc : String} {k : Nat} (hk : L.nextInstanceID ≤ k) :
    ¬ L.Has (instanceName svc k) := by
  rintro ⟨a, ha, hid⟩
  obtain ⟨_, _, hid'⟩ := hL.named a ha
  have := instanceName_inj (hid.symm.trans hid')
  omega

theorem Rescaled.of_accounts (ha : L'.accounts = L.accounts)
    (hn : L'.nextInstanceID = L.nextInstanceID) : L.Rescaled L' :=
  ⟨hn.ge, fun a => a, [], by simp [ha], fun _ _ => ⟨⟨rfl, rfl, rfl, rfl⟩, rfl, rfl, fun _ => rfl⟩,
    by simp⟩

/-- New accounts have been added. -/
structure Added (L L' : Ledger) : Prop where
  next_le : L.nextInstanceID ≤ L'.nextInstanceID
  accounts : ∃ new : List Account, L'.accounts = L.accounts ++ new ∧
    ∀ a ∈ new, a.lifecycle = .active ∧ a.activeRequests = 0 ∧ a.activeMemoryMB = 0 ∧
      ∃ k, L.nextInstanceID ≤ k ∧ a.id = instanceName a.serviceName k

theorem Added.refl (L : Ledger) : L.Added L :=
  ⟨le_rfl, [], by simp, by simp⟩

theorem Added.trans {L₁ L₂ L₃ : Ledger} (h₁ : L₁.Added L₂) (h₂ : L₂.Added L₃) : L₁.Added L₃ := by
  obtain ⟨hle₁, new₁, ha₁, hn₁⟩ := h₁
  obtain ⟨hle₂, new₂, ha₂, hn₂⟩ := h₂
  refine ⟨hle₁.trans hle₂, new₁ ++ new₂, by rw [ha₂, ha₁, append_assoc], fun a ha => ?_⟩
  rcases mem_append.1 ha with ha | ha
  · exact hn₁ a ha
  · obtain ⟨hac, hr, hm, k, hk, hid⟩ := hn₂ a ha
    exact ⟨hac, hr, hm, k, hle₁.trans hk, hid⟩

theorem Added.rescaled (h : L.Added L') : L.Rescaled L' := by
  obtain ⟨hle, new, ha, hn⟩ := h
  exact ⟨hle, fun a => a, new, by simp [ha],
    fun _ _ => ⟨⟨rfl, rfl, rfl, rfl⟩, rfl, rfl, fun _ => rfl⟩, hn⟩

theorem Coherent.added (hL : L.Coherent) (hp : L'.Placed) (hr : L'.routable = L.routable)
    (h : L.Added L') : L'.Coherent := by
  obtain ⟨-, new, hacc, -⟩ := h
  refine ⟨hp, fun svc id hid => ?_⟩
  obtain ⟨a, ha, hid, hac⟩ := hL.routable svc id (hr ▸ hid)
  exact ⟨a, by rw [hacc]; exact mem_append_left new ha, hid, hac⟩

theorem Placed.add (hL : L.Placed) (svc hostID : String) (hh : hostID ∈ L.hosts) :
    { L with
      accounts := L.accounts ++ [Account.opened svc hostID L.nextInstanceID]
      hostToInstances := Function.update L.hostToInstances hostID
        (L.hostToInstances hostID ++ [instanceName svc L.nextInstanceID])
      nextInstanceID := L.nextInstanceID + 1 }.Placed where
  ids := by
    simp only [map_append, map_cons, map_nil]
    refine List.Nodup.append hL.ids (by simp) ?_
    intro x hx hx'
    obtain ⟨a, ha, rfl⟩ := mem_map.1 hx
    exact hL.not_has le_rfl ⟨a, ha, mem_singleton.1 hx'⟩
  hosts := hL.hosts
  named := by
    refine forall_mem_append.2 ⟨fun a ha => ?_, forall_mem_singleton.2 ?_⟩
    · obtain ⟨k, hk, hid⟩ := hL.named a ha
      exact ⟨k, Nat.lt_succ_of_lt hk, hid⟩
    · exact ⟨_, Nat.lt_succ_self _, rfl⟩
  hosted := forall_mem_append.2 ⟨hL.hosted, forall_mem_singleton.2 hh⟩
  listed := by
    intro h
    by_cases heq : h = hostID
    · subst heq
      simp [hL.listed h, filter_append, Account.opened]
    · simp [hL.listed h, filter_append, Account.opened, heq, Ne.symm heq]
  queue := forall_mem_append.2 ⟨hL.queue, forall_mem_singleton.2 rfl⟩

end Ledger

/-! ### Lists with changed elements -/

section Changed

variable {α β : Type} {v : α → β} {f : α → α}

/-- A change that a view does not see. -/
theorem map_changed_eq {p : α → Prop} [DecidablePred p] (hv : ∀ a, v (f a) = v a) (l : List α) :
    (l.map fun a => if p a then f a else a).map v = l.map v := by
  rw [map_map]
  refine map_congr_left fun a _ => ?_
  rw [Function.comp_apply, apply_ite v, hv, ite_self]

/-- A change that a view sees as a change of its own. -/
theorem map_changed {q : β → Prop} [DecidablePred q] {g : β → β} (hv : ∀ a, v (f a) = g (v a))
    (l : List α) : (l.map fun a => if q (v a) then f a else a).map v =
      (l.map v).map fun b => if q b then g b else b := by
  simp only [map_map]
  refine map_congr_left fun a _ => ?_
  simp [apply_ite v, hv]

end Changed

namespace Manager

variable {m m' : Manager} {id : String}
  {i : ServiceInstance} {t : Time} {ids : List String} {svc : String}

/-- The books of the resource manager. -/
def ledger (m : Manager) : Ledger where
  accounts := m.instances.map ServiceInstance.account
  hosts := m.hosts.map (·.id)
  hostToInstances := m.hostToInstances
  routable := m.sortedServiceInstMap
  nextInstanceID := m.nextInstanceID

/-! ### Operations on one instance -/

theorem has_iff : m.ledger.Has id ↔ (m.instance? id).isSome := by
  simp [Ledger.Has, ledger, instance?, account, find?_isSome]

theorem nodup_instances (hm : m.ledger.Placed) : (m.instances.map (·.id)).Nodup := by
  have hn := hm.ids
  rwa [ledger, map_map] at hn

theorem instance?_eq_some (hm : m.ledger.Placed) (hi : i ∈ m.instances) :
    m.instance? i.id = some i := by
  cases hf : m.instance? i.id with
  | none =>
    rw [instance?, find?_eq_none] at hf
    exact absurd (beq_self_eq_true i.id) (hf i hi)
  | some =>
    have hmem := mem_of_find?_eq_some hf
    have hid := find?_some hf
    rw [inj_on_of_nodup_map (nodup_instances hm) hmem hi (by simpa using hid)]

theorem ledger_modifyInstance {f : ServiceInstance → ServiceInstance} {g : Account → Account}
    (hf : ∀ i, (f i).account = g i.account) (id : String) :
    (m.modifyInstance id f).ledger = m.ledger.modify id g := by
  have hm := map_changed (q := fun a => a.id = id) hf m.instances
  exact congrArg (fun accounts => { m.ledger with accounts := accounts }) hm

theorem ledger_modifyInstance_same {f : ServiceInstance → ServiceInstance}
    (hf : ∀ i, (f i).account = i.account) (id : String) :
    (m.modifyInstance id f).ledger = m.ledger := by
  rw [ledger_modifyInstance (g := fun a => a) hf]
  simp [Ledger.modify]

theorem ledger_modifyHost {f : Host → Host} (hf : ∀ h, (f h).id = h.id) (hostID : String) :
    (m.modifyHost hostID f).ledger = m.ledger := by
  simp only [ledger, modifyHost, map_changed_eq hf]

@[simp] theorem ledger_updateHostCPU (hostID : String) (t : Time) :
    (m.updateHostCPU hostID t).ledger = m.ledger := by
  refine ledger_modifyHost (fun h => ?_) hostID
  unfold Host.updateCPUUtilization
  split_ifs <;> rfl

@[simp] theorem ledger_updateHostMemory (hostID : String) :
    (m.updateHostMemory hostID).ledger = m.ledger := by
  refine ledger_modifyHost (fun h => ?_) hostID
  unfold Host.updateMemoryUtilization
  split_ifs <;> rfl

theorem noteSimTime_eq (m : Manager) (t : Time) :
    ∃ last, m.noteSimTime t = { m with lastSimTime := last } := by
  unfold noteSimTime
  split
  · split <;> exact ⟨_, rfl⟩
  · exact ⟨_, rfl⟩

@[simp] theorem ledger_noteSimTime (t : Time) : (m.noteSimTime t).ledger = m.ledger := by
  obtain ⟨_, h⟩ := m.noteSimTime_eq t
  rw [h]
  rfl

theorem ledger_reserveCPUWork {arrival : Time} {demand : ℚ} {span : Time × Time}
    (h : m.reserveCPUWork id arrival demand = some (span, m')) :
    m'.ledger = m.ledger ∧ m.ledger.Has id := by
  obtain ⟨_, hi, heq⟩ := Option.map_eq_some_iff.1 h
  obtain ⟨-, rfl⟩ := Prod.mk.inj heq
  exact ⟨ledger_modifyInstance_same (fun _ => by rfl) id, has_iff.2 (by simp [hi])⟩

theorem account_reserveDBWork (i : ServiceInstance) (arrival : Time) (dur : ℚ) (slots : Int) :
    (i.reserveDBWork arrival dur slots).2.account = i.account := by
  unfold ServiceInstance.reserveDBWork ServiceInstance.reserveDBFor
  simp only
  split
  · rfl
  · split <;> rfl

theorem ledger_reserveDBWork {arrival : Time} {dur : ℚ} {slots : Int} {res : Time × ℚ}
    (h : m.reserveDBWork id arrival dur slots = some (res, m')) : m'.ledger = m.ledger := by
  obtain ⟨_, -, heq⟩ := Option.map_eq_some_iff.1 h
  obtain ⟨-, rfl⟩ := Prod.mk.inj heq
  exact ledger_modifyInstance_same (fun i => account_reserveDBWork i arrival dur slots) id

@[simp] theorem ledger_releaseDBConnection (id : String) :
    (m.releaseDBConnection id).ledger = m.ledger :=
  ledger_modifyInstance_same (fun _ => by rfl) id

@[simp] theorem ledger_rollbackCPUTailReservation (id : String) (cpuStart cpuEnd : Time) :
    (m.rollbackCPUTailReservation id cpuStart cpuEnd).ledger = m.ledger := by
  refine ledger_modifyInstance_same (fun i => ?_) id
  unfold ServiceInstance.rollbackCPUTailReservation
  split <;> rfl

theorem account_allocateCPU (i : ServiceInstance) (cpuTimeMs : ℚ) (t : Time) :
    (i.allocateCPU cpuTimeMs t).account = i.account.enter := by
  unfold ServiceInstance.allocateCPU
  split <;> rfl

theorem account_releaseMemory (i : ServiceInstance) (mb : ℚ) :
    (i.releaseMemory mb).account = i.account.give mb := by
  unfold ServiceInstance.releaseMemory Account.give ServiceInstance.account
  split_ifs <;> rfl

theorem exists_host (hm : m.ledger.Coherent) (hi : m.instance? id = some i) :
    ∃ h ∈ m.hosts, m.host? i.hostID = some h := by
  have hmem : i.account ∈ m.ledger.accounts :=
    mem_map_of_mem (mem_of_find?_eq_some hi)
  obtain ⟨h, hh, hid⟩ := mem_map.1 (hm.hosted _ hmem)
  have hs : (m.hosts.find? (·.id == i.hostID)).isSome := by
    simp only [find?_isSome]
    exact ⟨h, hh, by simp [hid, account]⟩
  obtain ⟨h', hh'⟩ := Option.isSome_iff_exists.1 hs
  exact ⟨h', mem_of_find?_eq_some hh', hh'⟩

theorem ledger_allocateCPU {cpuTimeMs : ℚ} (h : m.allocateCPU id cpuTimeMs t = some m') :
    m'.ledger = m.ledger.modify id Account.enter ∧ m.ledger.Has id := by
  unfold allocateCPU at h
  split at h
  · cases h
  · rename_i hi
    split at h
    · cases h
    · cases h
      refine ⟨?_, has_iff.2 (by simp [hi])⟩
      rw [ledger_updateHostCPU]
      exact ledger_modifyInstance (fun i => account_allocateCPU i cpuTimeMs t) id

theorem not_has_of_allocateCPU (hm : m.ledger.Coherent) {cpuTimeMs : ℚ}
    (h : m.allocateCPU id cpuTimeMs t = none) : ¬ m.ledger.Has id := by
  unfold allocateCPU at h
  split at h
  · rename_i hn
    simp [has_iff, hn]
  · rename_i hi
    obtain ⟨_, -, hh⟩ := exists_host hm hi
    simp [hh] at h

theorem ledger_releaseCPU (hm : m.ledger.Coherent) (id : String) (t : Time) :
    (m.releaseCPU id t).ledger = m.ledger.modify id Account.leave := by
  unfold releaseCPU
  split
  · rename_i hn
    exact (Ledger.modify_of_not_has (by simp [has_iff, hn])).symm
  · rename_i hi
    obtain ⟨_, -, hh⟩ := exists_host hm hi
    simp only [hh, ledger_updateHostCPU]
    exact ledger_modifyInstance (fun _ => by rfl) id

theorem ledger_allocateMemory {mb : ℚ} (h : m.allocateMemory id mb = .ok m') :
    m'.ledger = m.ledger.modify id (Account.take mb) ∧ m.ledger.Has id := by
  unfold allocateMemory at h
  split at h
  · cases h
  · rename_i hi
    split at h
    · cases h
    · split at h
      · cases h
      · cases h
        refine ⟨?_, has_iff.2 (by simp [hi])⟩
        rw [ledger_updateHostMemory]
        exact ledger_modifyInstance (fun _ => by rfl) id

theorem ledger_releaseMemory (hm : m.ledger.Coherent) (id : String) (mb : ℚ) :
    (m.releaseMemory id mb).ledger = m.ledger.modify id (Account.give mb) := by
  unfold releaseMemory
  split
  · rename_i hn
    exact (Ledger.modify_of_not_has (by simp [has_iff, hn])).symm
  · rename_i hi
    obtain ⟨_, -, hh⟩ := exists_host hm hi
    simp only [hh, ledger_updateHostMemory]
    exact ledger_modifyInstance (fun i => account_releaseMemory i mb) id

/-! ### Routing -/

theorem getD_mem {i : Nat} (hi : i < ids.length) : ids.getD i "" ∈ ids := by
  simp [getD_eq_getElem?_getD, hi]

/-- A selection moves the cursors of the strategies, that of round robin within the cache. -/
structure Reselected (m m' : Manager) : Prop where
  moved : ∃ cursors wheels draws, m' = { m with
    roundRobinIdx := cursors, weightedRoundRobinIdx := wheels, routingDraws := draws }
  cursor : ∀ svc, m'.roundRobinIdx svc = m.roundRobinIdx svc ∨
    m'.roundRobinIdx svc < (m.sortedServiceInstMap svc).length

theorem Reselected.refl (m : Manager) : m.Reselected m :=
  ⟨⟨_, _, _, rfl⟩, fun _ => .inl rfl⟩

theorem Reselected.moveCursor {n : Nat} (hn : n < (m.sortedServiceInstMap svc).length) :
    m.Reselected { m with roundRobinIdx := Function.update m.roundRobinIdx svc n } := by
  refine ⟨⟨_, _, _, rfl⟩, fun svc' => ?_⟩
  by_cases hs : svc' = svc
  · subst hs
    exact .inr (by simpa using hn)
  · exact .inl (by simp [hs])

theorem selectRoundRobin_spec (hi : ids ≠ []) (hs : ids.Sublist (m.sortedServiceInstMap svc)) :
    (m.selectRoundRobin svc ids).1 ∈ ids ∧ m.Reselected (m.selectRoundRobin svc ids).2 := by
  have hp := length_pos_iff.2 hi
  refine ⟨getD_mem ?_, .moveCursor ((Nat.mod_lt _ hp).trans_le hs.length_le)⟩
  split <;> omega

theorem selectLeast_mem (hi : ids ≠ []) (value : String → ℚ) : selectLeast ids value ∈ ids := by
  obtain ⟨id, rest, rfl⟩ := exists_cons_of_ne_nil hi
  refine foldlRecOn rest _ mem_cons_self fun best hb next hn => ?_
  split
  · exact mem_cons_of_mem id hn
  · exact hb

theorem wheelPick_mem {slots : List Nat} (hi : ids ≠ []) (hl : slots.length = ids.length)
    (cursor : Nat) (total : Int) : wheelPick cursor total ids slots ∈ ids := by
  induction ids generalizing slots total with
  | nil => exact absurd rfl hi
  | cons id _ ih =>
    cases slots with
    | nil => simp at hl
    | cons =>
      rw [wheelPick]
      split_ifs with hne
      · exact mem_cons_self
      · refine mem_cons_of_mem id (ih ?_ (by simpa using hl) _)
        rintro rfl
        simp at hne

theorem applyLocalityPreference_sublist (ids : List String) (pol : Option RoutingPolicy)
    (req : RoutingRequest) : (m.applyLocalityPreference ids pol req).Sublist ids ∧
      (ids ≠ [] → m.applyLocalityPreference ids pol req ≠ []) := by
  unfold applyLocalityPreference
  cases pol with
  | none => exact ⟨.refl _, fun h => h⟩
  | some =>
    simp only
    split
    · exact ⟨.refl _, fun h => h⟩
    · split_ifs with hne
      · exact ⟨.refl _, fun h => h⟩
      · exact ⟨filter_sublist, fun _ hn => hne (by rw [hn]; rfl)⟩

theorem selectInstanceForRequest_spec {oracle : RoutingOracle} {req : RoutingRequest}
    {choice : String × String}
    (h : m.selectInstanceForRequest oracle svc req t = .ok (choice, m')) :
    choice.1 ∈ m.sortedServiceInstMap svc ∧ m.Reselected m' := by
  unfold selectInstanceForRequest at h
  simp only at h
  split at h
  · cases h
  rename_i hne
  generalize m.routingPolicyForRequest svc req = pol at h
  obtain ⟨hsub, hi⟩ :=
    applyLocalityPreference_sublist (m := m) (m.sortedServiceInstMap svc) pol req
  replace hi := hi (by simpa using hne)
  generalize m.applyLocalityPreference (m.sortedServiceInstMap svc) pol req = ids at h hsub hi
  generalize normalizeRoutingStrategy ((pol.map RoutingPolicy.strategy).getD "") = strategy at h
  have hp := length_pos_iff.2 hi
  have hr := selectRoundRobin_spec hi hsub
  suffices hs : choice.1 ∈ ids ∧ m.Reselected m' from ⟨hsub.subset hs.1, hs.2⟩
  split_ifs at h
  all_goals
    have hc : _ = choice := congrArg Prod.fst (Except.ok.inj h)
    have hm : _ = m' := congrArg Prod.snd (Except.ok.inj h)
    subst hc hm
  · exact hr
  · exact ⟨getD_mem (oracle.intn_lt _ _ hp), ⟨_, _, _, rfl⟩, fun _ => .inl rfl⟩
  · exact ⟨selectLeast_mem hi _, .refl m⟩
  · exact ⟨selectLeast_mem hi _, .refl m⟩
  · exact ⟨selectLeast_mem hi _, .refl m⟩
  · unfold selectWeighted
    simp only
    split
    · exact hr
    · exact ⟨wheelPick_mem hi (by simp [wheel]) _ _, ⟨_, _, _, rfl⟩, fun _ => .inl rfl⟩
  · unfold selectSticky
    simp only
    split
    · exact ⟨getD_mem (Nat.mod_lt _ hp), .refl m⟩
    · exact hr

theorem ledger_selectInstanceForRequest {oracle : RoutingOracle} {req : RoutingRequest}
    {choice : String × String}
    (h : m.selectInstanceForRequest oracle svc req t = .ok (choice, m')) :
    m'.ledger = m.ledger ∧ choice.1 ∈ m.sortedServiceInstMap svc := by
  obtain ⟨hm, ⟨_, _, _, rfl⟩, -⟩ := selectInstanceForRequest_spec h
  exact ⟨rfl, hm⟩

theorem selectInstanceForService_spec {id : String}
    (h : m.selectInstanceForService svc = .ok (id, m')) : m.Reselected m' := by
  unfold selectInstanceForService at h
  simp only at h
  split at h
  · cases h
  · rename_i hne
    split at h
    · cases h
    · cases h
      exact .moveCursor (Nat.mod_lt _ (length_pos_iff.2 (by simpa using hne)))

/-! ### The routing cache -/

theorem insertSorted_perm (s : String) (l : List String) : (insertSorted s l).Perm (s :: l) := by
  induction l with
  | nil => exact .refl _
  | cons t l ih =>
    rw [insertSorted]
    split
    · exact .refl _
    · exact (ih.cons t).trans (.swap s t l)

theorem sortStrings_perm (l : List String) : (sortStrings l).Perm l := by
  have hf : ∀ l acc : List String,
      (l.foldl (fun acc s => insertSorted s acc) acc).Perm (acc ++ l) := by
    intro l
    induction l with
    | nil => simp
    | cons s l ih =>
      intro acc
      refine (ih _).trans ?_
      refine ((insertSorted_perm s acc).append_right l).trans ?_
      exact perm_middle.symm
  simpa [sortStrings] using hf l []

theorem insertSorted_sorted (s : String) {l : List String} (hl : l.Pairwise (· ≤ ·)) :
    (insertSorted s l).Pairwise (· ≤ ·) := by
  induction l with
  | nil => simp [insertSorted]
  | cons t l ih =>
    obtain ⟨ht, hl'⟩ := pairwise_cons.1 hl
    rw [insertSorted]
    split_ifs with hlt
    · refine pairwise_cons.2 ⟨fun x hx => ?_, hl⟩
      have hle : s ≤ t := String.not_lt.1 (String.lt_asymm hlt)
      rcases mem_cons.1 hx with rfl | hx
      · exact hle
      · exact String.le_trans hle (ht x hx)
    · refine pairwise_cons.2 ⟨fun x hx => ?_, ih hl'⟩
      rcases mem_cons.1 ((insertSorted_perm s l).mem_iff.1 hx) with rfl | hx
      · exact String.not_lt.1 hlt
      · exact ht x hx

theorem sortStrings_sorted (l : List String) : (sortStrings l).Pairwise (· ≤ ·) := by
  exact foldlRecOn l _ .nil fun _ ha s _ => insertSorted_sorted s ha

theorem mem_sortStrings {x : String} {l : List String} : x ∈ sortStrings l ↔ x ∈ l :=
  (sortStrings_perm l).mem_iff

/-- Rebuilding the routing cache makes placed instances coherent. -/
theorem coherent_rebuildSortedInstanceCache (hm : m.ledger.Placed) :
    m.rebuildSortedInstanceCache.ledger.Coherent := by
  refine ⟨{ hm with }, fun svc id hid => ?_⟩
  have hid : id ∈ sortStrings
      ((m.instances.filter fun i => i.isRoutable && i.serviceName == svc).map (·.id)) := hid
  rw [mem_sortStrings] at hid
  obtain ⟨i, hi, rfl⟩ := mem_map.1 hid
  obtain ⟨hi, ha⟩ := mem_filter.1 hi
  refine ⟨i.account, mem_map_of_mem hi, rfl, ?_⟩
  simp only [isRoutable, Bool.and_eq_true, beq_iff_eq] at ha
  exact ha.1

/-! ### Draining -/

theorem ledger_removeInstance (hm : m.ledger.Placed) (id : String) (t : Time) (evict : Bool) :
    (m.removeInstance id t evict).ledger = m.ledger.strike (· ≠ id) := by
  unfold removeInstance
  split
  · rename_i hn
    have hnot : ¬ m.ledger.Has id := by simp [has_iff, hn]
    exact (hm.strike_eq_self fun a ha => by simpa using fun heq => hnot ⟨a, ha, heq⟩).symm
  · rename_i inst hi
    set m₁ := if evict then ((m.modifyInstance id fun i => evictResourceState i t).updateHostCPU
      inst.hostID t).updateHostMemory inst.hostID else m with hm₁
    obtain ⟨g, hg, hl⟩ : ∃ g : Account → Account, (∀ a, (g a).id = a.id) ∧
        m₁.ledger = m.ledger.modify id g := by
      rw [hm₁]
      split
      · refine ⟨fun a => { a with activeRequests := 0, activeMemoryMB := 0, requestQueue := [] },
          fun _ => rfl, ?_⟩
        rw [ledger_updateHostMemory, ledger_updateHostCPU]
        exact ledger_modifyInstance (fun _ => by rfl) id
      · exact ⟨fun a => a, fun _ => rfl, by simp [Ledger.modify]⟩
    have hli : m₁.hostToInstances = m.hostToInstances := congrArg Ledger.hostToInstances hl
    have hr := congrArg Ledger.routable hl
    have hne := congrArg Ledger.nextInstanceID hl
    refine Ledger.ext ?_ ((map_changed_eq (fun _ => by rfl) m₁.hosts).trans
      (congrArg Ledger.hosts hl)) (funext fun h => ?_) hr hne
    · rw [← Ledger.accounts_strike_modify _ hg, ← hl]
      simp only [ledger, filter_map]
      rfl
    by_cases hh : h = inst.hostID
    · subst hh
      simp [ledger, hli]
    · -- the instance is listed on its own host only
      refine (Function.update_of_ne hh ..).trans ?_
      have hlist : m.hostToInstances h = _ := hm.listed h
      simp only [ledger, hli, hlist]
      refine (filter_eq_self.2 (forall_mem_map.2 fun a ha => ?_)).symm
      obtain ⟨ha, hho⟩ := mem_filter.1 ha
      simp only [ne_eq, decide_not, Bool.not_eq_eq_eq_not, Bool.not_true, decide_eq_false_iff_not]
      rintro heq
      have hid : inst.id = id := by simpa using find?_some hi
      obtain rfl := hm.eq_of_id ha (mem_map_of_mem (mem_of_find?_eq_some hi))
        (heq.trans hid.symm)
      exact hh (beq_iff_eq.1 hho).symm

theorem ledger_foldl_removeInstance (hm : m.ledger.Placed) (is : List ServiceInstance) (t : Time)
    (evict : Bool) : (is.foldl (fun m i => m.removeInstance i.id t evict) m).ledger =
      m.ledger.strike fun x => x ∉ is.map (·.id) := by
  induction is generalizing m with
  | nil => exact (hm.strike_eq_self (by simp)).symm
  | cons i _ ih =>
    have hs := ledger_removeInstance hm i.id t evict
    rw [foldl_cons, ih (hs ▸ hm.strike _), hs, Ledger.strike_strike]
    simp [Bool.and_comm]

/-- What the removal of drained instances and the rebuilding of the routing cache keep holds after
draining. -/
theorem processDrainingInstances_induction {C : Manager → Prop} (hs : C (m.noteSimTime t))
    (hr : ∀ m' i evict, i ∈ m.instances → i.lifecycle = .draining →
      (evict = false → drainedIdle i = true) → C m' → C (m'.removeInstance i.id t evict))
    (hc : ∀ m', C m' → C m'.rebuildSortedInstanceCache) :
    C (m.processDrainingInstances t).2 := by
  have hsa : (m.noteSimTime t).instances = m.instances := by
    obtain ⟨_, h⟩ := m.noteSimTime_eq t
    rw [h]
  unfold processDrainingInstances
  simp only [hsa]
  have he : C ((m.instances.filter fun i => drainOverdue i t).foldl
      (fun m i => m.removeInstance i.id t true) (m.noteSimTime t)) := by
    refine foldlRecOn _ _ hs fun m' hm' i hi => ?_
    obtain ⟨hi, ho⟩ := mem_filter.1 hi
    simp only [drainOverdue, Bool.and_eq_true, beq_iff_eq] at ho
    exact hr m' i true hi ho.1.1 nofun hm'
  have hid := foldlRecOn (m.instances.filter drainedIdle)
    (fun m i => m.removeInstance i.id t false) he fun m' hm' i hi => by
      obtain ⟨hi, hid⟩ := mem_filter.1 hi
      have hd := hid
      simp only [drainedIdle, Bool.and_eq_true, beq_iff_eq] at hd
      exact hr m' i false hi hd.1.1 (fun _ => hid) hm'
  split
  · exact hid
  · exact hc _ hid

theorem drained_account (i : ServiceInstance) (t : Time) :
    i.account.drained t = (drainOverdue i t || drainedIdle i) := by
  simp only [Account.drained, Account.overdue, drainOverdue, drainedIdle, account, Bool.and_assoc]
  generalize (i.lifecycle == .draining) = draining
  generalize (i.activeRequests == 0 && i.requestQueue.isEmpty) = idle
  cases draining <;> cases idle <;> cases i.drainDeadline <;> simp

theorem mem_ids_filter_iff (hm : m.ledger.Placed) (p : ServiceInstance → Bool)
    (hi : i ∈ m.instances) : i.id ∈ (m.instances.filter p).map (·.id) ↔ p i = true := by
  constructor
  · intro h
    obtain ⟨j, hj, hid⟩ := mem_map.1 h
    obtain ⟨hj, hp⟩ := mem_filter.1 hj
    exact inj_on_of_nodup_map (nodup_instances hm) hj hi hid ▸ hp
  · exact fun hp => mem_map_of_mem (mem_filter.2 ⟨hi, hp⟩)

/-- Draining removes the drained accounts, and touches no other. -/
theorem drained_processDrainingInstances (hm : m.ledger.Coherent) (t : Time) :
    m.ledger.Drained t (m.processDrainingInstances t).2.ledger := by
  obtain ⟨m₁, hm₁, hl⟩ : ∃ m₁, m.noteSimTime t = m₁ ∧ m₁.ledger = m.ledger :=
    ⟨_, rfl, ledger_noteSimTime t⟩
  have hp : m₁.ledger.Placed := hl ▸ hm.toPlaced
  set evicted := m₁.instances.filter fun i => drainOverdue i t with he
  set idle := m₁.instances.filter drainedIdle with hidle
  set m₂ := evicted.foldl (fun m i => m.removeInstance i.id t true) m₁ with hm₂
  have hl₂ := ledger_foldl_removeInstance hp evicted t true
  set m₃ := idle.foldl (fun m i => m.removeInstance i.id t false) m₂ with hm₃
  have hl₃ := ledger_foldl_removeInstance (hl₂ ▸ hp.strike _) idle t false
  rw [hl₂, Ledger.strike_strike] at hl₃
  have hac : m₃.ledger.accounts = m.ledger.accounts.filter fun a => !a.drained t := by
    rw [hl₃, ← hl]
    refine filter_congr fun a ha => ?_
    obtain ⟨i, hi, rfl⟩ := mem_map.1 ha
    have hid : i.account.id = i.id := rfl
    simp only [drained_account, hid, hidle, he, decide_not, mem_ids_filter_iff hp _ hi,
      Bool.decide_eq_true, Bool.not_or, Bool.and_comm]
  -- instances that receive requests are active, and stay
  have hc : m₃.ledger.Coherent := by
    refine ⟨hl₃ ▸ hp.strike _, fun svc id hid => ?_⟩
    rw [hl₃, hl] at hid
    obtain ⟨a, ha, hid, hactive⟩ := hm.routable svc id hid
    refine ⟨a, ?_, hid, hactive⟩
    rw [hac]
    exact mem_filter.2 ⟨ha, by simp [Account.drained, hactive]⟩
  have hn : m₃.nextInstanceID = m.nextInstanceID :=
    (congrArg Ledger.nextInstanceID hl₃).trans (congrArg Ledger.nextInstanceID hl)
  have hr : (m.processDrainingInstances t).2 =
      if evicted.isEmpty ∧ idle.isEmpty then m₃ else m₃.rebuildSortedInstanceCache := by
    subst hm₁
    rfl
  rw [hr]
  split
  · exact ⟨hc, hn, hac⟩
  · exact ⟨coherent_rebuildSortedInstanceCache hc.toPlaced, hn, hac⟩

/-- Nothing waits on an instance, so draining drops no request. -/
theorem dropped_processDrainingInstances (hm : m.ledger.Placed) (t : Time) :
    (m.processDrainingInstances t).1 = [] := by
  have hq : ∀ i ∈ (m.noteSimTime t).instances, i.requestQueue = [] := fun i hi => by
    have hp : (m.noteSimTime t).ledger.Placed := by rwa [ledger_noteSimTime]
    exact hp.queue i.account (mem_map_of_mem hi)
  simp only [processDrainingInstances, flatMap_eq_nil_iff]
  exact fun i hi => hq i (mem_filter.1 hi).1

theorem dequeueRequest_eq_none (hm : m.ledger.Placed) (id : String) :
    (m.dequeueRequest id).1 = none := by
  unfold dequeueRequest
  split
  · rfl
  · rename_i inst hf
    have hq : inst.requestQueue = [] :=
      hm.queue inst.account (mem_map_of_mem (mem_of_find?_eq_some hf))
    simp [ServiceInstance.dequeueRequest, hq]

/-! ### Placement -/

theorem placed_addReplica (hm : m.ledger.Placed) {host : Host} (hh : host ∈ m.hosts) (clock : Time)
    (svc : String) (cpu mem : ℚ) : (m.addReplica clock svc host.id cpu mem).ledger.Placed := by
  have ha := hm.add svc host.id (mem_map_of_mem hh)
  have hl : (m.addReplica clock svc host.id cpu mem).ledger =
      { m.ledger with
        accounts := m.ledger.accounts ++ [Account.opened svc host.id m.nextInstanceID]
        hostToInstances := Function.update m.hostToInstances host.id
          (m.hostToInstances host.id ++ [instanceName svc m.nextInstanceID])
        nextInstanceID := m.nextInstanceID + 1 } := by
    simp only [ledger, addReplica, map_append]
    rw [map_changed_eq fun _ => by rfl]
    rfl
  exact hl ▸ ha

theorem added_addReplica (clock : Time) (svc hostID : String) (cpu mem : ℚ) :
    m.ledger.Added (m.addReplica clock svc hostID cpu mem).ledger := by
  refine ⟨Nat.le_succ _, [Account.opened svc hostID m.nextInstanceID], ?_, fun a ha => ?_⟩
  · simp only [ledger, addReplica, map_append]
    rfl
  · rw [mem_singleton.1 ha]
    exact ⟨rfl, rfl, rfl, _, le_rfl, rfl⟩

theorem mem_hosts_of_find {hostIDs : List String} {js : List Nat} {f : Nat → Nat} {p : Host → Bool}
    {h : Host} (hf : (js.filterMap fun j => (hostIDs[f j]?).bind m.host?).find? p = some h) :
    h ∈ m.hosts := by
  obtain ⟨j, -, hj⟩ := mem_filterMap.1 (mem_of_find?_eq_some hf)
  obtain ⟨_, -, hid⟩ := Option.bind_eq_some_iff.1 hj
  exact mem_of_find?_eq_some hid

/-- What holds at the start of the initial placement and is kept by each of its steps holds at the
end: `C pre` when the services `pre` are placed, and `B pre svc n` when `n` replicas of `svc` are
placed after them. -/
theorem initializeFromScenario_induction {C : List Service → Manager → Prop}
    {B : List Service → Service → Nat → Manager → Prop} {sc : Scenario} {clock : Time}
    (hst : C [] { hosts := sc.hosts.map newHost })
    (hne : ∀ {pre svc post m}, sc.services = pre ++ svc :: post → C pre m → ∀ service endpoint,
      B pre svc 0 { m with serviceRouting := service, endpointRouting := endpoint })
    (ha : ∀ {pre svc n m hostIDs start host}, n < svc.replicas.toNat →
      m.findHost svc hostIDs start = some host → B pre svc n m →
      B pre svc (n + 1) (m.addInstance clock svc host))
    (hd : ∀ {pre svc m}, B pre svc svc.replicas.toNat m → C (pre ++ [svc]) m)
    (h : initializeFromScenario sc clock = .ok m) :
    ∃ m', C sc.services m' ∧ m = m'.rebuildSortedInstanceCache := by
  have hr : ∀ {pre svc hostIDs left m m'} n, n + left = svc.replicas.toNat → B pre svc n m →
      placeReplicas clock svc hostIDs n left m = .ok m' → B pre svc svc.replicas.toNat m' := by
    intro pre svc hostIDs left
    induction left with
    | zero =>
      rintro m m' n rfl hB h
      cases h
      exact hB
    | succ _ ih =>
      intro m m' n hn hB h
      simp only [placeReplicas] at h
      split at h
      · rename_i hh
        exact ih (n + 1) (by omega) (ha (by omega) hh hB) h
      · cases h
  have hs : ∀ {hostIDs svcs pre m m'}, sc.services = pre ++ svcs → C pre m →
      placeServices clock hostIDs svcs m = .ok m' → C sc.services m' := by
    intro hostIDs svcs
    induction svcs with
    | nil =>
      intro pre m m' hsc hC h
      cases h
      rwa [hsc, append_nil]
    | cons svc _ ih =>
      intro pre m m' hsc hC h
      simp only [placeServices, bind, Except.bind] at h
      split at h
      · cases h
      · rename_i placed hp
        obtain ⟨service, endpoint, hro⟩ := exists_routed svc m
        rw [hro] at hp
        exact ih (by simp [hsc]) (hd (hr 0 (Nat.zero_add _) (hne hsc hC ..) hp)) h
  simp only [initializeFromScenario, bind, Except.bind] at h
  split at h
  · cases h
  · split at h
    · cases h
    · rename_i placed hp
      cases h
      exact ⟨placed, hs rfl hst hp, rfl⟩

/-- The books of a new placement are coherent, and nothing is in use. -/
theorem coherent_initializeFromScenario {sc : Scenario} {clock : Time}
    (hi : (sc.hosts.map (·.id)).Nodup) (h : initializeFromScenario sc clock = .ok m) :
    m.ledger.Coherent ∧ ∀ a ∈ m.ledger.accounts,
      a.lifecycle = .active ∧ a.activeRequests = 0 ∧ a.activeMemoryMB = 0 := by
  set m₀ : Manager := { hosts := sc.hosts.map newHost }
  have hs : m₀.ledger.Placed := by
    constructor <;> simp [m₀, ledger, newHost, Function.comp_def, hi]
  obtain ⟨placed, ⟨hp, -, _, hacc, hn⟩, rfl⟩ := initializeFromScenario_induction
    (C := fun _ m => m.ledger.Placed ∧ m₀.ledger.Added m.ledger)
    (B := fun _ _ _ m => m.ledger.Placed ∧ m₀.ledger.Added m.ledger) ⟨hs, .refl _⟩
    (fun _ h _ _ => h) (fun _ hf h => ⟨placed_addReplica h.1 (mem_hosts_of_find hf) ..,
      h.2.trans (added_addReplica ..)⟩) (fun h => h) h
  refine ⟨coherent_rebuildSortedInstanceCache hp, fun a ha => ?_⟩
  have ha : a ∈ placed.ledger.accounts := ha
  rw [hacc] at ha
  obtain ⟨hac, hr, hm, -⟩ := hn a (by simpa [m₀, ledger] using ha)
  exact ⟨hac, hr, hm⟩

/-! ### Scaling -/

theorem addReplicas_spec (hm : m.ledger.Placed) (clock : Time) (svc : String) (cpu mem : ℚ)
    (n : Nat) : (addReplicas clock svc cpu mem n m).2.ledger.Placed ∧
      (addReplicas clock svc cpu mem n m).2.ledger.routable = m.ledger.routable ∧
      m.ledger.Added (addReplicas clock svc cpu mem n m).2.ledger := by
  induction n generalizing m with
  | zero => exact ⟨hm, rfl, .refl _⟩
  | succ _ ih =>
    rw [addReplicas]
    split
    · exact ⟨hm, rfl, .refl _⟩
    · rename_i hh
      obtain ⟨hp, hr, ha⟩ :=
        ih (placed_addReplica hm (mem_hosts_of_find hh) clock svc cpu mem)
      exact ⟨hp, hr, (added_addReplica ..).trans ha⟩

theorem rescaled_drainInstances (hm : m.ledger.Placed)
    (hids : ∀ id ∈ ids, ∃ i ∈ m.instances, i.id = id ∧ i.lifecycle = .active) (deadline : Time) :
    (m.drainInstances ids deadline).ledger.Placed ∧
      m.ledger.Rescaled (m.drainInstances ids deadline).ledger := by
  set g : Account → Account := fun a =>
    if a.id ∈ ids then { a with lifecycle := .draining, drainDeadline := some deadline } else a
    with hg
  have hl : (m.drainInstances ids deadline).ledger =
      { m.ledger with accounts := m.ledger.accounts.map g } := by
    have hmap : (m.drainInstances ids deadline).instances.map account =
        (m.instances.map account).map g :=
      map_changed (q := fun a : Account => a.id ∈ ids) (fun _ => by rfl) m.instances
    simp only [ledger, hmap]
    rfl
  have hs : ∀ a : Account, a.SamePlace (g a) := by
    intro a
    simp only [hg]
    split <;> exact ⟨rfl, rfl, rfl, rfl⟩
  rw [hl]
  refine ⟨hm.map hs, le_rfl, g, [], by simp, fun a ha => ⟨hs a, ?_, ?_, fun hd => ?_⟩, by simp⟩
  · simp only [hg]
    split <;> rfl
  · simp only [hg]
    split <;> rfl
  · refine if_neg fun hmem => ?_
    obtain ⟨i, hi, hid, hac⟩ := hids a.id hmem
    have heq := hm.eq_of_id ha (mem_map_of_mem hi) hid.symm
    rw [heq] at hd
    cases hac.symm.trans hd

theorem scaleServiceWithOptions_spec (hm : m.ledger.Coherent) (clock : Time) (svc : String)
    (n : Int) (opts : ScaleServiceOptions) :
    (m.scaleServiceWithOptions clock svc n opts).2.ledger.Coherent ∧
      m.ledger.Rescaled (m.scaleServiceWithOptions clock svc n opts).2.ledger := by
  have hs : m.ledger.Coherent ∧ m.ledger.Rescaled m.ledger := ⟨hm, .of_accounts rfl rfl⟩
  unfold scaleServiceWithOptions
  simp only
  split_ifs
  · exact hs
  · exact hs
  · exact hs
  · split
    · exact hs
    · rename_i template _
      obtain ⟨hp, hro, ha⟩ := addReplicas_spec hm.toPlaced clock svc
        template.cpuCores template.memoryMB (n.toNat - (sortStrings
          (((m.instances.filter (·.serviceName == svc)).filter (·.lifecycle == .active)).map
            (·.id))).length)
      split
      · exact ⟨coherent_rebuildSortedInstanceCache hp, ha.rescaled.next_le, ha.rescaled.accounts⟩
      · exact ⟨hm.added hp hro ha, ha.rescaled⟩
  · have hac : ∀ id ∈ (sortStrings (((m.instances.filter (·.serviceName == svc)).filter
        (·.lifecycle == .active)).map (·.id))).drop n.toNat,
        ∃ i ∈ m.instances, i.id = id ∧ i.lifecycle = .active := by
      intro id hid
      obtain ⟨i, hi, rfl⟩ := mem_map.1 (mem_sortStrings.1 (mem_of_mem_drop hid))
      obtain ⟨hi, hac⟩ := mem_filter.1 hi
      exact ⟨i, (mem_filter.1 hi).1, rfl, by simpa using hac⟩
    obtain ⟨hp, hr⟩ := rescaled_drainInstances hm.toPlaced hac
      (opts.simTime + m.effectiveDrainTimeout opts)
    exact ⟨coherent_rebuildSortedInstanceCache hp, hr.next_le, hr.accounts⟩
  · exact hs

theorem ledger_withResources (svc : String) (cpu mem : ℚ) :
    (m.withResources svc cpu mem).ledger = m.ledger := by
  have hm : (m.withResources svc cpu mem).instances.map account =
      m.instances.map account := map_changed_eq (fun _ => by rfl) m.instances
  simp only [ledger, hm]
  rfl

theorem ledger_mapHosts {f : Host → Host} (hf : ∀ h, (f h).id = h.id) :
    (m.mapHosts f).ledger = m.ledger := by
  simp [ledger, mapHosts, Function.comp_def, hf]

/-- The host that a scale-out adds. -/
def autoHost (template : Host) (index : Nat) : Host :=
  { id := "host-auto-" ++ itoa index, cpuCores := template.cpuCores, memoryGB := template.memoryGB }

/-- What new hosts under names of their own keep holds after a scale-out. -/
theorem addAutoHost_induction {C : Manager → Prop} (hm : C m) (template : Host) (target : Int)
    (is : List Nat) (ha : ∀ m' i, (∀ h ∈ m'.hosts, h.id ≠ (autoHost template i).id) → C m' →
      C { m' with hosts := m'.hosts ++ [autoHost template i] }) :
    C (is.foldl (addAutoHost template target) m) := by
  refine foldlRecOn is _ hm fun m' hm' i _ => ?_
  unfold addAutoHost
  simp only
  split_ifs with hnew
  · have hn := find?_eq_none.1 (Option.isNone_iff_eq_none.1 hnew.2)
    exact ha m' i (fun h hh => by simpa [autoHost] using hn h hh) hm'
  · exact hm'

theorem hostID_ne_of_new (hm : m.ledger.Placed) {id : String} (hn : ∀ h ∈ m.hosts, h.id ≠ id) :
    ∀ i ∈ m.instances, i.hostID ≠ id := by
  intro i hi heq
  obtain ⟨h, hh, hid⟩ := mem_map.1 (hm.hosted i.account (mem_map_of_mem hi))
  exact hn h hh (hid.trans heq)

theorem coherent_addHost (hm : m.ledger.Coherent) {host : Host}
    (hn : ∀ h ∈ m.hosts, h.id ≠ host.id) :
    ({ m with hosts := m.hosts ++ [host] } : Manager).ledger.Coherent := by
  refine ⟨⟨hm.ids, ?_, hm.named, fun a ha => ?_, hm.listed, hm.queue⟩, hm.routable⟩
  · simp only [ledger, map_append, map_cons, map_nil]
    refine hm.hosts.append (by simp) fun x hx hx' => ?_
    obtain ⟨h, hh, rfl⟩ := mem_map.1 hx
    exact hn h hh (mem_singleton.1 hx')
  · simp only [ledger, map_append, mem_append]
    exact .inl (hm.hosted a ha)

/-- Hosts on which nothing is listed have no instances. -/
theorem hostID_notMem_of_empty (hm : m.ledger.Placed) {removed : List String}
    (he : ∀ id ∈ removed, m.hostToInstances id = []) :
    ∀ i ∈ m.instances, i.hostID ∉ removed := by
  intro i hi hmem
  have hl := (hm.listed i.hostID).symm.trans (he _ hmem)
  have hn := filter_eq_nil_iff.1 (map_eq_nil_iff.1 hl)
  exact hn i.account (mem_map_of_mem hi) (beq_self_eq_true _)

theorem coherent_removeHosts (hm : m.ledger.Coherent) {removed : List String}
    (he : ∀ id ∈ removed, m.hostToInstances id = []) :
    ({ m with
      hosts := m.hosts.filter fun h => h.id ∉ removed
      hostToInstances := fun id =>
        if id ∈ removed then [] else m.hostToInstances id } : Manager).ledger.Coherent := by
  have hl : (fun id => if id ∈ removed then [] else m.hostToInstances id) = m.hostToInstances := by
    funext id
    split_ifs with hmem
    · exact (he id hmem).symm
    · rfl
  refine ⟨⟨hm.ids, ?_, hm.named, forall_mem_map.2 fun i hi => ?_, fun h => ?_, hm.queue⟩,
    hm.routable⟩
  · exact hm.hosts.sublist (filter_sublist.map _)
  · obtain ⟨h, hh, hid⟩ := mem_map.1 (hm.hosted i.account (mem_map_of_mem hi))
    refine mem_map.2 ⟨h, mem_filter.2 ⟨hh, ?_⟩, hid⟩
    rw [decide_eq_true_eq, hid]
    exact hostID_notMem_of_empty hm.toPlaced he i hi
  · exact (congrFun hl h).trans (hm.listed h)

theorem emptyHosts_perm (rank : String → Nat) : (m.emptyHosts rank).Perm
    (((m.hostsInOrder rank).map (·.id)).filter fun id => (m.hostToInstances id).isEmpty) := by
  set empty := ((m.hostsInOrder rank).map (·.id)).filter fun id => (m.hostToInstances id).isEmpty
    with he
  have hn : (fun id => (autoIndex id).isNone) = fun id => !(autoIndex id).isSome := by
    funext id
    cases autoIndex id <;> rfl
  rw [emptyHosts, ← he]
  simp only [hn]
  refine ((mergeSort_perm _ _).append_right _).trans ?_
  exact filter_append_perm _ _

theorem emptyHosts_empty (rank : String → Nat) : ∀ id ∈ m.emptyHosts rank,
    m.hostToInstances id = [] := by
  intro id hid
  simpa using (mem_filter.1 ((emptyHosts_perm rank).mem_iff.1 hid)).2

/-- Scaling keeps the books coherent, and changes them only as `Rescaled` says. -/
theorem coherent_scaling (hm : m.ledger.Coherent) (op : Scaling) :
    (op.run m).2.ledger.Coherent ∧ m.ledger.Rescaled (op.run m).2.ledger := by
  have hs : ∀ {m'}, ledger m' = m.ledger → m'.ledger.Coherent ∧ m.ledger.Rescaled m'.ledger :=
    fun h => ⟨h ▸ hm, .of_accounts (by rw [h]) (by rw [h])⟩
  cases op with
  | scaleService clock svc n opts => exact scaleServiceWithOptions_spec hm clock svc n opts
  | updateServiceResources svc cpu mem headroom =>
    rw [Scaling.run]
    obtain heq | ⟨heq, -⟩ := updateServiceResources_cases m svc cpu mem headroom
    · exact hs (by rw [heq])
    · exact hs (by rw [heq, ledger_withResources])
  | increaseHostCapacity => exact hs (ledger_mapHosts fun _ => by rfl)
  | decreaseHostCapacity =>
    simp only [Scaling.run, decreaseHostCapacity]
    split
    · exact hs rfl
    · split
      · exact hs rfl
      · exact hs (ledger_mapHosts fun _ => by rfl)
  | scaleOutHosts n =>
    simp only [Scaling.run, scaleOutHosts]
    split_ifs
    · exact hs rfl
    · split
      · exact hs rfl
      · obtain ⟨hc, ha, hn⟩ := addAutoHost_induction (C := fun m' => m'.ledger.Coherent ∧
          m'.ledger.accounts = m.ledger.accounts ∧ m'.nextInstanceID = m.nextInstanceID)
          ⟨hm, rfl, rfl⟩ _ n _ fun m' i hnew h => ⟨coherent_addHost h.1 hnew, h.2⟩
        exact ⟨hc, .of_accounts ha hn⟩
  | scaleInHosts _ rank =>
    simp only [Scaling.run, scaleInHosts]
    split_ifs
    · exact hs rfl
    · exact hs rfl
    · exact ⟨coherent_removeHosts hm fun id hid => emptyHosts_empty rank id (mem_of_mem_take hid),
        .of_accounts rfl rfl⟩
  | setScaleDownDrainTimeout =>
    simp only [Scaling.run, setScaleDownDrainTimeout]
    split <;> exact hs rfl

end Manager

end SimCore.Resource
