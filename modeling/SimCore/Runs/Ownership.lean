import SimCore.Concurrent.Rely
import SimCore.Runs.Lifecycle

/-!
# Who owns a run

An accepted start owns the run until its goroutine has cleaned up, or until the start is rejected.
What is registered for a run belongs to its owner. This is so as long as no start finds the run
running and no id that has an owner is created again; the state says nothing about it, so the
argument is about what the threads do.

When a goroutine ends, the run is settled: it has ended, is not stored any more, or a stop is about
to end it. A context is cancelled only if its run is settled or its lease has ended. This part needs
more: deadlines and lease ends must come in time. Whether they do is a parameter, so that ownership
does not depend on it.

## Main definitions

* `Settled`, `Dismissed`: the run needs no goroutine; its context may be cancelled
* `RunInv`: what holds of every run in every state
* `RelyOn`: what a thread can count on about a run while others are at work
* `Op.pre`: when a thread may carry out an operation
-/

namespace SimCore.Runs

open Concurrent

/-- The run has ended, is not stored, or a stop is about to end it. -/
def Settled (e : Executor) (id : RunId) : Prop :=
  (∀ rec, e.store.get id = some rec → rec.terminal = true) ∨ e.stopping id ≠ []

/-- The run is settled, or the end of its lease was signalled. -/
def Dismissed (e : Executor) (id : RunId) : Prop :=
  Settled e id ∨ e.lease id = .signalled ∨ e.lease id = .closed

/-- The run has an owner, or timers that matter. -/
def Begun (timely : Prop) (e : Executor) (id : RunId) : Prop :=
  e.owners id ≠ [] ∨ timely ∧ e.timers id = true

/-- A run that has not ended has the input. -/
def Carries (e : Executor) (id : RunId) (input : RunInput) : Prop :=
  ∀ rec, e.store.get id = some rec → rec.terminal = true ∨ rec.input = some input

/-- Everything that is registered for the run belongs to one thread. -/
structure Registered (e : Executor) (id : RunId) (i : Nat) : Prop where
  cancels : ∀ t, e.cancels id = some t → t = i
  workloadStates : ∀ t, e.workloadStates id = some t → t = i
  resourceManagers : ∀ t, e.resourceManagers id = some t → t = i
  policyManagers : ∀ t, e.policyManagers id = some t → t = i
  runScenarios : ∀ t, e.runScenarios id = some t → t = i

/-- Nothing is registered for the run. -/
structure Unregistered (e : Executor) (id : RunId) : Prop where
  cancels : e.cancels id = none
  workloadStates : e.workloadStates id = none
  resourceManagers : e.resourceManagers id = none
  policyManagers : e.policyManagers id = none
  runScenarios : e.runScenarios id = none

/-- What is registered for a run is the same in both states. -/
structure SameEntries (e e' : Executor) (id : RunId) : Prop where
  cancels : e'.cancels id = e.cancels id
  workloadStates : e'.workloadStates id = e.workloadStates id
  resourceManagers : e'.resourceManagers id = e.resourceManagers id
  policyManagers : e'.policyManagers id = e.policyManagers id
  runScenarios : e'.runScenarios id = e.runScenarios id

/-- What holds of every run in every state; of its end only if deadlines and leases are timely. -/
structure RunInv (timely : Prop) (e : Executor) (id : RunId) : Prop where
  begun : Begun timely e id →
    ∀ rec, e.store.get id = some rec → rec.status = .running ∨ rec.terminal = true
  free : e.owners id = [] → Unregistered e id
  single : ∀ i ∈ e.owners id, e.owners id = [i] ∧ Registered e id i
  live : e.live id = [] ∨ e.live id = e.owners id
  context : ∀ t, e.cancels id = some t → e.contextRun t = some id
  cancelled : timely → ∀ t ∈ e.owners id, e.contextRun t = some id → e.cancelled t = true →
    Dismissed e id
  finished : timely → e.launched id = true → e.live id ≠ [] ∨ Settled e id
  reason : e.lease id = .signalled → e.onlineCompletionReason id ≠ none

/-- What others do to the lease of a run that a thread owns. -/
def LeaseKept (timers : Bool) (before after : Lease) : Prop :=
  after = before ∨ (before = .open ∧ after = .signalled ∧ timers = true)

/-- What a thread can count on about a run while others are at work. -/
structure RelyOn (i : Nat) (e e' : Executor) (id : RunId) : Prop where
  settled : i ∈ e.owners id → Settled e id → Settled e' id
  dismissed : ∀ t, e.contextRun t = some id → (t ∈ e.owners id → Dismissed e id) →
    t ∈ e'.owners id → Dismissed e' id
  carries : ∀ input, i ∈ e.owners id → Carries e id input → Carries e' id input
  owner : i ∈ e'.owners id ↔ i ∈ e.owners id
  stopping : i ∈ e'.stopping id ↔ i ∈ e.stopping id
  contextRun : ∀ t, e.contextRun t = some id → e'.contextRun t = some id
  entries : i ∈ e.owners id → SameEntries e e' id
  live : i ∈ e.owners id → e'.live id = e.live id
  timers : i ∈ e.owners id → e'.timers id = e.timers id
  lease : i ∈ e.owners id → LeaseKept (e.timers id) (e.lease id) (e'.lease id)

/-- What a thread can count on while others are at work. -/
structure RelyAll (i : Nat) (e e' : Executor) : Prop where
  run : ∀ id, RelyOn i e e' id
  context : e'.contextRun i = e.contextRun i

/-- When a thread may carry out an operation. -/
def Op.pre (timely : Prop) (i : Nat) (e : Executor) : Op → Prop
  | .lookupCancel _ self | .setStatus (.stop self) _ _ _ => self = i
  | .setStatusRunning _ self => self = i ∧ e.contextRun i = none
  | .setStatus (.start self) id _ _ =>
    self = i ∧ i ∈ e.owners id ∧ Unregistered e id ∧ e.live id = []
  | .registerCancel id self =>
    self = i ∧ i ∈ e.owners id ∧ Unregistered e id ∧ e.contextRun i = none
  | .spawn id self => self = i ∧ i ∈ e.owners id ∧ e.live id = []
  | .registerRun id self => self = i ∧ i ∈ e.owners id
  | .startTimers id => i ∈ e.owners id
  | .takeOnlineCompletionReason id =>
    i ∈ e.owners id ∧ (e.lease id = .open ∨ e.lease id = .signalled)
  | .cancel ctx => timely → ∃ id, e.contextRun ctx = some id ∧ (ctx ∈ e.owners id → Dismissed e id)
  | .cleanup id self => self = i ∧ i ∈ e.owners id ∧ (timely → Settled e id)
  | _ => True

/-- The id under which a creation stores a run. -/
def createdId (runID : RunId) (a : Answer) : RunId :=
  if runID = "" then a.generated else runID

/-- No start finds the run running, and no id is created again before the goroutine of the older
run is over. -/
def startsOnce (e : Executor) (_ : Nat) (op : Op) (a : Answer) : Bool :=
  match op with
  | .setStatusRunning runID _ => (e.store.get runID).all fun rec => rec.status != .running
  | .create runID _ _ => (e.owners (createdId runID a)).isEmpty
  | _ => true

/-- The deadline of an optimization counts only when its context was cancelled, no lease ends
between the moment its goroutine found no reason and the check of the context, and no id that had
timers is created again. -/
def endsInTime (e : Executor) (_ : Nat) (op : Op) (a : Answer) : Bool :=
  match op with
  | .ctxErr ctx deadline => !(deadline && a.expired) || e.cancelled ctx
  | .signalLeaseEnd runID _ => e.lease runID != .leaving
  | .create runID _ _ => !e.timers (createdId runID a)
  | _ => true

/-! ### Reliance composes -/

theorem LeaseKept.trans {t : Bool} {a b c : Lease} (h : LeaseKept t a b) (h' : LeaseKept t b c) :
    LeaseKept t a c := by
  obtain rfl | ⟨rfl, rfl, ht⟩ := h
  · exact h'
  · obtain rfl | ⟨h, -, -⟩ := h'
    · exact .inr ⟨rfl, rfl, ht⟩
    · cases h

variable {e e' e'' : Executor} {id : RunId} {i : Nat}

/-- An operation that writes none of the registers leaves the entries as they are. -/
theorem SameEntries.same (h : (e'.cancels id, e'.workloadStates id, e'.resourceManagers id,
      e'.policyManagers id, e'.runScenarios id) = (e.cancels id, e.workloadStates id,
      e.resourceManagers id, e.policyManagers id, e.runScenarios id)) : SameEntries e e' id := by
  simp only [Prod.mk.injEq] at h
  exact ⟨h.1, h.2.1, h.2.2.1, h.2.2.2.1, h.2.2.2.2⟩

theorem SameEntries.trans (h : SameEntries e e' id) (h' : SameEntries e' e'' id) :
    SameEntries e e'' id :=
  ⟨h'.1.trans h.1, h'.2.trans h.2, h'.3.trans h.3, h'.4.trans h.4, h'.5.trans h.5⟩

theorem SameEntries.unregistered (h : SameEntries e e' id) (hu : Unregistered e id) :
    Unregistered e' id :=
  ⟨h.1.trans hu.1, h.2.trans hu.2, h.3.trans hu.3, h.4.trans hu.4, h.5.trans hu.5⟩

theorem SameEntries.registered (h : SameEntries e e' id) (hr : Registered e id i) :
    Registered e' id i where
  cancels := by rw [h.cancels]; exact hr.cancels
  workloadStates := by rw [h.workloadStates]; exact hr.workloadStates
  resourceManagers := by rw [h.resourceManagers]; exact hr.resourceManagers
  policyManagers := by rw [h.policyManagers]; exact hr.policyManagers
  runScenarios := by rw [h.runScenarios]; exact hr.runScenarios

theorem Unregistered.registered (h : Unregistered e id) (i : Nat) : Registered e id i where
  cancels := by simp [h.cancels]
  workloadStates := by simp [h.workloadStates]
  resourceManagers := by simp [h.resourceManagers]
  policyManagers := by simp [h.policyManagers]
  runScenarios := by simp [h.runScenarios]

theorem RelyOn.refl (i : Nat) (e : Executor) (id : RunId) : RelyOn i e e id where
  settled _ h := h
  dismissed _ _ h := h
  carries _ _ h := h
  owner := Iff.rfl
  stopping := Iff.rfl
  contextRun _ h := h
  entries _ := .same rfl
  live _ := rfl
  timers _ := rfl
  lease _ := .inl rfl

theorem RelyOn.trans (h : RelyOn i e e' id) (h' : RelyOn i e' e'' id) : RelyOn i e e'' id where
  settled hi hs := h'.settled (h.owner.2 hi) (h.settled hi hs)
  dismissed t ht hd := h'.dismissed t (h.contextRun t ht) (h.dismissed t ht hd)
  carries input hi hc := h'.carries input (h.owner.2 hi) (h.carries input hi hc)
  owner := h'.owner.trans h.owner
  stopping := h'.stopping.trans h.stopping
  contextRun t ht := h'.contextRun t (h.contextRun t ht)
  entries hi := (h.entries hi).trans (h'.entries (h.owner.2 hi))
  live hi := (h'.live (h.owner.2 hi)).trans (h.live hi)
  timers hi := (h'.timers (h.owner.2 hi)).trans (h.timers hi)
  lease hi := (h.lease hi).trans (h.timers hi ▸ h'.lease (h.owner.2 hi))

theorem RelyAll.refl (i : Nat) (e : Executor) : RelyAll i e e :=
  ⟨fun id => .refl i e id, rfl⟩

theorem RelyAll.trans (h : RelyAll i e e') (h' : RelyAll i e' e'') : RelyAll i e e'' :=
  ⟨fun id => (h.run id).trans (h'.run id), h'.context.trans h.context⟩

/-! ### Runs whose books stay as they are -/

section

variable {timely : Prop} {e e' : Executor} {id : RunId}

/-- A run that is neither running nor over was not begun. -/
theorem RunInv.not_begun (h : RunInv timely e id) {rec : RunRecord}
    (hrec : e.store.get id = some rec) (hr : rec.status ≠ .running) (ht : rec.terminal = false) :
    e.owners id = [] ∧ (timely → e.timers id = false) := by
  have hn : ¬Begun timely e id := fun hb => by simpa [hr, ht] using h.begun hb rec hrec
  simpa [Begun] using hn

/-- With the same owners and entries, nothing is registered for a run without owner, -/
theorem RunInv.free_of_same (h : RunInv timely e id) (ho : e'.owners id = e.owners id)
    (he : SameEntries e e' id) : e'.owners id = [] → Unregistered e' id :=
  fun hf => he.unregistered (h.free (ho ▸ hf))

/-- and everything that is registered belongs to the owner. -/
theorem RunInv.single_of_same (h : RunInv timely e id) (ho : e'.owners id = e.owners id)
    (he : SameEntries e e' id) :
    ∀ i ∈ e'.owners id, e'.owners id = [i] ∧ Registered e' id i := by
  rw [ho]
  exact fun i hi => ⟨(h.single i hi).1, he.registered (h.single i hi).2⟩

end

/-- What an operation may do to the record of a run that was created before: it never becomes
pending again, and once it has ended, it is not running again. -/
structure Onward (before after : Option RunRecord) : Prop where
  begun : (∀ rec, before = some rec → rec.status = .running ∨ rec.terminal = true) →
    ∀ rec, after = some rec → rec.status = .running ∨ rec.terminal = true
  ended : (∀ rec, before = some rec → rec.terminal = true) →
    ∀ rec, after = some rec → rec.terminal = true
  carries : ∀ input, (∀ rec, before = some rec → rec.terminal = true ∨ rec.input = some input) →
    ∀ rec, after = some rec → rec.terminal = true ∨ rec.input = some input

theorem terminal_ended (cfg : RunStoreLifecycleConfig) (ending : Ending) (errMsg : String)
    (now : Int)
    (rec : RunRecord) : (RunStore.ended cfg ending.status errMsg now rec).terminal = true :=
  RunStore.terminal_ended_of_status (by cases ending <;> rfl)

/-- Apart from creations, every fate is onward. -/
theorem Fate.onward {cfg : RunStoreLifecycleConfig} {op : Op} {before after : Option RunRecord}
    (h : Fate cfg id op before after)
    (hop : ∀ runID input parent, op ≠ .create runID input parent) : Onward before after := by
  cases h with
  | absent => exact ⟨by simp, by simp, by simp⟩
  | created => exact absurd rfl (hop _ _ _)
  | kept hk =>
    refine ⟨?_, ?_, ?_⟩
    · rintro h _ ⟨⟩
      rw [hk.status, hk.terminal]
      exact h _ rfl
    · rintro h _ ⟨⟩
      rw [hk.terminal]
      exact h _ rfl
    · rintro input h _ ⟨⟩
      rw [hk.terminal]
      obtain ht | hi := h _ rfl
      · exact .inl ht
      · exact hk.input.symm.imp_right fun h => h.trans hi
  | started _ _ ht =>
    refine ⟨?_, ?_, ?_⟩
    · rintro - _ ⟨⟩
      exact .inl rfl
    · intro h
      exact absurd (h _ rfl) (by simp [ht])
    · rintro input h _ ⟨⟩
      exact .inr ((h _ rfl).resolve_left (by simp [ht]))
  | ended =>
    refine ⟨?_, ?_, ?_⟩ <;> intros <;> rename_i h <;> cases h <;>
      simp [terminal_ended]
  | deleted => exact ⟨by simp, by simp, by simp⟩

/-- The books of a run stay as they are, and its record moves onward. A context of the run is
cancelled anew only if the run is dismissed. -/
structure SameRun (e e' : Executor) (id : RunId) : Prop where
  record : Onward (e.store.get id) (e'.store.get id)
  owners : e'.owners id = e.owners id
  live : e'.live id = e.live id
  launched : e'.launched id = e.launched id
  stopping : e'.stopping id = e.stopping id
  timers : e'.timers id = e.timers id
  lease : e'.lease id = e.lease id
  reason : e'.onlineCompletionReason id = e.onlineCompletionReason id
  entries : SameEntries e e' id
  contextRun : ∀ t, e.contextRun t = some id → e'.contextRun t = some id

section SameRun

variable {timely : Prop} {e e' : Executor} {id : RunId}

section

variable (h : SameRun e e' id)
include h

theorem SameRun.settled (hs : Settled e id) : Settled e' id := by
  obtain hs | hs := hs
  · exact .inl (h.record.ended hs)
  · exact .inr (by rw [h.stopping]; exact hs)

theorem SameRun.dismissed (hd : Dismissed e id) : Dismissed e' id := by
  obtain hs | hl := hd
  · exact .inl (h.settled hs)
  · exact .inr (by rw [h.lease]; exact hl)

theorem SameRun.inv (hi : RunInv timely e id)
    (hca : timely → ∀ t ∈ e.owners id, e'.contextRun t = some id → e'.cancelled t = true →
      (e.contextRun t = some id ∧ e.cancelled t = true) ∨ Dismissed e id) :
    RunInv timely e' id := by
  have he := h.entries
  constructor
  · rw [Begun, h.owners, h.timers]
    exact fun hb => h.record.begun (hi.begun hb)
  · exact hi.free_of_same h.owners he
  · exact hi.single_of_same h.owners he
  · rw [h.live, h.owners]
    exact hi.live
  · rw [he.cancels]
    exact fun t ht => h.contextRun t (hi.context t ht)
  · rw [h.owners]
    intro hti t ht hr hc
    obtain ⟨hr, hc⟩ | hd := hca hti t ht hr hc
    · exact h.dismissed (hi.cancelled hti t ht hr hc)
    · exact h.dismissed hd
  · rw [h.launched, h.live]
    exact fun hti hl => (hi.finished hti hl).imp_right h.settled
  · rw [h.lease, h.reason]
    exact hi.reason

theorem SameRun.rely (j : Nat) : RelyOn j e e' id where
  settled _ := h.settled
  dismissed _ _ hd ht := h.dismissed (hd (h.owners ▸ ht))
  carries input _ := h.record.carries input
  owner := by rw [h.owners]
  stopping := by rw [h.stopping]
  contextRun := h.contextRun
  entries _ := h.entries
  live _ := h.live
  timers _ := h.timers
  lease _ := .inl h.lease

end

end SameRun

theorem Onward.refl (r : Option RunRecord) : Onward r r :=
  ⟨fun h => h, fun h => h, fun _ h => h⟩

theorem SameRun.refl (e : Executor) (id : RunId) : SameRun e e id :=
  ⟨.refl _, rfl, rfl, rfl, rfl, rfl, rfl, rfl, .same rfl, fun _ h => h⟩

end SimCore.Runs
