import SimCore.Concurrent.Rely
import SimCore.Engine.Loop
import Mathlib.Order.Interval.Finset.Nat

/-!
# What goroutines may count on in the engine

The thread that runs `Run` counts on its own place, clock and counters; any thread counts on the
number it has drawn, and on an error or a cancellation to stay. Some of it holds only under a
condition on the other threads: that none of them latches an error between the guard check of an
iteration and the start of its handler or its end (`latchesInTime`), that no event is pushed between
the size check and the push of another (`pushesInTurn`), and that nobody else sets the status of the
run or schedules a late end of the simulation once the run is cancelled (`leavesAlone`).

## Main definitions

* `Ledger`, `Inv`: the invariant of the engine
* `RelyOn`: what a thread may count on
* `Op.pre`: what a thread has to know to carry out an operation

## Main results

* `Op.custody`: an operation keeps the invariant and what the other threads count on
-/

namespace SimCore.EngineLoop

open Concurrent Function List

variable {τ : Type} {cfg : Config τ} {guarded alone : Prop} {i j : Nat} {s s' : SharedEngine τ}
  {frame : Frame} {max : Int} {n : Nat} {drawn : Nat → Option Nat} {accepted : List Nat}
  {event : Event (Task τ)}

/-- The thread that runs `Run`. -/
def Place.runner : Place → Option Nat
  | .starting i | .inside _ i _ => some i
  | _ => none

/-! ### Conditions on the threads -/

/-- No other thread latches the first error between the guard check of an iteration and the start of
its handler or its end. -/
def latchesInTime (s : SharedEngine τ) (i : Nat) : Op τ → Bool
  | .setGuardErr _ =>
    s.guardErr.isSome ||
      match s.place with
      | .inside _ j true => i == j
      | _ => true
  | _ => true

/-- No event is pushed between the size check and the push of another thread. -/
def pushesInTurn (s : SharedEngine τ) (i : Nat) : Op τ → Bool
  | .push _ _ => s.sized.all (· == i)
  | _ => true

/-- Whether an event would end the simulation after a given time. -/
def lateEnd (endTime : Time) (event : Event (Task τ)) : Bool :=
  event.kind.type.isSimulationEnd && decide (endTime < event.time)

/-- The run does not last a negative time, nobody else sets its status, and once it is cancelled
nobody schedules a late end of the simulation. -/
def leavesAlone (s : SharedEngine τ) (i : Nat) : Op τ → Bool
  | .managerStart | .managerComplete | .managerFail =>
    match s.place with
    | .ready | .returned _ => true
    | .starting j | .inside _ j _ => i == j
    | .head _ => false
  | .push _ event =>
    match s.place with
    | .inside frame _ true => !(s.cancelled && lateEnd frame.endTime event)
    | _ => true
  | .enterLoop frame => decide (frame.startTime ≤ frame.endTime)
  | _ => true

/-- The condition on an operation. Each part is asked for only if it is needed. -/
def Regular (guarded alone : Prop) (s : SharedEngine τ) (i : Nat) (op : Op τ) (_ : Answer) : Prop :=
  (guarded → latchesInTime s i op = true ∧ pushesInTurn s i op = true) ∧
    (alone → leavesAlone s i op = true)

/-! ### The invariant -/

/-- Drawn numbers are in the hands of one thread, and an accepted event has used its number. -/
structure Ledger (max : Int) (counter : Nat) (drawn : Nat → Option Nat) (accepted : List Nat) :
    Prop where
  nodup : accepted.Nodup
  used : ∀ n ∈ accepted, 0 < n ∧ n ≤ counter ∧ (0 < max → (n : Int) ≤ max)
  unused : ∀ i n, drawn i = some n → 0 < n ∧ n ≤ counter ∧ n ∉ accepted
  inj : ∀ i j n, drawn i = some n → drawn j = some n → i = j

def EndQueued (t : Time) (s : SharedEngine τ) : Prop :=
  ∃ event ∈ s.queue, event.kind.type = .simulationEnd ∧ event.time = t

/-- The end of the simulation is queued, or the run is cancelled and no late end is queued. -/
def EndKept (t : Time) (s : SharedEngine τ) : Prop :=
  EndQueued t s ∨
    s.cancelled = true ∧ ∀ event ∈ s.queue, event.kind.type = .simulationEnd → event.time ≤ t

/-- The run is cancelled, or its clock and its end are in order. -/
def InOrder (frame : Frame) (s : SharedEngine τ) : Prop :=
  s.cancelled = true ∨ s.simTime ≤ frame.endTime ∧ EndQueued frame.endTime s

/-- There is room in the queue for a thread that has found room. -/
def HasRoom (max : Int) (s : SharedEngine τ) : Prop :=
  (s.queue.length : Int) ≤ max ∧ (s.sized ≠ [] → (s.queue.length + 1 : Int) ≤ max)

/-- The invariant of the engine. -/
structure Inv (cfg : Config τ) (guarded alone : Prop) (s : SharedEngine τ) : Prop where
  ledger : Ledger cfg.limits.maxEventsScheduled s.eventCounter s.drawn s.accepted
  room : guarded → 0 < cfg.limits.maxEventQueueSize → HasRoom cfg.limits.maxEventQueueSize s
  started : s.handlersStarted ≤ s.processed ∧ (0 < cfg.limits.maxEventsProcessed →
      (s.handlersStarted : Int) ≤ cfg.limits.maxEventsProcessed)
  head : alone → ∀ frame, s.place = .head frame →
    s.status = .running ∧ (s.guardErr = none → InOrder frame s)
  going : s.place = .ready ∨ (∃ frame, s.place = .head frame) → s.hindered = false

/-! ### What a thread may count on -/

/-- What the thread that runs `Run` may count on. -/
structure Held (guarded alone : Prop) (s s' : SharedEngine τ) : Prop where
  place : s'.place = s.place
  simTime : s'.simTime = s.simTime
  processed : s'.processed = s.processed
  handlersStarted : s'.handlersStarted = s.handlersStarted
  hindered : s'.hindered = s.hindered
  status : alone → s'.status = s.status ∧ s'.metrics = s.metrics
  guardErr : guarded → ∀ frame i, s.place = .inside frame i true → s'.guardErr = s.guardErr
  queued : ∀ t, EndQueued t s → s'.cancelled = true ∨ EndQueued t s'
  kept : alone → ∀ frame i, s.place = .inside frame i true →
    EndKept frame.endTime s → EndKept frame.endTime s'

/-- What a thread may count on, whatever the others do. -/
structure RelyOn (guarded alone : Prop) (i : Nat) (s s' : SharedEngine τ) : Prop where
  drawn : s'.drawn i = s.drawn i
  sized : i ∈ s.sized → i ∈ s'.sized
  guardErr : ∀ err, s.guardErr = some err → s'.guardErr = some err
  cancelled : s.cancelled = true → s'.cancelled = true
  held : s.place.runner = some i → Held guarded alone s s'

theorem Held.refl (s : SharedEngine τ) : Held guarded alone s s :=
  ⟨rfl, rfl, rfl, rfl, rfl, fun _ => ⟨rfl, rfl⟩, fun _ _ _ _ => rfl, fun _ h => .inr h,
    fun _ _ _ _ h => h⟩

theorem RelyOn.refl (i : Nat) (s : SharedEngine τ) : RelyOn guarded alone i s s :=
  ⟨rfl, id, fun _ h => h, id, fun _ => .refl s⟩

theorem RelyOn.trans {s'' : SharedEngine τ} (h : RelyOn guarded alone i s s')
    (h' : RelyOn guarded alone i s' s'') : RelyOn guarded alone i s s'' := by
  refine ⟨h'.drawn.trans h.drawn, fun hi => h'.sized (h.sized hi),
    fun err he => h'.guardErr err (h.guardErr err he), fun hc => h'.cancelled (h.cancelled hc),
    fun hr => ?_⟩
  have hs := h.held hr
  have hs' := h'.held (by rw [hs.place]; exact hr)
  refine ⟨hs'.place.trans hs.place, hs'.simTime.trans hs.simTime,
    hs'.processed.trans hs.processed, hs'.handlersStarted.trans hs.handlersStarted,
    hs'.hindered.trans hs.hindered,
    fun ha => ⟨(hs'.status ha).1.trans (hs.status ha).1, (hs'.status ha).2.trans (hs.status ha).2⟩,
    fun hg frame k hp => ?_, fun t hq => ?_, fun ha frame k hp hk => ?_⟩
  · exact (hs'.guardErr hg frame k (hs.place.trans hp)).trans (hs.guardErr hg frame k hp)
  · obtain hc | hq := hs.queued t hq
    · exact .inl (h'.cancelled hc)
    · exact hs'.queued t hq
  · exact hs'.kept ha frame k (hs.place.trans hp) (hs.kept ha frame k hp hk)

/-! ### What a thread has to know -/

/-- What a thread has to know to carry out an operation. -/
def Op.pre (cfg : Config τ) (guarded alone : Prop) (i : Nat) : Op τ → SharedEngine τ → Prop
  | .countEvent j, _ | .queueSize j, _ | .begin j, _ | .enterIteration j, _ => j = i
  | .push j event, s => j = i ∧ s.drawn i = some event.sequence ∧
      (0 < cfg.limits.maxEventsScheduled → (event.sequence : Int) ≤ cfg.limits.maxEventsScheduled) ∧
      (0 < cfg.limits.maxEventQueueSize → i ∈ s.sized)
  | .clear, s => s.cancelled = true
  | .done, s | .doneWithin, s => s.place.runner = some i
  | .guardrailErr true, s => ∃ frame, s.place = .inside frame i false
  | .next, s | .setSimTime _, s | .countProcessed, s => ∃ frame, s.place = .inside frame i true
  | .startHandler _, s => (∃ frame, s.place = .inside frame i true) ∧
      (guarded → s.guardErr = none) ∧ s.handlersStarted < s.processed ∧
      (0 < cfg.limits.maxEventsProcessed → (s.processed : Int) ≤ cfg.limits.maxEventsProcessed)
  | .enterLoop frame, s => s.place = .starting i ∧ s.simTime = frame.startTime ∧
      (alone → s.status = .running) ∧
      (s.guardErr = none → s.cancelled = true ∨ EndQueued frame.endTime s) ∧ s.hindered = false
  | .continue, s => ∃ frame checked, s.place = .inside frame i checked ∧ s.hindered = false ∧
      (alone → s.status = .running ∧ (s.guardErr = none → InOrder frame s))
  | .leave err, s => ∃ frame checked, s.place = .inside frame i checked ∧
      (guarded → ∀ e, s.guardErr = some e → err = some e) ∧ (err = none ↔ s.hindered = false) ∧
      (alone → s.status = .completed ∧ s.metrics = true ∧ (err = none → s.simTime = frame.endTime))
  | _, _ => True

/-- An operation that keeps the invariant and what the other threads count on. -/
structure Custody (cfg : Config τ) (guarded alone : Prop) (i : Nat) (s s' : SharedEngine τ) :
    Prop where
  inv : Inv cfg guarded alone s'
  rely : ∀ j, j ≠ i → RelyOn guarded alone j s s'

theorem Custody.refl (hinv : Inv cfg guarded alone s) : Custody cfg guarded alone i s s :=
  ⟨hinv, fun j _ => .refl j s⟩

/-- Another thread than the one that runs `Run` counts on little. -/
theorem relyOn_of_runner_ne (hr : s.place.runner ≠ some j) (hd : s'.drawn j = s.drawn j)
    (hs : s'.sized = s.sized) (hg : s'.guardErr = s.guardErr)
    (hc : s'.cancelled = s.cancelled) : RelyOn guarded alone j s s' :=
  ⟨hd, fun h => hs ▸ h, fun _ h => hg.trans h, fun h => hc.trans h, fun h => absurd h hr⟩

theorem runner_inside {checked : Bool} (h : s.place = .inside frame i checked) :
    s.place.runner = some i := by
  rw [h]
  rfl

theorem runner_ne {checked : Bool} (h : s.place = .inside frame i checked) (hj : j ≠ i) :
    s.place.runner ≠ some j := by
  rw [runner_inside h]
  exact fun heq => hj (Option.some.inj heq).symm

/-! ### Counting, sizing and pushing -/

section

variable (h : Ledger max n drawn accepted)
include h

theorem Ledger.countEvent (i : Nat) :
    Ledger max (n + 1) (Function.update drawn i (some (n + 1))) accepted := by
  have hn : n + 1 ∉ accepted := fun hmem => by
    have := (h.used _ hmem).2.1
    omega
  refine ⟨h.nodup, fun m hm => ?_, fun j m hm => ?_, fun j k m hj hk => ?_⟩
  · obtain ⟨hp, hle, hmax⟩ := h.used m hm
    exact ⟨hp, by omega, hmax⟩
  · by_cases hji : j = i
    · subst hji
      obtain rfl : n + 1 = m := by simpa using hm
      exact ⟨by omega, by omega, hn⟩
    · rw [update_of_ne hji] at hm
      obtain ⟨hp, _, hnot⟩ := h.unused j m hm
      exact ⟨hp, by omega, hnot⟩
  · -- the new number is greater than those that the others hold
    have hold : ∀ l, l ≠ i → update drawn i (some (n + 1)) l = some (n + 1) → False := by
      intro l hl heq
      rw [update_of_ne hl] at heq
      have := (h.unused l _ heq).2.1
      omega
    by_cases hji : j = i <;> by_cases hki : k = i
    · exact hji.trans hki.symm
    · subst hji
      obtain rfl : n + 1 = m := by simpa using hj
      exact (hold k hki hk).elim
    · subst hki
      obtain rfl : n + 1 = m := by simpa using hk
      exact (hold j hji hj).elim
    · rw [update_of_ne hji] at hj
      rw [update_of_ne hki] at hk
      exact h.inj j k m hj hk

theorem Ledger.push {m : Nat} (hi : drawn i = some m) (hmax : 0 < max → (m : Int) ≤ max) :
    Ledger max n (Function.update drawn i none) (m :: accepted) := by
  obtain ⟨hp, hle, hn⟩ := h.unused i m hi
  have hold : ∀ l k, update drawn i none l = some k → l ≠ i ∧ drawn l = some k := by
    intro l k hl
    by_cases hli : l = i
    · subst hli
      simp at hl
    · exact ⟨hli, by rwa [update_of_ne hli] at hl⟩
  refine ⟨nodup_cons.2 ⟨hn, h.nodup⟩, fun k hk => ?_, fun l k hl => ?_, fun l l' k hl hl' => ?_⟩
  · rcases mem_cons.1 hk with rfl | hk
    · exact ⟨hp, hle, hmax⟩
    · exact h.used k hk
  · obtain ⟨hli, hl⟩ := hold l k hl
    obtain ⟨hp', hle', hn'⟩ := h.unused l k hl
    refine ⟨hp', hle', fun hm => ?_⟩
    rcases mem_cons.1 hm with rfl | hm
    · exact hli (h.inj l i k hl hi)
    · exact hn' hm
  · exact h.inj l l' k (hold l k hl).2 (hold l' k hl').2

/-- At most as many events are accepted as there are numbers to draw. -/
theorem Ledger.length_accepted_le (hm : 0 < max) : (accepted.length : Int) ≤ max := by
  have hs : accepted.toFinset ⊆ Finset.Icc 1 max.toNat := by
    intro k hk
    obtain ⟨hp, -, hle⟩ := h.used k (mem_toFinset.1 hk)
    exact Finset.mem_Icc.2 ⟨hp, by omega⟩
  have hc := Finset.card_le_card hs
  rw [toFinset_card_of_nodup h.nodup, Nat.card_Icc] at hc
  omega

end

theorem EndQueued.cons {t : Time} (h : EndQueued t s) (hq : s'.queue = event :: s.queue) :
    EndQueued t s' := by
  obtain ⟨x, hx, ht, hti⟩ := h
  exact ⟨x, by simp [hq, hx], ht, hti⟩

theorem InOrder.cons (h : InOrder frame s) (hqu : s'.queue = event :: s.queue)
    (hca : s'.cancelled = s.cancelled) (ht : s'.simTime = s.simTime) : InOrder frame s' := by
  rcases h with hc | ⟨hle, hq⟩
  · exact .inl (hca.trans hc)
  · exact .inr ⟨ht ▸ hle, hq.cons hqu⟩

/-- If no late end is pushed, the end of the simulation is kept. -/
theorem EndKept.push (h : EndKept frame.endTime s)
    (hl : (s.cancelled && lateEnd frame.endTime event) = false)
    (hqu : s'.queue = event :: s.queue) (hca : s'.cancelled = s.cancelled) :
    EndKept frame.endTime s' := by
  rcases h with hq | ⟨hc, hle⟩
  · exact .inl (hq.cons hqu)
  · refine .inr ⟨hca.trans hc, fun x hx ht => ?_⟩
    rw [hqu] at hx
    rcases mem_cons.1 hx with rfl | hx
    · simpa [hc, lateEnd, EventType.isSimulationEnd, ht] using hl
    · exact hle x hx ht

theorem length_of_popLeast {es rest : List (Event (Task τ))}
    (h : popLeast es = some (event, rest)) : rest.length ≤ es.length := by
  obtain ⟨⟨_, _, rfl, rfl⟩, -⟩ := popLeast_eq_some h
  simp only [length_append, length_cons]
  omega

section Custody

variable (hinv : Inv cfg guarded alone s)

include hinv

/-- A thread that changes only what it has drawn and sized. -/
theorem custody_of_tickets {sized : List Nat} {counter : Nat}
    (hl : Ledger cfg.limits.maxEventsScheduled counter drawn s.accepted)
    (hd : ∀ j, j ≠ i → drawn j = s.drawn j) (hs : ∀ j ∈ s.sized, j ∈ sized)
    (hr : guarded → 0 < cfg.limits.maxEventQueueSize →
      HasRoom cfg.limits.maxEventQueueSize { s with sized := sized }) :
    Custody cfg guarded alone i s
      { s with eventCounter := counter, drawn := drawn, sized := sized } :=
  ⟨⟨hl, hr, hinv.started, hinv.head, hinv.going⟩, fun j hj =>
    ⟨hd j hj, hs j, fun _ h => h, id, fun _ => ⟨rfl, rfl, rfl, rfl, rfl, fun _ => ⟨rfl, rfl⟩,
      fun _ _ _ _ => rfl, fun _ h => .inr h, fun _ _ _ _ h => h⟩⟩⟩

theorem custody_queueSize : Custody cfg guarded alone i s
      { s with sized := if (s.queue.length + 1 : Int) ≤ cfg.limits.maxEventQueueSize then
                 i :: s.sized else s.sized } := by
  refine custody_of_tickets hinv hinv.ledger (fun _ _ => rfl) (fun j hj => ?_) fun hg hm => ?_
  · split
    · exact mem_cons_of_mem i hj
    · exact hj
  · refine ⟨(hinv.room hg hm).1, fun hne => ?_⟩
    by_cases hf : (s.queue.length + 1 : Int) ≤ cfg.limits.maxEventQueueSize
    · exact hf
    · simp only [hf, if_false] at hne
      exact (hinv.room hg hm).2 hne

theorem custody_push (hpre : (Op.push i event).pre cfg guarded alone i s)
    (hok : Regular guarded alone s i (.push i event) {}) :
    Custody cfg guarded alone i s ((Op.push i event).run cfg {} s).2 := by
  obtain ⟨-, hd, hm, hsi⟩ := hpre
  refine ⟨⟨hinv.ledger.push hd hm, fun hg hmax => ?_, hinv.started, fun ha frame hp => ?_,
    hinv.going⟩, fun j hj => ?_⟩
  · have hr := (hinv.room hg hmax).2 (ne_nil_of_mem (hsi hmax))
    -- only this thread has found room, and it uses it
    have ht : ∀ k ∈ s.sized, k = i := by simpa [pushesInTurn] using (hok.1 hg).2
    have hn : s.sized.filter (· ≠ i) = [] := by simpa using ht
    refine ⟨?_, fun hne => absurd hn hne⟩
    simpa [Op.run] using hr
  · obtain ⟨hs, ho⟩ := hinv.head ha frame hp
    exact ⟨hs, fun hgu => (ho hgu).cons rfl rfl rfl⟩
  · refine ⟨update_of_ne hj _ _, fun h => ?_, fun _ h => h, id, fun hrun => ?_⟩
    · simp [Op.run, h, hj]
    · refine ⟨rfl, rfl, rfl, rfl, rfl, fun _ => ⟨rfl, rfl⟩, fun _ _ _ _ => rfl,
        fun _ h => .inr (h.cons rfl), fun ha frame k hp hk => hk.push ?_ rfl rfl⟩
      have h := hok.2 ha
      rw [leavesAlone, hp] at h
      simpa only [Bool.not_eq_true'] using h

/-! ### Errors, cancellation and status -/

theorem custody_setGuardErr (err : RunError)
    (hok : Regular guarded alone s i (.setGuardErr err) {}) :
    Custody cfg guarded alone i s { s with guardErr := some (s.guardErr.getD err) } := by
  refine ⟨⟨hinv.ledger, hinv.room, hinv.started, fun ha frame hp => ?_, hinv.going⟩,
    fun j hj => ?_⟩
  · exact ⟨(hinv.head ha frame hp).1, fun h => by cases h⟩
  · refine ⟨rfl, id, fun e he => by simp [he], id, fun hr => ?_⟩
    refine ⟨rfl, rfl, rfl, rfl, rfl, fun _ => ⟨rfl, rfl⟩, fun hg frame k hp => ?_,
      fun _ h => .inr h, fun _ _ _ _ h => h⟩
    -- the runner is another thread, so the error was latched before
    have hin := (hok.1 hg).1
    obtain rfl : k = j := by
      rw [hp] at hr
      exact Option.some.inj hr
    simp only [latchesInTime, hp, Bool.or_eq_true, beq_iff_eq, hj.symm, or_false] at hin
    obtain ⟨e, he⟩ := Option.isSome_iff_exists.1 hin
    simp [he]

theorem custody_cancel : Custody cfg guarded alone i s { s with cancelled := true } := by
  refine ⟨⟨hinv.ledger, hinv.room, hinv.started, fun ha frame hp => ?_, hinv.going⟩, fun j _ => ?_⟩
  · exact ⟨(hinv.head ha frame hp).1, fun _ => .inl rfl⟩
  · refine ⟨rfl, id, fun _ h => h, fun _ => rfl, fun _ => ?_⟩
    refine ⟨rfl, rfl, rfl, rfl, rfl, fun _ => ⟨rfl, rfl⟩, fun _ _ _ _ => rfl, fun _ _ => .inl rfl,
      fun _ _ _ _ hk => ?_⟩
    rcases hk with hq | ⟨-, hle⟩
    · exact .inl hq
    · exact .inr ⟨rfl, hle⟩

theorem custody_clear (hc : s.cancelled = true) :
    Custody cfg guarded alone i s { s with queue := [] } := by
  refine ⟨⟨hinv.ledger, fun hg hm => ?_, hinv.started, fun ha frame hp => ?_, hinv.going⟩,
    fun j _ => ?_⟩
  · exact ⟨hm.le, fun _ => by simp only [length_nil]; omega⟩
  · exact ⟨(hinv.head ha frame hp).1, fun _ => .inl hc⟩
  · refine ⟨rfl, id, fun _ h => h, id, fun _ => ?_⟩
    exact ⟨rfl, rfl, rfl, rfl, rfl, fun _ => ⟨rfl, rfl⟩, fun _ _ _ _ => rfl, fun _ _ => .inl hc,
      fun _ _ _ _ _ => .inr ⟨hc, fun _ h => by cases h⟩⟩

/-- A thread that sets the status of the run while nobody else counts on it. -/
theorem custody_setStatus {op : Op τ} {status : RunStatus} {metrics : Bool}
    (hop : op = .managerStart ∨ op = .managerComplete ∨ op = .managerFail)
    (hok : Regular guarded alone s i op {}) :
    Custody cfg guarded alone i s { s with status := status, metrics := metrics } := by
  have hpl : alone → s.place.runner = none ∧ (∀ frame, s.place ≠ .head frame) ∨
      s.place.runner = some i := by
    intro ha
    have h := hok.2 ha
    rcases hop with rfl | rfl | rfl <;>
    · simp only [leavesAlone] at h
      split at h <;> simp_all [Place.runner]
  refine ⟨⟨hinv.ledger, hinv.room, hinv.started, fun ha frame hp => ?_, hinv.going⟩,
    fun j hj => ?_⟩
  · rcases hpl ha with ⟨-, hne⟩ | hr
    · exact absurd hp (hne frame)
    · have hp : s.place = .head frame := hp
      simp [hp, Place.runner] at hr
  · refine ⟨rfl, id, fun _ h => h, id, fun hr => ?_⟩
    refine ⟨rfl, rfl, rfl, rfl, rfl, fun ha => ?_, fun _ _ _ _ => rfl, fun _ h => .inr h,
      fun _ _ _ _ h => h⟩
    rcases hpl ha with ⟨hn, -⟩ | hi
    · simp [hr] at hn
    · rw [hr] at hi
      exact absurd (Option.some.inj hi) hj

/-! ### The place of `Run` -/

/-- A thread that changes the place of `Run` when no other thread runs it. -/
theorem custody_setPlace {place : Place} {hindered : Bool}
    (hr : ∀ j, j ≠ i → s.place.runner ≠ some j)
    (hh : alone → ∀ frame, place = .head frame →
      s.status = .running ∧ (s.guardErr = none → InOrder frame s))
    (hg : place = .ready ∨ (∃ frame, place = .head frame) → hindered = false) :
    Custody cfg guarded alone i s { s with place := place, hindered := hindered } :=
  ⟨⟨hinv.ledger, hinv.room, hinv.started, hh, hg⟩, fun j hj =>
    relyOn_of_runner_ne (hr j hj) rfl rfl rfl rfl⟩

theorem custody_enterLoop (hpre : (Op.enterLoop frame).pre cfg guarded alone i s)
    (hok : Regular guarded alone s i (.enterLoop frame) {}) :
    Custody cfg guarded alone i s { s with place := .head frame } := by
  obtain ⟨hp, ht, hs, he, hgo⟩ := hpre
  refine custody_setPlace hinv (fun j hj => ?_) (fun ha frame' heq => ?_) fun _ => hgo
  · rw [hp]
    exact fun heq => hj (Option.some.inj heq).symm
  · cases heq
    have hle : frame.startTime ≤ frame.endTime := by simpa [leavesAlone] using hok.2 ha
    refine ⟨hs ha, fun hg => ?_⟩
    rcases he hg with hc | hq
    · exact .inl hc
    · exact .inr ⟨ht ▸ hle, hq⟩

/-! ### What only the runner does -/

/-- The runner takes events off the queue, sets the clock and counts, inside an iteration. -/
theorem custody_inside {queue : List (Event (Task τ))} {simTime : Time} {processed : Nat}
    {hindered : Bool} (hpl : s.place = .inside frame i true)
    (hq : queue.length ≤ s.queue.length) (hpr : s.processed ≤ processed) :
    Custody cfg guarded alone i s { s with
      queue := queue, simTime := simTime, processed := processed, hindered := hindered } := by
  refine ⟨⟨hinv.ledger, fun hg hm => ?_, ⟨hinv.started.1.trans hpr, hinv.started.2⟩,
    fun _ frame' hp => ?_, fun hp => ?_⟩,
    fun j hj => relyOn_of_runner_ne (runner_ne hpl hj) rfl rfl rfl rfl⟩
  · obtain ⟨_, hr⟩ := hinv.room hg hm
    refine ⟨?_, fun hne => ?_⟩
    · simp only
      omega
    · have := hr hne
      simp only
      omega
  · have hp : s.place = .head frame' := hp
    rw [hpl] at hp
    cases hp
  · simp [hpl] at hp

theorem custody_startHandler (hpre : (Op.startHandler event).pre cfg guarded alone i s) :
    Custody cfg guarded alone i s ((Op.startHandler event).run cfg {} s).2 := by
  obtain ⟨⟨_, hpl⟩, -, hlt, hm⟩ := hpre
  simp only [Op.run, hpl]
  refine ⟨⟨hinv.ledger, hinv.room, ⟨hlt, fun h => ?_⟩, nofun, by simp⟩,
    fun j hj => relyOn_of_runner_ne (runner_ne hpl hj) rfl rfl rfl rfl⟩
  push_cast
  omega

end Custody

/-- An operation whose precondition holds keeps the invariant and what the other threads count
on. -/
theorem Op.custody {op : Op τ} (a : Answer) (hinv : Inv cfg guarded alone s)
    (hpre : op.pre cfg guarded alone i s) (hok : Regular guarded alone s i op a) :
    Custody cfg guarded alone i s (op.run cfg a s).2 := by
  cases op with
  | countEvent j =>
    obtain rfl : j = i := hpre
    exact custody_of_tickets hinv (hinv.ledger.countEvent j)
      (fun _ hk => update_of_ne hk _ _) (fun _ h => h) hinv.room
  | queueSize j =>
    obtain rfl : j = i := hpre
    exact custody_queueSize hinv
  | push j =>
    obtain rfl : j = i := hpre.1
    exact custody_push hinv hpre hok
  | setGuardErr err => exact custody_setGuardErr hinv err hok
  | guardrailErr head =>
    cases head with
    | true =>
      obtain ⟨frame, hp⟩ := hpre
      simp only [run, hp]
      exact custody_setPlace hinv (fun _ => runner_ne hp) nofun (by simp)
    | false => exact .refl hinv
  | cancel => exact custody_cancel hinv
  | clear => exact custody_clear hinv hpre
  | next =>
    obtain ⟨frame, hp⟩ := hpre
    simp only [run]
    split
    · exact .refl hinv
    · rename_i hpop
      exact custody_inside hinv hp (length_of_popLeast hpop) le_rfl
  | setSimTime =>
    obtain ⟨frame, hp⟩ := hpre
    exact custody_inside hinv hp le_rfl le_rfl
  | countProcessed =>
    obtain ⟨frame, hp⟩ := hpre
    exact custody_inside hinv hp le_rfl (Nat.le_succ _)
  | startHandler => exact custody_startHandler hinv hpre
  | managerStart => exact custody_setStatus hinv (.inl rfl) hok
  | managerComplete => exact custody_setStatus hinv (.inr (.inl rfl)) hok
  | managerFail => exact custody_setStatus hinv (.inr (.inr rfl)) hok
  | begin j | enterIteration j =>
    simp only [run]
    split
    · rename_i hp
      exact custody_setPlace hinv (fun j _ => by simp [hp, Place.runner]) nofun (by simp)
    · exact .refl hinv
  | enterLoop => exact custody_enterLoop hinv hpre hok
  | «continue» =>
    obtain ⟨frame, checked, hp, hgo, hh⟩ := hpre
    simp only [run, hp]
    refine custody_setPlace hinv (fun _ => runner_ne hp) (fun ha frame' heq => ?_) fun _ => hgo
    cases heq
    exact hh ha
  | leave =>
    obtain ⟨_, _, hp, -⟩ := hpre
    exact custody_setPlace hinv (fun _ => runner_ne hp) nofun (by simp)
  | done | doneWithin =>
    have hr : s.place.runner = some i := hpre
    refine custody_setPlace hinv (fun j hj => ?_) hinv.head fun hp => ?_
    · rw [hr]
      exact fun heq => hj (Option.some.inj heq).symm
    · rcases hp with hp | ⟨_, hp⟩ <;> simp [hp, Place.runner] at hr
  | peek | isEmpty | now | clock | managerStatus => exact .refl hinv

end SimCore.EngineLoop
