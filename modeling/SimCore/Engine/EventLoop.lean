import SimCore.Base.Text
import Mathlib.Data.Prod.Lex
import Mathlib.Data.List.Basic

/-!
# The discrete-event engine

Events carry a time and the sequence number they were scheduled with, and their kind fixes their
priority; the queue hands out the least pending event by (time, priority, sequence). The engine
numbers and admits events, latches the first guardrail error, and takes the next event as long as no
error is latched.

An event that a guardrail refuses is not queued, and a request that a cap refuses is not tracked.
The engine's state remembers both: `issued` lists the events that were scheduled and not taken,
whether queued or refused, the latest first. The state proves with itself that nothing has been
refused as long as no guardrail error is latched.

## Main definitions

* `Event`, `Event.less`, `popLeast`: the event queue
* `Engine`, `Engine.scheduleAt`, `Engine.next`: admission and the head of the event loop
* `Event.key`, `rank`: the order of events, with and without the sequence number

## Main results

* `popLeast_eq_some`: taking the least event only removes it, and it is a least one
* `Engine.scheduleAt_pending`: a scheduled event is pending, queued or refused
* `Engine.next_eq_some`: what the head of the event loop does
-/

namespace SimCore

/-- Kinds of events with a priority; lower values are processed earlier at equal times. -/
class Prioritized (κ : Type) where
  priority : κ → Int

structure Event (κ : Type) where
  time : Time
  sequence : Nat
  kind : κ
deriving DecidableEq

variable {κ : Type}

section Queue

variable [Prioritized κ]

def Event.priority (e : Event κ) : Int :=
  Prioritized.priority e.kind

/-- The order of the event queue: time, then priority, then schedule order. -/
def Event.less (a b : Event κ) : Bool :=
  if a.time < b.time then true
  else if b.time < a.time then false
  else if a.priority ≠ b.priority then decide (a.priority < b.priority)
  else decide (a.sequence < b.sequence)

/-- Removes and returns the least event. -/
def popLeast : List (Event κ) → Option (Event κ × List (Event κ))
  | [] => none
  | e :: es =>
    match popLeast es with
    | none => some (e, es)
    | some (f, rest) => if f.less e then some (f, e :: rest) else some (e, es)

end Queue

/-- A latched guardrail failure. -/
structure LimitExceeded where
  limit : String
  value : Int
  max : Int
deriving DecidableEq

/-- Guardrails of a run; a non-positive value disables the limit. -/
structure RuntimeLimits where
  maxEventsScheduled : Int := 0
  maxEventsProcessed : Int := 0
  maxEventQueueSize : Int := 0
deriving DecidableEq

/-- The engine's state. The engine never reads `issued` and `refusedRequests`; refusing anything
latches an error. -/
structure Engine (κ : Type) where
  queue : List (Event κ) := []
  simTime : Time := 0
  eventCounter : Nat := 0
  processed : Nat := 0
  limits : RuntimeLimits := {}
  guardErr : Option LimitExceeded := none
  ended : Bool := false
  issued : List (Event κ) := []
  refusedRequests : List Nat := []
  refused_latches : guardErr = none → issued = queue ∧ refusedRequests = [] := by simp
  latest_first : issued.Pairwise fun a b => b.sequence < a.sequence := by simp
  numbered : ∀ e ∈ issued, e.sequence ≤ eventCounter := by simp

namespace Engine

/-- Latches a guardrail failure; the first one wins. -/
def triggerGuardFailure (e : Engine κ) (err : LimitExceeded) : Engine κ :=
  { e with guardErr := some (e.guardErr.getD err), refused_latches := by simp }

/-- Turns a request away and latches the failure. -/
def refuseRequest (e : Engine κ) (r : Nat) (err : LimitExceeded) : Engine κ :=
  { e with guardErr := some (e.guardErr.getD err), refusedRequests := r :: e.refusedRequests
           refused_latches := by simp }

/-- The next event to schedule. -/
def nextEvent (e : Engine κ) (time : Time) (kind : κ) : Event κ :=
  ⟨time, e.eventCounter + 1, kind⟩

theorem latest_first_cons (e : Engine κ) (time : Time) (kind : κ) :
    (e.nextEvent time kind :: e.issued).Pairwise fun a b => b.sequence < a.sequence :=
  List.pairwise_cons.2 ⟨fun b hb => Nat.lt_succ_of_le (e.numbered b hb), e.latest_first⟩

theorem numbered_cons (e : Engine κ) (time : Time) (kind : κ) :
    ∀ a ∈ e.nextEvent time kind :: e.issued, a.sequence ≤ e.eventCounter + 1 := by
  intro a ha
  rcases List.mem_cons.1 ha with rfl | ha
  · exact le_rfl
  · exact Nat.le_succ_of_le (e.numbered a ha)

/-- Drops the next event and latches the failure. -/
def refuse (e : Engine κ) (time : Time) (kind : κ) (err : LimitExceeded) : Engine κ :=
  { e with guardErr := some (e.guardErr.getD err), eventCounter := e.eventCounter + 1
           issued := e.nextEvent time kind :: e.issued
           refused_latches := by simp
           latest_first := e.latest_first_cons time kind
           numbered := e.numbered_cons time kind }

/-- Queues the next event. -/
def enqueue (e : Engine κ) (time : Time) (kind : κ) : Engine κ :=
  { e with eventCounter := e.eventCounter + 1
           queue := e.nextEvent time kind :: e.queue
           issued := e.nextEvent time kind :: e.issued
           refused_latches := fun h => by simp [e.refused_latches h]
           latest_first := e.latest_first_cons time kind
           numbered := e.numbered_cons time kind }

def scheduleAt (e : Engine κ) (time : Time) (kind : κ) : Engine κ :=
  if e.limits.maxEventsScheduled > 0 ∧ (e.eventCounter + 1 : Int) > e.limits.maxEventsScheduled then
    e.refuse time kind ⟨"max_events_scheduled", e.eventCounter + 1, e.limits.maxEventsScheduled⟩
  else if e.limits.maxEventQueueSize > 0 ∧
      (e.queue.length + 1 : Int) > e.limits.maxEventQueueSize then
    e.refuse time kind ⟨"max_event_queue_size", e.queue.length + 1, e.limits.maxEventQueueSize⟩
  else e.enqueue time kind

/-- Times and kinds of the events issued so far and not yet taken, the latest first. -/
def pending (e : Engine κ) : List (Time × κ) :=
  e.issued.map fun event => (event.time, event.kind)

end Engine

/-! ### The queue -/

section Queue

variable [Prioritized κ] {es rest : List (Event κ)} {e : Event κ}

/-- What the queue compares. -/
def Event.key (e : Event κ) : Time ×ₗ Int ×ₗ Nat :=
  toLex (e.time, toLex (e.priority, e.sequence))

/-- What the queue compares before the sequence number. -/
def rank (x : Time × κ) : Time ×ₗ Int :=
  toLex (x.1, Prioritized.priority x.2)

theorem Event.less_iff (a b : Event κ) : a.less b = true ↔ a.key < b.key := by
  simp only [key, Prod.Lex.toLex_lt_toLex, less]
  split_ifs with h₁ h₂ h₃
  · simp [h₁]
  · simp [h₁, h₂.ne']
  · have ht : a.time = b.time := le_antisymm (not_lt.1 h₂) (not_lt.1 h₁)
    simp [ht, h₃]
  · have ht : a.time = b.time := le_antisymm (not_lt.1 h₂) (not_lt.1 h₁)
    have hp : a.priority = b.priority := by simpa using h₃
    simp [ht, hp]

/-- Taking the least event only removes it, and it is a least one. -/
theorem popLeast_eq_some (h : popLeast es = some (e, rest)) :
    (∃ l₁ l₂, es = l₁ ++ e :: l₂ ∧ rest = l₁ ++ l₂) ∧ ∀ x ∈ es, e.key ≤ x.key := by
  induction es generalizing e rest with
  | nil => simp [popLeast] at h
  | cons a es ih =>
    rw [popLeast] at h
    split at h
    · rename_i hn
      obtain ⟨rfl, rfl⟩ := by simpa using h
      refine ⟨⟨[], es, rfl, rfl⟩, fun x hx => ?_⟩
      cases es with
      | nil =>
        rw [List.mem_singleton.1 hx]
      | cons =>
        simp only [popLeast] at hn
        split at hn
        · simp at hn
        · split at hn <;> simp at hn
    · rename_i b _ hp
      obtain ⟨⟨l₁, l₂, hes, hr⟩, hm⟩ := ih hp
      split_ifs at h with hl
      · obtain ⟨rfl, rfl⟩ := by simpa using h
        refine ⟨⟨a :: l₁, l₂, by simp [hes], by simp [hr]⟩, fun x hx => ?_⟩
        rcases List.mem_cons.1 hx with rfl | hx
        · exact ((b.less_iff x).1 hl).le
        · exact hm x hx
      · obtain ⟨rfl, rfl⟩ := by simpa using h
        have hle : a.key ≤ b.key := not_lt.1 fun hlt => hl ((b.less_iff a).2 hlt)
        refine ⟨⟨[], es, rfl, rfl⟩, fun x hx => ?_⟩
        rcases List.mem_cons.1 hx with rfl | hx
        · exact le_rfl
        · exact hle.trans (hm x hx)

theorem popLeast_eq_none_iff : popLeast es = none ↔ es = [] := by
  cases es with
  | nil => simp [popLeast]
  | cons =>
    simp only [popLeast, reduceCtorEq, iff_false]
    split
    · simp
    · split <;> simp

theorem rank_le_of_key_le {a b : Event κ} (h : a.key ≤ b.key) :
    rank (a.time, a.kind) ≤ rank (b.time, b.kind) := by
  simp only [Event.key, Prod.Lex.toLex_le_toLex] at h
  simp only [rank, Prod.Lex.toLex_le_toLex]
  rcases h with h | ⟨ht, h | ⟨hp, -⟩⟩
  · exact .inl h
  · exact .inr ⟨ht, h.le⟩
  · exact .inr ⟨ht, hp.le⟩

/-- Of two events with the same rank the one scheduled first comes first. -/
theorem rank_lt_of_key_le {a b : Event κ} (h : a.key ≤ b.key) (hs : b.sequence < a.sequence) :
    rank (a.time, a.kind) < rank (b.time, b.kind) := by
  simp only [Event.key, Prod.Lex.toLex_le_toLex] at h
  simp only [rank, Prod.Lex.toLex_lt_toLex]
  rcases h with h | ⟨ht, h | ⟨-, h⟩⟩
  · exact .inl h
  · exact .inr ⟨ht, h⟩
  · exact absurd h (not_le.2 hs)

theorem time_le_of_rank_le {x y : Time × κ} (h : rank x ≤ rank y) : x.1 ≤ y.1 := by
  rcases Prod.Lex.toLex_le_toLex.1 h with h | ⟨h, -⟩
  · exact h.le
  · exact h.le

end Queue

/-! ### The engine -/

namespace Engine

section Next

variable [Prioritized κ]

/-- The head of the event loop: the next event to handle, if the run goes on. -/
def next (e : Engine κ) : Option (Event κ × Engine κ) :=
  if hgo : e.guardErr.isSome || e.ended then none
  else
    match hpop : popLeast e.queue with
    | none => none
    | some (event, rest) =>
      have hissued := (e.refused_latches (by simp at hgo; exact hgo.1)).1
      have hsub : rest.Sublist e.issued := by
        obtain ⟨⟨l₁, l₂, hq, rfl⟩, -⟩ := popLeast_eq_some hpop
        rw [hissued, hq]
        exact (List.Sublist.refl l₁).append (List.sublist_cons_self event l₂)
      some (event,
        { e with queue := rest, processed := e.processed + 1, simTime := event.time, issued := rest
                 refused_latches := fun h => ⟨rfl, (e.refused_latches h).2⟩
                 latest_first := e.latest_first.sublist hsub
                 numbered := fun a ha => e.numbered a (hsub.subset ha) })

/-- The loop goes on only without a latched error, and takes a least event off the queue: one of
smaller rank than those scheduled before it, and of no greater rank than those after it. -/
theorem next_eq_some {e e' : Engine κ} {event : Event κ} (h : e.next = some (event, e')) :
    e.guardErr = none ∧ e'.guardErr = none ∧ e'.simTime = event.time ∧
      e'.refusedRequests = e.refusedRequests ∧
      ∃ l₁ l₂, e.pending = l₁ ++ (event.time, event.kind) :: l₂ ∧ e'.pending = l₁ ++ l₂ ∧
        (∀ x ∈ l₁, rank (event.time, event.kind) ≤ rank x) ∧
        ∀ x ∈ l₂, rank (event.time, event.kind) < rank x := by
  unfold next at h
  split at h
  · simp at h
  rename_i hgo
  split at h
  · simp at h
  rename_i ev _ hp
  obtain ⟨rfl, rfl⟩ := by simpa using h
  have hg : e.guardErr = none := by
    simp only [Bool.or_eq_true, not_or, Option.not_isSome_iff_eq_none] at hgo
    exact hgo.1
  have hi := (e.refused_latches hg).1
  obtain ⟨⟨l₁, l₂, hq, rfl⟩, hm⟩ := popLeast_eq_some hp
  have hseq : ∀ x ∈ l₂, x.sequence < ev.sequence := by
    have hs := e.latest_first
    rw [hi, hq, List.pairwise_append, List.pairwise_cons] at hs
    exact hs.2.1.1
  refine ⟨hg, hg, rfl, rfl, l₁.map fun x => (x.time, x.kind),
    l₂.map fun x => (x.time, x.kind), ?_, ?_, ?_, ?_⟩
  · simp [pending, hi, hq]
  · simp [pending]
  · simp only [List.mem_map]
    rintro x ⟨y, hy, rfl⟩
    exact rank_le_of_key_le (hm y (by simp [hq, hy]))
  · simp only [List.mem_map]
    rintro x ⟨y, hy, rfl⟩
    exact rank_lt_of_key_le (hm y (by simp [hq, hy])) (hseq y hy)

end Next

/-- Whether the event just taken exceeds the limit on processed events. -/
def overProcessed (e : Engine κ) : Bool :=
  decide (e.limits.maxEventsProcessed > 0) &&
    decide ((e.processed : Int) > e.limits.maxEventsProcessed)

@[simp] theorem triggerGuardFailure_pending (e : Engine κ) (err : LimitExceeded) :
    (e.triggerGuardFailure err).pending = e.pending := rfl

@[simp] theorem refuseRequest_pending (e : Engine κ) (r : Nat) (err : LimitExceeded) :
    (e.refuseRequest r err).pending = e.pending := rfl

/-- A scheduled event is pending, queued or refused. -/
@[simp] theorem scheduleAt_pending (e : Engine κ) (t : Time) (k : κ) :
    (e.scheduleAt t k).pending = (t, k) :: e.pending := by
  unfold scheduleAt
  split
  · rfl
  · split <;> rfl

@[simp] theorem scheduleAt_simTime (e : Engine κ) (t : Time) (k : κ) :
    (e.scheduleAt t k).simTime = e.simTime := by
  unfold scheduleAt
  split
  · rfl
  · split <;> rfl

@[simp] theorem scheduleAt_refusedRequests (e : Engine κ) (t : Time) (k : κ) :
    (e.scheduleAt t k).refusedRequests = e.refusedRequests := by
  unfold scheduleAt
  split
  · rfl
  · split <;> rfl

end Engine

end SimCore
