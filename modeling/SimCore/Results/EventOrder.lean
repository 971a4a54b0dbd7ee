import SimCore.Base.Heap
import SimCore.Engine.Loop

/-!
# The order of events

The event queue is a heap for the comparison by time, priority and sequence number. That comparison
is a linear order of keys, so the heap keeps its contract, and events with distinct numbers have a
least one. The engine numbers the events in the order in which it schedules them, and a limit may
refuse one.

## Main definitions

* `leastFirst`: a list as a heap, from which `popLeast` takes the least event
* `EngineCall`, `queueCalls`: calls on the engine, and what they do to its queue

## Main results

* `events_in_order`: what the queue returns
-/

namespace SimCore

variable {κ : Type} [Prioritized κ]

/-! ### The queue as a heap -/

theorem less_eq_false_iff {a b : Event κ} : b.less a = false ↔ a.key ≤ b.key := by
  rw [← Bool.not_eq_true, Event.less_iff, not_lt]

theorem weakOrderOn_less : WeakOrderOn .univ (Event.less (κ := κ)) where
  asymm _ _ _ _ hlt := less_eq_false_iff.2 ((Event.less_iff ..).1 hlt).le
  negTrans _ _ _ _ _ _ hab hbc :=
    less_eq_false_iff.2 ((less_eq_false_iff.1 hbc).trans (less_eq_false_iff.1 hab))

theorem sequence_eq_of_key_eq {a b : Event κ} (h : a.key = b.key) : a.sequence = b.sequence :=
  congrArg (fun k => (ofLex (ofLex k).2).2) h

/-- A list as a heap: a pop searches it. -/
def leastFirst : Heap (Event κ) Event.less where
  Carrier := List (Event κ)
  empty := []
  push := List.cons
  pop := popLeast
  elems es := es
  elems_empty := rfl
  elems_push _ _ _ := rfl
  pop_eq_none _ es := by simp [popLeast_eq_none_iff]
  pop_eq_some _ es e rest h := by
    obtain ⟨⟨l₁, l₂, rfl, rfl⟩, hleast⟩ := popLeast_eq_some h
    refine ⟨Multiset.coe_eq_coe.2 List.perm_middle, fun b hb => ?_⟩
    exact less_eq_false_iff.2 (hleast b (List.perm_middle.mem_iff.2 (List.mem_cons_of_mem e hb)))

/-! ### The engine -/

/-- A call on the engine. No caller of `ScheduleEvent` gives a number to an event. -/
inductive EngineCall (κ : Type)
  | scheduleEvent (time : Time) (kind : κ)
  | next

/-- The number of the last event after calls on the engine, and what the calls have done to the
queue. -/
def queueCalls (H : Heap (Event κ) Event.less) (limits : RuntimeLimits) :
    List (EngineCall κ) → Nat × List (QueueCall (Event κ))
  | [] => (0, [])
  | .next :: calls => ((queueCalls H limits calls).1, .next :: (queueCalls H limits calls).2)
  | .scheduleEvent time kind :: calls =>
    let (eventCounter, queue) := queueCalls H limits calls
    let counter := eventCounter + 1
    if limits.maxEventsScheduled > 0 ∧ (counter : Int) > limits.maxEventsScheduled then
      (counter, queue)
    else if limits.maxEventQueueSize > 0 ∧
        ((H.pending queue).card + 1 : Int) > limits.maxEventQueueSize then (counter, queue)
    else (counter, .schedule ⟨time, counter, kind⟩ :: queue)

/-- The engine numbers the events in the order in which it schedules them. -/
theorem queueCalls_numbered (H : Heap (Event κ) Event.less) (limits : RuntimeLimits)
    (calls : List (EngineCall κ)) :
    (∀ e ∈ scheduled (queueCalls H limits calls).2, e.sequence ≤ (queueCalls H limits calls).1) ∧
      (scheduled (queueCalls H limits calls).2).Pairwise fun a b => b.sequence < a.sequence := by
  induction calls with
  | nil => simp [queueCalls, scheduled]
  | cons call _ ih =>
    obtain ⟨hle, hl⟩ := ih
    cases call with
    | next => exact ⟨hle, hl⟩
    | scheduleEvent =>
      have hle' := fun e he => Nat.le_succ_of_le (hle e he)
      simp only [queueCalls]
      split_ifs
      · exact ⟨hle', hl⟩
      · exact ⟨hle', hl⟩
      · refine ⟨fun e he => ?_, List.pairwise_cons.2 ⟨fun e he => Nat.lt_succ_of_le (hle e he), hl⟩⟩
        rcases List.mem_cons.1 he with rfl | he
        · exact le_rfl
        · exact hle' e he

/-! ### What the queue returns -/

/-- After any calls that schedule events with distinct numbers, `Next` returns the least pending
event by time, priority and number, and every scheduled event is pending or has been returned once.
Events that the engine has scheduled at the same time and priority are returned in the order in
which it has scheduled them. -/
theorem events_in_order (H : Heap (Event κ) Event.less) :
    (∀ calls, ((scheduled calls).map Event.sequence).Nodup →
      (H.next calls = none ↔ H.pending calls = 0) ∧
      (∀ e, H.next calls = some e → e ∈ H.pending calls ∧
        ∀ x ∈ H.pending calls, x = e ∨ e.key < x.key) ∧
      (scheduled calls : Multiset (Event κ)) = H.returned calls + H.pending calls ∧
      (H.returned calls).Nodup) ∧
    ∀ limits engineCalls calls, (queueCalls H limits engineCalls).2 = calls →
      ((scheduled calls).map Event.sequence).Nodup ∧
      ∀ a b, [a, b].Sublist (scheduled calls) → a.time = b.time → a.priority = b.priority →
        a ∈ H.returned calls → [a, b].Sublist (H.returned calls) := by
  refine ⟨fun calls hd => ?_, ?_⟩
  · have hc := H.conserved weakOrderOn_less calls
    have hs : ∀ {x}, x ∈ H.pending calls → x ∈ scheduled calls := fun hx =>
      Multiset.mem_coe.1 (hc ▸ Multiset.mem_add.2 (.inr hx))
    refine ⟨H.next_eq_none_iff weakOrderOn_less calls, fun e he => ?_, hc, ?_⟩
    · obtain ⟨hp, hle⟩ := H.next_eq_some weakOrderOn_less calls he
      have hm : e ∈ H.pending calls := hp ▸ Multiset.mem_cons_self ..
      refine ⟨hm, fun x hx => or_iff_not_imp_left.2 fun hne => ?_⟩
      have hx' := (Multiset.mem_cons.1 (hp ▸ hx)).resolve_left hne
      refine (less_eq_false_iff.1 (hle x hx')).lt_of_ne fun hk => hne ?_
      exact List.inj_on_of_nodup_map hd (hs hx) (hs hm) (sequence_eq_of_key_eq hk).symm
    · have hn : (scheduled calls : Multiset (Event κ)).Nodup := hd.of_map
      exact Multiset.coe_nodup.1 (Multiset.nodup_of_le (hc ▸ Multiset.le_add_right ..) hn)
  · rintro limits engineCalls calls rfl
    have hl := (queueCalls_numbered H limits engineCalls).2
    have hd : ((scheduled (queueCalls H limits engineCalls).2).map Event.sequence).Nodup :=
      List.pairwise_map.2 (hl.imp Nat.ne_of_gt)
    refine ⟨hd, fun a b hs ht hpr ha => ?_⟩
    refine H.in_order weakOrderOn_less _ hd.of_map ?_ hs ha
    have hseq : b.sequence < a.sequence := by simpa using hl.sublist hs
    simp [Event.less, ht, hpr, hseq]

/-- An event without a handler's data. -/
def bareEvent (time : Time) (sequence : Nat) : Event (EngineLoop.Task Unit) :=
  ⟨time, sequence, { type := .other () }⟩

/-- Of two events at time 5 the first is returned first, after an event at time 1 that was scheduled
last. -/
theorem events_in_order_threeEvents :
    (∀ x ∈ leastFirst.pending [.schedule (bareEvent 1 3), .schedule (bareEvent 5 2),
      .schedule (bareEvent 5 1)], x = bareEvent 1 3 ∨ (bareEvent 1 3).key < x.key) ∧
    [bareEvent 5 2, bareEvent 5 1].Sublist (leastFirst.returned (queueCalls leastFirst {}
      [.next, .next, .next, .scheduleEvent 1 { type := .other () },
        .scheduleEvent 5 { type := .other () }, .scheduleEvent 5 { type := .other () }]).2) :=
  ⟨(((events_in_order leastFirst).1 _ (by decide)).2.1 (bareEvent 1 3) rfl).2,
    ((events_in_order leastFirst).2 {} _ _ rfl).2 (bareEvent 5 2) (bareEvent 5 1)
      (by decide) rfl rfl (by decide)⟩

end SimCore
