import SimCore.Base.SliceSort
import Mathlib.Data.Multiset.AddSub

/-!
# Priority queues

A heap of a standard library takes a comparison `less` and promises something only if `less` is a
strict weak order: a push adds its element, and a pop takes out an element that no other one is less
than. Calls on a priority queue are listed with the latest first, and so is what it returns.

## Main definitions

* `Heap`: a heap with its contract
* `QueueCall`, `scheduled`, `Heap.after`: calls, what they schedule, and what they do to a heap

## Main results

* `Heap.conserved`: what was scheduled has been returned or is pending
* `Heap.in_order`: a lesser element that was scheduled earlier is returned earlier
-/

namespace SimCore

open Multiset

variable {α : Type} {less : α → α → Bool}

/-- A heap for a comparison, with its contract. -/
structure Heap (α : Type) (less : α → α → Bool) where
  Carrier : Type
  empty : Carrier
  push : α → Carrier → Carrier
  pop : Carrier → Option (α × Carrier)
  elems : Carrier → Multiset α
  elems_empty : elems empty = 0
  elems_push : WeakOrderOn .univ less → ∀ a h, elems (push a h) = a ::ₘ elems h
  pop_eq_none : WeakOrderOn .univ less → ∀ h, pop h = none ↔ elems h = 0
  pop_eq_some : WeakOrderOn .univ less → ∀ h a h', pop h = some (a, h') →
    elems h = a ::ₘ elems h' ∧ ∀ b ∈ elems h', less b a = false

inductive QueueCall (α : Type)
  | schedule (a : α)
  | next

/-- The elements that calls schedule, the latest first. -/
def scheduled : List (QueueCall α) → List α
  | [] => []
  | .schedule a :: calls => a :: scheduled calls
  | .next :: calls => scheduled calls

namespace Heap

/-- The heap after calls, and the elements that it has returned. -/
def after (H : Heap α less) : List (QueueCall α) → H.Carrier × List α
  | [] => (H.empty, [])
  | .schedule a :: calls => (H.push a (H.after calls).1, (H.after calls).2)
  | .next :: calls =>
    match H.pop (H.after calls).1 with
    | none => H.after calls
    | some (a, h) => (h, a :: (H.after calls).2)

variable (H : Heap α less)

/-- The elements that are pending after calls. -/
def pending (calls : List (QueueCall α)) : Multiset α :=
  H.elems (H.after calls).1

/-- The elements that calls have returned, the latest first. -/
def returned (calls : List (QueueCall α)) : List α :=
  (H.after calls).2

/-- What `Next` returns after calls. -/
def next (calls : List (QueueCall α)) : Option α :=
  (H.pop (H.after calls).1).map Prod.fst

variable (hless : WeakOrderOn .univ less) (calls : List (QueueCall α))

theorem returned_next :
    H.returned (.next :: calls) = (H.next calls).toList ++ H.returned calls := by
  simp only [returned, after, next]
  cases H.pop (H.after calls).1 <;> rfl

include hless

theorem pending_schedule (a : α) : H.pending (.schedule a :: calls) = a ::ₘ H.pending calls :=
  H.elems_push hless a _

theorem next_eq_none_iff : H.next calls = none ↔ H.pending calls = 0 := by
  rw [next, Option.map_eq_none_iff]
  exact H.pop_eq_none hless _

/-- What is returned was pending, and no other pending element is less. -/
theorem next_eq_some {a : α} (h : H.next calls = some a) :
    H.pending calls = a ::ₘ H.pending (.next :: calls) ∧
      ∀ b ∈ H.pending (.next :: calls), less b a = false := by
  obtain ⟨⟨a', h'⟩, hp, rfl⟩ := Option.map_eq_some_iff.1 h
  have hs := H.pop_eq_some hless _ _ _ hp
  simpa only [pending, after, hp] using hs

theorem pending_next : H.pending calls =
    ((H.next calls).toList : Multiset α) + H.pending (.next :: calls) := by
  cases h : H.next calls with
  | some a => exact (H.next_eq_some hless calls h).1
  | none =>
    have hp : H.pop (H.after calls).1 = none := Option.map_eq_none_iff.1 h
    simp [pending, after, hp]

/-- What was scheduled has been returned or is pending. -/
theorem conserved : (scheduled calls : Multiset α) = H.returned calls + H.pending calls := by
  induction calls with
  | nil => simp [scheduled, returned, pending, after, H.elems_empty]
  | cons call calls ih =>
    cases call with
    | schedule a =>
      have hr : H.returned (.schedule a :: calls) = H.returned calls := rfl
      rw [scheduled, ← cons_coe, ih, H.pending_schedule hless, hr, add_cons]
    | next =>
      rw [scheduled, ih, H.pending_next hless, H.returned_next, ← Multiset.coe_add,
        ← Multiset.add_assoc, Multiset.add_comm (H.returned calls : Multiset α)]

/-- A lesser element that was scheduled earlier is returned earlier. -/
theorem in_order (hn : (scheduled calls).Nodup) {a b : α} (hlt : less b a = true)
    (hs : [a, b].Sublist (scheduled calls)) (ha : a ∈ H.returned calls) :
    [a, b].Sublist (H.returned calls) := by
  induction calls with
  | nil => cases ha
  | cons call calls ih =>
    cases call with
    | schedule e =>
      obtain ⟨hnew, hn⟩ := List.nodup_cons.1 hn
      have hm : a ∈ (scheduled calls : Multiset α) :=
        H.conserved hless calls ▸ mem_add.2 (.inl ha)
      rcases List.sublist_cons_iff.1 hs with hs | ⟨l, hl, -⟩
      · exact ih hn hs ha
      · obtain ⟨rfl, -⟩ := List.cons.inj hl
        exact absurd hm hnew
    | next =>
      have hne := H.next_eq_some hless calls (a := a)
      rw [returned_next] at ha ⊢
      cases h : H.next calls with
      | none => simpa [h] using ih hn hs (by simpa [h] using ha)
      | some e =>
        by_cases hae : a = e
        · subst hae
          -- the lesser element is not pending any more
          obtain ⟨hp, hle⟩ := hne h
          have hb : b ∈ (scheduled calls : Multiset α) := hs.subset (by simp)
          rw [H.conserved hless calls, hp, mem_add, mem_cons] at hb
          rcases hb with hb | rfl | hb
          · exact (List.singleton_sublist.2 hb).cons_cons a
          · cases (hless.irrefl trivial).symm.trans hlt
          · exact absurd (hle b hb) (by simp [hlt])
        · refine (ih hn hs ?_).cons e
          simpa [h, hae] using ha

end Heap

end SimCore
