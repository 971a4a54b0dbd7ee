import Mathlib.Data.List.Perm.Basic
import Mathlib.Data.Set.Basic
import Mathlib.Tactic.Common

/-!
# Sorting with a comparison that may fail to be an order

A sorting routine of a standard library takes a comparison `less` and promises a sorted list only if
`less` is a strict weak order. What is known about it otherwise is that the result is a
rearrangement. This file has strict weak orders on a set and such routines.

## Main definitions

* `WeakOrderOn`: `less` is a strict weak order on a set
* `SliceSort`: a sorting routine
* `insertionSort`: the routine for short lists
* `rankedSort`: a routine that arranges ties by a rank
-/

namespace SimCore

variable {α : Type} {s : Set α} {less : α → α → Bool}

/-! ### Strict weak orders -/

/-- The comparison is a strict weak order on a set. -/
structure WeakOrderOn (s : Set α) (less : α → α → Bool) : Prop where
  asymm : ∀ a ∈ s, ∀ b ∈ s, less a b = true → less b a = false
  negTrans : ∀ a ∈ s, ∀ b ∈ s, ∀ c ∈ s, less a b = false → less b c = false → less a c = false

namespace WeakOrderOn

theorem irrefl (h : WeakOrderOn s less) {a : α} (ha : a ∈ s) : less a a = false := by
  cases hless : less a a with
  | false => rfl
  | true => exact hless.symm.trans (h.asymm a ha a ha hless)

end WeakOrderOn

/-! ### Sorting routines -/

/-- A sorting routine: it rearranges the list, and sorts it if the comparison is a strict weak order
on its elements. -/
structure SliceSort (α : Type) where
  sort : (α → α → Bool) → List α → List α
  perm : ∀ less l, (sort less l).Perm l
  sorted : ∀ less l, WeakOrderOn {a | a ∈ l} less →
    (sort less l).Pairwise fun a b => less b a = false

variable {l : List α}

/-- Moves an element towards the front while it is less than the one before it; the list is given
from the back. -/
def insertBack (less : α → α → Bool) (x : α) : List α → List α
  | [] => [x]
  | y :: ys => if less x y then y :: insertBack less x ys else x :: y :: ys

theorem insertBack_perm (less : α → α → Bool) (x : α) (l : List α) :
    (insertBack less x l).Perm (x :: l) := by
  induction l with
  | nil => exact .refl _
  | cons y ys ih =>
    unfold insertBack
    split_ifs
    · exact (ih.cons y).trans (.swap x y ys)
    · exact .refl _

theorem pairwise_insertBack (h : WeakOrderOn s less) {x : α} (hx : x ∈ s) (hl : ∀ a ∈ l, a ∈ s)
    (hs : l.Pairwise fun a b => less a b = false) :
    (insertBack less x l).Pairwise fun a b => less a b = false := by
  induction l with
  | nil => exact List.pairwise_singleton ..
  | cons y ys ih =>
    obtain ⟨hy, hys⟩ := List.pairwise_cons.1 hs
    have hm : y ∈ s := hl y List.mem_cons_self
    have ht : ∀ a ∈ ys, a ∈ s := fun a ha => hl a (List.mem_cons_of_mem _ ha)
    unfold insertBack
    split_ifs with hle
    · refine List.pairwise_cons.2 ⟨fun a ha => ?_, ih ht hys⟩
      rcases List.mem_cons.1 ((insertBack_perm less x ys).mem_iff.1 ha) with rfl | ha
      · exact h.asymm a hx y hm hle
      · exact hy a ha
    · have hxy : less x y = false := by simpa using hle
      refine List.pairwise_cons.2 ⟨fun a ha => ?_, hs⟩
      rcases List.mem_cons.1 ha with rfl | ha
      · exact hxy
      · exact h.negTrans x hx y hm a (ht a ha) hxy (hy a ha)

/-- Insertion sort: each element is moved to its place among those before it. -/
def insertionSort : SliceSort α where
  sort less l := (l.foldl (fun rev x => insertBack less x rev) []).reverse
  perm less l := by
    have hfold : ∀ rev : List α,
        (l.foldl (fun rev x => insertBack less x rev) rev).Perm (l ++ rev) := by
      induction l with
      | nil => exact fun rev => .refl _
      | cons x l ih =>
        intro rev
        refine (ih _).trans ?_
        exact ((insertBack_perm less x rev).append_left l).trans List.perm_middle
    have hnil := hfold []
    rw [List.append_nil] at hnil
    exact (List.reverse_perm _).trans hnil
  sorted less l h := by
    have hfold : ∀ (l' rev : List α), (∀ a ∈ l', a ∈ l) → (∀ a ∈ rev, a ∈ l) →
        (rev.Pairwise fun a b => less a b = false) →
        (l'.foldl (fun rev x => insertBack less x rev) rev).Pairwise
          fun a b => less a b = false := by
      intro l'
      induction l' with
      | nil => exact fun rev _ _ hrev => hrev
      | cons x l' ih =>
        intro rev hl' hrev hsorted
        have hx : x ∈ l := hl' x List.mem_cons_self
        refine ih _ (fun a ha => hl' a (List.mem_cons_of_mem _ ha)) (fun a ha => ?_)
          (pairwise_insertBack h hx hrev hsorted)
        rcases List.mem_cons.1 ((insertBack_perm less x rev).mem_iff.1 ha) with rfl | ha
        · exact hx
        · exact hrev a ha
    exact List.pairwise_reverse.2 (hfold l [] (fun _ ha => ha) (by simp) .nil)

/-- Insertion sort with the ties in the order of a rank. -/
def rankedSort (rank : α → Nat) : SliceSort α where
  sort less l := insertionSort.sort (fun a b => less a b || !less b a && decide (rank a < rank b)) l
  perm _ l := insertionSort.perm _ l
  sorted less l h := by
    refine (insertionSort.sorted _ l ⟨fun a ha b hb hab => ?_,
      fun a ha b hb c hc hab hbc => ?_⟩).imp fun {a b} hab => ?_
    · have h₁ := h.asymm a ha b hb
      have h₂ := h.asymm b hb a ha
      cases hl : less a b <;> cases hl' : less b a <;> simp_all
      omega
    · have h₁ := h.negTrans a ha b hb c hc
      have h₂ := h.negTrans b hb c hc a ha
      have h₃ := h.negTrans c hc a ha b hb
      cases hl : less b a <;> cases hl' : less c b <;> cases hl'' : less c a <;> simp_all
      omega
    · exact (Bool.or_eq_false_iff.1 hab).1

end SimCore
