import Mathlib.Data.List.Nodup
import Mathlib.Data.List.Count

/-!
# Counting in lists

How counts change when one element of a list changes, and counts of single elements of lists without
duplicates.

## Main results

* `length_filter_ne_add_one`, `length_filter_or_eq`: one element leaves or joins a filtered list
* `countP_modify`, `countP_modify_of_forall`: one element of a list changes
-/

namespace SimCore

open List

variable {α : Type*}

theorem length_filter_ne_add_one [DecidableEq α] {l : List α} (hl : l.Nodup) {a : α} (ha : a ∈ l) :
    (l.filter (· ≠ a)).length + 1 = l.length := by
  have he : l.filter (· ≠ a) = l.erase a := by
    rw [hl.erase_eq_filter]
    refine filter_congr fun x _ => ?_
    by_cases hx : x = a <;> simp [hx]
  rw [he, length_erase_of_mem ha]
  have := length_pos_of_mem ha
  omega

theorem length_filter_or_eq [DecidableEq α] {l : List α} (hl : l.Nodup) {a : α} (ha : a ∈ l)
    {p q : α → Bool} (hp : p a = false) (hq : q a = true) (hpq : ∀ x, x ≠ a → q x = p x) :
    (l.filter q).length = (l.filter p).length + 1 := by
  have he : (l.erase a).filter q = (l.erase a).filter p :=
    filter_congr fun x hx => hpq x (hl.mem_erase_iff.1 hx).1
  have hc := fun p => ((perm_cons_erase ha).filter p).length_eq
  rw [hc, hc, filter_cons_of_pos hq, filter_cons_of_neg (by simp [hp]), he, length_cons]

theorem countP_modify (p : α → Bool) (l : List α) {i : Nat} (hi : i < l.length) (g : α → α) :
    (l.modify i g).countP p + (if p l[i] then 1 else 0) =
      l.countP p + if p (g l[i]) then 1 else 0 := by
  induction l generalizing i with
  | nil => cases hi
  | cons a l ih =>
    cases i with
    | zero =>
      simp only [modify_zero_cons, countP_cons, getElem_cons_zero]
      omega
    | succ i =>
      have hr := ih (Nat.lt_of_succ_lt_succ hi)
      simp only [modify_succ_cons, countP_cons, getElem_cons_succ]
      omega

theorem countP_modify_of_forall {p : α → Bool} {g : α → α} (hg : ∀ a, p (g a) = p a) (l : List α)
    (i : Nat) : (l.modify i g).countP p = l.countP p := by
  by_cases hi : i < l.length
  · have hc := countP_modify p l hi g
    rw [hg] at hc
    exact Nat.add_right_cancel hc
  · rw [modify_eq_self (Nat.le_of_not_lt hi)]

end SimCore
