import Mathlib.Data.List.Perm.Basic
import Mathlib.Data.List.Sort

/-!
# The first elements of a sorted list

A list is sorted by descending keys. Which elements come first, and which ones are on a page of the
list, depends on the arrangement of elements with equal keys only if such elements are on both sides
of a cut. Stable sorting keeps their order.

## Main definitions

* `ByKey`: the order by descending keys, ties by ascending ranks
* `SettledCut`: no ties are on both sides of a position of a sorted list

## Main results

* `settledCut_iff`: when the first elements do not depend on how ties are arranged
* `pages_perm`, `exists_pages_not_perm`: when pages of different arrangements list each element once
-/

namespace SimCore

open List

variable {α : Type} {l : List α}

section Cut

variable {κ : Type} [LinearOrder κ] {key : α → κ} {rank : α → Nat} {a b : α} {k : Nat}

/-- The order by descending keys, ties by ascending ranks. -/
def ByKey (key : α → κ) (rank : α → Nat) (a b : α) : Prop :=
  key b < key a ∨ key a = key b ∧ rank a ≤ rank b

theorem ByKey.key_le (h : ByKey key rank a b) : key b ≤ key a := by
  rcases h with h | ⟨h, -⟩
  · exact h.le
  · exact h.ge

variable [DecidableEq α]

/-- The position of an element without repetitions is the number of elements before it. -/
theorem exists_append_idxOf (hl : l.Nodup) (ha : a ∈ l) :
    ∃ pre post, l = pre ++ a :: post ∧ l.idxOf a = pre.length ∧ a ∉ pre ∧ a ∉ post := by
  obtain ⟨pre, post, rfl⟩ := append_of_mem ha
  obtain ⟨-, hc, hd⟩ := nodup_append.1 hl
  have hp : a ∉ pre := fun hm => hd a hm a mem_cons_self rfl
  refine ⟨pre, post, rfl, ?_, hp, (nodup_cons.1 hc).1⟩
  rw [idxOf_append_of_notMem hp, idxOf_cons_self, Nat.add_zero]

/-- In a list sorted by descending keys, the elements with larger keys come before an element, and
those with smaller keys after it. -/
theorem idxOf_bounds (hl : l.Nodup) (h : l.Pairwise fun a b => key b ≤ key a) (ha : a ∈ l) :
    l.countP (fun b => key a < key b) ≤ l.idxOf a ∧
      l.idxOf a < l.countP fun b => key a ≤ key b := by
  obtain ⟨pre, post, rfl, hi, -, -⟩ := exists_append_idxOf hl ha
  obtain ⟨-, hc, hp⟩ := pairwise_append.1 h
  have haf : post.countP (fun b => key a < key b) = 0 :=
    countP_eq_zero.2 fun b hb => by simpa using (pairwise_cons.1 hc).1 b hb
  have hbe : pre.countP (fun b => key a ≤ key b) = pre.length :=
    countP_eq_length.2 fun b hb => by simpa using hp b hb a mem_cons_self
  have hle : pre.countP (fun b => key a < key b) ≤ pre.length := countP_le_length
  rw [hi, countP_append, countP_append, countP_cons, countP_cons, haf, hbe]
  simp only [lt_irrefl, decide_false, le_refl, decide_true, if_true, Bool.false_eq_true, if_false]
  omega

/-- An element that precedes its ties comes right after the elements with larger keys. -/
theorem idxOf_le_of_first (hl : l.Nodup) (h : l.Pairwise (ByKey key rank)) (ha : a ∈ l)
    (hf : ∀ b ∈ l, b ≠ a → rank a < rank b) :
    l.idxOf a ≤ l.countP fun b => key a < key b := by
  obtain ⟨pre, _, rfl, hi, hn, -⟩ := exists_append_idxOf hl ha
  have hp : pre.countP (fun b => key a < key b) = pre.length := by
    refine countP_eq_length.2 fun b hb => ?_
    rcases (pairwise_append.1 h).2.2 b hb a mem_cons_self with hlt | ⟨-, _⟩
    · simpa using hlt
    · have := hf b (mem_append_left _ hb) fun heq => hn (heq ▸ hb)
      omega
  rw [hi, countP_append, hp]
  omega

/-- An element that follows its ties comes right before the elements with smaller keys. -/
theorem le_idxOf_of_last (hl : l.Nodup) (h : l.Pairwise (ByKey key rank)) (ha : a ∈ l)
    (hla : ∀ b ∈ l, b ≠ a → rank b < rank a) :
    l.countP (fun b => key a ≤ key b) ≤ l.idxOf a + 1 := by
  obtain ⟨pre, post, rfl, hi, -, hn⟩ := exists_append_idxOf hl ha
  have hp : post.countP (fun b => key a ≤ key b) = 0 := by
    refine countP_eq_zero.2 fun b hb => ?_
    have hc := (pairwise_append.1 h).2.1
    rcases (pairwise_cons.1 hc).1 b hb with hlt | ⟨-, _⟩
    · simpa using hlt
    · have := hla b (mem_append_right _ (mem_cons_of_mem _ hb)) fun heq => hn (heq ▸ hb)
      omega
  have hle : pre.countP (fun b => key a ≤ key b) ≤ pre.length := countP_le_length
  rw [hi, countP_append, countP_cons, hp]
  simp only [le_refl, decide_true, if_true]
  omega

/-- No elements with equal keys are on both sides of position `k`, however they are arranged. -/
def SettledCut (key : α → κ) (k : Nat) (l : List α) : Prop :=
  ∀ a ∈ l, k ≤ l.countP (fun b => key a < key b) ∨ l.countP (fun b => key a ≤ key b) ≤ k

instance : Decidable (SettledCut key k l) :=
  inferInstanceAs (Decidable (∀ a ∈ l, _))

/-- If ties are on both sides of position `k`, one of them is before the cut in one arrangement and
after it in another. -/
theorem exists_ranks {sorted : (α → Nat) → List α} (hl : l.Nodup)
    (hp : ∀ rank, (sorted rank).Perm l) (hs : ∀ rank, (sorted rank).Pairwise (ByKey key rank))
    (hu : ¬ SettledCut key k l) :
    ∃ a ∈ l, ∃ early late, (sorted early).idxOf a < k ∧ k ≤ (sorted late).idxOf a := by
  obtain ⟨a, ha, hc⟩ : ∃ a ∈ l, l.countP (fun b => key a < key b) < k ∧
      k < l.countP fun b => key a ≤ key b := by
    simpa [SettledCut, not_or] using hu
  have hn : ∀ rank, (sorted rank).Nodup := fun rank => (hp rank).nodup_iff.2 hl
  -- `a` is first among its ties in one arrangement and last in the other
  have he := idxOf_le_of_first (hn _) (hs fun b => if b = a then 0 else 1) ((hp _).mem_iff.2 ha)
    fun b _ hb => by simp [hb]
  have hla := le_idxOf_of_last (hn _) (hs fun b => if b = a then 1 else 0) ((hp _).mem_iff.2 ha)
    fun b _ hb => by simp [hb]
  rw [(hp _).countP_eq] at he hla
  exact ⟨a, ha, _, _, he.trans_lt hc.1, Nat.le_of_lt_succ (hc.2.trans_le hla)⟩

/-- The first `k` elements by descending keys are the same for all ranks of the ties exactly if no
ties are on both sides of position `k`. -/
theorem settledCut_iff {sorted : (α → Nat) → List α} (hl : l.Nodup)
    (hp : ∀ rank, (sorted rank).Perm l)
    (hs : ∀ rank, (sorted rank).Pairwise (ByKey key rank)) :
    SettledCut key k l ↔ ∀ rank rank', ∀ a ∈ (sorted rank).take k, a ∈ (sorted rank').take k := by
  have hn : ∀ rank, (sorted rank).Nodup := fun rank => (hp rank).nodup_iff.2 hl
  constructor
  · intro hc rank rank' a ha
    have hm : ∀ rank, a ∈ sorted rank := fun rank =>
      (hp rank).mem_iff.2 ((hp _).mem_iff.1 (mem_of_mem_take ha))
    have hbo := fun rank => idxOf_bounds (hn rank)
      ((hs rank).imp ByKey.key_le) (hm rank)
    simp only [fun rank => (hp rank).countP_eq] at hbo
    rw [mem_take_iff_idxOf_lt (hm _)] at ha ⊢
    have h₁ := hbo rank
    have h₂ := hbo rank'
    rcases hc a ((hp rank).mem_iff.1 (hm rank)) with h | h <;> omega
  · intro h
    by_contra hu
    obtain ⟨a, ha, early, late, he, hla⟩ := exists_ranks hl hp hs hu
    have hm := h early late a ((mem_take_iff_idxOf_lt ((hp _).mem_iff.2 ha)).2 he)
    rw [mem_take_iff_idxOf_lt ((hp _).mem_iff.2 ha)] at hm
    exact hla.not_gt hm

/-! ### Pages -/

theorem mem_page_iff (hl : l.Nodup) (ha : a ∈ l) (s p : Nat) :
    a ∈ (l.drop s).take p ↔ s ≤ l.idxOf a ∧ l.idxOf a < s + p := by
  constructor
  · intro hm
    obtain ⟨j, hj, rfl⟩ := mem_iff_getElem.1 hm
    rw [length_take, length_drop] at hj
    rw [getElem_take, getElem_drop, hl.idxOf_getElem]
    omega
  · rintro ⟨hs, hp⟩
    have hlt := idxOf_lt_length_of_mem ha
    refine mem_iff_getElem.2 ⟨l.idxOf a - s, by rw [length_take, length_drop]; omega, ?_⟩
    simp only [getElem_take, getElem_drop, Nat.add_sub_cancel' hs, getElem_idxOf]

/-- If no ties are on both sides of its ends, a page has the same elements in all arrangements. -/
theorem SettledCut.mem_page {L : List α} {s p : Nat} (h₁ : SettledCut key s l)
    (h₂ : SettledCut key (s + p) l) (hl : l.Nodup) (hp : L.Perm l)
    (hs : L.Pairwise fun a b => key b ≤ key a) (ha : a ∈ l) :
    a ∈ (L.drop s).take p ↔
      s ≤ l.countP (fun b => key a < key b) ∧ l.countP (fun b => key a ≤ key b) ≤ s + p := by
  have hb := idxOf_bounds (hp.nodup_iff.2 hl) hs (hp.mem_iff.2 ha)
  rw [hp.countP_eq, hp.countP_eq] at hb
  rw [mem_page_iff (hp.nodup_iff.2 hl) (hp.mem_iff.2 ha)]
  rcases h₁ a ha with h | h <;> rcases h₂ a ha with h' | h' <;> omega

section Pages

variable {L : Nat → List α} {n p : Nat}

/-- Pages of different arrangements list each element once, by descending keys, if no ties are on
both sides of the end of a page. -/
theorem pages_perm (hc : ∀ k, SettledCut key (k * p) l) (hl : l.Nodup) (hp : ∀ k, (L k).Perm l)
    (hs : ∀ k, (L k).Pairwise fun a b => key b ≤ key a) (hpos : 0 < p)
    (hn : l.length ≤ n * p) :
    ((range n).map fun k => ((L k).drop (k * p)).take p).flatten.Perm l ∧
      ((range n).map fun k => ((L k).drop (k * p)).take p).flatten.Pairwise
        fun a b => key b ≤ key a := by
  have hm : ∀ k, ∀ a ∈ l, a ∈ ((L k).drop (k * p)).take p ↔
      k * p ≤ l.countP (fun b => key a < key b) ∧
        l.countP (fun b => key a ≤ key b) ≤ (k + 1) * p := by
    intro k a ha
    have h₂ := hc (k + 1)
    rw [Nat.succ_mul] at h₂ ⊢
    exact (hc k).mem_page h₂ hl (hp k) (hs k) ha
  have hsub : ∀ k, (((L k).drop (k * p)).take p).Sublist (L k) := fun k =>
    (take_sublist _ _).trans (drop_sublist _ _)
  have hin : ∀ k, ∀ a ∈ ((L k).drop (k * p)).take p, a ∈ l := fun k a ha =>
    (hp k).mem_iff.1 ((hsub k).subset ha)
  -- the keys of a page are larger than those of a later one
  have hlt : ∀ j k, j < k → ∀ a ∈ ((L j).drop (j * p)).take p,
      ∀ b ∈ ((L k).drop (k * p)).take p, key b < key a := by
    intro j k hjk a ha b hb
    have h₁ := ((hm j a (hin j a ha)).1 ha).2
    have h₂ := ((hm k b (hin k b hb)).1 hb).1
    have hmul := Nat.mul_le_mul_right p (Nat.succ_le_of_lt hjk)
    by_contra hle
    have hmono : l.countP (fun c => key b < key c) ≤ l.countP (fun c => key a < key c) :=
      countP_mono_left fun c _ hc => by simpa using (not_lt.1 hle).trans_lt (by simpa using hc)
    have hself : l.countP (fun c => key a < key c) < l.countP (fun c => key a ≤ key c) := by
      have hbo := idxOf_bounds ((hp j).nodup_iff.2 hl) (hs j) ((hp j).mem_iff.2 (hin j a ha))
      rw [(hp j).countP_eq, (hp j).countP_eq] at hbo
      omega
    rw [Nat.succ_eq_add_one] at hmul
    omega
  constructor
  · refine (perm_ext_iff_of_nodup (nodup_flatten.2 ⟨?_, ?_⟩) hl).2 fun a => ?_
    · simp only [mem_map, forall_exists_index, and_imp]
      rintro _ k - rfl
      exact ((hp k).nodup_iff.2 hl).sublist (hsub k)
    · refine pairwise_map.2 (pairwise_lt_range.imp fun {j k} hjk a ha hb => ?_)
      exact lt_irrefl _ (hlt j k hjk a ha a hb)
    · simp only [mem_flatten, mem_map, exists_exists_and_eq_and, mem_range]
      refine ⟨fun ⟨k, _, ha⟩ => hin k a ha, fun ha => ?_⟩
      have hi := idxOf_lt_length_of_mem ((hp 0).mem_iff.2 ha)
      rw [(hp 0).length_eq] at hi
      -- the page on which the first arrangement has the element
      obtain ⟨k, hk⟩ : ∃ k, k = (L 0).idxOf a / p := ⟨_, rfl⟩
      have hd := Nat.div_add_mod' ((L 0).idxOf a) p
      have hr := Nat.mod_lt ((L 0).idxOf a) hpos
      rw [← hk] at hd
      refine ⟨k, hk ▸ Nat.div_lt_of_lt_mul (by rw [Nat.mul_comm]; omega), ?_⟩
      have h₂ := hc (k + 1)
      rw [Nat.succ_mul] at h₂
      rw [(hc k).mem_page h₂ hl (hp k) (hs k) ha, ← (hc k).mem_page h₂ hl (hp 0) (hs 0) ha,
        mem_page_iff ((hp 0).nodup_iff.2 hl) ((hp 0).mem_iff.2 ha)]
      omega
  · refine pairwise_flatten.2 ⟨?_, ?_⟩
    · simp only [mem_map, forall_exists_index, and_imp]
      rintro _ k - rfl
      exact (hs k).sublist (hsub k)
    · refine pairwise_map.2 (pairwise_lt_range.imp fun {j k} hjk a ha b hb => ?_)
      exact (hlt j k hjk a ha b hb).le

/-- If ties are on both sides of the end of a page, some arrangements list an element twice. -/
theorem exists_pages_not_perm {k : Nat} (hu : ¬ SettledCut key (k * p) l) (hl : l.Nodup)
    (sorted : (α → Nat) → List α) (hp : ∀ rank, (sorted rank).Perm l)
    (hs : ∀ rank, (sorted rank).Pairwise (ByKey key rank)) (hpos : 0 < p) (hn : l.length ≤ n * p) :
    ∃ ranks : Nat → α → Nat,
      ¬ ((range n).map fun j => ((sorted (ranks j)).drop (j * p)).take p).flatten.Perm l := by
  obtain ⟨a, ha, early, late, he, hla⟩ := exists_ranks hl hp hs hu
  have hm : ∀ rank, a ∈ sorted rank := fun rank => (hp rank).mem_iff.2 ha
  have hlen : ∀ rank, (sorted rank).idxOf a < n * p := fun rank =>
    (idxOf_lt_length_of_mem (hm rank)).trans_le ((hp rank).length_eq ▸ hn)
  have hpage : ∀ rank, a ∈ ((sorted rank).drop ((sorted rank).idxOf a / p * p)).take p := by
    intro rank
    have hd := Nat.div_add_mod' ((sorted rank).idxOf a) p
    have hr := Nat.mod_lt ((sorted rank).idxOf a) hpos
    rw [mem_page_iff ((hp rank).nodup_iff.2 hl) (hm rank)]
    omega
  refine ⟨fun j => if j < k then early else late, fun hperm => ?_⟩
  have hlow : (sorted early).idxOf a / p < k := Nat.div_lt_of_lt_mul (by rw [Nat.mul_comm]; omega)
  have hhigh : k ≤ (sorted late).idxOf a / p := (Nat.le_div_iff_mul_le hpos).2 (by omega)
  have hpages : ∀ rank, (sorted rank).idxOf a / p < n := fun rank =>
    Nat.div_lt_of_lt_mul (by rw [Nat.mul_comm]; exact hlen rank)
  have hdis := pairwise_iff_getElem.1 (nodup_flatten.1 (hperm.nodup_iff.2 hl)).2 _ _
    (by simpa using hpages early) (by simpa using hpages late) (hlow.trans_le hhigh)
  simp only [getElem_map, getElem_range, if_pos hlow, if_neg (not_lt.2 hhigh)] at hdis
  exact hdis (hpage early) (hpage late)

end Pages

end Cut

/-! ### Stability -/

/-- Of two elements that occur once, one comes before the other. -/
theorem eq_of_pair_sublists {a b : α} (hl : l.Nodup) (hab : [a, b].Sublist l)
    (hba : [b, a].Sublist l) : a = b := by
  induction l with
  | nil => simp at hab
  | cons c l ih =>
    obtain ⟨hc, hl⟩ := nodup_cons.1 hl
    rcases cons_sublist_cons'.1 hab with ht | ⟨rfl, -⟩
    · rcases cons_sublist_cons'.1 hba with ht' | ⟨rfl, -⟩
      · exact ih hl ht ht'
      · exact (hc (ht.subset (mem_cons_of_mem _ (mem_singleton_self _)))).elim
    · rcases cons_sublist_cons'.1 hba with ht' | ⟨heq, -⟩
      · exact (hc (ht'.subset (mem_cons_of_mem _ (mem_singleton_self _)))).elim
      · exact heq.symm

/-- Stable sorting keeps the order of elements that compare equal. -/
theorem pairwise_mergeSort_ties {r : α → α → Bool} {R : α → α → Prop}
    (ht : ∀ a b c, r a b = true → r b c = true → r a c = true)
    (hto : ∀ a b, (r a b || r b a) = true) (hl : l.Nodup) (hR : l.Pairwise R) :
    (l.mergeSort r).Pairwise fun a b => r a b = true ∧ (r b a = true → R a b) := by
  rw [pairwise_iff_forall_sublist]
  intro a b hab
  refine ⟨pairwise_iff_forall_sublist.1 (pairwise_mergeSort ht hto l) hab, fun hba => ?_⟩
  have hsub := hab.subset
  have ha : a ∈ l := mem_mergeSort.1 (hsub (by simp))
  have hb : b ∈ l := mem_mergeSort.1 (hsub (by simp))
  have hn : (l.mergeSort r).Nodup := (mergeSort_perm l r).nodup_iff.2 hl
  have hne : a ≠ b := by simpa using hab.nodup hn
  obtain ⟨pre, post, rfl⟩ := append_of_mem ha
  rcases mem_append.1 hb with hpre | hc
  · -- `b` before `a` in the list would stay so
    have hp : [b, a].Sublist (pre ++ a :: post) :=
      (singleton_sublist.2 hpre).append (singleton_sublist.2 mem_cons_self)
    have hs := pair_sublist_mergeSort ht hto hba hp
    exact absurd (eq_of_pair_sublists hn hab hs) hne
  · refine (pairwise_cons.1 (pairwise_append.1 hR).2.1).1 b ?_
    exact (mem_cons.1 hc).resolve_left hne.symm

end SimCore
