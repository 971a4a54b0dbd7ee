import Mathlib.Data.Finset.Card
import Mathlib.Logic.Relation

/-!
# Depth-first search for cycles

The search visits the nodes that it reaches along the edges `succ`, keeps the nodes on its stack,
and reports an error at an edge that leads back to one of them. It is given a number of turns and
reports another error, `stuck`, if they run out; as many turns as there are nodes are enough.

## Main definitions

* `depthFirst`: the search from one node
* `searchAll`: the search from every node of a list

## Main results

* `searchAll_isOk_iff`: the search reports no error exactly if there is no cycle
* `searchAll_fuel`: the search comes to its end
-/

namespace SimCore

open List

section FoldM

variable {σ α ε : Type} {f : σ → α → Except ε σ} {P : σ → Prop} {Q : α → Prop} {l : List α}
  {s s' : σ}

/-- What every step of a fold keeps, and what it finds out about its element. -/
theorem foldlM_forall (hst : ∀ a ∈ l, ∀ s s', P s → f s a = .ok s' → P s' ∧ Q a) (hs : P s)
    (hok : l.foldlM f s = .ok s') : P s' ∧ ∀ a ∈ l, Q a := by
  induction l generalizing s with
  | nil =>
    cases hok
    exact ⟨hs, by simp⟩
  | cons a _ ih =>
    rw [foldlM_cons] at hok
    cases hfirst : f s a with
    | error =>
      rw [hfirst] at hok
      cases hok
    | ok s₁ =>
      rw [hfirst] at hok
      obtain ⟨hs₁, ha⟩ := hst a mem_cons_self s s₁ hs hfirst
      obtain ⟨hs', hall⟩ := ih (fun b hb => hst b (mem_cons_of_mem _ hb)) hs₁ hok
      exact ⟨hs', forall_mem_cons.2 ⟨ha, hall⟩⟩

/-- The error of a fold is one of its steps. -/
theorem foldlM_eq_error {e : ε} (hk : ∀ a ∈ l, ∀ s s', P s → f s a = .ok s' → P s') (hs : P s)
    (he : l.foldlM f s = .error e) : ∃ a ∈ l, ∃ s, P s ∧ f s a = .error e := by
  induction l generalizing s with
  | nil => cases he
  | cons a _ ih =>
    rw [foldlM_cons] at he
    cases hf : f s a with
    | error =>
      rw [hf] at he
      cases he
      exact ⟨a, mem_cons_self, s, hs, hf⟩
    | ok s₁ =>
      rw [hf] at he
      obtain ⟨b, hb, s₂, hl⟩ := ih (fun b hb => hk b (mem_cons_of_mem _ hb))
        (hk a mem_cons_self s s₁ hs hf) he
      exact ⟨b, mem_cons_of_mem _ hb, s₂, hl⟩

/-- Folds with the same steps agree. -/
theorem foldlM_congr {g : σ → α → Except ε σ} (hst : ∀ a ∈ l, ∀ s, P s → f s a = g s a)
    (hk : ∀ a ∈ l, ∀ s s', P s → f s a = .ok s' → P s') (hs : P s) :
    l.foldlM f s = l.foldlM g s := by
  induction l generalizing s with
  | nil => rfl
  | cons a _ ih =>
    rw [foldlM_cons, foldlM_cons, ← hst a mem_cons_self s hs]
    cases hfirst : f s a with
    | error => rfl
    | ok s₁ =>
      exact ih (fun b hb => hst b (mem_cons_of_mem _ hb))
        (fun b hb => hk b (mem_cons_of_mem _ hb))
        (hk a mem_cons_self s s₁ hs hfirst)

end FoldM

variable {α ε : Type} [DecidableEq α]

/-- The search from one node: `path` is the stack. -/
def depthFirst (succ : α → List α) (err : α → α → ε) (stuck : ε) :
    Nat → List α → List α → α → Except ε (List α)
  | 0, _, _, _ => .error stuck
  | fuel + 1, visited, path, key =>
    (succ key).foldlM (fun visited next =>
      if next ∉ visited then depthFirst succ err stuck fuel visited (key :: path) next
      else if next ∈ key :: path then .error (err key next)
      else .ok visited) (key :: visited)

/-- The search from every node of a list. -/
def searchAll (succ : α → List α) (err : α → α → ε) (stuck : ε) (fuel : Nat) (keys : List α) :
    Except ε (List α) :=
  keys.foldlM (fun visited key =>
    if key ∈ visited then .ok visited else depthFirst succ err stuck fuel visited [] key) []

variable {succ : α → List α} {err : α → α → ε} {stuck : ε} {fuel : Nat}
  {visited visited' path keys : List α} {key : α}

/-- There is an edge from one node to another. -/
def Edge (succ : α → List α) (a b : α) : Prop := b ∈ succ a

/-- No walk from the node goes on for ever. -/
def Grounded (succ : α → List α) : α → Prop := Acc fun b a => Edge succ a b

omit [DecidableEq α] in
theorem Grounded.not_cycle (h : Grounded succ key) : ¬ Relation.TransGen (Edge succ) key key := by
  have ha : Acc (Relation.TransGen fun b a => Edge succ a b) key := Acc.transGen h
  induction ha with
  | intro a _ ih =>
    intro hc
    exact ih a (Relation.transGen_swap.1 hc) h hc

/-! ### Turns -/

theorem subset_depthFirst (hok : depthFirst succ err stuck fuel visited path key = .ok visited') :
    visited ⊆ visited' := by
  induction fuel generalizing visited visited' path key with
  | zero => cases hok
  | succ _ ih =>
    refine List.Subset.trans (subset_cons_self key visited) ?_
    refine (foldlM_forall (P := (key :: visited ⊆ ·)) (Q := fun _ => True)
      (fun next _ v v' hv hs => ⟨?_, trivial⟩) (List.Subset.refl _) hok).1
    split_ifs at hs
    · cases hs
      exact hv
    · exact List.Subset.trans hv (ih hs)

/-- What has been visited stays so in a step of the search. -/
theorem subset_step {next : α} {v v' base : List α} (hv : base ⊆ v)
    (hst : (if next ∉ v then depthFirst succ err stuck fuel v (key :: path) next
      else if next ∈ key :: path then .error (err key next) else .ok v) = .ok v') : base ⊆ v' := by
  split_ifs at hst
  · cases hst
    exact hv
  · exact List.Subset.trans hv (subset_depthFirst hst)

section Turns

variable {nodes : Finset α}

/-- One node fewer is left once a node has been visited. -/
theorem card_unvisited_le {v : List α} (hk : key ∈ nodes) (hn : key ∉ visited)
    (hv : key :: visited ⊆ v) (hf : (nodes \ visited.toFinset).card ≤ fuel + 1) :
    (nodes \ v.toFinset).card ≤ fuel := by
  have hlt : (nodes \ v.toFinset).card < (nodes \ visited.toFinset).card := by
    refine Finset.card_lt_card (Finset.ssubset_iff_of_subset ?_ |>.2 ⟨key, by simp [hk, hn], ?_⟩)
    · refine Finset.sdiff_subset_sdiff Finset.Subset.rfl fun x hx => ?_
      exact mem_toFinset.2 (hv (mem_cons_of_mem _ (mem_toFinset.1 hx)))
    · simp [hv mem_cons_self]
  omega

theorem unvisited_ne_zero (hk : key ∈ nodes) (hn : key ∉ visited) :
    ¬ (nodes \ visited.toFinset).card ≤ 0 := by
  rw [Nat.le_zero, Finset.card_eq_zero]
  exact Finset.ne_empty_of_mem (a := key) (by simp [hk, hn])

variable (hclosed : ∀ x ∈ nodes, ∀ y ∈ succ x, y ∈ nodes)
include hclosed

/-- More turns than there are nodes make no difference: the search comes to its end. -/
theorem depthFirst_fuel {m n : Nat} (hk : key ∈ nodes) (hnew : key ∉ visited)
    (hm : (nodes \ visited.toFinset).card ≤ m) (hn : (nodes \ visited.toFinset).card ≤ n) :
    depthFirst succ err stuck m visited path key =
      depthFirst succ err stuck n visited path key := by
  induction m generalizing n visited path key with
  | zero => exact absurd hm (unvisited_ne_zero hk hnew)
  | succ _ ih =>
    cases n with
    | zero => exact absurd hn (unvisited_ne_zero hk hnew)
    | succ =>
      refine foldlM_congr (P := (key :: visited ⊆ ·)) (fun next hne v hv => ?_)
        (fun _ _ _ _ => subset_step) (List.Subset.refl _)
      by_cases hs : next ∈ v
      · rw [if_neg (not_not.2 hs), if_neg (not_not.2 hs)]
      · rw [if_pos hs, if_pos hs]
        exact ih (hclosed key hk next hne) hs (card_unvisited_le hk hnew hv hm)
          (card_unvisited_le hk hnew hv hn)

/-! ### An error is a cycle -/

/-- If the nodes on the stack lead to the node that is searched, and there are enough turns, an
error is a cycle. -/
theorem cycle_of_depthFirst {e : ε} (hk : key ∈ nodes) (hnew : key ∉ visited)
    (hf : (nodes \ visited.toFinset).card ≤ fuel)
    (hp : ∀ x ∈ path, Relation.TransGen (Edge succ) x key)
    (he : depthFirst succ err stuck fuel visited path key = .error e) :
    ∃ x, Relation.TransGen (Edge succ) x x := by
  induction fuel generalizing visited path key with
  | zero => exact absurd hf (unvisited_ne_zero hk hnew)
  | succ _ ih =>
    obtain ⟨next, hn, v, hv, hs⟩ := foldlM_eq_error (P := (key :: visited ⊆ ·))
      (fun _ _ _ _ => subset_step) (List.Subset.refl _) he
    have hl : ∀ x ∈ key :: path, Relation.TransGen (Edge succ) x next := by
      rintro x (_ | ⟨_, hx⟩)
      · exact .single hn
      · exact (hp x hx).tail hn
    split_ifs at hs with hse hb
    · exact ⟨next, hl next hb⟩
    · exact ih (hclosed key hk next hn) hse (card_unvisited_le hk hnew hv hf) hl hs

/-! ### Without an error there is no cycle -/

/-- What the search knows: the stack has been visited, and what has been visited and left again is
grounded. -/
structure Searching (succ : α → List α) (path visited : List α) : Prop where
  path_subset : path ⊆ visited
  grounded : ∀ x ∈ visited, x ∉ path → Grounded succ x

/-- The nodes that a search with enough turns has visited are grounded, but for the stack. The turns
are enough if they are more than the nodes that have not been visited. -/
theorem searching_depthFirst (hk : key ∈ nodes) (hnew : key ∉ visited)
    (hs : Searching succ path visited) (hf : (nodes \ visited.toFinset).card ≤ fuel)
    (hok : depthFirst succ err stuck fuel visited path key = .ok visited') :
    Searching succ path visited' ∧ key ∈ visited' := by
  induction fuel generalizing visited visited' path key with
  | zero => exact absurd hf (unvisited_ne_zero hk hnew)
  | succ _ ih =>
    have hstart : Searching succ (key :: path) (key :: visited) := by
      refine ⟨cons_subset_cons _ hs.path_subset, fun x hx hnot => ?_⟩
      simp only [mem_cons, not_or] at hx hnot
      exact hs.grounded x (hx.resolve_left hnot.1) hnot.2
    obtain ⟨⟨he, hsub⟩, ha⟩ := foldlM_forall
      (P := fun v => Searching succ (key :: path) v ∧ key :: visited ⊆ v)
      (Q := Grounded succ) (fun next hn v v' ⟨hv, hsub⟩ hst => by
        split_ifs at hst with hse hb
        · cases hst
          exact ⟨⟨hv, hsub⟩, hv.grounded next hse hb⟩
        · obtain ⟨hv', hm⟩ := ih (hclosed key hk next hn) hse hv
            (card_unvisited_le hk hnew hsub hf) hst
          have ho : next ∉ key :: path := fun hm => hse (hv.path_subset hm)
          exact ⟨⟨hv', List.Subset.trans hsub (subset_depthFirst hst)⟩, hv'.grounded next hm ho⟩)
      ⟨hstart, List.Subset.refl _⟩ hok
    refine ⟨⟨?_, fun x hx hnot => ?_⟩, hsub mem_cons_self⟩
    · exact fun x hx => he.path_subset (mem_cons_of_mem _ hx)
    · by_cases hxk : x = key
      · subst hxk
        exact Acc.intro x ha
      · exact he.grounded x hx (by simp [hxk, hnot])

end Turns

section All

/-- As many turns are enough as there are nodes and edges. -/
theorem card_nodes_le (hf : keys.length + (keys.flatMap succ).length ≤ fuel) (v : List α) :
    ((keys ++ keys.flatMap succ).toFinset \ v.toFinset).card ≤ fuel :=
  (Finset.card_le_card Finset.sdiff_subset).trans
    ((toFinset_card_le _).trans (length_append.trans_le hf))

variable (houtside : ∀ x, x ∉ keys → succ x = [])
include houtside

theorem mem_nodes_of_mem_succ {x y : α} (hy : y ∈ succ x) :
    y ∈ (keys ++ keys.flatMap succ).toFinset := by
  have hx : x ∈ keys := by_contra fun hx => by simp [houtside x hx] at hy
  exact mem_toFinset.2 (mem_append_right _ (mem_flatMap.2 ⟨x, hx, hy⟩))

variable (err stuck) in
/-- The search from all nodes that have edges reports no error exactly if there is no cycle. -/
theorem searchAll_isOk_iff (hf : keys.length + (keys.flatMap succ).length ≤ fuel) :
    (∃ visited, searchAll succ err stuck fuel keys = .ok visited) ↔
      ∀ x, ¬ Relation.TransGen (Edge succ) x x := by
  constructor
  · rintro ⟨visited, hok⟩ x
    by_cases hx : x ∈ keys
    · obtain ⟨-, hall⟩ := foldlM_forall (P := Searching succ []) (Q := Grounded succ)
        (fun key hk v v' hv hs => by
          split_ifs at hs with hse
          · cases hs
            exact ⟨hv, hv.grounded key hse (by simp)⟩
          · obtain ⟨hv', hm⟩ := searching_depthFirst (fun _ _ _ => mem_nodes_of_mem_succ houtside)
              (mem_toFinset.2 (mem_append_left _ hk)) hse hv
              (card_nodes_le hf v) hs
            exact ⟨hv', hv'.grounded key hm (by simp)⟩)
        ⟨nil_subset _, by simp⟩ hok
      exact (hall x hx).not_cycle
    · intro hc
      obtain ⟨y, he, -⟩ := Relation.TransGen.head'_iff.1 hc
      rw [Edge, houtside x hx] at he
      simp at he
  · intro ha
    cases hsearch : searchAll succ err stuck fuel keys with
    | ok visited => exact ⟨visited, rfl⟩
    | error =>
      obtain ⟨key, hk, v, -, hs⟩ := foldlM_eq_error (P := fun _ => True)
        (fun _ _ _ _ _ _ => trivial) trivial hsearch
      split_ifs at hs with hse
      obtain ⟨x, hc⟩ := cycle_of_depthFirst (fun _ _ _ => mem_nodes_of_mem_succ houtside)
        (mem_toFinset.2 (mem_append_left _ hk)) hse (card_nodes_le hf v) (by simp) hs
      exact absurd hc (ha x)

variable (err stuck) in
/-- The search from all nodes comes to its end. -/
theorem searchAll_fuel {m n : Nat} (hm : keys.length + (keys.flatMap succ).length ≤ m)
    (hn : keys.length + (keys.flatMap succ).length ≤ n) :
    searchAll succ err stuck m keys = searchAll succ err stuck n keys := by
  refine foldlM_congr (P := fun _ => True) (fun key hk v _ => ?_) (fun _ _ _ _ _ _ => trivial)
    trivial
  by_cases hs : key ∈ v
  · rw [if_pos hs, if_pos hs]
  · rw [if_neg hs, if_neg hs]
    exact depthFirst_fuel (fun _ _ _ => mem_nodes_of_mem_succ houtside)
      (mem_toFinset.2 (mem_append_left _ hk)) hs (card_nodes_le hm v)
      (card_nodes_le hn v)

end All

end SimCore
