import Mathlib.Data.List.Induction
import Mathlib.Data.List.Nodup
import Mathlib.Data.List.Perm.Subperm
import Mathlib.Logic.Function.Basic

/-!
# Maps with finitely many keys

A map of the source is a partial function together with the list of its keys, each listed once. The
list stands for the map only up to order: an iteration over the map visits it in some permutation.

## Main definitions

* `KeyMap`: maps with finitely many keys
* `KeyMap.set`: the assignment `m[k] = v`
* `KeyMap.modify`, `KeyMap.filterMap`: a change of one value, and a pass over all entries that
  changes or deletes each
* `KeyMap.ofEntries`: the map after a sequence of assignments

## Main results

* `KeyMap.get_set`: what an assignment changes
* `KeyMap.length_keys_ofEntries_iff`: a sequence of assignments loses no entry exactly if its keys
  are distinct
-/

namespace SimCore

open List

/-- A map with finitely many keys. -/
structure KeyMap (κ α : Type) where
  get : κ → Option α
  keys : List κ
  nodup : keys.Nodup
  mem_keys : ∀ k, k ∈ keys ↔ (get k).isSome = true

namespace KeyMap

variable {κ α : Type} {m : KeyMap κ α} {k k' : κ} {v : α}

/-- The map without entries. -/
def empty : KeyMap κ α where
  get _ := none
  keys := []
  nodup := .nil
  mem_keys := by simp

@[simp] theorem get_empty (k : κ) : (empty : KeyMap κ α).get k = none := rfl

theorem mem_keys_of_get (h : m.get k = some v) : k ∈ m.keys :=
  (m.mem_keys k).2 (by simp [h])

variable [DecidableEq κ]

/-- The assignment `m[k] = v`. -/
def set (m : KeyMap κ α) (k : κ) (v : α) : KeyMap κ α where
  get := Function.update m.get k (some v)
  keys := if k ∈ m.keys then m.keys else m.keys ++ [k]
  nodup := by
    split_ifs with hk
    · exact m.nodup
    · exact List.nodup_append.2 ⟨m.nodup, List.nodup_singleton k, by
        rintro a ha b hb rfl
        exact hk (List.mem_singleton.1 hb ▸ ha)⟩
  mem_keys k' := by
    by_cases hk : k' = k
    · subst hk
      split <;> simp_all
    · rw [Function.update_of_ne hk, ← m.mem_keys k']
      split <;> simp [hk]

@[simp] theorem get_set_self (m : KeyMap κ α) (k : κ) (v : α) : (m.set k v).get k = some v :=
  Function.update_self ..

theorem get_set_of_ne (h : k' ≠ k) : (m.set k v).get k' = m.get k' :=
  Function.update_of_ne h ..

theorem get_set : (m.set k v).get k' = if k' = k then some v else m.get k' := by
  split_ifs with h
  · rw [h, get_set_self]
  · exact get_set_of_ne h

theorem keys_set_of_mem (h : k ∈ m.keys) : (m.set k v).keys = m.keys :=
  if_pos h

theorem keys_set_of_get {w : α} (h : m.get k = some w) : (m.set k v).keys = m.keys :=
  keys_set_of_mem (mem_keys_of_get h)

theorem keys_set_of_notMem (h : k ∉ m.keys) : (m.set k v).keys = m.keys ++ [k] :=
  if_neg h

@[simp] theorem mem_keys_set : k' ∈ (m.set k v).keys ↔ k' = k ∨ k' ∈ m.keys := by
  by_cases hk : k ∈ m.keys
  · rw [keys_set_of_mem hk]
    exact ⟨.inr, fun h => h.elim (· ▸ hk) id⟩
  · rw [keys_set_of_notMem hk, mem_append, mem_singleton, or_comm]

/-- A property of every value survives an assignment of a value that has it. -/
theorem forall_get_set {P : κ → α → Prop} (hm : ∀ k v, m.get k = some v → P k v) (hv : P k v) :
    ∀ k' v', (m.set k v).get k' = some v' → P k' v' := by
  intro k' v' h
  rw [get_set] at h
  split_ifs at h with hk
  · cases h
    exact hk ▸ hv
  · exact hm k' v' h

/-- A change of the value under a key, if there is one. -/
def modify (m : KeyMap κ α) (k : κ) (f : α → α) : KeyMap κ α where
  get k' := if k' = k then (m.get k').map f else m.get k'
  keys := m.keys
  nodup := m.nodup
  mem_keys k' := by
    rw [m.mem_keys k']
    split <;> simp

omit [DecidableEq κ] in
/-- A pass over the entries that gives each a new value, or deletes it. -/
def filterMap (m : KeyMap κ α) (f : κ → α → Option α) : KeyMap κ α where
  get k := (m.get k).bind (f k)
  keys := m.keys.filter fun k => ((m.get k).bind (f k)).isSome
  nodup := m.nodup.filter _
  mem_keys k := by
    rw [List.mem_filter, m.mem_keys k]
    refine ⟨fun h => h.2, fun h => ⟨?_, h⟩⟩
    cases hk : m.get k with
    | none => simp [hk] at h
    | some v => rfl

omit [DecidableEq κ] in
@[simp] theorem get_filterMap (m : KeyMap κ α) (f : κ → α → Option α) (k : κ) :
    (m.filterMap f).get k = (m.get k).bind (f k) := rfl

/-- The entries in the order of the keys. -/
def entries (m : KeyMap κ α) : List (κ × α) :=
  m.keys.filterMap fun k => (m.get k).map fun v => (k, v)

theorem entries_set_of_notMem (h : k ∉ m.keys) : (m.set k v).entries = m.entries ++ [(k, v)] := by
  rw [entries, keys_set_of_notMem h, filterMap_append]
  congr 1
  · refine filterMap_congr fun k' hk' => ?_
    have hne : k' ≠ k := fun heq => h (heq ▸ hk')
    rw [get_set_of_ne hne]
  · simp

omit [DecidableEq κ] in
/-- Maps with the same keys have related entries if their values are related. -/
theorem forall₂_entries {β : Type} {m' : KeyMap κ β} {R : α → β → Prop} (hke : m'.keys = m.keys)
    (h : ∀ k v v', m.get k = some v → m'.get k = some v' → R v v') :
    List.Forall₂ (fun e e' => R e.2 e'.2) m.entries m'.entries := by
  have hs : ∀ l, l ⊆ m.keys → List.Forall₂ (fun e e' => R e.2 e'.2)
      (l.filterMap fun k => (m.get k).map fun v => (k, v))
      (l.filterMap fun k => (m'.get k).map fun v => (k, v)) := by
    intro l
    induction l with
    | nil => exact fun _ => .nil
    | cons k _ ih =>
      intro hl
      have hk : k ∈ m.keys := hl mem_cons_self
      obtain ⟨v, hv⟩ := Option.isSome_iff_exists.1 ((m.mem_keys k).1 hk)
      obtain ⟨v', hv'⟩ := Option.isSome_iff_exists.1 ((m'.mem_keys k).1 (hke ▸ hk))
      simp only [filterMap_cons, hv, hv', Option.map_some]
      exact .cons (h k v v' hv hv') (ih fun x hx => hl (mem_cons_of_mem _ hx))
  rw [entries, entries, hke]
  exact hs m.keys (List.Subset.refl _)

omit [DecidableEq κ] in
theorem length_entries (m : KeyMap κ α) : m.entries.length = m.keys.length := by
  rw [entries, length_filterMap_eq_countP, countP_eq_length]
  intro k hk
  rw [Option.isSome_map]
  exact (m.mem_keys k).1 hk

omit [DecidableEq κ] in
/-- How many values satisfy a test, counted over the keys. -/
theorem countP_entries (m : KeyMap κ α) (p : α → Bool) :
    m.entries.countP (fun e => p e.2) = (m.keys.filter fun k => (m.get k).any p).length := by
  rw [entries, countP_filterMap, ← countP_eq_length_filter]
  refine countP_congr fun k _ => ?_
  cases m.get k <;> simp

omit [DecidableEq κ] in
/-- A map in which the values under all keys but some satisfy a test only if they did in another map
has at most as many more such values as there are exceptions. -/
theorem countP_entries_le {m' : KeyMap κ α} {p : α → Bool} (ks : List κ)
    (h : ∀ k v, m'.get k = some v → p v = true → k ∈ ks ∨ (m.get k).any p = true) :
    m'.entries.countP (fun e => p e.2) ≤ ks.length + m.entries.countP fun e => p e.2 := by
  rw [countP_entries, countP_entries, ← length_append]
  refine (List.Nodup.subperm (m'.nodup.filter _) fun k hk => ?_).length_le
  obtain ⟨-, ha⟩ := mem_filter.1 hk
  obtain ⟨v, hv, hp⟩ := (Option.any_eq_true ..).1 ha
  rw [mem_append, mem_filter]
  refine (h k v hv hp).imp_right fun hm => ⟨?_, hm⟩
  rw [m.mem_keys]
  cases hget : m.get k with
  | none => simp [hget] at hm
  | some => rfl

/-- The assignments of a list of entries, one after the other. -/
def ofEntries (entries : List (κ × α)) : KeyMap κ α :=
  entries.foldl (fun m e => m.set e.1 e.2) empty

theorem ofEntries_append (es : List (κ × α)) (e : κ × α) :
    ofEntries (es ++ [e]) = (ofEntries es).set e.1 e.2 := by
  simp [ofEntries]

theorem mem_of_get_ofEntries {es : List (κ × α)} (h : (ofEntries es).get k = some v) :
    (k, v) ∈ es := by
  induction es using reverseRecOn with
  | nil => cases h
  | append_singleton _ _ ih =>
    rw [ofEntries_append, get_set] at h
    split_ifs at h with hk
    · cases h
      exact mem_append_right _ (mem_singleton.2 (by rw [hk]))
    · exact mem_append_left _ (ih h)

theorem mem_keys_ofEntries (es : List (κ × α)) : k ∈ (ofEntries es).keys ↔ k ∈ es.map Prod.fst := by
  induction es using reverseRecOn with
  | nil => simp [ofEntries, empty]
  | append_singleton _ _ ih =>
    rw [ofEntries_append, mem_keys_set, ih, map_append, mem_append]
    simp [or_comm]

theorem length_keys_ofEntries_le (es : List (κ × α)) : (ofEntries es).keys.length ≤ es.length := by
  induction es using reverseRecOn with
  | nil => simp [ofEntries, empty]
  | append_singleton =>
    rw [ofEntries_append, set]
    split <;> simp <;> omega

/-- Assignments under distinct keys are all kept, in their order. -/
theorem entries_ofEntries {es : List (κ × α)} (h : (es.map Prod.fst).Nodup) :
    (ofEntries es).entries = es := by
  induction es using reverseRecOn with
  | nil => rfl
  | append_singleton es e ih =>
    rw [map_append, nodup_append] at h
    have hn : e.1 ∉ (ofEntries es).keys := by
      rw [mem_keys_ofEntries]
      exact fun hm => h.2.2 _ hm _ (mem_singleton.2 rfl) rfl
    rw [ofEntries_append, entries_set_of_notMem hn, ih h.1]

/-- A sequence of assignments loses no entry exactly if its keys are distinct. -/
theorem length_keys_ofEntries_iff (es : List (κ × α)) :
    (ofEntries es).keys.length = es.length ↔ (es.map Prod.fst).Nodup := by
  induction es using reverseRecOn with
  | nil => simp [ofEntries, empty]
  | append_singleton es e ih =>
    rw [ofEntries_append, map_append, nodup_append, ← ih]
    by_cases hm : e.1 ∈ (ofEntries es).keys
    · rw [keys_set_of_mem hm]
      have hle := length_keys_ofEntries_le es
      constructor
      · intro h
        simp at h
        omega
      · rintro ⟨-, -, h⟩
        exact absurd rfl (h _ ((mem_keys_ofEntries es).1 hm) _ (mem_singleton.2 rfl))
    · rw [keys_set_of_notMem hm]
      constructor
      · intro h
        refine ⟨by simpa using h, nodup_singleton _, ?_⟩
        rintro a ha b hb rfl
        exact hm ((mem_keys_ofEntries es).2 (mem_singleton.1 hb ▸ ha))
      · rintro ⟨h, -, -⟩
        simpa using h

end KeyMap

end SimCore
