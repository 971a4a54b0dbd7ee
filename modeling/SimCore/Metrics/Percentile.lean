import Mathlib.Data.List.GetD
import Mathlib.Data.List.Sort
import SimCore.Base.Interpolation
import SimCore.Base.Text

/-!
# Percentiles

The collector and the numeric helpers each have a function for percentiles. Both interpolate between
the values of a sorted list at the whole positions next to a rational one, but they round this
position and treat its ends differently. On positions within the list they agree.

## Main definitions

* `calculatePercentile`, `percentile`: the percentile of a sorted list, and of any list

## Main results

* `percentiles_agree`: the two functions agree
-/

namespace SimCore.Metrics

open List

/-- `values[i]`, or a panic. -/
def at? (values : List ℚ) (i : Int) : Option ℚ :=
  if 0 ≤ i then values[i.toNat]? else none

/-- The percentile of a sorted list, for a `p` between 0 and 1. -/
def calculatePercentile (sortedValues : List ℚ) (p : ℚ) : Option ℚ :=
  if sortedValues.length = 0 then some 0
  else if sortedValues.length = 1 then at? sortedValues 0
  else
    let index := p * (sortedValues.length - 1)
    let lower := truncate index
    let upper := lower + 1
    if upper ≥ sortedValues.length then at? sortedValues (sortedValues.length - 1)
    else do
      let weight := index - lower
      let low ← at? sortedValues lower
      let up ← at? sortedValues upper
      return low * (1 - weight) + up * weight

/-- `sort.Float64s`. -/
def sortFloat64s (values : List ℚ) : List ℚ :=
  values.insertionSort (· ≤ ·)

/-- The percentile of a list, in percent. -/
def percentile (values : List ℚ) (percent : ℚ) : Option ℚ :=
  if values.length = 0 then some 0
  else
    let sorted := sortFloat64s values
    let index := percent / 100 * (sorted.length - 1)
    let lower := ⌊index⌋
    let upper := ⌈index⌉
    if lower = upper then at? sorted lower
    else do
      let weight := index - lower
      let low ← at? sorted lower
      let up ← at? sorted upper
      return low * (1 - weight) + up * weight

/-- The value at a position; beyond the end, the last one. -/
def clamped (l : List ℚ) (i : Int) : ℚ :=
  l.getD (min i.toNat (l.length - 1)) 0

section

variable {l : List ℚ} {i : Int} {p : ℚ}

theorem clamped_mem (hl : l ≠ []) (i : Int) : clamped l i ∈ l := by
  have hpos := length_pos_iff.2 hl
  rw [clamped, getD_eq_getElem _ _ (by omega)]
  exact getElem_mem _

theorem monotone_clamped (hl : l.SortedLE) : Monotone (clamped l) := by
  intro i j hij
  rcases eq_or_ne l [] with rfl | hne
  · simp [clamped]
  have hpos := length_pos_iff.2 hne
  rw [clamped, clamped, getD_eq_getElem _ _ (by omega), getD_eq_getElem _ _ (by omega)]
  exact hl.getElem_le_getElem_of_le (by omega)

theorem at?_eq (h0 : 0 ≤ i) (hi : i < l.length) : at? l i = some (clamped l i) := by
  have hlt : i.toNat < l.length := by omega
  rw [at?, if_pos h0, clamped, min_eq_left (by omega), getD_eq_getElem _ _ hlt,
    getElem?_eq_getElem hlt]

/-- Positions are within the list. -/
theorem position_le (hl : l ≠ []) (h0 : 0 ≤ p) (h1 : p ≤ 1) :
    0 ≤ p * (l.length - 1) ∧ p * (l.length - 1) ≤ ((l.length - 1 : Int) : ℚ) := by
  have hpos : (1 : ℚ) ≤ l.length := by exact_mod_cast length_pos_iff.2 hl
  push_cast
  constructor
  · exact mul_nonneg h0 (by linarith)
  · exact mul_le_of_le_one_left (by linarith) h1

theorem calculatePercentile_eq (hl : l ≠ []) (h0 : 0 ≤ p) (h1 : p ≤ 1) :
    calculatePercentile l p = some (between (clamped l) (p * (l.length - 1))) := by
  obtain ⟨hx0, hx1⟩ := position_le hl h0 h1
  have hpos := length_pos_iff.2 hl
  rw [calculatePercentile, if_neg (by omega)]
  split_ifs with hone
  · rw [at?_eq le_rfl (by omega), hone, show p * ((1 : Nat) - 1 : ℚ) = (0 : Int) by simp,
      between_intCast]
  dsimp only
  rw [truncate_eq_floor hx0]
  generalize p * ((l.length : ℚ) - 1) = x at hx0 hx1
  have hfloor : 0 ≤ ⌊x⌋ := Int.floor_nonneg.2 hx0
  split_ifs with hup
  · have hx : x = ((l.length - 1 : Int) : ℚ) := by
      refine hx1.antisymm ((Int.cast_le.2 ?_).trans (Int.floor_le x))
      omega
    rw [hx, between_intCast, at?_eq (by omega) (by omega)]
  · rw [at?_eq hfloor (by omega), at?_eq (by omega) (by omega)]
    rfl

theorem percentile_eq (hl : l ≠ []) (h0 : 0 ≤ p) (h1 : p ≤ 1) :
    percentile l (100 * p) =
      some (between (clamped (sortFloat64s l)) (p * ((sortFloat64s l).length - 1))) := by
  have hle : (sortFloat64s l).length = l.length := length_insertionSort _ _
  obtain ⟨hx0, hx1⟩ := position_le hl h0 h1
  have hpos := length_pos_iff.2 hl
  rw [percentile, if_neg (by omega)]
  dsimp only
  rw [mul_div_cancel_left₀ _ (by norm_num), hle]
  generalize p * ((l.length : ℚ) - 1) = x at hx0 hx1
  have hfloor : 0 ≤ ⌊x⌋ := Int.floor_nonneg.2 hx0
  have hceil : ⌈x⌉ ≤ l.length - 1 := Int.ceil_le.2 hx1
  have hfc := Int.floor_le_ceil x
  have hcf := Int.ceil_le_floor_add_one x
  split_ifs with heq
  · have hx : x = ⌊x⌋ := le_antisymm (heq ▸ Int.le_ceil x) (Int.floor_le x)
    rw [at?_eq hfloor (by omega), hx, between_intCast, Int.floor_intCast]
  · obtain hc : ⌈x⌉ = ⌊x⌋ + 1 := by omega
    rw [at?_eq hfloor (by omega), at?_eq (by omega) (by omega), hc]
    rfl

end

/-- What a percentile of a list is: the value at its position in the sorted list. -/
def percentileOf (values : List ℚ) (p : ℚ) : ℚ :=
  between (clamped (sortFloat64s values)) (p * (values.length - 1))

section

variable {values : List ℚ}

theorem sortFloat64s_perm (values : List ℚ) : (sortFloat64s values).Perm values :=
  perm_insertionSort _ _

theorem sortFloat64s_ne_nil (hv : values ≠ []) : sortFloat64s values ≠ [] :=
  fun hn => hv (hn ▸ sortFloat64s_perm values).nil_eq.symm

theorem sortFloat64s_eq_of_perm {values' : List ℚ} (h : values'.Perm values) :
    sortFloat64s values' = sortFloat64s values :=
  (((sortFloat64s_perm _).trans h).trans (sortFloat64s_perm _).symm).eq_of_pairwise'
    (pairwise_insertionSort _ _) (pairwise_insertionSort _ _)

theorem percentileOf_mono (hv : values ≠ []) : Monotone (percentileOf values) := by
  intro p q hpq
  have hpos : (1 : ℚ) ≤ values.length := by exact_mod_cast length_pos_iff.2 hv
  exact monotone_between (monotone_clamped sortedLE_insertionSort)
    (mul_le_mul_of_nonneg_right hpq (by linarith))

/-- A percentile is within the bounds of the values. -/
theorem percentileOf_mem (hv : values ≠ []) {lo hi : ℚ} (hb : ∀ a ∈ values, lo ≤ a ∧ a ≤ hi)
    (p : ℚ) : lo ≤ percentileOf values p ∧ percentileOf values p ≤ hi := by
  have hm := monotone_clamped (sortedLE_insertionSort (l := values))
  have hmem := fun i => hb _ ((sortFloat64s_perm values).mem_iff.1
    (clamped_mem (sortFloat64s_ne_nil hv) i))
  exact ⟨(hmem _).1.trans (le_between hm _), (between_le hm _).trans (hmem _).2⟩

/-- The two functions agree, on every order of the values; the percentile is between the least and
the greatest value, and it does not decrease in `p`. -/
theorem percentiles_agree (values : List ℚ) (hv : values ≠ []) : ∃ f : ℚ → ℚ,
    (∀ p, 0 ≤ p → p ≤ 1 →
      calculatePercentile (sortFloat64s values) p = some (f p) ∧
      (∀ values', values'.Perm values → percentile values' (100 * p) = some (f p)) ∧
      ∀ lo hi, (∀ a ∈ values, lo ≤ a ∧ a ≤ hi) → lo ≤ f p ∧ f p ≤ hi) ∧
    ∀ p q, 0 ≤ p → p ≤ q → q ≤ 1 → f p ≤ f q := by
  refine ⟨percentileOf values, fun p h0 h1 => ⟨?_, fun values' hp => ?_, fun lo hi hb => ?_⟩,
    fun p q _ hpq _ => percentileOf_mono hv hpq⟩
  · rw [calculatePercentile_eq (sortFloat64s_ne_nil hv) h0 h1, (sortFloat64s_perm _).length_eq]
    rfl
  · rw [percentile_eq (fun hn => hv (hn ▸ hp).nil_eq.symm) h0 h1, sortFloat64s_eq_of_perm hp,
      (sortFloat64s_perm _).length_eq]
    rfl
  · exact percentileOf_mem hv hb p

theorem percentiles_agree_three :
    calculatePercentile (sortFloat64s [30, 10, 20]) (1 / 4) = some 15 ∧
      percentile [30, 10, 20] 25 = some 15 := by
  obtain ⟨f, hf, -⟩ := percentiles_agree [30, 10, 20] (by simp)
  obtain ⟨hc, hp, -⟩ := hf (1 / 4) (by norm_num) (by norm_num)
  have h15 : calculatePercentile (sortFloat64s [30, 10, 20]) (1 / 4) = some 15 := by decide +kernel
  have h25 : (25 : ℚ) = 100 * (1 / 4) := by norm_num
  rw [h25, hp _ (.refl _), ← hc]
  exact ⟨h15, h15⟩

end

end SimCore.Metrics
