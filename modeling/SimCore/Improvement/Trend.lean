import Mathlib.Algebra.Order.Chebyshev
import Mathlib.Algebra.Order.Field.Rat
import Mathlib.Tactic.FieldSimp
import Mathlib.Tactic.Linarith

/-!
# The trend of scores

The trend is read off the slope of the regression line, which is a weighted mean of the steps: a
bound on all steps bounds it, by Chebyshev's inequality for the scores without the bound's share.
-/

namespace SimCore.Improvement

open Finset

inductive Trend where
  | improving
  | degrading
  | stable
deriving DecidableEq

/-- One round of the sums of positions, scores, products and squares of positions. -/
def addScore : ℚ × ℚ × ℚ × ℚ → ℚ × ℕ → ℚ × ℚ × ℚ × ℚ
  | (sumX, sumY, sumXY, sumX2), (score, i) =>
    (sumX + i, sumY + score, sumXY + i * score, sumX2 + i * i)

def regressionSums (scores : List ℚ) : ℚ × ℚ × ℚ × ℚ :=
  scores.zipIdx.foldl addScore (0, 0, 0, 0)

def regressionSlope (scores : List ℚ) : ℚ :=
  let n : ℚ := scores.length
  let (sumX, sumY, sumXY, sumX2) := regressionSums scores
  (n * sumXY - sumX * sumY) / (n * sumX2 - sumX * sumX)

def determineTrend (scores : List ℚ) : Trend :=
  if scores.length < 2 then .stable
  else if regressionSlope scores < -(1 / 100) then .improving
  else if regressionSlope scores > 1 / 100 then .degrading
  else .stable

/-! ### Slopes -/

variable {n : ℕ} {y : ℕ → ℚ} {d : ℚ}

/-- The numerator of the slope. -/
def moment (n : ℕ) (y : ℕ → ℚ) : ℚ :=
  n * ∑ i ∈ range n, (i : ℚ) * y i - (∑ i ∈ range n, (i : ℚ)) * ∑ i ∈ range n, y i

theorem moment_sub_mul (n : ℕ) (y z : ℕ → ℚ) (d : ℚ) :
    moment n (fun i => y i - d * z i) = moment n y - d * moment n z := by
  have hs : ∀ x : ℕ → ℚ, ∑ i ∈ range n, x i * (y i - d * z i) =
      ∑ i ∈ range n, x i * y i - d * ∑ i ∈ range n, x i * z i := by
    intro x
    rw [mul_sum, ← sum_sub_distrib]
    exact sum_congr rfl fun i _ => by ring
  have h₁ := hs fun _ => 1
  simp only [one_mul] at h₁
  rw [moment, moment, moment, hs, h₁]
  ring

/-- Sequences with steps of at least `d` have at least the moment of one with steps `d`. -/
theorem mul_moment_le (h : ∀ i, i + 1 < n → d ≤ y (i + 1) - y i) :
    d * moment n (fun i => (i : ℚ)) ≤ moment n y := by
  have hm : ∀ {i j}, i ≤ j → j < n → y i - d * i ≤ y j - d * j := by
    intro i j hij
    induction j, hij using Nat.le_induction with
    | base => exact fun _ => le_rfl
    | succ j _ ih =>
      intro hj
      have hs := h j hj
      push_cast
      linarith [ih (by omega)]
  have hv : MonovaryOn (fun i : ℕ => (i : ℚ)) (fun i => y i - d * i) (range n) := by
    intro i hi j hj hlt
    by_contra hle
    rw [not_le, Nat.cast_lt] at hle
    exact absurd (hm hle.le (by simpa using hi)) (not_le.2 hlt)
  have hc := hv.sum_mul_sum_le_card_mul_sum
  have hz := moment_sub_mul n y (fun i => (i : ℚ)) d
  rw [card_range] at hc
  rw [moment] at hz
  linarith

theorem moment_le_mul (h : ∀ i, i + 1 < n → y (i + 1) - y i ≤ d) :
    moment n y ≤ d * moment n (fun i => (i : ℚ)) := by
  have hn := moment_sub_mul n (fun _ => 0) y 1
  have hz : moment n (fun _ => 0) = 0 := by simp [moment]
  have hle : -d * moment n (fun i => (i : ℚ)) ≤ moment n fun i => 0 - 1 * y i :=
    mul_moment_le fun i hi => by linarith [h i hi]
  linarith

theorem moment_cast_pos (hn : 2 ≤ n) : 0 < moment n fun i => (i : ℚ) := by
  have h₁ : ∀ n : ℕ, ∑ i ∈ range n, (i : ℚ) = n * (n - 1) / 2 := by
    intro n
    induction n with
    | zero => simp
    | succ n ih =>
      rw [sum_range_succ, ih]
      push_cast
      ring
  have h₂ : ∀ n : ℕ, ∑ i ∈ range n, (i : ℚ) * i = n * (n - 1) * (2 * n - 1) / 6 := by
    intro n
    induction n with
    | zero => simp
    | succ n ih =>
      rw [sum_range_succ, ih]
      push_cast
      ring
  have hn : (2 : ℚ) ≤ n := by exact_mod_cast hn
  have heq : moment n (fun i => (i : ℚ)) = n * n * (n - 1) * (n + 1) / 12 := by
    rw [moment, h₁, h₂]
    ring
  rw [heq]
  have hp : (0 : ℚ) < n - 1 := by linarith
  positivity

/-! ### Trends -/

variable {scores : List ℚ}

theorem regressionSums_eq (scores : List ℚ) : regressionSums scores =
    (∑ i ∈ range scores.length, (i : ℚ), ∑ i ∈ range scores.length, scores[i]?.getD 0,
      ∑ i ∈ range scores.length, (i : ℚ) * scores[i]?.getD 0,
      ∑ i ∈ range scores.length, (i : ℚ) * i) := by
  induction scores using List.reverseRecOn with
  | nil => rfl
  | append_singleton l a ih =>
    have hl : ∀ i ∈ range l.length, (l ++ [a])[i]? = l[i]? := fun i hi =>
      List.getElem?_append_left (mem_range.1 hi)
    have ha : regressionSums (l ++ [a]) = addScore (regressionSums l) (a, l.length) := by
      simp [regressionSums, List.zipIdx_append]
    have h₁ := sum_congr rfl fun i hi => congrArg (·.getD (0 : ℚ)) (hl i hi)
    have h₂ := sum_congr rfl fun i hi => congrArg (fun o => ((i : ℕ) : ℚ) * o.getD 0) (hl i hi)
    simp [ha, ih, addScore, sum_range_succ, h₁, h₂]

theorem regressionSlope_eq (scores : List ℚ) : regressionSlope scores =
    moment scores.length (scores[·]?.getD 0) / moment scores.length fun i => (i : ℚ) := by
  rw [regressionSlope, regressionSums_eq]
  rfl

def scoreStep (scores : List ℚ) (i : ℕ) : ℚ :=
  scores[i + 1]?.getD 0 - scores[i]?.getD 0

theorem le_regressionSlope (h : 2 ≤ scores.length)
    (hs : ∀ i, i + 1 < scores.length → d ≤ scoreStep scores i) : d ≤ regressionSlope scores := by
  rw [regressionSlope_eq, le_div_iff₀ (moment_cast_pos h)]
  exact mul_moment_le hs

theorem regressionSlope_le (h : 2 ≤ scores.length)
    (hs : ∀ i, i + 1 < scores.length → scoreStep scores i ≤ d) : regressionSlope scores ≤ d := by
  rw [regressionSlope_eq, div_le_iff₀ (moment_cast_pos h)]
  exact moment_le_mul hs

theorem regressionSlope_neg (scores : List ℚ) :
    regressionSlope (scores.map (-·)) = -regressionSlope scores := by
  have hy : (fun i : ℕ => (scores.map (-·))[i]?.getD 0) = fun i => 0 - 1 * scores[i]?.getD 0 := by
    funext i
    cases hi : scores[i]? <;> simp [hi]
  rw [regressionSlope_eq, regressionSlope_eq, List.length_map, hy, moment_sub_mul, ← neg_div]
  simp [moment]

/-- Improving and degrading exchanged. -/
def Trend.flip : Trend → Trend
  | .improving => .degrading
  | .degrading => .improving
  | .stable => .stable

/-- Steps beyond the threshold to one side decide the trend, steps within it leave the scores
stable, and negated scores have the opposite trend. -/
theorem determineTrend_spec (scores : List ℚ) (h : 2 ≤ scores.length) :
    ((∀ i, i + 1 < scores.length → scoreStep scores i < -(1 / 100)) →
      determineTrend scores = .improving) ∧
    ((∀ i, i + 1 < scores.length → scoreStep scores i > 1 / 100) →
      determineTrend scores = .degrading) ∧
    ((∀ i, i + 1 < scores.length → |scoreStep scores i| ≤ 1 / 100) →
      determineTrend scores = .stable) ∧
    determineTrend (scores.map (-·)) = (determineTrend scores).flip := by
  have hne : (range (scores.length - 1)).Nonempty := nonempty_range_iff.2 (by omega)
  have hr : ∀ {i}, i ∈ range (scores.length - 1) ↔ i + 1 < scores.length := by
    intro i
    rw [mem_range]
    omega
  rw [determineTrend, determineTrend, List.length_map, if_neg (not_lt.2 h), if_neg (not_lt.2 h),
    regressionSlope_neg]
  refine ⟨fun hs => ?_, fun hs => ?_, fun hs => ?_, ?_⟩
  · -- the largest step is still beyond the threshold
    obtain ⟨k, hk, hm⟩ := exists_max_image _ (scoreStep scores) hne
    rw [if_pos ((regressionSlope_le h fun i hi => hm i (hr.2 hi)).trans_lt (hs k (hr.1 hk)))]
  · obtain ⟨k, hk, hm⟩ := exists_min_image _ (scoreStep scores) hne
    have hg := (hs k (hr.1 hk)).trans_le (le_regressionSlope h fun i hi => hm i (hr.2 hi))
    rw [if_neg (by linarith), if_pos hg]
  · have hlo := le_regressionSlope h fun i hi => (abs_le.1 (hs i hi)).1
    have hhi := regressionSlope_le h fun i hi => (abs_le.1 (hs i hi)).2
    rw [if_neg (not_lt.2 hlo), if_neg (not_lt.2 hhi)]
  · split_ifs <;> first | rfl | linarith

theorem determineTrend_spec_falling : determineTrend [2, 1, 0] = .improving := by
  refine (determineTrend_spec [2, 1, 0] (by decide)).1 fun i hi => ?_
  rcases i with _ | _ | i
  · norm_num [scoreStep]
  · norm_num [scoreStep]
  · exact absurd hi (by simp)

end SimCore.Improvement
