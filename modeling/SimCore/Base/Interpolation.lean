import Mathlib.Algebra.Order.Floor.Ring
import Mathlib.Data.Int.ConditionallyCompleteOrder
import Mathlib.Tactic.Linarith

/-!
# Interpolation

Values that are given at whole positions, and are interpolated between them.

## Main definitions

* `between`: the value at a position between two whole ones

## Main results

* `monotone_between`: interpolation is monotone
-/

namespace SimCore

variable {K : Type} [Field K] [LinearOrder K] [IsStrictOrderedRing K] [FloorRing K] {v : Int → K}

/-- The value at a position between two whole ones. -/
def between (v : Int → K) (x : K) : K :=
  v ⌊x⌋ * (1 - Int.fract x) + v (⌊x⌋ + 1) * Int.fract x

theorem between_intCast (v : Int → K) (n : Int) : between v n = v n := by
  simp [between]

section

variable (hv : Monotone v) (x : K)
include hv

theorem le_between : v ⌊x⌋ ≤ between v x := by
  have hstep : v ⌊x⌋ ≤ v (⌊x⌋ + 1) := hv (by omega)
  have hfr := mul_le_mul_of_nonneg_right hstep (Int.fract_nonneg x)
  rw [between]
  linarith

theorem between_le : between v x ≤ v (⌊x⌋ + 1) := by
  have hstep : v ⌊x⌋ ≤ v (⌊x⌋ + 1) := hv (by omega)
  have hfr := mul_le_mul_of_nonneg_right hstep (sub_nonneg.2 (Int.fract_lt_one x).le)
  rw [between]
  linarith

end

theorem monotone_between (hv : Monotone v) : Monotone (between v) := by
  intro x y hxy
  rcases (Int.floor_le_floor hxy).eq_or_lt with heq | hlt
  · -- both positions are on one line
    have hfr : Int.fract x ≤ Int.fract y := by
      rw [Int.fract, Int.fract, heq]
      linarith
    have hstep : v ⌊y⌋ ≤ v (⌊y⌋ + 1) := hv (by omega)
    have hm := mul_le_mul_of_nonneg_left hfr (sub_nonneg.2 hstep)
    rw [between, between, heq]
    linarith
  · calc between v x ≤ v (⌊x⌋ + 1) := between_le hv x
      _ ≤ v ⌊y⌋ := hv hlt
      _ ≤ between v y := le_between hv y

end SimCore
