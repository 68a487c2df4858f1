import Mathlib.Algebra.BigOperators.Group.List.Basic
import Mathlib.Algebra.Order.BigOperators.Group.List
import Mathlib.Algebra.Order.Field.Basic
import Mathlib.Tactic.FieldSimp
import Mathlib.Tactic.Linarith
import Mathlib.Tactic.Positivity
import Mathlib.Tactic.Ring

/-! # Least squares

The line through the points of a list whose squared residuals have the smallest sum: its slope, from
the moments about the means.
-/

namespace Bullet.Lib.LeastSquares

variable {K : Type*} [Field K]

def xMean (points : List (K × K)) : K := (points.map Prod.fst).sum / points.length

def yMean (points : List (K × K)) : K := (points.map Prod.snd).sum / points.length

/-- The sum of the squared distances of the abscissas from `x`. -/
def spread (x : K) (points : List (K × K)) : K := (points.map fun p => (p.1 - x) ^ 2).sum

def coSpread (x y : K) (points : List (K × K)) : K :=
  (points.map fun p => (p.1 - x) * (p.2 - y)).sum

/-- The sum of the squared residuals of the line with a slope and an ordinate at zero. -/
def residual (slope ordinate : K) (points : List (K × K)) : K :=
  (points.map fun p => (p.2 - (slope * p.1 + ordinate)) ^ 2).sum

variable {points : List (K × K)} {x y slope ordinate : K}

@[simp] theorem spread_cons (x : K) (p : K × K) (points : List (K × K)) :
    spread x (p :: points) = (p.1 - x) ^ 2 + spread x points := List.sum_cons

@[simp] theorem coSpread_cons (x y : K) (p : K × K) (points : List (K × K)) :
    coSpread x y (p :: points) = (p.1 - x) * (p.2 - y) + coSpread x y points := List.sum_cons

@[simp] theorem residual_cons (slope ordinate : K) (p : K × K) (points : List (K × K)) :
    residual slope ordinate (p :: points) =
      (p.2 - (slope * p.1 + ordinate)) ^ 2 + residual slope ordinate points := List.sum_cons

/-- The residuals about any centre; at the means the last line vanishes. -/
theorem residual_about (x y slope ordinate : K) (points : List (K × K)) :
    residual slope ordinate points =
      (points.map fun p => (p.2 - y) ^ 2).sum - 2 * slope * coSpread x y points +
        slope ^ 2 * spread x points + points.length * (y - slope * x - ordinate) ^ 2 +
        2 * (y - slope * x - ordinate) *
          ((points.map fun p => p.2 - y).sum - slope * (points.map fun p => p.1 - x).sum) := by
  induction points with
  | nil => simp [residual, coSpread, spread]
  | cons p points ih =>
    simp only [residual_cons, coSpread_cons, spread_cons, List.map_cons, List.sum_cons,
      List.length_cons, Nat.cast_add, Nat.cast_one, ih]
    ring

theorem sum_sub (f : K × K → K) (c : K) (points : List (K × K)) :
    (points.map fun p => f p - c).sum = (points.map f).sum - points.length * c := by
  induction points with
  | nil => simp
  | cons p points ih =>
    simp only [List.map_cons, List.sum_cons, List.length_cons, Nat.cast_add, Nat.cast_one, ih]
    ring

variable [LinearOrder K] [IsStrictOrderedRing K]

theorem length_ne_zero (hSome : points ≠ []) : (points.length : K) ≠ 0 :=
  Nat.cast_ne_zero.mpr (List.length_pos_iff.mpr hSome).ne'

theorem sum_sub_xMean (hSome : points ≠ []) :
    (points.map fun p => p.1 - xMean points).sum = 0 := by
  rw [sum_sub Prod.fst, xMean, mul_div_cancel₀ _ (length_ne_zero hSome), sub_self]

theorem sum_sub_yMean (hSome : points ≠ []) :
    (points.map fun p => p.2 - yMean points).sum = 0 := by
  rw [sum_sub Prod.snd, yMean, mul_div_cancel₀ _ (length_ne_zero hSome), sub_self]

theorem spread_nonneg (x : K) (points : List (K × K)) : 0 ≤ spread x points := by
  induction points with
  | nil => exact le_refl 0
  | cons p points ih =>
    rw [spread_cons]
    positivity

theorem spread_eq_zero_iff : spread x points = 0 ↔ ∀ p ∈ points, p.1 = x := by
  induction points with
  | nil => simp [spread]
  | cons p points ih =>
    rw [spread_cons, add_eq_zero_iff_of_nonneg (sq_nonneg _) (spread_nonneg x points), ih,
      sq_eq_zero_iff, sub_eq_zero, List.forall_mem_cons]

/-- The slope from the moments about the means. -/
def slopeOf (points : List (K × K)) : K :=
  coSpread (xMean points) (yMean points) points / spread (xMean points) points

/-- The residuals of a line are those of the line through the means with the slope from the moments,
and two squares more. -/
theorem residual_eq (hSpread : spread (xMean points) points ≠ 0) (slope ordinate : K) :
    residual slope ordinate points =
      residual (slopeOf points) (yMean points - slopeOf points * xMean points) points +
        spread (xMean points) points * (slope - slopeOf points) ^ 2 +
        points.length * (yMean points - slope * xMean points - ordinate) ^ 2 := by
  have hSome : points ≠ [] := by
    rintro rfl
    exact hSpread rfl
  have hSlope : coSpread (xMean points) (yMean points) points =
      slopeOf points * spread (xMean points) points := (div_mul_cancel₀ _ hSpread).symm
  rw [residual_about (xMean points) (yMean points) slope ordinate,
    residual_about (xMean points) (yMean points) (slopeOf points), sum_sub_xMean hSome,
    sum_sub_yMean hSome, hSlope]
  ring

/-- A slope is the best one when some line with it has the smallest sum of squared residuals. -/
def IsLeast (slope : K) (points : List (K × K)) : Prop :=
  ∃ ordinate, ∀ slope' ordinate', residual slope ordinate points ≤ residual slope' ordinate' points

theorem isLeast_slopeOf (hSpread : spread (xMean points) points ≠ 0) :
    IsLeast (slopeOf points) points := by
  refine ⟨yMean points - slopeOf points * xMean points, fun slope' ordinate' => ?_⟩
  have hSpreadPos := spread_nonneg (xMean points) points
  rw [residual_eq hSpread slope' ordinate', add_assoc]
  exact le_add_of_nonneg_right (by positivity)

/-- There is no other best slope. -/
theorem eq_slopeOf_of_isLeast (hSpread : spread (xMean points) points ≠ 0)
    (h : IsLeast slope points) : slope = slopeOf points := by
  obtain ⟨ordinate, hLeast⟩ := h
  have hBest := hLeast (slopeOf points) (yMean points - slopeOf points * xMean points)
  have hPos : 0 < spread (xMean points) points :=
    lt_of_le_of_ne (spread_nonneg _ _) (Ne.symm hSpread)
  rw [residual_eq hSpread slope ordinate] at hBest
  have hSquare : 0 ≤ (points.length : K) * (yMean points - slope * xMean points - ordinate) ^ 2 := by
    positivity
  have hZero : spread (xMean points) points * (slope - slopeOf points) ^ 2 ≤ 0 := by linarith
  have hFactor : (slope - slopeOf points) ^ 2 = 0 :=
    le_antisymm (nonpos_of_mul_nonpos_right hZero hPos) (sq_nonneg _)
  exact sub_eq_zero.mp (sq_eq_zero_iff.mp hFactor)

end Bullet.Lib.LeastSquares
