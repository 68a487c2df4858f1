import Mathlib.Algebra.Field.Basic
import Mathlib.Algebra.BigOperators.Group.List.Basic
import Mathlib.Data.Nat.Cast.Basic
import Mathlib.Algebra.CharZero.Defs
import Bullet.Lib.Samples

/-! # Running means

The mean of a list is kept up to date from its length and one value more; the list is newest first.
-/

namespace Bullet.Lib.RunningMean

variable {K : Type*} [Field K] [CharZero K] {x y : K} {l : List K}

def mean {K : Type*} [Field K] (l : List K) : K := l.sum / l.length

omit [CharZero K] in
@[simp] theorem mean_nil : mean ([] : List K) = 0 := by
  rw [mean, List.sum_nil, zero_div]

theorem mean_mul_length (l : List K) : mean l * l.length = l.sum :=
  Samples.mean_mul_length l

theorem mean_cons (x : K) (l : List K) : mean (x :: l) = (mean l * l.length + x) / (l.length + 1) := by
  rw [mean_mul_length, mean, List.sum_cons, List.length_cons, Nat.cast_succ, add_comm x]

/-- The mean tells which value has entered. -/
theorem mean_cons_eq_iff : mean (x :: l) = (mean l * l.length + y) / (l.length + 1) ↔ x = y := by
  have hNe : (l.length : K) + 1 ≠ 0 := Nat.cast_add_one_ne_zero l.length
  rw [mean_cons, div_left_inj' hNe, add_right_inj]

end Bullet.Lib.RunningMean
