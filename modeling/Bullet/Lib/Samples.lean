import Mathlib.Algebra.BigOperators.Ring.List
import Mathlib.Algebra.Order.BigOperators.Group.List
import Mathlib.Algebra.Order.Field.Basic
import Mathlib.Tactic.FieldSimp
import Mathlib.Tactic.Ring

/-! # Mean and variance of a list of samples -/

namespace Bullet.Lib.Samples

variable {K : Type*} [Field K]

def mean (l : List K) : K := l.sum / l.length

def variance (l : List K) : K := (l.map fun x => (x - mean l) ^ 2).sum / l.length

def sumSq (l : List K) : K := (l.map (· ^ 2)).sum

/-- The squared deviations from `c`. -/
theorem sum_sq_sub (c : K) (l : List K) :
    (l.map fun x => (x - c) ^ 2).sum = sumSq l - 2 * c * l.sum + l.length * c ^ 2 := by
  induction l with
  | nil => simp [sumSq]
  | cons x l ih =>
    rw [List.map_cons, List.sum_cons, ih, sumSq, sumSq, List.map_cons, List.sum_cons,
      List.sum_cons, List.length_cons, Nat.cast_succ]
    ring

/-- The sum of the squared deviations from the mean. -/
def sumSqDev (l : List K) : K := (l.map fun x => (x - mean l) ^ 2).sum

section Append

variable [CharZero K]

theorem mean_mul_length (l : List K) : mean l * l.length = l.sum := by
  cases l with
  | nil => simp
  | cons x l =>
    have hNe : ((x :: l).length : K) ≠ 0 := Nat.cast_ne_zero.mpr (Nat.succ_ne_zero _)
    rw [mean, div_mul_cancel₀ _ hNe]

theorem mean_append (l : List K) (x : K) :
    mean (l ++ [x]) = mean l + (x - mean l) / (l.length + 1) := by
  have hNe : (l.length : K) + 1 ≠ 0 := Nat.cast_add_one_ne_zero l.length
  have hSum := mean_mul_length (l ++ [x])
  rw [List.sum_append, List.sum_singleton, ← mean_mul_length l, List.length_append,
    List.length_singleton, Nat.cast_succ] at hSum
  field_simp
  rw [hSum]
  ring

theorem sumSqDev_eq (l : List K) : sumSqDev l = sumSq l - l.length * mean l ^ 2 := by
  rw [sumSqDev, sum_sq_sub, ← mean_mul_length l]
  ring

/-- The deviations from the old and from the new mean update the sum of the squares. -/
theorem sumSqDev_append (l : List K) (x : K) :
    sumSqDev (l ++ [x]) = sumSqDev l + (x - mean l) * (x - mean (l ++ [x])) := by
  have hNe : (l.length : K) + 1 ≠ 0 := Nat.cast_add_one_ne_zero l.length
  rw [sumSqDev_eq, sumSqDev_eq, mean_append, sumSq, sumSq, List.map_append, List.sum_append,
    List.map_singleton, List.sum_singleton, List.length_append, List.length_singleton,
    Nat.cast_succ]
  field_simp
  ring

end Append

theorem moments_of_eq_zero {l : List K} (h : ∀ x ∈ l, x = 0) : mean l = 0 ∧ variance l = 0 := by
  have hEq : l = .replicate l.length 0 := List.eq_replicate_iff.mpr ⟨rfl, h⟩
  have hMean : mean l = 0 := by
    rw [mean, hEq, List.sum_replicate, nsmul_zero, zero_div]
  refine ⟨hMean, ?_⟩
  rw [variance, hMean, hEq, List.map_replicate, List.sum_replicate]
  simp

variable [LinearOrder K] [IsStrictOrderedRing K] {l m : List K}

theorem cast_length_ne_zero (h : l ≠ []) : (l.length : K) ≠ 0 :=
  Nat.cast_ne_zero.mpr fun hNil => h (List.length_eq_zero_iff.mp hNil)

theorem variance_eq (h : l ≠ []) : variance l = sumSq l / l.length - mean l ^ 2 := by
  have hLength := cast_length_ne_zero h
  rw [variance, sum_sq_sub, mean]
  field_simp
  ring

/-- Samples with mean and variance zero are zero. -/
theorem eq_zero_of_moments (hMean : mean l = 0) (hVariance : variance l = 0) :
    ∀ x ∈ l, x = 0 := by
  intro x hx
  have hNe : l ≠ [] := List.ne_nil_of_mem hx
  rw [variance, hMean, div_eq_zero_iff, or_iff_left (cast_length_ne_zero hNe)] at hVariance
  have hSq := List.all_zero_of_le_zero_le_of_sum_eq_zero (fun y hy => by
    obtain ⟨z, -, rfl⟩ := List.mem_map.mp hy
    exact sq_nonneg _) hVariance (List.mem_map_of_mem hx)
  rwa [sub_zero, sq_eq_zero_iff] at hSq

/-- Two lists agree in mean and variance when their sums and sums of squares are in proportion. -/
theorem same_moments_iff (hl : l ≠ []) (hm : m ≠ []) :
    mean l = mean m ∧ variance l = variance m ↔
      m.length * l.sum = l.length * m.sum ∧ m.length * sumSq l = l.length * sumSq m := by
  have hL := cast_length_ne_zero hl
  have hM := cast_length_ne_zero hm
  have hMean : mean l = mean m ↔ m.length * l.sum = l.length * m.sum := by
    rw [mean, mean, div_eq_div_iff hL hM, mul_comm l.sum, mul_comm m.sum]
  rw [hMean]
  apply and_congr_right
  intro hSum
  rw [variance_eq hl, variance_eq hm, hMean.mpr hSum, sub_left_inj, div_eq_div_iff hL hM,
    mul_comm (sumSq l), mul_comm (sumSq m)]

end Bullet.Lib.Samples
