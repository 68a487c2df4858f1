import Mathlib.Algebra.Order.Floor.Ring
import Mathlib.Data.Int.Log
import Mathlib.Data.Rat.Floor
import Mathlib.Tactic.Linarith
import Mathlib.Tactic.Ring

/-! # Rounding to binary64

The double nearest to a rational number, ties to the even one, and the arithmetic that rounds each
result to it. The exponent is unbounded here: neither overflow nor subnormal numbers are modelled.
A result differs from the exact one by at most 2^-53 of it.
-/

namespace Bullet.Lib.Binary64

/-- The nearest integer, ties to even. -/
def roundHalfEven (x : ℚ) : ℤ :=
  if x - ⌊x⌋ < 1 / 2 then ⌊x⌋
  else if 1 / 2 < x - ⌊x⌋ then ⌊x⌋ + 1
  else if ⌊x⌋ % 2 = 0 then ⌊x⌋ else ⌊x⌋ + 1

/-- The distance of neighbouring doubles at `x`. -/
def ulp (x : ℚ) : ℚ :=
  2 ^ (Int.log 2 |x| - 52)

def round (x : ℚ) : ℚ :=
  roundHalfEven (x / ulp x) * ulp x

def add (x y : ℚ) : ℚ := round (x + y)
def mul (x y : ℚ) : ℚ := round (x * y)
def div (x y : ℚ) : ℚ := round (x / y)

/-- The conversion to an integer, toward zero. -/
def truncate (x : ℚ) : ℤ :=
  if x < 0 then ⌈x⌉ else ⌊x⌋

theorem abs_roundHalfEven_sub_le (x : ℚ) : |(roundHalfEven x : ℚ) - x| ≤ 1 / 2 := by
  have hLow := Int.floor_le x
  have hHigh := Int.lt_floor_add_one x
  rw [abs_le, roundHalfEven]
  split
  · constructor <;> linarith
  split
  · push_cast
    constructor <;> linarith
  split
  · constructor <;> linarith
  · push_cast
    constructor <;> linarith

theorem ulp_pos (x : ℚ) : 0 < ulp x :=
  zpow_pos (by decide) _

theorem ulp_le {x : ℚ} (hx : x ≠ 0) : ulp x ≤ |x| * 2 ^ (-52 : ℤ) := by
  have hLog : (2 : ℚ) ^ Int.log 2 |x| ≤ |x| := Int.zpow_log_le_self (by decide) (abs_pos.mpr hx)
  rw [ulp, sub_eq_add_neg, zpow_add₀ (by decide)]
  exact mul_le_mul_of_nonneg_right hLog (zpow_pos (by decide) _).le

theorem round_zero : round 0 = 0 := by
  simp [round, roundHalfEven]

/-- The relative error of a rounding. -/
theorem abs_round_sub_le (x : ℚ) : |round x - x| ≤ |x| * 2 ^ (-53 : ℤ) := by
  rcases eq_or_ne x 0 with rfl | hx
  · simp [round_zero]
  have hUlp := ulp_pos x
  have hScale : round x - x = ((roundHalfEven (x / ulp x) : ℚ) - x / ulp x) * ulp x := by
    rw [round, sub_mul, div_mul_cancel₀ x hUlp.ne']
  calc
    |round x - x| = |(roundHalfEven (x / ulp x) : ℚ) - x / ulp x| * ulp x := by
      rw [hScale, abs_mul, abs_of_pos hUlp]
    _ ≤ 1 / 2 * ulp x :=
      mul_le_mul_of_nonneg_right (abs_roundHalfEven_sub_le _) hUlp.le
    _ ≤ 1 / 2 * (|x| * 2 ^ (-52 : ℤ)) := mul_le_mul_of_nonneg_left (ulp_le hx) (by norm_num)
    _ = |x| * 2 ^ (-53 : ℤ) := by norm_num; ring

/-- Below `b` a rounding moves a number by at most `2 ^ -53` of `b`. -/
theorem abs_round_sub_le_of_le {x b : ℚ} (h : |x| ≤ b) : |round x - x| ≤ b * 2 ^ (-53 : ℤ) :=
  (abs_round_sub_le x).trans (mul_le_mul_of_nonneg_right h (zpow_pos (by decide) _).le)

theorem roundHalfEven_eq {x : ℚ} {n : ℤ} (h : |x - n| < 1 / 2) : roundHalfEven x = n := by
  obtain ⟨hLow, hHigh⟩ := abs_lt.mp h
  rcases le_or_gt (n : ℚ) x with hUp | hDown
  · have hFloor : ⌊x⌋ = n := Int.floor_eq_iff.mpr ⟨hUp, by linarith⟩
    rw [roundHalfEven, hFloor, if_pos hHigh]
  · have hFloor : ⌊x⌋ = n - 1 := by
      apply Int.floor_eq_iff.mpr
      push_cast
      constructor <;> linarith
    have hLarge : 1 / 2 < x - ⌊x⌋ := by
      rw [hFloor]
      push_cast
      linarith
    rw [roundHalfEven, if_neg hLarge.not_gt, if_pos hLarge, hFloor, sub_add_cancel]

/-- The rounding of a positive number whose exponent is known. -/
theorem round_eq {x : ℚ} {e n : ℤ} (hLow : 2 ^ (e + 52) ≤ x) (hHigh : x < 2 ^ (e + 53))
    (hNear : |x / 2 ^ e - n| < 1 / 2) : round x = n * 2 ^ e := by
  have hPos : 0 < x := (zpow_pos (by decide) _).trans_le hLow
  have hLog : Int.log 2 x = e + 52 := by
    apply le_antisymm
    · rw [← Int.lt_add_one_iff]
      apply (Int.lt_zpow_iff_log_lt (by decide) hPos).mp
      exact_mod_cast (by rwa [add_assoc] : x < 2 ^ (e + 52 + 1))
    · apply (Int.zpow_le_iff_le_log (by decide) hPos).mp
      exact_mod_cast hLow
  have hUlp : ulp x = 2 ^ e := by rw [ulp, abs_of_pos hPos, hLog, add_sub_cancel_right]
  rw [round, hUlp, roundHalfEven_eq hNear]

/-- An integer of 53 bits is a double. -/
theorem round_natCast {n : ℕ} (h : n < 2 ^ 53) : round (n : ℚ) = n := by
  rcases Nat.eq_zero_or_pos n with rfl | hPos
  · exact_mod_cast round_zero
  have hLog : Int.log 2 (n : ℚ) = (Nat.log 2 n : ℤ) := Int.log_natCast 2 n
  have hSmall : Nat.log 2 n ≤ 52 :=
    Nat.lt_succ_iff.mp ((Nat.log_lt_iff_lt_pow (by decide) hPos.ne').mpr h)
  have hUlp : ulp (n : ℚ) = (2 ^ (52 - Nat.log 2 n))⁻¹ := by
    rw [ulp, Nat.abs_cast, hLog, ← zpow_natCast, ← zpow_neg]
    congr 1
    omega
  have hScaled : (n : ℚ) / ulp n = ((n * 2 ^ (52 - Nat.log 2 n) : ℕ) : ℤ) := by
    rw [hUlp, div_inv_eq_mul]
    push_cast
    rfl
  have hExact : roundHalfEven ((n : ℚ) / ulp n) = ((n * 2 ^ (52 - Nat.log 2 n) : ℕ) : ℤ) :=
    roundHalfEven_eq (by rw [hScaled, sub_self, abs_zero]; norm_num)
  rw [round, hExact, ← hScaled, div_mul_cancel₀ _ (ulp_pos _).ne']

theorem half_le_round {x : ℚ} (h : 0 ≤ x) : x / 2 ≤ round x := by
  have hError := abs_le.mp (abs_round_sub_le x)
  rw [abs_of_nonneg h] at hError
  norm_num at hError
  linarith

theorem round_le_half {x : ℚ} (h : x ≤ 0) : round x ≤ x / 2 := by
  have hError := abs_le.mp (abs_round_sub_le x)
  rw [abs_of_nonpos h] at hError
  norm_num at hError
  linarith

/-- A quotient of integers that is not one itself lies at least `1 / b` away from the integers, and
the rounding moves it by less. -/
theorem abs_div_sub_lt {a b : ℕ} (ha : a < 2 ^ 32) (hb : 0 < b) :
    |div (a : ℚ) b - a / b| < 1 / b := by
  have hB : (0 : ℚ) < b := by exact_mod_cast hb
  have hA : (a : ℚ) < 2 ^ 32 := by exact_mod_cast ha
  have hBound : |(a : ℚ) / b| ≤ 2 ^ 32 / b := by
    rw [abs_of_nonneg (by positivity)]
    exact div_le_div_of_nonneg_right hA.le hB.le
  calc
    |div (a : ℚ) b - a / b| ≤ 2 ^ 32 / b * 2 ^ (-53 : ℤ) := abs_round_sub_le_of_le hBound
    _ = 2 ^ (-21 : ℤ) * (1 / b) := by
      norm_num
      ring
    _ < 1 * (1 / b) := mul_lt_mul_of_pos_right (by norm_num) (by positivity)
    _ = 1 / b := one_mul _

/-- An exact quotient of 32-bit integers is not rounded. -/
theorem div_eq_of_mul {a b c : ℕ} (ha : a < 2 ^ 32) (hb : 0 < b) (hExact : a = c * b) :
    div (a : ℚ) b = c := by
  have hC : c < 2 ^ 53 := by
    have hLe : c ≤ a := by
      rw [hExact]
      exact Nat.le_mul_of_pos_right c hb
    omega
  have hB : (b : ℚ) ≠ 0 := by exact_mod_cast hb.ne'
  rw [div, hExact, Nat.cast_mul, mul_div_cancel_right₀ _ hB, round_natCast hC]

theorem floor_div {a b : ℕ} (ha : a < 2 ^ 32) (hb : 0 < b) :
    ⌊div (a : ℚ) b⌋ = ((a / b : ℕ) : ℤ) := by
  have hB : (0 : ℚ) < b := by exact_mod_cast hb
  have hSplit : a / b * b + a % b = a := Nat.div_add_mod' a b
  have hRem : a % b < b := Nat.mod_lt a hb
  rcases Nat.eq_zero_or_pos (a % b) with hZero | hPos
  · rw [div_eq_of_mul ha hb (c := a / b) (by omega)]
    exact Int.floor_natCast _
  · have hUp : ((a / b : ℕ) : ℚ) + 1 / b ≤ (a : ℚ) / b := by
      rw [le_div_iff₀ hB, add_mul, one_div_mul_cancel hB.ne']
      exact_mod_cast (by omega : a / b * b + 1 ≤ a)
    have hDown : (a : ℚ) / b + 1 / b ≤ ((a / b : ℕ) : ℚ) + 1 := by
      rw [← add_div, div_le_iff₀ hB, add_mul, one_mul]
      exact_mod_cast (by omega : a + 1 ≤ a / b * b + b)
    obtain ⟨hLow, hHigh⟩ := abs_lt.mp (abs_div_sub_lt ha hb)
    rw [Int.floor_eq_iff, Int.cast_natCast]
    constructor <;> linarith

/-- A quotient of integers lies so far from the next integer that rounding does not move it there. -/
theorem ceil_div {a b : ℕ} (ha : a < 2 ^ 32) (hb : 0 < b) :
    ⌈div (a : ℚ) b⌉ = ⌈(a : ℚ) / b⌉ := by
  have hB : (0 : ℚ) < b := by exact_mod_cast hb
  obtain ⟨c, hC⟩ : ∃ c : ℕ, ⌈(a : ℚ) / b⌉ = c :=
    Int.eq_ofNat_of_zero_le (Int.ceil_nonneg (by positivity))
  obtain ⟨hBelow, hAbove⟩ := Int.ceil_eq_iff.mp hC
  rw [hC]
  rcases hAbove.eq_or_lt with hExact | hLess
  · have hMul : a = c * b := by
      have hCast : (a : ℚ) = c * b := (div_eq_iff hB.ne').mp (by exact_mod_cast hExact)
      exact_mod_cast hCast
    rw [div_eq_of_mul ha hb hMul]
    exact Int.ceil_natCast c
  · have hUp : (a : ℚ) / b + 1 / b ≤ c := by
      have hLt : (a : ℚ) < c * b := (div_lt_iff₀ hB).mp (by exact_mod_cast hLess)
      have hInt : a + 1 ≤ c * b := by exact_mod_cast hLt
      rw [← add_div, div_le_iff₀ hB]
      exact_mod_cast hInt
    have hDown : (c : ℚ) - 1 + 1 / b ≤ (a : ℚ) / b := by
      have hLt : ((c : ℚ) - 1) * b < a := (lt_div_iff₀ hB).mp (by exact_mod_cast hBelow)
      have hInt : c * b + 1 ≤ a + b := by
        have hCast : ((c * b : ℕ) : ℚ) < ((a + b : ℕ) : ℚ) := by
          push_cast
          linarith
        exact_mod_cast hCast
      have hCast : ((c * b + 1 : ℕ) : ℚ) ≤ ((a + b : ℕ) : ℚ) := by exact_mod_cast hInt
      push_cast at hCast
      rw [le_div_iff₀ hB, add_mul, div_mul_cancel₀ _ hB.ne']
      linarith
    obtain ⟨hLow, hHigh⟩ := abs_lt.mp (abs_div_sub_lt ha hb)
    rw [Int.ceil_eq_iff, Int.cast_natCast]
    constructor <;> linarith

theorem truncate_eq_of_le {x : ℚ} {n : ℕ} (hLow : (n : ℚ) ≤ x) (hHigh : x < n + 1) :
    truncate x = n := by
  have hNonneg : ¬ x < 0 := not_lt.mpr ((Nat.cast_nonneg n).trans hLow)
  rw [truncate, if_neg hNonneg, Int.floor_eq_iff]
  exact ⟨by exact_mod_cast hLow, by exact_mod_cast hHigh⟩

end Bullet.Lib.Binary64
