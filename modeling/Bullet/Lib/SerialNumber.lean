import Mathlib.Data.BitVec
import Mathlib.Data.List.Chain
import Mathlib.Data.List.Pairwise

/-! # Serial numbers

Numbers of `w` bits on a ring: one is before another when the way up to the other is shorter than
the way back. Within half of the ring this is a linear order.
-/

namespace Bullet.Lib.SerialNumber

variable {w : ℕ} {a b c base : BitVec w} {l : List (BitVec w)}

/-- The way from one number up to another. -/
def ahead (a b : BitVec w) : ℕ := (b - a).toNat

def Before (a b : BitVec w) : Prop := b - a < a - b

instance (a b : BitVec w) : Decidable (Before a b) :=
  inferInstanceAs (Decidable (b - a < a - b))

/-- The number is in the half of the ring that begins at the base. -/
def InHalf (base a : BitVec w) : Prop := 2 * ahead base a < 2 ^ w

instance (base a : BitVec w) : Decidable (InHalf base a) :=
  inferInstanceAs (Decidable (_ < _))

theorem ahead_lt (a b : BitVec w) : ahead a b < 2 ^ w := (b - a).isLt

@[simp] theorem ahead_self (a : BitVec w) : ahead a a = 0 := by
  rw [ahead, sub_self]
  exact BitVec.toNat_zero

theorem ahead_eq_zero : ahead a b = 0 ↔ a = b := by
  constructor
  · intro hZero
    have hSub : b - a = 0 := BitVec.eq_of_toNat_eq (hZero.trans BitVec.toNat_zero.symm)
    exact (sub_eq_zero.mp hSub).symm
  · rintro rfl
    exact ahead_self a

theorem ahead_inj : ahead base a = ahead base b ↔ a = b := by
  constructor
  · intro hEq
    exact sub_left_injective (BitVec.eq_of_toNat_eq hEq)
  · rintro rfl
    rfl

/-- The ways up and back go once round the ring. -/
theorem ahead_add_ahead (hNe : a ≠ b) : ahead a b + ahead b a = 2 ^ w := by
  have hPos : ahead a b ≠ 0 := fun hZero => hNe (ahead_eq_zero.mp hZero)
  have hLt := ahead_lt a b
  have hNeg : ahead b a = (2 ^ w - ahead a b) % 2 ^ w := by
    rw [ahead, ahead, ← neg_sub b a, BitVec.toNat_neg]
  rw [hNeg, Nat.mod_eq_of_lt (by omega)]
  omega

theorem before_iff : Before a b ↔ a ≠ b ∧ 2 * ahead a b < 2 ^ w := by
  constructor
  · intro hBefore
    have hNe : a ≠ b := by
      rintro rfl
      exact Nat.lt_irrefl _ hBefore
    have hWays := ahead_add_ahead hNe
    have hLess : ahead a b < ahead b a := hBefore
    exact ⟨hNe, by omega⟩
  · rintro ⟨hNe, hHalf⟩
    have hWays := ahead_add_ahead hNe
    change ahead a b < ahead b a
    omega

/-- Two ways add up when they do not reach round the ring. -/
theorem ahead_add_of_lt (hLt : ahead a b + ahead b c < 2 ^ w) :
    ahead a c = ahead a b + ahead b c := by
  rw [ahead, ← sub_add_sub_cancel c b a, add_comm (c - b), BitVec.toNat_add_of_lt hLt]
  rfl

/-- In an order of the offsets from a base, the way is the difference of the offsets. -/
theorem ahead_of_le (hLe : ahead base a ≤ ahead base b) :
    ahead a b = ahead base b - ahead base a := by
  obtain rfl | hNe := eq_or_ne a b
  · rw [ahead_self, Nat.sub_self]
  · have hLt := ahead_lt base b
    rw [ahead, ← sub_sub_sub_cancel_right b a base, BitVec.toNat_sub]
    change (2 ^ w - ahead base a + ahead base b) % 2 ^ w = _
    have hTurn : 2 ^ w - ahead base a + ahead base b =
        ahead base b - ahead base a + 2 ^ w := by omega
    rw [hTurn, Nat.add_mod_right, Nat.mod_eq_of_lt (by omega)]

theorem inHalf_self (a : BitVec w) : InHalf a a := by
  rw [InHalf, ahead_self]
  exact Nat.two_pow_pos w

theorem InHalf.of_before (hBefore : Before a b) : InHalf a b := (before_iff.mp hBefore).2

/-- Within half of the ring the serial order is the order of the offsets. -/
theorem InHalf.before_iff (hA : InHalf base a) (hB : InHalf base b) :
    Before a b ↔ ahead base a < ahead base b := by
  rw [InHalf] at hA hB
  rw [SerialNumber.before_iff]
  constructor
  · rintro ⟨hNe, hHalf⟩
    have hOffsets : ahead base a ≠ ahead base b := fun hEq => hNe (ahead_inj.mp hEq)
    by_contra hNot
    have hWays := ahead_add_ahead hNe
    have hBack : ahead b a = ahead base a - ahead base b := ahead_of_le (by omega)
    omega
  · intro hLess
    have hWay := ahead_of_le hLess.le
    exact ⟨fun hEq => hLess.ne (ahead_inj.mpr hEq), by omega⟩

theorem InHalf.trans (hA : InHalf base a) (hB : InHalf base b) (hC : InHalf base c)
    (hAb : Before a b) (hBc : Before b c) : Before a c := by
  rw [hA.before_iff hB] at hAb
  rw [hB.before_iff hC] at hBc
  exact (hA.before_iff hC).mpr (hAb.trans hBc)

theorem InHalf.connex (hA : InHalf base a) (hB : InHalf base b) (hNe : a ≠ b) :
    Before a b ∨ Before b a := by
  rw [hA.before_iff hB, hB.before_iff hA]
  exact lt_or_gt_of_ne fun hEq => hNe (ahead_inj.mp hEq)

/-! ## Consecutive numbers -/

def Consecutive (l : List (BitVec w)) : Prop := l.IsChain fun a b => b = a + 1

theorem ahead_succ_self (hw : 0 < w) (a : BitVec w) : ahead a (a + 1) = 1 := by
  rw [ahead, add_sub_cancel_left]
  exact Nat.mod_eq_of_lt (Nat.one_lt_two_pow hw.ne')

theorem ahead_succ (hw : 0 < w) (hLt : ahead a b + 1 < 2 ^ w) :
    ahead a (b + 1) = ahead a b + 1 := by
  rw [ahead_add_of_lt (b := b) (by rwa [ahead_succ_self hw]), ahead_succ_self hw]

/-- One step further on, a number that is not reached yet is one step nearer. -/
theorem ahead_succ_left (hw : 0 < w) (hNe : a ≠ b) : ahead a b = ahead (a + 1) b + 1 := by
  have hPos : ahead a b ≠ 0 := fun hZero => hNe (ahead_eq_zero.mp hZero)
  have hLe : ahead a (a + 1) ≤ ahead a b := by
    rw [ahead_succ_self hw]
    omega
  rw [ahead_of_le hLe, ahead_succ_self hw]
  omega

theorem not_before_self (a : BitVec w) : ¬ Before a a := Nat.lt_irrefl _

/-- In an order, all numbers are in the half that begins at the first of them. -/
theorem inHalf_of_pairwise (hOrder : (b :: l).Pairwise Before) (hMem : a ∈ b :: l) : InHalf b a := by
  rcases List.mem_cons.mp hMem with rfl | hMem
  · exact inHalf_self a
  · exact InHalf.of_before ((List.pairwise_cons.mp hOrder).1 a hMem)

theorem ahead_le_getLast (hOrder : (b :: l).Pairwise Before) (hMem : a ∈ b :: l) :
    ahead b a ≤ ahead b ((b :: l).getLast (List.cons_ne_nil b l)) := by
  have hAhead : (b :: l).Pairwise fun c d => ahead b c ≤ ahead b d :=
    hOrder.imp_of_mem fun hC hD hBefore => (((inHalf_of_pairwise hOrder hC).before_iff
      (inHalf_of_pairwise hOrder hD)).mp hBefore).le
  exact hAhead.rel_getLast_of_rel_getLast_getLast hMem le_rfl

/-- The number after the last one is after all, when it is after the first. -/
theorem pairwise_concat (hw : 0 < w) (hChain : Consecutive (b :: l ++ [c]))
    (hOrder : (b :: l).Pairwise Before) (hFirst : Before b c) :
    (b :: l ++ [c]).Pairwise Before := by
  have hNext : c = (b :: l).getLast (List.cons_ne_nil b l) + 1 :=
    hChain.rel_getLast_head_of_append (List.cons_ne_nil b l) (List.cons_ne_nil c [])
  rw [List.pairwise_append]
  refine ⟨hOrder, List.pairwise_singleton _ _, fun a ha d hd => ?_⟩
  cases List.mem_singleton.mp hd
  have hHalf := inHalf_of_pairwise hOrder ha
  rw [hHalf.before_iff (.of_before hFirst), hNext, ahead_succ hw]
  · exact Nat.lt_succ_of_le (ahead_le_getLast hOrder ha)
  · have hLast : 2 * _ < 2 ^ w := inHalf_of_pairwise hOrder (List.getLast_mem (List.cons_ne_nil b l))
    have hTwo := Nat.one_lt_two_pow hw.ne'
    omega

/-- What is after neither the first nor the last number of an order is after none. -/
theorem not_before_of_pairwise (hOrder : (a :: l).Pairwise Before) (hFirst : ¬ Before a b)
    (hLast : ¬ Before ((a :: l).getLast (List.cons_ne_nil a l)) b) : ∀ c ∈ a :: l, ¬ Before c b := by
  intro c hMem hBefore
  have hC := inHalf_of_pairwise hOrder hMem
  have hLe := ahead_le_getLast hOrder hMem
  have hG := inHalf_of_pairwise hOrder (List.getLast_mem (List.cons_ne_nil a l))
  generalize (a :: l).getLast (List.cons_ne_nil a l) = g at *
  by_cases hB : InHalf a b
  · rw [(inHalf_self a).before_iff hB, ahead_self] at hFirst
    rw [hC.before_iff hB] at hBefore
    omega
  · rw [InHalf] at hB hC hG
    have hWayC : ahead c b = ahead a b - ahead a c := ahead_of_le (by omega)
    have hWayG : ahead g b = ahead a b - ahead a g := ahead_of_le (by omega)
    rw [SerialNumber.before_iff] at hBefore hLast
    exact hLast ⟨fun hEq => by subst hEq; omega, by omega⟩

/-- The next number compares as it is ordered, when its predecessor does. -/
theorem lt_iff_before_succ (hw : 0 < w) (hLess : a < b) (hBefore : Before a b) :
    a + 1 < b ↔ Before (a + 1) b := by
  have hOne : (1 : BitVec w).toNat = 1 := Nat.mod_eq_of_lt (Nat.one_lt_two_pow hw.ne')
  have hLt : a.toNat < b.toNat := hLess
  have hSucc : (a + 1).toNat = a.toNat + 1 := by
    have hIsLt := b.isLt
    rw [BitVec.toNat_add_of_lt (by omega), hOne]
  obtain ⟨hNe, hHalf⟩ := before_iff.mp hBefore
  rw [ahead_succ_left hw hNe] at hHalf
  rw [BitVec.lt_def, hSucc, before_iff]
  constructor
  · intro hAfter
    exact ⟨fun hEq => by rw [← hEq, hSucc] at hAfter; omega, by omega⟩
  · rintro ⟨hOther, -⟩
    have hToNat : (a + 1).toNat ≠ b.toNat := fun hEq => hOther (BitVec.eq_of_toNat_eq hEq)
    omega

/-- Consecutive numbers below a number that is not after the last of them are those before it, unless
the first compares the other way. -/
theorem dropWhile_eq_filter (hw : 0 < w) (hChain : Consecutive (a :: l))
    (hOrder : (a :: l).Pairwise Before) (hFirst : a < b ↔ Before a b)
    (hLast : ¬ Before ((a :: l).getLast (List.cons_ne_nil a l)) b) :
    (a :: l).dropWhile (· < b) = (a :: l).filter fun c => ¬ Before c b := by
  induction l generalizing a with
  | nil =>
    have hNot : ¬ Before a b := hLast
    rw [List.dropWhile_cons_of_neg (by simpa [hFirst] using hNot),
      List.filter_cons_of_pos (by simpa using hNot)]
    rfl
  | cons c l ih =>
    by_cases hBefore : Before a b
    · have hNext : c = a + 1 := (List.isChain_cons_cons.mp hChain).1
      rw [List.dropWhile_cons_of_pos (by simpa using hFirst.mpr hBefore),
        List.filter_cons_of_neg (by simpa using hBefore)]
      refine ih (List.isChain_cons_cons.mp hChain).2 (List.pairwise_cons.mp hOrder).2 ?_ hLast
      rw [hNext]
      exact lt_iff_before_succ hw (hFirst.mpr hBefore) hBefore
    · rw [List.dropWhile_cons_of_neg (by simpa [hFirst] using hBefore), eq_comm,
        List.filter_eq_self]
      intro d hd
      simpa using not_before_of_pairwise hOrder hBefore hLast d hd

/-- The numbers that are dropped are those before `b`, and some are left, exactly when the last one
is not before `b` and the first compares as it is ordered. -/
theorem dropWhile_eq_filter_iff (hw : 0 < w) (hChain : Consecutive (a :: l))
    (hOrder : (a :: l).Pairwise Before) :
    ((a :: l).dropWhile (· < b) = ((a :: l).filter fun c => ¬ Before c b) ∧
      (a :: l).dropWhile (· < b) ≠ []) ↔
      ¬ Before ((a :: l).getLast (List.cons_ne_nil a l)) b ∧ (a < b ↔ Before a b) := by
  have hMem : ∀ c, c ∈ ((a :: l).filter fun c => ¬ Before c b) ↔ c ∈ a :: l ∧ ¬ Before c b := by
    simp [List.mem_filter]
  constructor
  · rintro ⟨hEq, hSome⟩
    refine ⟨?_, ?_⟩
    · have hLast := List.getLast_mem hSome
      rw [List.IsSuffix.getLast (List.dropWhile_suffix _) hSome] at hLast
      exact ((hMem _).mp (hEq ▸ hLast)).2
    · by_cases hLess : a < b
      · have hNot : a ∉ (a :: l).dropWhile (· < b) := by
          rw [List.dropWhile_cons_of_pos (by simpa using hLess)]
          exact fun hA => not_before_self a
            ((List.pairwise_cons.mp hOrder).1 a (List.IsSuffix.mem hA (List.dropWhile_suffix _)))
        rw [hEq, hMem, not_and_not_right] at hNot
        exact iff_of_true hLess (hNot List.mem_cons_self)
      · have hA : a ∈ (a :: l).dropWhile (· < b) := by
          rw [List.dropWhile_cons_of_neg (by simpa using hLess)]
          exact List.mem_cons_self
        rw [hEq, hMem] at hA
        exact iff_of_false hLess hA.2
  · rintro ⟨hLast, hFirst⟩
    rw [dropWhile_eq_filter hw hChain hOrder hFirst hLast]
    exact ⟨rfl, List.ne_nil_of_mem ((hMem _).mpr ⟨List.getLast_mem (List.cons_ne_nil a l), hLast⟩)⟩

end Bullet.Lib.SerialNumber
