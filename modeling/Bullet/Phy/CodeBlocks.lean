import Bullet.Phy.NrEesmErrorModel
import Mathlib.Algebra.Order.Floor.Div
import Mathlib.Order.Bounds.Basic

/-! # Code blocks hold the transport block

A block and its CRCs divide into code blocks of the least lifting size, except for a block that
fills code blocks of a smaller size exactly: the search takes the next size for it.
-/

namespace Bullet.Phy

open Lib

/-- The first entry of a sorted list that passes, or the entry after its end. -/
theorem isLeast_find?_getD {α : Type*} [Preorder α] {p : α → Bool} {z : α} {l : List α}
    (hSorted : (l ++ [z]).Pairwise (· < ·)) :
    IsLeast {x | x ∈ l ++ [z] ∧ (p x ∨ x = z)} ((l.find? p).getD z) := by
  induction l with
  | nil => exact ⟨⟨List.mem_singleton_self z, .inr rfl⟩, fun x h => (List.mem_singleton.mp h.1).ge⟩
  | cons x l ih =>
    rw [List.cons_append, List.pairwise_cons] at hSorted
    obtain ⟨hFirst, hRest⟩ := hSorted
    cases hPass : p x with
    | true =>
      rw [List.find?_cons_of_pos hPass]
      refine ⟨⟨List.mem_cons_self, .inl hPass⟩, ?_⟩
      rintro y ⟨hMem, -⟩
      rcases List.mem_cons.mp hMem with rfl | hMem
      · exact le_refl y
      · exact (hFirst y hMem).le
    | false =>
      rw [List.find?_cons_of_neg (by simp [hPass])]
      obtain ⟨⟨hMem, hFound⟩, hLeast⟩ := ih hRest
      refine ⟨⟨List.mem_cons_of_mem x hMem, hFound⟩, ?_⟩
      rintro y ⟨hMem, hFits⟩
      rcases List.mem_cons.mp hMem with rfl | hMem
      · rcases hFits with hFits | rfl
        · rw [hPass] at hFits
          contradiction
        · exact absurd (hFirst y (List.mem_append_right l List.mem_cons_self)) (lt_irrefl y)
      · exact hLeast ⟨hMem, hFits⟩

namespace NrEesmErrorModel

def liftingSizes : List ℕ :=
  liftingSizeTableBG.map UInt16.toNat

def columns : GraphType → ℕ
  | .first => 22
  | .second => 10

/-- The bits of the CRC of each code block. -/
def crcBits (bgType : GraphType) (b : ℕ) : ℕ :=
  if b ≤ (kcb bgType).toNat then 0 else 24

/-- How many code blocks hold `b` bits. -/
def codeBlocks (bgType : GraphType) (b : ℕ) : ℕ :=
  if b ≤ (kcb bgType).toNat then 1 else b ⌈/⌉ ((kcb bgType).toNat - 24)

/-- The bits of a transport block with the CRCs of its code blocks. -/
def bitsWithCrc (bgType : GraphType) (b c : ℕ) : ℕ :=
  b + c * crcBits bgType b

def bitsPerBlock (bgType : GraphType) (b c : ℕ) : ℕ :=
  bitsWithCrc bgType b c ⌈/⌉ c

/-- `c` code blocks of `k` bits hold a transport block of `b` bits, with the least lifting size. -/
structure Segments (bgType : GraphType) (b : UInt32) (k c : ℕ) : Prop where
  covers : bitsWithCrc bgType b.toNat c ≤ c * bitsPerBlock bgType b.toNat c
  le_kcb : bitsPerBlock bgType b.toNat c ≤ (kcb bgType).toNat
  le_size : bitsPerBlock bgType b.toNat c ≤ k
  lifting : ∃ zc, k = zc * columns bgType ∧
    IsLeast {z | z ∈ liftingSizes ∧
      bitsPerBlock bgType b.toNat c ≤ (kb bgType b).toNat * z} zc

/-- Blocks of a lifting size below the largest have no bit to spare. -/
def FillsBlocks (bgType : GraphType) (b : UInt32) : Prop :=
  ∃ z ∈ liftingSizes, z ≠ 384 ∧
    bitsWithCrc bgType b.toNat (codeBlocks bgType b.toNat) =
      codeBlocks bgType b.toNat * ((kb bgType b).toNat * z)

/-! ## The search for the lifting size -/

/-- The offset outweighs the errors of the roundings, and is below the distance of two quotients. -/
theorem quotient_add_bounds {a k : ℕ} (ha : a < 2 ^ 32) (hk : 0 < k) :
    (a : ℚ) / k < Binary64.add (Binary64.div a k) (Binary64.div 1 1000) ∧
      Binary64.add (Binary64.div a k) (Binary64.div 1 1000) < a / k + 1 / 22 := by
  have hQuotient : (a : ℚ) / k ≤ 2 ^ 32 := by
    have hA : (a : ℚ) ≤ 2 ^ 32 := by exact_mod_cast ha.le
    have hK : (1 : ℚ) ≤ k := by exact_mod_cast hk
    exact (div_le_self (Nat.cast_nonneg a) hK).trans hA
  have hNonneg : (0 : ℚ) ≤ a / k := by positivity
  have hDiv : |Binary64.div a k - a / k| ≤ 2 ^ 32 * 2 ^ (-53 : ℤ) :=
    Binary64.abs_round_sub_le_of_le (abs_le.mpr ⟨by linarith, hQuotient⟩)
  have hOffset : |Binary64.div 1 1000 - 1 / 1000| ≤ 1 * 2 ^ (-53 : ℤ) :=
    Binary64.abs_round_sub_le_of_le (by norm_num)
  norm_num [abs_le] at hDiv hOffset
  have hSum : |Binary64.add (Binary64.div a k) (Binary64.div 1 1000) -
      (Binary64.div a k + Binary64.div 1 1000)| ≤ 2 ^ 33 * 2 ^ (-53 : ℤ) :=
    Binary64.abs_round_sub_le_of_le (abs_le.mpr ⟨by linarith, by linarith⟩)
  norm_num [abs_le] at hSum
  constructor <;> linarith

theorem quotient_lt_iff {a k z : ℕ} (ha : a < 2 ^ 32) (hk : 0 < k) (hk22 : k ≤ 22) :
    Binary64.add (Binary64.div a k) (Binary64.div 1 1000) < z ↔ a < k * z := by
  obtain ⟨hLow, hHigh⟩ := quotient_add_bounds ha hk
  have hK : (0 : ℚ) < k := by exact_mod_cast hk
  constructor
  · intro hLess
    have hCast : (a : ℚ) < z * k := (div_lt_iff₀ hK).mp (hLow.trans hLess)
    rw [mul_comm]
    exact_mod_cast hCast
  · intro hLess
    have hStep : (a : ℚ) / k + 1 / k ≤ z := by
      rw [← add_div, div_le_iff₀ hK, mul_comm]
      exact_mod_cast hLess
    have hGap : (1 : ℚ) / 22 ≤ 1 / k := by
      apply one_div_le_one_div_of_le hK
      exact_mod_cast hk22
    linarith

theorem isLeast_upperBound (x : ℚ) :
    IsLeast {z : ℕ | z ∈ liftingSizes ∧ (x < z ∨ z = 384)} (upperBound x).toNat := by
  have hTable : liftingSizes = liftingSizeTableBG.dropLast.map UInt16.toNat ++ [384] := by decide
  have hFound : (upperBound x).toNat =
      ((liftingSizeTableBG.dropLast.map UInt16.toNat).find? fun z : ℕ => x < z).getD 384 := by
    rw [List.find?_map]
    exact (Option.getD_map UInt16.toNat (liftingSizeTableBG.getLastD 0) _).symm
  rw [hTable, hFound]
  simpa only [decide_eq_true_eq] using
    isLeast_find?_getD (p := fun z : ℕ => decide (x < z)) (hTable ▸ by decide)

/-! ## The segmentation -/

theorem kb_bounds (bgType : GraphType) (b : UInt32) :
    6 ≤ (kb bgType b).toNat ∧ (kb bgType b).toNat ≤ columns bgType := by
  cases bgType with
  | first => exact (by decide : 6 ≤ 22 ∧ 22 ≤ 22)
  | second =>
    rw [kb, columns]
    repeat' split
    all_goals decide

theorem columns_le (bgType : GraphType) : columns bgType ≤ 22 := by
  cases bgType <;> decide

/-- The size of the code blocks for `c` blocks of `b1` bits in all. -/
theorem lifting_spec (bgType : GraphType) (b b1 c : UInt32) (hc : 0 < c.toNat) :
    ∃ k : UInt32, (let zc := upperBound (Binary64.add
          (Binary64.div (b1 / c).toNat (kb bgType b).toNat) (Binary64.div 1 1000))
        match bgType with
        | .first => some (zc.toUInt32 * 22, c)
        | .second => some (zc.toUInt32 * 10, c)) = some (k, c) ∧
      ∃ zc, k.toNat = zc * columns bgType ∧ IsLeast {z | z ∈ liftingSizes ∧
        (b1.toNat < c.toNat * ((kb bgType b).toNat * z) ∨ z = 384)} zc := by
  obtain ⟨hSix, hColumns⟩ := kb_bounds bgType b
  have hLeast := isLeast_upperBound (Binary64.add
    (Binary64.div (b1 / c).toNat (kb bgType b).toNat) (Binary64.div 1 1000))
  have hSearch : ∀ z : ℕ, Binary64.add
      (Binary64.div (b1 / c).toNat (kb bgType b).toNat) (Binary64.div 1 1000) < z ↔
        b1.toNat < c.toNat * ((kb bgType b).toNat * z) := by
    intro z
    rw [quotient_lt_iff (b1 / c).toNat_lt (by omega) (hColumns.trans (columns_le bgType)),
      UInt32.toNat_div, Nat.div_lt_iff_lt_mul hc, mul_comm]
  simp only [hSearch] at hLeast
  generalize upperBound _ = zc at hLeast ⊢
  have hSize := zc.toNat_lt
  cases bgType with
  | first =>
    refine ⟨_, rfl, zc.toNat, ?_, hLeast⟩
    rw [UInt32.toNat_mul, UInt16.toNat_toUInt32, columns]
    exact Nat.mod_eq_of_lt (by omega : zc.toNat * 22 < 2 ^ 32)
  | second =>
    refine ⟨_, rfl, zc.toNat, ?_, hLeast⟩
    rw [UInt32.toNat_mul, UInt16.toNat_toUInt32, columns]
    exact Nat.mod_eq_of_lt (by omega : zc.toNat * 10 < 2 ^ 32)

theorem kcb_sub_bounds (bgType : GraphType) :
    3816 ≤ (kcb bgType).toNat - 24 ∧ (kcb bgType).toNat - 24 ≤ 8424 ∧
      ((kcb bgType).toUInt32 - 24).toNat = (kcb bgType).toNat - 24 := by
  cases bgType <;> decide

theorem codeBlocks_pos (bgType : GraphType) (b : ℕ) : 0 < codeBlocks bgType b := by
  rw [codeBlocks]
  split
  · exact Nat.one_pos
  · have hBounds := kcb_sub_bounds bgType
    rw [Nat.ceilDiv_eq_add_pred_div]
    exact Nat.div_pos (by omega) (by omega)

theorem codeBlocks_le (bgType : GraphType) {b : ℕ} (hb : b < 2 ^ 32) :
    codeBlocks bgType b < 2 ^ 21 := by
  have hBounds := kcb_sub_bounds bgType
  rw [codeBlocks]
  split
  · norm_num
  · rw [Nat.ceilDiv_eq_add_pred_div]
    apply Nat.div_lt_of_lt_mul
    omega

theorem bitsWithCrc_le (bgType : GraphType) (b : ℕ) :
    bitsWithCrc bgType b (codeBlocks bgType b) ≤ codeBlocks bgType b * (kcb bgType).toNat := by
  rw [bitsWithCrc, codeBlocks, crcBits]
  split
  · omega
  · have hBounds := kcb_sub_bounds bgType
    have hCover : b ≤ ((kcb bgType).toNat - 24) * (b ⌈/⌉ ((kcb bgType).toNat - 24)) :=
      le_smul_ceilDiv (by omega : 0 < (kcb bgType).toNat - 24)
    calc
      _ ≤ ((kcb bgType).toNat - 24) * (b ⌈/⌉ ((kcb bgType).toNat - 24)) +
          (b ⌈/⌉ ((kcb bgType).toNat - 24)) * 24 := Nat.add_le_add_right hCover _
      _ = (b ⌈/⌉ ((kcb bgType).toNat - 24)) * ((kcb bgType).toNat - 24 + 24) := by ring
      _ = _ := by rw [Nat.sub_add_cancel (by omega : 24 ≤ (kcb bgType).toNat)]

theorem ceil_div_eq_ceilDiv {a m : ℕ} (ha : a < 2 ^ 32) (hm : 0 < m) :
    ⌈Binary64.div a m⌉ = (a ⌈/⌉ m : ℕ) := by
  have hM : (0 : ℚ) < m := by exact_mod_cast hm
  have hCover : a ≤ m * (a ⌈/⌉ m) := le_smul_ceilDiv hm
  have hTight : (a ⌈/⌉ m) * m < a + m := by
    have hLe := Nat.div_mul_le_self (a + m - 1) m
    rw [Nat.ceilDiv_eq_add_pred_div]
    omega
  rw [Binary64.ceil_div ha hm, Int.ceil_eq_iff, Int.cast_natCast, lt_div_iff₀ hM, div_le_iff₀ hM,
    sub_mul, one_mul, sub_lt_iff_lt_add]
  exact ⟨by exact_mod_cast hTight, by exact_mod_cast mul_comm m _ ▸ hCover⟩

theorem codeBlockSegmentation_spec (b : UInt32) (bgType : GraphType) :
    ∃ k c : UInt32, codeBlockSegmentation b bgType = some (k, c) ∧
      c.toNat = codeBlocks bgType b.toNat ∧
      ∃ zc, k.toNat = zc * columns bgType ∧ IsLeast {z | z ∈ liftingSizes ∧
        (bitsWithCrc bgType b.toNat c.toNat % 2 ^ 32 < c.toNat * ((kb bgType b).toNat * z) ∨
          z = 384)} zc := by
  have hPos := codeBlocks_pos bgType b.toNat
  have hMany := codeBlocks_le bgType b.toNat_lt
  rw [codeBlockSegmentation]
  split
  · rename_i hSmall
    have hNat : b.toNat ≤ (kcb bgType).toNat := by
      rwa [UInt32.le_iff_toNat_le, UInt16.toNat_toUInt32] at hSmall
    obtain ⟨k, hSome, hSize⟩ := lifting_spec bgType b b 1 Nat.one_pos
    refine ⟨k, 1, hSome, ?_, ?_⟩
    · rw [codeBlocks, if_pos hNat]
      rfl
    · rwa [bitsWithCrc, crcBits, if_pos hNat, mul_zero, add_zero, Nat.mod_eq_of_lt b.toNat_lt]
  · rename_i hLarge
    have hNat : ¬ b.toNat ≤ (kcb bgType).toNat := by
      rwa [UInt32.le_iff_toNat_le, UInt16.toNat_toUInt32] at hLarge
    obtain ⟨hLow, -, hSub⟩ := kcb_sub_bounds bgType
    have hCount : codeBlocks bgType b.toNat = b.toNat ⌈/⌉ ((kcb bgType).toNat - 24) := if_neg hNat
    have hCast : castUInt32 ⌈Binary64.div b.toNat ((kcb bgType).toUInt32 - 24).toNat⌉ =
        some (UInt32.ofNat (codeBlocks bgType b.toNat)) := by
      rw [hSub, ceil_div_eq_ceilDiv b.toNat_lt (by omega), ← hCount, castUInt32, if_pos (by omega),
        Int.toNat_natCast]
    have hToNat : (UInt32.ofNat (codeBlocks bgType b.toNat)).toNat = codeBlocks bgType b.toNat :=
      UInt32.toNat_ofNat_of_lt' (hMany.trans (by decide))
    simp only [hCast]
    generalize UInt32.ofNat _ = c at hToNat ⊢
    obtain ⟨k, hSome, hSize⟩ := lifting_spec bgType b (b + c * 24) c (by omega)
    refine ⟨k, c, hSome, hToNat, ?_⟩
    have hBits : (b + c * 24).toNat = bitsWithCrc bgType b.toNat c.toNat % 2 ^ 32 := by
      rw [bitsWithCrc, crcBits, if_neg hNat, UInt32.toNat_add, UInt32.toNat_mul, Nat.add_mod_mod]
      rfl
    rwa [hBits] at hSize

/-! ## When the code blocks hold the block -/

theorem bitsWithCrc_le_largest (bgType : GraphType) (b : UInt32) :
    bitsWithCrc bgType b.toNat (codeBlocks bgType b.toNat) ≤
      codeBlocks bgType b.toNat * ((kb bgType b).toNat * 384) := by
  have hKcb := bitsWithCrc_le bgType b.toNat
  cases bgType with
  | first =>
    have hKb : kb .first b = 22 := rfl
    have hSame : (kcb .first).toNat = (kb .first b).toNat * 384 := by
      rw [hKb]
      rfl
    rwa [← hSame]
  | second =>
    rcases Nat.lt_or_ge b.toNat 640 with hSmall | hLarge
    · have hOne : b.toNat ≤ (kcb .second).toNat := hSmall.le.trans (by decide)
      have hSix := (kb_bounds .second b).1
      rw [codeBlocks, bitsWithCrc, crcBits, if_pos hOne, if_pos hOne]
      omega
    · have hTen : kb .second b = 10 := if_pos hLarge
      have hSame : (kcb .second).toNat = (kb .second b).toNat * 384 := by
        rw [hTen]
        rfl
      rwa [← hSame]

/-- Of sizes up to `m`, the least that leaves room is the least that suffices, unless another one
fits exactly. -/
theorem isLeast_iff_not_exact {p : ℕ → ℕ} {sizes : List ℕ} {n m zc : ℕ}
    (hMono : ∀ ⦃x y⦄, p x < p y → x < y) (hLargest : n ≤ p m) (hSizes : ∀ z ∈ sizes, z ≤ m)
    (hRoom : IsLeast {z | z ∈ sizes ∧ (n < p z ∨ z = m)} zc) :
    IsLeast {z | z ∈ sizes ∧ n ≤ p z} zc ↔ ¬ ∃ z ∈ sizes, z ≠ m ∧ n = p z := by
  obtain ⟨⟨hMem, hFound⟩, hLower⟩ := hRoom
  constructor
  · rintro ⟨-, hLeast⟩ ⟨z, hZ, hNe, hExact⟩
    have hLe : zc ≤ z := hLeast ⟨hZ, hExact.le⟩
    rcases hFound with hMore | rfl
    · exact absurd (hMono (hExact ▸ hMore)) hLe.not_gt
    · exact hNe ((hSizes z hZ).antisymm hLe)
  · intro hNone
    refine ⟨⟨hMem, hFound.elim le_of_lt (· ▸ hLargest)⟩, ?_⟩
    rintro z ⟨hZ, hFits⟩
    apply hLower
    refine ⟨hZ, ?_⟩
    by_contra hNot
    push Not at hNot
    exact hNone ⟨z, hZ, hNot.2, hFits.antisymm hNot.1⟩

/-- A wrapped size chooses one of the smallest lifting sizes. -/
theorem le_three_of_wrapped {bgType : GraphType} {b : UInt32} {zc : ℕ}
    (hWrap : 2 ^ 32 ≤ bitsWithCrc bgType b.toNat (codeBlocks bgType b.toNat))
    (hLower : zc ∈ lowerBounds {z | z ∈ liftingSizes ∧
      (bitsWithCrc bgType b.toNat (codeBlocks bgType b.toNat) % 2 ^ 32 <
        codeBlocks bgType b.toNat * ((kb bgType b).toNat * z) ∨ z = 384)}) : zc ≤ 3 := by
  have hB := b.toNat_lt
  have hPos := codeBlocks_pos bgType b.toNat
  have hMany := codeBlocks_le bgType hB
  have hLarge : ¬ b.toNat ≤ (kcb bgType).toNat := by
    intro hSmall
    rw [bitsWithCrc, crcBits, if_pos hSmall] at hWrap
    omega
  have hKb : 8 ≤ (kb bgType b).toNat := by
    cases bgType with
    | first => exact (by decide : 8 ≤ 22)
    | second =>
      have hTen : kb .second b = 10 := if_pos (Nat.le_trans (by decide) (not_le.mp hLarge).le)
      rw [hTen]
      decide
  apply hLower
  refine ⟨by decide, .inl ?_⟩
  have hLe : bitsWithCrc bgType b.toNat (codeBlocks bgType b.toNat) ≤
      b.toNat + codeBlocks bgType b.toNat * 24 := by
    rw [bitsWithCrc, crcBits]
    split <;> omega
  calc
    _ < codeBlocks bgType b.toNat * 24 := by omega
    _ ≤ codeBlocks bgType b.toNat * ((kb bgType b).toNat * 3) := by
      apply Nat.mul_le_mul_left
      omega

theorem segments_iff (b : UInt32) (bgType : GraphType) :
    (∃ k c, codeBlockSegmentation b bgType = some (k, c) ∧ Segments bgType b k.toNat c.toNat) ↔
      bitsWithCrc bgType b.toNat (codeBlocks bgType b.toNat) < 2 ^ 32 ∧ ¬ FillsBlocks bgType b := by
  obtain ⟨k, c, hSome, hCount, zc, hSize, hRoom⟩ := codeBlockSegmentation_spec b bgType
  have hPos := codeBlocks_pos bgType b.toNat
  have hMany := codeBlocks_le bgType b.toNat_lt
  have hKb := kb_bounds bgType b
  have hBits (m : ℕ) : bitsPerBlock bgType b.toNat c.toNat ≤ m ↔
      bitsWithCrc bgType b.toNat (codeBlocks bgType b.toNat) ≤ codeBlocks bgType b.toNat * m := by
    rw [bitsPerBlock, hCount]
    exact ceilDiv_le_iff_le_mul hPos
  have hLeast (hFits : bitsWithCrc bgType b.toNat (codeBlocks bgType b.toNat) < 2 ^ 32) :
      IsLeast {z | z ∈ liftingSizes ∧ bitsPerBlock bgType b.toNat c.toNat ≤
        (kb bgType b).toNat * z} zc ↔ ¬ FillsBlocks bgType b := by
    rw [hCount, Nat.mod_eq_of_lt hFits] at hRoom
    simp only [hBits]
    exact isLeast_iff_not_exact
      (p := fun z => codeBlocks bgType b.toNat * ((kb bgType b).toNat * z))
      (fun x y hLess => Nat.lt_of_mul_lt_mul_left (Nat.lt_of_mul_lt_mul_left hLess))
      (bitsWithCrc_le_largest bgType b) (by decide) hRoom
  constructor
  · rintro ⟨k', c', hSome', hSegments⟩
    obtain ⟨rfl, rfl⟩ := Prod.mk.inj (Option.some.inj (hSome.symm.trans hSome'))
    have hFits : bitsWithCrc bgType b.toNat (codeBlocks bgType b.toNat) < 2 ^ 32 := by
      by_contra hWrap
      rw [hCount] at hRoom
      have hThree : zc ≤ 3 := le_three_of_wrapped (not_lt.mp hWrap) hRoom.2
      have hHeld := (hBits _).mp hSegments.le_size
      have hSmall : k.toNat ≤ 66 := by
        rw [hSize]
        exact Nat.mul_le_mul hThree (columns_le bgType)
      have hProduct := Nat.mul_le_mul hMany.le hSmall
      omega
    obtain ⟨zc', hSize', hLifting⟩ := hSegments.lifting
    have hSame : zc' = zc :=
      Nat.eq_of_mul_eq_mul_right (by omega : 0 < columns bgType) (hSize'.symm.trans hSize)
    exact ⟨hFits, (hLeast hFits).mp (hSame ▸ hLifting)⟩
  · rintro ⟨hFits, hNot⟩
    have hLifting := (hLeast hFits).mpr hNot
    refine ⟨k, c, hSome, ?_, ?_, ?_, zc, hSize, hLifting⟩
    · exact le_smul_ceilDiv (by omega : 0 < c.toNat)
    · exact (hBits _).mpr (bitsWithCrc_le bgType b.toNat)
    · rw [hSize, mul_comm]
      exact hLifting.1.2.trans (Nat.mul_le_mul_right zc hKb.2)

/-- A block that fills the lifting size 352 gets the size 384. -/
theorem next_size_for_exact_block :
    ¬ ∃ k c, codeBlockSegmentation 7744 .first = some (k, c) ∧
      Segments .first 7744 k.toNat c.toNat := by
  rintro ⟨k, c, hSome, hSegments⟩
  obtain ⟨k', c', hSome', hCount, zc, hSize, ⟨-, hRoom⟩, -⟩ := codeBlockSegmentation_spec 7744 .first
  obtain ⟨rfl, rfl⟩ := Prod.mk.inj (Option.some.inj (hSome.symm.trans hSome'))
  have hOne : c.toNat = 1 := hCount
  obtain ⟨zc', hSize', -, hLeast⟩ := hSegments.lifting
  have hSame : zc' = zc :=
    Nat.eq_of_mul_eq_mul_right (by decide : 0 < columns .first) (hSize'.symm.trans hSize)
  have hSmall : zc' ≤ 352 := by
    apply hLeast
    rw [hOne]
    decide
  rw [hOne] at hRoom
  have hMore : 7744 < 1 * (22 * zc) ∨ zc = 384 := hRoom
  omega

end NrEesmErrorModel
end Bullet.Phy
