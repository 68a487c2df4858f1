import Mathlib.Algebra.Order.Group.Nat
import Mathlib.Algebra.Group.Defs
import Mathlib.Data.List.Basic

/-! # Taking the next free positions of a mask

A mask marks its free positions with 1. `takeOnes` keeps the first `n` free positions from a start
on and clears the rest of the mask.
-/

namespace Bullet.Lib.Bitmask

variable {α : Type*} [DecidableEq α] [Zero α] [One α]

/-- The mask from position `i` on: the kept mask, how many positions are still missing, and the
last position taken (`last` if there is none). -/
def takeOnes (start : ℕ) : ℕ → List α → ℕ → ℕ → List α × ℕ × ℕ
  | _, [], n, last => ([], n, last)
  | i, b :: l, n, last =>
    if start ≤ i ∧ 0 < n ∧ b = 1 then
      let r := takeOnes start (i + 1) l (n - 1) i
      (b :: r.1, r.2)
    else
      let r := takeOnes start (i + 1) l n last
      (0 :: r.1, r.2)

/-- The free positions at `start` or later in a mask that begins at position `i`. -/
def onesFrom (start : ℕ) : ℕ → List α → ℕ
  | _, [] => 0
  | i, b :: l => (if start ≤ i ∧ b = 1 then 1 else 0) + onesFrom start (i + 1) l

variable {start i n : ℕ} {l : List α} {b : α}

theorem takeOnes_of_take {last : ℕ} (h : start ≤ i ∧ 0 < n ∧ b = 1) :
    takeOnes start i (b :: l) n last =
      (b :: (takeOnes start (i + 1) l (n - 1) i).1, (takeOnes start (i + 1) l (n - 1) i).2) :=
  if_pos h

theorem takeOnes_of_skip {last : ℕ} (h : ¬ (start ≤ i ∧ 0 < n ∧ b = 1)) :
    takeOnes start i (b :: l) n last =
      (0 :: (takeOnes start (i + 1) l n last).1, (takeOnes start (i + 1) l n last).2) :=
  if_neg h

theorem length_takeOnes {last : ℕ} : (takeOnes start i l n last).1.length = l.length := by
  induction l generalizing i n last with
  | nil => rfl
  | cons b l ih =>
    rcases Decidable.em (start ≤ i ∧ 0 < n ∧ b = 1) with hTake | hSkip
    · rw [takeOnes_of_take hTake]
      exact congrArg Nat.succ ih
    · rw [takeOnes_of_skip hSkip]
      exact congrArg Nat.succ ih

/-- Without demand nothing is taken. -/
theorem takeOnes_zero {last : ℕ} : takeOnes start i l 0 last = (List.replicate l.length 0, 0, last) := by
  induction l generalizing i with
  | nil => rfl
  | cons b l ih =>
    rw [takeOnes_of_skip fun h => Nat.lt_irrefl 0 h.2.1, ih]
    rfl

/-- The kept mask has a 1 for each position taken. -/
theorem count_takeOnes (last : ℕ) (hNe : (1 : α) ≠ 0) :
    (takeOnes start i l n last).1.count 1 + (takeOnes start i l n last).2.1 = n := by
  induction l generalizing i n last with
  | nil => exact Nat.zero_add n
  | cons b l ih =>
    rcases Decidable.em (start ≤ i ∧ 0 < n ∧ b = 1) with hTake | hSkip
    · have hRest := ih i (i := i + 1) (n := n - 1)
      rw [takeOnes_of_take hTake, hTake.2.2, List.count_cons_self]
      dsimp only
      omega
    · rw [takeOnes_of_skip hSkip, List.count_cons_of_ne hNe.symm]
      exact ih last

section Free

omit [Zero α]

theorem onesFrom_of_le (h : start ≤ i) : onesFrom start i l = l.count 1 := by
  induction l generalizing i with
  | nil => rfl
  | cons b l ih =>
    rw [onesFrom, ih (h.trans (Nat.le_succ i)), List.count_cons, Nat.add_comm]
    congr 1
    simp [h]

theorem onesFrom_cons_of_free (h : start ≤ i ∧ b = 1) :
    onesFrom start i (b :: l) = onesFrom start (i + 1) l + 1 := by
  rw [onesFrom, if_pos h, Nat.add_comm]

theorem onesFrom_cons_of_not (h : ¬ (start ≤ i ∧ b = 1)) :
    onesFrom start i (b :: l) = onesFrom start (i + 1) l := by
  rw [onesFrom, if_neg h, Nat.zero_add]

theorem onesFrom_le_length : onesFrom start i l ≤ l.length := by
  induction l generalizing i with
  | nil => exact Nat.le_refl 0
  | cons b l ih =>
    have hRest := ih (i := i + 1)
    rw [onesFrom, List.length_cons]
    split <;> omega

/-- The start lies inside the mask when a position behind it is free. -/
theorem start_lt_of_onesFrom_pos (h : 0 < onesFrom start i l) : start < i + l.length := by
  induction l generalizing i with
  | nil => cases h
  | cons b l ih =>
    rw [List.length_cons]
    rcases Decidable.em (start ≤ i ∧ b = 1) with hOne | hNone
    · omega
    · rw [onesFrom_cons_of_not hNone] at h
      have hLt := ih h
      omega

end Free

/-- A demand that the free positions cover is met, and the positions behind the last one taken are
those that were free and are not taken. -/
theorem takeOnes_spec (last : ℕ) (hPos : 0 < n) (hFree : n ≤ onesFrom start i l) :
    (takeOnes start i l n last).2.1 = 0 ∧ start ≤ (takeOnes start i l n last).2.2 ∧
    i ≤ (takeOnes start i l n last).2.2 ∧ (takeOnes start i l n last).2.2 < i + l.length ∧
    onesFrom ((takeOnes start i l n last).2.2 + 1) i l + n = onesFrom start i l := by
  induction l generalizing i n last with
  | nil => exact absurd hFree (Nat.not_le.mpr hPos)
  | cons b l ih =>
    have hBehind : ∀ k ≥ i, onesFrom (k + 1) i (b :: l) = onesFrom (k + 1) (i + 1) l :=
      fun k hk => onesFrom_cons_of_not fun h => Nat.not_succ_le_self i ((Nat.succ_le_succ hk).trans h.1)
    rw [List.length_cons]
    rcases Decidable.em (start ≤ i ∧ b = 1) with hOne | hNone
    · rw [takeOnes_of_take ⟨hOne.1, hPos, hOne.2⟩, onesFrom_cons_of_free hOne]
      rw [onesFrom_cons_of_free hOne] at hFree
      dsimp only
      rcases Nat.eq_zero_or_pos (n - 1) with hLast | hMore
      · rw [hLast, takeOnes_zero]
        dsimp only
        rw [hBehind i (Nat.le_refl i), onesFrom_of_le (Nat.le_refl _),
          onesFrom_of_le (hOne.1.trans (Nat.le_succ i))]
        omega
      · obtain ⟨hLeft, hStart, hLow, hHigh, hOnes⟩ :=
          ih (i := i + 1) i hMore (by omega)
        refine ⟨hLeft, hStart, by omega, by omega, ?_⟩
        rw [hBehind _ (by omega)]
        omega
    · rw [takeOnes_of_skip fun h => hNone ⟨h.1, h.2.2⟩, onesFrom_cons_of_not hNone]
      rw [onesFrom_cons_of_not hNone] at hFree
      dsimp only
      obtain ⟨hLeft, hStart, hLow, hHigh, hOnes⟩ := ih (i := i + 1) last hPos hFree
      refine ⟨hLeft, hStart, by omega, by omega, ?_⟩
      rw [hBehind _ (by omega)]
      exact hOnes

/-- A position is kept only if it is free, not before the start and not behind the last one
taken. -/
theorem getElem?_takeOnes (last : ℕ) {j : ℕ} (hNe : (1 : α) ≠ 0) (hFree : n ≤ onesFrom start i l)
    (h : (takeOnes start i l n last).1[j]? = some 1) :
    l[j]? = some 1 ∧ start ≤ i + j ∧ i + j ≤ (takeOnes start i l n last).2.2 := by
  induction l generalizing i n last j with
  | nil => cases h
  | cons b l ih =>
    rcases Decidable.em (start ≤ i ∧ b = 1) with hOne | hNone
    · rw [onesFrom_cons_of_free hOne] at hFree
      rcases Nat.eq_zero_or_pos n with rfl | hPos
      · rw [takeOnes_zero] at h
        have hMem := List.eq_of_mem_replicate (List.mem_of_getElem? h)
        exact absurd hMem hNe
      · rw [takeOnes_of_take ⟨hOne.1, hPos, hOne.2⟩] at h ⊢
        dsimp only at h ⊢
        cases j with
        | zero =>
          refine ⟨by rw [hOne.2]; rfl, hOne.1, ?_⟩
          rcases Nat.eq_zero_or_pos (n - 1) with hLast | hMore
          · rw [hLast, takeOnes_zero]
            exact Nat.le_refl _
          · have hSpec := takeOnes_spec i hMore (Nat.sub_le_of_le_add hFree)
            omega
        | succ j =>
          rw [List.getElem?_cons_succ] at h ⊢
          obtain ⟨hSet, hStart, hHigh⟩ := ih i (by omega) h
          exact ⟨hSet, by omega, by omega⟩
    · rw [onesFrom_cons_of_not hNone] at hFree
      rw [takeOnes_of_skip fun h => hNone ⟨h.1, h.2.2⟩] at h ⊢
      dsimp only at h ⊢
      cases j with
      | zero =>
        rw [List.getElem?_cons_zero, Option.some_inj] at h
        exact absurd h.symm hNe
      | succ j =>
        rw [List.getElem?_cons_succ] at h ⊢
        obtain ⟨hSet, hStart, hHigh⟩ := ih last hFree h
        exact ⟨hSet, by omega, by omega⟩

/-- What a demand of `n` positions takes of a mask that has them. -/
structure Taken (mask : List α) (start n : ℕ) (r : List α × ℕ × ℕ) : Prop where
  missing : r.2.1 = 0
  start_le : start ≤ r.2.2
  last_lt : r.2.2 < mask.length
  behind : onesFrom (r.2.2 + 1) 0 mask + n = onesFrom start 0 mask
  length : r.1.length = mask.length
  count : r.1.count 1 = n
  count_zero_ne : r.1.count 0 ≠ mask.length
  kept : ∀ i : ℕ, r.1[i]? = some 1 → mask[i]? = some 1 ∧ start ≤ i ∧ i ≤ r.2.2

theorem taken {mask : List α} (last : ℕ) (hNe : (1 : α) ≠ 0) (hPos : 0 < n)
    (hFree : n ≤ onesFrom start 0 mask) : Taken mask start n (takeOnes start 0 mask n last) := by
  obtain ⟨hMissing, hStart, -, hLast, hBehind⟩ := takeOnes_spec last hPos hFree
  have hLength : (takeOnes start 0 mask n last).1.length = mask.length := length_takeOnes
  have hCount := @count_takeOnes _ _ _ _ start 0 n mask last hNe
  rw [hMissing, Nat.add_zero] at hCount
  rw [Nat.zero_add] at hLast
  refine ⟨hMissing, hStart, hLast, hBehind, hLength, hCount, ?_, fun i hi => ?_⟩
  · intro hAll
    rw [← hLength] at hAll
    have hOne : (1 : α) ∈ (takeOnes start 0 mask n last).1 := by
      rw [← List.count_pos_iff, hCount]
      exact hPos
    exact hNe (List.count_eq_length.mp hAll 1 hOne).symm
  · have hKept := getElem?_takeOnes last hNe hFree hi
    rw [Nat.zero_add] at hKept
    exact hKept

end Bullet.Lib.Bitmask
