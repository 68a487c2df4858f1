import Mathlib.Data.List.Basic
import Mathlib.Order.Bounds.Basic

/-! # The short BSR

Buffer sizes are reported as levels of a table. `FromBytesToLevel` rounds up, so a report is an upper
bound of the buffer as long as the table covers it.
-/

namespace Bullet.Mac

def bufferSizeLevels : List ℕ :=
  [0, 10, 14, 20, 28, 38, 53, 74, 102, 142, 198, 276, 384, 535, 745, 1038, 1446, 2014, 2806, 3909,
    5446, 7587, 10570, 14726, 20516, 28581, 39818, 55474, 77284, 107669, 150000]

/-- `NrMacShortBsrCe::FromLevelToBytes`. -/
def fromLevelToBytes (bufferLevel : UInt8) : ℕ :=
  (bufferSizeLevels[bufferLevel.toNat]?).getD 150000

/-- `NrMacShortBsrCe::FromBytesToLevel`. -/
def fromBytesToLevel (bufferSize : ℕ) : UInt8 :=
  if 150000 < bufferSize then 31
  else UInt8.ofNat (bufferSizeLevels.findIdx (decide <| bufferSize ≤ ·))

theorem fromBytesToLevel_fromLevelToBytes :
    ∀ bufferLevel ≤ 30, fromBytesToLevel (fromLevelToBytes (UInt8.ofNat bufferLevel)) =
      UInt8.ofNat bufferLevel := by
  decide

theorem findIdx_lt_length {bufferSize : ℕ} (h : bufferSize ≤ 150000) :
    bufferSizeLevels.findIdx (decide <| bufferSize ≤ ·) < bufferSizeLevels.length :=
  List.findIdx_lt_length_of_exists ⟨150000, by decide, decide_eq_true h⟩

theorem toNat_fromBytesToLevel {bufferSize : ℕ} (h : bufferSize ≤ 150000) :
    (fromBytesToLevel bufferSize).toNat =
      bufferSizeLevels.findIdx (decide <| bufferSize ≤ ·) := by
  rw [fromBytesToLevel, if_neg (Nat.not_lt.mpr h)]
  exact UInt8.toNat_ofNat_of_lt' (Nat.lt_trans (findIdx_lt_length h) (by decide))

/-- A level stands for the table value that the search has found. -/
theorem fromLevelToBytes_fromBytesToLevel {bufferSize : ℕ} (h : bufferSize ≤ 150000)
    (hIndex : bufferSizeLevels.findIdx (decide <| bufferSize ≤ ·) < bufferSizeLevels.length) :
    fromLevelToBytes (fromBytesToLevel bufferSize) =
      bufferSizeLevels[bufferSizeLevels.findIdx (decide <| bufferSize ≤ ·)] := by
  rw [fromLevelToBytes, toNat_fromBytesToLevel h, List.getElem?_eq_getElem hIndex,
    Option.getD_some]

/-- A quantisation by a table: sizes are rounded up to a table value, and to the greatest one when
none is large enough. -/
structure Quantises (levels : List ℕ) (toLevel : ℕ → UInt8) (toBytes : UInt8 → ℕ) : Prop where
  least : ∀ b, (∃ v ∈ levels, b ≤ v) → IsLeast {v | v ∈ levels ∧ b ≤ v} (toBytes (toLevel b))
  greatest : ∀ b, (∀ v ∈ levels, v < b) → IsGreatest {v | v ∈ levels} (toBytes (toLevel b))
  toLevel_mono : ∀ b b', b ≤ b' → toLevel b ≤ toLevel b'
  toBytes_mono : ∀ l l', l ≤ l' → toBytes l ≤ toBytes l'
  toLevel_toBytes : ∀ l : UInt8, l.toNat < levels.length → toLevel (toBytes l) = l

section Levels

variable {levels : List ℕ} {b b' : ℕ}

theorem getElem_mono (hSorted : levels.Pairwise (· < ·)) {i j : ℕ} (hI : i < levels.length)
    (hJ : j < levels.length) (hLe : i ≤ j) : levels[i] ≤ levels[j] := by
  obtain hEq | hLt := hLe.eq_or_lt
  · simp only [hEq, le_refl]
  · exact (List.pairwise_iff_getElem.mp hSorted i j hI hJ hLt).le

/-- The search finds the least value of a sorted table. -/
theorem isLeast_findIdx (hSorted : levels.Pairwise (· < ·))
    (hIndex : levels.findIdx (decide <| b ≤ ·) < levels.length) :
    IsLeast {v | v ∈ levels ∧ b ≤ v} (levels[levels.findIdx (decide <| b ≤ ·)]) := by
  constructor
  · exact ⟨List.getElem_mem hIndex, of_decide_eq_true (List.findIdx_getElem (w := hIndex))⟩
  · rintro v ⟨hMem, hLe⟩
    obtain ⟨i, hI, rfl⟩ := List.getElem_of_mem hMem
    have hFirst : levels.findIdx (decide <| b ≤ ·) ≤ i := by
      by_contra hBefore
      have hNot := List.not_of_lt_findIdx (Nat.lt_of_not_le hBefore)
      rw [decide_eq_true hLe] at hNot
      cases hNot
    exact getElem_mono hSorted hIndex hI hFirst

theorem findIdx_mono (levels : List ℕ) (hLe : b ≤ b') :
    levels.findIdx (decide <| b ≤ ·) ≤ levels.findIdx (decide <| b' ≤ ·) := by
  induction levels with
  | nil => rfl
  | cons v levels ih =>
    rw [List.findIdx_cons, List.findIdx_cons]
    by_cases hAbove : b' ≤ v
    · simp [hAbove, hLe.trans hAbove]
    · by_cases hBetween : b ≤ v
      · simp [hBetween]
      · simpa [hAbove, hBetween] using ih

end Levels

theorem bufferSizeLevels_sorted : bufferSizeLevels.Pairwise (· < ·) := by decide

theorem bufferSizeLevels_le : ∀ v ∈ bufferSizeLevels, v ≤ 150000 := by decide

theorem quantises_bufferSizeLevels :
    Quantises bufferSizeLevels fromBytesToLevel fromLevelToBytes where
  least := by
    rintro b ⟨v, hMem, hLe⟩
    have hInside : b ≤ 150000 := hLe.trans (bufferSizeLevels_le v hMem)
    have hIndex := findIdx_lt_length hInside
    rw [fromLevelToBytes_fromBytesToLevel hInside hIndex]
    exact isLeast_findIdx bufferSizeLevels_sorted hIndex
  greatest := by
    intro b hAbove
    have hLevel : fromBytesToLevel b = 31 := if_pos (hAbove 150000 (by decide))
    rw [hLevel]
    exact ⟨by decide, bufferSizeLevels_le⟩
  toLevel_mono := by
    intro b b' hLe
    rw [UInt8.le_iff_toNat_le]
    obtain hInside | hAbove := Nat.lt_or_ge 150000 b'
    · have hLevel : fromBytesToLevel b' = 31 := if_pos hInside
      rw [hLevel]
      obtain hHigh | hLow := Nat.lt_or_ge 150000 b
      · rw [fromBytesToLevel, if_pos hHigh]
      · rw [toNat_fromBytesToLevel hLow]
        exact (findIdx_lt_length hLow).le
    · rw [toNat_fromBytesToLevel hAbove, toNat_fromBytesToLevel (hLe.trans hAbove)]
      exact findIdx_mono bufferSizeLevels hLe
  toBytes_mono := by
    intro l l' hLe
    rw [UInt8.le_iff_toNat_le] at hLe
    unfold fromLevelToBytes
    obtain hShort | hLong := Nat.lt_or_ge l'.toNat bufferSizeLevels.length
    · have hShort' := hLe.trans_lt hShort
      rw [List.getElem?_eq_getElem hShort, List.getElem?_eq_getElem hShort', Option.getD_some,
        Option.getD_some]
      exact getElem_mono bufferSizeLevels_sorted hShort' hShort hLe
    · rw [List.getElem?_eq_none hLong, Option.getD_none]
      cases hValue : bufferSizeLevels[l.toNat]? with
      | none => exact le_rfl
      | some v => exact bufferSizeLevels_le v (List.mem_of_getElem? hValue)
  toLevel_toBytes := by
    intro l hLt
    have hLevel := fromBytesToLevel_fromLevelToBytes l.toNat (Nat.le_of_lt_succ hLt)
    rwa [UInt8.ofNat_toNat] at hLevel

end Bullet.Mac
