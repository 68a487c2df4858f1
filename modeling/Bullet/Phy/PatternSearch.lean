import Bullet.Lib.CyclicTable
import Bullet.Phy.TddPattern
import Mathlib.Tactic.Ring

/-! # What the searches of a pattern find

In range, the searches find the least delay after which a slot is of the right kind, and they find
it within one round of the pattern.
-/

namespace Bullet.Phy

open Lib.CyclicTable

/-- DL control and DL data fit the slot. -/
def LteNrTddSlotType.dlCapable (t : LteNrTddSlotType) : Bool :=
  decide (t ≠ .ul)

/-- UL data fits the slot. -/
def LteNrTddSlotType.ulCapable (t : LteNrTddSlotType) : Bool :=
  decide (t = .f) || decide (t = .ul)

/-- The slot at a position, before the first slot as well, is of some kind. -/
def SlotAt (pattern : List LteNrTddSlotType) (kind : LteNrTddSlotType → Bool) (z : ℤ) : Prop :=
  (pattern[(z % pattern.length).toNat]?).any kind = true

/-- A delay that the searches can count with. -/
def InRange (pattern : List LteNrTddSlotType) (n : ℕ) : Prop :=
  n + 2 * pattern.length < 2 ^ 31

instance (pattern : List LteNrTddSlotType) (n : ℕ) : Decidable (InRange pattern n) :=
  inferInstanceAs (Decidable (_ < _))

variable {pattern : List LteNrTddSlotType} {kind : LteNrTddSlotType → Bool} {n pos k fuel m : ℕ}
  {z : ℤ}

/-! ## Arithmetic -/

theorem toInt_eq (hLow : -2 ^ 31 ≤ z) (hHigh : z < 2 ^ 31) : toInt z = z :=
  Int.bmod_eq_of_le (by omega) (by omega)

theorem int32_eq (hLow : -2 ^ 31 ≤ z) (hHigh : z < 2 ^ 31) : int32 z = some z :=
  if_pos ⟨hLow, hHigh⟩

theorem addUntil_eq {rounds : ℕ} (hm : (m : ℤ) < 2 ^ 31) (hLow : -2 ^ 31 ≤ z) (hHigh : z < m)
    (hRounds : 0 < m ∧ 0 ≤ z + rounds) : addUntil m rounds z = some (z % m) := by
  induction rounds generalizing z with
  | zero =>
    have hPos : 0 ≤ z := by omega
    rw [addUntil, if_pos hPos, Int.emod_eq_of_lt hPos hHigh]
  | succ rounds ih =>
    rw [addUntil]
    split
    · next hPos => rw [Int.emod_eq_of_lt hPos hHigh]
    · next hNeg =>
      rw [toInt_eq (by omega) (by omega), ih (by omega) (by omega) ⟨hRounds.1, by omega⟩,
        Int.add_emod_right]

theorem modulo_eq (hPos : 0 < m) (hm : (m : ℤ) < 2 ^ 31) (hLow : -2 ^ 31 ≤ z) :
    modulo z m = some (z % m).toNat := by
  rw [modulo]
  split
  · next h =>
    rw [if_neg hPos.ne', Int.toNat_emod h (Int.natCast_nonneg m), Int.toNat_natCast]
  · next h =>
    rw [addUntil_eq hm hLow (by omega) ⟨hPos, by omega⟩, Option.map_some]

theorem InRange.length (h : InRange pattern n) : (pattern.length : ℤ) < 2 ^ 31 := by
  unfold InRange at h
  omega

theorem InRange.patternSize (h : InRange pattern n) : patternSize pattern = pattern.length := by
  unfold InRange at h
  exact Nat.mod_eq_of_lt (by omega)

/-! ## The kinds of slots -/

theorem dlCapable_iff {t : LteNrTddSlotType} : t.dlCapable = true ↔ ¬ t > .f := by
  cases t <;> decide

theorem ulCapable_iff {t : LteNrTddSlotType} : t.ulCapable = true ↔ ¬ t < .f := by
  cases t <;> decide

/-- At every position there is a slot. -/
theorem exists_slot (hPos : 0 < pattern.length) (z : ℤ) :
    ∃ t, pattern[(z % pattern.length).toNat]? = some t := by
  have hLt : (z % pattern.length).toNat < pattern.length :=
    (Int.toNat_lt (Int.emod_nonneg _ (by omega))).mpr (Int.emod_lt_of_pos _ (by omega))
  exact ⟨_, List.getElem?_eq_getElem hLt⟩

theorem slotAt_of_getElem? {t : LteNrTddSlotType}
    (h : pattern[(z % pattern.length).toNat]? = some t) :
    SlotAt pattern kind z ↔ kind t = true := by
  rw [SlotAt, h]
  exact Iff.rfl

theorem slotAt_congr {z' : ℤ} (h : z % pattern.length = z' % pattern.length) :
    SlotAt pattern kind z ↔ SlotAt pattern kind z' := by
  rw [SlotAt, SlotAt, h]

theorem slotAt_natCast {i : ℕ} (hi : i < pattern.length) :
    SlotAt pattern kind i ↔ kind pattern[i] = true := by
  have hMod : ((i : ℤ) % pattern.length).toNat = i := by
    rw [Int.emod_eq_of_lt (by omega) (by omega), Int.toNat_natCast]
  rw [SlotAt, hMod, List.getElem?_eq_getElem hi]
  exact Iff.rfl

theorem periodic_before : Function.Periodic (fun k : ℕ => SlotAt pattern kind (pos - k))
    pattern.length := by
  intro k
  apply propext
  apply slotAt_congr
  rw [Int.natCast_add, ← Int.sub_sub, Int.sub_emod_right]

theorem periodic_after : Function.Periodic (fun k : ℕ => SlotAt pattern kind (pos + k))
    pattern.length := by
  intro k
  apply propext
  apply slotAt_congr
  rw [Int.natCast_add, ← Int.add_assoc, Int.add_emod_right]

theorem exists_before {t : LteNrTddSlotType} (ht : t ∈ pattern) (hKind : kind t = true) (pos n : ℕ) :
    ∃ k, IsLeast {k : ℕ | n ≤ k ∧ SlotAt pattern kind (pos - k)} k ∧ k < n + pattern.length := by
  obtain ⟨j, hj, rfl⟩ := List.getElem_of_mem ht
  apply exists_isLeast (Nat.zero_lt_of_lt hj) periodic_before
  refine ⟨pos + pattern.length - j, ?_⟩
  have hBack : (pos : ℤ) - (pos + pattern.length - j : ℕ) = j - pattern.length := by omega
  rw [hBack, slotAt_congr (Int.sub_emod_right j pattern.length), slotAt_natCast hj]
  exact hKind

theorem exists_after {t : LteNrTddSlotType} (ht : t ∈ pattern) (hKind : kind t = true) (pos n : ℕ) :
    ∃ k, IsLeast {k : ℕ | n ≤ k ∧ SlotAt pattern kind (pos + k)} k ∧ k < n + pattern.length := by
  obtain ⟨j, hj, rfl⟩ := List.getElem_of_mem ht
  have hPos := Nat.zero_lt_of_lt hj
  apply exists_isLeast hPos periodic_after
  refine ⟨j + (pattern.length - 1) * pos, ?_⟩
  have hForward : (pos : ℤ) + (j + (pattern.length - 1) * pos : ℕ) = j + pattern.length * pos := by
    push_cast [Nat.one_le_iff_ne_zero.mpr hPos.ne']
    ring
  rw [hForward, slotAt_congr (Int.add_mul_emod_self_left j pattern.length pos), slotAt_natCast hj]
  exact hKind

/-! ## The searches -/

theorem returnDciSlot_eq (hRange : InRange pattern n) (hPos : pos < pattern.length)
    (hLeast : IsLeast {k : ℕ | n ≤ k ∧ SlotAt pattern LteNrTddSlotType.dlCapable (pos - k)} k)
    (hBound : k < n + pattern.length) (hFuel : pattern.length ≤ fuel) :
    returnDciSlot fuel pattern pos n =
      some { indexDci := back pattern.length pos k, k := k } := by
  classical
  have hLength : 0 < pattern.length := Nat.zero_lt_of_lt hPos
  have hSize : n + 2 * pattern.length < 2 ^ 31 := hRange
  apply search_eq (dciSearch pattern pos)
    (fun k => some { indexDci := back pattern.length pos k, k := k }) _ hLeast (by omega)
  intro fuel j hj hjk
  have hIndex : modulo ((pos : ℤ) - j) (patternSize pattern) = some (back pattern.length pos j) := by
    rw [hRange.patternSize, modulo_eq hLength hRange.length (by omega), back]
  obtain ⟨t, ht⟩ := exists_slot hLength ((pos : ℤ) - j)
  rw [slotAt_of_getElem? ht, dciSearch, toInt_eq (by omega) (by omega),
    toInt_eq (by omega) (by omega), int32_eq (by omega) (by omega),
    Nat.mod_eq_of_lt (by omega : j + 1 < 2 ^ 32)]
  simp only [Option.bind_eq_bind, Option.bind_some, hIndex, back, ht, dlCapable_iff, ite_not]

theorem returnHarqSlot_eq (hRange : InRange pattern n) (hPos : pos < pattern.length)
    (hLeast : IsLeast {k : ℕ | n ≤ k ∧ SlotAt pattern LteNrTddSlotType.ulCapable (pos + k)} k)
    (hBound : k < n + pattern.length) (hFuel : pattern.length ≤ fuel) :
    returnHarqSlot fuel pattern pos n = some (k : ℤ) := by
  classical
  have hLength : 0 < pattern.length := Nat.zero_lt_of_lt hPos
  have hSize : n + 2 * pattern.length < 2 ^ 31 := hRange
  rw [returnHarqSlot, toInt_eq (by omega) (by omega)]
  apply search_eq (fun fuel k => harqSearch pattern pos fuel k) (fun k => some (k : ℤ)) _ hLeast
    (by omega)
  intro fuel j hj hjk
  have hIndex : modulo ((pos : ℤ) + j) (patternSize pattern) =
      some (((pos : ℤ) + j) % pattern.length).toNat := by
    rw [hRange.patternSize, modulo_eq hLength hRange.length (by omega)]
  obtain ⟨t, ht⟩ := exists_slot hLength ((pos : ℤ) + j)
  rw [slotAt_of_getElem? ht, harqSearch, toInt_eq (by omega) (by omega),
    int32_eq (by omega) (by omega), int32_eq (z := (j : ℤ) + 1) (by omega) (by omega)]
  simp only [Option.bind_eq_bind, Option.bind_some, hIndex, ht, ulCapable_iff, ite_not]
  rfl

/-! ## Which patterns are taken for TDD -/

theorem tddScan_iff (anUl aDl : Bool) : tddScan pattern anUl aDl = true ↔
    .f ∈ pattern ∨ (anUl = true ∨ .ul ∈ pattern ↔ aDl = true ∨ .dl ∈ pattern) := by
  induction pattern generalizing anUl aDl with
  | nil => cases anUl <;> cases aDl <;> decide
  | cons v vs ih => cases v <;> simp [tddScan, ih]

theorem isTdd_iff : isTdd pattern = true ↔
    .f ∈ pattern ∨ (.ul ∈ pattern ↔ .dl ∈ pattern) := by
  rw [isTdd, tddScan_iff]
  simp only [Bool.false_eq_true, false_or]

end Bullet.Phy
