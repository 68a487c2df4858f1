import Bullet.Rlc.SequenceNumber
import Mathlib.Order.Defs.Unbundled

/-! # The operators on sequence numbers

The members of a sequence number are 16-bit words. Their operators compute in `int` and apply the
modulus by hand, where a remainder takes the sign of its dividend, and convert the result back to
16 bits. They agree with the arithmetic of `SequenceNumber10`, but for the difference of two
numbers, to which no modulus is applied.
-/

namespace Bullet.Rlc

structure SequenceWord where
  value : UInt16 := 0
  modulusBase : UInt16 := 0
deriving DecidableEq, Repr

namespace SequenceWord

def mk' (value : UInt16) : SequenceWord := { value := value % 1024 }

def increment (s : SequenceWord) : SequenceWord :=
  { s with value := UInt16.ofNat ((s.value.toNat + 1) % 1024) }

def add (s : SequenceWord) (delta : UInt16) : SequenceWord :=
  { mk' (UInt16.ofInt (((s.value.toNat : ℤ) + delta.toNat).tmod 1024)) with
    modulusBase := s.modulusBase }

def sub (s : SequenceWord) (delta : UInt16) : SequenceWord :=
  { mk' (UInt16.ofInt (((s.value.toNat : ℤ) - delta.toNat).tmod 1024)) with
    modulusBase := s.modulusBase }

/-- The subtraction of another sequence number. -/
def diff (s other : SequenceWord) : UInt16 :=
  UInt16.ofInt ((s.value.toNat : ℤ) - other.value.toNat)

def fromBase (s : SequenceWord) : UInt16 :=
  UInt16.ofInt (((s.value.toNat : ℤ) - s.modulusBase.toNat).tmod 1024)

def gt (s other : SequenceWord) : Option Bool :=
  if s.modulusBase = other.modulusBase then some (decide (other.fromBase < s.fromBase)) else none

def le (s other : SequenceWord) : Option Bool := (s.gt other).map not

def ge (s other : SequenceWord) : Option Bool :=
  (s.gt other).map fun g => g || decide (s.value = other.value)

def lt (s other : SequenceWord) : Option Bool :=
  (s.gt other).map fun g => !g && decide (s.value ≠ other.value)

end SequenceWord

namespace SequenceNumber10

def toWord (s : SequenceNumber10) : SequenceWord :=
  ⟨UInt16.ofNat s.value, UInt16.ofNat s.modulusBase⟩

variable {s t a b : SequenceNumber10}

theorem toNat_ofFin (v : Fin 1024) : (UInt16.ofNat v).toNat = v :=
  UInt16.toNat_ofNat_of_lt' (v.isLt.trans (by decide))

@[simp] theorem toNat_toWord (s : SequenceNumber10) : s.toWord.value.toNat = s.value :=
  toNat_ofFin s.value

@[simp] theorem base_toWord (s : SequenceNumber10) : s.toWord.modulusBase.toNat = s.modulusBase :=
  toNat_ofFin s.modulusBase

theorem toNat_ofInt (x : ℤ) : (UInt16.ofInt x).toNat = (x % 65536).toNat := by
  rw [UInt16.ofInt, UInt16.toNat_ofNat']
  omega

/-- The remainder of an `int`, converted and reduced once more by the constructor. -/
theorem toNat_reduce (x : ℤ) :
    ((UInt16.ofInt (x.tmod 1024) % 1024).toNat : ℤ) = x % 1024 := by
  have hWord : (UInt16.ofInt (x.tmod 1024) % 1024).toNat =
      (UInt16.ofInt (x.tmod 1024)).toNat % 1024 := UInt16.toNat_mod ..
  rw [hWord, toNat_ofInt, Int.tmod_def]
  omega

theorem toNat_add (a : SequenceNumber10) (delta : UInt16) :
    ((a.toWord.add delta).value.toNat : ℤ) = ((a.value.val : ℤ) + delta.toNat) % 1024 := by
  rw [← toNat_toWord]
  exact toNat_reduce _

theorem toNat_sub (a : SequenceNumber10) (delta : UInt16) :
    ((a.toWord.sub delta).value.toNat : ℤ) = ((a.value.val : ℤ) - delta.toNat) % 1024 := by
  rw [← toNat_toWord]
  exact toNat_reduce _

theorem toNat_increment (a : SequenceNumber10) :
    (a.toWord.increment.value.toNat : ℤ) = ((a.value.val : ℤ) + 1) % 1024 := by
  rw [SequenceWord.increment, toNat_toWord, UInt16.toNat_ofNat']
  omega

theorem toNat_diff (a b : SequenceNumber10) :
    (a.toWord.diff b.toWord).toNat = (((a.value.val : ℤ) - b.value.val) % 65536).toNat := by
  rw [SequenceWord.diff, toNat_ofInt, toNat_toWord, toNat_toWord]

/-! ## The words refine the sequence numbers -/

theorem toWord_inj {u v : Fin 1024} : UInt16.ofNat u = UInt16.ofNat v ↔ u = v := by
  constructor
  · intro hEq
    have hNat := congrArg UInt16.toNat hEq
    rw [toNat_ofFin, toNat_ofFin] at hNat
    exact Fin.ext hNat
  · rintro rfl
    rfl

theorem eq_toWord {w : SequenceWord} (hValue : w.value.toNat = s.value.val)
    (hBase : w.modulusBase = s.toWord.modulusBase) : w = s.toWord := by
  obtain ⟨value, base⟩ := w
  have hEq : value = s.toWord.value := UInt16.toNat_inj.mp (hValue.trans (toNat_toWord s).symm)
  rw [hEq, show base = s.toWord.modulusBase from hBase]

theorem toWord_add (s : SequenceNumber10) (delta : UInt16) :
    s.toWord.add delta = (s.add delta.toNat).toWord := by
  refine eq_toWord ?_ rfl
  have hAdd := toNat_add s delta
  rw [SequenceNumber10.add, Fin.val_add]
  change _ = (s.value.val + delta.toNat % 1024) % 1024
  omega

theorem toWord_sub (s : SequenceNumber10) (delta : UInt16) :
    s.toWord.sub delta = (s.sub delta.toNat).toWord := by
  refine eq_toWord ?_ rfl
  have hSub := toNat_sub s delta
  rw [SequenceNumber10.sub, Fin.sub_def]
  change _ = (1024 - delta.toNat % 1024 + s.value.val) % 1024
  omega

theorem toWord_increment (s : SequenceNumber10) : s.toWord.increment = s.increment.toWord := by
  refine eq_toWord ?_ rfl
  have hIncrement := toNat_increment s
  rw [increment, Fin.val_add]
  change _ = (s.value.val + 1) % 1024
  omega

theorem toNat_fromBase (s : SequenceNumber10) : s.toWord.fromBase.toNat = s.fromBase := by
  rw [SequenceWord.fromBase, toNat_ofInt, toNat_toWord, base_toWord]
  rfl

theorem toWord_gt (s t : SequenceNumber10) : s.toWord.gt t.toWord = s.gt t := by
  unfold SequenceWord.gt gt
  simp only [UInt16.lt_iff_toNat_lt, toNat_fromBase]
  exact if_congr toWord_inj rfl rfl

theorem toWord_le (s t : SequenceNumber10) : s.toWord.le t.toWord = s.le t :=
  congrArg _ (toWord_gt s t)

theorem value_toWord_eq : s.toWord.value = t.toWord.value ↔ s.value = t.value := toWord_inj

theorem toWord_ge (s t : SequenceNumber10) : s.toWord.ge t.toWord = s.ge t := by
  unfold SequenceWord.ge ge
  rw [toWord_gt, decide_eq_decide.mpr (value_toWord_eq (s := s) (t := t))]

theorem toWord_lt (s t : SequenceNumber10) : s.toWord.lt t.toWord = s.lt t := by
  unfold SequenceWord.lt lt
  rw [toWord_gt, decide_eq_decide.mpr (not_congr (value_toWord_eq (s := s) (t := t)))]

/-! ## What the operators are meant to compute -/

/-- The distance from the base. -/
def distance (s : SequenceNumber10) : ℤ := ((s.value.val : ℤ) - s.modulusBase.val) % 1024

theorem distance_eq (s : SequenceNumber10) : s.distance = offset s.modulusBase s.value := by
  rw [distance, offset_eq]
  omega

structure OperatorsRight (a b : SequenceNumber10) (delta : UInt16) (n : Fin 1024) : Prop where
  gt : a.modulusBase = b.modulusBase →
    a.toWord.gt b.toWord = some (decide (b.distance < a.distance))
  ge : a.modulusBase = b.modulusBase →
    a.toWord.ge b.toWord = some (decide (b.distance ≤ a.distance))
  lt : a.modulusBase = b.modulusBase →
    a.toWord.lt b.toWord = some (decide (a.distance < b.distance))
  le : a.modulusBase = b.modulusBase →
    a.toWord.le b.toWord = some (decide (a.distance ≤ b.distance))
  order : IsLinearOrder (Fin 1024) fun u v =>
    (toWord ⟨u, a.modulusBase⟩).le (toWord ⟨v, a.modulusBase⟩) = some true
  add : ((a.toWord.add delta).value.toNat : ℤ) = ((a.value.val : ℤ) + delta.toNat) % 1024
  sub : ((a.toWord.sub delta).value.toNat : ℤ) = ((a.value.val : ℤ) - delta.toNat) % 1024
  increment : (a.toWord.increment.value.toNat : ℤ) = ((a.value.val : ℤ) + 1) % 1024
  diff : ((a.toWord.diff b.toWord).toNat : ℤ) = ((a.value.val : ℤ) - b.value.val) % 1024
  addDiff : ((a.toWord.add (UInt16.ofNat n)).diff a.toWord).toNat = n

theorem isLinearOrder_le (base : Fin 1024) : IsLinearOrder (Fin 1024) fun u v =>
    (toWord ⟨u, base⟩).le (toWord ⟨v, base⟩) = some true := by
  have hLe : ∀ u v : Fin 1024, (toWord ⟨u, base⟩).le (toWord ⟨v, base⟩) = some true ↔
      offset base u ≤ offset base v := by
    intro u v
    rw [toWord_le, le_eq (b := base) rfl rfl, Option.some_inj, decide_eq_true_iff]
  simp only [hLe]
  exact {
    refl := fun u => le_rfl
    trans := fun _ _ _ hUv hVw => hUv.trans hVw
    antisymm := fun _ _ hUv hVu => offset_inj.mp (hUv.antisymm hVu)
    total := fun u v => le_total (offset base u) (offset base v) }

theorem diff_eq_iff (a b : SequenceNumber10) :
    ((a.toWord.diff b.toWord).toNat : ℤ) = ((a.value.val : ℤ) - b.value.val) % 1024 ↔
      b.value ≤ a.value := by
  have hA := a.value.isLt
  have hB := b.value.isLt
  rw [toNat_diff, Fin.le_def]
  omega

theorem addDiff_eq_iff (a : SequenceNumber10) (n : Fin 1024) :
    ((a.toWord.add (UInt16.ofNat n)).diff a.toWord).toNat = n ↔ a.value.val + n.val < 1024 := by
  have hA := a.value.isLt
  have hN := n.isLt
  rw [toWord_add, toNat_diff, SequenceNumber10.add, Fin.val_add, toNat_ofFin]
  change (((((a.value.val + n.val % 1024) % 1024 : ℕ) : ℤ) - a.value.val) % 65536).toNat = n.val ↔ _
  omega

/-- The difference of two numbers is right when it does not go round the ring. -/
theorem operatorsRight_iff (a b : SequenceNumber10) (delta : UInt16) (n : Fin 1024) :
    OperatorsRight a b delta n ↔ b.value ≤ a.value ∧ a.value.val + n.val < 1024 := by
  constructor
  · intro h
    exact ⟨(diff_eq_iff a b).mp h.diff, (addDiff_eq_iff a n).mp h.addDiff⟩
  · rintro ⟨hLe, hLt⟩
    constructor
    · intro hBase
      rw [toWord_gt, gt_eq hBase rfl, distance_eq, distance_eq, hBase]
      simp
    · intro hBase
      rw [toWord_ge, ge_eq hBase rfl, distance_eq, distance_eq, hBase]
      simp
    · intro hBase
      rw [toWord_lt, lt_eq hBase rfl, distance_eq, distance_eq, hBase]
      simp
    · intro hBase
      rw [toWord_le, le_eq hBase rfl, distance_eq, distance_eq, hBase]
      simp
    · exact isLinearOrder_le a.modulusBase
    · exact toNat_add a delta
    · exact toNat_sub a delta
    · exact toNat_increment a
    · exact (diff_eq_iff a b).mpr hLe
    · exact (addDiff_eq_iff a n).mpr hLt

/-- 0 − 1 is 65535, and 100 added to 1000 is taken off again as 64612. -/
theorem difference_wraps_at_16_bits :
    ¬ OperatorsRight ⟨0, 0⟩ ⟨1, 0⟩ 0 0 ∧ ¬ OperatorsRight ⟨1000, 0⟩ ⟨0, 0⟩ 0 100 := by
  constructor
  · intro h
    exact absurd h.diff (by decide)
  · intro h
    exact absurd h.addDiff (by decide)

end SequenceNumber10

end Bullet.Rlc
