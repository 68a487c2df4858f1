import Mathlib.Algebra.Order.Group.Nat
import Mathlib.Data.Fin.Basic
import Mathlib.Data.ZMod.Defs

/-! # Sequence numbers of the RLC

A sequence number has ten bits and carries a modulus base: two numbers are compared by their
distance from it. Comparing numbers of different bases fails an assertion.
-/

namespace Bullet.Rlc

instance modulusNeZero : NeZero 1024 := ⟨by decide⟩

structure SequenceNumber10 where
  value : Fin 1024 := 0
  modulusBase : Fin 1024 := 0
deriving DecidableEq, Repr

namespace SequenceNumber10

def mk' (value : ℕ) : SequenceNumber10 := { value := Fin.ofNat 1024 value }

/-- The assignment of a number keeps the base. -/
def assign (s : SequenceNumber10) (value : ℕ) : SequenceNumber10 :=
  { s with value := Fin.ofNat 1024 value }

def getValue (s : SequenceNumber10) : ℕ := s.value

def setModulusBase (s modulusBase : SequenceNumber10) : SequenceNumber10 :=
  { s with modulusBase := modulusBase.value }

def increment (s : SequenceNumber10) : SequenceNumber10 :=
  { s with value := s.value + 1 }

def add (s : SequenceNumber10) (delta : ℕ) : SequenceNumber10 :=
  { s with value := s.value + Fin.ofNat 1024 delta }

def sub (s : SequenceNumber10) (delta : ℕ) : SequenceNumber10 :=
  { s with value := s.value - Fin.ofNat 1024 delta }

/-- The distance from the base, as the unsigned word the comparison computes. -/
def fromBase (s : SequenceNumber10) : ℕ :=
  (((s.value.val : ℤ) - s.modulusBase.val).tmod 1024 % 65536).toNat

def gt (s t : SequenceNumber10) : Option Bool :=
  if s.modulusBase = t.modulusBase then some (decide (t.fromBase < s.fromBase)) else none

def le (s t : SequenceNumber10) : Option Bool := (s.gt t).map not

def ge (s t : SequenceNumber10) : Option Bool :=
  (s.gt t).map fun g => g || decide (s.value = t.value)

def lt (s t : SequenceNumber10) : Option Bool :=
  (s.gt t).map fun g => !g && decide (s.value ≠ t.value)

/-- How far a value is ahead of another one around the ring. -/
def offset (a v : Fin 1024) : ℕ := (v - a).val

variable {s t : SequenceNumber10} {b : Fin 1024}

@[simp] theorem offset_self (a : Fin 1024) : offset a a = 0 := by
  rw [offset, sub_self]
  rfl

theorem offset_lt (a v : Fin 1024) : offset a v < 1024 := (v - a).isLt

theorem offset_eq (a v : Fin 1024) : offset a v = (1024 - a.val + v.val) % 1024 := by
  rw [offset, Fin.sub_def]

theorem offset_inj {a u v : Fin 1024} : offset a u = offset a v ↔ u = v := by
  constructor
  · intro hEq
    exact sub_left_injective (Fin.ext hEq)
  · rintro rfl
    rfl

/-- Seen from the next number, every other one is one nearer. -/
theorem offset_next {a v : Fin 1024} (hNe : v ≠ a) : offset (a + 1) v + 1 = offset a v := by
  have hA := a.isLt
  have hV := v.isLt
  have hVal : v.val ≠ a.val := fun hEq => hNe (Fin.ext hEq)
  rw [offset_eq, offset_eq, Fin.val_add]
  change (1024 - (a.val + 1) % 1024 + v.val) % 1024 + 1 = _
  omega

theorem offset_next_self (a : Fin 1024) : offset (a + 1) a = 1023 := by
  have hA := a.isLt
  rw [offset_eq, Fin.val_add]
  change (1024 - (a.val + 1) % 1024 + a.val) % 1024 = _
  omega

theorem offset_add_one {a v : Fin 1024} (h : offset a v < 1023) :
    offset a (v + 1) = offset a v + 1 := by
  have hA := a.isLt
  have hV := v.isLt
  rw [offset_eq] at h
  rw [offset_eq, offset_eq, Fin.val_add]
  change (1024 - a.val + (v.val + 1) % 1024) % 1024 = _
  omega

theorem fromBase_eq (s : SequenceNumber10) :
    s.fromBase = if s.modulusBase ≤ s.value then s.value.val - s.modulusBase.val
      else 65536 + s.value.val - s.modulusBase.val := by
  have hValue := s.value.isLt
  have hBase := s.modulusBase.isLt
  unfold fromBase
  split
  case isTrue hLe =>
    have hNat : s.modulusBase.val ≤ s.value.val := hLe
    rw [Int.tmod_eq_of_lt (by omega) (by omega)]
    omega
  case isFalse hLe =>
    have hNat : ¬ s.modulusBase.val ≤ s.value.val := hLe
    have hSign : ((s.value.val : ℤ) - s.modulusBase.val) =
        -((s.modulusBase.val : ℤ) - s.value.val) := (neg_sub _ _).symm
    rw [hSign, Int.neg_tmod, Int.tmod_eq_of_lt (by omega) (by omega)]
    omega

theorem fromBase_lt_iff (hS : s.modulusBase = b) (hT : t.modulusBase = b) :
    s.fromBase < t.fromBase ↔ offset b s.value < offset b t.value := by
  rw [fromBase_eq, fromBase_eq, offset_eq, offset_eq, hS, hT]
  have hSv := s.value.isLt
  have hTv := t.value.isLt
  have hBv := b.isLt
  simp only [Fin.le_def]
  split <;> split <;> omega

/-- With one base, the comparisons compare the distances from it. -/
theorem gt_eq (hS : s.modulusBase = b) (hT : t.modulusBase = b) :
    s.gt t = some (decide (offset b t.value < offset b s.value)) := by
  rw [gt, if_pos (hS.trans hT.symm)]
  exact congrArg some (decide_eq_decide.mpr (fromBase_lt_iff hT hS))

theorem le_eq (hS : s.modulusBase = b) (hT : t.modulusBase = b) :
    s.le t = some (decide (offset b s.value ≤ offset b t.value)) := by
  rw [le, gt_eq hS hT, Option.map_some, ← decide_not]
  exact congrArg some (decide_eq_decide.mpr Nat.not_lt)

theorem ge_eq (hS : s.modulusBase = b) (hT : t.modulusBase = b) :
    s.ge t = some (decide (offset b t.value ≤ offset b s.value)) := by
  rw [ge, gt_eq hS hT, Option.map_some, ← Bool.decide_or]
  refine congrArg some (decide_eq_decide.mpr ?_)
  rw [← offset_inj (a := b), eq_comm, ← Nat.le_iff_lt_or_eq]

theorem lt_eq (hS : s.modulusBase = b) (hT : t.modulusBase = b) :
    s.lt t = some (decide (offset b s.value < offset b t.value)) := by
  rw [lt, gt_eq hS hT, Option.map_some, ← decide_not, ← Bool.decide_and]
  refine congrArg some (decide_eq_decide.mpr ?_)
  rw [ne_eq, ← offset_inj (a := b)]
  omega

theorem setModulusBase_eq (h : s.modulusBase = t.value) : s.setModulusBase t = s := by
  rw [setModulusBase, ← h]

theorem lt_true (hS : s.modulusBase = b) (hT : t.modulusBase = b)
    (hLt : offset b s.value < offset b t.value) : s.lt t = some true := by
  rw [lt_eq hS hT, decide_eq_true hLt]

end SequenceNumber10

end Bullet.Rlc
