import Bullet.Phy.SfnSf
import Mathlib.Tactic.Ring

/-! # Slots in time

The position of a slot counts the slots since frame 0. Adding slots moves it on by as many, until
the frame number wraps; later positions are later in the order of the slots.
-/

namespace Bullet.Phy.SfnSf

def slotsPerSubframe (x : SfnSf) : ℕ :=
  2 ^ x.numerology.toNat

def slotsPerFrame (x : SfnSf) : ℕ :=
  10 * x.slotsPerSubframe

def position (x : SfnSf) : ℕ :=
  x.frameNum.toNat * x.slotsPerFrame + x.subframeNum.toNat * x.slotsPerSubframe + x.slotNum.toNat

/-- The subframe and the slot are numbers of ones in their frame and subframe. -/
structure Normal (x : SfnSf) : Prop where
  admitted : x.Admitted
  subframe : x.subframeNum.toNat < 10
  slot : x.slotNum.toNat < x.slotsPerSubframe

/-- The slots before the frame number wraps. -/
def horizon (x : SfnSf) : ℕ :=
  2 ^ 32 * x.slotsPerFrame

def next (x : SfnSf) : SfnSf :=
  (x.add 1).getD x

variable {x y : SfnSf} {n : UInt32}

theorem numerology_le (h : x.Admitted) : x.numerology.toNat ≤ 5 :=
  UInt8.le_iff_toNat_le.mp h

theorem slotsPerSubframe_pos : 0 < x.slotsPerSubframe :=
  Nat.two_pow_pos _

theorem slotsPerSubframe_le (h : x.Admitted) : x.slotsPerSubframe ≤ 32 :=
  Nat.pow_le_pow_right Nat.two_pos (numerology_le h)

theorem getSlotPerSubframe_eq (h : x.Admitted) :
    ∃ slots, x.getSlotPerSubframe = some slots ∧ slots.toNat = x.slotsPerSubframe := by
  have hLe := numerology_le h
  have hLt : x.numerology < 31 := UInt8.lt_iff_toNat_lt.mpr (by change _ < 31; omega)
  refine ⟨_, if_pos hLt, ?_⟩
  have hShift : x.numerology.toNat % 32 = x.numerology.toNat := Nat.mod_eq_of_lt (by omega)
  have hPower : 2 ^ x.numerology.toNat < 2 ^ 32 := Nat.pow_lt_pow_right (by decide) (by omega)
  rw [UInt32.toNat_shiftLeft, UInt8.toNat_toUInt32, hShift, Nat.shiftLeft_eq, UInt32.toNat_one,
    Nat.one_mul, Nat.mod_eq_of_lt hPower, slotsPerSubframe]

/-- Where the addition of `n` slots leads. -/
structure Added (x : SfnSf) (n : ℕ) (y : SfnSf) : Prop where
  numerology : y.numerology = x.numerology
  slot : y.slotNum.toNat = (x.slotNum.toNat + n) % x.slotsPerSubframe
  subframe : y.subframeNum.toNat =
    (x.subframeNum.toNat + (x.slotNum.toNat + n) / x.slotsPerSubframe) % 10
  frame : y.frameNum.toNat = (x.frameNum.toNat +
    (x.subframeNum.toNat + (x.slotNum.toNat + n) / x.slotsPerSubframe) / 10) % 2 ^ 32

/-- An addition whose sums may wrap. -/
theorem add_wrapped (n : UInt32) (h : x.Admitted) :
    let slots := (x.slotNum.toNat + n.toNat) % 2 ^ 32
    let subframes := (x.subframeNum.toNat + slots / x.slotsPerSubframe) % 2 ^ 32
    ∃ y, x.add n = some y ∧ y.numerology = x.numerology ∧
      y.slotNum.toNat = slots % x.slotsPerSubframe ∧ y.subframeNum.toNat = subframes % 10 ∧
      y.frameNum.toNat = (x.frameNum.toNat + subframes / 10) % 2 ^ 32 := by
  intro slots subframes
  obtain ⟨perSubframe, hPerSubframe, hNat⟩ := getSlotPerSubframe_eq h
  have hSlots : (x.slotNum.toUInt32 + n).toNat = slots := by
    rw [UInt32.toNat_add, UInt8.toNat_toUInt32]
  have hSubframes : (x.subframeNum.toUInt32 + (x.slotNum.toUInt32 + n) / perSubframe).toNat =
      subframes := by
    rw [UInt32.toNat_add, UInt32.toNat_div, hSlots, hNat, UInt8.toNat_toUInt32]
  have hSlot : slots % x.slotsPerSubframe < 32 :=
    (Nat.mod_lt _ slotsPerSubframe_pos).trans_le (slotsPerSubframe_le h)
  have hNumerology : x.numerology ≤ 5 := h
  rw [add, if_pos hNumerology, hPerSubframe]
  refine ⟨_, rfl, rfl, ?_, ?_, ?_⟩
  · rw [UInt32.toNat_toUInt8, UInt32.toNat_mod, hSlots, hNat, Nat.mod_eq_of_lt (by omega)]
  · rw [UInt32.toNat_toUInt8, UInt32.toNat_mod, hSubframes]
    change _ % 10 % 2 ^ 8 = _
    omega
  · rw [UInt32.toNat_add, UInt32.toNat_div, hSubframes]
    rfl

/-- No sum of an addition wraps. -/
structure SumsFit (x : SfnSf) (n : ℕ) : Prop where
  slots : x.slotNum.toNat + n < 2 ^ 32
  subframes : x.subframeNum.toNat + (x.slotNum.toNat + n) / x.slotsPerSubframe < 2 ^ 32

theorem sumsFit_of_lt {n : ℕ} (h : x.subframeNum.toNat + (x.slotNum.toNat + n) < 2 ^ 32) :
    SumsFit x n where
  slots := by omega
  subframes :=
    (Nat.add_le_add_left (Nat.div_le_self ..) _).trans_lt h

theorem add_eq (h : x.Admitted) (hFit : SumsFit x n.toNat) :
    ∃ y, x.add n = some y ∧ Added x n.toNat y := by
  obtain ⟨y, hAdd, hNumerology, hSlot, hSubframe, hFrame⟩ := add_wrapped n h
  rw [Nat.mod_eq_of_lt hFit.slots] at hSlot hSubframe hFrame
  rw [Nat.mod_eq_of_lt hFit.subframes] at hSubframe hFrame
  exact ⟨y, hAdd, hNumerology, hSlot, hSubframe, hFrame⟩

namespace Added

variable {n : ℕ}

theorem admitted (h : Added x n y) (hx : x.Admitted) : y.Admitted := by
  rwa [Admitted, h.numerology]

theorem slotsPerSubframe_eq (h : Added x n y) : y.slotsPerSubframe = x.slotsPerSubframe := by
  rw [slotsPerSubframe, h.numerology, slotsPerSubframe]

theorem slotsPerFrame_eq (h : Added x n y) : y.slotsPerFrame = x.slotsPerFrame := by
  rw [slotsPerFrame, h.slotsPerSubframe_eq, slotsPerFrame]

theorem normal (h : Added x n y) (hx : x.Admitted) : y.Normal := by
  refine ⟨h.admitted hx, ?_, ?_⟩
  · rw [h.subframe]
    exact Nat.mod_lt _ (by decide)
  · rw [h.slot, h.slotsPerSubframe_eq]
    exact Nat.mod_lt _ slotsPerSubframe_pos

end Added

theorem digits_unique {a b c d k : ℕ} (hb : b < k) (hd : d < k) (h : a * k + b = c * k + d) :
    a = c ∧ b = d := by
  have hk : 0 < k := Nat.zero_lt_of_lt hb
  have hDiv := congrArg (· / k) h
  simp only [Nat.add_comm _ b, Nat.add_comm _ d, Nat.add_mul_div_right _ _ hk, Nat.div_eq_of_lt hb,
    Nat.div_eq_of_lt hd, Nat.zero_add] at hDiv
  subst hDiv
  exact ⟨rfl, Nat.add_left_cancel h⟩

/-- The position counts whole frames, and what is left is less than a frame. -/
theorem position_add (x : SfnSf) (n : ℕ) :
    let subframes := x.subframeNum.toNat + (x.slotNum.toNat + n) / x.slotsPerSubframe
    x.position + n = (x.frameNum.toNat + subframes / 10) * x.slotsPerFrame +
      (subframes % 10 * x.slotsPerSubframe + (x.slotNum.toNat + n) % x.slotsPerSubframe) := by
  intro subframes
  have hSlots := Nat.div_add_mod (x.slotNum.toNat + n) x.slotsPerSubframe
  have hSubframes : 10 * (subframes / 10) + subframes % 10 = subframes := Nat.div_add_mod ..
  calc
    x.position + n = x.frameNum.toNat * x.slotsPerFrame +
        (x.subframeNum.toNat * x.slotsPerSubframe + (x.slotNum.toNat + n)) := by
      rw [position]
      omega
    _ = x.frameNum.toNat * x.slotsPerFrame + (subframes * x.slotsPerSubframe +
        (x.slotNum.toNat + n) % x.slotsPerSubframe) := by
      conv_lhs => rw [← hSlots]
      rw [Nat.add_mul, Nat.mul_comm x.slotsPerSubframe, Nat.add_assoc]
    _ = x.frameNum.toNat * x.slotsPerFrame + ((10 * (subframes / 10) + subframes % 10) *
        x.slotsPerSubframe + (x.slotNum.toNat + n) % x.slotsPerSubframe) := by rw [hSubframes]
    _ = _ := by
      rw [slotsPerFrame]
      ring

theorem below_slotsPerFrame {a b : ℕ} (hA : a < 10) (hB : b < x.slotsPerSubframe) :
    a * x.slotsPerSubframe + b < x.slotsPerFrame := by
  calc
    a * x.slotsPerSubframe + b < a * x.slotsPerSubframe + x.slotsPerSubframe := by omega
    _ = (a + 1) * x.slotsPerSubframe := (Nat.succ_mul ..).symm
    _ ≤ 10 * x.slotsPerSubframe := Nat.mul_le_mul_right _ hA

/-- The frame number wraps exactly when the position reaches the horizon. -/
theorem position_lt_horizon_iff (x : SfnSf) (n : ℕ) : x.position + n < x.horizon ↔
    x.frameNum.toNat +
      (x.subframeNum.toNat + (x.slotNum.toNat + n) / x.slotsPerSubframe) / 10 < 2 ^ 32 := by
  have hSplit := position_add x n
  have hRest := below_slotsPerFrame (x := x)
    (Nat.mod_lt (x.subframeNum.toNat + (x.slotNum.toNat + n) / x.slotsPerSubframe)
      (by decide : 0 < 10))
    (Nat.mod_lt (x.slotNum.toNat + n) slotsPerSubframe_pos)
  simp only at hSplit
  rw [hSplit, horizon]
  constructor
  · intro h
    exact Nat.lt_of_mul_lt_mul_right (Nat.lt_of_le_of_lt (Nat.le_add_right _ _) h)
  · intro h
    calc
      _ < _ * x.slotsPerFrame + x.slotsPerFrame := Nat.add_lt_add_left hRest _
      _ = _ := (Nat.succ_mul ..).symm
      _ ≤ 2 ^ 32 * x.slotsPerFrame := Nat.mul_le_mul_right _ h

theorem Added.position {n : ℕ} (h : Added x n y) (hBelow : x.position + n < x.horizon) :
    y.position = x.position + n := by
  have hFrame := (position_lt_horizon_iff x n).mp hBelow
  rw [position_add, SfnSf.position, h.slotsPerFrame_eq, h.slotsPerSubframe_eq, h.frame, h.subframe,
    h.slot, Nat.mod_eq_of_lt hFrame, Nat.add_assoc]

theorem lt_iff (hNumerology : y.numerology = x.numerology) : x.lt y = some true ↔
    x.frameNum.toNat < y.frameNum.toNat ∨
      x.frameNum = y.frameNum ∧ (x.subframeNum.toNat < y.subframeNum.toNat ∨
        x.subframeNum = y.subframeNum ∧ x.slotNum.toNat < y.slotNum.toNat) := by
  rw [lt, if_pos hNumerology]
  simp only [Option.some.injEq, Bool.or_eq_true, Bool.and_eq_true, decide_eq_true_eq,
    UInt32.lt_iff_toNat_lt, UInt8.lt_iff_toNat_lt]
  tauto

/-- A later position is later in the order. -/
theorem lt_of_position_lt (hNumerology : y.numerology = x.numerology) (hy : y.Normal)
    (h : x.position < y.position) : x.lt y = some true := by
  have hSub : y.slotsPerSubframe = x.slotsPerSubframe := by
    rw [slotsPerSubframe, hNumerology, slotsPerSubframe]
  have hFrame : y.slotsPerFrame = x.slotsPerFrame := by rw [slotsPerFrame, hSub, slotsPerFrame]
  have hRest := below_slotsPerFrame hy.subframe hy.slot
  rw [lt_iff hNumerology]
  rw [position, position, hSub, hFrame] at h
  rw [hSub, hFrame] at hRest
  rcases Nat.lt_trichotomy x.frameNum.toNat y.frameNum.toNat with hLt | hEq | hGt
  · exact Or.inl hLt
  · refine Or.inr ⟨UInt32.toNat_inj.mp hEq, ?_⟩
    rw [hEq, Nat.add_assoc, Nat.add_assoc, Nat.add_lt_add_iff_left] at h
    rcases Nat.lt_trichotomy x.subframeNum.toNat y.subframeNum.toNat with hLt | hEq | hGt
    · exact Or.inl hLt
    · rw [hEq] at h
      exact Or.inr ⟨UInt8.toNat_inj.mp hEq, Nat.lt_of_add_lt_add_left h⟩
    · have hLate : (y.subframeNum.toNat + 1) * x.slotsPerSubframe ≤
          x.subframeNum.toNat * x.slotsPerSubframe := Nat.mul_le_mul_right _ hGt
      have hSlot := hy.slot
      rw [hSub] at hSlot
      rw [Nat.succ_mul] at hLate
      omega
  · have hLate : (y.frameNum.toNat + 1) * x.slotsPerFrame ≤ x.frameNum.toNat * x.slotsPerFrame :=
      Nat.mul_le_mul_right _ hGt
    rw [Nat.succ_mul] at hLate
    omega

theorem not_lt_self (x : SfnSf) : x.lt x ≠ some true := by
  rw [Ne, lt_iff rfl]
  rintro (h | ⟨-, h | ⟨-, h⟩⟩) <;> exact Nat.lt_irrefl _ h

theorem next_spec (h : x.Admitted) : x.add 1 = some x.next ∧ Added x 1 x.next := by
  have hSub := x.subframeNum.toNat_lt
  have hSlot := x.slotNum.toNat_lt
  obtain ⟨y, hAdd, hAdded⟩ := add_eq (n := 1) h (sumsFit_of_lt (by change _ + (_ + 1) < _; omega))
  have hNext : x.next = y := by rw [next, hAdd, Option.getD_some]
  rw [hNext]
  exact ⟨hAdd, hAdded⟩

/-- One slot on, the frame number is smaller once it has wrapped. -/
theorem lt_next_iff (h : x.Admitted) :
    x.lt x.next = some true ↔ x.position + 1 < x.horizon := by
  obtain ⟨-, hNext⟩ := next_spec h
  constructor
  · intro hLt
    by_contra hWrap
    rw [position_lt_horizon_iff] at hWrap
    rw [lt_iff hNext.numerology] at hLt
    have hFrame := hNext.frame
    have hX := x.frameNum.toNat_lt
    have hSub := x.subframeNum.toNat_lt
    have hSlot := x.slotNum.toNat_lt
    have hDiv : (x.slotNum.toNat + 1) / x.slotsPerSubframe ≤ x.slotNum.toNat + 1 :=
      Nat.div_le_self ..
    have hLess : x.next.frameNum.toNat < x.frameNum.toNat := by omega
    rcases hLt with hLt | ⟨hEq, -⟩
    · omega
    · rw [hEq] at hLess
      omega
  · intro hBelow
    apply lt_of_position_lt hNext.numerology (hNext.normal h)
    rw [hNext.position hBelow]
    exact Nat.lt_succ_self _

/-- Normalizing takes the product with the frame number in 32 bits. -/
theorem normalize_spec (h : x.Admitted) : ∃ n, x.normalize = some n ∧
    n.toNat = x.frameNum.toNat * x.slotsPerFrame % 2 ^ 32 +
      x.subframeNum.toNat * x.slotsPerSubframe + x.slotNum.toNat := by
  obtain ⟨slots, hSlots, hNat⟩ := getSlotPerSubframe_eq h
  have hFrame : (x.frameNum * getSubframesPerFrame * slots).toNat =
      x.frameNum.toNat * x.slotsPerFrame % 2 ^ 32 := by
    rw [UInt32.toNat_mul, UInt32.toNat_mul, hNat, Nat.mod_mul_mod]
    change x.frameNum.toNat * 10 * x.slotsPerSubframe % 2 ^ 32 = _
    rw [slotsPerFrame, Nat.mul_assoc]
  have hLe : x.subframeNum.toNat * x.slotsPerSubframe ≤ 255 * 32 :=
    Nat.mul_le_mul (Nat.le_of_lt_succ x.subframeNum.toNat_lt) (slotsPerSubframe_le h)
  have hSubframe : (x.subframeNum.toUInt32 * slots).toNat =
      x.subframeNum.toNat * x.slotsPerSubframe := by
    rw [UInt32.toNat_mul, UInt8.toNat_toUInt32, hNat]
    exact Nat.mod_eq_of_lt (by omega)
  have hSlot := x.slotNum.toNat_lt
  rw [normalize, hSlots]
  refine ⟨_, rfl, ?_⟩
  rw [UInt64.toNat_add, UInt64.toNat_add, UInt8.toNat_toUInt64, UInt32.toNat_toUInt64,
    UInt32.toNat_toUInt64, hFrame, hSubframe]
  omega

/-- As long as the product with the frame number fits, normalizing a slot gives its position. -/
theorem normalize_eq (hx : x.Normal) (hBelow : x.position < 2 ^ 32) :
    ∃ n, x.normalize = some n ∧ n.toNat = x.position := by
  obtain ⟨n, hNormalize, hN⟩ := normalize_spec hx.admitted
  refine ⟨n, hNormalize, ?_⟩
  rw [hN, position, Nat.mod_eq_of_lt]
  rw [position] at hBelow
  omega

/-- A slot is determined by its position. -/
theorem eq_of_position_eq (hx : x.Normal) (hy : y.Normal) (hNumerology : y.numerology = x.numerology)
    (h : y.position = x.position) : y = x := by
  have hSub : y.slotsPerSubframe = x.slotsPerSubframe := by
    rw [slotsPerSubframe, hNumerology, slotsPerSubframe]
  have hFrame : y.slotsPerFrame = x.slotsPerFrame := by rw [slotsPerFrame, hSub, slotsPerFrame]
  have hRestX := below_slotsPerFrame hx.subframe hx.slot
  have hRestY := below_slotsPerFrame hy.subframe hy.slot
  have hSlotY := hy.slot
  rw [hSub, hFrame] at hRestY
  rw [hSub] at hSlotY
  rw [position, position, hSub, hFrame, Nat.add_assoc, Nat.add_assoc] at h
  obtain ⟨hFrames, hRest⟩ := digits_unique hRestY hRestX h
  obtain ⟨hSubframes, hSlots⟩ := digits_unique hSlotY hx.slot hRest
  obtain ⟨_, _, _, _⟩ := x
  obtain ⟨_, _, _, _⟩ := y
  rw [UInt32.toNat_inj] at hFrames
  rw [UInt8.toNat_inj] at hSubframes hSlots
  simp_all only

end Bullet.Phy.SfnSf
