import Bullet.Lib.BitFields
import Mathlib.Tactic.ByContra

/-! # Frame, subframe and slot numbers

The position of a slot in time and its packings into 64-bit words, which serve as map keys. An
assertion that fails is `none`.
-/

namespace Bullet.Phy

structure SfnSf where
  frameNum : UInt32 := 0
  subframeNum : UInt8 := 0
  slotNum : UInt8 := 0
  numerology : UInt8 := 255
deriving DecidableEq, Repr

namespace SfnSf

open Lib.BitFields

/-- The constructor aborts on an unsupported numerology. -/
def make (frameNum : UInt32) (sfNum slotNum numerology : UInt8) : Option SfnSf :=
  if numerology ≤ 5 then some ⟨frameNum, sfNum, slotNum, numerology⟩ else none

/-- The values that the constructor builds. -/
def Admitted (x : SfnSf) : Prop :=
  x.numerology ≤ 5

instance (x : SfnSf) : Decidable x.Admitted :=
  inferInstanceAs (Decidable (x.numerology ≤ 5))

def getEncoding (x : SfnSf) : Option UInt64 :=
  if x.numerology ≤ 5 then
    some (x.frameNum.toUInt64 <<< 32 ||| x.subframeNum.toUInt64 <<< 24 |||
      x.slotNum.toUInt64 <<< 16 ||| x.numerology.toUInt64 <<< 8)
  else none

def getEncodingWithSymStart (x : SfnSf) (symStart : UInt8) : Option UInt64 :=
  if x.numerology ≤ 5 then
    some (x.frameNum.toUInt64 <<< 32 ||| x.subframeNum.toUInt64 <<< 24 |||
      x.slotNum.toUInt64 <<< 16 ||| x.numerology.toUInt64 <<< 8 ||| symStart.toUInt64)
  else none

-- The assertion here, that the numerology is not negative, always holds.
def getEncForStreamWithSymStart (x : SfnSf) (streamId symStart : UInt8) : UInt64 :=
  x.numerology.toUInt64 <<< 56 ||| x.frameNum.toUInt64 <<< 40 |||
    x.subframeNum.toUInt64 <<< 32 ||| x.slotNum.toUInt64 <<< 16 ||| symStart.toUInt64 <<< 8 |||
    streamId.toUInt64

/-- Every field is overwritten. -/
def fromEncoding (sfn : UInt64) : SfnSf where
  frameNum := ((sfn &&& 0xFFFFFFFF00000000) >>> 32).toUInt32
  subframeNum := ((sfn &&& 0x00000000FF000000) >>> 24).toUInt8
  slotNum := ((sfn &&& 0x0000000000FF0000) >>> 16).toUInt8
  numerology := ((sfn &&& 0x000000000000FF00) >>> 8).toUInt8

def getSubframesPerFrame : UInt32 :=
  10

/-- One shifted by the numerology, as an `int`. -/
def getSlotPerSubframe (x : SfnSf) : Option UInt32 :=
  if x.numerology < 31 then some (1 <<< x.numerology.toUInt32) else none

/-- The product with the frame number is taken in 32 bits. -/
def normalize (x : SfnSf) : Option UInt64 := do
  let slots ← x.getSlotPerSubframe
  some (x.slotNum.toUInt64 + (x.subframeNum.toUInt32 * slots).toUInt64 +
    (x.frameNum * getSubframesPerFrame * slots).toUInt64)

def add (x : SfnSf) (slotN : UInt32) : Option SfnSf :=
  if x.numerology ≤ 5 then do
    let slots ← x.getSlotPerSubframe
    let subframes := x.subframeNum.toUInt32 + (x.slotNum.toUInt32 + slotN) / slots
    some { x with
      frameNum := x.frameNum + subframes / getSubframesPerFrame
      subframeNum := (subframes % getSubframesPerFrame).toUInt8
      slotNum := ((x.slotNum.toUInt32 + slotN) % slots).toUInt8 }
  else none

/-- `operator<`. -/
def lt (x rhs : SfnSf) : Option Bool :=
  if rhs.numerology = x.numerology then
    some (decide (x.frameNum < rhs.frameNum) ||
      decide (x.frameNum = rhs.frameNum) && decide (x.subframeNum < rhs.subframeNum) ||
      (decide (x.frameNum = rhs.frameNum) && decide (x.subframeNum = rhs.subframeNum)) &&
        decide (x.slotNum < rhs.slotNum))
  else none

/-- `operator==`. -/
def eq (x o : SfnSf) : Option Bool :=
  if o.numerology = x.numerology then
    some (decide (x.frameNum = o.frameNum) && decide (x.subframeNum = o.subframeNum) &&
      decide (x.slotNum = o.slotNum))
  else none

/-! ## The fields of the packed words -/

def symFields (x : SfnSf) (symStart : UInt8) : List Field :=
  [⟨32, x.frameNum.toNat⟩, ⟨8, x.subframeNum.toNat⟩, ⟨8, x.slotNum.toNat⟩,
    ⟨8, x.numerology.toNat⟩, ⟨8, symStart.toNat⟩]

/-- The bits of the frame number from the sixteenth on share a byte with the numerology. -/
def sharedByte (x : SfnSf) : ℕ :=
  x.numerology.toNat ||| x.frameNum.toNat / 2 ^ 16 % 2 ^ 8

def streamFields (x : SfnSf) (streamId symStart : UInt8) : List Field :=
  [⟨8, x.sharedByte⟩, ⟨16, x.frameNum.toNat % 2 ^ 16⟩, ⟨8, x.subframeNum.toNat⟩,
    ⟨16, x.slotNum.toNat⟩, ⟨8, symStart.toNat⟩, ⟨8, streamId.toNat⟩]

variable {x y : SfnSf} {s s' t t' : UInt8}

theorem byte_shiftLeft_toNat (a : UInt8) {k : UInt64} (hk : k.toNat ≤ 56) :
    (a.toUInt64 <<< k).toNat = a.toNat <<< k.toNat := by
  have hLt : a.toNat <<< k.toNat < 2 ^ 64 := by
    rw [Nat.shiftLeft_eq]
    calc
      a.toNat * 2 ^ k.toNat < 2 ^ 8 * 2 ^ k.toNat :=
        Nat.mul_lt_mul_of_pos_right a.toNat_lt (Nat.two_pow_pos _)
      _ ≤ 2 ^ 8 * 2 ^ 56 := Nat.mul_le_mul_left _ (Nat.pow_le_pow_right Nat.two_pos hk)
  rw [UInt64.toNat_shiftLeft, UInt8.toNat_toUInt64, Nat.mod_eq_of_lt (by omega : k.toNat < 64),
    Nat.mod_eq_of_lt hLt]

theorem frame_shiftLeft_toNat (a : UInt32) : (a.toUInt64 <<< 32).toNat = a.toNat <<< 32 := by
  have hLt : a.toNat <<< 32 < 2 ^ 64 := by
    rw [Nat.shiftLeft_eq]
    exact Nat.mul_lt_mul_of_pos_right a.toNat_lt (Nat.two_pow_pos 32)
  rw [UInt64.toNat_shiftLeft, UInt32.toNat_toUInt64]
  exact Nat.mod_eq_of_lt hLt

/-- Of a frame number shifted by forty places the upper eight bits are lost. -/
theorem frame_shiftLeft_wide (a : UInt32) :
    (a.toUInt64 <<< 40).toNat = (a.toNat / 2 ^ 16 % 2 ^ 8) <<< 56 ||| (a.toNat % 2 ^ 16) <<< 40 := by
  have hLow : (a.toNat % 2 ^ 16) <<< 40 < 2 ^ 56 := by
    rw [Nat.shiftLeft_eq]
    exact Nat.mul_lt_mul_of_pos_right (Nat.mod_lt _ (Nat.two_pow_pos 16)) (Nat.two_pow_pos 40)
  rw [← Nat.shiftLeft_add_eq_or_of_lt hLow, UInt64.toNat_shiftLeft, UInt32.toNat_toUInt64,
    Nat.shiftLeft_eq, Nat.shiftLeft_eq, Nat.shiftLeft_eq]
  change a.toNat * 2 ^ 40 % 2 ^ 64 = _
  omega

theorem symFields_fit : ∀ f ∈ x.symFields s, f.Fits := by
  have h32 := x.frameNum.toNat_lt
  have h8 := fun a : UInt8 => a.toNat_lt
  simp only [symFields, List.forall_mem_cons, Field.Fits]
  exact ⟨h32, h8 _, h8 _, h8 _, h8 _, fun f hf => (List.not_mem_nil hf).elim⟩

theorem sharedByte_lt : x.sharedByte < 2 ^ 8 :=
  Nat.or_lt_two_pow x.numerology.toNat_lt (Nat.mod_lt _ (Nat.two_pow_pos 8))

theorem streamFields_fit : ∀ f ∈ x.streamFields t s, f.Fits := by
  have h8 := fun a : UInt8 => a.toNat_lt
  have hSlot : x.slotNum.toNat < 2 ^ 16 := (h8 _).trans (by decide)
  have hFrame : x.frameNum.toNat % 2 ^ 16 < 2 ^ 16 := Nat.mod_lt _ (Nat.two_pow_pos 16)
  have hShared := x.sharedByte_lt
  intro f hf
  simp only [streamFields, List.mem_cons, List.not_mem_nil, or_false] at hf
  rcases hf with rfl | rfl | rfl | rfl | rfl | rfl <;> first | assumption | exact h8 _

theorem getEncodingWithSymStart_eq (h : x.Admitted) :
    ∃ code, x.getEncodingWithSymStart s = some code ∧ code.toNat = pack (x.symFields s) := by
  refine ⟨_, if_pos h, ?_⟩
  simp only [UInt64.toNat_or]
  rw [frame_shiftLeft_toNat, byte_shiftLeft_toNat _ (by decide), byte_shiftLeft_toNat _ (by decide),
    byte_shiftLeft_toNat _ (by decide), UInt8.toNat_toUInt64]
  simp [symFields, pack, totalWidth, Nat.or_assoc]

theorem getEncForStreamWithSymStart_eq :
    (x.getEncForStreamWithSymStart t s).toNat = pack (x.streamFields t s) := by
  simp only [getEncForStreamWithSymStart, UInt64.toNat_or]
  rw [frame_shiftLeft_wide, byte_shiftLeft_toNat _ (by decide), byte_shiftLeft_toNat _ (by decide),
    byte_shiftLeft_toNat _ (by decide), byte_shiftLeft_toNat _ (by decide), UInt8.toNat_toUInt64]
  simp [streamFields, sharedByte, pack, totalWidth, Nat.or_assoc, Nat.shiftLeft_or_distrib]

/-- The packing that carries the symbol start alone is injective. -/
theorem eq_of_getEncodingWithSymStart (hx : x.Admitted) (hy : y.Admitted)
    (h : x.getEncodingWithSymStart s = y.getEncodingWithSymStart s') : x = y ∧ s = s' := by
  obtain ⟨c, hC, hCode⟩ := getEncodingWithSymStart_eq (s := s) hx
  obtain ⟨d, hD, hCode'⟩ := getEncodingWithSymStart_eq (s := s') hy
  have hSame : c = d := Option.some.inj (hC ▸ hD ▸ h)
  have hFields : x.symFields s = y.symFields s' :=
    pack_injective rfl symFields_fit symFields_fit (by rw [← hCode, ← hCode', hSame])
  cases x
  cases y
  simpa [symFields, UInt32.toNat_inj, UInt8.toNat_inj, and_assoc] using hFields

/-- Two streams have one code exactly when they agree in the shared byte, in the lower half of the
frame number and in the other fields. -/
theorem getEncForStreamWithSymStart_eq_iff :
    x.getEncForStreamWithSymStart t s = y.getEncForStreamWithSymStart t' s' ↔
      x.sharedByte = y.sharedByte ∧ x.frameNum.toNat % 2 ^ 16 = y.frameNum.toNat % 2 ^ 16 ∧
        x.subframeNum = y.subframeNum ∧ x.slotNum = y.slotNum ∧ s = s' ∧ t = t' := by
  rw [← UInt64.toNat_inj, getEncForStreamWithSymStart_eq, getEncForStreamWithSymStart_eq]
  constructor
  · intro hCode
    have hFields : x.streamFields t s = y.streamFields t' s' :=
      pack_injective rfl streamFields_fit streamFields_fit hCode
    simpa [streamFields, UInt8.toNat_inj] using hFields
  · rintro ⟨hShared, hFrame, hSub, hSlot, rfl, rfl⟩
    simp only [streamFields, hShared, hFrame, hSub, hSlot]

/-- A frame number of sixteen bits leaves the shared byte to the numerology. -/
theorem sharedByte_of_lt (h : x.frameNum.toNat < 2 ^ 16) : x.sharedByte = x.numerology.toNat := by
  rw [sharedByte, Nat.div_eq_of_lt h, Nat.zero_mod, Nat.or_zero]

theorem getEncoding_eq (h : x.Admitted) :
    ∃ code, x.getEncoding = some code ∧ code.toNat = pack (x.symFields 0) := by
  obtain ⟨code, hCode, hPack⟩ := getEncodingWithSymStart_eq (s := 0) h
  refine ⟨code, ?_, hPack⟩
  rw [← hCode, getEncodingWithSymStart, getEncoding]
  simp

theorem masked_read (sfn : UInt64) {mask k : UInt64} {w : ℕ} (hK : k.toNat < 64)
    (hMask : mask.toNat >>> k.toNat = 2 ^ w - 1) :
    ((sfn &&& mask) >>> k).toNat = sfn.toNat >>> k.toNat % 2 ^ w := by
  rw [UInt64.toNat_shiftRight, Nat.mod_eq_of_lt hK, UInt64.toNat_and, Nat.shiftRight_and_distrib,
    hMask, Nat.and_two_pow_sub_one_eq_mod]

/-- What is unpacked from the code of a slot is the slot. -/
theorem fromEncoding_getEncoding (h : x.Admitted) : x.getEncoding.map fromEncoding = some x := by
  obtain ⟨code, hCode, hPack⟩ := getEncoding_eq h
  have hRead : ∀ gs f fs, x.symFields 0 = gs ++ f :: fs →
      code.toNat >>> totalWidth fs % 2 ^ f.width = f.value := by
    intro gs f fs hSplit
    have hFit : ∀ g ∈ gs ++ f :: fs, g.Fits := fun g hg => symFields_fit g (hSplit ▸ hg)
    rw [hPack, hSplit]
    exact pack_append_read (fun g hg => hFit g (List.mem_append_right gs hg))
      fun g hg => hFit g (List.mem_append_left _ hg)
  have hByte : ∀ (a : UInt8) (mask k : UInt64), k.toNat < 64 →
      mask.toNat >>> k.toNat = 2 ^ 8 - 1 → code.toNat >>> k.toNat % 2 ^ 8 = a.toNat →
      ((code &&& mask) >>> k).toUInt8 = a := by
    intro a mask k hK hMask hA
    rw [← UInt8.toNat_inj, UInt64.toNat_toUInt8, masked_read (w := 8) code hK hMask, hA,
      Nat.mod_eq_of_lt a.toNat_lt]
  have hFrame : ((code &&& 0xFFFFFFFF00000000) >>> 32).toUInt32 = x.frameNum := by
    rw [← UInt32.toNat_inj, UInt64.toNat_toUInt32, masked_read (w := 32) code (by decide) (by decide),
      Nat.mod_mod]
    exact hRead [] _ _ rfl
  rw [hCode, Option.map_some, fromEncoding, hFrame,
    hByte x.subframeNum _ 24 (by decide) (by decide) (hRead [_] _ _ rfl),
    hByte x.slotNum _ 16 (by decide) (by decide) (hRead [_, _] _ _ rfl),
    hByte x.numerology _ 8 (by decide) (by decide) (hRead [_, _, _] _ _ rfl)]

/-! ## Codes as map keys -/

/-- The packings restore the slot and tell slots, symbol starts and streams apart, as long as the
frame numbers stay below `bound`. -/
def KeysDistinctBelow (bound : ℕ) : Prop :=
  ∀ x y : SfnSf, x.Admitted → y.Admitted →
    x.frameNum.toNat < bound → y.frameNum.toNat < bound → ∀ s s' t t' : UInt8,
      x.getEncoding.map fromEncoding = some x ∧
      (x.getEncodingWithSymStart s = y.getEncodingWithSymStart s' → x = y ∧ s = s') ∧
      (x.getEncForStreamWithSymStart t s = y.getEncForStreamWithSymStart t' s' →
        x = y ∧ s = s' ∧ t = t')

theorem keysDistinctBelow_iff (bound : ℕ) : KeysDistinctBelow bound ↔ bound ≤ 2 ^ 16 := by
  constructor
  · intro hDistinct
    by_contra hLarge
    -- At numerology 1 the bit that frame 65536 adds to the top byte is already set.
    have hKeys := (hDistinct ⟨65536, 0, 0, 1⟩ ⟨0, 0, 0, 1⟩ (by decide) (by decide)
      (Nat.lt_of_not_le hLarge) ((Nat.zero_le _).trans_lt (Nat.lt_of_not_le hLarge)) 0 0 0 0).2.2
    exact absurd (hKeys (by decide)).1 (by decide)
  · intro hBound x y hx hy hFrame hFrame' s s' t t'
    refine ⟨fromEncoding_getEncoding hx, eq_of_getEncodingWithSymStart hx hy, ?_⟩
    intro hCode
    have hX := hFrame.trans_le hBound
    have hY := hFrame'.trans_le hBound
    obtain ⟨hShared, hLow, hSub, hSlot, hSym, hStream⟩ :=
      getEncForStreamWithSymStart_eq_iff.mp hCode
    rw [sharedByte_of_lt hX, sharedByte_of_lt hY, UInt8.toNat_inj] at hShared
    rw [Nat.mod_eq_of_lt hX, Nat.mod_eq_of_lt hY, UInt32.toNat_inj] at hLow
    cases x
    cases y
    simp_all

theorem keys_collide : ¬ ∀ x y : SfnSf, x.Admitted → y.Admitted → ∀ s s' t t' : UInt8,
    x.getEncoding.map fromEncoding = some x ∧
    (x.getEncodingWithSymStart s = y.getEncodingWithSymStart s' → x = y ∧ s = s') ∧
    (x.getEncForStreamWithSymStart t s = y.getEncForStreamWithSymStart t' s' →
      x = y ∧ s = s' ∧ t = t') := by
  intro hDistinct
  have hKeys := (hDistinct ⟨65536, 0, 0, 1⟩ ⟨0, 0, 0, 1⟩ (by decide) (by decide) 0 0 0 0).2.2
  exact absurd (hKeys (by decide)).1 (by decide)

end SfnSf
end Bullet.Phy
