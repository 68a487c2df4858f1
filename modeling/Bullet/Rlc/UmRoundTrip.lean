import Bullet.Rlc.UmHeader

/-! # Round trip of the RLC UM header -/

namespace Bullet.Rlc

open Lib.BitFields

/-- The header is written in as many bytes as it says, and a header read from them is the same and
consumes them all, whatever follows. -/
def RoundTrips {H : Type} (serialize : H → Option (List UInt8)) (getSerializedSize : H → ℕ)
    (deserialize : List UInt8 → Option (H × List UInt8)) (Same : H → H → Prop) (h : H) : Prop :=
  ∃ w, serialize h = some w ∧ w.length = getSerializedSize h ∧
    ∀ payload, ∃ h', deserialize (w ++ payload) = some (h', payload) ∧
      getSerializedSize h' = w.length ∧ Same h h'

theorem or_high_low (s : SequenceNumber10) :
    (s.getValue >>> 8 % 2 ^ 2) <<< 8 ||| s.getValue % 2 ^ 8 = s.getValue := by
  have hLt : s.getValue >>> 8 < 2 ^ 2 := by
    have hValue : s.getValue < 1024 := s.value.isLt
    rw [Nat.shiftRight_eq_div_pow]
    omega
  rw [Nat.mod_eq_of_lt hLt]
  exact shiftRight_or_mod _ 8

theorem assign_getValue (s t : SequenceNumber10) : (s.assign t.getValue).value = t.value :=
  Fin.ext (Nat.mod_eq_of_lt t.value.isLt)

/-- The length kept by hand counts the entries that are announced. -/
def Counted (base : ℕ) (bits : List ℕ) (headerLength : ℕ) : Prop :=
  headerLength = (base + entryBytes (bits.length - 1)) % 65536

theorem Counted.next {base headerLength : ℕ} {bits : List ℕ} (h : Counted base bits headerLength)
    (hBits : 0 < bits.length) :
    (if (bits.length + 1) % 2 ≠ 0 then (headerLength + 1) % 65536 else (headerLength + 2) % 65536) =
      (base + entryBytes bits.length) % 65536 := by
  unfold Counted entryBytes at h
  unfold entryBytes
  split <;> omega

namespace LteRlcHeader

variable {h : LteRlcHeader} {lis : List ℕ}

theorem pushExtensionBit_spec (e : ℕ)
    (hLength : h.extensionBits = [] ∨ Counted 2 h.extensionBits h.headerLength) :
    h.pushExtensionBit e = { h with
      extensionBits := h.extensionBits ++ [e]
      headerLength := (2 + entryBytes h.extensionBits.length) % 65536 } := by
  rw [pushExtensionBit, List.length_append, List.length_singleton]
  cases hBits : h.extensionBits with
  | nil => rfl
  | cons b bs =>
    rw [hBits] at hLength
    have hNext := (hLength.resolve_left (List.cons_ne_nil b bs)).next (Nat.succ_pos _)
    rw [if_neg (by simp), hNext]

theorem pushEntries_spec (lis : List ℕ) (h : LteRlcHeader)
    (hLength : h.extensionBits = [] ∨ Counted 2 h.extensionBits h.headerLength) :
    h.pushEntries lis = { h with
      extensionBits := h.extensionBits ++ entryBits lis
      lengthIndicators := h.lengthIndicators ++ lis
      headerLength := (2 + entryBytes (h.extensionBits.length + lis.length)) % 65536 } := by
  induction lis generalizing h with
  | nil =>
    rw [List.append_nil]
    exact pushExtensionBit_spec DATA_FIELD_FOLLOWS hLength
  | cons li lis ih =>
    have hPush := pushExtensionBit_spec E_LI_FIELDS_FOLLOWS hLength
    rw [pushEntries, List.foldl_cons, ← pushEntries, hPush, ih]
    · simp [pushLengthIndicator, entryBits, Nat.add_comm, Nat.add_left_comm]
    · right
      simp [Counted, pushLengthIndicator]

/-- The header of a PDU: any framing info, any sequence number, any length indicators. -/
def ofFields (framingInfo : ℕ) (sequenceNumber : SequenceNumber10) (lis : List ℕ) :
    LteRlcHeader :=
  ((({} : LteRlcHeader).setFramingInfo framingInfo).setSequenceNumber sequenceNumber).pushEntries
    lis

structure Same (h h' : LteRlcHeader) : Prop where
  headerLength : h'.headerLength = h.headerLength
  framingInfo : h'.framingInfo = h.framingInfo
  sequenceNumber : h'.sequenceNumber.value = h.sequenceNumber.value
  extensionBits : h'.extensionBits = h.extensionBits
  lengthIndicators : h'.lengthIndicators = h.lengthIndicators

theorem firstByte_eq (fi e sn : ℕ) :
    (WriteU8 (((fi <<< 3) &&& 0x18) ||| ((e <<< 2) &&& 0x04) ||| ((sn >>> 8) &&& 0x03))).toNat =
      pack [low 3 0, low 2 fi, low 1 e, low 2 (sn >>> 8)] := by
  rw [← toNat_WriteU8_pack (by simp) rfl, pack_low_cons, pack_low_cons, pack_low_cons, pack_low,
    Nat.or_assoc, Nat.zero_shiftLeft, Nat.zero_and, Nat.zero_or]
  rfl

theorem read_framingInfo (fi e sn : ℕ) :
    (pack [low 3 0, low 2 fi, low 1 e, low 2 sn] &&& 0x18) >>> 3 = fi % 2 ^ 2 :=
  read_low [low 3 0] 2 fi [low 1 e, low 2 sn] (by simp) (by simp)

theorem read_extensionBit (fi e sn : ℕ) :
    (pack [low 3 0, low 2 fi, low 1 e, low 2 sn] &&& 0x04) >>> 2 = e % 2 :=
  read_low [low 3 0, low 2 fi] 1 e [low 2 sn] (by simp) (by simp)

theorem read_sequenceNumber (fi e : ℕ) (sn : SequenceNumber10) :
    ((pack [low 3 0, low 2 fi, low 1 e, low 2 (sn.getValue >>> 8)] &&& 0x03) <<< 8) |||
      pack [low 8 sn.getValue] = sn.getValue := by
  have hHigh := read_low [low 3 0, low 2 fi, low 1 e] 2 (sn.getValue >>> 8) [] (by simp) (by simp)
  have hLow : pack [low 8 sn.getValue] = sn.getValue % 2 ^ 8 := Nat.or_zero _
  calc
    _ = (sn.getValue >>> 8 % 2 ^ 2) <<< 8 ||| sn.getValue % 2 ^ 8 :=
      congrArg₂ (fun a b => a <<< 8 ||| b) hHigh hLow
    _ = sn.getValue := or_high_low sn

variable (fi : ℕ) (sn : SequenceNumber10)

theorem ofFields_eq (lis : List ℕ) : ofFields fi sn lis =
    { headerLength := (2 + entryBytes lis.length) % 65536
      framingInfo := fi &&& 0x03
      sequenceNumber := sn
      extensionBits := entryBits lis
      lengthIndicators := lis } := by
  rw [ofFields, pushEntries_spec lis _ (Or.inl rfl)]
  simp [setFramingInfo, setSequenceNumber]

/-- The bytes of a header. -/
def bytes (lis : List ℕ) : List UInt8 :=
  WriteU8 ((((fi &&& 0x03) <<< 3) &&& 0x18) |||
      (((if lis = [] then DATA_FIELD_FOLLOWS else E_LI_FIELDS_FOLLOWS) <<< 2) &&& 0x04) |||
      ((sn.getValue >>> 8) &&& 0x03)) ::
    WriteU8 (sn.getValue &&& 0xFF) :: serializeLengthIndicators (entryBits lis).tail lis

theorem serialize_ofFields (lis : List ℕ) :
    (ofFields fi sn lis).serialize = some (bytes fi sn lis) := by
  rw [ofFields_eq]
  cases lis with
  | nil => rfl
  | cons li lis => rfl

theorem length_bytes (lis : List ℕ) : (bytes fi sn lis).length = 2 + entryBytes lis.length := by
  cases lis with
  | nil => rfl
  | cons li lis =>
    have hRest := length_serializeLengthIndicators li lis
    simp only [bytes, entryBits, List.tail_cons, List.length_cons, hRest]
    omega

/-- What `Deserialize` reads: the sequence number's base is the new header's own. -/
theorem deserialize_bytes (lis : List ℕ) (payload : List UInt8) (hLis : ∀ li ∈ lis, li < 2048) :
    ({} : LteRlcHeader).deserialize (bytes fi sn lis ++ payload) =
      some ({ ofFields fi sn lis with
        sequenceNumber := ({} : LteRlcHeader).sequenceNumber.assign sn.getValue }, payload) := by
  have hInfo : (fi &&& 0x03) % 2 ^ 2 = fi &&& 0x03 :=
    Nat.mod_eq_of_lt (Nat.and_lt_two_pow fi (by decide))
  rw [bytes, List.cons_append, List.cons_append, deserialize, ofFields_eq]
  simp only [firstByte_eq, thirdByte_eq, read_extensionBit, read_framingInfo, read_sequenceNumber,
    hInfo]
  cases lis with
  | nil => rfl
  | cons li lis =>
    have hBit : E_LI_FIELDS_FOLLOWS % 2 = E_LI_FIELDS_FOLLOWS := rfl
    rw [if_neg (List.cons_ne_nil li lis), entryBits, List.tail_cons, if_pos hBit]
    exact congrArg (Option.map _)
      (deserialize_serialize_lengthIndicators payload lis li ⟨[1], [], 2⟩ hLis)

theorem um_roundTrips_iff (lis : List ℕ) (hLis : ∀ li ∈ lis, li < 2048) :
    RoundTrips serialize getSerializedSize ({} : LteRlcHeader).deserialize Same
      (ofFields fi sn lis) ↔ 2 + entryBytes lis.length < 65536 := by
  have hSize : (ofFields fi sn lis).getSerializedSize = (2 + entryBytes lis.length) % 65536 := by
    rw [ofFields_eq]
    rfl
  constructor
  · rintro ⟨w, hBytes, hLength, -⟩
    cases hBytes.symm.trans (serialize_ofFields fi sn lis)
    rw [length_bytes, hSize] at hLength
    rw [hLength]
    exact Nat.mod_lt _ (by decide)
  · intro hShort
    have hLength : (bytes fi sn lis).length = (ofFields fi sn lis).getSerializedSize := by
      rw [length_bytes, hSize, Nat.mod_eq_of_lt hShort]
    refine ⟨_, serialize_ofFields fi sn lis, hLength, ?_⟩
    intro payload
    refine ⟨_, deserialize_bytes fi sn lis payload hLis, hLength.symm, ?_⟩
    constructor
    all_goals try rfl
    rw [ofFields_eq]
    exact assign_getValue _ sn

end LteRlcHeader

end Bullet.Rlc
