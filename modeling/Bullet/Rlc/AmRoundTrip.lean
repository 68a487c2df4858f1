import Bullet.Rlc.AmHeader
import Bullet.Rlc.UmRoundTrip

/-! # Round trips of the RLC AM headers

A data header comes back but for its segment offset, whose two bytes are joined without a shift. A
STATUS header always comes back. Both need that the length kept by hand does not wrap.
-/

namespace Bullet.Rlc

open Lib.BitFields

namespace LteRlcAmHeader

variable {h : LteRlcAmHeader}

theorem pushExtensionBit_spec (e : ℕ) (hLength : Counted 4 h.extensionBits h.headerLength) :
    h.pushExtensionBit e = { h with
      extensionBits := h.extensionBits ++ [e]
      headerLength := (4 + entryBytes h.extensionBits.length) % 65536 } := by
  rw [pushExtensionBit, List.length_append, List.length_singleton]
  cases hBits : h.extensionBits with
  | nil =>
    rw [hBits] at hLength
    rw [if_neg (by simp), hLength]
    rfl
  | cons b bs =>
    rw [hBits] at hLength
    rw [if_pos (by simp), hLength.next (Nat.succ_pos _)]

theorem pushEntries_spec (lis : List ℕ) (h : LteRlcAmHeader)
    (hLength : Counted 4 h.extensionBits h.headerLength) :
    h.pushEntries lis = { h with
      extensionBits := h.extensionBits ++ entryBits lis
      lengthIndicators := h.lengthIndicators ++ lis
      headerLength := (4 + entryBytes (h.extensionBits.length + lis.length)) % 65536 } := by
  induction lis generalizing h with
  | nil =>
    rw [List.append_nil]
    exact pushExtensionBit_spec DATA_FIELD_FOLLOWS hLength
  | cons li lis ih =>
    have hPush := pushExtensionBit_spec E_LI_FIELDS_FOLLOWS hLength
    rw [pushEntries, List.foldl_cons, ← pushEntries, hPush, ih]
    · simp [pushLengthIndicator, entryBits, Nat.add_comm, Nat.add_left_comm]
    · simp [Counted, pushLengthIndicator]

/-! ## Data PDUs -/

/-- The fields a data header is built from; the last segment flag is uninitialised before it is
set. -/
structure DataFields where
  uninitialised : ℕ
  resegmentationFlag : ℕ
  pollingBit : ℕ
  framingInfo : ℕ
  sequenceNumber : SequenceNumber10
  lastSegmentFlag : ℕ
  segmentOffset : ℕ
  lengthIndicators : List ℕ

def ofData (d : DataFields) : LteRlcAmHeader :=
  (((((((({ lastSegmentFlag := d.uninitialised } : LteRlcAmHeader).setDataPdu).setFramingInfo
    d.framingInfo).setSequenceNumber d.sequenceNumber).setResegmentationFlag
    d.resegmentationFlag).setPollingBit d.pollingBit).setLastSegmentFlag
    d.lastSegmentFlag).setSegmentOffset d.segmentOffset).pushEntries d.lengthIndicators

/-- `m_lastOffset` is not on the wire: only `Deserialize` computes it. -/
structure SameData (h h' : LteRlcAmHeader) : Prop where
  headerLength : h'.headerLength = h.headerLength
  dataControlBit : h'.dataControlBit = h.dataControlBit
  resegmentationFlag : h'.resegmentationFlag = h.resegmentationFlag
  pollingBit : h'.pollingBit = h.pollingBit
  framingInfo : h'.framingInfo = h.framingInfo
  sequenceNumber : h'.sequenceNumber.value = h.sequenceNumber.value
  lastSegmentFlag : h'.lastSegmentFlag = h.lastSegmentFlag
  segmentOffset : h'.segmentOffset = h.segmentOffset
  extensionBits : h'.extensionBits = h.extensionBits
  lengthIndicators : h'.lengthIndicators = h.lengthIndicators

variable (rf p fi e sn lsf so : ℕ)

theorem dataByte_eq :
    (WriteU8 (((DATA_PDU <<< 7) &&& 0x80) ||| ((rf <<< 6) &&& 0x40) ||| ((p <<< 5) &&& 0x20) |||
      ((fi <<< 3) &&& 0x18) ||| ((e <<< 2) &&& 0x04) ||| ((sn >>> 8) &&& 0x03))).toNat =
      pack [low 1 1, low 1 rf, low 1 p, low 2 fi, low 1 e, low 2 (sn >>> 8)] := by
  rw [← toNat_WriteU8_pack (by simp) rfl, pack_low_cons, pack_low_cons, pack_low_cons,
    pack_low_cons, pack_low_cons, pack_low]
  simp only [Nat.or_assoc]
  rfl

theorem offsetByte_eq :
    (WriteU8 (((lsf <<< 7) &&& 0x80) ||| ((so >>> 8) &&& 0x7F))).toNat =
      pack [low 1 lsf, low 7 (so >>> 8)] := by
  rw [← toNat_WriteU8_pack (by simp) rfl, pack_low_cons, pack_low]
  rfl

theorem read_dataControlBit :
    (pack [low 1 1, low 1 rf, low 1 p, low 2 fi, low 1 e, low 2 sn] &&& 0x80) >>> 7 = 1 :=
  read_low [] 1 1 [low 1 rf, low 1 p, low 2 fi, low 1 e, low 2 sn] (by simp) (by simp)

theorem read_resegmentationFlag :
    (pack [low 1 1, low 1 rf, low 1 p, low 2 fi, low 1 e, low 2 sn] &&& 0x40) >>> 6 = rf % 2 :=
  read_low [low 1 1] 1 rf [low 1 p, low 2 fi, low 1 e, low 2 sn] (by simp) (by simp)

theorem read_pollingBit :
    (pack [low 1 1, low 1 rf, low 1 p, low 2 fi, low 1 e, low 2 sn] &&& 0x20) >>> 5 = p % 2 :=
  read_low [low 1 1, low 1 rf] 1 p [low 2 fi, low 1 e, low 2 sn] (by simp) (by simp)

theorem read_framingInfo :
    (pack [low 1 1, low 1 rf, low 1 p, low 2 fi, low 1 e, low 2 sn] &&& 0x18) >>> 3 = fi % 2 ^ 2 :=
  read_low [low 1 1, low 1 rf, low 1 p] 2 fi [low 1 e, low 2 sn] (by simp) (by simp)

theorem read_extensionBit :
    (pack [low 1 1, low 1 rf, low 1 p, low 2 fi, low 1 e, low 2 sn] &&& 0x04) >>> 2 = e % 2 :=
  read_low [low 1 1, low 1 rf, low 1 p, low 2 fi] 1 e [low 2 sn] (by simp) (by simp)

theorem read_sequenceNumber (sn : SequenceNumber10) :
    ((pack [low 1 1, low 1 rf, low 1 p, low 2 fi, low 1 e, low 2 (sn.getValue >>> 8)] &&& 0x03)
      <<< 8) ||| pack [low 8 sn.getValue] = sn.getValue := by
  have hHigh := read_low [low 1 1, low 1 rf, low 1 p, low 2 fi, low 1 e] 2 (sn.getValue >>> 8) []
    (by simp) (by simp)
  have hLow : pack [low 8 sn.getValue] = sn.getValue % 2 ^ 8 := Nat.or_zero _
  calc
    _ = (sn.getValue >>> 8 % 2 ^ 2) <<< 8 ||| sn.getValue % 2 ^ 8 :=
      congrArg₂ (fun a b => a <<< 8 ||| b) hHigh hLow
    _ = sn.getValue := or_high_low sn

theorem read_lastSegmentFlag : (pack [low 1 lsf, low 7 so] &&& 0x80) >>> 7 = lsf % 2 :=
  read_low [] 1 lsf [low 7 so] (by simp) (by simp)

/-- The offset that is read back: its upper bits meet its lower ones. -/
theorem read_segmentOffset :
    (pack [low 1 lsf, low 7 (so >>> 8)] &&& 0x7F) ||| pack [low 8 so] =
      so >>> 8 % 2 ^ 7 ||| so % 2 ^ 8 := by
  have hHigh := read_low [low 1 lsf] 7 (so >>> 8) [] (by simp) (by simp)
  have hLow : pack [low 8 so] = so % 2 ^ 8 := Nat.or_zero _
  exact congrArg₂ (· ||| ·) hHigh hLow

theorem offset_kept_iff : so >>> 8 % 2 ^ 7 ||| so % 2 ^ 8 = so ↔ so < 256 := by
  constructor
  · intro hKept
    have hHigh : so >>> 8 % 2 ^ 7 < 2 ^ 8 := (Nat.mod_lt _ (by decide)).trans (by decide)
    rw [← hKept]
    exact Nat.or_lt_two_pow hHigh (Nat.mod_lt _ (by decide))
  · intro hSmall
    have hLow : so % 2 ^ 8 = so := Nat.mod_eq_of_lt hSmall
    rw [Nat.shiftRight_eq_div_pow, Nat.div_eq_of_lt hSmall, Nat.zero_mod, Nat.zero_or, hLow]

variable (d : DataFields)

theorem ofData_eq : ofData d =
    { headerLength := (4 + entryBytes d.lengthIndicators.length) % 65536
      dataControlBit := DATA_PDU
      resegmentationFlag := d.resegmentationFlag &&& 0x01
      pollingBit := d.pollingBit &&& 0x01
      framingInfo := d.framingInfo &&& 0x03
      sequenceNumber := d.sequenceNumber
      lastSegmentFlag := d.lastSegmentFlag &&& 0x01
      segmentOffset := d.segmentOffset &&& 0x7FFF
      extensionBits := entryBits d.lengthIndicators
      lengthIndicators := d.lengthIndicators } := by
  rw [ofData, pushEntries_spec]
  · simp [setDataPdu, setFramingInfo, setSequenceNumber, setResegmentationFlag, setPollingBit,
      setLastSegmentFlag, setSegmentOffset]
  · exact Eq.symm (Nat.mod_eq_of_lt (by decide : 4 + entryBytes 0 < 65536))

/-- The bytes of a data header. -/
def dataBytes : List UInt8 :=
  WriteU8 (((DATA_PDU <<< 7) &&& 0x80) ||| (((d.resegmentationFlag &&& 0x01) <<< 6) &&& 0x40) |||
      (((d.pollingBit &&& 0x01) <<< 5) &&& 0x20) ||| (((d.framingInfo &&& 0x03) <<< 3) &&& 0x18) |||
      (((if d.lengthIndicators = [] then DATA_FIELD_FOLLOWS else E_LI_FIELDS_FOLLOWS) <<< 2) &&&
        0x04) ||| ((d.sequenceNumber.getValue >>> 8) &&& 0x03)) ::
    WriteU8 (d.sequenceNumber.getValue &&& 0xFF) ::
    WriteU8 ((((d.lastSegmentFlag &&& 0x01) <<< 7) &&& 0x80) |||
      (((d.segmentOffset &&& 0x7FFF) >>> 8) &&& 0x7F)) ::
    WriteU8 ((d.segmentOffset &&& 0x7FFF) &&& 0xFF) ::
    serializeLengthIndicators (entryBits d.lengthIndicators).tail d.lengthIndicators

theorem serialize_ofData : (ofData d).serialize = some (dataBytes d) := by
  rw [ofData_eq, dataBytes]
  cases d.lengthIndicators with
  | nil => rfl
  | cons li lis => rfl

theorem length_dataBytes : (dataBytes d).length = 4 + entryBytes d.lengthIndicators.length := by
  rw [dataBytes]
  cases d.lengthIndicators with
  | nil => rfl
  | cons li lis =>
    have hRest := length_serializeLengthIndicators li lis
    simp only [entryBits, List.tail_cons, List.length_cons, hRest]
    omega

/-- What `Deserialize` reads from a data header, but for the last offset. -/
theorem deserialize_dataBytes (u : ℕ) (payload : List UInt8)
    (hLis : ∀ li ∈ d.lengthIndicators, li < 2048) :
    ∃ lastOffset, ({ lastSegmentFlag := u } : LteRlcAmHeader).deserialize (dataBytes d ++ payload) =
      some ({ ofData d with
        sequenceNumber := (SequenceNumber10.mk' 0xfffa).assign d.sequenceNumber.getValue
        segmentOffset := (d.segmentOffset &&& 0x7FFF) >>> 8 % 2 ^ 7 |||
          (d.segmentOffset &&& 0x7FFF) % 2 ^ 8
        lastOffset := lastOffset }, payload) := by
  have hInfo : (d.framingInfo &&& 0x03) % 2 ^ 2 = d.framingInfo &&& 0x03 :=
    Nat.mod_eq_of_lt (Nat.and_lt_two_pow _ (by decide))
  have hBit : ∀ b, (b &&& 0x01) % 2 = b &&& 0x01 :=
    fun b => Nat.mod_eq_of_lt (Nat.and_lt_two_pow b (n := 1) (by decide))
  rw [dataBytes, ofData_eq]
  simp only [List.cons_append, deserialize, deserializeData, dataByte_eq, offsetByte_eq,
    thirdByte_eq, read_dataControlBit, read_resegmentationFlag, read_pollingBit, read_framingInfo,
    read_extensionBit, read_sequenceNumber, read_lastSegmentFlag, read_segmentOffset, hInfo, hBit]
  cases hLi : d.lengthIndicators with
  | nil => exact ⟨0xffff, rfl⟩
  | cons li lis =>
    have hBit : E_LI_FIELDS_FOLLOWS % 2 ≠ DATA_FIELD_FOLLOWS := by decide
    rw [hLi] at hLis
    have hRest := deserialize_serialize_lengthIndicators payload lis li ⟨[1], [], 4⟩ hLis
    rw [if_neg (List.cons_ne_nil li lis), entryBits, List.tail_cons, if_neg hBit]
    refine Exists.imp (fun _ h => (congrArg (Option.map _) hRest).trans h) ?_
    rw [Option.map_some]
    split
    · exact ⟨_, rfl⟩
    · exact ⟨_, rfl⟩

theorem roundTrips_data_iff (hLis : ∀ li ∈ d.lengthIndicators, li < 2048) (u : ℕ) :
    RoundTrips serialize getSerializedSize ({ lastSegmentFlag := u } : LteRlcAmHeader).deserialize
        SameData (ofData d) ↔
      d.segmentOffset &&& 0x7FFF < 256 ∧ 4 + entryBytes d.lengthIndicators.length < 65536 := by
  have hSize : (ofData d).getSerializedSize =
      (4 + entryBytes d.lengthIndicators.length) % 65536 := by
    rw [ofData_eq]
    rfl
  have hOffset : (ofData d).segmentOffset = d.segmentOffset &&& 0x7FFF := by rw [ofData_eq]
  constructor
  · rintro ⟨w, hBytes, hLength, hRead⟩
    cases hBytes.symm.trans (serialize_ofData d)
    rw [length_dataBytes, hSize] at hLength
    obtain ⟨h', hRead, -, hSame⟩ := hRead []
    obtain ⟨lastOffset, hSpec⟩ := deserialize_dataBytes d u [] hLis
    cases Option.some.inj (hRead.symm.trans hSpec)
    constructor
    · rw [← offset_kept_iff, ← hOffset]
      have hKept := hSame.segmentOffset
      rw [hOffset] at hKept ⊢
      exact hKept
    · rw [hLength]
      exact Nat.mod_lt _ (by decide)
  · rintro ⟨hSmall, hShort⟩
    have hLength : (dataBytes d).length = (ofData d).getSerializedSize := by
      rw [length_dataBytes, hSize, Nat.mod_eq_of_lt hShort]
    refine ⟨_, serialize_ofData d, hLength, ?_⟩
    intro payload
    obtain ⟨lastOffset, hSpec⟩ := deserialize_dataBytes d u payload hLis
    refine ⟨_, hSpec, hLength.symm, ?_⟩
    constructor
    all_goals try rfl
    · rw [ofData_eq]
      exact assign_getValue _ d.sequenceNumber
    · rw [hOffset]
      exact (offset_kept_iff _).mpr hSmall

/-! ## STATUS PDUs -/

def ofStatus (u : ℕ) (ackSn : SequenceNumber10) (nacks : List ℕ) : Option LteRlcAmHeader := do
  let h ← nacks.foldlM pushNack (({ lastSegmentFlag := u } : LteRlcAmHeader).setControlPdu STATUS_PDU)
  pure (h.setAckSn ackSn)

structure SameStatus (h h' : LteRlcAmHeader) : Prop where
  headerLength : h'.headerLength = h.headerLength
  dataControlBit : h'.dataControlBit = h.dataControlBit
  controlPduType : h'.controlPduType = h.controlPduType
  ackSn : h'.ackSn.value = h.ackSn.value
  nackSnList : h'.nackSnList = h.nackSnList

theorem pushNack_spec (nack : ℕ) (hStatus : h.IsStatusPdu)
    (hLength : h.headerLength = (2 + entryBytes h.nackSnList.length) % 65536) :
    h.pushNack nack = some { h with
      nackSnList := h.nackSnList ++ [nack]
      headerLength := (2 + entryBytes (h.nackSnList.length + 1)) % 65536 } := by
  have hNext : (if (h.nackSnList.length + 1) % 2 = 0 then (h.headerLength + 1) % 65536
      else (h.headerLength + 2) % 65536) = (2 + entryBytes (h.nackSnList.length + 1)) % 65536 := by
    unfold entryBytes at hLength ⊢
    split <;> omega
  rw [pushNack, if_pos hStatus]
  dsimp only
  rw [List.length_append, List.length_singleton, hNext]

theorem pushNacks_spec (nacks : List ℕ) (h : LteRlcAmHeader) (hStatus : h.IsStatusPdu)
    (hLength : h.headerLength = (2 + entryBytes h.nackSnList.length) % 65536) :
    nacks.foldlM pushNack h = some { h with
      nackSnList := h.nackSnList ++ nacks
      headerLength := (2 + entryBytes (h.nackSnList.length + nacks.length)) % 65536 } := by
  induction nacks generalizing h with
  | nil =>
    rw [List.append_nil, List.length_nil, Nat.add_zero, ← hLength]
    rfl
  | cons nack nacks ih =>
    rw [List.foldlM_cons, pushNack_spec nack hStatus hLength]
    refine Eq.trans (ih _ ?_ ?_) ?_
    · exact hStatus
    · rw [List.length_append]
      rfl
    · simp [Nat.add_comm, Nat.add_left_comm]

variable (u : ℕ) (ackSn : SequenceNumber10) (nacks : List ℕ)

theorem ofStatus_eq : ofStatus u ackSn nacks = some
    { lastSegmentFlag := u
      headerLength := (2 + entryBytes nacks.length) % 65536
      dataControlBit := CONTROL_PDU
      controlPduType := STATUS_PDU
      ackSn := ackSn
      nackSnList := nacks } := by
  rw [ofStatus, pushNacks_spec nacks _ ⟨rfl, rfl⟩]
  · simp [setControlPdu, setAckSn]
  · exact Eq.symm (Nat.mod_eq_of_lt (by decide : 2 + entryBytes 0 < 65536))

variable (more odd even x : ℕ)

theorem controlByte_eq (cpt ack : ℕ) :
    (WriteU8 (((CONTROL_PDU <<< 7) &&& 0x80) ||| ((cpt <<< 4) &&& 0x70) |||
      ((ack >>> 6) &&& 0x0F))).toNat = pack [low 1 0, low 3 cpt, low 4 (ack >>> 6)] := by
  rw [← toNat_WriteU8_pack (by simp) rfl, pack_low_cons, pack_low_cons, pack_low, Nat.or_assoc]
  rfl

theorem ackByte_eq (ack : ℕ) :
    (WriteU8 (((ack <<< 2) &&& 0xFC) ||| 0x02 ||| ((odd >>> 9) &&& 0x01))).toNat =
      pack [low 6 ack, low 1 1, low 1 (odd >>> 9)] := by
  rw [← toNat_WriteU8_pack (by simp) rfl, pack_low_cons, pack_low_cons, pack_low, Nat.or_assoc]
  simp [totalWidth, low, mask]

theorem lastAckByte_eq (ack : ℕ) :
    (WriteU8 ((ack <<< 2) &&& 0xFC)).toNat = pack [low 6 ack, low 1 0, low 1 0] := by
  rw [← toNat_WriteU8_pack (by simp) rfl, pack_low_cons]
  exact congrArg (fun v => (WriteU8 v).toNat) (Nat.or_zero _).symm

theorem middleByte_eq : (WriteU8 ((odd >>> 1) &&& 0xFF)).toNat = pack [low 8 (odd >>> 1)] := by
  rw [← toNat_WriteU8_pack (by simp) rfl, pack_low]
  rfl

theorem oddByte_eq :
    (WriteU8 (((odd <<< 7) &&& 0x80) ||| 0x40 ||| ((even >>> 5) &&& 0x1F))).toNat =
      pack [low 1 odd, low 1 1, low 1 0, low 5 (even >>> 5)] := by
  rw [← toNat_WriteU8_pack (by simp) rfl, pack_low_cons, pack_low_cons, pack_low_cons, pack_low,
    Nat.zero_shiftLeft, Nat.zero_and, Nat.zero_or, Nat.or_assoc]
  simp [totalWidth, low, mask]

theorem lastOddByte_eq :
    (WriteU8 ((odd <<< 7) &&& 0x80)).toNat = pack [low 1 odd, low 1 0, low 1 0, low 5 0] := by
  rw [← toNat_WriteU8_pack (by simp) rfl, pack_low_cons]
  exact congrArg (fun v => (WriteU8 v).toNat) (Nat.or_zero _).symm

theorem evenByte_eq :
    (WriteU8 (((even <<< 3) &&& 0xF8) ||| 0x04 ||| ((odd >>> 9) &&& 0x01))).toNat =
      pack [low 5 even, low 1 1, low 1 0, low 1 (odd >>> 9)] := by
  rw [← toNat_WriteU8_pack (by simp) rfl, pack_low_cons, pack_low_cons, pack_low_cons, pack_low,
    Nat.zero_shiftLeft, Nat.zero_and, Nat.zero_or, Nat.or_assoc]
  simp [totalWidth, low, mask]

theorem lastEvenByte_eq :
    (WriteU8 ((even <<< 3) &&& 0xF8)).toNat = pack [low 5 even, low 1 0, low 1 0, low 1 0] := by
  rw [← toNat_WriteU8_pack (by simp) rfl, pack_low_cons]
  exact congrArg (fun v => (WriteU8 v).toNat) (Nat.or_zero _).symm

theorem read_moreAfterAck (ack : ℕ) :
    (pack [low 6 ack, low 1 more, low 1 x] &&& 0x02) >>> 1 = more % 2 :=
  read_low [low 6 ack] 1 more [low 1 x] (by simp) (by simp)

theorem read_moreAfterOdd :
    (pack [low 1 odd, low 1 more, low 1 0, low 5 x] &&& 0x40) >>> 6 = more % 2 :=
  read_low [low 1 odd] 1 more [low 1 0, low 5 x] (by simp) (by simp)

theorem read_moreAfterEven :
    (pack [low 5 even, low 1 more, low 1 0, low 1 x] &&& 0x04) >>> 2 = more % 2 :=
  read_low [low 5 even] 1 more [low 1 0, low 1 x] (by simp) (by simp)

theorem read_ackSn (cpt : ℕ) :
    ((pack [low 1 0, low 3 cpt, low 4 (ackSn.getValue >>> 6)] &&& 0x0F) <<< 6) |||
      ((pack [low 6 ackSn.getValue, low 1 more, low 1 x] &&& 0xFC) >>> 2) = ackSn.getValue := by
  have hHigh := read_low [low 1 0, low 3 cpt] 4 (ackSn.getValue >>> 6) [] (by simp) (by simp)
  have hLow := read_low [] 6 ackSn.getValue [low 1 more, low 1 x] (by simp) (by simp)
  have hLt : ackSn.getValue >>> 6 < 2 ^ 4 := by
    have hValue : ackSn.getValue < 1024 := ackSn.value.isLt
    rw [Nat.shiftRight_eq_div_pow]
    omega
  rw [Nat.mod_eq_of_lt hLt] at hHigh
  calc
    _ = (ackSn.getValue >>> 6) <<< 6 ||| ackSn.getValue % 2 ^ 6 :=
      congrArg₂ (fun a b => a <<< 6 ||| b) hHigh hLow
    _ = ackSn.getValue := shiftRight_or_mod _ 6

variable {odd even}

/-- A missing number whose highest bit is the last one of the byte before. -/
theorem read_oddNack {byte : ℕ} (hOdd : odd < 1024) (hByte : byte &&& 0x01 = odd >>> 9 % 2 ^ 1) :
    ((byte &&& 0x01) <<< 9) ||| (pack [low 8 (odd >>> 1)] <<< 1) |||
      ((pack [low 1 odd, low 1 more, low 1 0, low 5 x] &&& 0x80) >>> 7) = odd := by
  have hMiddle : pack [low 8 (odd >>> 1)] = odd >>> 1 % 2 ^ 8 := Nat.or_zero _
  have hLow := read_low [] 1 odd [low 1 more, low 1 0, low 5 x] (by simp) (by simp)
  have hHigh : odd >>> 9 % 2 ^ 1 = odd >>> 1 >>> 8 := by
    rw [← Nat.shiftRight_add, Nat.shiftRight_eq_div_pow]
    omega
  have hUpper : (odd >>> 9 % 2 ^ 1) <<< 9 ||| (odd >>> 1 % 2 ^ 8) <<< 1 = (odd >>> 1) <<< 1 := by
    rw [hHigh, Nat.shiftLeft_add _ 8 1, ← Nat.shiftLeft_or_distrib, shiftRight_or_mod]
  calc
    _ = (odd >>> 9 % 2 ^ 1) <<< 9 ||| (odd >>> 1 % 2 ^ 8) <<< 1 ||| odd % 2 ^ 1 := by
      rw [hByte, hMiddle]
      exact congrArg _ hLow
    _ = (odd >>> 1) <<< 1 ||| odd % 2 ^ 1 := by rw [hUpper]
    _ = odd := shiftRight_or_mod odd 1

theorem read_evenNack {odd more' : ℕ} (hEven : even < 1024) :
    ((pack [low 1 odd, low 1 more, low 1 0, low 5 (even >>> 5)] &&& 0x1F) <<< 5) |||
      ((pack [low 5 even, low 1 more', low 1 0, low 1 x] &&& 0xF8) >>> 3) = even := by
  have hHigh := read_low [low 1 odd, low 1 more, low 1 0] 5 (even >>> 5) [] (by simp) (by simp)
  have hLow := read_low [] 5 even [low 1 more', low 1 0, low 1 x] (by simp) (by simp)
  have hLt : even >>> 5 < 2 ^ 5 := by
    rw [Nat.shiftRight_eq_div_pow]
    omega
  rw [Nat.mod_eq_of_lt hLt] at hHigh
  calc
    _ = (even >>> 5) <<< 5 ||| even % 2 ^ 5 := congrArg₂ (fun a b => a <<< 5 ||| b) hHigh hLow
    _ = even := shiftRight_or_mod even 5

/-- The bytes behind the one that holds the lowest bit of an odd entry and the highest bits of the
even one after it. -/
def fromEven (even : ℕ) (nacks : List ℕ) : List UInt8 :=
  (match nacks with
    | odd :: _ => WriteU8 (((even <<< 3) &&& 0xF8) ||| 0x04 ||| ((odd >>> 9) &&& 0x01))
    | [] => WriteU8 ((even <<< 3) &&& 0xF8)) :: serializeNacks nacks

theorem serializeNacks_pair (odd even : ℕ) (nacks : List ℕ) :
    serializeNacks (odd :: even :: nacks) =
      WriteU8 ((odd >>> 1) &&& 0xFF) ::
        WriteU8 (((odd <<< 7) &&& 0x80) ||| 0x40 ||| ((even >>> 5) &&& 0x1F)) ::
          fromEven even nacks := rfl

theorem deserialize_lastEven (odd : ℕ) (f : NackFields) (l : List UInt8) (hEven : even < 1024) :
    deserializeNacks (pack [low 1 odd, low 1 1, low 1 0, low 5 (even >>> 5)]) f
        (fromEven even [] ++ l) =
      some (⟨f.nackSnList ++ [even], (f.headerLength + 1) % 65536⟩, l) := by
  rw [fromEven, List.cons_append, deserializeNacks.eq_def]
  simp only [lastEvenByte_eq, read_moreAfterEven, read_evenNack _ _ hEven]
  rfl

theorem lastBit_even (even odd : ℕ) :
    pack [low 5 even, low 1 1, low 1 0, low 1 (odd >>> 9)] &&& 0x01 = odd >>> 9 % 2 ^ 1 :=
  read_low [low 5 even, low 1 1, low 1 0] 1 (odd >>> 9) [] (by simp) (by simp)

theorem lastBit_ack (ack odd : ℕ) :
    pack [low 6 ack, low 1 1, low 1 (odd >>> 9)] &&& 0x01 = odd >>> 9 % 2 ^ 1 :=
  read_low [low 6 ack, low 1 1] 1 (odd >>> 9) [] (by simp) (by simp)

/-- The loop of `Deserialize` reads the missing numbers back and stops behind the last one. -/
theorem deserialize_fromEven (l : List UInt8) : ∀ (nacks : List ℕ) (odd even : ℕ) (f : NackFields),
    even < 1024 → (∀ nack ∈ nacks, nack < 1024) →
      deserializeNacks (pack [low 1 odd, low 1 1, low 1 0, low 5 (even >>> 5)]) f
          (fromEven even nacks ++ l) =
        some (⟨f.nackSnList ++ even :: nacks,
          (f.headerLength + 3 * (nacks.length + 1) / 2) % 65536⟩, l)
  | [], odd, even, f, hEven, _ => deserialize_lastEven odd f l hEven
  | [odd'], odd, even, f, hEven, hNacks => by
    have hOdd : odd' < 1024 := hNacks odd' List.mem_cons_self
    rw [fromEven, serializeNacks, List.cons_append, deserializeNacks.eq_def]
    simp only [List.cons_append, List.nil_append, evenByte_eq, middleByte_eq, lastOddByte_eq,
      read_moreAfterEven, read_moreAfterOdd, read_evenNack _ _ hEven, read_oddNack _ _ hOdd (lastBit_even ..)]
    simp
  | odd' :: even' :: nacks, odd, even, f, hEven, hNacks => by
    have hOdd : odd' < 1024 := hNacks odd' List.mem_cons_self
    have hRest := deserialize_fromEven l nacks odd' even'
      ⟨f.nackSnList ++ [even] ++ [odd'], (f.headerLength + 3) % 65536⟩ (hNacks even' (by simp))
      (fun nack hNack => hNacks nack (by simp [hNack]))
    have hLength : 3 + 3 * (nacks.length + 1) / 2 = 3 * (nacks.length + 1 + 1 + 1) / 2 := by omega
    rw [fromEven, serializeNacks_pair, List.cons_append, deserializeNacks.eq_def]
    simp only [List.cons_append, evenByte_eq, middleByte_eq, oddByte_eq,
      read_moreAfterEven, read_moreAfterOdd, read_evenNack _ _ hEven, read_oddNack _ _ hOdd (lastBit_even ..)]
    rw [if_pos trivial, if_pos trivial, hRest]
    simp [hLength, Nat.add_assoc]

/-- The bytes of a STATUS PDU. -/
def statusBytes : List UInt8 :=
  WriteU8 (((CONTROL_PDU <<< 7) &&& 0x80) ||| ((STATUS_PDU <<< 4) &&& 0x70) |||
      ((ackSn.getValue >>> 6) &&& 0x0F)) ::
    (match nacks with
      | [] => WriteU8 ((ackSn.getValue <<< 2) &&& 0xFC)
      | nack :: _ =>
        WriteU8 (((ackSn.getValue <<< 2) &&& 0xFC) ||| 0x02 ||| ((nack >>> 9) &&& 0x01))) ::
    serializeNacks nacks

theorem length_serializeNacks : ∀ nacks : List ℕ,
    (serializeNacks nacks).length = entryBytes nacks.length
  | [] => rfl
  | [_] => Eq.symm entryBytes_one
  | _ :: _ :: nacks => by
    have hRest := length_serializeNacks nacks
    rw [serializeNacks_pair, fromEven.eq_def, List.length_cons, List.length_cons, List.length_cons, hRest,
      List.length_cons, List.length_cons, entryBytes_pair]
    omega

theorem read_controlBit (x : ℕ) : (pack [low 1 0, low 3 STATUS_PDU, low 4 x] &&& 0x80) >>> 7 = 0 :=
  read_low [] 1 0 [low 3 STATUS_PDU, low 4 x] (by simp) (by simp)

theorem read_controlPduType (x : ℕ) :
    (pack [low 1 0, low 3 STATUS_PDU, low 4 x] &&& 0x70) >>> 4 = STATUS_PDU :=
  read_low [low 1 0] 3 STATUS_PDU [low 4 x] (by simp) (by simp)

/-- What `Deserialize` reads from a STATUS PDU. -/
theorem deserialize_statusBytes (payload : List UInt8) (hNacks : ∀ nack ∈ nacks, nack < 1024) :
    ({ lastSegmentFlag := u } : LteRlcAmHeader).deserialize (statusBytes ackSn nacks ++ payload) =
      some ({ lastSegmentFlag := u
              headerLength := (2 + entryBytes nacks.length) % 65536
              dataControlBit := CONTROL_PDU
              controlPduType := STATUS_PDU
              ackSn := (SequenceNumber10.mk' 0xffff).assign ackSn.getValue
              nackSnList := nacks }, payload) := by
  have hControl : (0 : ℕ) ≠ DATA_PDU := by decide
  rw [statusBytes.eq_def, List.cons_append, List.cons_append, deserialize]
  simp only [controlByte_eq, read_controlBit, if_neg hControl, deserializeControl,
    read_controlPduType]
  match nacks, hNacks with
  | [], _ =>
    simp only [lastAckByte_eq, read_moreAfterAck, read_ackSn]
    rfl
  | [nack], hNacks =>
    have hNack : nack < 1024 := hNacks nack List.mem_cons_self
    simp only [serializeNacks, List.cons_append, List.nil_append, ackByte_eq, middleByte_eq,
      lastOddByte_eq, read_moreAfterAck, read_moreAfterOdd, read_ackSn,
      read_oddNack _ _ hNack (lastBit_ack ..)]
    rw [if_pos trivial, List.length_singleton, entryBytes_one]
    rfl
  | odd :: even :: nacks, hNacks =>
    have hOdd : odd < 1024 := hNacks odd List.mem_cons_self
    have hRest := deserialize_fromEven payload nacks odd even ⟨[odd], 4⟩ (hNacks even (by simp))
      (fun nack hNack => hNacks nack (by simp [hNack]))
    have hLength : 4 + 3 * (nacks.length + 1) / 2 = 2 + entryBytes (nacks.length + 1 + 1) := by
      unfold entryBytes
      omega
    simp only [serializeNacks_pair, List.cons_append, ackByte_eq, middleByte_eq, oddByte_eq,
      read_moreAfterAck, read_moreAfterOdd, read_ackSn, read_oddNack _ _ hOdd (lastBit_ack ..)]
    rw [if_pos trivial, if_pos trivial]
    refine (congrArg (Option.map _) hRest).trans ?_
    simp [hLength]
    rfl

theorem roundTrips_status_iff (hNacks : ∀ nack ∈ nacks, nack < 1024) (v : ℕ) :
    (∃ h, ofStatus u ackSn nacks = some h ∧
      RoundTrips serialize getSerializedSize
        ({ lastSegmentFlag := v } : LteRlcAmHeader).deserialize SameStatus h) ↔
      2 + entryBytes nacks.length < 65536 := by
  have hLength : (statusBytes ackSn nacks).length = 2 + entryBytes nacks.length := by
    rw [statusBytes.eq_def, List.length_cons, List.length_cons, length_serializeNacks]
    omega
  constructor
  · rintro ⟨h, hEq, w, hSerialize, hSize, -⟩
    cases (ofStatus_eq u ackSn nacks).symm.trans hEq
    cases hSerialize
    rw [← hLength]
    exact hSize.trans_lt (Nat.mod_lt _ (by decide))
  · intro hShort
    have hSize : (statusBytes ackSn nacks).length = (2 + entryBytes nacks.length) % 65536 := by
      rw [hLength, Nat.mod_eq_of_lt hShort]
    refine ⟨_, ofStatus_eq u ackSn nacks, statusBytes ackSn nacks, rfl, hSize, ?_⟩
    intro payload
    refine ⟨_, deserialize_statusBytes v ackSn nacks payload hNacks, hSize.symm, ?_⟩
    constructor
    all_goals try rfl
    exact assign_getValue _ ackSn

end LteRlcAmHeader

open LteRlcAmHeader in
/-- A data header round trips exactly when its segment offset fits one byte, STATUS and UM headers
always, as long as the length of the header does not wrap. -/
theorem headers_roundTrip_iff (d : DataFields) (u v fi : ℕ) (ackSn sn : SequenceNumber10)
    (nacks lis : List ℕ) (hData : ∀ li ∈ d.lengthIndicators, li < 2048)
    (hNacks : ∀ nack ∈ nacks, nack < 1024) (hLis : ∀ li ∈ lis, li < 2048) :
    (RoundTrips serialize getSerializedSize ({ lastSegmentFlag := u } : LteRlcAmHeader).deserialize
        SameData (ofData d) ↔
      d.segmentOffset &&& 0x7FFF < 256 ∧ 4 + entryBytes d.lengthIndicators.length < 65536) ∧
    ((∃ h, ofStatus u ackSn nacks = some h ∧
        RoundTrips serialize getSerializedSize
          ({ lastSegmentFlag := v } : LteRlcAmHeader).deserialize SameStatus h) ↔
      2 + entryBytes nacks.length < 65536) ∧
    (RoundTrips LteRlcHeader.serialize LteRlcHeader.getSerializedSize
        ({} : LteRlcHeader).deserialize LteRlcHeader.Same (LteRlcHeader.ofFields fi sn lis) ↔
      2 + entryBytes lis.length < 65536) := by
  refine ⟨?_, ?_, ?_⟩
  · exact roundTrips_data_iff d hData u
  · exact roundTrips_status_iff u ackSn nacks hNacks v
  · exact LteRlcHeader.um_roundTrips_iff fi sn lis hLis

open LteRlcAmHeader in
/-- A segment at offset 200 with three length indicators, three missing numbers, and a UM header
with two length indicators. -/
theorem headers_roundTrip_short :
    RoundTrips serialize getSerializedSize ({ lastSegmentFlag := 0 } : LteRlcAmHeader).deserialize
      SameData (ofData ⟨0, SEGMENT, 1, 3, SequenceNumber10.mk' 700, 1, 200, [5, 2047, 300]⟩) ∧
    (∃ h, ofStatus 0 (SequenceNumber10.mk' 900) [1, 512, 1023] = some h ∧
      RoundTrips serialize getSerializedSize
        ({ lastSegmentFlag := 0 } : LteRlcAmHeader).deserialize SameStatus h) ∧
    RoundTrips LteRlcHeader.serialize LteRlcHeader.getSerializedSize
      ({} : LteRlcHeader).deserialize LteRlcHeader.Same
      (LteRlcHeader.ofFields 2 (SequenceNumber10.mk' 1000) [1000, 40]) := by
  obtain ⟨hData, hStatus, hUm⟩ :=
    headers_roundTrip_iff ⟨0, SEGMENT, 1, 3, SequenceNumber10.mk' 700, 1, 200, [5, 2047, 300]⟩
      0 0 2 (SequenceNumber10.mk' 900) (SequenceNumber10.mk' 1000) [1, 512, 1023] [1000, 40]
      (by decide) (by decide) (by decide)
  exact ⟨hData.mpr (by decide), hStatus.mpr (by decide), hUm.mpr (by decide)⟩

open LteRlcAmHeader in
/-- A segment that starts at byte 256 of its PDU is read back as one that starts at byte 1. -/
theorem segment_at_256_lost :
    ¬ RoundTrips serialize getSerializedSize ({ lastSegmentFlag := 0 } : LteRlcAmHeader).deserialize
      SameData (ofData ⟨0, SEGMENT, 0, 0, SequenceNumber10.mk' 0, 1, 256, []⟩) := by
  intro hTrip
  have hSmall := ((roundTrips_data_iff ⟨0, SEGMENT, 0, 0, SequenceNumber10.mk' 0, 1, 256, []⟩
    (by decide) 0).mp hTrip).1
  exact absurd hSmall (by decide)

end Bullet.Rlc
