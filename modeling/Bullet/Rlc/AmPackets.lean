import Bullet.Rlc.AmAssembly
import Bullet.Rlc.AmOpportunity
import Mathlib.Algebra.BigOperators.Group.List.Basic

/-! # Data PDUs that are read back

A data PDU of this entity carries no segment offset, so its header is read back whole, unless the
header is so long that its length wraps. A retransmitted PDU carries the same but for the polling
bit.
-/

namespace Bullet.Rlc

open LteRlcAmHeader

/-- The bytes of the packet are a data header with the fields `d`, and its data. -/
structure AmPdu.Carries (p : AmPdu) (d : DataFields) : Prop where
  lis : ∀ li ∈ d.lengthIndicators, li < 2048
  short : 4 + entryBytes d.lengthIndicators.length < 65536
  offset : d.segmentOffset = 0
  header : SameData (ofData d) p.header

namespace LteRlcAmHeader

theorem serialize_congr {h h' : LteRlcAmHeader} (hSame : SameData h h')
    (hData : h.dataControlBit = DATA_PDU) : h'.serialize = h.serialize := by
  have hNumber : h'.sequenceNumber.getValue = h.sequenceNumber.getValue :=
    congrArg Fin.val hSame.sequenceNumber
  unfold serialize
  rw [hSame.dataControlBit, if_pos hData, if_pos hData, hSame.extensionBits,
    hSame.lengthIndicators, hSame.resegmentationFlag, hSame.pollingBit, hSame.framingInfo, hNumber,
    hSame.lastSegmentFlag, hSame.segmentOffset]

/-- A header without a segment offset is read back, with a sequence number of base zero. -/
theorem deserialize_same (d : DataFields) (payload : List UInt8)
    (hLis : ∀ li ∈ d.lengthIndicators, li < 2048) (hOffset : d.segmentOffset = 0) :
    ∃ h, AmPdu.newHeader.deserialize (dataBytes d ++ payload) = some (h, payload) ∧
      SameData (ofData d) h ∧ h.sequenceNumber.modulusBase = 0 := by
  obtain ⟨lastOffset, hRead⟩ := deserialize_dataBytes d 0 payload hLis
  refine ⟨_, hRead, ?_, rfl⟩
  constructor
  all_goals try rfl
  · rw [ofData_eq]
    exact assign_getValue _ d.sequenceNumber
  · rw [ofData_eq, hOffset]
    rfl

end LteRlcAmHeader

namespace AmPdu

variable {p : AmPdu} {d : DataFields}

theorem Carries.bytes_eq (h : p.Carries d) : p.bytes = some (dataBytes d ++ p.data) := by
  have hWritten : p.header.serialize = some (dataBytes d) :=
    (serialize_congr h.header (by rw [ofData_eq])).trans (serialize_ofData d)
  have hLength : (dataBytes d).length = p.header.getSerializedSize := by
    rw [length_dataBytes, getSerializedSize, h.header.headerLength, ofData_eq]
    exact (Nat.mod_eq_of_lt h.short).symm
  rw [bytes, hWritten, Option.bind_some, if_pos hLength]

/-- What is read from a packet: its header and its data. -/
theorem Carries.removeHeader (h : p.Carries d) :
    ∃ g, p.peekHeader = some g ∧ p.removeHeader = some (g, p.data) ∧ SameData (ofData d) g ∧
      g.sequenceNumber.modulusBase = 0 := by
  obtain ⟨g, hRead, hSame, hBase⟩ := deserialize_same d p.data h.lis h.offset
  have hPeek : p.peekHeader = some g := by
    rw [peekHeader, h.bytes_eq, Option.bind_some, hRead]
    rfl
  have hLength : g.getSerializedSize = (dataBytes d).length := by
    rw [getSerializedSize, hSame.headerLength, ofData_eq, length_dataBytes]
    exact Nat.mod_eq_of_lt h.short
  refine ⟨g, hPeek, ?_, hSame, hBase⟩
  have hData : (dataBytes d ++ p.data).drop g.getSerializedSize = p.data := by
    rw [hLength, List.drop_left]
  rw [AmPdu.removeHeader, hPeek, h.bytes_eq]
  exact congrArg (fun data => some (g, data)) hData

end AmPdu

namespace LteRlcAm

/-- The fields of a new PDU that takes the SDUs `full` whole. -/
def newFields (sn : SequenceNumber10) (full : List Sdu) (first last : SduStatus) (polled : Bool) :
    DataFields where
  uninitialised := 0
  resegmentationFlag := PDU
  pollingBit := if polled then STATUS_REPORT_IS_REQUESTED else STATUS_REPORT_NOT_REQUESTED
  framingInfo := framingInfo first last
  sequenceNumber := sn
  lastSegmentFlag := LAST_PDU_SEGMENT
  segmentOffset := 0
  lengthIndicators := full.map Sdu.getSize

theorem dataPdu_carries {sdus full : List Sdu} {sdu : Sdu} {k : ℕ} {remaining : List Sdu}
    {a : Assembly}
    (h : AssembledFrom AmPdu.newHeader.setDataPdu [] sdus full sdu k remaining a)
    (hShort : 4 + entryBytes full.length < 65536) (sn : SequenceNumber10)
    (first last : SduStatus) (polled : Bool) :
    (dataPdu a sn first last polled).Carries (newFields sn full first last polled) where
  lis := by
    intro li hLi
    obtain ⟨p, hMem, rfl⟩ := List.mem_map.mp hLi
    exact Nat.lt_succ_of_le (h.short p hMem)
  short := by
    rw [newFields, List.length_map]
    exact hShort
  offset := rfl
  header := by
    have hHeader : a.header = { AmPdu.newHeader with
        headerLength := (4 + entryBytes (full.map Sdu.getSize).length) % 65536
        dataControlBit := DATA_PDU
        extensionBits := entryBits (full.map Sdu.getSize)
        lengthIndicators := full.map Sdu.getSize } := by
      rw [h.header, pushEntries_spec]
      · simp [AmPdu.newHeader, setDataPdu]
      · exact Eq.symm (Nat.mod_eq_of_lt (by decide : 4 + entryBytes 0 < 65536))
    rw [ofData_eq]
    unfold dataPdu
    rw [hHeader]
    cases polled with
    | true => constructor <;> rfl
    | false => constructor <;> rfl

/-- A PDU of at most 43688 SDUs, or of fewer than 109224 bytes, has a header that does not wrap. -/
theorem header_short {sdus full : List Sdu} {sdu : Sdu} {k n : ℕ} {remaining : List Sdu}
    {a : Assembly}
    (h : AssembledFrom AmPdu.newHeader.setDataPdu [] sdus full sdu k remaining a)
    (hFits : a.Fits n) (hWaiting : ∀ p ∈ sdus, p.Waiting)
    (hSmall : sdus.length ≤ 43688 ∨ n < 109224) : 4 + entryBytes full.length < 65536 := by
  have hBits : a.header.extensionBits.length = full.length + 1 := by
    rw [h.header, pushEntries_spec]
    · simp [AmPdu.newHeader, setDataPdu, length_entryBits]
    · exact Eq.symm (Nat.mod_eq_of_lt (by decide : 4 + entryBytes 0 < 65536))
  have hData : full.length ≤ (a.dataField.flatMap Sdu.bytes).length := by
    have hSizes : (full.map Sdu.getSize).length ≤ (full.map Sdu.getSize).sum := by
      apply List.length_le_sum_of_one_le
      intro size hSize
      obtain ⟨p, hMem, rfl⟩ := List.mem_map.mp hSize
      exact (hWaiting p (h.sdus ▸ List.mem_append_left _ hMem)).pos
    rw [List.length_map] at hSizes
    rw [h.dataField, List.nil_append, List.flatMap_append, List.length_append, List.length_flatMap]
    exact hSizes.trans (Nat.le_add_right ..)
  have hCount : full.length < sdus.length := by
    rw [h.sdus, List.length_append, List.length_cons]
    omega
  have hRoom := hFits.room
  rw [hBits] at hRoom
  unfold entryBytes at hRoom ⊢
  omega

end LteRlcAm

end Bullet.Rlc
