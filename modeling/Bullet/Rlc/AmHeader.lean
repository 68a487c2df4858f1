import Bullet.Rlc.LengthIndicators
import Bullet.Rlc.SequenceNumber

/-! # The header of an RLC AM PDU

A data PDU has four fixed bytes (flags, sequence number, last segment flag and segment offset) and
length indicators. A STATUS PDU has the acknowledged sequence number and a list of missing ones,
whose entries take twelve bits and do not start on byte boundaries.
-/

namespace Bullet.Rlc

open Lib.BitFields

def CONTROL_PDU : ℕ := 0
def DATA_PDU : ℕ := 1
def STATUS_PDU : ℕ := 0
def PDU : ℕ := 0
def SEGMENT : ℕ := 1

/-- The constructor leaves the last segment flag uninitialised. -/
structure LteRlcAmHeader where
  headerLength : ℕ := 0
  dataControlBit : ℕ := 0xff
  resegmentationFlag : ℕ := 0xff
  pollingBit : ℕ := 0xff
  framingInfo : ℕ := 0xff
  sequenceNumber : SequenceNumber10 := SequenceNumber10.mk' 0xfffa
  lastSegmentFlag : ℕ
  segmentOffset : ℕ := 0xffff
  lastOffset : ℕ := 0xffff
  extensionBits : List ℕ := []
  lengthIndicators : List ℕ := []
  controlPduType : ℕ := 0xff
  ackSn : SequenceNumber10 := SequenceNumber10.mk' 0xffff
  nackSnList : List ℕ := []
deriving DecidableEq, Repr

namespace LteRlcAmHeader

def setDataPdu (h : LteRlcAmHeader) : LteRlcAmHeader :=
  { h with headerLength := 4, dataControlBit := DATA_PDU }

def setControlPdu (h : LteRlcAmHeader) (controlPduType : ℕ) : LteRlcAmHeader :=
  { h with headerLength := 2, dataControlBit := CONTROL_PDU, controlPduType := controlPduType }

def setFramingInfo (h : LteRlcAmHeader) (framingInfo : ℕ) : LteRlcAmHeader :=
  { h with framingInfo := framingInfo &&& 0x03 }

def setSequenceNumber (h : LteRlcAmHeader) (sequenceNumber : SequenceNumber10) :
    LteRlcAmHeader :=
  { h with sequenceNumber := sequenceNumber }

def setResegmentationFlag (h : LteRlcAmHeader) (resegFlag : ℕ) : LteRlcAmHeader :=
  { h with resegmentationFlag := resegFlag &&& 0x01 }

def setPollingBit (h : LteRlcAmHeader) (pollingBit : ℕ) : LteRlcAmHeader :=
  { h with pollingBit := pollingBit &&& 0x01 }

def setLastSegmentFlag (h : LteRlcAmHeader) (lsf : ℕ) : LteRlcAmHeader :=
  { h with lastSegmentFlag := lsf &&& 0x01 }

def setSegmentOffset (h : LteRlcAmHeader) (segmentOffset : ℕ) : LteRlcAmHeader :=
  { h with segmentOffset := segmentOffset &&& 0x7FFF }

def setAckSn (h : LteRlcAmHeader) (ackSn : SequenceNumber10) : LteRlcAmHeader :=
  { h with ackSn := ackSn }

def pushExtensionBit (h : LteRlcAmHeader) (extensionBit : ℕ) : LteRlcAmHeader :=
  let bits := h.extensionBits ++ [extensionBit]
  let length :=
    if 1 < bits.length then
      if bits.length % 2 ≠ 0 then (h.headerLength + 1) % 65536
      else (h.headerLength + 2) % 65536
    else h.headerLength
  { h with extensionBits := bits, headerLength := length }

def pushLengthIndicator (h : LteRlcAmHeader) (lengthIndicator : ℕ) : LteRlcAmHeader :=
  { h with lengthIndicators := h.lengthIndicators ++ [lengthIndicator] }

/-- The entries of a PDU, each behind the extension bit that announces it, and the closing bit. -/
def pushEntries (h : LteRlcAmHeader) (lis : List ℕ) : LteRlcAmHeader :=
  (lis.foldl (fun h li => (h.pushExtensionBit E_LI_FIELDS_FOLLOWS).pushLengthIndicator li)
    h).pushExtensionBit DATA_FIELD_FOLLOWS

/-- The methods on missing numbers assert that the header is a STATUS PDU's. -/
def IsStatusPdu (h : LteRlcAmHeader) : Prop :=
  h.dataControlBit = CONTROL_PDU ∧ h.controlPduType = STATUS_PDU

instance (h : LteRlcAmHeader) : Decidable h.IsStatusPdu := instDecidableAnd

def oneMoreNackWouldFitIn (h : LteRlcAmHeader) (bytes : ℕ) : Option Bool :=
  if h.IsStatusPdu then
    if h.nackSnList.length % 2 = 0 then some (decide (h.headerLength < bytes))
    else some (decide ((h.headerLength : ℤ) < (bytes : ℤ) - 1))
  else none

def pushNack (h : LteRlcAmHeader) (nack : ℕ) : Option LteRlcAmHeader :=
  if h.IsStatusPdu then
    let nacks := h.nackSnList ++ [nack]
    let length :=
      if nacks.length % 2 = 0 then (h.headerLength + 1) % 65536 else (h.headerLength + 2) % 65536
    some { h with nackSnList := nacks, headerLength := length }
  else none

def isNackPresent (h : LteRlcAmHeader) (nack : SequenceNumber10) : Option Bool :=
  if h.IsStatusPdu then some (h.nackSnList.contains nack.getValue) else none

def getSerializedSize (h : LteRlcAmHeader) : ℕ := h.headerLength

/-- The loop of `Serialize` over the missing numbers: the highest bit of the first one has been
written. -/
def serializeNacks : List ℕ → List UInt8
  | [] => []
  | [oddNack] => [WriteU8 ((oddNack >>> 1) &&& 0xFF), WriteU8 ((oddNack <<< 7) &&& 0x80)]
  | oddNack :: evenNack :: nacks =>
    WriteU8 ((oddNack >>> 1) &&& 0xFF) ::
    WriteU8 (((oddNack <<< 7) &&& 0x80) ||| 0x40 ||| ((evenNack >>> 5) &&& 0x1F)) ::
    (match nacks with
      | oddNack' :: _ =>
        WriteU8 (((evenNack <<< 3) &&& 0xF8) ||| 0x04 ||| ((oddNack' >>> 9) &&& 0x01))
      | [] => WriteU8 ((evenNack <<< 3) &&& 0xF8)) :: serializeNacks nacks

def serialize (h : LteRlcAmHeader) : Option (List UInt8) :=
  if h.dataControlBit = DATA_PDU then
    match h.extensionBits with
    | [] => none
    | e :: es =>
      some (WriteU8 (((DATA_PDU <<< 7) &&& 0x80) ||| ((h.resegmentationFlag <<< 6) &&& 0x40) |||
          ((h.pollingBit <<< 5) &&& 0x20) ||| ((h.framingInfo <<< 3) &&& 0x18) |||
          ((e <<< 2) &&& 0x04) ||| ((h.sequenceNumber.getValue >>> 8) &&& 0x03)) ::
        WriteU8 (h.sequenceNumber.getValue &&& 0xFF) ::
        WriteU8 (((h.lastSegmentFlag <<< 7) &&& 0x80) ||| ((h.segmentOffset >>> 8) &&& 0x7F)) ::
        WriteU8 (h.segmentOffset &&& 0xFF) ::
        serializeLengthIndicators es h.lengthIndicators)
  else
    some (WriteU8 (((CONTROL_PDU <<< 7) &&& 0x80) ||| ((h.controlPduType <<< 4) &&& 0x70) |||
        ((h.ackSn.getValue >>> 6) &&& 0x0F)) ::
      (match h.nackSnList with
        | [] => WriteU8 ((h.ackSn.getValue <<< 2) &&& 0xFC)
        | nack :: _ =>
          WriteU8 (((h.ackSn.getValue <<< 2) &&& 0xFC) ||| 0x02 ||| ((nack >>> 9) &&& 0x01))) ::
      serializeNacks h.nackSnList)

/-- What the loop of `Deserialize` adds to a STATUS PDU's header. -/
structure NackFields where
  nackSnList : List ℕ
  headerLength : ℕ
deriving DecidableEq, Repr

/-- The loop of `Deserialize` over the missing numbers, entered when `byte` announces another
one. -/
def deserializeNacks (byte : ℕ) (f : NackFields) : List UInt8 → Option (NackFields × List UInt8)
  | nextByte :: start =>
    let evenNack := ((byte &&& 0x1F) <<< 5) ||| ((nextByte.toNat &&& 0xF8) >>> 3)
    if (nextByte.toNat &&& 0x04) >>> 2 = 1 then
      match start with
      | nextByte' :: finalByte :: start =>
        let oddNack := ((nextByte.toNat &&& 0x01) <<< 9) ||| (nextByte'.toNat <<< 1) |||
          ((finalByte.toNat &&& 0x80) >>> 7)
        let f : NackFields :=
          ⟨f.nackSnList ++ [evenNack] ++ [oddNack], (f.headerLength + 3) % 65536⟩
        if (finalByte.toNat &&& 0x40) >>> 6 = 1 then deserializeNacks finalByte.toNat f start
        else some (f, start)
      | _ => none
    else some (⟨f.nackSnList ++ [evenNack], (f.headerLength + 1) % 65536⟩, start)
  | [] => none

/-- The fields of a data PDU; `size` is the size of the whole buffer. -/
def deserializeData (h : LteRlcAmHeader) (size : ℕ) (byte_1 : UInt8) :
    List UInt8 → Option (LteRlcAmHeader × List UInt8)
  | byte_2 :: byte_3 :: byte_4 :: start =>
    let extensionBit := (byte_1.toNat &&& 0x04) >>> 2
    let h := { h with
      headerLength := h.headerLength + 3
      resegmentationFlag := (byte_1.toNat &&& 0x40) >>> 6
      pollingBit := (byte_1.toNat &&& 0x20) >>> 5
      framingInfo := (byte_1.toNat &&& 0x18) >>> 3
      sequenceNumber :=
        h.sequenceNumber.assign (((byte_1.toNat &&& 0x03) <<< 8) ||| byte_2.toNat)
      lastSegmentFlag := (byte_3.toNat &&& 0x80) >>> 7
      -- the offset's upper bits are not shifted into place
      segmentOffset := (byte_3.toNat &&& 0x7F) ||| byte_4.toNat
      extensionBits := h.extensionBits ++ [extensionBit] }
    if extensionBit = DATA_FIELD_FOLLOWS then some (h, start)
    else
      (deserializeLengthIndicators ⟨h.extensionBits, h.lengthIndicators, h.headerLength⟩ start).map
        fun p =>
          let h := { h with
            extensionBits := p.1.extensionBits
            lengthIndicators := p.1.lengthIndicators
            headerLength := p.1.headerLength }
          if h.resegmentationFlag = SEGMENT then
            let lastOffset := ((h.segmentOffset : ℤ) + size - h.headerLength) % 65536
            ({ h with lastOffset := lastOffset.toNat }, p.2)
          else (h, p.2)
  | _ => none

def deserializeControl (h : LteRlcAmHeader) (byte_1 : UInt8) :
    List UInt8 → Option (LteRlcAmHeader × List UInt8)
  | byte_2 :: start =>
    let h := { h with
      controlPduType := (byte_1.toNat &&& 0x70) >>> 4
      ackSn := h.ackSn.assign (((byte_1.toNat &&& 0x0F) <<< 6) ||| ((byte_2.toNat &&& 0xFC) >>> 2)) }
    if (byte_2.toNat &&& 0x02) >>> 1 = 1 then
      match start with
      | byte_3 :: byte_4 :: start =>
        let oddNack := ((byte_2.toNat &&& 0x01) <<< 9) ||| (byte_3.toNat <<< 1) |||
          ((byte_4.toNat &&& 0x80) >>> 7)
        let f : NackFields := ⟨h.nackSnList ++ [oddNack], 4⟩
        (if (byte_4.toNat &&& 0x40) >>> 6 = 1 then deserializeNacks byte_4.toNat f start
          else some (f, start)).map fun p =>
            ({ h with nackSnList := p.1.nackSnList, headerLength := p.1.headerLength }, p.2)
      | _ => none
    else some ({ h with headerLength := h.headerLength + 1 }, start)
  | [] => none

/-- The header read from the front of a buffer, and the bytes behind it. -/
def deserialize (h : LteRlcAmHeader) : List UInt8 → Option (LteRlcAmHeader × List UInt8)
  | byte_1 :: start =>
    let h := { h with headerLength := 1, dataControlBit := (byte_1.toNat &&& 0x80) >>> 7 }
    if h.dataControlBit = DATA_PDU then h.deserializeData (start.length + 1) byte_1 start
    else h.deserializeControl byte_1 start
  | [] => none

end LteRlcAmHeader

end Bullet.Rlc
