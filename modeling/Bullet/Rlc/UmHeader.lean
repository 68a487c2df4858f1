import Bullet.Rlc.LengthIndicators
import Bullet.Rlc.SequenceNumber

/-! # The header of an RLC UM PDU

Two fixed bytes hold the framing info, the first extension bit and the sequence number; the length
indicators follow. The length of the header is kept by hand as extension bits are pushed.
-/

namespace Bullet.Rlc

open Lib.BitFields

structure LteRlcHeader where
  headerLength : ℕ := 0
  framingInfo : ℕ := 0xff
  sequenceNumber : SequenceNumber10 := SequenceNumber10.mk' 0xfffa
  extensionBits : List ℕ := []
  lengthIndicators : List ℕ := []
deriving DecidableEq, Repr

namespace LteRlcHeader

def setFramingInfo (h : LteRlcHeader) (framingInfo : ℕ) : LteRlcHeader :=
  { h with framingInfo := framingInfo &&& 0x03 }

def setSequenceNumber (h : LteRlcHeader) (sequenceNumber : SequenceNumber10) : LteRlcHeader :=
  { h with sequenceNumber := sequenceNumber }

def pushExtensionBit (h : LteRlcHeader) (extensionBit : ℕ) : LteRlcHeader :=
  let bits := h.extensionBits ++ [extensionBit]
  let length :=
    if bits.length = 1 then 2
    else if bits.length % 2 ≠ 0 then (h.headerLength + 1) % 65536
    else (h.headerLength + 2) % 65536
  { h with extensionBits := bits, headerLength := length }

def pushLengthIndicator (h : LteRlcHeader) (lengthIndicator : ℕ) : LteRlcHeader :=
  { h with lengthIndicators := h.lengthIndicators ++ [lengthIndicator] }

/-- The entries of a PDU, each behind the extension bit that announces it, and the closing bit. -/
def pushEntries (h : LteRlcHeader) (lis : List ℕ) : LteRlcHeader :=
  (lis.foldl (fun h li => (h.pushExtensionBit E_LI_FIELDS_FOLLOWS).pushLengthIndicator li)
    h).pushExtensionBit DATA_FIELD_FOLLOWS

def getSerializedSize (h : LteRlcHeader) : ℕ := h.headerLength

/-- The first extension bit is read unconditionally. -/
def serialize (h : LteRlcHeader) : Option (List UInt8) :=
  match h.extensionBits with
  | [] => none
  | e :: es =>
    some (WriteU8 (((h.framingInfo <<< 3) &&& 0x18) ||| ((e <<< 2) &&& 0x04) |||
        ((h.sequenceNumber.getValue >>> 8) &&& 0x03)) ::
      WriteU8 (h.sequenceNumber.getValue &&& 0xFF) ::
      serializeLengthIndicators es h.lengthIndicators)

/-- The header read from the front of a buffer, and the bytes behind it. -/
def deserialize (h : LteRlcHeader) : List UInt8 → Option (LteRlcHeader × List UInt8)
  | byte_1 :: byte_2 :: start =>
    let extensionBit := (byte_1.toNat &&& 0x04) >>> 2
    let h := { h with
      headerLength := 2
      framingInfo := (byte_1.toNat &&& 0x18) >>> 3
      sequenceNumber :=
        h.sequenceNumber.assign (((byte_1.toNat &&& 0x03) <<< 8) ||| byte_2.toNat)
      extensionBits := h.extensionBits ++ [extensionBit] }
    if extensionBit = E_LI_FIELDS_FOLLOWS then
      (deserializeLengthIndicators ⟨h.extensionBits, h.lengthIndicators, h.headerLength⟩ start).map
        fun p => ({ h with
          extensionBits := p.1.extensionBits
          lengthIndicators := p.1.lengthIndicators
          headerLength := p.1.headerLength }, p.2)
    else some (h, start)
  | _ => none

end LteRlcHeader

end Bullet.Rlc
