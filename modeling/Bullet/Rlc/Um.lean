import Bullet.Rlc.AmReceive
import Bullet.Rlc.UmHeader

/-! # An RLC UM entity

The sending side cuts and concatenates SDUs into numbered PDUs as an RLC AM entity does, and keeps
none of them. The receiving side holds PDUs until those before them have come or are given up.
A failed assertion is `none`; timers are flags, and their expiry is an event. What is received
comes with the SDUs that are handed to the PDCP.
-/

namespace Bullet.Rlc

/-- A packet behind its RLC header. -/
structure UmPdu where
  header : LteRlcHeader
  data : List UInt8
deriving DecidableEq, Repr

namespace UmPdu

/-- The bytes of the packet. A header whose length has wrapped overwrites the data: such a packet
cannot be read. -/
def bytes (p : UmPdu) : Option (List UInt8) :=
  p.header.serialize.bind fun w =>
    if w.length = p.header.getSerializedSize then some (w ++ p.data) else none

def peekHeader (p : UmPdu) : Option LteRlcHeader :=
  (p.bytes.bind ({} : LteRlcHeader).deserialize).map Prod.fst

def removeHeader (p : UmPdu) : Option (LteRlcHeader × List UInt8) := do
  let h ← p.peekHeader
  let b ← p.bytes
  pure (h, b.drop h.getSerializedSize)

end UmPdu

/-- What is kept from one reassembled PDU to the next. -/
structure Reassembly where
  reassemblingState : ReassemblingState := .WAITING_S0_FULL
  keepS0 : Option (List UInt8) := none
  sdusBuffer : List (List UInt8) := []
  expectedSeqNumber : SequenceNumber10 := {}
deriving DecidableEq, Repr

structure LteRlcUm where
  maxTxBufferSize : UInt32 := 10 * 1024
  txBuffer : List Sdu := []
  txBufferSize : UInt32 := 0
  sequenceNumber : SequenceNumber10 := {}
  vrUr : SequenceNumber10 := {}
  vrUx : SequenceNumber10 := {}
  vrUh : SequenceNumber10 := {}
  rxBuffer : Fin 1024 → Option UmPdu := fun _ => none
  reassembly : Reassembly := {}
  reorderingTimer : Bool := false
  rbsTimer : Bool := false

namespace LteRlcUm

open LteRlcAm (framingInfo)

/-- What an entity hands to the MAC. -/
inductive Output
  | transmitPdu (pdu : UmPdu)
  | reportBufferStatus (txQueueSize : UInt32)
deriving DecidableEq, Repr

def windowSize : ℕ := 512

/-! ## Sending -/

def doReportBufferStatus (s : LteRlcUm) : Output :=
  .reportBufferStatus
    (if s.txBuffer.isEmpty then 0 else s.txBufferSize + 2 * UInt32.ofNat s.txBuffer.length)

/-- An SDU that does not fit in the buffer is discarded. -/
def doTransmitPdcpPdu (s : LteRlcUm) (p : List UInt8) : LteRlcUm × List Output :=
  let size := UInt32.ofNat p.length
  let s :=
    if s.txBufferSize + size ≤ s.maxTxBufferSize then
      { s with
        txBuffer := s.txBuffer ++ [⟨p, .FULL_SDU⟩]
        txBufferSize := s.txBufferSize + size }
    else s
  ({ s with rbsTimer := false }, [s.doReportBufferStatus])

/-- The header, the data field and the transmission buffer while a PDU is put together. -/
structure Assembly where
  header : LteRlcHeader
  dataField : List Sdu
  txBuffer : List Sdu
  txBufferSize : UInt32

/-- The segment is mapped to the end of the data field. -/
def Assembly.close (a : Assembly) (segment : Sdu) : Assembly :=
  { a with
    header := a.header.pushExtensionBit DATA_FIELD_FOLLOWS
    dataField := a.dataField ++ [segment] }

/-- An SDU that does not fit, or is too long for a length indicator, is cut; the rest is given
back. -/
def Assembly.cut (a : Assembly) (first : Sdu) (nextSegmentSize : ℕ) : Assembly :=
  let currSegmentSize := min first.getSize nextSegmentSize
  let rest := first.bytes.drop currSegmentSize
  let newTag := match first.status with
    | .FULL_SDU => .FIRST_SEGMENT
    | .LAST_SEGMENT => .MIDDLE_SEGMENT
    | status => status
  let oldTag := match first.status with
    | .FULL_SDU => .LAST_SEGMENT
    | status => status
  if 0 < rest.length then
    { a with
      txBuffer := ⟨rest, oldTag⟩ :: a.txBuffer
      txBufferSize := a.txBufferSize + UInt32.ofNat rest.length }.close
        ⟨first.bytes.take currSegmentSize, newTag⟩
  else
    let newTag := match newTag with
      | .FIRST_SEGMENT => .FULL_SDU
      | .MIDDLE_SEGMENT => .LAST_SEGMENT
      | status => status
    a.close ⟨first.bytes.take currSegmentSize, newTag⟩

/-- The loop over the SDUs; `first` has been taken out of the transmission buffer. -/
def assemble (header : LteRlcHeader) (dataField : List Sdu) (nextSegmentSize nextSegmentId : ℕ)
    (first : Sdu) (size : UInt32) : List Sdu → Assembly
  | [] =>
    let a : Assembly := ⟨header, dataField, [], size⟩
    if 0 < first.getSize ∧ 0 < nextSegmentSize then
      if nextSegmentSize < first.getSize ∨ 2047 < first.getSize then a.cut first nextSegmentSize
      else a.close first
    else a
  | next :: txBuffer =>
    let a : Assembly := ⟨header, dataField, next :: txBuffer, size⟩
    if 0 < first.getSize ∧ 0 < nextSegmentSize then
      if nextSegmentSize < first.getSize ∨ 2047 < first.getSize then a.cut first nextSegmentSize
      else if nextSegmentSize - first.getSize ≤ 2 then a.close first
      else
        assemble
          ((header.pushExtensionBit E_LI_FIELDS_FOLLOWS).pushLengthIndicator first.getSize)
          (dataField ++ [first])
          (nextSegmentSize - ((if nextSegmentId % 2 = 1 then 2 else 1) + first.getSize))
          (nextSegmentId + 1) next (size - UInt32.ofNat next.getSize) txBuffer
    else a

/-- The PDU is numbered and sent. An empty data field is read out of bounds. -/
def finish (s : LteRlcUm) (a : Assembly) : Option (LteRlcUm × List Output) := do
  let first ← a.dataField.head?
  let last ← a.dataField.getLast?
  let h := (a.header.setSequenceNumber s.sequenceNumber).setFramingInfo
    (framingInfo first.status last.status)
  pure ({ s with
    txBuffer := a.txBuffer
    txBufferSize := a.txBufferSize
    sequenceNumber := s.sequenceNumber.increment
    rbsTimer := s.rbsTimer || !a.txBuffer.isEmpty },
    [.transmitPdu ⟨h, a.dataField.flatMap Sdu.bytes⟩])

def doNotifyTxOpportunity (s : LteRlcUm) (bytes : ℕ) : Option (LteRlcUm × List Output) :=
  if bytes ≤ 2 then some (s, [])
  else
    match s.txBuffer with
    | [] => some (s, [])
    | first :: txBuffer =>
      s.finish (assemble {} [] (bytes - 2) 1 first
        (s.txBufferSize - UInt32.ofNat first.getSize) txBuffer)

def expireRbsTimer (s : LteRlcUm) : LteRlcUm × List Output :=
  if s.txBuffer.isEmpty then ({ s with rbsTimer := false }, [])
  else ({ s with rbsTimer := true }, [s.doReportBufferStatus])

end LteRlcUm

/-! ## Reassembly -/

namespace Reassembly

open LteRlcAm (splitSdus)

/-- All SDUs are complete. -/
def deliverAll (r : Reassembly) (sdus : List (List UInt8)) :
    Option (Reassembly × List (List UInt8)) :=
  some ({ r with reassemblingState := .WAITING_S0_FULL, sdusBuffer := [] }, sdus)

/-- The last SDU is not complete: it is kept. -/
def deliverKeepLast (r : Reassembly) (sdus : List (List UInt8)) :
    Option (Reassembly × List (List UInt8)) :=
  sdus.getLast?.map fun last =>
    ({ r with reassemblingState := .WAITING_SI_SF, keepS0 := some last, sdusBuffer := [] },
      sdus.dropLast)

/-- The SDUs of a PDU that does not continue the one that is kept. -/
def restart (r : Reassembly) (framingInfo : ℕ) : Option (Reassembly × List (List UInt8)) :=
  let sdus := r.sdusBuffer
  if framingInfo = FIRST_BYTE ||| LAST_BYTE then r.deliverAll sdus
  else if framingInfo = FIRST_BYTE ||| NO_LAST_BYTE then r.deliverKeepLast sdus
  else if framingInfo = NO_FIRST_BYTE ||| LAST_BYTE then r.deliverAll sdus.tail
  else if framingInfo = NO_FIRST_BYTE ||| NO_LAST_BYTE then
    if sdus.length = 1 then r.deliverAll [] else r.deliverKeepLast sdus.tail
  else some (r, [])

/-- The reassembling automaton; an impossible transition leaves the SDUs in their buffer. -/
def reassemble (r : Reassembly) (expectedSnLost : Bool) (framingInfo : ℕ) :
    Option (Reassembly × List (List UInt8)) :=
  let sdus := r.sdusBuffer
  match expectedSnLost, r.reassemblingState with
  | _, .WAITING_S0_FULL => r.restart framingInfo
  | true, .WAITING_SI_SF =>
    if framingInfo ≤ 3 then { r with keepS0 := none }.restart framingInfo else some (r, [])
  | false, .WAITING_SI_SF =>
    if framingInfo = NO_FIRST_BYTE ||| LAST_BYTE then do
      let kept ← r.keepS0
      let first ← sdus.head?
      let sdu := kept ++ first
      { r with keepS0 := some sdu }.deliverAll (sdu :: sdus.tail)
    else if framingInfo = NO_FIRST_BYTE ||| NO_LAST_BYTE then do
      let kept ← r.keepS0
      let first ← sdus.head?
      let sdu := kept ++ first
      if sdus.length = 1 then pure ({ r with keepS0 := some sdu, sdusBuffer := [] }, [])
      else r.deliverKeepLast (sdu :: sdus.tail)
    else some (r, [])

def reassembleAndDeliver (r : Reassembly) (p : UmPdu) :
    Option (Reassembly × List (List UInt8)) := do
  let (h, data) ← p.removeHeader
  let expectedSnLost := decide (h.sequenceNumber.value ≠ r.expectedSeqNumber.value)
  let next := if expectedSnLost then h.sequenceNumber.add 1 else r.expectedSeqNumber.increment
  let sdus ← splitSdus h.extensionBits h.lengthIndicators data
  { r with
    expectedSeqNumber := next
    sdusBuffer := r.sdusBuffer ++ sdus }.reassemble expectedSnLost h.framingInfo

end Reassembly

/-! ## Receiving -/

namespace LteRlcUm

/-- `m_rxBuffer.count`: the keys are sequence numbers. -/
def count (s : LteRlcUm) (key : ℕ) : Bool :=
  if h : key < 1024 then (s.rxBuffer ⟨key, h⟩).isSome else false

def isInsideReorderingWindow (s : LteRlcUm) (sn : SequenceNumber10) :
    Option (LteRlcUm × Bool) := do
  let s := { s with vrUh := s.vrUh.setModulusBase (s.vrUh.sub windowSize) }
  let sn := sn.setModulusBase (s.vrUh.sub windowSize)
  let inside := (← (s.vrUh.sub windowSize).le sn) && (← sn.lt s.vrUh)
  pure (s, inside)

/-- The PDU held under a key is reassembled and removed. -/
def release (s : LteRlcUm) (key : Fin 1024) (p : UmPdu) : Option (LteRlcUm × List (List UInt8)) :=
  (s.reassembly.reassembleAndDeliver p).map fun r =>
    ({ s with reassembly := r.1, rxBuffer := Function.update s.rxBuffer key none }, r.2)

/-- The loop over the keys that are held, smallest first. -/
def outsideLoop (s : LteRlcUm) : List (Fin 1024) → Option (LteRlcUm × List (List UInt8))
  | [] => some (s, [])
  | key :: keys =>
    match s.rxBuffer key with
    | none => outsideLoop s keys
    | some p => do
      let (s, inside) ← s.isInsideReorderingWindow (SequenceNumber10.mk' key)
      if inside then pure (s, [])
      else
        let (s, out) ← s.release key p
        let (s, out') ← outsideLoop s keys
        pure (s, out ++ out')

def reassembleOutsideWindow (s : LteRlcUm) : Option (LteRlcUm × List (List UInt8)) :=
  s.outsideLoop (List.finRange 1024)

def intervalLoop : ℕ → LteRlcUm → SequenceNumber10 → SequenceNumber10 →
    Option (LteRlcUm × List (List UInt8))
  | 0, _, _, _ => none
  | fuel + 1, s, sn, highSeqNumber => do
    if ← sn.lt highSeqNumber then
      match s.rxBuffer sn.value with
      | none => intervalLoop fuel s sn.increment highSeqNumber
      | some p =>
        let (s, out) ← s.release sn.value p
        let (s, out') ← intervalLoop fuel s sn.increment highSeqNumber
        pure (s, out ++ out')
    else pure (s, [])

def reassembleSnInterval (s : LteRlcUm) (lowSeqNumber highSeqNumber : SequenceNumber10) :
    Option (LteRlcUm × List (List UInt8)) :=
  intervalLoop 1024 s lowSeqNumber highSeqNumber

/-- The bases of VR(UR) and VR(UH). -/
def setBases (s : LteRlcUm) : LteRlcUm :=
  { s with
    vrUr := s.vrUr.setModulusBase (s.vrUh.sub windowSize)
    vrUh := s.vrUh.setModulusBase (s.vrUh.sub windowSize) }

/-- Section 5.1.2.2.2: the PDU has been received before, or is not waited for. -/
def isDiscarded (s : LteRlcUm) (sn : SequenceNumber10) : Option Bool := do
  let before := (← s.vrUr.lt sn) && (← sn.lt s.vrUh) && s.count sn.getValue
  let late := (← (s.vrUh.sub windowSize).le sn) && (← sn.lt s.vrUr)
  pure (before || late)

def place (s : LteRlcUm) (sn : SequenceNumber10) (p : UmPdu) : LteRlcUm :=
  { s with rxBuffer := Function.update s.rxBuffer sn.value (some p) }

/-- A PDU outside of the reordering window moves the window. -/
def moveWindow (s : LteRlcUm) (sn : SequenceNumber10) : Option (LteRlcUm × List (List UInt8)) := do
  let (s, inside) ← s.isInsideReorderingWindow sn
  if inside then pure (s, [])
  else
    let (s, out) ← { s with vrUh := sn.add 1 }.reassembleOutsideWindow
    let (s, inside) ← s.isInsideReorderingWindow s.vrUr
    pure (if inside then s else { s with vrUr := s.vrUh.sub windowSize }, out)

/-- The first key from `key` on that is not held; the key has 16 bits. -/
def firstKeyMissing (s : LteRlcUm) : ℕ → ℕ → Option ℕ
  | 0, _ => none
  | fuel + 1, key =>
    if s.count key then firstKeyMissing s fuel ((key + 1) % 65536) else some key

/-- A PDU numbered VR(UR) moves VR(UR). -/
def advanceVrUr (s : LteRlcUm) : Option (LteRlcUm × List (List UInt8)) :=
  if s.count s.vrUr.getValue then do
    let newVrUr ← s.firstKeyMissing 1024 (s.vrUr.getValue + 1)
    let vrUr := s.vrUr.assign newVrUr
    { s with vrUr := vrUr }.reassembleSnInterval s.vrUr vrUr
  else some (s, [])

def stopReordering (s : LteRlcUm) : Option LteRlcUm :=
  if s.reorderingTimer then do
    let passed ← s.vrUx.le s.vrUr
    let (s, inside) ← s.isInsideReorderingWindow s.vrUx
    if passed || (!inside && s.vrUx.value ≠ s.vrUh.value) then
      pure { s with reorderingTimer := false }
    else pure s
  else some s

def startReordering (s : LteRlcUm) : Option LteRlcUm :=
  if s.reorderingTimer then some s
  else do
    if ← s.vrUh.gt s.vrUr then pure { s with reorderingTimer := true, vrUx := s.vrUh } else pure s

/-- The reordering timer after a PDU has been placed. -/
def updateTimer (s : LteRlcUm) : Option LteRlcUm :=
  let base := s.vrUh.sub windowSize
  ({ s with
    vrUr := s.vrUr.setModulusBase base
    vrUx := s.vrUx.setModulusBase base
    vrUh := s.vrUh.setModulusBase base }.stopReordering).bind startReordering

/-- Section 5.1.2.2.3: a PDU has been placed in the reception buffer. -/
def afterPlacing (s : LteRlcUm) (sn : SequenceNumber10) :
    Option (LteRlcUm × List (List UInt8)) := do
  let (s, out) ← s.moveWindow sn
  let (s, out') ← s.advanceVrUr
  let s ← s.updateTimer
  pure (s, out ++ out')

def doReceivePdu (s : LteRlcUm) (p : UmPdu) : Option (LteRlcUm × List (List UInt8)) := do
  let h ← p.peekHeader
  let sn := h.sequenceNumber.setModulusBase (s.vrUh.sub windowSize)
  let s := s.setBases
  if ← s.isDiscarded sn then pure (s, []) else (s.place sn p).afterPlacing sn

/-- The first number from `sn` on that is not held. -/
def firstMissing (s : LteRlcUm) : ℕ → SequenceNumber10 → Option SequenceNumber10
  | 0, _ => none
  | fuel + 1, sn =>
    if (s.rxBuffer sn.value).isSome then firstMissing s fuel sn.increment else some sn

/-- Section 5.1.2.2.4: the reordering timer has expired. -/
def expireReorderingTimer (s : LteRlcUm) : Option (LteRlcUm × List (List UInt8)) := do
  let vrUr ← s.firstMissing 1024 s.vrUx
  let (s, out) ← { s with
    reorderingTimer := false
    vrUr := vrUr }.reassembleSnInterval s.vrUr vrUr
  let s ← s.startReordering
  pure (s, out)

end LteRlcUm

end Bullet.Rlc
