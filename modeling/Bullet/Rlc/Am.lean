import Bullet.Rlc.AmHeader
import Mathlib.Logic.Function.Basic

/-! # An RLC AM entity: its state and its transmitting side

SDUs wait in a buffer and are cut or concatenated into numbered PDUs as the MAC gives opportunities.
A PDU that is sent stays in the transmitted buffer until it is acknowledged; one that is reported
missing moves to the retransmission buffer. A failed assertion is `none`. Timers are flags: they
say whether the timer runs, and its expiry is an event.
-/

namespace Bullet.Rlc

/-- `LteRlcSduStatusTag`. -/
inductive SduStatus
  | FULL_SDU
  | FIRST_SEGMENT
  | MIDDLE_SEGMENT
  | LAST_SEGMENT
deriving DecidableEq, Repr

structure Sdu where
  bytes : List UInt8
  status : SduStatus
deriving DecidableEq, Repr

def Sdu.getSize (p : Sdu) : ℕ := p.bytes.length

/-- A packet behind its RLC header. -/
structure AmPdu where
  header : LteRlcAmHeader
  data : List UInt8
deriving DecidableEq, Repr

namespace AmPdu

def getSize (p : AmPdu) : ℕ := p.header.getSerializedSize + p.data.length

/-- The bytes of the packet. A header whose length has wrapped overwrites the data: such a packet
cannot be read. -/
def bytes (p : AmPdu) : Option (List UInt8) :=
  p.header.serialize.bind fun w =>
    if w.length = p.header.getSerializedSize then some (w ++ p.data) else none

/-- A header as constructed; its last segment flag is not initialised. -/
def newHeader : LteRlcAmHeader := { lastSegmentFlag := 0 }

def peekHeader (p : AmPdu) : Option LteRlcAmHeader :=
  (p.bytes.bind newHeader.deserialize).map Prod.fst

def removeHeader (p : AmPdu) : Option (LteRlcAmHeader × List UInt8) := do
  let h ← p.peekHeader
  let b ← p.bytes
  pure (h, b.drop h.getSerializedSize)

end AmPdu

/-- An entry of the reception buffer. -/
structure PduBuffer where
  byteSegments : List AmPdu
  pduComplete : Bool
deriving DecidableEq, Repr

inductive ReassemblingState
  | WAITING_S0_FULL
  | WAITING_SI_SF
deriving DecidableEq, Repr

/-- What an entity hands to the MAC and to the PDCP. -/
inductive Output
  | transmitPdu (pdu : AmPdu)
  | reportBufferStatus (txQueueSize retxQueueSize : UInt32) (statusPduSize : ℕ)
  | receivePdcpPdu (sdu : List UInt8)
deriving DecidableEq, Repr

def WINDOW_SIZE : ℕ := 512
def POLL_PDU : UInt32 := 1
def POLL_BYTE : UInt32 := 50
def STATUS_REPORT_NOT_REQUESTED : ℕ := 0
def STATUS_REPORT_IS_REQUESTED : ℕ := 1
def FIRST_BYTE : ℕ := 0x00
def NO_FIRST_BYTE : ℕ := 0x02
def LAST_BYTE : ℕ := 0x00
def NO_LAST_BYTE : ℕ := 0x01
def LAST_PDU_SEGMENT : ℕ := 1

structure LteRlcAm where
  maxTxBufferSize : UInt32
  txOpportunityForRetxAlwaysBigEnough : Bool
  txonBuffer : List Sdu := []
  txonBufferSize : UInt32 := 0
  retxBuffer : Fin 1024 → Option AmPdu := fun _ => none
  retxBufferSize : UInt32 := 0
  txedBuffer : Fin 1024 → Option AmPdu := fun _ => none
  txedBufferSize : UInt32 := 0
  statusPduRequested : Bool := false
  statusPduBufferSize : ℕ := 0
  vtA : SequenceNumber10 := {}
  vtMs : SequenceNumber10 := SequenceNumber10.add {} WINDOW_SIZE
  vtS : SequenceNumber10 := {}
  pollSn : SequenceNumber10 := {}
  vrR : SequenceNumber10 := {}
  vrMr : SequenceNumber10 := SequenceNumber10.add {} WINDOW_SIZE
  vrX : SequenceNumber10 := {}
  vrMs : SequenceNumber10 := {}
  vrH : SequenceNumber10 := {}
  pduWithoutPoll : UInt32 := 0
  byteWithoutPoll : UInt32 := 0
  rxonBuffer : Fin 1024 → Option PduBuffer := fun _ => none
  reassemblingState : ReassemblingState := .WAITING_S0_FULL
  keepS0 : Option (List UInt8) := none
  sdusBuffer : List (List UInt8) := []
  expectedSeqNumber : SequenceNumber10 := {}
  pollRetransmitTimer : Bool := false
  reorderingTimer : Bool := false
  statusProhibitTimer : Bool := false
  rbsTimer : Bool := false
  pollRetransmitTimerJustExpired : Bool := false

namespace LteRlcAm

/-- The report reads the front of the transmission buffer when its counter is positive. -/
def doReportBufferStatus (s : LteRlcAm) : Option (List Output) :=
  if 0 < s.txonBufferSize ∧ s.txonBuffer = [] then none
  else
    let retxQueueSize := s.retxBufferSize + s.txedBufferSize
    let statusPduSize :=
      if s.statusPduRequested && !s.statusProhibitTimer then s.statusPduBufferSize else 0
    if s.txonBufferSize ≠ 0 ∨ retxQueueSize ≠ 0 ∨ statusPduSize ≠ 0 then
      some [.reportBufferStatus s.txonBufferSize retxQueueSize statusPduSize]
    else some []

/-- An SDU that does not fit in the buffer is discarded. -/
def doTransmitPdcpPdu (s : LteRlcAm) (p : List UInt8) : Option (LteRlcAm × List Output) := do
  let size := UInt32.ofNat p.length
  let s :=
    if s.txonBufferSize + size ≤ s.maxTxBufferSize ∨ s.maxTxBufferSize = 0 then
      { s with
        txonBuffer := s.txonBuffer ++ [⟨p, .FULL_SDU⟩]
        txonBufferSize := s.txonBufferSize + size }
    else s
  let out ← s.doReportBufferStatus
  pure ({ s with rbsTimer := true }, out)

/-! ## STATUS PDUs -/

/-- Whether a number's PDU is in the reception buffer, complete. -/
def isComplete (s : LteRlcAm) (sn : SequenceNumber10) : Bool :=
  match s.rxonBuffer sn.value with
  | some b => b.pduComplete
  | none => false

/-- The loop over the numbers to report as missing, from `sn` on. -/
def nackLoop (s : LteRlcAm) (bytes : ℕ) :
    ℕ → SequenceNumber10 → LteRlcAmHeader → Option (LteRlcAmHeader × SequenceNumber10)
  | 0, _, _ => none
  | fuel + 1, sn, h => do
    if ← sn.lt s.vrMs then
      if ← h.oneMoreNackWouldFitIn bytes then
        if s.isComplete sn then nackLoop s bytes fuel sn.increment h
        else nackLoop s bytes fuel sn.increment (← h.pushNack sn.getValue)
      else pure (h, sn)
    else pure (h, sn)

/-- The loop to the first number that is not reported as missing and has not been received. -/
def ackLoop (s : LteRlcAm) : ℕ → SequenceNumber10 → Option SequenceNumber10
  | 0, _ => none
  | fuel + 1, sn => do
    if (← sn.lt s.vrMs) && s.isComplete sn then ackLoop s fuel sn.increment else pure sn

/-- The size of the opportunity is passed on in 16 bits. -/
def transmitStatusPdu (s : LteRlcAm) (bytes : ℕ) : Option (LteRlcAm × List Output) :=
  if bytes < s.statusPduBufferSize then none
  else do
    let (h, sn) ← s.nackLoop (bytes % 65536) 1024 s.vrR (AmPdu.newHeader.setControlPdu STATUS_PDU)
    let sn ← s.ackLoop 1024 sn
    if ← sn.le s.vrMs then
      pure ({ s with
        statusPduRequested := false
        statusPduBufferSize := 0
        statusProhibitTimer := true }, [.transmitPdu ⟨h.setAckSn sn, []⟩])
    else none

/-! ## Retransmission -/

/-- A poll is requested with the PDU that is about to be sent. -/
def poll (s : LteRlcAm) : LteRlcAm :=
  { s with
    pollRetransmitTimerJustExpired := false
    pduWithoutPoll := 0
    byteWithoutPoll := 0
    pollSn := s.vtS.sub 1
    pollRetransmitTimer := true }

/-- The last two conditions for a poll are evaluated when those before them fail. -/
def isPollDue (s : LteRlcAm) (due : Bool) : Option Bool :=
  if due then some true
  else (s.vtS.ge s.vtMs).map fun windowFull => windowFull || s.pollRetransmitTimerJustExpired

/-- The first number from `sn` on with a PDU to retransmit. -/
def firstRetx (s : LteRlcAm) : ℕ → SequenceNumber10 → Option (SequenceNumber10 × AmPdu)
  | 0, _ => none
  | fuel + 1, sn => do
    if ← sn.lt s.vtS then
      match s.retxBuffer sn.value with
      | some p => pure (sn, p)
      | none => firstRetx s fuel sn.increment
    else none

/-- The PDU goes back to the transmitted buffer as it was stored. -/
def moveToTxed (s : LteRlcAm) (sn : Fin 1024) (p : AmPdu) : LteRlcAm :=
  { s with
    txedBuffer := Function.update s.txedBuffer sn (some p)
    txedBufferSize := s.txedBufferSize + UInt32.ofNat p.getSize
    retxBufferSize := s.retxBufferSize - UInt32.ofNat p.getSize
    retxBuffer := Function.update s.retxBuffer sn none }

def retransmit (s : LteRlcAm) (bytes : ℕ) : Option (LteRlcAm × List Output) := do
  if ← s.vtA.lt s.vtS then
    let (sn, p) ← s.firstRetx 1024 s.vtA
    if p.getSize ≤ bytes ∨ s.txOpportunityForRetxAlwaysBigEnough then
      let (h, data) ← p.removeHeader
      let h := h.setPollingBit STATUS_REPORT_NOT_REQUESTED
      let last := s.txonBuffer.isEmpty &&
        s.retxBufferSize = UInt32.ofNat (data.length + h.getSerializedSize)
      if ← s.isPollDue last then
        pure (s.poll.moveToTxed sn.value p,
          [.transmitPdu ⟨h.setPollingBit STATUS_REPORT_IS_REQUESTED, data⟩])
      else pure (s.moveToTxed sn.value p, [.transmitPdu ⟨h, data⟩])
    else pure (s, [])
  else none

/-! ## New data PDUs -/

/-- The header, the data field and the transmission buffer while a PDU is put together. -/
structure Assembly where
  header : LteRlcAmHeader
  dataField : List Sdu
  txonBuffer : List Sdu
  txonBufferSize : UInt32

/-- The segment is mapped to the end of the data field. -/
def Assembly.close (a : Assembly) (segment : Sdu) : Assembly :=
  { a with
    header := a.header.pushExtensionBit DATA_FIELD_FOLLOWS
    dataField := a.dataField ++ [segment] }

/-- An SDU that does not fit, or is too long for a length indicator, is cut; the rest is given
back. -/
def Assembly.cut (a : Assembly) (first : Sdu) (nextSegmentSize : ℕ) : Assembly :=
  let currSegmentSize := min first.getSize nextSegmentSize
  let rest := first.bytes.drop currSegmentSize
  let newTag := match first.status with
    | .FULL_SDU => .FIRST_SEGMENT
    | .LAST_SEGMENT => .MIDDLE_SEGMENT
    | status => status
  let oldTag := match first.status with
    | .FULL_SDU => .LAST_SEGMENT
    | status => status
  if 0 < rest.length then
    { a with
      txonBuffer := ⟨rest, oldTag⟩ :: a.txonBuffer
      txonBufferSize := a.txonBufferSize + UInt32.ofNat rest.length }.close
        ⟨first.bytes.take currSegmentSize, newTag⟩
  else
    let newTag := match newTag with
      | .FIRST_SEGMENT => .FULL_SDU
      | .MIDDLE_SEGMENT => .LAST_SEGMENT
      | status => status
    a.close ⟨first.bytes.take currSegmentSize, newTag⟩

/-- The loop over the SDUs; `first` has been taken out of the transmission buffer. -/
def assemble (header : LteRlcAmHeader) (dataField : List Sdu) (nextSegmentSize nextSegmentId : ℕ)
    (first : Sdu) (size : UInt32) : List Sdu → Assembly
  | [] =>
    let a : Assembly := ⟨header, dataField, [], size⟩
    if 0 < first.getSize ∧ 0 < nextSegmentSize then
      if nextSegmentSize < first.getSize ∨ 2047 < first.getSize then a.cut first nextSegmentSize
      else a.close first
    else a
  | next :: txon =>
    let a : Assembly := ⟨header, dataField, next :: txon, size⟩
    if 0 < first.getSize ∧ 0 < nextSegmentSize then
      if nextSegmentSize < first.getSize ∨ 2047 < first.getSize then a.cut first nextSegmentSize
      else if nextSegmentSize - first.getSize ≤ 2 then a.close first
      else
        assemble
          ((header.pushExtensionBit E_LI_FIELDS_FOLLOWS).pushLengthIndicator first.getSize)
          (dataField ++ [first])
          (nextSegmentSize - ((if nextSegmentId % 2 = 1 then 2 else 1) + first.getSize))
          (nextSegmentId + 1) next (size - UInt32.ofNat next.getSize) txon
    else a

def framingInfo (first last : SduStatus) : ℕ :=
  (if first = .FULL_SDU ∨ first = .FIRST_SEGMENT then FIRST_BYTE else NO_FIRST_BYTE) |||
    (if last = .FULL_SDU ∨ last = .LAST_SEGMENT then LAST_BYTE else NO_LAST_BYTE)

/-- The header's fields are set once the data field is known. -/
def dataPdu (a : Assembly) (sn : SequenceNumber10) (first last : SduStatus) (polled : Bool) :
    AmPdu :=
  let h := ((((a.header.setSequenceNumber sn).setResegmentationFlag PDU).setLastSegmentFlag
    LAST_PDU_SEGMENT).setSegmentOffset 0).setFramingInfo (framingInfo first last)
  let h := h.setPollingBit STATUS_REPORT_NOT_REQUESTED
  ⟨if polled then h.setPollingBit STATUS_REPORT_IS_REQUESTED else h,
    a.dataField.flatMap Sdu.bytes⟩

/-- The transmission buffer without what the data field has taken, the next number, and the
counters for a poll. -/
def take (s : LteRlcAm) (a : Assembly) : LteRlcAm :=
  { s with
    txonBuffer := a.txonBuffer
    txonBufferSize := a.txonBufferSize
    vtS := s.vtS.increment
    pduWithoutPoll := s.pduWithoutPoll + 1
    byteWithoutPoll := s.byteWithoutPoll + UInt32.ofNat (a.dataField.flatMap Sdu.bytes).length }

def storeTxed (s : LteRlcAm) (sn : Fin 1024) (p : AmPdu) : LteRlcAm :=
  { s with
    txedBufferSize := s.txedBufferSize + UInt32.ofNat p.getSize
    txedBuffer := Function.update s.txedBuffer sn (some p) }

/-- The PDU is numbered, polled if due, stored and sent. An empty data field is read out of
bounds. -/
def finish (s : LteRlcAm) (a : Assembly) : Option (LteRlcAm × List Output) := do
  let sn := s.vtS
  let s := s.take a
  if (← sn.lt s.vtMs) && (← sn.ge s.vtA) then
    let first ← a.dataField.head?
    let last ← a.dataField.getLast?
    let polled ← s.isPollDue (decide (POLL_PDU ≤ s.pduWithoutPoll) ||
      decide (POLL_BYTE ≤ s.byteWithoutPoll) || (s.txonBuffer.isEmpty && s.retxBufferSize = 0))
    let p := dataPdu a sn first.status last.status polled
    pure ((if polled then s.poll else s).storeTxed sn.value p, [.transmitPdu p])
  else none

def transmitNewPdu (s : LteRlcAm) (bytes : ℕ) : Option (LteRlcAm × List Output) :=
  match s.txonBuffer with
  | [] => some (s, [])
  | first :: txon =>
    s.finish (assemble AmPdu.newHeader.setDataPdu [] (bytes - 4) 1 first
      (s.txonBufferSize - UInt32.ofNat first.getSize) txon)

def doNotifyTxOpportunity (s : LteRlcAm) (bytes : ℕ) : Option (LteRlcAm × List Output) :=
  if bytes < 4 then none
  else if s.statusPduRequested && !s.statusProhibitTimer then s.transmitStatusPdu bytes
  else if 0 < s.retxBufferSize then s.retransmit bytes
  else if 0 < s.txonBufferSize then
    if bytes < 7 then none
    else do
      if ← s.vtS.le s.vtMs then
        if s.vtS.value = s.vtMs.value then pure (s, []) else s.transmitNewPdu bytes
      else none
  else some (s, [])

end LteRlcAm

end Bullet.Rlc
