import Bullet.Rlc.Am

/-! # An RLC AM entity: its receiving side and its timers

A data PDU inside the receiving window is kept until all PDUs before it have come; the SDUs are
then put together again from the data fields. A STATUS PDU acknowledges the transmitted PDUs or
reports them missing.
-/

namespace Bullet.Rlc.LteRlcAm

/-! ## Reassembly -/

/-- The data field cut into its SDUs, as the extension bits and length indicators say. -/
def splitSdus : List ℕ → List ℕ → List UInt8 → Option (List (List UInt8))
  | [], _, _ => none
  | extensionBit :: es, lis, data =>
    if extensionBit = 0 then some [data]
    else
      match lis with
      | [] => none
      | li :: lis =>
        if li ≤ data.length then (splitSdus es lis (data.drop li)).map (data.take li :: ·)
        else none

def deliver (sdus : List (List UInt8)) : List Output := sdus.map .receivePdcpPdu

/-- All SDUs are complete. -/
def deliverAll (s : LteRlcAm) (sdus : List (List UInt8)) : Option (LteRlcAm × List Output) :=
  some ({ s with reassemblingState := .WAITING_S0_FULL, sdusBuffer := [] }, deliver sdus)

/-- The last SDU is not complete: it is kept. -/
def deliverKeepLast (s : LteRlcAm) (sdus : List (List UInt8)) :
    Option (LteRlcAm × List Output) :=
  sdus.getLast?.map fun last =>
    ({ s with reassemblingState := .WAITING_SI_SF, keepS0 := some last, sdusBuffer := [] },
      deliver sdus.dropLast)

/-- The first SDU is discarded, its beginning is lost. -/
def discardFirst (s : LteRlcAm) (framingInfo : ℕ) (sdus : List (List UInt8)) :
    Option (LteRlcAm × List Output) :=
  if framingInfo = NO_FIRST_BYTE ||| LAST_BYTE then s.deliverAll sdus.tail
  else if sdus.length = 1 then s.deliverAll []
  else s.deliverKeepLast sdus.tail

/-- The reassembling automaton; an impossible transition leaves everything as it is. -/
def reassemble (s : LteRlcAm) (expectedSnLost : Bool) (framingInfo : ℕ) :
    Option (LteRlcAm × List Output) :=
  let sdus := s.sdusBuffer
  match expectedSnLost, s.reassemblingState with
  | false, .WAITING_S0_FULL =>
    if framingInfo = FIRST_BYTE ||| LAST_BYTE then s.deliverAll sdus
    else if framingInfo = FIRST_BYTE ||| NO_LAST_BYTE then s.deliverKeepLast sdus
    else some (s, [])
  | false, .WAITING_SI_SF =>
    if framingInfo = NO_FIRST_BYTE ||| LAST_BYTE then do
      let kept ← s.keepS0
      let first ← sdus.head?
      let sdu := kept ++ first
      { s with keepS0 := some sdu }.deliverAll (sdu :: sdus.tail)
    else if framingInfo = NO_FIRST_BYTE ||| NO_LAST_BYTE then do
      let kept ← s.keepS0
      let first ← sdus.head?
      let sdu := kept ++ first
      if sdus.length = 1 then pure ({ s with keepS0 := some sdu, sdusBuffer := [] }, [])
      else s.deliverKeepLast (sdu :: sdus.tail)
    else some (s, [])
  | true, state =>
    let s := if state = .WAITING_SI_SF then { s with keepS0 := none } else s
    if framingInfo = FIRST_BYTE ||| LAST_BYTE then s.deliverAll sdus
    else if framingInfo = FIRST_BYTE ||| NO_LAST_BYTE then s.deliverKeepLast sdus
    else s.discardFirst framingInfo sdus

def reassembleAndDeliver (s : LteRlcAm) (p : AmPdu) : Option (LteRlcAm × List Output) := do
  let (h, data) ← p.removeHeader
  let expectedSnLost := decide (h.sequenceNumber.value ≠ s.expectedSeqNumber.value)
  let next := if expectedSnLost then h.sequenceNumber.add 1 else s.expectedSeqNumber.add 1
  let sdus ← splitSdus h.extensionBits h.lengthIndicators data
  { s with
    expectedSeqNumber := next
    sdusBuffer := s.sdusBuffer ++ sdus }.reassemble expectedSnLost h.framingInfo

/-! ## Data PDUs -/

def isInsideReceivingWindow (s : LteRlcAm) (sn : SequenceNumber10) :
    Option (LteRlcAm × Bool) := do
  let s := { s with
    vrR := s.vrR.setModulusBase s.vrR
    vrMr := s.vrMr.setModulusBase s.vrR }
  let sn := sn.setModulusBase s.vrR
  let inside := (← s.vrR.le sn) && (← sn.lt s.vrMr)
  pure (s, inside)

/-- The first number from `sn` on that is not complete; the loop aborts when it comes round. -/
def firstIncomplete (s : LteRlcAm) : ℕ → SequenceNumber10 → Option SequenceNumber10
  | 0, _ => none
  | fuel + 1, sn => if s.isComplete sn then firstIncomplete s fuel sn.increment else some sn

/-- The PDU at VR(R) is removed and VR(R) moves on, with the base of the receiving variables. -/
def advanceVrR (s : LteRlcAm) : LteRlcAm :=
  let vrR := s.vrR.increment
  { s with
    rxonBuffer := Function.update s.rxonBuffer s.vrR.value none
    vrR := vrR.setModulusBase vrR
    vrX := s.vrX.setModulusBase vrR
    vrMs := s.vrMs.setModulusBase vrR
    vrH := s.vrH.setModulusBase vrR }

/-- The PDUs from VR(R) on are delivered while they are complete. -/
def deliverLoop (s : LteRlcAm) : ℕ → Option (LteRlcAm × List Output)
  | 0 => none
  | fuel + 1 =>
    match s.rxonBuffer s.vrR.value with
    | some ⟨segments, true⟩ => do
      let (s, out) ← match segments with
        | [p] => s.reassembleAndDeliver p
        | _ => none
      let (s, out') ← deliverLoop s.advanceVrR fuel
      pure (s, out ++ out')
    | _ => some (s, [])

/-- The PDU is kept unless one of its number is there. -/
def place (s : LteRlcAm) (sn : SequenceNumber10) (p : AmPdu) : Option LteRlcAm :=
  match s.rxonBuffer sn.value with
  | some b => if b.byteSegments.length = 1 then some s else none
  | none => some { s with rxonBuffer := Function.update s.rxonBuffer sn.value (some ⟨[p], true⟩) }

def stopReordering (s : LteRlcAm) : Option LteRlcAm :=
  if s.reorderingTimer then
    if s.vrX.value = s.vrR.value then some { s with reorderingTimer := false }
    else do
      let (s, inside) ← s.isInsideReceivingWindow s.vrX
      if !inside && s.vrX.value ≠ s.vrMr.value then pure { s with reorderingTimer := false }
      else pure s
  else some s

def startReordering (s : LteRlcAm) : Option LteRlcAm :=
  if s.reorderingTimer then some s
  else do
    if ← s.vrH.gt s.vrR then pure { s with reorderingTimer := true, vrX := s.vrH } else pure s

def updateVrH (s : LteRlcAm) (sn : SequenceNumber10) : Option LteRlcAm :=
  (sn.ge s.vrH).map fun ahead => if ahead then { s with vrH := sn.add 1 } else s

def updateVrMs (s : LteRlcAm) : Option LteRlcAm :=
  (s.firstIncomplete 1024 s.vrMs).map fun vrMs => { s with vrMs := vrMs }

/-- Delivery starts with the PDU at VR(R). -/
def deliverFrom (s : LteRlcAm) (sn : SequenceNumber10) : Option (LteRlcAm × List Output) :=
  if sn.value = s.vrR.value ∧ s.isComplete sn then
    (s.deliverLoop 1024).map fun r => ({ r.1 with vrMr := r.1.vrR.add WINDOW_SIZE }, r.2)
  else some (s, [])

/-- Section 5.1.3.2.3: a PDU has been placed in the reception buffer. -/
def afterPlacing (s : LteRlcAm) (sn : SequenceNumber10) : Option (LteRlcAm × List Output) := do
  let s ← s.updateVrH sn
  let s ← s.updateVrMs
  let (s, out) ← s.deliverFrom sn
  let s ← s.stopReordering
  let s ← s.startReordering
  pure (s, out)

/-- A PDU with the polling bit requests a STATUS PDU. -/
def requestStatus (s : LteRlcAm) (h : LteRlcAmHeader) : LteRlcAm :=
  if h.pollingBit = STATUS_REPORT_IS_REQUESTED then
    { s with statusPduRequested := true, statusPduBufferSize := 4 }
  else s

def reportRequest (s : LteRlcAm) (h : LteRlcAmHeader) : Option (List Output) :=
  if h.pollingBit = STATUS_REPORT_IS_REQUESTED ∧ s.statusProhibitTimer = false then
    s.doReportBufferStatus
  else some []

/-- A PDU outside the receiving window is discarded. -/
def receiveInWindow (s : LteRlcAm) (sn : SequenceNumber10) (p : AmPdu) :
    Option (LteRlcAm × List Output) := do
  let (s, inside) ← s.isInsideReceivingWindow sn
  if inside then (s.place sn p).bind fun s => s.afterPlacing sn else some (s, [])

def receiveData (s : LteRlcAm) (h : LteRlcAmHeader) (p : AmPdu) :
    Option (LteRlcAm × List Output) :=
  if h.resegmentationFlag = SEGMENT ∨ h.resegmentationFlag = PDU then do
    let report ← (s.requestStatus h).reportRequest h
    let (s, out) ← (s.requestStatus h).receiveInWindow (h.sequenceNumber.setModulusBase s.vrR) p
    pure (s, report ++ out)
  else none

/-! ## STATUS PDUs -/

/-- A number reported missing: its PDU is moved to the retransmission buffer, or is there. -/
def nack (s : LteRlcAm) (sn : Fin 1024) : Option LteRlcAm :=
  match s.txedBuffer sn with
  | some p => some { s with
      retxBuffer := Function.update s.retxBuffer sn (some p)
      retxBufferSize := s.retxBufferSize + UInt32.ofNat p.getSize
      txedBufferSize := s.txedBufferSize - UInt32.ofNat p.getSize
      txedBuffer := Function.update s.txedBuffer sn none }
  | none => if (s.retxBuffer sn).isSome then some s else none

def releaseTxed (s : LteRlcAm) (sn : Fin 1024) : Option LteRlcAm :=
  match s.txedBuffer sn with
  | some p =>
    if (s.retxBuffer sn).isSome then none
    else some { s with
      txedBufferSize := s.txedBufferSize - UInt32.ofNat p.getSize
      txedBuffer := Function.update s.txedBuffer sn none }
  | none => some s

def releaseRetx (s : LteRlcAm) (sn : Fin 1024) : LteRlcAm :=
  match s.retxBuffer sn with
  | some p => { s with
      retxBufferSize := s.retxBufferSize - UInt32.ofNat p.getSize
      retxBuffer := Function.update s.retxBuffer sn none }
  | none => s

/-- A number acknowledged: its PDU is released from either buffer. -/
def ack (s : LteRlcAm) (sn : Fin 1024) : Option LteRlcAm :=
  (s.releaseTxed sn).map fun s => s.releaseRetx sn

/-- VT(A) moves on, with the window and the base of the transmitting variables. -/
def advanceVtA (s : LteRlcAm) : LteRlcAm :=
  let vtA := s.vtA.increment
  { s with
    vtA := vtA.setModulusBase vtA
    vtMs := (vtA.add WINDOW_SIZE).setModulusBase vtA
    vtS := s.vtS.setModulusBase vtA }

def stopPolling (s : LteRlcAm) (sn : SequenceNumber10) : LteRlcAm :=
  if s.pollRetransmitTimer ∧ sn.value = s.pollSn.value then { s with pollRetransmitTimer := false }
  else s

/-- The loop over the numbers below ACK_SN and VT(S). -/
def statusLoop (h : LteRlcAmHeader) :
    ℕ → LteRlcAm → SequenceNumber10 → SequenceNumber10 → Bool → Option LteRlcAm
  | 0, _, _, _, _ => none
  | fuel + 1, s, sn, ackSn, incrementVtA => do
    if (← sn.lt ackSn) && (← sn.lt s.vtS) then
      let s := s.stopPolling sn
      let nacked ← h.isNackPresent sn
      let s ← if nacked then s.nack sn.value else s.ack sn.value
      if incrementVtA && !nacked then
        let s := s.advanceVtA
        statusLoop h fuel s (sn.setModulusBase s.vtA).increment (ackSn.setModulusBase s.vtA) true
      else statusLoop h fuel s sn.increment ackSn false
    else pure s

def receiveStatus (s : LteRlcAm) (h : LteRlcAmHeader) : Option LteRlcAm :=
  let s := { s with
    vtA := s.vtA.setModulusBase s.vtA
    vtS := s.vtS.setModulusBase s.vtA
    vtMs := s.vtMs.setModulusBase s.vtA }
  statusLoop h 1024 s s.vtA (h.ackSn.setModulusBase s.vtA) true

def doReceivePdu (s : LteRlcAm) (p : AmPdu) : Option (LteRlcAm × List Output) := do
  let h ← p.peekHeader
  if h.dataControlBit = DATA_PDU then s.receiveData h p
  else if h.dataControlBit = CONTROL_PDU then
    let s ← s.receiveStatus h
    pure (s, [])
  else pure (s, [])

/-! ## Timers -/

def expireReorderingTimer (s : LteRlcAm) : Option LteRlcAm := do
  let vrMs ← s.firstIncomplete 1024 s.vrX
  let s := { s with reorderingTimer := false, vrMs := vrMs }
  let s := if ← s.vrH.gt s.vrMs then { s with reorderingTimer := true, vrX := s.vrH } else s
  pure { s with statusPduRequested := true }

/-- A transmitted PDU is moved to the retransmission buffer. -/
def moveToRetx (s : LteRlcAm) (sn : Fin 1024) : LteRlcAm :=
  match s.txedBuffer sn with
  | some p => { s with
      retxBuffer := Function.update s.retxBuffer sn (some p)
      retxBufferSize := s.retxBufferSize + UInt32.ofNat p.getSize
      txedBufferSize := s.txedBufferSize - UInt32.ofNat p.getSize
      txedBuffer := Function.update s.txedBuffer sn none }
  | none => s

/-- All transmitted PDUs from `sn` up to VT(S). -/
def moveLoop : ℕ → LteRlcAm → SequenceNumber10 → Option LteRlcAm
  | 0, _, _ => none
  | fuel + 1, s, sn => do
    if ← sn.lt s.vtS then moveLoop fuel (s.moveToRetx sn.value) sn.increment else pure s

def expirePollRetransmitTimer (s : LteRlcAm) : Option (LteRlcAm × List Output) := do
  let s := { s with pollRetransmitTimer := false, pollRetransmitTimerJustExpired := true }
  if ← s.vtS.le s.vtMs then
    let s ←
      if s.txonBufferSize = 0 ∧ s.retxBufferSize = 0 ∨ s.vtS.value = s.vtMs.value then
        moveLoop 1024 s s.vtA
      else some s
    let out ← s.doReportBufferStatus
    pure (s, out)
  else none

def expireStatusProhibitTimer (s : LteRlcAm) : LteRlcAm := { s with statusProhibitTimer := false }

def expireRbsTimer (s : LteRlcAm) : Option (LteRlcAm × List Output) :=
  if 0 < s.txonBufferSize + s.txedBufferSize + s.retxBufferSize then do
    let out ← s.doReportBufferStatus
    pure ({ s with rbsTimer := true }, out)
  else some ({ s with rbsTimer := false }, [])

end Bullet.Rlc.LteRlcAm
