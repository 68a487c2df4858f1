import Bullet.Lib.PartialRun
import Bullet.Mac.Dci
import Bullet.Mac.ShortBsr
import Bullet.Phy.SfnSf
import Mathlib.Data.UInt

/-! # The UE MAC

The buffer status that the RLC reports, the requests for resources, and the use of a UL grant. An
opportunity makes the RLC call back into the MAC. `none` is a failed assertion, an abort, an
exception or an undefined access.
-/

namespace Bullet.Ue

open Lib.PartialRun Mac
open Phy (SfnSf)

/-- `LteMacSapProvider::ReportBufferStatusParameters`. -/
structure BufferStatus where
  lcid : UInt8
  txQueueSize : UInt32 := 0
  retxQueueSize : UInt32 := 0
  statusPduSize : UInt16 := 0
deriving DecidableEq, Repr

structure TxOpportunityParameters where
  lcid : UInt8
  bytes : UInt32
  harqId : UInt8
deriving DecidableEq, Repr

/-- The PDU is its size. -/
structure TransmitPduParameters where
  lcid : UInt8
  harqProcessId : UInt8
  pdu : UInt32
deriving DecidableEq, Repr

/-- What the RLC does with an opportunity. -/
inductive RlcCall where
  | transmitPdu (params : TransmitPduParameters)
  | reportBufferStatus (params : BufferStatus)
deriving DecidableEq, Repr

inductive SrBsrMachine where
  | inactive
  | toSend
  | active
deriving DecidableEq, Repr

/-- The queue that an opportunity is for. -/
inductive PduKind where
  | status
  | retx
  | tx
deriving DecidableEq, Repr

/-- What leaves the MAC: messages and PDUs to the PHY, opportunities to the RLC, and the trace of the
SR state. An opportunity is shown with its queue and the entry it is made for. -/
inductive Output where
  | srState (state : SrBsrMachine)
  | sr (rnti : UInt16)
  | macPdu (size : UInt32)
  | shortBsr (levels : List UInt8)
  | txOpportunity (kind : PduKind) (bsr : BufferStatus) (bytes : UInt32)
deriving DecidableEq, Repr

structure UlHarqProcessInfo where
  pktBurst : Option (List UInt32) := some []
  lcidList : List UInt8 := []
  timer : UInt8 := 0
deriving DecidableEq, Repr

structure NrUeMac where
  rnti : UInt16 := 0
  srState : SrBsrMachine := .inactive
  srPeriodicity : UInt8
  bsrPeriodicity : ℕ
  bsrLast : ℕ := 0
  lcInfoMap : List (UInt8 × UInt8) := []
  ulBsrReceived : List BufferStatus := []
  numHarqProcess : UInt8
  miUlHarqProcessesPacket : List UlHarqProcessInfo
  ulDci : Option DciInfoElementTdma := none
  ulDciTotalUsed : UInt32 := 0
  output : List Output := []
deriving Repr

/-- Where the unordered map of the reports puts a new entry, and how the RLC answers an opportunity,
given everything that it has seen of the MAC. -/
structure UeEnvironment where
  insert : BufferStatus → List BufferStatus → List BufferStatus
  insert_perm : ∀ bsr l, (insert bsr l).Perm (bsr :: l)
  notify : List Output → TxOpportunityParameters → List RlcCall

namespace BufferStatus

def total (bsr : BufferStatus) : UInt32 :=
  bsr.txQueueSize + bsr.retxQueueSize + bsr.statusPduSize.toUInt32

/-- The bytes that are pending, without overflow. -/
def pending (bsr : BufferStatus) : ℕ :=
  bsr.txQueueSize.toNat + bsr.retxQueueSize.toNat + bsr.statusPduSize.toNat

/-- The bytes that are pending in one queue. -/
def pendingOf (bsr : BufferStatus) : PduKind → ℕ
  | .status => bsr.statusPduSize.toNat
  | .retx => bsr.retxQueueSize.toNat
  | .tx => bsr.txQueueSize.toNat

def drainRetx (bytes : UInt32) (bsr : BufferStatus) : BufferStatus :=
  { bsr with retxQueueSize := bsr.retxQueueSize - min bytes bsr.retxQueueSize }

def drainTx (bytes : UInt32) (bsr : BufferStatus) : BufferStatus :=
  { bsr with txQueueSize := bsr.txQueueSize - min bytes bsr.txQueueSize }

def drainStatus (bsr : BufferStatus) : BufferStatus := { bsr with statusPduSize := 0 }

end BufferStatus

namespace NrUeMac

/-- A UE as it is configured, before any event. -/
def create (srPeriodicity : UInt8) (bsrPeriodicity : ℕ) (numHarqProcess : UInt8) : NrUeMac where
  srPeriodicity := srPeriodicity
  bsrPeriodicity := bsrPeriodicity
  numHarqProcess := numHarqProcess
  miUlHarqProcessesPacket := .replicate numHarqProcess.toNat {}

def getTotalBufSize (s : NrUeMac) : UInt32 := (s.ulBsrReceived.map BufferStatus.total).sum

/-- `m_ulDci->m_tbSize.at (0)`. -/
def tbSize (s : NrUeMac) : Option UInt32 := do
  let dci ← s.ulDci
  dci.tbSize.head?

/-- Rewriting the entry of one channel. -/
def updateBsr (s : NrUeMac) (lcid : UInt8) (f : BufferStatus → BufferStatus) : NrUeMac :=
  { s with ulBsrReceived := s.ulBsrReceived.map fun bsr => if bsr.lcid = lcid then f bsr else bsr }

def emit (s : NrUeMac) (output : Output) : NrUeMac := { s with output := s.output ++ [output] }

def setSrState (s : NrUeMac) (state : SrBsrMachine) : NrUeMac :=
  { s with srState := state, output := s.output ++ [.srState state] }

/-- Adding one entry to the queue of its logical channel group. -/
def addToQueue (s : NrUeMac) (queue : List UInt32) (bsr : BufferStatus) : Option (List UInt32) := do
  let lcg ← s.lcInfoMap.lookup bsr.lcid
  if bsr.lcid = 0 ∧ 0 < bsr.pending then none
  else do
    let size ← queue[lcg.toNat]?
    let size := size + bsr.total
    let size := if size ≠ 0 then size + 5 else size
    let size := if 0 < bsr.txQueueSize then size + 3 else size
    let size := if 0 < bsr.retxQueueSize then size + 3 else size
    some (queue.set lcg.toNat size)

def lcgQueues (s : NrUeMac) : Option (List UInt32) :=
  run s.addToQueue (.replicate 4 0) s.ulBsrReceived

/-- `DoReportBufferStatus`. A new entry while the entries are being walked (`walking`) may
invalidate the walk. -/
def doReportBufferStatus (env : UeEnvironment) (walking : Bool) (s : NrUeMac)
    (params : BufferStatus) : Option NrUeMac := do
  let _ ← s.lcgQueues
  let known := s.ulBsrReceived.any (·.lcid = params.lcid)
  if walking ∧ known = false then none
  else
    let s :=
      if known then s.updateBsr params.lcid fun _ => params
      else { s with ulBsrReceived := env.insert params s.ulBsrReceived }
    some (if s.srState = .inactive then s.setSrState .toSend else s)

/-- `NrMacHeaderVs::GetSerializedSize` after `SetSize`. -/
def macHeaderSize (pdu : UInt32) : UInt32 := if 127 < pdu.toUInt16 then 3 else 2

def doTransmitPdu (s : NrUeMac) (params : TransmitPduParameters) : Option NrUeMac := do
  let dci ← s.ulDci
  let info ← s.miUlHarqProcessesPacket[params.harqProcessId.toNat]?
  let tbSize ← s.tbSize
  let size := params.pdu + macHeaderSize params.pdu
  let used := s.ulDciTotalUsed + size
  if dci.harqProcess ≠ params.harqProcessId ∨ ¬ (1 ≤ params.lcid ∧ params.lcid ≤ 32) ∨ tbSize < used
  then none
  else
    let info : UlHarqProcessInfo :=
      { pktBurst := some (info.pktBurst.getD [] ++ [size])
        lcidList := info.lcidList ++ [params.lcid]
        timer := s.numHarqProcess }
    some { s with
      miUlHarqProcessesPacket := s.miUlHarqProcessesPacket.set params.harqProcessId.toNat info
      ulDciTotalUsed := used
      output := s.output ++ [.macPdu size] }

def rlcCall (env : UeEnvironment) (s : NrUeMac) : RlcCall → Option NrUeMac
  | .transmitPdu params => s.doTransmitPdu params
  | .reportBufferStatus params => s.doReportBufferStatus env true params

/-- `NotifyTxOpportunity` of the channel of an entry. -/
def notifyTxOpportunity (env : UeEnvironment) (s : NrUeMac) (kind : PduKind) (bsr : BufferStatus)
    (bytes : UInt32) : Option NrUeMac := do
  let dci ← s.ulDci
  let _ ← s.lcInfoMap.lookup bsr.lcid
  run (rlcCall env) (s.emit (.txOpportunity kind bsr bytes))
    (env.notify s.output ⟨bsr.lcid, bytes, dci.harqProcess⟩)

def bsrOf (s : NrUeMac) (lcid : UInt8) : Option BufferStatus :=
  s.ulBsrReceived.find? (·.lcid = lcid)

/-- The loop of `SendNewStatusData`, with `hasStatusPdu` and `sentOneStatusPdu`. -/
structure StatusLoop where
  mac : NrUeMac
  hasStatusPdu : Bool := false
  sentOneStatusPdu : Bool := false

def sendStatusPdu (env : UeEnvironment) (l : StatusLoop) (lcid : UInt8) : Option StatusLoop := do
  let bsr ← l.mac.bsrOf lcid
  let tbSize ← l.mac.tbSize
  if bsr.statusPduSize = 0 then some l
  else if l.mac.ulDciTotalUsed + bsr.statusPduSize.toUInt32 ≤ tbSize then do
    let s ← l.mac.notifyTxOpportunity env .status bsr bsr.statusPduSize.toUInt32
    some ⟨s.updateBsr lcid .drainStatus, true, true⟩
  else some { l with hasStatusPdu := true }

def lcids (s : NrUeMac) : List UInt8 := s.ulBsrReceived.map (·.lcid)

def sendNewStatusData (env : UeEnvironment) (s : NrUeMac) : Option NrUeMac := do
  let l ← run (sendStatusPdu env) { mac := s } s.lcids
  if l.hasStatusPdu ∧ l.sentOneStatusPdu = false then none else some l.mac

/-- The body of the loop of `SendRetxData` and of `SendTxData`. -/
def sendShare (env : UeEnvironment) (kind : PduKind) (bytesPerLcId : UInt32)
    (drain : UInt32 → BufferStatus → BufferStatus) (s : NrUeMac) (lcid : UInt8) :
    Option NrUeMac := do
  let bsr ← s.bsrOf lcid
  let tbSize ← s.tbSize
  if s.ulDciTotalUsed + bytesPerLcId ≤ tbSize then do
    let s ← s.notifyTxOpportunity env kind bsr bytesPerLcId
    some (s.updateBsr lcid (drain bytesPerLcId))
  else some s

def sendShares (env : UeEnvironment) (kind : PduKind)
    (drain : UInt32 → BufferStatus → BufferStatus) (usefulTbs active : UInt32) (s : NrUeMac) :
    Option NrUeMac :=
  if active = 0 then some s else run (sendShare env kind (usefulTbs / active) drain) s s.lcids

def sendRetxData (env : UeEnvironment) (usefulTbs activeLcsRetx : UInt32) (s : NrUeMac) :
    Option NrUeMac :=
  s.sendShares env .retx .drainRetx usefulTbs activeLcsRetx

def sendTxData (env : UeEnvironment) (usefulTbs activeTx : UInt32) (s : NrUeMac) :
    Option NrUeMac :=
  s.sendShares env .tx .drainTx usefulTbs activeTx

/-- `m_tbSize.at (0) - m_ulDciTotalUsed - 5`, after the assertion that it is not negative. -/
def usefulTbs (s : NrUeMac) : Option UInt32 := do
  let tbSize ← s.tbSize
  if s.ulDciTotalUsed + 5 ≤ tbSize then some (tbSize - s.ulDciTotalUsed - 5) else none

def resetHarq (s : NrUeMac) (pktBurst : Option (List UInt32)) : Option NrUeMac := do
  let dci ← s.ulDci
  let info ← s.miUlHarqProcessesPacket[dci.harqProcess.toNat]?
  some { s with
    miUlHarqProcessesPacket := s.miUlHarqProcessesPacket.set dci.harqProcess.toNat
      { info with pktBurst := pktBurst, lcidList := [] } }

def countActive (s : NrUeMac) (p : BufferStatus → Bool) : UInt32 :=
  UInt32.ofNat (s.ulBsrReceived.countP p)

/-- Serving the queues that are pending in `active` channels, unless their headers need more than
there is. -/
def sendPending (send : UInt32 → UInt32 → NrUeMac → Option NrUeMac) (active : UInt32)
    (s : NrUeMac) : Option NrUeMac := do
  let usefulTbs ← s.usefulTbs
  if 0 < active ∧ 0 < usefulTbs ∧ ¬ usefulTbs < active * 10 then
    send (usefulTbs - active * 3) active s
  else some s

def sendNewData (env : UeEnvironment) (s : NrUeMac) : Option NrUeMac := do
  let s ← s.resetHarq (some [])
  let s ← s.sendNewStatusData env
  let activeLcsRetx := s.countActive (0 < ·.retxQueueSize)
  let activeLcsTx := s.countActive (0 < ·.txQueueSize)
  let s ← s.sendPending (sendRetxData env) activeLcsRetx
  let s ← s.sendPending (sendTxData env) activeLcsTx
  if s.ulDciTotalUsed = 0 then s.resetHarq none else some s

def transmitRetx (s : NrUeMac) : Option NrUeMac := do
  let dci ← s.ulDci
  let info ← s.miUlHarqProcessesPacket[dci.harqProcess.toNat]?
  match info.pktBurst with
  | none => some s
  | some [] => none
  | some pb =>
    some { s with
      miUlHarqProcessesPacket := s.miUlHarqProcessesPacket.set dci.harqProcess.toNat
        { info with timer := s.numHarqProcess }
      ulDciTotalUsed := s.ulDciTotalUsed + pb.sum
      output := s.output ++ pb.map .macPdu }

def sendReportBufferStatus (s : NrUeMac) : Option NrUeMac :=
  if s.rnti = 0 then some s
  else if s.ulBsrReceived = [] then some s
  else do
    let queue ← s.lcgQueues
    let tbSize ← s.tbSize
    let used := s.ulDciTotalUsed + 5
    if tbSize < used then none
    else some { s with
      ulDciTotalUsed := used
      output := s.output ++ [.shortBsr (queue.map fun size => fromBytesToLevel size.toNat)] }

/-- The report that goes with the data when one is due. -/
def reportIfDue (now : ℕ) (s : NrUeMac) : Option NrUeMac :=
  if s.bsrLast + s.bsrPeriodicity ≤ now then do
    let s ← s.sendReportBufferStatus
    some { s with bsrLast := now }
  else some s

/-- The end of a new transmission: without pending bytes there is nothing to request. -/
def finishNewData (s : NrUeMac) : Option NrUeMac := do
  let dci ← s.ulDci
  if s.getTotalBufSize = 0 then
    let s := s.setSrState .inactive
    if s.ulDciTotalUsed = 0 then
      s.doTransmitPdu { lcid := 3, harqProcessId := dci.harqProcess, pdu := 0 }
    else some s
  else some s

def processUlDci (env : UeEnvironment) (now : ℕ) (dci : DciInfoElementTdma) (s : NrUeMac) :
    Option NrUeMac := do
  let s := { s with ulDciTotalUsed := 0, ulDci := some dci }
  let _ ← s.tbSize
  let ndi ← dci.ndi.head?
  if ndi = 0 then do
    let s ← s.transmitRetx
    s.reportIfDue now
  else if ndi = 1 then do
    let s ← s.sendNewData env
    let s ← s.reportIfDue now
    s.finishNewData
  else some s

/-- `RefreshHarqProcessesPacketBuffer` for one process. -/
def UlHarqProcessInfo.refreshed (info : UlHarqProcessInfo) : UlHarqProcessInfo :=
  if info.timer = 0 ∧ 0 < (info.pktBurst.getD []).sum then
    { info with pktBurst := some [], lcidList := [] }
  else info

/-- The slots in which a request may be sent, numbered in 32 bits. -/
def SrOccasion (srPeriodicity : UInt8) (sfn : SfnSf) : Prop :=
  (sfn.frameNum * 20 + 2 * sfn.subframeNum.toUInt32 + sfn.slotNum.toUInt32) %
      srPeriodicity.toUInt32 =
    2 % srPeriodicity.toUInt32

instance (srPeriodicity : UInt8) (sfn : SfnSf) : Decidable (SrOccasion srPeriodicity sfn) :=
  inferInstanceAs (Decidable (_ = _))

def sendSR (s : NrUeMac) : NrUeMac := if s.rnti = 0 then s else s.emit (.sr s.rnti)

def doSlotIndication (sfn : SfnSf) (s : NrUeMac) : Option NrUeMac :=
  let s := { s with
    miUlHarqProcessesPacket := s.miUlHarqProcessesPacket.map UlHarqProcessInfo.refreshed }
  if s.srState = .toSend then
    if s.srPeriodicity = 0 then none
    else if SrOccasion s.srPeriodicity sfn then some (s.sendSR.setSrState .active)
    else some s
  else some s

def addLc (lcid lcg : UInt8) (s : NrUeMac) : Option NrUeMac :=
  if s.lcInfoMap.lookup lcid = none then some { s with lcInfoMap := s.lcInfoMap ++ [(lcid, lcg)] }
  else none

inductive Event where
  | reportBufferStatus (params : BufferStatus)
  | slotIndication (sfn : SfnSf)
  | ulDci (now : ℕ) (dci : DciInfoElementTdma)
  | setRnti (rnti : UInt16)
  | addLc (lcid lcg : UInt8)
deriving DecidableEq, Repr

def step (env : UeEnvironment) (s : NrUeMac) : Event → Option NrUeMac
  | .reportBufferStatus params => s.doReportBufferStatus env false params
  | .slotIndication sfn => s.doSlotIndication sfn
  | .ulDci now dci => s.processUlDci env now dci
  | .setRnti rnti => some { s with rnti := rnti }
  | .addLc lcid lcg => s.addLc lcid lcg

end NrUeMac
end Bullet.Ue
