import Mathlib.Data.List.Forall2
import Bullet.Lib.FirstFit
import Bullet.Mac.Dci

/-! # UL HARQ retransmissions

`ScheduleUlHarq` walks over the NACKed feedbacks, gives a retransmission the symbols below the
starting point as long as they suffice, and buffers what does not fit. It stops at the first
feedback that finds no symbol left.
-/

namespace Bullet.Mac

open Lib.Blocks Lib.FirstFit

/-- Stores a UL process of the user `ue` at `key`. -/
def UeMap.putUlHarq (ueMap : UeMap) (key : HarqKey) (ue : NrMacSchedulerUeInfo)
    (process : HarqProcess) : UeMap :=
  Function.update ueMap key.rnti
    (some { ue with ulHarq := Function.update ue.ulHarq key.harqProcessId (some process) })

def UeMap.ulProcess (ueMap : UeMap) (key : HarqKey) : Option HarqProcess :=
  (ueMap key.rnti).bind fun ue => ue.ulHarq key.harqProcessId

/-- What `ScheduleUlHarq` reads and writes. -/
structure UlHarqState where
  startingPoint : PointInFTPlane
  symAvail : UInt8
  symUsed : UInt8 := 0
  ueMap : UeMap
  ulHarqToRetransmit : List UlHarqInfo
  slotAlloc : SlotAllocInfo

namespace UlHarqState

/-- The DCI built for the process `harqId` from its last one, right below the starting point. -/
def retxDci (s : UlHarqState) (harqId : UInt8) (dciInfoReTx : DciInfoElementTdma) (rv : UInt8) :
    DciInfoElementTdma where
  rnti := dciInfoReTx.rnti
  format := dciInfoReTx.format
  symStart := s.startingPoint.sym - dciInfoReTx.numSym
  numSym := dciInfoReTx.numSym
  mcs := dciInfoReTx.mcs
  tbSize := dciInfoReTx.tbSize
  ndi := [0]
  rv := [rv + 1]
  type := .data
  bwpIndex := dciInfoReTx.bwpIndex
  tpc := dciInfoReTx.tpc
  rbgBitmask := dciInfoReTx.rbgBitmask
  harqProcess := harqId

/-- The state after a retransmission on the symbols right below the starting point. -/
def sent (bw : UInt16) (s : UlHarqState) (h : UlHarqInfo) (ue : NrMacSchedulerUeInfo)
    (harqProcess : HarqProcess) (dciInfoReTx : DciInfoElementTdma) (rv : UInt8) : UlHarqState :=
  let dci := s.retxDci h.harqProcessId dciInfoReTx rv
  { s with
    symAvail := s.symAvail - dciInfoReTx.numSym
    symUsed := s.symUsed + dciInfoReTx.numSym
    startingPoint.sym := s.startingPoint.sym - dciInfoReTx.numSym
    ueMap := s.ueMap.putUlHarq h.key
      { ue with ulMRBRetx := dciInfoReTx.numSym.toUInt32 * bw.toUInt32 }
      { harqProcess with status := .waitingFeedback, timer := 0, dciElement := some dci }
    slotAlloc :=
      { numSymAlloc := s.slotAlloc.numSymAlloc + dciInfoReTx.numSym.toUInt32
        varTtiAllocInfo := .ofDci dci :: s.slotAlloc.varTtiAllocInfo } }

/-- The state after a feedback that does not fit. -/
def held (s : UlHarqState) (h : UlHarqInfo) (ue : NrMacSchedulerUeInfo)
    (harqProcess : HarqProcess) : UlHarqState :=
  { s with
    ueMap := s.ueMap.putUlHarq h.key ue
      { harqProcess with status := .waitingFeedback, timer := 0 }
    ulHarqToRetransmit := s.ulHarqToRetransmit ++ [h] }

/-- The body of the loop. A missing user, process or DCI is a null access. -/
def step (bw : UInt16) (s : UlHarqState) (h : UlHarqInfo) : Option UlHarqState :=
  if h.isReceivedOk then none else do
    let ue ← s.ueMap h.rnti
    let harqProcess ← ue.ulHarq h.harqProcessId
    if harqProcess.status ≠ .receivedFeedback then none else
    let dciInfoReTx ← harqProcess.dciElement
    if dciInfoReTx.numSym ≤ s.symAvail then
      if dciInfoReTx.format ≠ .ul ∨ harqProcess.nackStreamIndexes.length ≠ 1 then none else
      let rv ← dciInfoReTx.rv[0]?
      return s.sent bw h ue harqProcess dciInfoReTx rv
    else
      return s.held h ue harqProcess

def loop (bw : UInt16) : UlHarqState → List UlHarqInfo → Option UlHarqState
  | s, [] => some s
  | s, h :: l => if s.symAvail = 0 then some s else (step bw s h).bind (loop bw · l)

end UlHarqState

/-- The loop counts in 16 bits. After 65536 feedbacks it would start over with the first one, whose
process no longer is in `receivedFeedback`, and abort there. -/
def scheduleUlHarq (bw : UInt16) (s : UlHarqState) (ulHarqFeedback : List UlHarqInfo) :
    Option UlHarqState :=
  if s.startingPoint.rbg = 0 then
    (UlHarqState.loop bw { s with symUsed := 0 } (ulHarqFeedback.take (2 ^ 16))).bind fun t =>
      if 2 ^ 16 ≤ ulHarqFeedback.length ∧ t.symAvail ≠ 0 then none
      else if t.startingPoint.rbg = 0 then some t
      else none
  else none

/-- The feedback is a NACK for a process that waits for its retransmission, with `dci` as its last
grant. -/
structure Nacked (ueMap : UeMap) (h : UlHarqInfo) (dci : DciInfoElementTdma) : Prop where
  notOk : h.isReceivedOk = false
  process : ∃ p, ueMap.ulProcess h.key = some p ∧ p.status = .receivedFeedback ∧
    p.dciElement = some dci ∧ p.nackStreamIndexes.length = 1
  format : dci.format = .ul
  rv : ∃ rv, dci.rv[0]? = some rv ∧ rv < 4

/-- `dci` repeats the grant `old` for the process of `h`. -/
structure UlRetx (h : UlHarqInfo) (old dci : DciInfoElementTdma) : Prop where
  rnti : dci.rnti = old.rnti
  harqProcess : dci.harqProcess = h.harqProcessId
  tbSize : dci.tbSize = old.tbSize
  mcs : dci.mcs = old.mcs
  rbgBitmask : dci.rbgBitmask = old.rbgBitmask
  numSym : dci.numSym = old.numSym
  ndi : dci.ndi = [0]
  rv : ∃ rv rv', old.rv[0]? = some rv ∧ dci.rv = [rv'] ∧ rv'.toNat = rv.toNat + 1

end Bullet.Mac
