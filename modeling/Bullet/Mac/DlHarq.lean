import Mathlib.Logic.Function.Basic
import Bullet.Mac.Dci

/-! # DL HARQ retransmissions

`ScheduleDlHarq` gives each beam the same number of symbols and packs the retransmissions of the
beam side by side, from the first RBG up. What does not fit is buffered.
-/

namespace Bullet.Mac

/-- Stores a DL process at `key`. -/
def UeMap.putDlHarq (ueMap : UeMap) (key : HarqKey) (process : HarqProcess) : UeMap :=
  Function.update ueMap key.rnti ((ueMap key.rnti).map fun ue =>
    { ue with dlHarq := Function.update ue.dlHarq key.harqProcessId (some process) })

def UeMap.dlProcess (ueMap : UeMap) (key : HarqKey) : Option HarqProcess :=
  (ueMap key.rnti).bind fun ue => ue.dlHarq key.harqProcessId

/-- `ueMap.find (rnti)->second->m_dlMRBRetx = v`, a null access for an unknown user. -/
def UeMap.setDlMRBRetx (ueMap : UeMap) (rnti : UInt16) (v : UInt32) : Option UeMap :=
  (ueMap rnti).map fun ue => Function.update ueMap rnti (some { ue with dlMRBRetx := v })

/-- The `HarqVectorIterator`s of each beam, in the order in which the map is walked. -/
abbrev ActiveHarqMap := List (UInt16 × List HarqKey)

def bufferHARQFeedback (dlHarqFeedback dlHarqToRetransmit : List DlHarqInfo) (rnti : UInt16)
    (harqProcess : UInt8) : Option (List DlHarqInfo) :=
  (dlHarqFeedback.find? fun feedback =>
      feedback.rnti == rnti && feedback.harqProcessId == harqProcess).map
    fun feedback => dlHarqToRetransmit ++ [feedback]

namespace DciInfoElementTdma

/-- The RBGs whose mask entry is 1. -/
def rbgCount (dci : DciInfoElementTdma) : ℕ := dci.rbgBitmask.count 1

/-- `rbgAssigned`: the RBG x symbol units of a grant. -/
def units (dci : DciInfoElementTdma) : ℕ := dci.rbgCount * dci.numSym.toNat

end DciInfoElementTdma

/-- One of the vectors of a retransmission: `nacked` of the old value where the stream was NACKed,
`acked` where it was not, and the initial 0 behind the last stream. -/
def retxStreams (nackStreamIndexes : List UInt8) (streams : ℕ) (nacked : UInt8 → UInt8)
    (acked : UInt8) (old : List UInt8) : List UInt8 :=
  old.mapIdx fun stream v =>
    if stream < streams then
      if stream ∈ nackStreamIndexes.map UInt8.toNat then nacked v else acked
    else 0

def retxTbSize (nackStreamIndexes : List UInt8) (old : List UInt32) : List UInt32 :=
  old.mapIdx fun stream tbs =>
    if stream ∈ nackStreamIndexes.map UInt8.toNat then tbs else 0

/-- The mask of the RBGs from `rbg` on. -/
def rbgMask (size rbg count : ℕ) : List UInt8 :=
  (List.range size).map fun i => if rbg ≤ i ∧ i < rbg + count then 1 else 0

/-- What `ScheduleDlHarq` reads and writes. -/
structure DlHarqState where
  startingPoint : PointInFTPlane
  usedSym : UInt8 := 0
  ueMap : UeMap
  dlHarqToRetransmit : List DlHarqInfo
  slotAlloc : SlotAllocInfo

namespace DlHarqState

/-- The DCI of a retransmission on the `rbgAssigned` RBGs from the starting point on. -/
def retxDci (s : DlHarqState) (symPerBeam : UInt8) (nackStreamIndexes : List UInt8)
    (dciInfoReTx : DciInfoElementTdma) (rbgAssigned : ℕ) : DciInfoElementTdma where
  rnti := dciInfoReTx.rnti
  format := dciInfoReTx.format
  symStart := s.startingPoint.sym
  numSym := symPerBeam
  mcs := retxStreams nackStreamIndexes dciInfoReTx.tbSize.length id 255 dciInfoReTx.mcs
  tbSize := retxTbSize nackStreamIndexes dciInfoReTx.tbSize
  ndi := retxStreams nackStreamIndexes dciInfoReTx.tbSize.length (fun _ => 0) 255 dciInfoReTx.ndi
  rv := retxStreams nackStreamIndexes dciInfoReTx.tbSize.length (· + 1) 0 dciInfoReTx.rv
  type := .data
  bwpIndex := dciInfoReTx.bwpIndex
  tpc := dciInfoReTx.tpc
  rbgBitmask := rbgMask dciInfoReTx.rbgBitmask.length s.startingPoint.rbg.toNat rbgAssigned
  harqProcess := dciInfoReTx.harqProcess

/-- The body of the inner loop on a process that fits. The vectors of the DCI must have an entry
for each stream, and the mask must hold the RBGs. -/
def retransmit (symPerBeam : UInt8) (s : DlHarqState) (key : HarqKey) (harqProcess : HarqProcess)
    (dciInfoReTx : DciInfoElementTdma) : Option DlHarqState :=
  let streams := dciInfoReTx.tbSize.length
  if dciInfoReTx.format ≠ .dl ∨ dciInfoReTx.mcs.length < streams ∨
      dciInfoReTx.rv.length < streams ∨ dciInfoReTx.ndi.length < streams then none
  else if symPerBeam = 0 then none -- the modulo by `m_numSym` of the new DCI
  else
    let units := dciInfoReTx.units
    let rbgAssigned :=
      if units % symPerBeam.toNat = 0 then units / symPerBeam.toNat
      else units / symPerBeam.toNat + 1
    if dciInfoReTx.rbgBitmask.length < rbgAssigned then none
    else do
      let dci := s.retxDci symPerBeam harqProcess.nackStreamIndexes dciInfoReTx rbgAssigned
      let ueMap := s.ueMap.putDlHarq key
        { harqProcess with status := .waitingFeedback, timer := 0, dciElement := some dci }
      let ueMap ← ueMap.setDlMRBRetx dci.rnti (symPerBeam.toUInt32 * UInt32.ofNat rbgAssigned)
      return { s with
        startingPoint.rbg := s.startingPoint.rbg + UInt32.ofNat rbgAssigned
        ueMap := ueMap
        slotAlloc.varTtiAllocInfo :=
          s.slotAlloc.varTtiAllocInfo ++ [{ dci := dci, rlcPduInfo := harqProcess.rlcPduInfo }] }

/-- The body of the inner loop. -/
def step (bw : UInt16) (symPerBeam : UInt8) (dlHarqFeedback : List DlHarqInfo)
    (s : DlHarqState × List UInt16) (key : HarqKey) : Option (DlHarqState × List UInt16) := do
  let harqProcess ← s.1.ueMap.dlProcess key
  if harqProcess.status ≠ .receivedFeedback then none else
  let dciInfoReTx ← harqProcess.dciElement
  let rbgAvail := (bw.toUInt32 - s.1.startingPoint.rbg) * symPerBeam.toUInt32
  if dciInfoReTx.rnti ∈ s.2 ∨ rbgAvail.toNat < dciInfoReTx.units then
    let dlHarqToRetransmit ← bufferHARQFeedback dlHarqFeedback s.1.dlHarqToRetransmit
      dciInfoReTx.rnti dciInfoReTx.harqProcess
    return ({ s.1 with
      ueMap := s.1.ueMap.putDlHarq key { harqProcess with status := .waitingFeedback, timer := 0 }
      dlHarqToRetransmit := dlHarqToRetransmit }, s.2)
  else
    let t ← retransmit symPerBeam s.1 key harqProcess dciInfoReTx
    return (t, s.2 ++ [dciInfoReTx.rnti])

def beamLoop (bw : UInt16) (symPerBeam : UInt8) (dlHarqFeedback : List DlHarqInfo) :
    DlHarqState × List UInt16 → List HarqKey → Option (DlHarqState × List UInt16)
  | s, [] => some s
  | s, key :: keys =>
    (step bw symPerBeam dlHarqFeedback s key).bind (beamLoop bw symPerBeam dlHarqFeedback · keys)

/-- The end of a beam: the next one starts behind its symbols if it used them. -/
def endBeam (symPerBeam : UInt8) (s : DlHarqState) (allocatedUe : List UInt16) : DlHarqState :=
  if allocatedUe = [] then s
  else
    { s with
      startingPoint := { rbg := 0, sym := s.startingPoint.sym + symPerBeam }
      usedSym := s.usedSym + symPerBeam
      slotAlloc.numSymAlloc := s.slotAlloc.numSymAlloc + symPerBeam.toUInt32 }

def loop (bw : UInt16) (symPerBeam : UInt8) (dlHarqFeedback : List DlHarqInfo) :
    DlHarqState → ActiveHarqMap → Option DlHarqState
  | s, [] => some s
  | s, beam :: beams =>
    (beamLoop bw symPerBeam dlHarqFeedback (s, []) beam.2).bind fun t =>
      loop bw symPerBeam dlHarqFeedback (t.1.endBeam symPerBeam t.2) beams

end DlHarqState

/-- `symAvail / activeDlHarq.size ()`. -/
def symPerBeam (symAvail : UInt8) (activeDlHarq : ActiveHarqMap) : UInt8 :=
  UInt8.ofNat (symAvail.toNat / activeDlHarq.length)

def scheduleDlHarq (bw : UInt16) (symAvail : UInt8) (activeDlHarq : ActiveHarqMap)
    (dlHarqFeedback : List DlHarqInfo) (s : DlHarqState) : Option DlHarqState :=
  if s.startingPoint.rbg ≠ 0 then none
  else if activeDlHarq = [] then none -- a division by zero
  else
    (DlHarqState.loop bw (symPerBeam symAvail activeDlHarq) dlHarqFeedback { s with usedSym := 0 }
      activeDlHarq).bind fun t => if t.startingPoint.rbg = 0 then some t else none

end Bullet.Mac
