import Bullet.Mac.UlHarq
import Bullet.Mac.DlHarq
import Bullet.Mac.UlAssign
import Bullet.Mac.Lcg

/-! # Scheduling new data

`DoScheduleDlData` and `DoScheduleUlData` let the scheduler assign RBGs to the users of each beam
and then create their DCIs one after the other. The scheduler fills in the virtual functions.
-/

namespace Bullet.Mac

/-- What the scheduler updates of a user to order the users in DL. -/
structure DlMetric (μ : Type) where
  dlTbSize : List UInt32 := [0]
  other : μ
deriving DecidableEq, Repr

structure DlUeInfo (μ : Type) where
  dlRBG : UInt32 := 0
  dlSym : UInt8 := 0
  dlMcs : List UInt8 := []
  metric : DlMetric μ
deriving DecidableEq, Repr

abbrev DlUes (μ : Type) := UInt16 → DlUeInfo μ

/-- The virtual functions that RR, PF and MR fill in for DL, and `std::sort` with their
comparison. -/
structure DlPolicy (μ : Type) where
  beforeDlSched : PointInFTPlane → DlUeInfo μ → DlMetric μ
  assignedDlResources : PointInFTPlane → PointInFTPlane → DlUeInfo μ → DlMetric μ
  notAssignedDlResources : PointInFTPlane → PointInFTPlane → DlUeInfo μ → DlMetric μ
  sort : DlUes μ → List UePtrAndBufferReq → List UePtrAndBufferReq
  sort_perm : ∀ ues l, (sort ues l).Perm l

/-- The bytes that the streams still have to send: a stream that is not needed is cleared. -/
def trimStreams : UInt32 → List UInt32 → List UInt32
  | _, [] => []
  | buf, tbs :: l =>
    if buf = 0 then 0 :: trimStreams 0 l
    else tbs :: trimStreams (if buf ≤ tbs then 0 else buf - tbs) l

def setDlMetric {μ : Type} (ues : DlUes μ) (rnti : UInt16) (metric : DlMetric μ) : DlUes μ :=
  Function.update ues rnti { ues rnti with metric := metric }

/-- The users, with `m_maxBuffer` of the scheduler. -/
structure SchedUes (μ : Type) where
  harq : UeMap
  dl : DlUes μ
  ul : UlUes μ
  dlLCG : UInt16 → List NrMacSchedulerLCG
  ulLCG : UInt16 → List NrMacSchedulerLCG
  maxBuffer : UInt32 := 0

/-- `ResetDlMetric`, `ResetUlMetric` and the resets at the end of a slot, on what the scheduler keeps
of a user. -/
structure MetricResets (μ : Type) where
  dlMetric : μ → μ
  ulMetric : μ → μ
  dlSchedInfo : μ → μ
  ulSchedInfo : μ → μ

namespace MetricResets

variable {μ : Type} (resets : MetricResets μ)

def resetDlMetric (rnti : UInt16) (ues : SchedUes μ) : SchedUes μ :=
  let ue := ues.dl rnti
  { ues with
    dl := Function.update ues.dl rnti
      { ue with
        metric.dlTbSize := ue.metric.dlTbSize.map fun _ => 0
        metric.other := resets.dlMetric ue.metric.other } }

def resetUlMetric (rnti : UInt16) (ues : SchedUes μ) : SchedUes μ :=
  let ue := ues.ul rnti
  { ues with
    ul := Function.update ues.ul rnti
      { ue with metric := { ulTbSize := 0, other := resets.ulMetric ue.metric.other } } }

def resetDlSchedInfo (rnti : UInt16) (ues : SchedUes μ) : SchedUes μ :=
  let ue := ues.dl rnti
  { ues with
    harq := Function.update ues.harq rnti ((ues.harq rnti).map fun u => { u with dlMRBRetx := 0 })
    dl := Function.update ues.dl rnti
      { ue with
        dlRBG := 0
        dlSym := 0
        metric.dlTbSize := ue.metric.dlTbSize.map fun _ => 0
        metric.other := resets.dlSchedInfo ue.metric.other } }

def resetUlSchedInfo (rnti : UInt16) (ues : SchedUes μ) : SchedUes μ :=
  let ue := ues.ul rnti
  { ues with
    harq := Function.update ues.harq rnti ((ues.harq rnti).map fun u => { u with ulMRBRetx := 0 })
    ul := Function.update ues.ul rnti
      { ue with
        ulRBG := 0
        ulSym := 0
        metric := { ulTbSize := 0, other := resets.ulSchedInfo ue.metric.other } } }

end MetricResets

/-- The first process, in the order in which the map is walked, that is not active. -/
def firstAvailableId (ids : List UInt8) (harq : NrMacHarqVector) : Option UInt8 :=
  ids.find? fun id => (harq id).any fun process => !process.active

/-- A process that has just sent `dci`. -/
def HarqProcess.sent (dci : DciInfoElementTdma) (rlcPduInfo : List (List RlcPduInfo)) :
    HarqProcess where
  active := true
  status := .waitingFeedback
  dciElement := some dci
  rlcPduInfo := rlcPduInfo

section Transport

variable {μ : Type}

/-- What happens to a DCI for UL data: a process is stored for it, and its bytes go to the channels
of the user, of which one must take some. -/
def transportUl (ids : List UInt8) (ues : SchedUes μ) (rnti : UInt16) (dci : DciInfoElementTdma) :
    Option (VarTtiAllocInfo × SchedUes μ) := do
  let ue ← ues.harq rnti
  let id ← firstAvailableId ids ue.ulHarq
  let dci := { dci with harqProcess := id }
  let tbs ← dci.tbSize[0]?
  let distributedBytes := assignBytesToLC (ues.ulLCG rnti) tbs
  if distributedBytes = [] then none
  else
    return (.ofDci dci, { ues with
      harq := ues.harq.putUlHarq ⟨rnti, id⟩ ue (.sent dci [])
      ulLCG := Function.update ues.ulLCG rnti (distributedBytes.foldl
        (fun g a => assignedData .ul g a.lcg a.lcId a.bytes) (ues.ulLCG rnti)) })

/-- The PDU of one stream of a channel, without its overhead. -/
def rlcPdu (a : Assignation) : Option RlcPduInfo :=
  if a.bytes = 0 then some ⟨a.lcId, 0⟩
  else if a.bytes < 3 then none
  else some ⟨a.lcId, a.bytes - 3⟩

/-- What happens to a DCI for DL data, with the PDUs of each channel stream by stream. -/
def transportDl (ids : List UInt8) (ues : SchedUes μ) (rnti : UInt16) (dci : DciInfoElementTdma) :
    Option (VarTtiAllocInfo × SchedUes μ) := do
  let ue ← ues.harq rnti
  let id ← firstAvailableId ids ue.dlHarq
  let dci := { dci with harqProcess := id }
  let bytesPerStream := dci.tbSize.map fun tbs => assignBytesToLC (ues.dlLCG rnti) tbs
  let lcs := (bytesPerStream.head?.getD []).length
  let bytesPerLcPerStream := (List.range lcs).map fun i => bytesPerStream.filterMap (·[i]?)
  let rlcPduInfo ← bytesPerLcPerStream.mapM fun bytesPerLc => bytesPerLc.mapM rlcPdu
  if rlcPduInfo = [] then none
  else
    return ({ dci := dci, rlcPduInfo := rlcPduInfo }, { ues with
      harq := ues.harq.putDlHarq ⟨rnti, id⟩ (.sent dci rlcPduInfo)
      dlLCG := Function.update ues.dlLCG rnti (bytesPerLcPerStream.flatten.foldl
        (fun g (a : Assignation) =>
          if a.bytes = 0 then g else assignedData .dl g a.lcg a.lcId (a.bytes - 3))
        (ues.dlLCG rnti)) })

end Transport

/-- The virtual functions for new data in one direction. -/
structure NewDataScheduler (μ : Type) where
  /-- The users with their RBGs, and `BeamSymbolMap`. -/
  assignRBG : UInt32 → ActiveUeMap → SchedUes μ → Option (SchedUes μ × (UInt16 → UInt32))
  createDci : PointInFTPlane → UInt16 → UInt32 → SchedUes μ →
    Option (Option DciInfoElementTdma × PointInFTPlane × SchedUes μ)
  changeBeam : PointInFTPlane → UInt32 → PointInFTPlane
  resetMetric : UInt16 → SchedUes μ → SchedUes μ
  resetSchedInfo : UInt16 → SchedUes μ → SchedUes μ

/-- `symPerBeam.at (beam)`, for the beams that are in the map. -/
def symbolsOf (symPerBeam : List (UInt16 × UInt32)) (beam : UInt16) : UInt32 :=
  (symPerBeam.lookup beam).getD 0

/-- What the two directions do not share. -/
structure Direction (μ : Type) where
  rbg : SchedUes μ → UInt16 → UInt32
  transport : SchedUes μ → UInt16 → DciInfoElementTdma → Option (VarTtiAllocInfo × SchedUes μ)
  push : VarTtiAllocInfo → List VarTtiAllocInfo → List VarTtiAllocInfo

/-- The variables of the loops. `assigned`, `symbStartDci` and `allocSym` belong to one beam. -/
structure NewDataState (μ : Type) where
  spoint : PointInFTPlane
  ues : SchedUes μ
  slotAlloc : SlotAllocInfo
  usedSym : UInt8 := 0
  assigned : Bool := false
  symbStartDci : List UInt8 := []
  allocSym : UInt32 := 0

namespace NewDataState

variable {μ : Type} (v : NewDataScheduler μ) (d : Direction μ)

/-- The state after a DCI was created and `alloc` made of it. -/
def placed (s : NewDataState μ) (spoint : PointInFTPlane) (ues : SchedUes μ)
    (dci : DciInfoElementTdma) (alloc : VarTtiAllocInfo) : NewDataState μ :=
  { s with
    spoint := spoint
    ues := ues
    slotAlloc.varTtiAllocInfo := d.push alloc s.slotAlloc.varTtiAllocInfo
    assigned := true
    symbStartDci :=
      if dci.symStart ∈ s.symbStartDci then s.symbStartDci else dci.symStart :: s.symbStartDci
    allocSym :=
      if dci.symStart ∈ s.symbStartDci then s.allocSym else s.allocSym + dci.numSym.toUInt32 }

/-- The body of the loop over the users of a beam. -/
def scheduleUe (maxSym : UInt32) (s : NewDataState μ) (rnti : UInt16) :
    Option (NewDataState μ) :=
  if d.rbg s.ues rnti = 0 then some s
  else do
    let (dci, spoint, ues) ← v.createDci s.spoint rnti maxSym s.ues
    match dci with
    | none => return { s with spoint := spoint, ues := v.resetMetric rnti ues }
    | some dci =>
      let (alloc, ues) ← d.transport ues rnti dci
      return s.placed d spoint ues dci alloc

def beamLoop (maxSym : UInt32) : NewDataState μ → List UInt16 → Option (NewDataState μ)
  | s, [] => some s
  | s, rnti :: l => (scheduleUe v d maxSym s rnti).bind (beamLoop maxSym · l)

/-- The end of a beam. -/
def endBeam (maxSym : UInt32) (s : NewDataState μ) : NewDataState μ :=
  if s.assigned then
    { s with
      spoint := v.changeBeam s.spoint maxSym
      usedSym := (s.usedSym.toUInt32 + s.allocSym).toUInt8
      slotAlloc.numSymAlloc := s.slotAlloc.numSymAlloc + s.allocSym }
  else s

/-- The loop over the beams. A beam without symbols is left out. -/
def loop (symPerBeam : UInt16 → UInt32) : NewDataState μ → ActiveUeMap → Option (NewDataState μ)
  | s, [] => some s
  | s, beam :: beams =>
    if symPerBeam beam.1 = 0 then loop symPerBeam s beams
    else
      (beamLoop v d (symPerBeam beam.1)
          { s with assigned := false, symbStartDci := [], allocSym := 0 }
          (beam.2.map Prod.fst)).bind fun t =>
        loop symPerBeam (t.endBeam v (symPerBeam beam.1)) beams

/-- The users are reset for the next slot. -/
def finish (active : ActiveUeMap) (s : NewDataState μ) : Option (NewDataState μ) :=
  let rntis := active.flatMap fun beam => beam.2.map Prod.fst
  let ues := rntis.foldl (fun ues rnti => v.resetSchedInfo rnti ues) s.ues
  if s.spoint.rbg = 0 then some { s with ues := ues } else none

end NewDataState

open NewDataState

variable {μ : Type}

def dlDirection (symbolsPerSlot : UInt32) (ids : List UInt8) : Direction μ where
  rbg ues rnti := (ues.dl rnti).dlRBG
  transport ues rnti dci :=
    if symbolsPerSlot.toNat < dci.symStart.toNat + dci.numSym.toNat then none
    else transportDl ids ues rnti dci
  push alloc l := l ++ [alloc]

def ulDirection (ids : List UInt8) : Direction μ where
  rbg ues rnti := (ues.ul rnti).ulRBG
  transport := transportUl ids
  push alloc l := alloc :: l

def doScheduleDlData (v : NewDataScheduler μ) (symbolsPerSlot : UInt32) (ids : List UInt8)
    (spoint : PointInFTPlane) (symAvail : UInt32) (activeDl : ActiveUeMap) (ues : SchedUes μ)
    (slotAlloc : SlotAllocInfo) : Option (NewDataState μ) :=
  if spoint.rbg ≠ 0 then none
  else do
    let (ues, symPerBeam) ← v.assignRBG symAvail activeDl ues
    let s ← loop v (dlDirection symbolsPerSlot ids) symPerBeam ⟨spoint, ues, slotAlloc, 0, false, [], 0⟩
      activeDl
    finish v activeDl s

/-- Before the DCIs are created the RBGs of each user are traced in units of its beam's symbols,
which divides by zero for a user in a beam without symbols. -/
def doScheduleUlData (v : NewDataScheduler μ) (ids : List UInt8) (spoint : PointInFTPlane)
    (symAvail : UInt32) (activeUl : ActiveUeMap) (ues : SchedUes μ) (slotAlloc : SlotAllocInfo) :
    Option (NewDataState μ) :=
  if symAvail = 0 ∨ activeUl = [] ∨ spoint.rbg ≠ 0 then none
  else do
    let (ues, symPerBeam) ← v.assignRBG symAvail activeUl ues
    if activeUl.any fun beam => symPerBeam beam.1 = 0 ∧ beam.2 ≠ [] then none
    else
      let s ← loop v (ulDirection ids) symPerBeam ⟨spoint, ues, slotAlloc, 0, false, [], 0⟩ activeUl
      finish v activeUl s

end Bullet.Mac
