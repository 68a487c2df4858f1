import Bullet.Mac.NewData
import Bullet.Mac.UlDci

/-! # New data with OFDMA

Each beam gets some of the symbols for itself, and its users share the RBGs over all of these
symbols.
-/

namespace Bullet.Mac

open Lib.Bitmask Lib.Shares

/-- The bytes that a beam asks for. -/
def bufSizeBeam (beam : List UePtrAndBufferReq) : UInt32 :=
  (beam.map Prod.snd).foldl (· + ·) 0

/-- The sum of all requests, exact in a `double` below 2^53. -/
def bufTotal (active : ActiveUeMap) : ℕ :=
  total (active.flatMap Prod.snd) fun ue => ue.2.toNat

/-- The members that are read for new data in both directions. -/
structure OfdmaNewData (μ : Type) extends OfdmaScheduler μ where
  dlNotchedRbgsMask : List UInt8
  dlPolicy : DlPolicy μ
  resets : MetricResets μ
  /-- `static_cast<uint32_t> (bufSizeBeam * (symAvail / bufTotal))`, in `double`. -/
  symForBeam : UInt32 → UInt32 → ℕ → UInt32
  symForBeam_le : ∀ symAvail active, total active (fun beam : UInt16 × List UePtrAndBufferReq =>
    (symForBeam symAvail (bufSizeBeam beam.2) (bufTotal active)).toNat) ≤ symAvail.toNat
  /-- The order in which the map of the symbols is walked. -/
  walkOrder : List (UInt16 × UInt32) → List (UInt16 × UInt32)
  walkOrder_perm : ∀ l, (walkOrder l).Perm l

/-- One symbol more for the first beam with `sym` symbols. -/
def incFirst (sym : UInt32) : List (UInt16 × UInt32) → List (UInt16 × UInt32)
  | [] => []
  | b :: l => if b.2 = sym then (b.1, b.2 + 1) :: l else b :: incFirst sym l

/-- The symbols that are left go one by one to the first beam that has the fewest. -/
def redistribute : ℕ → List (UInt16 × UInt32) → List (UInt16 × UInt32)
  | 0, l => l
  | n + 1, l => redistribute n (((l.map Prod.snd).min?.map fun sym => incFirst sym l).getD l)

variable {μ : Type}

def updateDlMetrics (f : DlUeInfo μ → DlMetric μ) (ues : DlUes μ) (l : List UePtrAndBufferReq) :
    DlUes μ :=
  l.foldl (fun ues ue => setDlMetric ues ue.1 (f (ues ue.1))) ues

/-- The variables of `AssignDLRBG` in one beam. -/
structure DlBeamState (μ : Type) where
  ues : DlUes μ
  ueVector : List UePtrAndBufferReq
  assigned : PointInFTPlane

/-- The TBS of all streams of the user covers its bytes. -/
def dlCovered (ue : DlUeInfo μ) (bufQueueSize : UInt32) : Bool :=
  max bufQueueSize 10 ≤ ue.metric.dlTbSize.foldl (· + ·) 0

/-- The first user that is not covered. A covered one with several streams keeps only those that it
needs. -/
def firstUncoveredDl (ues : DlUes μ) : List UePtrAndBufferReq → DlUes μ × Option UePtrAndBufferReq
  | [] => (ues, none)
  | ue :: l =>
    if dlCovered (ues ue.1) ue.2 then
      let metric := (ues ue.1).metric
      firstUncoveredDl
        (if 1 < metric.dlTbSize.length then
          setDlMetric ues ue.1 { metric with dlTbSize := trimStreams ue.2 metric.dlTbSize }
        else ues) l
    else (ues, some ue)

namespace OfdmaNewData

variable (sch : OfdmaNewData μ)

def getSymPerBeam (symAvail : UInt32) (active : ActiveUeMap) : Option (List (UInt16 × UInt32)) :=
  let ret := active.map fun beam =>
    (beam.1, sch.symForBeam symAvail (bufSizeBeam beam.2) (bufTotal active))
  let symUsed := ret.foldl (fun used beam => (used.toUInt32 + beam.2).toUInt8) (0 : UInt8)
  if symAvail < symUsed.toUInt32 then none
  else some (redistribute (symAvail - symUsed.toUInt32).toUInt8.toNat (sch.walkOrder ret))

def assignableDlRbgs : UInt32 :=
  if sch.dlNotchedRbgsMask.length > 0 then UInt32.ofNat (sch.dlNotchedRbgsMask.count 1)
  else sch.bandwidthInRbg.toUInt32

/-- One RBG for the user that was chosen, and the new metrics of all users. -/
def awardDl (beamSym : UInt32) (rnti : UInt16) (s : DlBeamState μ) : DlBeamState μ :=
  let ues := Function.update s.ues rnti
    { s.ues rnti with dlRBG := (s.ues rnti).dlRBG + beamSym, dlSym := beamSym.toUInt8 }
  let total := { rbg := s.assigned.rbg + beamSym, sym := beamSym.toUInt8 }
  let assigned := ftResources beamSym beamSym
  let ues := setDlMetric ues rnti (sch.dlPolicy.assignedDlResources assigned total (ues rnti))
  { s with
    ues := updateDlMetrics (sch.dlPolicy.notAssignedDlResources assigned total) ues
      (s.ueVector.filter fun ue => ue.1 ≠ rnti)
    assigned := total }

/-- `while (resources > 0)`, by recursion on the counter. -/
def assignDlLoop (beamSym : UInt32) : ℕ → DlBeamState μ → DlBeamState μ
  | 0, s => s
  | n + 1, s =>
    let ueVector := sch.dlPolicy.sort s.ues s.ueVector
    let r := firstUncoveredDl s.ues ueVector
    let s := { s with ues := r.1, ueVector := ueVector }
    match r.2 with
    | none => s
    | some ue => assignDlLoop beamSym n (sch.awardDl beamSym ue.1 s)

def assignDLRBG (symPerBeam : UInt16 → UInt32) : DlUes μ → ActiveUeMap → Option (DlUes μ)
  | ues, [] => some ues
  | ues, el :: activeDl =>
    let beamSym := symPerBeam el.1
    if sch.assignableDlRbgs = 0 then none
    else
      assignDLRBG symPerBeam
        (sch.assignDlLoop beamSym sch.assignableDlRbgs.toNat
          { ues := updateDlMetrics
              (sch.dlPolicy.beforeDlSched (ftResources (beamSym * beamSym) beamSym)) ues el.2
            ueVector := el.2
            assigned := ftResources 0 0 }).ues activeDl

def dlRbgMask : List UInt8 :=
  if sch.dlNotchedRbgsMask.length = 0 then List.replicate sch.bandwidthInRbg.toNat 1
  else sch.dlNotchedRbgsMask

/-- The DCI, unless the TBS of every stream is too small, and the next starting point. -/
def createDlDci (spoint : PointInFTPlane) (rnti : UInt16) (maxSym : UInt32) (ues : DlUes μ) :
    Option (Option DciInfoElementTdma × PointInFTPlane × DlUes μ) :=
  let ue := ues rnti
  let tbSize := ue.metric.dlTbSize.map fun tbs => if tbs < 10 then 0 else tbs
  let ues := setDlMetric ues rnti { ue.metric with dlTbSize := tbSize }
  if maxSym = 0 then none -- the modulo by `maxSym`
  else if ue.dlRBG % maxSym ≠ 0 ∨ maxSym * sch.bandwidthInRbg.toUInt32 < ue.dlRBG ∨
      sch.bandwidthInRbg.toUInt32 ≤ spoint.rbg ∨ 255 < maxSym then none
  else if ue.metric.dlTbSize.all (· < 10) then some (none, spoint, ues)
  else if sch.dlRbgMask.length ≠ sch.bandwidthInRbg.toNat then none
  else
    let r := takeOnes spoint.rbg.toNat 0 sch.dlRbgMask (ue.dlRBG / maxSym).toNat spoint.rbg.toNat
    if r.2.1 ≠ 0 ∨ r.1.count 0 = sch.bandwidthInRbg.toNat then none
    else
      let dci : DciInfoElementTdma :=
        { rnti := rnti
          format := .dl
          symStart := spoint.sym
          numSym := maxSym.toUInt8
          mcs := ue.dlMcs
          tbSize := tbSize
          ndi := ue.metric.dlTbSize.map fun tbs => if tbs < 10 then 0 else 1
          rv := ue.metric.dlTbSize.map fun _ => 0
          type := .data
          bwpIndex := sch.bwpId.toUInt8
          tpc := 1
          rbgBitmask := r.1 }
      some (some dci, { spoint with rbg := UInt32.ofNat (r.2.2 + 1) }, ues)

def changeDlBeam (spoint : PointInFTPlane) (symOfBeam : UInt32) : PointInFTPlane where
  rbg := 0
  sym := (spoint.sym.toUInt32 + symOfBeam).toUInt8

def changeUlBeam (spoint : PointInFTPlane) (symOfBeam : UInt32) : PointInFTPlane where
  rbg := 0
  sym := (spoint.sym.toUInt32 - symOfBeam).toUInt8

def dlNewData : NewDataScheduler μ where
  assignRBG symAvail activeDl ues := do
    let symPerBeam ← sch.getSymPerBeam symAvail activeDl
    let dl ← sch.assignDLRBG (symbolsOf symPerBeam) ues.dl activeDl
    return ({ ues with dl := dl }, symbolsOf symPerBeam)
  createDci spoint rnti maxSym ues := do
    let (dci, spoint, dl) ← sch.createDlDci spoint rnti maxSym ues.dl
    return (dci, spoint, { ues with dl := dl })
  changeBeam := changeDlBeam
  resetMetric := sch.resets.resetDlMetric
  resetSchedInfo := sch.resets.resetDlSchedInfo

def ulNewData : NewDataScheduler μ where
  assignRBG symAvail activeUl ues := do
    let symPerBeam ← sch.getSymPerBeam symAvail activeUl
    let r ← sch.assignULRBG (symbolsOf symPerBeam) ues.ul ues.maxBuffer activeUl
    return ({ ues with ul := r.1, maxBuffer := r.2.1 }, symbolsOf symPerBeam)
  createDci spoint rnti maxSym ues := do
    let (dci, spoint) ← sch.createUlDci spoint rnti (ues.ul rnti) maxSym
    return (dci, spoint, ues)
  changeBeam := changeUlBeam
  resetMetric := sch.resets.resetUlMetric
  resetSchedInfo := sch.resets.resetUlSchedInfo

end OfdmaNewData

end Bullet.Mac
