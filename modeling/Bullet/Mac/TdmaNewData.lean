import Bullet.Mac.NewData

/-! # New data with TDMA

Each symbol goes to one user over the whole bandwidth.
-/

namespace Bullet.Mac

/-- The callbacks with which `AssignRBGTDMA` works on the users of one direction. Only a grant
changes the RBGs of a user. -/
structure TdmaCallbacks (α : Type) where
  beforeSched : PointInFTPlane → α → α
  successfullAssignment : PointInFTPlane → PointInFTPlane → α → α
  unSuccessfullAssignment : PointInFTPlane → PointInFTPlane → α → α
  getTBS : α → UInt32
  getRBG : α → UInt32
  /-- The RBGs of one symbol more. -/
  grant : UInt32 → α → α
  /-- Clears the streams that are not needed for the bytes. -/
  trim : UInt32 → α → α
  sort : (UInt16 → α) → List UePtrAndBufferReq → List UePtrAndBufferReq
  sort_perm : ∀ ues l, (sort ues l).Perm l
  getRBG_grant : ∀ n ue, getRBG (grant n ue) = getRBG ue + n
  getRBG_trim : ∀ buf ue, getRBG (trim buf ue) = getRBG ue
  getRBG_before : ∀ p ue, getRBG (beforeSched p ue) = getRBG ue
  getRBG_success : ∀ p q ue, getRBG (successfullAssignment p q ue) = getRBG ue
  getRBG_unSuccess : ∀ p q ue, getRBG (unSuccessfullAssignment p q ue) = getRBG ue

def updateUe {α : Type} (f : α → α) (ues : UInt16 → α) (rnti : UInt16) : UInt16 → α :=
  Function.update ues rnti (f (ues rnti))

structure TdmaState (α : Type) where
  ues : UInt16 → α
  ueVector : List UePtrAndBufferReq
  assigned : PointInFTPlane

namespace TdmaCallbacks

variable {α : Type} (cb : TdmaCallbacks α)

/-- The first user that is not covered. -/
def firstUncovered (ues : UInt16 → α) :
    List UePtrAndBufferReq → (UInt16 → α) × Option UePtrAndBufferReq
  | [] => (ues, none)
  | ue :: l =>
    if max ue.2 10 ≤ cb.getTBS (ues ue.1) then firstUncovered (updateUe (cb.trim ue.2) ues ue.1) l
    else (ues, some ue)

/-- One symbol for the user that was chosen, and the new metrics of all users. -/
def award (rbgs : UInt32) (rnti : UInt16) (s : TdmaState α) : TdmaState α :=
  let ues := updateUe (cb.grant rbgs) s.ues rnti
  let total := { rbg := s.assigned.rbg + rbgs, sym := s.assigned.sym + 1 }
  let assigned := ftResources rbgs 1
  let ues := updateUe (cb.successfullAssignment assigned total) ues rnti
  { s with
    ues := (s.ueVector.filter fun ue => ue.1 ≠ rnti).foldl
      (fun ues ue => updateUe (cb.unSuccessfullAssignment assigned total) ues ue.1) ues
    assigned := total }

/-- `while (resources > 0)`, by recursion on the counter. -/
def assignLoop (rbgs : UInt32) : ℕ → TdmaState α → TdmaState α
  | 0, s => s
  | n + 1, s =>
    let ueVector := cb.sort s.ues s.ueVector
    let r := cb.firstUncovered s.ues ueVector
    let s := { s with ues := r.1, ueVector := ueVector }
    match r.2 with
    | none => s
    | some ue => assignLoop rbgs n (cb.award rbgs ue.1 s)

/-- The symbols of the users of a beam. -/
def symOfBeam (rbgs : UInt32) (ues : UInt16 → α) (beam : List UePtrAndBufferReq) : UInt32 :=
  beam.foldl (fun sym ue => sym + cb.getRBG (ues ue.1) / rbgs) 0

/-- The users with their RBGs, and the symbols of each beam. -/
def assignRBGTDMA (rbgs symAvail : UInt32) (activeUe : ActiveUeMap) (ues : UInt16 → α) :
    Option ((UInt16 → α) × List (UInt16 × UInt32)) :=
  if rbgs = 0 then none
  else
    let ueVector := activeUe.flatMap Prod.snd
    let ues := ueVector.foldl (fun ues ue => updateUe (cb.beforeSched (ftResources rbgs 1)) ues ue.1)
      ues
    let ues := (cb.assignLoop rbgs symAvail.toNat ⟨ues, ueVector, ftResources 0 0⟩).ues
    some (ues, activeUe.map fun el => (el.1, cb.symOfBeam rbgs ues el.2))

end TdmaCallbacks

/-- The members of the scheduler that are read here. -/
structure TdmaScheduler (μ : Type) where
  bandwidthInRbg : UInt16
  numRbPerRbg : UInt32
  bwpId : UInt16
  dlNotchedRbgsMask : List UInt8
  ulNotchedRbgsMask : List UInt8
  dlPolicy : DlPolicy μ
  ulPolicy : UlPolicy μ
  resets : MetricResets μ
  /-- `m_ulAmc->CalculateTbSize`. -/
  calculateTbSize : UInt8 → UInt32 → UInt32

namespace TdmaScheduler

variable {μ : Type} (sch : TdmaScheduler μ)

def dlCallbacks : TdmaCallbacks (DlUeInfo μ) where
  beforeSched p ue := { ue with metric := sch.dlPolicy.beforeDlSched p ue }
  successfullAssignment p q ue := { ue with metric := sch.dlPolicy.assignedDlResources p q ue }
  unSuccessfullAssignment p q ue :=
    { ue with metric := sch.dlPolicy.notAssignedDlResources p q ue }
  getTBS ue := ue.metric.dlTbSize.foldl (· + ·) 0
  getRBG ue := ue.dlRBG
  grant n ue := { ue with dlRBG := ue.dlRBG + n, dlSym := ue.dlSym + 1 }
  trim buf ue :=
    { ue with metric.dlTbSize :=
        if 1 < ue.metric.dlTbSize.length then trimStreams buf ue.metric.dlTbSize
        else ue.metric.dlTbSize }
  sort := sch.dlPolicy.sort
  sort_perm := sch.dlPolicy.sort_perm
  getRBG_grant _ _ := rfl
  getRBG_trim _ _ := rfl
  getRBG_before _ _ := rfl
  getRBG_success _ _ _ := rfl
  getRBG_unSuccess _ _ _ := rfl

def ulCallbacks : TdmaCallbacks (UlUeInfo μ) where
  beforeSched p ue := { ue with metric := sch.ulPolicy.beforeUlSched p ue }
  successfullAssignment p q ue := { ue with metric := sch.ulPolicy.assignedUlResources p q ue }
  unSuccessfullAssignment p q ue :=
    { ue with metric := sch.ulPolicy.notAssignedUlResources p q ue }
  getTBS ue := ue.metric.ulTbSize
  getRBG ue := ue.ulRBG
  grant n ue := { ue with ulRBG := ue.ulRBG + n, ulSym := ue.ulSym + 1 }
  trim _ ue := ue
  sort := sch.ulPolicy.sort
  sort_perm := sch.ulPolicy.sort_perm
  getRBG_grant _ _ := rfl
  getRBG_trim _ _ := rfl
  getRBG_before _ _ := rfl
  getRBG_success _ _ _ := rfl
  getRBG_unSuccess _ _ _ := rfl

/-- `GetBandwidthInRbg() - zeroes`. -/
def numOfAssignableRbgs (notchedRbgsMask : List UInt8) : UInt32 :=
  sch.bandwidthInRbg.toUInt32 - UInt32.ofNat (notchedRbgsMask.count 0)

/-- A grant of all RBGs that are not notched. -/
def createDci (notchedRbgsMask : List UInt8) (spoint : PointInFTPlane) (rnti : UInt16)
    (tbs : List UInt32) (fmt : DciFormat) (mcs ndi rv : List UInt8) (numSym : UInt8) :
    Option DciInfoElementTdma :=
  let rbgAssigned :=
    if notchedRbgsMask.length = 0 then List.replicate sch.bandwidthInRbg.toNat 1
    else notchedRbgsMask
  if tbs.foldl (· + ·) 0 = 0 ∨ numSym = 0 ∨ rbgAssigned.length ≠ sch.bandwidthInRbg.toNat ∨
      rbgAssigned.count 0 = sch.bandwidthInRbg.toNat then none
  else
    some
      { rnti := rnti
        format := fmt
        symStart := spoint.sym
        numSym := numSym
        mcs := mcs
        tbSize := tbs
        ndi := ndi
        rv := rv
        type := .data
        bwpIndex := sch.bwpId.toUInt8
        tpc := 1
        rbgBitmask := rbgAssigned }

/-- The DCI, unless the TBS of every stream is too small, and the next starting point. -/
def createDlDci (spoint : PointInFTPlane) (rnti : UInt16) (ues : DlUes μ) :
    Option (Option DciInfoElementTdma × PointInFTPlane × DlUes μ) := do
  let ue := ues rnti
  let tbSize := ue.metric.dlTbSize.map fun tbs => if tbs < 10 then 0 else tbs
  let ues := setDlMetric ues rnti { ue.metric with dlTbSize := tbSize }
  if ue.metric.dlTbSize.all (· < 10) then return (none, spoint, ues)
  else
    let rbgs := sch.numOfAssignableRbgs sch.dlNotchedRbgsMask
    if rbgs = 0 then none
    else
      let numSym := (ue.dlRBG / rbgs).toUInt8
      let dci ← sch.createDci sch.dlNotchedRbgsMask spoint rnti tbSize .dl ue.dlMcs
        (ue.metric.dlTbSize.map fun tbs => if tbs < 10 then 0 else 1)
        (ue.metric.dlTbSize.map fun _ => 0) (max numSym 1)
      return (some dci, { rbg := 0, sym := spoint.sym + numSym }, ues)

/-- The DCI, if the TBS suffices for one, right below the starting point. -/
def createUlDci (spoint : PointInFTPlane) (rnti : UInt16) (ue : UlUeInfo μ) (maxSym : UInt32) :
    Option (Option DciInfoElementTdma × PointInFTPlane) := do
  let tbs := sch.calculateTbSize ue.ulMcs (ue.ulRBG * sch.numRbPerRbg)
  if tbs < 12 then return (none, spoint)
  else
    let rbgs := sch.numOfAssignableRbgs sch.ulNotchedRbgsMask
    if rbgs = 0 then none
    else
      let numSym := min (max (ue.ulRBG / rbgs) 1).toUInt8 maxSym.toUInt8
      if spoint.sym < numSym then none
      else
        let spoint := { spoint with sym := spoint.sym - numSym }
        let dci ← sch.createDci sch.ulNotchedRbgsMask spoint rnti [tbs] .ul [ue.ulMcs] [1] [0] numSym
        return (some dci, { spoint with rbg := 0 })

def dlNewData : NewDataScheduler μ where
  assignRBG symAvail activeDl ues := do
    let r ← sch.dlCallbacks.assignRBGTDMA (sch.numOfAssignableRbgs sch.dlNotchedRbgsMask) symAvail
      activeDl ues.dl
    return ({ ues with dl := r.1 }, symbolsOf r.2)
  createDci spoint rnti _ ues := do
    let (dci, spoint, dl) ← sch.createDlDci spoint rnti ues.dl
    return (dci, spoint, { ues with dl := dl })
  changeBeam spoint _ := spoint
  resetMetric := sch.resets.resetDlMetric
  resetSchedInfo := sch.resets.resetDlSchedInfo

def ulNewData : NewDataScheduler μ where
  assignRBG symAvail activeUl ues := do
    let r ← sch.ulCallbacks.assignRBGTDMA (sch.numOfAssignableRbgs sch.ulNotchedRbgsMask) symAvail
      activeUl ues.ul
    return ({ ues with ul := r.1 }, symbolsOf r.2)
  createDci spoint rnti maxSym ues := do
    let (dci, spoint) ← sch.createUlDci spoint rnti (ues.ul rnti) maxSym
    return (dci, spoint, ues)
  changeBeam spoint _ := spoint
  resetMetric := sch.resets.resetUlMetric
  resetSchedInfo := sch.resets.resetUlSchedInfo

end TdmaScheduler

end Bullet.Mac
