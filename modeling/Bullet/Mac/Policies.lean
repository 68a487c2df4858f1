import Mathlib.Data.Rat.Defs
import Bullet.Mac.OfdmaNewData
import Bullet.Mac.TdmaNewData

/-! # The metrics of RR, MR and PF

All three find the TB sizes of a user from its RBGs with `UpdateDlMetric` and `UpdateUlMetric`. RR and
MR differ in the order only, and update the user that is given RBGs; PF updates all users, with their
throughputs.
-/

namespace Bullet.Mac

variable {μ : Type}

/-- The AMC of a direction, with the RBs of an RBG. -/
structure NrAmc where
  calculateTbSize : UInt8 → UInt32 → UInt32
  numRbPerRbg : UInt32

/-- What a user has reported for DL. -/
structure DlCqiInfo where
  ri : UInt8 := 1
  wbCqi : List UInt8 := []
deriving DecidableEq, Repr

/-- The throughputs of a user in one direction, with PF. -/
structure PfTput where
  currTput : ℚ := 0
  avgTput : ℚ := 0
  lastAvgTput : ℚ := 0
  potentialTput : ℚ := 0
deriving DecidableEq, Repr

/-- What PF keeps of a user, with the report that it reads. -/
structure NrMacSchedulerUeInfoPF where
  dlCqi : DlCqiInfo := {}
  dl : PfTput := {}
  ul : PfTput := {}
deriving DecidableEq, Repr

/-- Nothing does not cover a demand with a least number of bytes. -/
theorem not_max_le_zero {least : UInt32} (demand : UInt32) (hLeast : least ≠ 0) :
    ¬ max demand least ≤ 0 := by
  have hMax : max demand least = if demand ≤ least then least else demand := rfl
  have hPos : 0 < least.toNat := Nat.pos_of_ne_zero fun hZero => hLeast (UInt32.toNat_inj.mp hZero)
  rw [hMax, UInt32.le_iff_toNat_le, UInt32.toNat_zero]
  split
  · omega
  · next hMore =>
    rw [UInt32.le_iff_toNat_le] at hMore
    omega

namespace PfTput

/-- The average with the throughput of one more slot. -/
def average (timeWindow lastAvgTput currTput : ℚ) : ℚ :=
  (1 - 1 / timeWindow) * lastAvgTput + 1 / timeWindow * currTput

def update (timeWindow : ℚ) (tbSize : UInt32) (sym : UInt8) (p : PfTput) : PfTput :=
  { p with
    currTput := tbSize.toNat / sym.toNat
    avgTput := average timeWindow p.lastAvgTput (tbSize.toNat / sym.toNat) }

/-- `ResetDlMetric` and `ResetUlMetric`. -/
def resetMetric (p : PfTput) : PfTput := { p with avgTput := p.lastAvgTput }

/-- `ResetDlSchedInfo` and `ResetUlSchedInfo`. -/
def resetSchedInfo (p : PfTput) : PfTput := { lastAvgTput := p.avgTput }

end PfTput

/-- The resets of PF at the end of a slot. -/
def pfResets : MetricResets NrMacSchedulerUeInfoPF where
  dlMetric p := { p with dl := p.dl.resetMetric }
  ulMetric p := { p with ul := p.ul.resetMetric }
  dlSchedInfo p := { p with dl := p.dl.resetSchedInfo }
  ulSchedInfo p := { p with ul := p.ul.resetSchedInfo }

namespace NrAmc

variable (amc : NrAmc)

/-- The TB size that `UpdateUlMetric` finds. -/
def updateUlMetric (ue : UlUeInfo μ) : UInt32 :=
  if ue.ulRBG = 0 then 0 else amc.calculateTbSize ue.ulMcs (ue.ulRBG * amc.numRbPerRbg)

/-- The streams whose TB sizes `UpdateDlMetric` writes. -/
def dlStreams (cqi : DlCqiInfo) (ue : DlUeInfo μ) : ℕ :=
  if cqi.ri = 1 then if ue.dlMcs.length = 1 then 1 else cqi.wbCqi.length else 2

/-- The TB size of one stream. A user that has gone from two streams to one sends on the one with the
highest CQI. -/
def dlStreamSize (cqi : DlCqiInfo) (ue : DlUeInfo μ) (stream : ℕ) : UInt32 :=
  let tbSize := amc.calculateTbSize ((ue.dlMcs[stream]?).getD 0) (ue.dlRBG * amc.numRbPerRbg)
  if cqi.ri = 1 ∧ ue.dlMcs.length ≠ 1 then
    if stream = cqi.wbCqi.idxOf (cqi.wbCqi.max?.getD 0) then tbSize else 0
  else tbSize

/-- The TB sizes after `UpdateDlMetric`, which stops the program at an invalid MCS or rank. -/
def updateDlMetric (cqi : DlCqiInfo) (ue : DlUeInfo μ) : List UInt32 :=
  ue.metric.dlTbSize.mapIdx fun stream tbSize =>
    if ue.dlRBG = 0 then 0
    else if stream < dlStreams cqi ue then amc.dlStreamSize cqi ue stream
    else tbSize

theorem getElem?_updateDlMetric {amc : NrAmc} {ue : DlUeInfo μ} (cqi : DlCqiInfo) (stream : ℕ) :
    (amc.updateDlMetric cqi ue)[stream]? = ue.metric.dlTbSize[stream]?.map fun tbSize =>
      if ue.dlRBG = 0 then 0
      else if stream < dlStreams cqi ue then amc.dlStreamSize cqi ue stream
      else tbSize :=
  List.getElem?_mapIdx

/-- An update finds the same again. -/
theorem updateDlMetric_updated {amc : NrAmc} {ue : DlUeInfo μ} {cqi : DlCqiInfo}
    {metric : DlMetric μ}
    (h : metric.dlTbSize = amc.updateDlMetric cqi ue) :
    amc.updateDlMetric cqi { ue with metric := metric } = amc.updateDlMetric cqi ue := by
  refine List.ext_getElem? fun stream => ?_
  rw [getElem?_updateDlMetric]
  change metric.dlTbSize[stream]?.map (fun tbSize =>
    if ue.dlRBG = 0 then 0
    else if stream < dlStreams cqi ue then amc.dlStreamSize cqi ue stream
    else tbSize) = _
  rw [h, getElem?_updateDlMetric, Option.map_map]
  congr 1
  funext tbSize
  simp only [Function.comp_apply]
  split
  · rfl
  · split <;> rfl

/-- RR in UL, and MR with another order. -/
def rrUlPolicy (order : UlPolicy μ) : UlPolicy μ where
  beforeUlSched _ ue := ue.metric
  assignedUlResources _ _ ue := { ue.metric with ulTbSize := amc.updateUlMetric ue }
  notAssignedUlResources _ _ ue := ue.metric
  sort := order.sort
  sort_perm := order.sort_perm

/-- RR in DL, and MR with another order. -/
def rrDlPolicy (cqi : μ → DlCqiInfo) (order : DlPolicy μ) : DlPolicy μ where
  beforeDlSched _ ue := ue.metric
  assignedDlResources _ _ ue :=
    { ue.metric with dlTbSize := amc.updateDlMetric (cqi ue.metric.other) ue }
  notAssignedDlResources _ _ ue := ue.metric
  sort := order.sort
  sort_perm := order.sort_perm

def calculatePotentialTPutUl (assignableInIteration : PointInFTPlane)
    (ue : UlUeInfo NrMacSchedulerUeInfoPF) : UlMetric NrMacSchedulerUeInfoPF :=
  let tbSize := amc.calculateTbSize ue.ulMcs (assignableInIteration.rbg * amc.numRbPerRbg)
  { ue.metric with
    other.ul.potentialTput := tbSize.toNat / assignableInIteration.sym.toNat }

def calculatePotentialTPutDl (assignableInIteration : PointInFTPlane)
    (ue : DlUeInfo NrMacSchedulerUeInfoPF) : DlMetric NrMacSchedulerUeInfoPF :=
  let tbSize := fun mcs =>
    (amc.calculateTbSize mcs (assignableInIteration.rbg * amc.numRbPerRbg)).toNat
  let tbSizes : ℕ :=
    if ue.metric.other.dlCqi.ri = 1 then tbSize (ue.dlMcs.max?.getD 0)
    else if ue.metric.other.dlCqi.ri = 2 then (ue.dlMcs.map tbSize).sum
    else 0
  { ue.metric with other.dl.potentialTput := tbSizes / assignableInIteration.sym.toNat }

def updateUlPFMetric (timeWindow : ℚ) (totAssigned : PointInFTPlane)
    (ue : UlUeInfo NrMacSchedulerUeInfoPF) : UlMetric NrMacSchedulerUeInfoPF :=
  { ulTbSize := amc.updateUlMetric ue
    other :=
      { ue.metric.other with
        ul := ue.metric.other.ul.update timeWindow (amc.updateUlMetric ue) totAssigned.sym } }

def updateDlPFMetric (timeWindow : ℚ) (totAssigned : PointInFTPlane)
    (ue : DlUeInfo NrMacSchedulerUeInfoPF) : DlMetric NrMacSchedulerUeInfoPF :=
  let dlTbSize := amc.updateDlMetric ue.metric.other.dlCqi ue
  { dlTbSize := dlTbSize
    other :=
      { ue.metric.other with
        dl := ue.metric.other.dl.update timeWindow (dlTbSize.foldl (· + ·) 0) totAssigned.sym } }

def pfUlPolicy (timeWindow : ℚ) (order : UlPolicy NrMacSchedulerUeInfoPF) :
    UlPolicy NrMacSchedulerUeInfoPF where
  beforeUlSched := amc.calculatePotentialTPutUl
  assignedUlResources _ totAssigned := amc.updateUlPFMetric timeWindow totAssigned
  notAssignedUlResources _ totAssigned := amc.updateUlPFMetric timeWindow totAssigned
  sort := order.sort
  sort_perm := order.sort_perm

def pfDlPolicy (timeWindow : ℚ) (order : DlPolicy NrMacSchedulerUeInfoPF) :
    DlPolicy NrMacSchedulerUeInfoPF where
  beforeDlSched := amc.calculatePotentialTPutDl
  assignedDlResources _ totAssigned := amc.updateDlPFMetric timeWindow totAssigned
  notAssignedDlResources _ totAssigned := amc.updateDlPFMetric timeWindow totAssigned
  sort := order.sort
  sort_perm := order.sort_perm

end NrAmc

/-! ## How the UL TB sizes follow the RBGs -/

namespace OfdmaScheduler

/-- `m_ulAmc`. -/
def ulAmc (sch : OfdmaScheduler μ) : NrAmc := ⟨sch.calculateTbSize, sch.numRbPerRbg⟩

/-- The TB size of a user changes by `UpdateUlMetric` only, and so when it is given RBGs. -/
structure UpdatesTbSize (sch : OfdmaScheduler μ) : Prop where
  before : ∀ p ue, (sch.policy.beforeUlSched p ue).ulTbSize = ue.metric.ulTbSize
  assigned : ∀ p q ue,
    (sch.policy.assignedUlResources p q ue).ulTbSize = sch.ulAmc.updateUlMetric ue
  notAssigned : ∀ p q ue,
    (sch.policy.notAssignedUlResources p q ue).ulTbSize = ue.metric.ulTbSize ∨
      (sch.policy.notAssignedUlResources p q ue).ulTbSize = sch.ulAmc.updateUlMetric ue

theorem updatesTbSize_rr {sch : OfdmaScheduler μ}
    (h : sch.policy = sch.ulAmc.rrUlPolicy sch.policy) : sch.UpdatesTbSize := by
  constructor <;> rw [h]
  · exact fun _ _ => rfl
  · exact fun _ _ _ => rfl
  · exact fun _ _ _ => Or.inl rfl

theorem updatesTbSize_pf {sch : OfdmaScheduler NrMacSchedulerUeInfoPF} {timeWindow : ℚ}
    (h : sch.policy = sch.ulAmc.pfUlPolicy timeWindow sch.policy) : sch.UpdatesTbSize := by
  constructor <;> rw [h]
  · exact fun _ _ => rfl
  · exact fun _ _ _ => rfl
  · exact fun _ _ _ => Or.inr rfl

end OfdmaScheduler

/-- `m_ulAmc`. -/
def TdmaScheduler.ulAmc (sch : TdmaScheduler μ) : NrAmc := ⟨sch.calculateTbSize, sch.numRbPerRbg⟩

end Bullet.Mac
