import Bullet.Mac.SchedulerLayout
import Bullet.Mac.SchedulingRequests
import Bullet.Mac.SrsTurns
import Bullet.Mac.UeLifecycle

/-! # Slots

The UL part of a slot is scheduled first, from the end of the slot towards its start: control, SRS,
retransmissions and new data. The DL part starts with its control symbols and gets the symbols that
UL has left, and the PHY merges the two parts.
-/

namespace Bullet.Mac

open Phy

variable {μ : Type}

def MacScheduler.bandwidthInRbg : MacScheduler μ → UInt16
  | .ofdma sch => sch.bandwidthInRbg
  | .tdma sch => sch.bandwidthInRbg

/-- The parameters of a cell, whose symbols and SRS are those of `SrsConfig`. -/
structure CellConfig (μ : Type) extends SrsConfig where
  scheduler : MacScheduler μ
  bandwidth : bandwidthInRbg = scheduler.bandwidthInRbg.toNat
  scheduleMode : ℕ
  harqIds : List UInt8

/-- What the scheduler keeps from one trigger to the next. -/
structure MacState (μ : Type) where
  ues : SchedUes μ
  srsSlotCounter : UInt32 := 0
  srList : List UInt16 := []
  dlHarqToRetransmit : List DlHarqInfo := []
  ulHarqToRetransmit : List UlHarqInfo := []

/-- The variables of `DoScheduleUl` and of `DoScheduleDl`. -/
structure SlotScheduling (μ : Type) where
  spoint : PointInFTPlane
  symAvail : UInt8
  allocInfo : SlotAllocInfo
  mac : MacState μ

/-- What a UL trigger finds: the feedbacks that are left to retransmit, and the active users. -/
structure UlTrigger where
  type : LteNrTddSlotType
  srsUes : SrsUeMap
  walk : UeWalk
  ulHarqFeedback : List UlHarqInfo
  idealBsrMap : UInt16 → UInt32
  activeUl : ActiveUeMap

/-- What a DL trigger finds. -/
structure DlTrigger where
  type : LteNrTddSlotType
  activeDlHarq : ActiveHarqMap
  dlHarqFeedback : List DlHarqInfo
  activeDl : ActiveUeMap

/-- The users without those that have an allocation in the slot; each allocation removes the first
entry of its user in each beam. -/
def withoutScheduled (allocations : List VarTtiAllocInfo) (active : ActiveUeMap) : ActiveUeMap :=
  allocations.foldl
    (fun active alloc => active.map fun beam =>
      (beam.1, beam.2.eraseP fun ue => ue.1 == alloc.dci.rnti)) active

namespace CellConfig

variable (cfg : CellConfig μ)

def ctrlDci (mode : DciFormat) (sym : UInt8) : DciInfoElementTdma where
  format := mode
  symStart := sym
  numSym := 1
  type := .ctrl
  rbgBitmask := List.replicate cfg.bandwidthInRbg 1

def ctrlSyms (symStart numSymToAllocate : UInt8) (mode : DciFormat) : List VarTtiAllocInfo :=
  (List.range numSymToAllocate.toNat).map fun i =>
    .ofDci (cfg.ctrlDci mode (symStart + UInt8.ofNat i))

def prependCtrlSym (symStart numSymToAllocate : UInt8) (mode : DciFormat)
    (allocations : List VarTtiAllocInfo) : Option (List VarTtiAllocInfo) :=
  if mode = .dl ∧ (allocations ≠ [] ∨ symStart ≠ 0) then none
  else some ((cfg.ctrlSyms symStart numSymToAllocate mode).reverse ++ allocations)

def appendCtrlSym (symStart numSymToAllocate : UInt8) (mode : DciFormat)
    (allocations : List VarTtiAllocInfo) : Option (List VarTtiAllocInfo) :=
  if mode = .dl ∧ (allocations ≠ [] ∨ symStart ≠ 0) then none
  else some (allocations ++ cfg.ctrlSyms symStart numSymToAllocate mode)

/-! ## UL -/

def scheduleSrs (e : UlTrigger) (s : SlotScheduling μ) : Option (SlotScheduling μ) :=
  if cfg.isSrsSlot e.type = false then some s
  else if s.symAvail < cfg.srsCtrlSymbols then none
  else do
    let srsSlotCounter := s.mac.srsSlotCounter + 1
    let a ← doScheduleSrs cfg.toSrsConfig ⟨e.type, e.srsUes, e.walk, s.allocInfo⟩ srsSlotCounter
      s.spoint
    return {
      spoint := a.spoint
      symAvail := s.symAvail - a.used
      allocInfo := a.allocInfo
      mac := { s.mac with srsSlotCounter := srsSlotCounter } }

/-- The retransmissions; `ComputeActiveHarq` asserts that the processes are active. -/
def retransmitUl (e : UlTrigger) (s : SlotScheduling μ) : Option (SlotScheduling μ) :=
  if ¬ ∀ h ∈ e.ulHarqFeedback, (s.mac.ues.harq.ulProcess h.key).any (·.active) then none
  else if e.ulHarqFeedback = [] then some s
  else do
    let t ← scheduleUlHarq cfg.scheduler.bandwidthInRbg ⟨s.spoint, s.symAvail, 0, s.mac.ues.harq,
      s.mac.ulHarqToRetransmit, s.allocInfo⟩ e.ulHarqFeedback
    if s.symAvail < t.symUsed then none
    else return {
      spoint := t.startingPoint
      symAvail := s.symAvail - t.symUsed
      allocInfo := t.slotAlloc
      mac := { s.mac with
        ues := { s.mac.ues with harq := t.ueMap }
        ulHarqToRetransmit := t.ulHarqToRetransmit } }

def serveRequests (e : UlTrigger) (s : SlotScheduling μ) : Option (SlotScheduling μ) :=
  if s.spoint.rbg ≠ 0 then none
  else if s.symAvail = 0 ∨ s.mac.srList = [] then some s
  else do
    let ulLCG ← doScheduleUlSr cfg.scheduleMode e.idealBsrMap s.spoint
      (fun rnti => (s.mac.ues.harq rnti).map fun _ => s.mac.ues.ulLCG rnti) s.mac.srList
    return { s with
      mac := { s.mac with
        ues := { s.mac.ues with ulLCG := fun rnti => (ulLCG rnti).getD (s.mac.ues.ulLCG rnti) }
        srList := [] } }

def scheduleUlData (e : UlTrigger) (s : SlotScheduling μ) : Option (SlotScheduling μ) :=
  let activeUl := withoutScheduled s.allocInfo.varTtiAllocInfo e.activeUl
  if s.symAvail = 0 ∨ activeUl = [] then some s
  else do
    let t ← doScheduleUlData cfg.scheduler.ulNewData cfg.harqIds s.spoint s.symAvail.toUInt32
      activeUl s.mac.ues s.allocInfo
    return {
      spoint := t.spoint
      symAvail := s.symAvail - t.usedSym
      allocInfo := t.slotAlloc
      mac := { s.mac with ues := t.ues } }

/-- `ScheduleUl`, with `DoScheduleUl` up to the count of the symbols. -/
def scheduleUl (e : UlTrigger) (mac : MacState μ) : Option (SlotScheduling μ) := do
  let ctrl ← cfg.appendCtrlSym (cfg.symbolsPerSlot - 1) cfg.ulCtrlSymbols .ul []
  if ctrl.length ≠ 1 then none
  else do
    let s ← cfg.scheduleSrs e
      ⟨⟨0, cfg.lastSym⟩, cfg.dataSymPerSlot e.type, ⟨cfg.ulCtrlSymbols.toUInt32, ctrl⟩, mac⟩
    let s ← cfg.retransmitUl e s
    let s ← cfg.serveRequests e s
    cfg.scheduleUlData e s

/-- What `DoScheduleUl` registers for the slot. -/
def registerUl (elem : SlotElem) (allocInfo : SlotAllocInfo) : Option SlotElem := do
  let dcis := (allocInfo.varTtiAllocInfo.map VarTtiAllocInfo.dci).filter (·.format = .ul)
  let symToAl ← NrMacSchedulerNs3.symToAl dcis
  let ulAllocations ← (dcis.filter (·.type = .data)).mapM AllocElem.ofDci
  return {
    totUlSym := symToAl.foldl (· + ·) elem.totUlSym
    ulAllocations := elem.ulAllocations ++ ulAllocations }

/-- The assertion at the end of `DoScheduleUl`. -/
def UlRegistered (type : LteNrTddSlotType) (s : SlotScheduling μ) (elem : SlotElem) : Prop :=
  ((cfg.dataSymPerSlot type).toNat : ℤ) + cfg.ulCtrlSymbols.toNat - s.symAvail.toNat =
    elem.totUlSym.toNat

/-! ## DL -/

def retransmitDl (e : DlTrigger) (s : SlotScheduling μ) : Option (SlotScheduling μ) :=
  if e.activeDlHarq = [] then some s
  else do
    let t ← scheduleDlHarq cfg.scheduler.bandwidthInRbg s.symAvail e.activeDlHarq e.dlHarqFeedback
      ⟨s.spoint, 0, s.mac.ues.harq, s.mac.dlHarqToRetransmit, s.allocInfo⟩
    if s.symAvail < t.usedSym then none
    else return {
      spoint := t.startingPoint
      symAvail := s.symAvail - t.usedSym
      allocInfo := t.slotAlloc
      mac := { s.mac with
        ues := { s.mac.ues with harq := t.ueMap }
        dlHarqToRetransmit := t.dlHarqToRetransmit } }

def scheduleDlData (e : DlTrigger) (s : SlotScheduling μ) : Option (SlotScheduling μ) :=
  let activeDl := withoutScheduled s.allocInfo.varTtiAllocInfo e.activeDl
  if s.spoint.rbg ≠ 0 then none
  else if s.symAvail = 0 ∨ activeDl = [] then some s
  else do
    let t ← doScheduleDlData cfg.scheduler.dlNewData cfg.symbolsPerSlot.toUInt32 cfg.harqIds
      s.spoint s.symAvail.toUInt32 activeDl s.mac.ues s.allocInfo
    if s.symAvail < t.usedSym then none
    else return {
      spoint := t.spoint
      symAvail := s.symAvail - t.usedSym
      allocInfo := t.slotAlloc
      mac := { s.mac with ues := t.ues } }

/-- The UL control symbols of the DL part, which only a slot of type S has. -/
def specialCtrl (type : LteNrTddSlotType) : UInt8 :=
  if type = .s then cfg.ulCtrlSymbols else 0

/-- `ScheduleDl`, for a slot in which UL has `totUlSym` symbols. -/
def scheduleDl (e : DlTrigger) (totUlSym : UInt8) (mac : MacState μ) :
    Option (SlotScheduling μ) := do
  let ctrl ← cfg.prependCtrlSym 0 cfg.dlCtrlSymbols .dl []
  let ctrl ← cfg.appendCtrlSym (cfg.symbolsPerSlot - 1) (cfg.specialCtrl e.type) .ul ctrl
  let s ← cfg.retransmitDl e
    { spoint := ⟨0, cfg.dlCtrlSymbols⟩
      symAvail := cfg.symbolsPerSlot - cfg.dlCtrlSymbols - (totUlSym + cfg.specialCtrl e.type)
      allocInfo :=
        ⟨cfg.dlCtrlSymbols.toUInt32 + (cfg.specialCtrl e.type).toUInt32, ctrl⟩
      mac := mac }
  cfg.scheduleDlData e s

end CellConfig

/-! ## The merged slot -/

/-- `std::sort` by the first symbol, which leaves the order of allocations that start together
open. -/
structure StartSort where
  sort : List VarTtiAllocInfo → List VarTtiAllocInfo
  perm : ∀ l, (sort l).Perm l
  sorted : ∀ l, (sort l).Pairwise fun a b => a.dci.symStart ≤ b.dci.symStart

def SlotAllocInfo.merge (order : StartSort) (s other : SlotAllocInfo) : SlotAllocInfo where
  numSymAlloc := s.numSymAlloc + other.numSymAlloc
  varTtiAllocInfo := order.sort (other.varTtiAllocInfo.reverse ++ s.varTtiAllocInfo)

/-- `symUsed` of `GenerateAllocationStatistics`, from `lastSymStart` on. -/
def symUsed : Option UInt8 → List VarTtiAllocInfo → UInt32
  | _, [] => 0
  | lastSymStart, a :: l =>
    (if lastSymStart = some a.dci.symStart then 0 else a.dci.numSym.toUInt32) +
      symUsed (some a.dci.symStart) l

/-- The assertions of `GenerateAllocationStatistics`. -/
structure SlotAllocInfo.StatisticsHold (s : SlotAllocInfo) : Prop where
  ascending : s.varTtiAllocInfo.Pairwise fun a b => a.dci.symStart ≤ b.dci.symStart
  symUsed : symUsed none s.varTtiAllocInfo = s.numSymAlloc

end Bullet.Mac
