import Bullet.Lib.ValueMap
import Bullet.Mac.HarqTable
import Bullet.Trigger.BulletTrigger

/-! # Users that come and go

The containers of the scheduler that hold users: the users themselves, their triggers, the scheduling
requests, the feedbacks to retransmit and the UL grants that wait for a CQI. A released user leaves
the first container only. `none` is a failed assertion, an abort, an exception or an access through
a null pointer or an end iterator.
-/

namespace Bullet.Mac

open Lib Lib.PartialRun Trigger

structure UeRepresentation where
  beamConfId : UInt16
  dlHarq : HarqTable
  ulHarq : HarqTable

namespace UeRepresentation

def harq (ue : UeRepresentation) : DciFormat → HarqTable
  | .dl => ue.dlHarq
  | .ul => ue.ulHarq

def setHarq (ue : UeRepresentation) (t : HarqTable) : DciFormat → UeRepresentation
  | .dl => { ue with dlHarq := t }
  | .ul => { ue with ulHarq := t }

end UeRepresentation

abbrev UeRepresentations := AList fun _ : UInt16 => UeRepresentation

/-- The processes of all users in one direction. -/
def UeRepresentations.tables (m : UeRepresentations) (direction : DciFormat) : HarqTables :=
  mapValues (fun _ ue => ue.harq direction) m

def UeRepresentations.putTables (m : UeRepresentations) (direction : DciFormat)
    (tables : HarqTables) : UeRepresentations :=
  mapValues (fun rnti ue => ue.setHarq ((tables.lookup rnti).getD (ue.harq direction)) direction) m

/-- A trigger is the object created as the `created`-th of the scheduler. -/
structure TriggerObject where
  created : ℕ
  state : BulletTrigger

structure AllocElem where
  rnti : UInt16
  tbs : UInt32
  symStart : UInt8
  numSym : UInt8
  mcs : UInt8
  rbgMask : List UInt8
deriving DecidableEq, Repr

def AllocElem.ofDci (dci : DciInfoElementTdma) : Option AllocElem := do
  let tbs ← dci.tbSize[0]?
  let mcs ← dci.mcs[0]?
  some { rnti := dci.rnti, tbs := tbs, symStart := dci.symStart, numSym := dci.numSym, mcs := mcs
         rbgMask := dci.rbgBitmask }

structure SlotElem where
  totUlSym : UInt8
  ulAllocations : List AllocElem := []
deriving DecidableEq, Repr

structure LifecycleConfig where
  dl : HarqConfig
  ul : HarqConfig
  ulCtrlSymbols : UInt8

structure NrMacSchedulerNs3 where
  ueMap : UeRepresentations := ∅
  triggerMap : AList (fun _ : UInt16 => TriggerObject) := ∅
  created : ℕ := 0
  srList : List UInt16 := []
  dlHarqToRetransmit : List HarqFeedback := []
  ulHarqToRetransmit : List HarqFeedback := []
  ulAllocationMap : AList (fun _ : UInt64 => SlotElem) := ∅

/-- What the scheduler decides in a slot: a NACKed process is retransmitted or buffered, new data is
sent. -/
inductive SlotChoice where
  | retransmit (key : HarqKey) (dci : DciInfoElementTdma)
  | buffer (key : HarqKey)
  | newData (rnti : UInt16) (dci : DciInfoElementTdma) (rlcPduInfo : List (List RlcPduInfo))
deriving DecidableEq

namespace SlotChoice

def event : SlotChoice → HarqEvent
  | retransmit key dci => .retransmit key dci
  | buffer key => .buffer key
  | newData rnti dci rlcPduInfo => .newData rnti dci rlcPduInfo

/-- The user that a choice is about. -/
def rnti : SlotChoice → UInt16
  | retransmit key _ => key.rnti
  | buffer key => key.rnti
  | newData rnti _ _ => rnti

def buffered : SlotChoice → Option HarqKey
  | buffer key => some key
  | _ => none

/-- The grant, which names its user. -/
def grant : SlotChoice → Option DciInfoElementTdma
  | retransmit key dci => some { dci with rnti := key.rnti, type := .data }
  | buffer _ => none
  | newData rnti dci _ => some { dci with rnti := rnti, type := .data }

end SlotChoice

namespace NrMacSchedulerNs3

def doCschedUeConfigReq (cfg : LifecycleConfig) (s : NrMacSchedulerNs3) (rnti beamConfId : UInt16)
    (bt : BulletTrigger) : NrMacSchedulerNs3 :=
  match s.ueMap.lookup rnti with
  | none => { s with
      ueMap := s.ueMap.insert rnti
        { beamConfId := beamConfId
          dlHarq := .create cfg.dl.numHarqProcess
          ulHarq := .create cfg.ul.numHarqProcess }
      -- The insertion leaves a trigger that is there.
      triggerMap :=
        if rnti ∈ s.triggerMap then s.triggerMap else s.triggerMap.insert rnti ⟨s.created, bt⟩
      created := s.created + 1 }
  | some ue => { s with ueMap := s.ueMap.insert rnti { ue with beamConfId := beamConfId } }

def doCschedUeReleaseReq (s : NrMacSchedulerNs3) (rnti : UInt16) : Option NrMacSchedulerNs3 :=
  if rnti ∈ s.ueMap then some { s with ueMap := s.ueMap.erase rnti } else none

def addSr (s : NrMacSchedulerNs3) (rnti : UInt16) : Option NrMacSchedulerNs3 :=
  if rnti ∈ s.srList then some s
  else do
    let trigger ← s.triggerMap.lookup rnti
    some { s with
      srList := s.srList ++ [rnti]
      triggerMap := s.triggerMap.insert rnti { trigger with
        state := { trigger.state with tInput := { trigger.state.tInput with sr := true } } } }

def doSchedUlSrInfoReq (s : NrMacSchedulerNs3) (srList : List UInt16) :
    Option NrMacSchedulerNs3 := do
  let s ← srList.foldlM addSr s
  if srList.length ≤ s.srList.length then some s else none

/-- The feedbacks kept and received, the choices of the slot, and the feedbacks that are buffered. -/
def scheduleHarq (cfg : HarqConfig) (direction : DciFormat) (ueMap : UeRepresentations)
    (toRetransmit received : List HarqFeedback) (choices : List SlotChoice) :
    Option (UeRepresentations × List HarqFeedback) := do
  let merged := toRetransmit ++ received
  let s ← run (HarqScheduler.step cfg) ⟨ueMap.tables direction, []⟩
    (.trigger merged :: choices.map SlotChoice.event)
  some (ueMap.putTables direction s.tables,
    (choices.filterMap SlotChoice.buffered).filterMap fun key => merged.find? (·.key = key))

/-- A slot with no more UL symbols than those of control is forgotten. -/
def putUlAllocation (cfg : LifecycleConfig) (m : AList fun _ : UInt64 => SlotElem) (sfn : UInt64)
    (elem : SlotElem) : AList fun _ : UInt64 => SlotElem :=
  if elem.totUlSym ≤ cfg.ulCtrlSymbols then m.erase sfn else m.insert sfn elem

def doSchedDlTriggerReq (cfg : LifecycleConfig) (s : NrMacSchedulerNs3) (sfn : UInt64)
    (special : Bool) (received : List HarqFeedback) (choices : List SlotChoice) :
    Option NrMacSchedulerNs3 := do
  let (ueMap, kept) ← scheduleHarq cfg.dl .dl s.ueMap s.dlHarqToRetransmit received choices
  let ulAllocations := (s.ulAllocationMap.lookup sfn).getD { totUlSym := 0 }
  let totUlSym :=
    if special then ulAllocations.totUlSym + cfg.ulCtrlSymbols else ulAllocations.totUlSym
  some { s with
    ueMap := ueMap
    dlHarqToRetransmit := kept
    ulAllocationMap :=
      putUlAllocation cfg s.ulAllocationMap sfn { ulAllocations with totUlSym := totUlSym } }

/-- The symbols of the UL grants, of which one counts for each symbol start. -/
def symToAl (dcis : List DciInfoElementTdma) : Option (List UInt8) :=
  dcis.foldlM (fun symbols dci =>
    if dci.symStart.toNat < 15 then some (symbols.set dci.symStart.toNat dci.numSym) else none)
    (.replicate 15 0)

/-- `ctrl` are the grants of the slot for control and SRS; `srServed` says that symbols were left for
the scheduling requests. -/
def doSchedUlTriggerReq (cfg : LifecycleConfig) (s : NrMacSchedulerNs3) (sfn : UInt64)
    (received : List HarqFeedback) (choices : List SlotChoice) (srServed : Bool)
    (ctrl : List DciInfoElementTdma) : Option NrMacSchedulerNs3 := do
  let (ueMap, kept) ← scheduleHarq cfg.ul .ul s.ueMap s.ulHarqToRetransmit received choices
  -- `DoScheduleUlSr` looks up every user that asked.
  if srServed ∧ ∃ rnti ∈ s.srList, rnti ∉ s.ueMap then none
  else do
    let grants := choices.filterMap SlotChoice.grant
    let allocations ← grants.mapM AllocElem.ofDci
    let symbols ← symToAl (ctrl ++ grants)
    let old := (s.ulAllocationMap.lookup sfn).getD { totUlSym := 0 }
    some { s with
      ueMap := ueMap
      srList := if srServed then [] else s.srList
      ulHarqToRetransmit := kept
      ulAllocationMap := s.ulAllocationMap.insert sfn
        { totUlSym := symbols.foldl (· + ·) old.totUlSym
          ulAllocations := old.ulAllocations ++ allocations } }

def doSchedUlCqiInfoReq (s : NrMacSchedulerNs3) (sfn : UInt64) (symStart : UInt8) :
    Option NrMacSchedulerNs3 := do
  let elem ← s.ulAllocationMap.lookup sfn
  let found := elem.ulAllocations.filter (·.symStart = symStart)
  let rest := elem.ulAllocations.filter (·.symStart ≠ symStart)
  if found ≠ [] ∧ ∀ a ∈ found, a.rnti ∈ s.ueMap ∧ 0 < a.numSym ∧ 0 < a.tbs then
    some { s with
      ulAllocationMap :=
        if rest = [] then s.ulAllocationMap.erase sfn
        else s.ulAllocationMap.insert sfn { elem with ulAllocations := rest } }
  else none

/-- A trigger changes on a timer of its own. -/
def processTrigger (s : NrMacSchedulerNs3) (rnti : UInt16) (state : BulletTrigger) :
    NrMacSchedulerNs3 :=
  match s.triggerMap.lookup rnti with
  | none => s
  | some trigger =>
    { s with triggerMap := s.triggerMap.insert rnti { trigger with state := state } }

end NrMacSchedulerNs3

/-- The requests that reach the scheduler, and the slots of the triggers. -/
inductive SchedulerEvent where
  | ueConfigReq (rnti beamConfId : UInt16) (bt : BulletTrigger)
  | ueReleaseReq (rnti : UInt16)
  | ulSrInfoReq (srList : List UInt16)
  | dlTriggerReq (sfn : UInt64) (special : Bool) (received : List HarqFeedback)
      (choices : List SlotChoice)
  | ulTriggerReq (sfn : UInt64) (received : List HarqFeedback) (choices : List SlotChoice)
      (srServed : Bool) (ctrl : List DciInfoElementTdma)
  | ulCqiInfoReq (sfn : UInt64) (symStart : UInt8)
  | triggerSlot (rnti : UInt16) (state : BulletTrigger)

def NrMacSchedulerNs3.step (cfg : LifecycleConfig) (s : NrMacSchedulerNs3) :
    SchedulerEvent → Option NrMacSchedulerNs3
  | .ueConfigReq rnti beamConfId bt => some (s.doCschedUeConfigReq cfg rnti beamConfId bt)
  | .ueReleaseReq rnti => s.doCschedUeReleaseReq rnti
  | .ulSrInfoReq srList => s.doSchedUlSrInfoReq srList
  | .dlTriggerReq sfn special received choices =>
    s.doSchedDlTriggerReq cfg sfn special received choices
  | .ulTriggerReq sfn received choices srServed ctrl =>
    s.doSchedUlTriggerReq cfg sfn received choices srServed ctrl
  | .ulCqiInfoReq sfn symStart => s.doSchedUlCqiInfoReq sfn symStart
  | .triggerSlot rnti state => some (s.processTrigger rnti state)

end Bullet.Mac
