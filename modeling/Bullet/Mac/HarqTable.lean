import Mathlib.Data.List.AList
import Bullet.Lib.Occupancy
import Bullet.Mac.NewData

/-! # The HARQ process table

The processes of one user in one direction with the number of those in use, and the operations of
the scheduler on them. `none` is a failed assertion, an abort or a null access.
-/

namespace Bullet.Mac

open Lib.PartialRun Lib.Occupancy

/-- The ids that `SetMaxSize` creates. -/
def harqIds (size : UInt8) : List UInt8 := (List.range size.toNat).map UInt8.ofNat

/-- The order in which the unordered map of the processes is walked. -/
structure WalkOrder where
  ids : UInt8 → List UInt8
  perm : ∀ size, (ids size).Perm (harqIds size)

def WalkOrder.increasing : WalkOrder := ⟨harqIds, fun _ => .refl _⟩

structure HarqTable where
  maxSize : UInt8
  usedSize : UInt8
  processes : NrMacHarqVector

namespace HarqProcess

/-- `HarqProcess::Erase`, which leaves the NACKed streams. -/
def erased (p : HarqProcess) : HarqProcess :=
  { p with active := false, status := .inactive, timer := 0, dciElement := none, rlcPduInfo := [] }

/-- The process after `ResetExpiredHARQ` of a user with `numHarqProcess` processes. -/
def aged (numHarqProcess : UInt8) (p : HarqProcess) : HarqProcess :=
  if p.status = .inactive then p
  else if p.timer < numHarqProcess then { p with timer := p.timer + 1 }
  else p.erased

/-- The process when it is picked for a retransmission, with `dci` if it gets its resources. -/
def marked (p : HarqProcess) (dci : Option DciInfoElementTdma) : HarqProcess :=
  { p with status := .waitingFeedback, timer := 0, dciElement := dci.or p.dciElement }

def nacked (p : HarqProcess) (nackStreamIndexes : List UInt8) : HarqProcess :=
  { p with status := .receivedFeedback, nackStreamIndexes := nackStreamIndexes }

end HarqProcess

namespace HarqTable

/-- A new table after `SetMaxSize`. -/
def create (size : UInt8) : HarqTable where
  maxSize := size
  usedSize := 0
  processes id := if id < size then some {} else none

def put (t : HarqTable) (id : UInt8) (p : HarqProcess) : HarqTable :=
  { t with processes := Function.update t.processes id (some p) }

@[simp] theorem put_processes (t : HarqTable) (id : UInt8) (p : HarqProcess) :
    (t.put id p).processes = Function.update t.processes id (some p) := rfl

def CanInsert (t : HarqTable) : Prop := t.usedSize < t.maxSize

instance (t : HarqTable) : Decidable t.CanInsert := inferInstanceAs (Decidable (_ < _))

/-- The number of active processes. -/
def activeSize (t : HarqTable) : ℕ := occupied HarqProcess.active (harqIds t.maxSize) t.processes

def erase (walk : WalkOrder) (t : HarqTable) (id : UInt8) : Option HarqTable := do
  let p ← t.processes id
  let t := { t.put id p.erased with usedSize := t.usedSize - 1 }
  if occupied HarqProcess.active (walk.ids t.maxSize) t.processes = t.usedSize.toNat then some t
  else none

/-- `Insert`, with the id it writes when it succeeds. -/
def insert (walk : WalkOrder) (t : HarqTable) (element : HarqProcess) :
    Option (Option UInt8 × HarqTable) :=
  if ¬ t.CanInsert then some (none, t)
  else if element.active = false then none
  else match firstAvailableId (walk.ids t.maxSize) t.processes with
    | none => some (none, t)
    | some id =>
      if (t.processes id).any (·.active) then none
      else if firstAvailableId (walk.ids t.maxSize) (t.put id element).processes = some id then none
      else some (some id, { t.put id element with usedSize := t.usedSize + 1 })

/-- The body of the loop of `ResetExpiredHARQ`. -/
def resetProcess (walk : WalkOrder) (numHarqProcess : UInt8) (t : HarqTable) (id : UInt8) :
    Option HarqTable := do
  let p ← t.processes id
  if p.status = .inactive then some t
  else if p.timer < numHarqProcess then some (t.put id { p with timer := p.timer + 1 })
  else t.erase walk id

def resetExpiredHARQ (walk : WalkOrder) (numHarqProcess : UInt8) (t : HarqTable) :
    Option HarqTable :=
  run (resetProcess walk numHarqProcess) t (walk.ids t.maxSize)

end HarqTable

/-- What `ProcessHARQFeedbacks` reads of a feedback of either direction. -/
structure HarqFeedback where
  key : HarqKey
  receivedOk : Option Bool
  nackStreamIndexes : List UInt8
deriving DecidableEq, Repr

/-- `DlHarqInfo::IsReceivedOk`, from the current `ok` and `allStatus`. A feedback without any status
fails its assertion. -/
def dlReceivedOk (ok : Bool) (allStatus : StreamStatus) : List StreamStatus → Option Bool
  | [] => if allStatus = .none then none else some ok
  | .ack :: l => dlReceivedOk true .ack l
  | .none :: l => dlReceivedOk true allStatus l
  | .nack :: _ => some false

def DlHarqInfo.feedback (f : DlHarqInfo) : HarqFeedback where
  key := f.key
  receivedOk := dlReceivedOk false .none f.harqStatus
  nackStreamIndexes := f.harqStatus.zipIdx.filterMap fun (status, i) =>
    if status = .nack then some (UInt8.ofNat i) else none

def UlHarqInfo.feedback (h : UlHarqInfo) : HarqFeedback where
  key := h.key
  receivedOk := some h.isReceivedOk
  nackStreamIndexes := if h.receptionStatus = .notOk then [0] else []

abbrev HarqTables := AList (fun _ : UInt16 => HarqTable)

/-- The attributes of the scheduler, for one direction. -/
structure HarqConfig where
  direction : DciFormat
  walk : WalkOrder
  numHarqProcess : UInt8
  enableHarqReTx : Bool := true

def HarqConfig.maxHarqReTx (cfg : HarqConfig) : UInt8 := if cfg.enableHarqReTx then 3 else 0

namespace HarqTables

def process (tables : HarqTables) (key : HarqKey) : Option HarqProcess :=
  (tables.lookup key.rnti).bind fun t => t.processes key.harqProcessId

def resetUe (cfg : HarqConfig) (tables : HarqTables) (rnti : UInt16) : Option HarqTables := do
  let t ← tables.lookup rnti
  let t ← t.resetExpiredHARQ cfg.walk cfg.numHarqProcess
  some (tables.insert rnti t)

/-- The feedbacks whose process is active, in DL without the duplicates of those `seen`. -/
def pendingFeedbacks (cfg : HarqConfig) (tables : HarqTables) :
    List HarqKey → List HarqFeedback → Option (List HarqFeedback)
  | _, [] => some []
  | seen, f :: l => do
    let p ← tables.process f.key
    if p.active = false ∨ (cfg.direction = .dl ∧ f.key ∈ seen) then pendingFeedbacks cfg tables seen l
    else do
      let rest ← pendingFeedbacks cfg tables (f.key :: seen) l
      some (f :: rest)

/-- The body of the loop of `ProcessHARQFeedbacks`; `false` says that the feedback is erased. -/
def processFeedback (cfg : HarqConfig) (tables : HarqTables) (f : HarqFeedback) :
    Option (Bool × HarqTables) := do
  let t ← tables.lookup f.key.rnti
  let p ← t.processes f.key.harqProcessId
  if p.active = false then none
  else do
    let dci ← p.dciElement
    let rv ← dci.rv.max?
    let ok ← f.receivedOk
    if 4 ≤ rv then none
    else if ok ∨ rv = cfg.maxHarqReTx then do
      let t ← t.erase cfg.walk f.key.harqProcessId
      some (false, tables.insert f.key.rnti t)
    else
      some (true, tables.insert f.key.rnti
        (t.put f.key.harqProcessId (p.nacked f.nackStreamIndexes)))

/-- `ProcessHARQFeedbacks`, with the processes of the feedbacks that stay. -/
def processHARQFeedbacks (cfg : HarqConfig) :
    HarqTables → List HarqFeedback → Option (HarqTables × List HarqKey)
  | tables, [] => some (tables, [])
  | tables, f :: l => do
    let (kept, tables) ← processFeedback cfg tables f
    let (tables, keys) ← processHARQFeedbacks cfg tables l
    some (tables, if kept then f.key :: keys else keys)

end HarqTables

/-- The tables of all users, and the NACKed processes of the slot that the scheduler has still to
look at. -/
structure HarqScheduler where
  tables : HarqTables := ∅
  nacked : List HarqKey := []

/-- What the scheduler does to the tables: users come and go, a slot is triggered with the feedbacks
received or kept for it, a NACKed process is retransmitted or buffered, new data is sent. -/
inductive HarqEvent where
  | configUe (rnti : UInt16)
  | releaseUe (rnti : UInt16)
  | trigger (feedbacks : List HarqFeedback)
  | retransmit (key : HarqKey) (dci : DciInfoElementTdma)
  | buffer (key : HarqKey)
  | newData (rnti : UInt16) (dci : DciInfoElementTdma) (rlcPduInfo : List (List RlcPduInfo))
deriving DecidableEq

namespace HarqScheduler

/-- The resets and the feedbacks at the start of `DoSchedDlTriggerReq` and `DoSchedUlTriggerReq`. -/
def trigger (cfg : HarqConfig) (s : HarqScheduler) (feedbacks : List HarqFeedback) :
    Option HarqScheduler := do
  let tables ← run (HarqTables.resetUe cfg) s.tables s.tables.keys
  let pending ← tables.pendingFeedbacks cfg [] feedbacks
  let (tables, nacked) ← tables.processHARQFeedbacks cfg pending
  some ⟨tables, nacked⟩

/-- The scheduler picks a process of a NACKed feedback of the slot. -/
def mark (s : HarqScheduler) (key : HarqKey) (dci : Option DciInfoElementTdma) :
    Option HarqScheduler :=
  if key ∉ s.nacked then none
  else do
    let t ← s.tables.lookup key.rnti
    let p ← t.processes key.harqProcessId
    if p.status ≠ .receivedFeedback then none
    else some { s with
      tables := s.tables.insert key.rnti (t.put key.harqProcessId (p.marked dci)) }

def newData (cfg : HarqConfig) (s : HarqScheduler) (rnti : UInt16) (dci : DciInfoElementTdma)
    (rlcPduInfo : List (List RlcPduInfo)) : Option HarqScheduler := do
  let t ← s.tables.lookup rnti
  if ¬ t.CanInsert then none
  else do
    let (id, t) ← t.insert cfg.walk (.sent dci [])
    let id ← id
    some { s with
      tables := s.tables.insert rnti
        (t.put id (.sent { dci with harqProcess := id } rlcPduInfo)) }

def step (cfg : HarqConfig) (s : HarqScheduler) : HarqEvent → Option HarqScheduler
  | .configUe rnti =>
    if rnti ∈ s.tables then some s
    else some { s with tables := s.tables.insert rnti (.create cfg.numHarqProcess) }
  | .releaseUe rnti =>
    if rnti ∈ s.tables then some { s with tables := s.tables.erase rnti } else none
  | .trigger feedbacks => s.trigger cfg feedbacks
  | .retransmit key dci => s.mark key (some dci)
  | .buffer key => s.mark key none
  | .newData rnti dci rlcPduInfo => s.newData cfg rnti dci rlcPduInfo

end HarqScheduler
end Bullet.Mac
