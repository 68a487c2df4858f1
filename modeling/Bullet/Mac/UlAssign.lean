import Mathlib.Logic.Function.Basic
import Bullet.Mac.Dci

/-! # Assigning UL resource blocks

`AssignULRBG` hands the RBGs of each beam to its users, one at a time and over all the symbols of
the beam, to the first user in the order of the scheduler whose buffer is not covered yet.
-/

namespace Bullet.Mac

/-- A user, by its RNTI, with the bytes it asks for. -/
abbrev UePtrAndBufferReq := UInt16 × UInt32

/-- The users of each beam, in the order in which the map is walked. -/
abbrev ActiveUeMap := List (UInt16 × List UePtrAndBufferReq)

/-- The constructor takes 8 bits of each number. -/
def ftResources (rbg sym : UInt32) : PointInFTPlane where
  rbg := rbg.toUInt8.toUInt32
  sym := sym.toUInt8

/-- What the scheduler updates of a user to order the users: the TBS of its RBGs and its own
data. -/
structure UlMetric (μ : Type) where
  ulTbSize : UInt32 := 0
  other : μ
deriving DecidableEq, Repr

structure UlUeInfo (μ : Type) where
  ulRBG : UInt32 := 0
  ulSym : UInt8 := 0
  ulMcs : UInt8 := 0
  metric : UlMetric μ
deriving DecidableEq, Repr

abbrev UlUes (μ : Type) := UInt16 → UlUeInfo μ

/-- The virtual functions that RR, PF and MR fill in, and `std::sort` with their comparison. -/
structure UlPolicy (μ : Type) where
  beforeUlSched : PointInFTPlane → UlUeInfo μ → UlMetric μ
  assignedUlResources : PointInFTPlane → PointInFTPlane → UlUeInfo μ → UlMetric μ
  notAssignedUlResources : PointInFTPlane → PointInFTPlane → UlUeInfo μ → UlMetric μ
  sort : UlUes μ → List UePtrAndBufferReq → List UePtrAndBufferReq
  sort_perm : ∀ ues l, (sort ues l).Perm l

/-- The floating-point expressions of the buffer penalty: `average` is
`0.2*bufQueueSize + 0.8*m_maxBuffer` and `reached` compares the RBGs of a user with
`max_resources*buffer_penalty`. -/
structure BufferPenalty where
  average : UInt32 → UInt32 → UInt32
  reached : UInt32 → UInt32 → UInt32 → Bool

/-- The members of the scheduler that are read here. -/
structure OfdmaScheduler (μ : Type) where
  scheduleMode : Int
  enableBbr : Bool
  /-- `m_bufferResetTime` lies more than `m_timeWindow` milliseconds back. -/
  windowPassed : Bool
  bandwidthInRbg : UInt16
  numRbPerRbg : UInt32
  bwpId : UInt16
  ulNotchedRbgsMask : List UInt8
  proactiveBSR : UInt16 → UInt32
  confidentBSR : UInt16 → UInt32
  policy : UlPolicy μ
  bufferPenalty : BufferPenalty
  /-- `m_ulAmc->CalculateTbSize`. -/
  calculateTbSize : UInt8 → UInt32 → UInt32

variable {μ : Type}

def setMetric (ues : UlUes μ) (rnti : UInt16) (metric : UlMetric μ) : UlUes μ :=
  Function.update ues rnti { ues rnti with metric := metric }

def updateMetrics (f : UlUeInfo μ → UlMetric μ) (ues : UlUes μ) (l : List UePtrAndBufferReq) :
    UlUes μ :=
  l.foldl (fun ues ue => setMetric ues ue.1 (f (ues ue.1))) ues

/-- The variables of the loop over the beams. `granted` counts the decrements of `resources` and is
not in the source. -/
structure BeamState (μ : Type) where
  ues : UlUes μ
  ueVector : List UePtrAndBufferReq
  assigned : PointInFTPlane
  resources : UInt32
  maxBuffer : UInt32
  granted : ℕ := 0

namespace BeamState

/-- One RBG over the symbols of the beam for a user. -/
def grant (beamSym : UInt32) (rnti : UInt16) (s : BeamState μ) : BeamState μ :=
  { s with
    ues := Function.update s.ues rnti
      { s.ues rnti with ulRBG := (s.ues rnti).ulRBG + beamSym, ulSym := beamSym.toUInt8 }
    assigned := { rbg := s.assigned.rbg + beamSym, sym := beamSym.toUInt8 }
    resources := s.resources - 1
    granted := s.granted + 1 }

/-- `while (m_ulRBG/rbgAssignable < 15)`, with the rounds it may still make. -/
def aggressiveUe (beamSym : UInt32) (rnti : UInt16) : ℕ → BeamState μ → BeamState μ
  | 0, s => s
  | n + 1, s =>
    if (s.ues rnti).ulRBG / beamSym < 15 then aggressiveUe beamSym rnti n (s.grant beamSym rnti)
    else s

end BeamState

namespace OfdmaScheduler

variable (sch : OfdmaScheduler μ)

def assignableRbgs : UInt32 :=
  if sch.ulNotchedRbgsMask.length > 0 then UInt32.ofNat (sch.ulNotchedRbgsMask.count 1)
  else sch.bandwidthInRbg.toUInt32

/-- The grant-free mode: 15 RBGs for each user with a proactive demand. -/
def aggressive (beamSym : UInt32) (s : BeamState μ) : BeamState μ :=
  s.ueVector.foldl (fun t ue =>
    if 0 < sch.proactiveBSR ue.1 then t.aggressiveUe beamSym ue.1 15 else t) s

def bufQueueSize (i : ℕ) (ue : UePtrAndBufferReq) : UInt32 :=
  if sch.scheduleMode = 3 ∧ i = 0 then sch.confidentBSR ue.1 else ue.2

def updateMaxBuffer (maxBuffer bufQueueSize : UInt32) : UInt32 :=
  if sch.enableBbr then
    let maxBuffer := if sch.windowPassed then 0 else maxBuffer
    if maxBuffer = 0 then bufQueueSize else sch.bufferPenalty.average bufQueueSize maxBuffer
  else maxBuffer

/-- The user has enough resources, so the next one is looked at. -/
def covered (beamSym maxResources maxBuffer bufQueueSize : UInt32) (ue : UlUeInfo μ) : Bool :=
  max bufQueueSize 12 ≤ ue.metric.ulTbSize ||
    if sch.enableBbr then sch.bufferPenalty.reached (ue.ulRBG / beamSym) maxResources maxBuffer
    else maxResources ≤ ue.ulRBG / beamSym

/-- The first user that is not covered, and `m_maxBuffer` after the users looked at. -/
def firstUncovered (i : ℕ) (beamSym maxResources : UInt32) (ues : UlUes μ) :
    UInt32 → List UePtrAndBufferReq → UInt32 × Option UePtrAndBufferReq
  | maxBuffer, [] => (maxBuffer, none)
  | maxBuffer, ue :: l =>
    let bufQueueSize := sch.bufQueueSize i ue
    let maxBuffer := sch.updateMaxBuffer maxBuffer bufQueueSize
    if sch.covered beamSym maxResources maxBuffer bufQueueSize (ues ue.1) then
      firstUncovered i beamSym maxResources ues maxBuffer l
    else (maxBuffer, some ue)

/-- One RBG for the user that was chosen, and the new metrics of all users. -/
def award (beamSym : UInt32) (rnti : UInt16) (s : BeamState μ) : BeamState μ :=
  let s := s.grant beamSym rnti
  let assigned := ftResources beamSym beamSym
  let ues := setMetric s.ues rnti
    (sch.policy.assignedUlResources assigned s.assigned (s.ues rnti))
  let ues := updateMetrics (sch.policy.notAssignedUlResources assigned s.assigned) ues
    (s.ueVector.filter fun ue => ue.1 ≠ rnti)
  { s with ues := ues }

/-- `while (resources > 0)`, by recursion on the counter. -/
def assignLoop (i : ℕ) (beamSym maxResources : UInt32) : ℕ → BeamState μ → BeamState μ
  | 0, s => s
  | n + 1, s =>
    let ueVector := sch.policy.sort s.ues s.ueVector
    let r := sch.firstUncovered i beamSym maxResources s.ues s.maxBuffer ueVector
    let s := { s with ueVector := ueVector, maxBuffer := r.1 }
    match r.2 with
    | none => s
    | some ue => assignLoop i beamSym maxResources n (sch.award beamSym ue.1 s)

/-- The body of `for (int i = 0; i < max_iter; i++)`. -/
def stage (i : ℕ) (beamSym maxResources : UInt32) (s : BeamState μ) : BeamState μ :=
  if s.resources = 0 then s
  else
    let s := { s with assigned := ftResources 0 0 }
    let s := if sch.scheduleMode = 1 then sch.aggressive beamSym s else s
    sch.assignLoop i beamSym maxResources s.resources.toNat s

/-- The users of one beam. A user in a beam without symbols leads to a division by zero. -/
def assignBeam (beamSym : UInt32) (ues : UlUes μ) (maxBuffer : UInt32)
    (ueVector : List UePtrAndBufferReq) : Option (BeamState μ) :=
  if sch.assignableRbgs = 0 ∨ beamSym = 0 ∧ ueVector ≠ [] then none
  else
    let s : BeamState μ :=
      { ues := updateMetrics
          (sch.policy.beforeUlSched (ftResources (beamSym * beamSym) beamSym)) ues ueVector
        ueVector := ueVector
        assigned := ftResources 0 0
        resources := sch.assignableRbgs
        maxBuffer := maxBuffer }
    let s := sch.stage 0 beamSym sch.assignableRbgs s
    some (if sch.scheduleMode = 3 then sch.stage 1 beamSym sch.assignableRbgs s else s)

/-- The users after all beams, with `m_maxBuffer` and the RBGs granted in each beam. -/
def assignULRBG (symPerBeam : UInt16 → UInt32) :
    UlUes μ → UInt32 → ActiveUeMap → Option (UlUes μ × UInt32 × List ℕ)
  | ues, maxBuffer, [] => some (ues, maxBuffer, [])
  | ues, maxBuffer, el :: activeUl => do
    let s ← sch.assignBeam (symPerBeam el.1) ues maxBuffer el.2
    let r ← assignULRBG symPerBeam s.ues s.maxBuffer activeUl
    return (r.1, r.2.1, s.granted :: r.2.2)

end OfdmaScheduler

end Bullet.Mac
