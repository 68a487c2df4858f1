import Bullet.Lib.PartialRun
import Bullet.Mac.Lcg
import Bullet.Mac.ShortBsr
import Mathlib.Data.UInt

/-! # The uplink queues of a user

What the scheduler believes to be queued at a user: its logical channel groups, set by buffer status
reports, by served scheduling requests and by the proactive demand of the trigger, and lowered by
assignations. `none` is an abort, a division by zero or an access outside of a vector. The
scheduling mode is BULLET's.
-/

namespace Bullet.Mac

open Lib

variable {g : NrMacSchedulerLCG} {l l' : List NrMacSchedulerLCG}

namespace NrMacSchedulerLC

def reactiveTotalSize (lc : NrMacSchedulerLC) : UInt32 :=
  lc.rlcTransmissionQueueSize + lc.rlcRetransmissionQueueSize + lc.rlcStatusPduSize

end NrMacSchedulerLC

namespace NrMacSchedulerLCG

def totalSize (g : NrMacSchedulerLCG) : UInt32 := (g.lcMap.map (·.totalSize)).sum

def reactiveTotalSize (g : NrMacSchedulerLCG) : UInt32 := (g.lcMap.map (·.reactiveTotalSize)).sum

/-- The part of `size` for each channel: the group must have one. -/
def lcIdPart (g : NrMacSchedulerLCG) (size : UInt32) : Option UInt32 :=
  if 1 < g.lcMap.length ∨ g.lcMap.length = 0 then none
  else some (size / UInt32.ofNat g.lcMap.length)

def updateInfo (g : NrMacSchedulerLCG) (lcgQueueSize : UInt32) : Option NrMacSchedulerLCG := do
  let lcIdPart ← g.lcIdPart lcgQueueSize
  some { g with lcMap := g.lcMap.map fun lc => { lc with rlcTransmissionQueueSize := lcIdPart } }

def updateProactiveBSR (g : NrMacSchedulerLCG) (proactiveBSR : UInt32) :
    Option NrMacSchedulerLCG := do
  let lcIdPart ← g.lcIdPart proactiveBSR
  some { g with lcMap := g.lcMap.map fun lc => { lc with proactiveQueueSize := lcIdPart } }

end NrMacSchedulerLCG

/-- The uplink part of `DoCschedLcConfigReq`: a group is created with its first channel, and takes
no other. -/
def configureUlLc (ulLCG : List NrMacSchedulerLCG) (lcg lcId : UInt8) : List NrMacSchedulerLCG :=
  let ulLCG := if ulLCG.any (·.id == lcg) then ulLCG else ulLCG ++ [{ id := lcg }]
  ulLCG.map fun g => if g.id = lcg ∧ g.lcMap.length = 0 then { g with lcMap := [{ id := lcId }] } else g

/-- One group of `BSRReceivedFromUe`. -/
def reportLcg (bufferStatus : List UInt8) (ulLCG : List NrMacSchedulerLCG) (lcg : UInt8) :
    Option (List NrMacSchedulerLCG) := do
  let bsrId ← bufferStatus[lcg.toNat]?
  let bufSize := UInt32.ofNat (fromLevelToBytes bsrId)
  if ulLCG.any (·.id == lcg) then
    ulLCG.mapM fun g => if g.id = lcg then g.updateInfo bufSize else some g
  else if 0 < bufSize then none
  else some ulLCG

def bsrReceivedFromUe (ulLCG : List NrMacSchedulerLCG) (bufferStatus : List UInt8) :
    Option (List NrMacSchedulerLCG) :=
  [0, 1, 2, 3].foldlM (reportLcg bufferStatus) ulLCG

/-- `DoScheduleUlSr` for one user. -/
def scheduleUlSr (ulLCG : List NrMacSchedulerLCG) : Option (List NrMacSchedulerLCG) :=
  ulLCG.mapM fun g => g.updateInfo (12 + g.totalSize - g.reactiveTotalSize)

/-- The groups as `ComputeActiveUe` leaves them. -/
def computeActiveUe (proactiveBSR : UInt32) (ulLCG : List NrMacSchedulerLCG) :
    Option (List NrMacSchedulerLCG) :=
  ulLCG.mapM fun g => if g.id = 2 then g.updateProactiveBSR proactiveBSR else some g

def totBuffer (ulLCG : List NrMacSchedulerLCG) : UInt32 := (ulLCG.map (·.totalSize)).sum

/-! ## Every group has one channel -/

def OneChannel (ulLCG : List NrMacSchedulerLCG) : Prop := ∀ g ∈ ulLCG, g.lcMap.length = 1

/-- The update keeps the number of channels, and succeeds on a group with one. -/
structure KeepsChannels (f : NrMacSchedulerLCG → Option NrMacSchedulerLCG) : Prop where
  length : ∀ g h, f g = some h → h.lcMap.length = g.lcMap.length
  succeeds : ∀ g, g.lcMap.length = 1 → f g ≠ none

theorem NrMacSchedulerLCG.lcIdPart_ne_none (hOne : g.lcMap.length = 1) (size : UInt32) :
    g.lcIdPart size ≠ none := by
  rw [lcIdPart, hOne]
  exact Option.some_ne_none _

theorem keepsChannels_updateInfo (size : NrMacSchedulerLCG → UInt32) :
    KeepsChannels fun g => g.updateInfo (size g) where
  length := by
    intro g h hUpdate
    obtain ⟨part, -, hUpdate⟩ := Option.bind_eq_some_iff.mp hUpdate
    cases hUpdate
    exact List.length_map _
  succeeds := by
    intro g hOne hNone
    obtain ⟨part, hPart⟩ := Option.ne_none_iff_exists'.mp (g.lcIdPart_ne_none hOne (size g))
    rw [NrMacSchedulerLCG.updateInfo, hPart] at hNone
    cases hNone

theorem keepsChannels_updateProactiveBSR (size : UInt32) :
    KeepsChannels fun g => g.updateProactiveBSR size where
  length := by
    intro g h hUpdate
    obtain ⟨part, -, hUpdate⟩ := Option.bind_eq_some_iff.mp hUpdate
    cases hUpdate
    exact List.length_map _
  succeeds := by
    intro g hOne hNone
    obtain ⟨part, hPart⟩ := Option.ne_none_iff_exists'.mp (g.lcIdPart_ne_none hOne size)
    rw [NrMacSchedulerLCG.updateProactiveBSR, hPart] at hNone
    cases hNone

theorem KeepsChannels.atLcg {f : NrMacSchedulerLCG → Option NrMacSchedulerLCG} (hKeeps : KeepsChannels f)
    (lcg : UInt8) : KeepsChannels fun g => if g.id = lcg then f g else some g where
  length := by
    intro g h hUpdate
    split at hUpdate
    · exact hKeeps.length g h hUpdate
    · cases hUpdate
      rfl
  succeeds := by
    intro g hOne
    split
    · exact hKeeps.succeeds g hOne
    · exact Option.some_ne_none g

theorem OneChannel.mapM {f : NrMacSchedulerLCG → Option NrMacSchedulerLCG} (hKeeps : KeepsChannels f)
    (hOne : OneChannel l) : ∃ l', l.mapM f = some l' ∧ OneChannel l' := by
  induction l with
  | nil => exact ⟨[], rfl, hOne⟩
  | cons g l ih =>
    obtain ⟨hHead, hTail⟩ := List.forall_mem_cons.mp hOne
    obtain ⟨l', hMap, hOne'⟩ := ih hTail
    obtain ⟨h, hUpdate⟩ := Option.ne_none_iff_exists'.mp (hKeeps.succeeds g hHead)
    refine ⟨h :: l', ?_, ?_⟩
    · rw [List.mapM_cons, hUpdate, hMap]
      rfl
    · exact List.forall_mem_cons.mpr ⟨(hKeeps.length g h hUpdate).trans hHead, hOne'⟩

theorem OneChannel.configureUlLc (hOne : OneChannel l) (lcg lcId : UInt8) :
    OneChannel (Mac.configureUlLc l lcg lcId) := by
  intro h hMem
  obtain ⟨g, hGroup, rfl⟩ := List.mem_map.mp hMem
  split
  · rfl
  · next hNot =>
    split at hGroup
    · exact hOne g hGroup
    · obtain hOld | hNew := List.mem_append.mp hGroup
      · exact hOne g hOld
      · cases List.mem_singleton.mp hNew
        exact absurd ⟨rfl, rfl⟩ hNot

theorem OneChannel.reportLcg (hOne : OneChannel l) {bufferStatus : List UInt8} {lcg : UInt8}
    (h : Mac.reportLcg bufferStatus l lcg = some l') : OneChannel l' := by
  obtain ⟨bsrId, -, h⟩ := Option.bind_eq_some_iff.mp h
  dsimp only at h
  split at h
  · obtain ⟨m, hMap, hOne'⟩ := hOne.mapM ((keepsChannels_updateInfo fun _ =>
      UInt32.ofNat (fromLevelToBytes bsrId)).atLcg lcg)
    cases hMap.symm.trans h
    exact hOne'
  · split at h
    · cases h
    · cases h
      exact hOne

theorem OneChannel.bsrReceivedFromUe (hOne : OneChannel l) {bufferStatus : List UInt8}
    (h : Mac.bsrReceivedFromUe l bufferStatus = some l') : OneChannel l' :=
  PartialRun.invariant_of_step (fun _ _ _ hOne hStep => OneChannel.reportLcg hOne hStep) hOne h

theorem OneChannel.scheduleUlSr (hOne : OneChannel l) :
    ∃ l', Mac.scheduleUlSr l = some l' ∧ OneChannel l' :=
  hOne.mapM (keepsChannels_updateInfo fun g => 12 + g.totalSize - g.reactiveTotalSize)

theorem OneChannel.computeActiveUe (hOne : OneChannel l) (proactiveBSR : UInt32) :
    ∃ l', Mac.computeActiveUe proactiveBSR l = some l' ∧ OneChannel l' :=
  hOne.mapM ((keepsChannels_updateProactiveBSR proactiveBSR).atLcg 2)

theorem OneChannel.assignedData (hOne : OneChannel l) (format : DciFormat) (lcg lcId : UInt8)
    (size : UInt32) : OneChannel (Mac.assignedData format l lcg lcId size) := by
  intro h hMem
  obtain ⟨g, hGroup, rfl⟩ := List.mem_map.mp hMem
  split
  · exact (List.length_map _).trans (hOne g hGroup)
  · exact hOne g hGroup

end Bullet.Mac
