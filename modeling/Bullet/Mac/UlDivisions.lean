import Bullet.Lib.Faults
import Bullet.Mac.UlShares

/-! # The divisions of the UL assignment

`AssignULRBG` once more, with each division where the source makes it. While the beams with users
have symbols it is the assignment without faults; in a beam with users and no symbols it can only go
wrong by dividing.
-/

namespace Bullet.Mac

open Lib.Faults

variable {μ : Type} {beamSym : UInt32} {s t : BeamState μ}

namespace BeamState

def aggressiveUeChecked (beamSym : UInt32) (rnti : UInt16) :
    ℕ → BeamState μ → Except Fault (BeamState μ)
  | 0, s => .ok s
  | n + 1, s => do
    let rbgs ← divide (s.ues rnti).ulRBG beamSym
    if rbgs < 15 then aggressiveUeChecked beamSym rnti n (s.grant beamSym rnti) else .ok s

theorem aggressiveUeChecked_eq (hSym : beamSym ≠ 0) (rnti : UInt16) (n : ℕ) (s : BeamState μ) :
    s.aggressiveUeChecked beamSym rnti n = .ok (s.aggressiveUe beamSym rnti n) := by
  induction n generalizing s with
  | zero => rfl
  | succ n ih =>
    rw [aggressiveUeChecked, divide_of_ne hSym, bind_ok, aggressiveUe]
    split
    · exact ih _
    · rfl

theorem aggressiveUeChecked_ne (rnti : UInt16) (n : ℕ) (s : BeamState μ) :
    s.aggressiveUeChecked beamSym rnti n ≠ .error .assertion := by
  induction n generalizing s with
  | zero => nofun
  | succ n ih =>
    refine bind_ne (divide_ne_assertion _ _) fun rbgs _ => ?_
    split
    · exact ih _
    · nofun

end BeamState

namespace OfdmaScheduler

variable (sch : OfdmaScheduler μ)

def aggressiveChecked (beamSym : UInt32) (s : BeamState μ) : Except Fault (BeamState μ) :=
  s.ueVector.foldlM (fun t ue =>
    if 0 < sch.proactiveBSR ue.1 then t.aggressiveUeChecked beamSym ue.1 15 else .ok t) s

/-- The RBGs are only looked at when the TBS is too small. -/
def coveredChecked (beamSym maxResources maxBuffer bufQueueSize : UInt32) (ue : UlUeInfo μ) :
    Except Fault Bool :=
  if max bufQueueSize 12 ≤ ue.metric.ulTbSize then .ok true
  else do
    let rbgs ← divide ue.ulRBG beamSym
    if sch.enableBbr then .ok (sch.bufferPenalty.reached rbgs maxResources maxBuffer)
    else .ok (maxResources ≤ rbgs)

def firstUncoveredChecked (i : ℕ) (beamSym maxResources : UInt32) (ues : UlUes μ) :
    UInt32 → List UePtrAndBufferReq → Except Fault (UInt32 × Option UePtrAndBufferReq)
  | maxBuffer, [] => .ok (maxBuffer, none)
  | maxBuffer, ue :: l => do
    let bufQueueSize := sch.bufQueueSize i ue
    let maxBuffer := sch.updateMaxBuffer maxBuffer bufQueueSize
    let covered ← sch.coveredChecked beamSym maxResources maxBuffer bufQueueSize (ues ue.1)
    if covered then firstUncoveredChecked i beamSym maxResources ues maxBuffer l
    else .ok (maxBuffer, some ue)

def assignLoopChecked (i : ℕ) (beamSym maxResources : UInt32) :
    ℕ → BeamState μ → Except Fault (BeamState μ)
  | 0, s => .ok s
  | n + 1, s => do
    let ueVector := sch.policy.sort s.ues s.ueVector
    let r ← sch.firstUncoveredChecked i beamSym maxResources s.ues s.maxBuffer ueVector
    let s := { s with ueVector := ueVector, maxBuffer := r.1 }
    match r.2 with
    | none => .ok s
    | some ue => assignLoopChecked i beamSym maxResources n (sch.award beamSym ue.1 s)

def stageChecked (i : ℕ) (beamSym maxResources : UInt32) (s : BeamState μ) :
    Except Fault (BeamState μ) :=
  if s.resources = 0 then .ok s
  else do
    let s := { s with assigned := ftResources 0 0 }
    let s ← if sch.scheduleMode = 1 then sch.aggressiveChecked beamSym s else .ok s
    sch.assignLoopChecked i beamSym maxResources s.resources.toNat s

def assignBeamChecked (beamSym : UInt32) (ues : UlUes μ) (maxBuffer : UInt32)
    (ueVector : List UePtrAndBufferReq) : Except Fault (BeamState μ) :=
  if sch.assignableRbgs = 0 then .error .assertion
  else do
    let s ← sch.stageChecked 0 beamSym sch.assignableRbgs (sch.beamStart beamSym ues maxBuffer ueVector)
    if sch.scheduleMode = 3 then sch.stageChecked 1 beamSym sch.assignableRbgs s else .ok s

def assignULRBGChecked (symPerBeam : UInt16 → UInt32) :
    UlUes μ → UInt32 → ActiveUeMap → Except Fault (UlUes μ × UInt32)
  | ues, maxBuffer, [] => .ok (ues, maxBuffer)
  | ues, maxBuffer, el :: activeUl => do
    let s ← sch.assignBeamChecked (symPerBeam el.1) ues maxBuffer el.2
    assignULRBGChecked symPerBeam s.ues s.maxBuffer activeUl

variable {sch} {i : ℕ} {maxResources maxBuffer : UInt32} {ues : UlUes μ}

/-! ## Without a division by zero -/

theorem aggressiveChecked_eq (hSym : beamSym ≠ 0) (s : BeamState μ) :
    sch.aggressiveChecked beamSym s = .ok (sch.aggressive beamSym s) := by
  refine foldlM_ok (fun t ue _ => ?_) s
  split
  · exact BeamState.aggressiveUeChecked_eq hSym ue.1 15 t
  · rfl

theorem coveredChecked_eq (hSym : beamSym ≠ 0) (bufQueueSize : UInt32) (ue : UlUeInfo μ) :
    sch.coveredChecked beamSym maxResources maxBuffer bufQueueSize ue =
      .ok (sch.covered beamSym maxResources maxBuffer bufQueueSize ue) := by
  rw [coveredChecked, covered]
  split
  · next hCovered => rw [decide_eq_true hCovered, Bool.true_or]
  · next hOpen =>
    rw [decide_eq_false hOpen, Bool.false_or, divide_of_ne hSym, bind_ok]
    split <;> rfl

theorem firstUncoveredChecked_eq (hSym : beamSym ≠ 0) (maxBuffer : UInt32)
    (l : List UePtrAndBufferReq) :
    sch.firstUncoveredChecked i beamSym maxResources ues maxBuffer l =
      .ok (sch.firstUncovered i beamSym maxResources ues maxBuffer l) := by
  induction l generalizing maxBuffer with
  | nil => rfl
  | cons ue l ih =>
    rw [firstUncoveredChecked, firstUncovered, coveredChecked_eq hSym, bind_ok]
    split
    · exact ih _
    · rfl

theorem assignLoopChecked_eq (hSym : beamSym ≠ 0) (n : ℕ) (s : BeamState μ) :
    sch.assignLoopChecked i beamSym maxResources n s =
      .ok (sch.assignLoop i beamSym maxResources n s) := by
  induction n generalizing s with
  | zero => rfl
  | succ n ih =>
    rw [assignLoopChecked, assignLoop]
    dsimp only
    rw [firstUncoveredChecked_eq hSym, bind_ok]
    cases (sch.firstUncovered i beamSym maxResources s.ues s.maxBuffer
        (sch.policy.sort s.ues s.ueVector)).2 with
    | none => rfl
    | some ue => exact ih _

theorem stageChecked_eq (hSym : beamSym ≠ 0) (s : BeamState μ) :
    sch.stageChecked i beamSym maxResources s = .ok (sch.stage i beamSym maxResources s) := by
  rw [stageChecked, stage]
  split
  · rfl
  · dsimp only
    split
    · rw [aggressiveChecked_eq hSym, bind_ok]
      exact assignLoopChecked_eq hSym _ _
    · exact assignLoopChecked_eq hSym _ _

theorem sort_nil (ues : UlUes μ) : sch.policy.sort ues [] = [] :=
  List.perm_nil.mp (sch.policy.sort_perm ues [])

theorem assignLoop_of_noUsers (hNone : s.ueVector = []) (n : ℕ) :
    sch.assignLoopChecked i beamSym maxResources n s =
        .ok (sch.assignLoop i beamSym maxResources n s) ∧
      (sch.assignLoop i beamSym maxResources n s).ueVector = [] := by
  cases n with
  | zero => exact ⟨rfl, hNone⟩
  | succ n =>
    rw [assignLoopChecked, assignLoop, hNone, sort_nil]
    exact ⟨rfl, rfl⟩

/-- Without users a beam needs no symbols. -/
theorem stage_of_noUsers (hNone : s.ueVector = []) :
    sch.stageChecked i beamSym maxResources s = .ok (sch.stage i beamSym maxResources s) ∧
      (sch.stage i beamSym maxResources s).ueVector = [] := by
  rw [stageChecked, stage]
  split
  · exact ⟨rfl, hNone⟩
  · have hChecked : sch.aggressiveChecked beamSym { s with assigned := ftResources 0 0 } =
        .ok { s with assigned := ftResources 0 0 } := by
      rw [aggressiveChecked, hNone]
      rfl
    have hAggressive : sch.aggressive beamSym { s with assigned := ftResources 0 0 } =
        { s with assigned := ftResources 0 0 } := by
      rw [aggressive, hNone]
      rfl
    have hStart : ({ s with assigned := ftResources 0 0 } : BeamState μ).ueVector = [] := hNone
    dsimp only
    split
    · rw [hChecked, hAggressive, bind_ok]
      exact assignLoop_of_noUsers hStart _
    · rw [bind_ok]
      exact assignLoop_of_noUsers hStart _

theorem assignBeamChecked_of_some {ueVector : List UePtrAndBufferReq}
    (h : sch.assignBeam beamSym ues maxBuffer ueVector = some t) :
    sch.assignBeamChecked beamSym ues maxBuffer ueVector = .ok t := by
  rw [assignBeam] at h
  split at h
  · cases h
  · next hFits =>
    obtain ⟨hAssignable, hServed⟩ := not_or.mp hFits
    rw [assignBeamChecked, if_neg hAssignable]
    cases h
    by_cases hSym : beamSym = 0
    · have hNone : ueVector = [] := not_not.mp fun hUsers => hServed ⟨hSym, hUsers⟩
      have hStart : (sch.beamStart beamSym ues maxBuffer ueVector).ueVector = [] := hNone
      obtain ⟨hFirst, hFirstNone⟩ := stage_of_noUsers hStart
      rw [hFirst, bind_ok, (stage_of_noUsers hFirstNone).1]
      split <;> rfl
    · rw [stageChecked_eq hSym, bind_ok, stageChecked_eq hSym]
      split <;> rfl

theorem assignULRBGChecked_of_some {symPerBeam : UInt16 → UInt32} {activeUl : ActiveUeMap}
    {r : UlUes μ × UInt32 × List ℕ}
    (h : sch.assignULRBG symPerBeam ues maxBuffer activeUl = some r) :
    sch.assignULRBGChecked symPerBeam ues maxBuffer activeUl = .ok (r.1, r.2.1) := by
  induction activeUl generalizing ues maxBuffer r with
  | nil =>
    cases h
    rfl
  | cons el activeUl ih =>
    obtain ⟨t, hBeam, h⟩ := Option.bind_eq_some_iff.mp h
    obtain ⟨r', hRest, h⟩ := Option.bind_eq_some_iff.mp h
    rw [assignULRBGChecked, assignBeamChecked_of_some hBeam, bind_ok, ih hRest]
    cases h
    rfl

/-- The beams with users have symbols, so that nothing stops the assignment. -/
theorem assignULRBG_ne_none {symPerBeam : UInt16 → UInt32} {activeUl : ActiveUeMap}
    (hAssignable : sch.assignableRbgs ≠ 0)
    (hServed : ∀ beam ∈ activeUl, beam.2 ≠ [] → symPerBeam beam.1 ≠ 0) (ues : UlUes μ)
    (maxBuffer : UInt32) : sch.assignULRBG symPerBeam ues maxBuffer activeUl ≠ none := by
  induction activeUl generalizing ues maxBuffer with
  | nil => nofun
  | cons el activeUl ih =>
    obtain ⟨hHead, hTail⟩ := List.forall_mem_cons.mp hServed
    have hBeam : sch.assignBeam (symPerBeam el.1) ues maxBuffer el.2 ≠ none := by
      rw [assignBeam, if_neg (not_or.mpr ⟨hAssignable, fun hOut => hHead hOut.2 hOut.1⟩)]
      exact Option.some_ne_none _
    obtain ⟨t, hBeam⟩ := Option.ne_none_iff_exists'.mp hBeam
    obtain ⟨r, hRest⟩ := Option.ne_none_iff_exists'.mp (ih hTail t.ues t.maxBuffer)
    rw [assignULRBG, hBeam]
    dsimp only [Option.bind_eq_bind, Option.bind_some]
    rw [hRest]
    exact Option.some_ne_none _

/-! ## Only a division can go wrong -/

theorem coveredChecked_ne (bufQueueSize : UInt32) (ue : UlUeInfo μ) :
    sch.coveredChecked beamSym maxResources maxBuffer bufQueueSize ue ≠ .error .assertion := by
  rw [coveredChecked]
  split
  · nofun
  · refine bind_ne (divide_ne_assertion _ _) fun rbgs _ => ?_
    split <;> nofun

theorem firstUncoveredChecked_ne (maxBuffer : UInt32) (l : List UePtrAndBufferReq) :
    sch.firstUncoveredChecked i beamSym maxResources ues maxBuffer l ≠ .error .assertion := by
  induction l generalizing maxBuffer with
  | nil => nofun
  | cons ue l ih =>
    refine bind_ne (coveredChecked_ne _ _) fun covered _ => ?_
    split
    · exact ih _
    · nofun

theorem assignLoopChecked_ne (n : ℕ) (s : BeamState μ) :
    sch.assignLoopChecked i beamSym maxResources n s ≠ .error .assertion := by
  induction n generalizing s with
  | zero => nofun
  | succ n ih =>
    refine bind_ne (firstUncoveredChecked_ne _ _) fun r _ => ?_
    dsimp only
    split
    · nofun
    · exact ih _

theorem stageChecked_ne (s : BeamState μ) :
    sch.stageChecked i beamSym maxResources s ≠ .error .assertion := by
  rw [stageChecked]
  split
  · nofun
  · dsimp only
    split
    · refine bind_ne (foldlM_ne (fun t ue => ?_) _) fun t _ => assignLoopChecked_ne _ t
      split
      · exact BeamState.aggressiveUeChecked_ne ue.1 15 t
      · nofun
    · exact assignLoopChecked_ne _ _

theorem assignULRBGChecked_ne {symPerBeam : UInt16 → UInt32} {activeUl : ActiveUeMap}
    (hAssignable : sch.assignableRbgs ≠ 0) (ues : UlUes μ) (maxBuffer : UInt32) :
    sch.assignULRBGChecked symPerBeam ues maxBuffer activeUl ≠ .error .assertion := by
  induction activeUl generalizing ues maxBuffer with
  | nil => nofun
  | cons el activeUl ih =>
    refine bind_ne ?_ fun t _ => ih _ _
    rw [assignBeamChecked, if_neg hAssignable]
    refine bind_ne (stageChecked_ne _) fun t _ => ?_
    split
    · exact stageChecked_ne t
    · nofun

end OfdmaScheduler
end Bullet.Mac
