import Bullet.Lib.PointUpdates
import Bullet.Mac.SlotSteps
import Bullet.Mac.UlConservation

/-! # The averages of PF after the assignment of UL RBGs

Each RBG that the main loop gives to a user of a beam updates the averages of all its users. The
grant-free mode gives RBGs without an update.
-/

namespace Bullet.Mac

open Lib.PointUpdates

/-- The average of the user is the one of the TB size for its RBGs over `sym` symbols. -/
structure UlUeInfo.Averaged (amc : NrAmc) (timeWindow prev : ℚ) (sym : UInt8)
    (ue : UlUeInfo NrMacSchedulerUeInfoPF) : Prop where
  lastAvg : ue.metric.other.ul.lastAvgTput = prev
  avg : ue.metric.other.ul.avgTput =
    PfTput.average timeWindow prev ((amc.updateUlMetric ue).toNat / sym.toNat)

/-- The average of the user is the right one, or falls back to the one before. -/
def UlUeInfo.KeepsHistory (amc : NrAmc) (timeWindow prev : ℚ) (sym : UInt8)
    (ue : UlUeInfo NrMacSchedulerUeInfoPF) : Prop :=
  ue.Discarded amc ∨ ue.metric.other.ul.avgTput =
    PfTput.average timeWindow prev ((amc.updateUlMetric ue).toNat / sym.toNat)

/-- The TB size and the averages of the user are those before. -/
structure UlUeInfo.Carried (ue' ue : UlUeInfo NrMacSchedulerUeInfoPF) : Prop where
  lastAvg : ue'.metric.other.ul.lastAvgTput = ue.metric.other.ul.lastAvgTput
  avg : ue'.metric.other.ul.avgTput = ue.metric.other.ul.avgTput
  ulTbSize : ue'.metric.ulTbSize = ue.metric.ulTbSize

namespace OfdmaScheduler

variable {sch : OfdmaScheduler NrMacSchedulerUeInfoPF} {timeWindow : ℚ} {beamSym maxResources : UInt32}
  {i : ℕ} {ues : UlUes NrMacSchedulerUeInfoPF} {beam : List UePtrAndBufferReq}
  {s : BeamState NrMacSchedulerUeInfoPF} {prev : UInt16 → ℚ}

/-- The beam before or between updates. -/
structure Pending (beam : List UePtrAndBufferReq) (prev : UInt16 → ℚ)
    (s : BeamState NrMacSchedulerUeInfoPF) : Prop where
  vector : s.ueVector.Perm beam
  lastAvg : ∀ rnti ∈ beam.map Prod.fst, (s.ues rnti).metric.other.ul.lastAvgTput = prev rnti

/-- The beam after an update. -/
structure Updated (sch : OfdmaScheduler NrMacSchedulerUeInfoPF) (timeWindow : ℚ) (beamSym : UInt32)
    (beam : List UePtrAndBufferReq) (prev : UInt16 → ℚ) (s : BeamState NrMacSchedulerUeInfoPF) :
    Prop where
  vector : s.ueVector.Perm beam
  averaged : ∀ rnti ∈ beam.map Prod.fst,
    (s.ues rnti).Averaged sch.ulAmc timeWindow (prev rnti) beamSym.toUInt8

theorem Updated.pending (h : sch.Updated timeWindow beamSym beam prev s) : Pending beam prev s :=
  ⟨h.vector, fun rnti hMem => (h.averaged rnti hMem).lastAvg⟩

/-- An update of a user by PF. -/
def pfUpdate (sch : OfdmaScheduler NrMacSchedulerUeInfoPF) (timeWindow : ℚ)
    (totAssigned : PointInFTPlane) (ue : UlUeInfo NrMacSchedulerUeInfoPF) :
    UlUeInfo NrMacSchedulerUeInfoPF :=
  { ue with metric := sch.ulAmc.updateUlPFMetric timeWindow totAssigned ue }

/-- An RBG that is given updates every user of the beam. -/
theorem award_ues (hPf : sch.policy = sch.ulAmc.pfUlPolicy timeWindow sch.policy)
    (hNodup : (beam.map Prod.fst).Nodup) (hVector : s.ueVector.Perm beam) {rnti rnti' : UInt16}
    (hMem : rnti' ∈ beam.map Prod.fst) :
    (sch.award beamSym rnti s).ues rnti' =
      sch.pfUpdate timeWindow (s.grant beamSym rnti).assigned ((s.grant beamSym rnti).ues rnti') := by
  have hAward : (sch.award beamSym rnti s).ues =
      modifyAll (sch.pfUpdate timeWindow (s.grant beamSym rnti).assigned)
        (modifyAt (sch.pfUpdate timeWindow (s.grant beamSym rnti).assigned)
          (s.grant beamSym rnti).ues rnti)
        (s.ueVector.filter fun ue => ue.1 ≠ rnti) := by
    rw [award, hPf]
    rfl
  rw [hAward]
  exact modifyAll_others hNodup hVector hMem

theorem grant_metric (beamSym : UInt32) (rnti rnti' : UInt16)
    (s : BeamState NrMacSchedulerUeInfoPF) :
    ((s.grant beamSym rnti).ues rnti').metric = (s.ues rnti').metric := by
  rw [BeamState.grant]
  dsimp only
  rcases eq_or_ne rnti' rnti with rfl | hNe
  · rw [Function.update_self]
  · rw [Function.update_of_ne hNe]

theorem award_updated (hPf : sch.policy = sch.ulAmc.pfUlPolicy timeWindow sch.policy)
    (hNodup : (beam.map Prod.fst).Nodup) (h : Pending beam prev s) (rnti : UInt16) :
    sch.Updated timeWindow beamSym beam prev (sch.award beamSym rnti s) where
  vector := h.vector
  averaged rnti' hMem := by
    have hLast := h.lastAvg rnti' hMem
    rw [← grant_metric beamSym rnti rnti' s] at hLast
    rw [award_ues hPf hNodup h.vector hMem]
    refine ⟨hLast, ?_⟩
    rw [← hLast]
    rfl

theorem sort_pending (h : Pending beam prev s) (maxBuffer : UInt32) :
    Pending beam prev
      { s with ueVector := sch.policy.sort s.ues s.ueVector, maxBuffer := maxBuffer } :=
  ⟨(sch.policy.sort_perm _ _).trans h.vector, h.lastAvg⟩

/-- Once updated, the beam stays so. -/
theorem assignLoop_updated {n : ℕ} (hPf : sch.policy = sch.ulAmc.pfUlPolicy timeWindow sch.policy)
    (hNodup : (beam.map Prod.fst).Nodup) (h : sch.Updated timeWindow beamSym beam prev s) :
    sch.Updated timeWindow beamSym beam prev (sch.assignLoop i beamSym maxResources n s) := by
  induction n generalizing s with
  | zero => exact h
  | succ n ih =>
    rw [assignLoop]
    split
    · exact ⟨(sch.policy.sort_perm _ _).trans h.vector, h.averaged⟩
    · exact ih (award_updated hPf hNodup (sort_pending h.pending _) _)

theorem stage_updated (hPf : sch.policy = sch.ulAmc.pfUlPolicy timeWindow sch.policy)
    (hMode : sch.scheduleMode = 3) (hNodup : (beam.map Prod.fst).Nodup)
    (h : sch.Updated timeWindow beamSym beam prev s) :
    sch.Updated timeWindow beamSym beam prev (sch.stage i beamSym maxResources s) := by
  have hNotFree : sch.scheduleMode ≠ 1 := by
    rw [hMode]
    decide
  rcases eq_or_ne s.resources 0 with hNone | hSome
  · rw [stage, if_pos hNone]
    exact h
  · rw [stage_eq hSome, opening, if_neg hNotFree]
    exact assignLoop_updated hPf hNodup ⟨h.vector, h.averaged⟩

/-- The main loop gives an RBG of the stage to a user. -/
def Awards (sch : OfdmaScheduler NrMacSchedulerUeInfoPF) (beamSym : UInt32)
    (s : BeamState NrMacSchedulerUeInfoPF) : Prop :=
  s.resources ≠ 0 ∧ (sch.firstUncovered 0 beamSym sch.assignableRbgs s.ues s.maxBuffer
    (sch.policy.sort s.ues s.ueVector)).2 ≠ none

instance : Decidable (sch.Awards beamSym s) := inferInstanceAs (Decidable (_ ∧ _))

/-- The main loop updates the beam, or changes nothing of its users. -/
theorem assignLoop_of_awards (beamSym : UInt32)
    (hPf : sch.policy = sch.ulAmc.pfUlPolicy timeWindow sch.policy)
    (hNodup : (beam.map Prod.fst).Nodup) (h : Pending beam prev s) :
    (sch.Awards beamSym s → sch.Updated timeWindow beamSym beam prev
      (sch.assignLoop 0 beamSym sch.assignableRbgs s.resources.toNat s)) ∧
    (¬ sch.Awards beamSym s →
      (sch.assignLoop 0 beamSym sch.assignableRbgs s.resources.toNat s).ues = s.ues) := by
  rcases eq_or_ne s.resources 0 with hNone | hSome
  · rw [hNone]
    exact ⟨fun hAwards => absurd hNone hAwards.1, fun _ => rfl⟩
  · obtain ⟨n, hRounds⟩ : ∃ n, s.resources.toNat = n + 1 :=
      Nat.exists_eq_succ_of_ne_zero fun hZero => hSome (UInt32.toNat_inj.mp hZero)
    rw [hRounds, assignLoop]
    cases hFound : (sch.firstUncovered 0 beamSym sch.assignableRbgs s.ues s.maxBuffer
        (sch.policy.sort s.ues s.ueVector)).2 with
    | none => exact ⟨fun hAwards => absurd hFound hAwards.2, fun _ => rfl⟩
    | some ue =>
      refine ⟨fun _ => ?_, fun hNot => absurd ⟨hSome, ?_⟩ hNot⟩
      · exact assignLoop_updated hPf hNodup (award_updated hPf hNodup (sort_pending h _) _)
      · rw [hFound]
        exact Option.some_ne_none ue

/-! ## A beam -/

theorem aggressiveUe_metric (beamSym : UInt32) (rnti rnti' : UInt16) (n : ℕ)
    (s : BeamState NrMacSchedulerUeInfoPF) :
    ((s.aggressiveUe beamSym rnti n).ues rnti').metric = (s.ues rnti').metric := by
  induction n generalizing s with
  | zero => rfl
  | succ n ih =>
    rw [BeamState.aggressiveUe]
    split
    · exact (ih _).trans (grant_metric _ _ _ _)
    · rfl

theorem aggressive_metric (sch : OfdmaScheduler NrMacSchedulerUeInfoPF) (beamSym : UInt32)
    (s : BeamState NrMacSchedulerUeInfoPF) (rnti : UInt16) :
    ((sch.aggressive beamSym s).ues rnti).metric = (s.ues rnti).metric := by
  rw [aggressive]
  generalize s.ueVector = l
  induction l generalizing s with
  | nil => rfl
  | cons ue l ih =>
    rw [List.foldl_cons, ih]
    split
    · exact aggressiveUe_metric _ _ _ _ _
    · rfl

theorem opening_metric (sch : OfdmaScheduler NrMacSchedulerUeInfoPF) (beamSym : UInt32)
    (s : BeamState NrMacSchedulerUeInfoPF) (rnti : UInt16) :
    ((sch.opening beamSym s).ues rnti).metric = (s.ues rnti).metric := by
  rw [opening]
  split
  · exact aggressive_metric _ _ _ _
  · rfl

/-- The beam when its main loop starts. -/
def mainStart (sch : OfdmaScheduler NrMacSchedulerUeInfoPF) (beamSym : UInt32)
    (ues : UlUes NrMacSchedulerUeInfoPF) (maxBuffer : UInt32) (beam : List UePtrAndBufferReq) :
    BeamState NrMacSchedulerUeInfoPF :=
  sch.opening beamSym (sch.beamStart beamSym ues maxBuffer beam)

theorem mainStart_carried (hPf : sch.policy = sch.ulAmc.pfUlPolicy timeWindow sch.policy)
    (beamSym : UInt32) (ues : UlUes NrMacSchedulerUeInfoPF) (maxBuffer : UInt32)
    (beam : List UePtrAndBufferReq) (rnti : UInt16) :
    ((sch.mainStart beamSym ues maxBuffer beam).ues rnti).Carried (ues rnti) := by
  have hStart : ((sch.beamStart beamSym ues maxBuffer beam).ues rnti).Carried (ues rnti) := by
    rw [beamStart, hPf]
    exact modifyAll_induction
      (g := fun ue : UlUeInfo NrMacSchedulerUeInfoPF => { ue with
        metric := sch.ulAmc.calculatePotentialTPutUl (ftResources (beamSym * beamSym) beamSym) ue })
      (P := fun rnti ue => ue.Carried (ues rnti))
      (fun _ _ h => ⟨h.lastAvg, h.avg, h.ulTbSize⟩) (fun _ => ⟨rfl, rfl, rfl⟩) rnti
  have hMetric := opening_metric sch beamSym (sch.beamStart beamSym ues maxBuffer beam) rnti
  refine ⟨?_, ?_, ?_⟩ <;> rw [mainStart, hMetric]
  · exact hStart.lastAvg
  · exact hStart.avg
  · exact hStart.ulTbSize

theorem mainStart_pending (hPf : sch.policy = sch.ulAmc.pfUlPolicy timeWindow sch.policy)
    (beamSym : UInt32) (ues : UlUes NrMacSchedulerUeInfoPF) (maxBuffer : UInt32)
    (beam : List UePtrAndBufferReq) :
    Pending beam (fun rnti => (ues rnti).metric.other.ul.lastAvgTput)
      (sch.mainStart beamSym ues maxBuffer beam) where
  vector := by
    rw [mainStart, opening]
    split
    · exact (aggressive_within ⟨List.Perm.refl _, fun _ _ => rfl⟩).vector
    · exact List.Perm.refl _
  lastAvg rnti _ := (mainStart_carried hPf beamSym ues maxBuffer beam rnti).lastAvg

/-- A user without RBGs is not covered. -/
theorem covered_of_none {maxBuffer demand : UInt32} {ue : UlUeInfo NrMacSchedulerUeInfoPF}
    (hMax : maxResources ≠ 0)
    (hPenalty : sch.bufferPenalty.reached 0 maxResources maxBuffer = false)
    (hRbg : ue.ulRBG = 0) (hTb : ue.metric.ulTbSize = 0) :
    sch.covered beamSym maxResources maxBuffer demand ue = false := by
  have hZero : (0 : UInt32) / beamSym = 0 := by
    apply UInt32.toNat_inj.mp
    rw [UInt32.toNat_div]
    exact Nat.zero_div _
  have hBytes : ¬ max demand 12 ≤ 0 := not_max_le_zero demand (by decide)
  have hRbgs : ¬ maxResources ≤ 0 := by
    rw [UInt32.le_iff_toNat_le, UInt32.toNat_zero, Nat.le_zero]
    exact fun hNone => hMax (UInt32.toNat_inj.mp hNone)
  rw [covered, hRbg, hTb, hZero, hPenalty]
  simp [hBytes, hRbgs]

/-- Outside the grant-free mode the main loop gives some user an RBG. -/
theorem awards_of_mode (hPf : sch.policy = sch.ulAmc.pfUlPolicy timeWindow sch.policy)
    (hMode : sch.scheduleMode ≠ 1) (hAssignable : sch.assignableRbgs ≠ 0)
    (hPenalty : ∀ maxBuffer, sch.bufferPenalty.reached 0 sch.assignableRbgs maxBuffer = false)
    (hUsers : beam ≠ []) (maxBuffer : UInt32)
    (hFresh : ∀ rnti ∈ beam.map Prod.fst,
      (ues rnti).ulRBG = 0 ∧ (ues rnti).metric.ulTbSize = 0) :
    sch.Awards beamSym (sch.mainStart beamSym ues maxBuffer beam) := by
  have hStart : sch.mainStart beamSym ues maxBuffer beam =
      { sch.beamStart beamSym ues maxBuffer beam with assigned := ftResources 0 0 } := if_neg hMode
  have hSorted := (sch.policy.sort_perm (sch.mainStart beamSym ues maxBuffer beam).ues _).trans
    (mainStart_pending hPf beamSym ues maxBuffer beam).vector
  refine ⟨?_, ?_⟩
  · rw [hStart]
    exact hAssignable
  · cases hList : sch.policy.sort (sch.mainStart beamSym ues maxBuffer beam).ues
        (sch.mainStart beamSym ues maxBuffer beam).ueVector with
    | nil =>
      rw [hList] at hSorted
      exact absurd hSorted.nil_eq.symm hUsers
    | cons ue l =>
      rw [hList] at hSorted
      obtain ⟨hRbg, hTb⟩ := hFresh ue.1 (List.mem_map_of_mem (hSorted.subset List.mem_cons_self))
      have hNone : ((sch.mainStart beamSym ues maxBuffer beam).ues ue.1).ulRBG = 0 := by
        rw [hStart]
        exact (updateMetrics_ulRBG _ _ _ _).trans hRbg
      have hZero := (mainStart_carried hPf beamSym ues maxBuffer beam ue.1).ulTbSize.trans hTb
      rw [firstUncovered, covered_of_none hAssignable (hPenalty _) hNone hZero]
      exact Option.some_ne_none ue

/-- What a beam ends with: its users are updated, or those that its main loop started with. -/
theorem assignBeam_cases (hPf : sch.policy = sch.ulAmc.pfUlPolicy timeWindow sch.policy)
    (hAssignable : sch.assignableRbgs ≠ 0) (hSym : 0 < beamSym.toNat)
    (hPenalty : ∀ maxBuffer, sch.bufferPenalty.reached 0 sch.assignableRbgs maxBuffer = false)
    (hNodup : (beam.map Prod.fst).Nodup) (hUsers : beam ≠ []) (maxBuffer : UInt32)
    (hFresh : ∀ rnti ∈ beam.map Prod.fst,
      (ues rnti).ulRBG = 0 ∧ (ues rnti).metric.ulTbSize = 0) :
    ∃ t, sch.assignBeam beamSym ues maxBuffer beam = some t ∧
      (sch.Awards beamSym (sch.mainStart beamSym ues maxBuffer beam) →
        ∀ rnti ∈ beam.map Prod.fst, (t.ues rnti).Averaged sch.ulAmc timeWindow
          (ues rnti).metric.other.ul.lastAvgTput beamSym.toUInt8) ∧
      (¬ sch.Awards beamSym (sch.mainStart beamSym ues maxBuffer beam) →
        t.ues = (sch.mainStart beamSym ues maxBuffer beam).ues) := by
  have hFirst : sch.stage 0 beamSym sch.assignableRbgs (sch.beamStart beamSym ues maxBuffer beam) =
      sch.assignLoop 0 beamSym sch.assignableRbgs
        (sch.mainStart beamSym ues maxBuffer beam).resources.toNat
        (sch.mainStart beamSym ues maxBuffer beam) := stage_eq hAssignable
  obtain ⟨hUpdated, hSame⟩ := assignLoop_of_awards beamSym hPf hNodup
    (mainStart_pending hPf beamSym ues maxBuffer beam)
  rw [← hFirst] at hUpdated hSame
  rw [assignBeam_eq hAssignable hSym]
  refine ⟨_, rfl, fun hAwards => ?_, fun hNot => ?_⟩
  · split
    · next hMode => exact (stage_updated hPf hMode hNodup (hUpdated hAwards)).averaged
    · exact (hUpdated hAwards).averaged
  · have hMode : sch.scheduleMode = 1 := by
      by_contra hOther
      exact hNot (awards_of_mode hPf hOther hAssignable hPenalty hUsers maxBuffer hFresh)
    rw [hMode, if_neg (by decide)]
    exact hSame hNot

/-! ## All beams -/

/-- A slot keeps the history: in each beam the main loop gives some user an RBG, or the cleared average
happens to be right for the users, as far as they get a DCI. -/
def KeepsHistory (sch : OfdmaScheduler NrMacSchedulerUeInfoPF) (timeWindow : ℚ)
    (symPerBeam : UInt16 → UInt32) :
    UlUes NrMacSchedulerUeInfoPF → UInt32 → ActiveUeMap → Prop
  | _, _, [] => True
  | ues, maxBuffer, el :: activeUl =>
    let s := sch.mainStart (symPerBeam el.1) ues maxBuffer el.2
    (sch.Awards (symPerBeam el.1) s ∨ ∀ ue ∈ el.2, (s.ues ue.1).Discarded sch.ulAmc ∨
      PfTput.average timeWindow (ues ue.1).metric.other.ul.lastAvgTput
        ((sch.ulAmc.updateUlMetric (s.ues ue.1)).toNat / (symPerBeam el.1).toUInt8.toNat) = 0) ∧
    ∀ t, sch.assignBeam (symPerBeam el.1) ues maxBuffer el.2 = some t →
      KeepsHistory sch timeWindow symPerBeam t.ues t.maxBuffer activeUl

theorem assignBeam_within {t : BeamState NrMacSchedulerUeInfoPF} {maxBuffer : UInt32}
    (h : sch.assignBeam beamSym ues maxBuffer beam = some t) : Within ues beam t := by
  have hStart : Within ues beam (sch.beamStart beamSym ues maxBuffer beam) :=
    ⟨List.Perm.refl _, fun rnti hNotMem => updateMetrics_of_notMem _ _ hNotMem⟩
  rw [assignBeam] at h
  split at h
  · cases h
  · cases h
    split
    · exact stage_within (stage_within hStart)
    · exact stage_within hStart

theorem assignable_of_assignULRBG {symPerBeam : UInt16 → UInt32} {activeUl : ActiveUeMap}
    {maxBuffer : UInt32} {r : UlUes NrMacSchedulerUeInfoPF × UInt32 × List ℕ} (hActive : activeUl ≠ [])
    (h : sch.assignULRBG symPerBeam ues maxBuffer activeUl = some r) : sch.assignableRbgs ≠ 0 := by
  obtain ⟨el, rest, rfl⟩ := List.exists_cons_of_ne_nil hActive
  obtain ⟨t, hBeam, -⟩ := Option.bind_eq_some_iff.mp h
  intro hNone
  rw [assignBeam] at hBeam
  simp [hNone] at hBeam

theorem beam_keepsHistory_iff (hPf : sch.policy = sch.ulAmc.pfUlPolicy timeWindow sch.policy)
    (hAssignable : sch.assignableRbgs ≠ 0) (hSym : beam ≠ [] → 0 < beamSym.toNat)
    (hPenalty : ∀ maxBuffer, sch.bufferPenalty.reached 0 sch.assignableRbgs maxBuffer = false)
    (hNodup : (beam.map Prod.fst).Nodup) {maxBuffer : UInt32}
    (hFresh : ∀ rnti ∈ beam.map Prod.fst, (ues rnti).ulRBG = 0 ∧
      (ues rnti).metric.ulTbSize = 0 ∧ (ues rnti).metric.other.ul.avgTput = 0)
    {t : BeamState NrMacSchedulerUeInfoPF}
    (h : sch.assignBeam beamSym ues maxBuffer beam = some t) :
    (∀ rnti, (t.ues rnti).metric.other.ul.lastAvgTput = (ues rnti).metric.other.ul.lastAvgTput) ∧
    ((∀ ue ∈ beam, (t.ues ue.1).KeepsHistory sch.ulAmc timeWindow
      (ues ue.1).metric.other.ul.lastAvgTput beamSym.toUInt8) ↔
    sch.Awards beamSym (sch.mainStart beamSym ues maxBuffer beam) ∨ ∀ ue ∈ beam,
      ((sch.mainStart beamSym ues maxBuffer beam).ues ue.1).Discarded sch.ulAmc ∨
      PfTput.average timeWindow (ues ue.1).metric.other.ul.lastAvgTput
        ((sch.ulAmc.updateUlMetric ((sch.mainStart beamSym ues maxBuffer beam).ues ue.1)).toNat /
          beamSym.toUInt8.toNat) = 0) := by
  have hFrame := (assignBeam_within h).frame
  rcases eq_or_ne beam [] with rfl | hUsers
  · refine ⟨fun rnti => ?_, iff_of_true nofun (Or.inr nofun)⟩
    rw [hFrame rnti List.not_mem_nil]
  · obtain ⟨t', hBeam, hUpdated, hSame⟩ := assignBeam_cases hPf hAssignable (hSym hUsers) hPenalty
      hNodup hUsers maxBuffer fun rnti hMem => ⟨(hFresh rnti hMem).1, (hFresh rnti hMem).2.1⟩
    cases Option.some_inj.mp (h.symm.trans hBeam)
    by_cases hAwards : sch.Awards beamSym (sch.mainStart beamSym ues maxBuffer beam)
    · refine ⟨fun rnti => ?_, iff_of_true (fun ue hMem => ?_) (Or.inl hAwards)⟩
      · by_cases hMem : rnti ∈ beam.map Prod.fst
        · exact (hUpdated hAwards rnti hMem).lastAvg
        · rw [hFrame rnti hMem]
      · exact Or.inr (hUpdated hAwards _ (List.mem_map_of_mem hMem)).avg
    · rw [or_iff_right hAwards, hSame hAwards]
      refine ⟨fun rnti => (mainStart_carried hPf beamSym ues maxBuffer beam rnti).lastAvg, ?_⟩
      refine forall₂_congr fun ue hMem => or_congr_right ?_
      rw [(mainStart_carried hPf beamSym ues maxBuffer beam ue.1).avg,
        (hFresh ue.1 (List.mem_map_of_mem hMem)).2.2]
      exact eq_comm

theorem assignULRBG_keepsHistory_iff {symPerBeam : UInt16 → UInt32} {activeUl : ActiveUeMap}
    (hPf : sch.policy = sch.ulAmc.pfUlPolicy timeWindow sch.policy)
    (hAssignable : sch.assignableRbgs ≠ 0)
    (hSymbols : ∀ el ∈ activeUl, el.2 ≠ [] → 0 < (symPerBeam el.1).toNat)
    (hPenalty : ∀ maxBuffer, sch.bufferPenalty.reached 0 sch.assignableRbgs maxBuffer = false)
    (hNodup : ((activeUl.flatMap Prod.snd).map Prod.fst).Nodup) {maxBuffer : UInt32}
    (hFresh : ∀ rnti ∈ (activeUl.flatMap Prod.snd).map Prod.fst, (ues rnti).ulRBG = 0 ∧
      (ues rnti).metric.ulTbSize = 0 ∧ (ues rnti).metric.other.ul.avgTput = 0)
    {r : UlUes NrMacSchedulerUeInfoPF × UInt32 × List ℕ}
    (h : sch.assignULRBG symPerBeam ues maxBuffer activeUl = some r) :
    (∀ rnti ∉ (activeUl.flatMap Prod.snd).map Prod.fst, r.1 rnti = ues rnti) ∧
    (∀ rnti, (r.1 rnti).metric.other.ul.lastAvgTput = (ues rnti).metric.other.ul.lastAvgTput) ∧
    ((∀ el ∈ activeUl, ∀ ue ∈ el.2, (r.1 ue.1).KeepsHistory sch.ulAmc timeWindow
        (ues ue.1).metric.other.ul.lastAvgTput (symPerBeam el.1).toUInt8) ↔
      sch.KeepsHistory timeWindow symPerBeam ues maxBuffer activeUl) := by
  induction activeUl generalizing ues maxBuffer r with
  | nil =>
    cases h
    exact ⟨fun _ _ => rfl, fun _ => rfl, iff_of_true nofun trivial⟩
  | cons el activeUl ih =>
    obtain ⟨t, hBeam, h⟩ := Option.bind_eq_some_iff.mp h
    obtain ⟨rest, hRest, h⟩ := Option.bind_eq_some_iff.mp h
    cases h
    rw [List.flatMap_cons, List.map_append] at hNodup
    obtain ⟨hKeys, hRestKeys, hApart⟩ := List.nodup_append'.mp hNodup
    obtain ⟨hElSym, hRestSym⟩ := List.forall_mem_cons.mp hSymbols
    have hWithin := assignBeam_within hBeam
    have hLater : ∀ rnti ∈ (activeUl.flatMap Prod.snd).map Prod.fst, t.ues rnti = ues rnti :=
      fun rnti hMem => hWithin.frame rnti fun hIn => hApart hIn hMem
    have hIn : ∀ rnti, rnti ∈ el.2.map Prod.fst ∨ rnti ∈ (activeUl.flatMap Prod.snd).map Prod.fst →
        rnti ∈ ((el :: activeUl).flatMap Prod.snd).map Prod.fst := by
      intro rnti hMem
      rw [List.flatMap_cons, List.map_append]
      exact List.mem_append.mpr hMem
    obtain ⟨hBeamLast, hBeamIff⟩ := beam_keepsHistory_iff hPf hAssignable hElSym hPenalty hKeys
      (fun rnti hMem => hFresh rnti (hIn rnti (Or.inl hMem))) hBeam
    obtain ⟨hFrame, hLast, hIff⟩ := ih hRestSym hRestKeys (fun rnti hMem => by
      rw [hLater rnti hMem]
      exact hFresh rnti (hIn rnti (Or.inr hMem))) hRest
    refine ⟨?_, fun rnti => (hLast rnti).trans (hBeamLast rnti), ?_⟩
    · intro rnti hNot
      rw [List.flatMap_cons, List.map_append, List.mem_append, not_or] at hNot
      exact (hFrame rnti hNot.2).trans (hWithin.frame rnti hNot.1)
    · rw [List.forall_mem_cons, KeepsHistory]
      refine and_congr ?_ ?_
      · rw [← hBeamIff]
        refine forall₂_congr fun ue hMem => ?_
        rw [hFrame ue.1 fun hRestMem => hApart (List.mem_map_of_mem hMem) hRestMem]
      · rw [hBeam]
        refine Iff.trans ?_ (hIff.trans ⟨fun hKeeps _ hEq => Option.some_inj.mp hEq ▸ hKeeps,
          fun hAll => hAll t rfl⟩)
        refine forall₂_congr fun beam hBeamMem => forall₂_congr fun ue hUe => ?_
        rw [hLater ue.1 (List.mem_map_of_mem (List.mem_flatMap.mpr ⟨beam, hBeamMem, hUe⟩))]

end OfdmaScheduler

end Bullet.Mac
