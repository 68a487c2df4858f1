import Bullet.Mac.UlConservation
import Bullet.Mac.Policies

/-! # The two stages of the BULLET mode

The first stage hands out RBGs until the confident demands are covered, and the second one what is left
until the total demands are.
-/

namespace Bullet.Mac

open Lib.Shares

variable {μ : Type}

/-- The TB size of the user covers the bytes, and a DCI. -/
def UlUeInfo.Covers (ue : UlUeInfo μ) (demand : UInt32) : Prop := max demand 12 ≤ ue.metric.ulTbSize

/-- The user is allocated the same. -/
structure UlUeInfo.SameShare (ue ue' : UlUeInfo μ) : Prop where
  ulRBG : ue.ulRBG = ue'.ulRBG
  ulMcs : ue.ulMcs = ue'.ulMcs

theorem UlUeInfo.SameShare.trans {a b c : UlUeInfo μ} (h : a.SameShare b) (h' : b.SameShare c) :
    a.SameShare c :=
  ⟨h.ulRBG.trans h'.ulRBG, h.ulMcs.trans h'.ulMcs⟩

theorem setMetric_sameShare (ues : UlUes μ) (rnti rnti' : UInt16) (metric : UlMetric μ) :
    (setMetric ues rnti metric rnti').SameShare (ues rnti') := by
  rw [setMetric]
  rcases eq_or_ne rnti' rnti with rfl | hNe
  · rw [Function.update_self]
    exact ⟨rfl, rfl⟩
  · rw [Function.update_of_ne hNe]
    exact ⟨rfl, rfl⟩

namespace OfdmaScheduler

variable {sch : OfdmaScheduler μ} {beamSym maxResources : UInt32} {pool i : ℕ} {ues : UlUes μ}
  {beam : List UePtrAndBufferReq} {s : BeamState μ} {ue : UePtrAndBufferReq}

/-! ## The TB sizes follow the RBGs -/

theorem ulTbSize_congr {ue ue' : UlUeInfo μ} (h : ue.SameShare ue') :
    sch.ulAmc.updateUlMetric ue = sch.ulAmc.updateUlMetric ue' := by
  simp only [NrAmc.updateUlMetric, h.ulRBG, h.ulMcs]

/-- The TB size of the user is the one of its RBGs. -/
def Current (sch : OfdmaScheduler μ) (ue : UlUeInfo μ) : Prop :=
  ue.metric.ulTbSize = sch.ulAmc.updateUlMetric ue

theorem current_setMetric {rnti : UInt16} {metric : UlMetric μ}
    (hMetric : metric.ulTbSize = sch.ulAmc.updateUlMetric (ues rnti)) {rnti' : UInt16}
    (h : sch.Current (ues rnti')) : sch.Current (setMetric ues rnti metric rnti') := by
  have hShare := setMetric_sameShare ues rnti rnti' metric
  rw [Current, ulTbSize_congr hShare, setMetric]
  rcases eq_or_ne rnti' rnti with rfl | hNe
  · rw [Function.update_self]
    exact hMetric
  · rw [Function.update_of_ne hNe]
    exact h

/-- Updates that leave the TB sizes or find them again keep them current. -/
theorem current_updateMetrics {f : UlUeInfo μ → UlMetric μ} {l : List UePtrAndBufferReq}
    (hUpdate : ∀ ue, (f ue).ulTbSize = ue.metric.ulTbSize ∨
      (f ue).ulTbSize = sch.ulAmc.updateUlMetric ue)
    (h : ∀ rnti ∈ beam.map Prod.fst, sch.Current (ues rnti)) (hSub : l ⊆ beam) :
    ∀ rnti ∈ beam.map Prod.fst, sch.Current (updateMetrics f ues l rnti) := by
  induction l generalizing ues with
  | nil => exact h
  | cons ue l ih =>
    obtain ⟨hHead, hTail⟩ := List.cons_subset.mp hSub
    have hOwn := h ue.1 (List.mem_map_of_mem hHead)
    refine ih (fun rnti hMem => current_setMetric ?_ (h rnti hMem)) hTail
    rcases hUpdate (ues ue.1) with hKept | hNew
    · exact hKept.trans hOwn
    · exact hNew

/-- The users of the beam hold what has left the counter, with the TB sizes of it. -/
structure Sound (sch : OfdmaScheduler μ) (beamSym : UInt32) (pool : ℕ) (ues : UlUes μ)
    (beam : List UePtrAndBufferReq) (s : BeamState μ) : Prop
    extends Conserved beamSym pool ues beam s where
  current : ∀ rnti ∈ beam.map Prod.fst, sch.Current (s.ues rnti)

/-- What the stages of a beam start from and do not change. -/
structure StageCall (sch : OfdmaScheduler μ) (beamSym : UInt32) (pool : ℕ)
    (beam : List UePtrAndBufferReq) : Prop where
  policy : sch.UpdatesTbSize
  penalty : sch.enableBbr = false
  nodup : (beam.map Prod.fst).Nodup
  bound : pool * beamSym.toNat < 2 ^ 32

theorem award_sameShare (rnti : UInt16) (rnti' : UInt16) :
    ((sch.award beamSym rnti s).ues rnti').SameShare ((s.grant beamSym rnti).ues rnti') := by
  have hUpdates : ∀ (f : UlUeInfo μ → UlMetric μ) (l : List UePtrAndBufferReq) (ues : UlUes μ),
      (updateMetrics f ues l rnti').SameShare (ues rnti') := by
    intro f l
    induction l with
    | nil => exact fun _ => ⟨rfl, rfl⟩
    | cons ue l ih => exact fun ues => (ih _).trans (setMetric_sameShare _ _ _ _)
  exact (hUpdates _ _ _).trans (setMetric_sameShare _ _ _ _)

theorem award_sound (hCall : sch.StageCall beamSym pool beam) (h : sch.Sound beamSym pool ues beam s)
    (hMem : ue ∈ beam) (hPos : 0 < s.resources.toNat) :
    sch.Sound beamSym pool ues beam (sch.award beamSym ue.1 s) where
  toConserved := award_conserved h.toConserved hCall.nodup hCall.bound (List.mem_map_of_mem hMem) hPos
  current := by
    refine current_updateMetrics (hCall.policy.notAssigned _ _) ?_ fun a hA =>
      h.vector.subset (List.mem_of_mem_filter hA)
    intro rnti hRnti
    rcases eq_or_ne rnti ue.1 with rfl | hNe
    · rw [Current, ulTbSize_congr (setMetric_sameShare _ _ _ _), setMetric,
        Function.update_self]
      exact hCall.policy.assigned _ _ _
    · rw [Current, ulTbSize_congr (setMetric_sameShare _ _ _ _), setMetric,
        Function.update_of_ne hNe, grant_ues_of_ne beamSym s hNe]
      exact h.current rnti hRnti

/-! ## Rounds -/

/-- Without the penalty the users looked at do not change what is looked for. -/
theorem firstUncovered_eq_find (hPenalty : sch.enableBbr = false) (maxBuffer : UInt32)
    (l : List UePtrAndBufferReq) :
    sch.firstUncovered i beamSym maxResources ues maxBuffer l = (maxBuffer, l.find? fun ue =>
      !sch.covered beamSym maxResources maxBuffer (sch.bufQueueSize i ue) (ues ue.1)) := by
  induction l with
  | nil => rfl
  | cons ue l ih =>
    have hKept : sch.updateMaxBuffer maxBuffer (sch.bufQueueSize i ue) = maxBuffer := by
      simp [updateMaxBuffer, hPenalty]
    rw [firstUncovered, hKept, List.find?_cons]
    cases hCovered : sch.covered beamSym maxResources maxBuffer (sch.bufQueueSize i ue) (ues ue.1)
    · rfl
    · exact ih

theorem covered_iff (hPenalty : sch.enableBbr = false) (maxBuffer : UInt32) {demand : UInt32}
    {ue : UlUeInfo μ} :
    sch.covered beamSym maxResources maxBuffer demand ue = true ↔
      ue.Covers demand ∨ maxResources ≤ ue.ulRBG / beamSym := by
  simp [covered, hPenalty, UlUeInfo.Covers]

/-- A round starts with the users sorted. -/
def sorted (sch : OfdmaScheduler μ) (s : BeamState μ) : BeamState μ :=
  { s with ueVector := sch.policy.sort s.ues s.ueVector }

theorem award_resources {rnti : UInt16} (hPos : 0 < s.resources.toNat) :
    (sch.award beamSym rnti (sch.sorted s)).resources.toNat = s.resources.toNat - 1 :=
  UInt32.toNat_sub_of_le _ _ (UInt32.le_iff_toNat_le.mpr hPos)

/-- A round finds all users covered and ends the loop, or awards an RBG to a user that is not. -/
theorem assignLoop_cases (i : ℕ) (maxResources : UInt32) (hPenalty : sch.enableBbr = false)
    (hVector : s.ueVector.Perm beam) :
    ((∀ ue ∈ beam, (s.ues ue.1).Covers (sch.bufQueueSize i ue) ∨
        maxResources ≤ (s.ues ue.1).ulRBG / beamSym) ∧
      ∀ n, sch.assignLoop i beamSym maxResources (n + 1) s = sch.sorted s) ∨
    ∃ ue ∈ beam, ¬ (s.ues ue.1).Covers (sch.bufQueueSize i ue) ∧
      ∀ n, sch.assignLoop i beamSym maxResources (n + 1) s =
        sch.assignLoop i beamSym maxResources n (sch.award beamSym ue.1 (sch.sorted s)) := by
  have hSorted := (sch.policy.sort_perm s.ues s.ueVector).trans hVector
  cases hFind : (sch.policy.sort s.ues s.ueVector).find? fun ue =>
      !sch.covered beamSym maxResources s.maxBuffer (sch.bufQueueSize i ue) (s.ues ue.1) with
  | none =>
    refine Or.inl ⟨fun ue hMem => (covered_iff hPenalty s.maxBuffer).mp ?_,
      fun n => by rw [assignLoop, firstUncovered_eq_find hPenalty, hFind]; rfl⟩
    simpa using List.find?_eq_none.mp hFind ue (hSorted.mem_iff.mpr hMem)
  | some ue =>
    refine Or.inr ⟨ue, hSorted.subset (List.mem_of_find?_eq_some hFind), ?_,
      fun n => by rw [assignLoop, firstUncovered_eq_find hPenalty, hFind]; rfl⟩
    intro hCovers
    have hNot := List.find?_some hFind
    rw [(covered_iff hPenalty _).mpr (Or.inl hCovers)] at hNot
    cases hNot

theorem sorted_sound (h : sch.Sound beamSym pool ues beam s) :
    sch.Sound beamSym pool ues beam (sch.sorted s) where
  vector := (sch.policy.sort_perm s.ues s.ueVector).trans h.vector
  frame := h.frame
  multiples := h.multiples
  total := h.total
  counter := h.counter
  current := h.current

/-- The state after at most `n` rounds conserves. -/
theorem assignLoop_sound {n : ℕ} (hCall : sch.StageCall beamSym pool beam)
    (h : sch.Sound beamSym pool ues beam s) (hRounds : n ≤ s.resources.toNat) :
    sch.Sound beamSym pool ues beam (sch.assignLoop i beamSym maxResources n s) := by
  induction n generalizing s with
  | zero => exact h
  | succ n ih =>
    obtain ⟨-, hEnd⟩ | ⟨ue, hMem, -, hNext⟩ :=
      assignLoop_cases i maxResources hCall.penalty h.vector
    · rw [hEnd]
      exact sorted_sound h
    · have hPos := Nat.lt_of_lt_of_le n.succ_pos hRounds
      rw [hNext]
      refine ih (award_sound hCall (sorted_sound h) hMem hPos) ?_
      rw [award_resources hPos]
      exact Nat.le_sub_one_of_lt hRounds

/-- A loop with a round for each RBG ends with none left or with all users covered. -/
theorem assignLoop_ends (i : ℕ) (maxResources : UInt32) {n : ℕ}
    (hCall : sch.StageCall beamSym pool beam) (h : sch.Sound beamSym pool ues beam s)
    (hRounds : s.resources.toNat = n) :
    (sch.assignLoop i beamSym maxResources n s).resources = 0 ∨
    ∀ ue ∈ beam,
      ((sch.assignLoop i beamSym maxResources n s).ues ue.1).Covers (sch.bufQueueSize i ue) ∨
      maxResources ≤ ((sch.assignLoop i beamSym maxResources n s).ues ue.1).ulRBG / beamSym := by
  induction n generalizing s with
  | zero => exact Or.inl (UInt32.toNat_inj.mp hRounds)
  | succ n ih =>
    obtain ⟨hCovered, hEnd⟩ | ⟨ue, hMem, -, hNext⟩ :=
      assignLoop_cases i maxResources hCall.penalty h.vector
    · rw [hEnd]
      exact Or.inr hCovered
    · have hPos : 0 < s.resources.toNat := Nat.lt_of_lt_of_eq n.succ_pos hRounds.symm
      rw [hNext]
      refine ih (award_sound hCall (sorted_sound h) hMem hPos) ?_
      rw [award_resources hPos]
      exact Nat.sub_eq_of_eq_add hRounds

/-- Who holds fewer RBGs than have been granted does not hold all of them. -/
theorem Sound.below (h : sch.Sound beamSym maxResources.toNat ues beam s) (hSym : 0 < beamSym.toNat)
    (hLeft : s.resources ≠ 0) (hMem : ue ∈ beam) :
    ¬ maxResources ≤ (s.ues ue.1).ulRBG / beamSym := by
  have hHeld : (s.ues ue.1).ulRBG.toNat ≤ s.granted * beamSym.toNat :=
    h.total ▸ le_total (fun rnti => (s.ues rnti).ulRBG.toNat) (List.mem_map_of_mem hMem)
  have hPos : s.resources.toNat ≠ 0 := fun hZero => hLeft (UInt32.toNat_inj.mp hZero)
  have hCounter := h.counter
  rw [UInt32.le_iff_toNat_le, UInt32.toNat_div, not_le]
  calc (s.ues ue.1).ulRBG.toNat / beamSym.toNat ≤ s.granted * beamSym.toNat / beamSym.toNat :=
        Nat.div_le_div_right hHeld
    _ = s.granted := Nat.mul_div_cancel _ hSym
    _ < maxResources.toNat := by omega

/-! ## What later rounds leave -/

theorem award_ulRBG_of_ne {rnti rnti' : UInt16} (hNe : rnti' ≠ rnti) :
    ((sch.award beamSym rnti s).ues rnti').ulRBG = (s.ues rnti').ulRBG :=
  (award_sameShare rnti rnti').ulRBG.trans (congrArg UlUeInfo.ulRBG (grant_ues_of_ne beamSym s hNe))

/-- A user whose demand is covered keeps its RBGs and stays covered. -/
theorem award_covered {chosen : UePtrAndBufferReq} (hCall : sch.StageCall beamSym pool beam)
    (h : sch.Sound beamSym pool ues beam s) (hNext : sch.Sound beamSym pool ues beam
      (sch.award beamSym chosen.1 s)) (hMem : ue ∈ beam) (hChosen : chosen ∈ beam)
    (hCovers : (s.ues ue.1).Covers (sch.bufQueueSize i ue))
    (hNot : ¬ (s.ues chosen.1).Covers (sch.bufQueueSize i chosen)) :
    ((sch.award beamSym chosen.1 s).ues ue.1).ulRBG = (s.ues ue.1).ulRBG ∧
    ((sch.award beamSym chosen.1 s).ues ue.1).Covers (sch.bufQueueSize i ue) := by
  have hNe : ue.1 ≠ chosen.1 := by
    intro hEq
    cases List.inj_on_of_nodup_map hCall.nodup hMem hChosen hEq
    exact hNot hCovers
  have hKeys := List.mem_map_of_mem (f := Prod.fst) hMem
  have hShare : ((sch.award beamSym chosen.1 s).ues ue.1).SameShare (s.ues ue.1) := by
    refine (award_sameShare chosen.1 ue.1).trans ?_
    rw [grant_ues_of_ne beamSym s hNe]
    exact ⟨rfl, rfl⟩
  refine ⟨hShare.ulRBG, ?_⟩
  rw [UlUeInfo.Covers, hNext.current ue.1 hKeys, ulTbSize_congr hShare,
    ← h.current ue.1 hKeys]
  exact hCovers

theorem assignLoop_covered {n : ℕ} (hCall : sch.StageCall beamSym pool beam)
    (h : sch.Sound beamSym pool ues beam s) (hRounds : n ≤ s.resources.toNat) (hMem : ue ∈ beam)
    (hCovers : (s.ues ue.1).Covers (sch.bufQueueSize i ue)) :
    ((sch.assignLoop i beamSym maxResources n s).ues ue.1).ulRBG = (s.ues ue.1).ulRBG := by
  induction n generalizing s with
  | zero => rfl
  | succ n ih =>
    obtain ⟨-, hEnd⟩ | ⟨chosen, hChosen, hNot, hNext⟩ :=
      assignLoop_cases i maxResources hCall.penalty h.vector
    · rw [hEnd]
      rfl
    · have hPos := Nat.lt_of_lt_of_le n.succ_pos hRounds
      have hAward := award_sound hCall (sorted_sound h) hChosen hPos
      obtain ⟨hKept, hStill⟩ :=
        award_covered (i := i) hCall (sorted_sound h) hAward hMem hChosen hCovers hNot
      rw [hNext, ih hAward ?_ hStill]
      · exact hKept
      · rw [award_resources hPos]
        exact Nat.le_sub_one_of_lt hRounds

/-- A user that is covered after some rounds is given nothing in the ones that follow. -/
theorem assignLoop_settled {k m : ℕ} (hCall : sch.StageCall beamSym pool beam)
    (h : sch.Sound beamSym pool ues beam s) (hLe : k ≤ m) (hRounds : m ≤ s.resources.toNat)
    (hMem : ue ∈ beam)
    (hCovers : ((sch.assignLoop i beamSym maxResources k s).ues ue.1).Covers
      (sch.bufQueueSize i ue)) :
    ((sch.assignLoop i beamSym maxResources m s).ues ue.1).ulRBG =
      ((sch.assignLoop i beamSym maxResources k s).ues ue.1).ulRBG := by
  induction k generalizing s m with
  | zero => exact assignLoop_covered hCall h hRounds hMem hCovers
  | succ k ih =>
    obtain ⟨m, rfl⟩ := Nat.exists_eq_add_of_le' (Nat.one_le_of_lt hLe)
    obtain ⟨-, hEnd⟩ | ⟨chosen, hChosen, -, hNext⟩ :=
      assignLoop_cases i maxResources hCall.penalty h.vector
    · rw [hEnd, hEnd]
    · have hPos := Nat.lt_of_lt_of_le m.succ_pos hRounds
      rw [hNext] at hCovers ⊢
      rw [hNext]
      refine ih (award_sound hCall (sorted_sound h) hChosen hPos) (Nat.le_of_succ_le_succ hLe) ?_
        hCovers
      rw [award_resources hPos]
      exact Nat.le_sub_one_of_lt hRounds

/-- No round takes RBGs away. -/
theorem assignLoop_adds {n : ℕ} (hCall : sch.StageCall beamSym pool beam)
    (h : sch.Sound beamSym pool ues beam s) (hRounds : n ≤ s.resources.toNat) (rnti : UInt16) :
    (s.ues rnti).ulRBG ≤ ((sch.assignLoop i beamSym maxResources n s).ues rnti).ulRBG := by
  induction n generalizing s with
  | zero => exact UInt32.le_refl _
  | succ n ih =>
    obtain ⟨-, hEnd⟩ | ⟨chosen, hChosen, -, hNext⟩ :=
      assignLoop_cases i maxResources hCall.penalty h.vector
    · rw [hEnd]
      exact UInt32.le_refl _
    · have hPos := Nat.lt_of_lt_of_le n.succ_pos hRounds
      have hAward := award_sound hCall (sorted_sound h) hChosen hPos
      rw [hNext]
      refine UInt32.le_trans ?_ (ih hAward ?_)
      · rcases eq_or_ne rnti chosen.1 with rfl | hNe
        · rw [(award_sameShare chosen.1 chosen.1).ulRBG, UInt32.le_iff_toNat_le,
            (sorted_sound h).grant_self hCall.bound (List.mem_map_of_mem hChosen) hPos]
          exact Nat.le_add_right _ _
        · rw [award_ulRBG_of_ne hNe]
          exact UInt32.le_refl _
      · rw [award_resources hPos]
        exact Nat.le_sub_one_of_lt hRounds

/-! ## The two stages -/

/-- What the BULLET mode assigns to a beam from: the users have no RBGs yet, and a symbol at least. -/
structure TwoStageCall (sch : OfdmaScheduler μ) (beamSym : UInt32) (ues : UlUes μ)
    (beam : List UePtrAndBufferReq) : Prop where
  mode : sch.scheduleMode = 3
  penalty : sch.enableBbr = false
  policy : sch.UpdatesTbSize
  assignable : sch.assignableRbgs ≠ 0
  mask : sch.ulNotchedRbgsMask = [] ∨ sch.ulNotchedRbgsMask.length = sch.bandwidthInRbg.toNat
  symbols : 0 < beamSym.toNat ∧ beamSym.toNat < 2 ^ 8
  nodup : (beam.map Prod.fst).Nodup
  fresh : ∀ rnti ∈ beam.map Prod.fst, (ues rnti).ulRBG = 0 ∧ (ues rnti).metric.ulTbSize = 0

/-- The state after at most `n` rounds of a stage. -/
def rounds (sch : OfdmaScheduler μ) (i : ℕ) (beamSym : UInt32) (n : ℕ) (s : BeamState μ) :
    BeamState μ :=
  sch.assignLoop i beamSym sch.assignableRbgs n { s with assigned := ftResources 0 0 }

/-- The RBGs of the users and the ones that are left are those of the beam. -/
def Conserves (sch : OfdmaScheduler μ) (beamSym : UInt32) (beam : List UePtrAndBufferReq)
    (s : BeamState μ) : Prop :=
  total (beam.map Prod.fst) (fun rnti => ((s.ues rnti).ulRBG / beamSym).toNat) +
    s.resources.toNat = sch.assignableRbgs.toNat

/-- From `start` the first stage leads to `first`, and the second one from there to `second`. -/
structure TwoStages (sch : OfdmaScheduler μ) (beamSym : UInt32) (beam : List UePtrAndBufferReq)
    (start first second : BeamState μ) : Prop where
  first_conserves : ∀ n ≤ start.resources.toNat,
    sch.Conserves beamSym beam (sch.rounds 0 beamSym n start)
  second_conserves : ∀ n ≤ first.resources.toNat,
    sch.Conserves beamSym beam (sch.rounds 1 beamSym n first)
  confident : first.resources ≠ 0 → ∀ ue ∈ beam, (first.ues ue.1).Covers (sch.confidentBSR ue.1)
  settled : ∀ k m, k ≤ m → m ≤ start.resources.toNat → ∀ ue ∈ beam,
    ((sch.rounds 0 beamSym k start).ues ue.1).Covers (sch.confidentBSR ue.1) →
      ((sch.rounds 0 beamSym m start).ues ue.1).ulRBG =
        ((sch.rounds 0 beamSym k start).ues ue.1).ulRBG
  adds : ∀ n ≤ first.resources.toNat, ∀ ue ∈ beam,
    (first.ues ue.1).ulRBG ≤ ((sch.rounds 1 beamSym n first).ues ue.1).ulRBG
  ends : second.resources = 0 ∨ ∀ ue ∈ beam, (second.ues ue.1).Covers ue.2

theorem Sound.conserves (h : sch.Sound beamSym sch.assignableRbgs.toNat ues beam s)
    (hSym : 0 < beamSym.toNat) : sch.Conserves beamSym beam s := by
  have hGranted : total (beam.map Prod.fst) (fun rnti => ((s.ues rnti).ulRBG / beamSym).toNat) =
      s.granted := by
    refine Nat.eq_of_mul_eq_mul_right hSym ?_
    rw [← total_mul, ← h.total]
    refine total_congr fun rnti hMem => ?_
    rw [UInt32.toNat_div, Nat.div_mul_cancel (h.multiples rnti hMem)]
  rw [Conserves, hGranted]
  exact h.counter

theorem reset_sound (h : sch.Sound beamSym pool ues beam s) :
    sch.Sound beamSym pool ues beam { s with assigned := ftResources 0 0 } where
  vector := h.vector
  frame := h.frame
  multiples := h.multiples
  total := h.total
  counter := h.counter
  current := h.current

/-- A stage makes a round for each RBG that is left. -/
theorem stage_eq_rounds (hMode : sch.scheduleMode = 3) (hLeft : s.resources ≠ 0) :
    sch.stage i beamSym sch.assignableRbgs s = sch.rounds i beamSym s.resources.toNat s := by
  have hNotFree : sch.scheduleMode ≠ 1 := by
    rw [hMode]
    decide
  rw [stage_eq hLeft, opening, if_neg hNotFree]
  rfl

/-- With RBGs left a stage has covered the demands that it looks at. -/
theorem stage_ends (hCall : sch.StageCall beamSym sch.assignableRbgs.toNat beam)
    (hMode : sch.scheduleMode = 3) (hSym : 0 < beamSym.toNat)
    (h : sch.Sound beamSym sch.assignableRbgs.toNat ues beam s) :
    sch.Sound beamSym sch.assignableRbgs.toNat ues beam
      (sch.stage i beamSym sch.assignableRbgs s) ∧
    ((sch.stage i beamSym sch.assignableRbgs s).resources ≠ 0 → ∀ ue ∈ beam,
      ((sch.stage i beamSym sch.assignableRbgs s).ues ue.1).Covers (sch.bufQueueSize i ue)) := by
  rcases eq_or_ne s.resources 0 with hNone | hLeft
  · rw [stage, if_pos hNone]
    exact ⟨h, fun hLeft => absurd hNone hLeft⟩
  · rw [stage_eq_rounds hMode hLeft]
    have hSound : sch.Sound beamSym sch.assignableRbgs.toNat ues beam
        (sch.rounds i beamSym s.resources.toNat s) :=
      assignLoop_sound hCall (reset_sound h) (Nat.le_refl _)
    refine ⟨hSound, fun hRest ue hMem => ?_⟩
    have hEnds := assignLoop_ends i sch.assignableRbgs hCall (reset_sound h) rfl
    exact (hEnds.resolve_left hRest ue hMem).resolve_right (hSound.below hSym hRest hMem)

/-- The two stages conserve the RBGs, the first one up to the confident demands, and the second one
adds to it up to the total demands. -/
theorem assignBeam_twoStages (maxBuffer : UInt32) (hCall : sch.TwoStageCall beamSym ues beam) :
    ∃ second, sch.assignBeam beamSym ues maxBuffer beam = some second ∧
      sch.TwoStages beamSym beam (sch.beamStart beamSym ues maxBuffer beam)
        (sch.stage 0 beamSym sch.assignableRbgs (sch.beamStart beamSym ues maxBuffer beam))
        second := by
  obtain ⟨hSym, hLt⟩ := hCall.symbols
  have hBound : sch.assignableRbgs.toNat < 2 ^ 16 := by
    rw [assignableRbgs_toNat hCall.mask]
    refine List.count_le_length.trans_lt ?_
    rw [length_ulRbgMask hCall.mask]
    exact sch.bandwidthInRbg.toNat_lt
  have hStage : sch.StageCall beamSym sch.assignableRbgs.toNat beam :=
    ⟨hCall.policy, hCall.penalty, hCall.nodup,
      (Nat.mul_lt_mul'' hBound hLt).trans (by decide)⟩
  have hStart : sch.Sound beamSym sch.assignableRbgs.toNat ues beam
      (sch.beamStart beamSym ues maxBuffer beam) := by
    refine ⟨beamStart_conserved fun rnti hMem => (hCall.fresh rnti hMem).1, ?_⟩
    refine current_updateMetrics (fun ue => Or.inl (hCall.policy.before _ ue)) ?_ fun _ h => h
    intro rnti hMem
    obtain ⟨hNone, hZero⟩ := hCall.fresh rnti hMem
    rw [Current, hZero, NrAmc.updateUlMetric, if_pos hNone]
  obtain ⟨hFirst, hConfident⟩ := stage_ends (i := 0) hStage hCall.mode hSym hStart
  obtain ⟨-, hTotal⟩ := stage_ends (i := 1) hStage hCall.mode hSym hFirst
  have hZero : ∀ ue : UePtrAndBufferReq, sch.bufQueueSize 0 ue = sch.confidentBSR ue.1 :=
    fun _ => if_pos ⟨hCall.mode, rfl⟩
  have hOne : ∀ ue : UePtrAndBufferReq, sch.bufQueueSize 1 ue = ue.2 :=
    fun _ => if_neg fun h => Nat.one_ne_zero h.2
  rw [assignBeam_eq hCall.assignable hSym, if_pos hCall.mode]
  refine ⟨_, rfl, ?_, ?_, ?_, ?_, ?_, ?_⟩
  · intro n hRounds
    exact (assignLoop_sound hStage (reset_sound hStart) hRounds).conserves hSym
  · intro n hRounds
    exact (assignLoop_sound hStage (reset_sound hFirst) hRounds).conserves hSym
  · intro hLeft ue hMem
    have hCovers := hConfident hLeft ue hMem
    rw [hZero] at hCovers
    exact hCovers
  · intro k m hLe hRounds ue hMem hCovers
    rw [← hZero] at hCovers
    exact assignLoop_settled hStage (reset_sound hStart) hLe hRounds hMem hCovers
  · intro n hRounds ue _
    exact assignLoop_adds hStage (reset_sound hFirst) hRounds ue.1
  · refine or_iff_not_imp_left.mpr fun hLeft ue hMem => ?_
    have hCovers := hTotal hLeft ue hMem
    rw [hOne] at hCovers
    exact hCovers

/-- Two users with confident demands of 100 bytes and none. -/
def twoStages : OfdmaScheduler Unit :=
  { grantFree 17 with
    scheduleMode := 3
    confidentBSR := fun rnti => if rnti = 1 then 100 else 0
    policy := roundRobin 1 }

theorem twoStages_call : twoStages.TwoStageCall 6 idleUes [(1, 2000), (2, 300)] where
  mode := rfl
  penalty := rfl
  policy := updatesTbSize_rr rfl
  assignable := by decide
  mask := Or.inl rfl
  symbols := ⟨by decide, by decide⟩
  nodup := by decide
  fresh _ _ := ⟨rfl, rfl⟩

theorem assignBeam_twoUsers : twoStages.TwoStageCall 6 idleUes [(1, 2000), (2, 300)] ∧
    ∃ second, twoStages.assignBeam 6 idleUes 0 [(1, 2000), (2, 300)] = some second ∧
      twoStages.TwoStages 6 [(1, 2000), (2, 300)]
        (twoStages.beamStart 6 idleUes 0 [(1, 2000), (2, 300)])
        (twoStages.stage 0 6 twoStages.assignableRbgs
          (twoStages.beamStart 6 idleUes 0 [(1, 2000), (2, 300)])) second :=
  ⟨twoStages_call, assignBeam_twoStages 0 twoStages_call⟩

end OfdmaScheduler

end Bullet.Mac
