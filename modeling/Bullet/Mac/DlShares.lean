import Bullet.Mac.BeamSymbols

/-! # What the DL users of a beam are given

Every round of `AssignDLRBG` takes one RBG from the counter and gives it to a user over all the
symbols of the beam.
-/

namespace Bullet.Mac

open Lib.Shares

variable {μ : Type}

section Metrics

variable {ues : DlUes μ} {rnti rnti' : UInt16}

theorem setDlMetric_dlRBG (ues : DlUes μ) (rnti rnti' : UInt16) (metric : DlMetric μ) :
    (setDlMetric ues rnti metric rnti').dlRBG = (ues rnti').dlRBG := by
  rw [setDlMetric]
  rcases eq_or_ne rnti' rnti with rfl | hNe
  · rw [Function.update_self]
  · rw [Function.update_of_ne hNe]

theorem updateDlMetrics_dlRBG (f : DlUeInfo μ → DlMetric μ) (ues : DlUes μ)
    (l : List UePtrAndBufferReq) (rnti : UInt16) :
    (updateDlMetrics f ues l rnti).dlRBG = (ues rnti).dlRBG := by
  induction l generalizing ues with
  | nil => rfl
  | cons ue l ih => exact (ih _).trans (setDlMetric_dlRBG _ _ _ _)

theorem firstUncoveredDl_dlRBG (l : List UePtrAndBufferReq) (rnti : UInt16) :
    ((firstUncoveredDl ues l).1 rnti).dlRBG = (ues rnti).dlRBG := by
  induction l generalizing ues with
  | nil => rfl
  | cons ue l ih =>
    rw [firstUncoveredDl]
    split
    · dsimp only
      rw [ih]
      split
      · exact setDlMetric_dlRBG _ _ _ _
      · rfl
    · rfl

theorem updateDlMetrics_of_notMem {f : DlUeInfo μ → DlMetric μ} {l : List UePtrAndBufferReq}
    {rnti : UInt16} (h : rnti ∉ l.map Prod.fst) : updateDlMetrics f ues l rnti = ues rnti := by
  induction l generalizing ues with
  | nil => rfl
  | cons ue l ih =>
    rw [List.map_cons, List.mem_cons, not_or] at h
    exact (ih h.2).trans (Function.update_of_ne h.1 _ _)

theorem firstUncoveredDl_of_notMem {l : List UePtrAndBufferReq} {rnti : UInt16}
    (h : rnti ∉ l.map Prod.fst) : (firstUncoveredDl ues l).1 rnti = ues rnti := by
  induction l generalizing ues with
  | nil => rfl
  | cons ue l ih =>
    rw [List.map_cons, List.mem_cons, not_or] at h
    rw [firstUncoveredDl]
    split
    · refine (ih h.2).trans ?_
      split
      · exact Function.update_of_ne h.1 _ _
      · rfl
    · rfl

theorem firstUncoveredDl_mem {l : List UePtrAndBufferReq} {ue : UePtrAndBufferReq}
    (h : (firstUncoveredDl ues l).2 = some ue) : ue ∈ l := by
  induction l generalizing ues with
  | nil => cases h
  | cons a l ih =>
    rw [firstUncoveredDl] at h
    split at h
    · exact List.mem_cons_of_mem _ (ih h)
    · cases h
      exact List.mem_cons_self

end Metrics

/-- The users hold `granted` RBGs, over all symbols of their beam. -/
structure DlHolds (beamSym : UInt32) (rntis : List UInt16) (ues : DlUes μ) (granted : ℕ) :
    Prop where
  multiples : ∀ rnti ∈ rntis, beamSym.toNat ∣ (ues rnti).dlRBG.toNat
  held : total rntis (fun rnti => (ues rnti).dlRBG.toNat) = granted * beamSym.toNat

theorem DlHolds.congr {beamSym : UInt32} {rntis : List UInt16} {ues ues' : DlUes μ} {granted : ℕ}
    (h : DlHolds beamSym rntis ues granted)
    (hSame : ∀ rnti ∈ rntis, (ues' rnti).dlRBG = (ues rnti).dlRBG) :
    DlHolds beamSym rntis ues' granted where
  multiples rnti hMem := by
    rw [hSame rnti hMem]
    exact h.multiples rnti hMem
  held := by
    rw [← h.held]
    exact total_congr fun rnti hMem => by rw [hSame rnti hMem]

theorem holdsNone {beamSym : UInt32} {rntis : List UInt16} {ues : DlUes μ}
    (h : ∀ rnti ∈ rntis, (ues rnti).dlRBG = 0) : DlHolds beamSym rntis ues 0 where
  multiples rnti hMem := by
    rw [h rnti hMem]
    exact Nat.dvd_zero _
  held := by
    rw [Nat.zero_mul]
    apply total_eq_zero
    intro rnti hMem
    rw [h rnti hMem]
    rfl

namespace OfdmaNewData

variable (sch : OfdmaNewData μ) {beamSym : UInt32} {s : DlBeamState μ} {rnti rnti' : UInt16}
  {rntis : List UInt16} {granted : ℕ}

theorem awardDl_dlRBG_self :
    ((sch.awardDl beamSym rnti s).ues rnti).dlRBG = (s.ues rnti).dlRBG + beamSym := by
  rw [awardDl]
  dsimp only
  rw [updateDlMetrics_dlRBG, setDlMetric_dlRBG, Function.update_self]

theorem awardDl_dlRBG_of_ne (hNe : rnti' ≠ rnti) :
    ((sch.awardDl beamSym rnti s).ues rnti').dlRBG = (s.ues rnti').dlRBG := by
  rw [awardDl]
  dsimp only
  rw [updateDlMetrics_dlRBG, setDlMetric_dlRBG, Function.update_of_ne hNe]

/-- One round, while the RBGs of all users fit into 32 bits. -/
theorem awardDl_holds (h : DlHolds beamSym rntis s.ues granted) (hNodup : rntis.Nodup)
    (hMem : rnti ∈ rntis) (hFits : (granted + 1) * beamSym.toNat < 2 ^ 32) :
    DlHolds beamSym rntis (sch.awardDl beamSym rnti s).ues (granted + 1) := by
  have hHeld : (s.ues rnti).dlRBG.toNat ≤ granted * beamSym.toNat :=
    h.held ▸ le_total (fun rnti => (s.ues rnti).dlRBG.toNat) hMem
  rw [Nat.add_mul, Nat.one_mul] at hFits
  have hGain : ((sch.awardDl beamSym rnti s).ues rnti).dlRBG.toNat =
      (s.ues rnti).dlRBG.toNat + beamSym.toNat := by
    rw [awardDl_dlRBG_self, UInt32.toNat_add]
    exact Nat.mod_eq_of_lt (by omega)
  constructor
  · intro rnti' hMem'
    rcases eq_or_ne rnti' rnti with rfl | hNe
    · rw [hGain]
      exact Nat.dvd_add (h.multiples rnti' hMem') (Nat.dvd_refl _)
    · rw [awardDl_dlRBG_of_ne sch hNe]
      exact h.multiples rnti' hMem'
  · rw [total_of_gain hNodup hMem hGain fun rnti' hNe => by rw [awardDl_dlRBG_of_ne sch hNe], h.held]
    exact (Nat.succ_mul _ _).symm

/-- The rounds give the users of the beam at most what the counter starts with, and nothing to the
others. -/
theorem assignDlLoop_spec {n : ℕ} (h : DlHolds beamSym rntis s.ues granted) (hNodup : rntis.Nodup)
    (hVector : ∀ ue ∈ s.ueVector, ue.1 ∈ rntis)
    (hFits : (granted + n) * beamSym.toNat < 2 ^ 32) :
    (∃ granted' ≤ granted + n,
      DlHolds beamSym rntis (sch.assignDlLoop beamSym n s).ues granted') ∧
      ∀ rnti ∉ rntis, ((sch.assignDlLoop beamSym n s).ues rnti).dlRBG = (s.ues rnti).dlRBG := by
  induction n generalizing s granted with
  | zero => exact ⟨⟨granted, Nat.le_refl _, h⟩, fun _ _ => rfl⟩
  | succ n ih =>
    rw [assignDlLoop]
    have hSorted := sch.dlPolicy.sort_perm s.ues s.ueVector
    have hTrimmed := fun rnti =>
      @firstUncoveredDl_dlRBG _ s.ues (sch.dlPolicy.sort s.ues s.ueVector) rnti
    let sorted : DlBeamState μ :=
      { s with
        ues := (firstUncoveredDl s.ues (sch.dlPolicy.sort s.ues s.ueVector)).1
        ueVector := sch.dlPolicy.sort s.ues s.ueVector }
    have hHolds : DlHolds beamSym rntis sorted.ues granted := h.congr fun rnti _ => hTrimmed rnti
    split
    · exact ⟨⟨granted, Nat.le_add_right _ _, hHolds⟩, fun rnti _ => hTrimmed rnti⟩
    · next ue hUe =>
      have hMem : ue.1 ∈ rntis := hVector ue (hSorted.subset (firstUncoveredDl_mem hUe))
      have hStep : (granted + 1) * beamSym.toNat < 2 ^ 32 :=
        Nat.lt_of_le_of_lt (Nat.mul_le_mul_right _ (by omega)) hFits
      have hRest : (granted + 1 + n) * beamSym.toNat < 2 ^ 32 := by
        rw [Nat.add_right_comm]
        exact hFits
      obtain ⟨⟨granted', hLe, hLast⟩, hOthers⟩ :=
        ih (s := sch.awardDl beamSym ue.1 sorted) (sch.awardDl_holds hHolds hNodup hMem hStep)
          (fun ue hIn => hVector ue (hSorted.subset hIn)) hRest
      refine ⟨⟨granted', by omega, hLast⟩, fun rnti hNot => ?_⟩
      have hNe : rnti ≠ ue.1 := by
        rintro rfl
        exact hNot hMem
      rw [hOthers rnti hNot, awardDl_dlRBG_of_ne sch hNe]
      exact hTrimmed rnti

theorem awardDl_frame {rnti' : UInt16} (hMem : rnti ∈ rntis)
    (hVector : ∀ ue ∈ s.ueVector, ue.1 ∈ rntis) (hNot : rnti' ∉ rntis) :
    (sch.awardDl beamSym rnti s).ues rnti' = s.ues rnti' := by
  have hNe : rnti' ≠ rnti := by
    rintro rfl
    exact hNot hMem
  have hOthers : rnti' ∉ (s.ueVector.filter fun ue => ue.1 ≠ rnti).map Prod.fst := by
    intro hIn
    obtain ⟨ue, hUe, rfl⟩ := List.mem_map.mp hIn
    exact hNot (hVector ue (List.mem_of_mem_filter hUe))
  rw [awardDl]
  dsimp only
  rw [updateDlMetrics_of_notMem hOthers, setDlMetric, Function.update_of_ne hNe,
    Function.update_of_ne hNe]

/-- The loop touches the users of the beam only. -/
theorem assignDlLoop_frame {n : ℕ} {rnti : UInt16} (hVector : ∀ ue ∈ s.ueVector, ue.1 ∈ rntis)
    (hNot : rnti ∉ rntis) : (sch.assignDlLoop beamSym n s).ues rnti = s.ues rnti := by
  induction n generalizing s with
  | zero => rfl
  | succ n ih =>
    have hSorted := sch.dlPolicy.sort_perm s.ues s.ueVector
    have hPassed : (firstUncoveredDl s.ues (sch.dlPolicy.sort s.ues s.ueVector)).1 rnti =
        s.ues rnti := by
      refine firstUncoveredDl_of_notMem fun hIn => ?_
      obtain ⟨ue, hUe, rfl⟩ := List.mem_map.mp hIn
      exact hNot (hVector ue (hSorted.subset hUe))
    have hSub : ∀ ue ∈ sch.dlPolicy.sort s.ues s.ueVector, ue.1 ∈ rntis :=
      fun ue hIn => hVector ue (hSorted.subset hIn)
    rw [assignDlLoop]
    split
    · exact hPassed
    · next ue hUe =>
      refine (ih hSub).trans ?_
      exact (awardDl_frame sch (hSub ue (firstUncoveredDl_mem hUe)) hSub hNot).trans hPassed

/-- A beam before its first round. -/
def dlStart (beamSym : UInt32) (ues : DlUes μ) (beam : List UePtrAndBufferReq) : DlBeamState μ where
  ues := updateDlMetrics (sch.dlPolicy.beforeDlSched (ftResources (beamSym * beamSym) beamSym)) ues
    beam
  ueVector := beam
  assigned := ftResources 0 0

/-- The assignment touches the users of the beams only. -/
theorem assignDLRBG_frame {symPerBeam : UInt16 → UInt32} {activeDl : ActiveUeMap} {ues ues' : DlUes μ}
    (h : sch.assignDLRBG symPerBeam ues activeDl = some ues')
    (hNot : rnti ∉ (activeDl.flatMap Prod.snd).map Prod.fst) : ues' rnti = ues rnti := by
  induction activeDl generalizing ues with
  | nil =>
    cases h
    rfl
  | cons el activeDl ih =>
    rw [List.flatMap_cons, List.map_append, List.mem_append, not_or] at hNot
    rw [assignDLRBG] at h
    split at h
    · cases h
    · refine (ih h hNot.2).trans ?_
      refine (sch.assignDlLoop_frame (fun ue hUe => List.mem_map_of_mem hUe) hNot.1).trans ?_
      exact updateDlMetrics_of_notMem hNot.1

/-- The first beam settles its users, and leaves those of the others as they were. -/
theorem assignDLRBG_cons {symPerBeam : UInt16 → UInt32} {el : UInt16 × List UePtrAndBufferReq}
    {activeDl : ActiveUeMap} {ues ues' : DlUes μ}
    (hKeys : (((el :: activeDl).flatMap Prod.snd).map Prod.fst).Nodup)
    (h : sch.assignDLRBG symPerBeam ues (el :: activeDl) = some ues') :
    sch.assignableDlRbgs ≠ 0 ∧ ∃ final : DlUes μ,
      final = (sch.assignDlLoop (symPerBeam el.1) sch.assignableDlRbgs.toNat
        (sch.dlStart (symPerBeam el.1) ues el.2)).ues ∧
      sch.assignDLRBG symPerBeam final activeDl = some ues' ∧
      (∀ ue ∈ el.2, ues' ue.1 = final ue.1) ∧
      ∀ rnti ∈ (activeDl.flatMap Prod.snd).map Prod.fst, final rnti = ues rnti := by
  rw [List.flatMap_cons, List.map_append] at hKeys
  have hApart := List.disjoint_of_nodup_append hKeys
  rw [assignDLRBG] at h
  split at h
  · cases h
  · next hAssignable =>
    refine ⟨hAssignable, _, rfl, h, fun ue hUe => ?_, fun rnti hMem => ?_⟩
    · exact assignDLRBG_frame sch h fun hRest => hApart (List.mem_map_of_mem hUe) hRest
    · have hNot : rnti ∉ el.2.map Prod.fst := fun hOwn => hApart hOwn hMem
      refine (sch.assignDlLoop_frame (fun ue hUe => List.mem_map_of_mem hUe) hNot).trans ?_
      exact updateDlMetrics_of_notMem hNot

/-- Beam by beam: the users of each hold at most its RBGs, over all of its symbols. -/
theorem assignDLRBG_spec {symPerBeam : UInt16 → UInt32} {activeDl : ActiveUeMap} {ues ues' : DlUes μ}
    (hFits : ∀ beam ∈ activeDl,
      sch.assignableDlRbgs.toNat * (symPerBeam beam.1).toNat < 2 ^ 32)
    (hNodup : (activeDl.flatMap fun beam => beam.2.map Prod.fst).Nodup)
    (hFresh : ∀ rnti ∈ activeDl.flatMap fun beam => beam.2.map Prod.fst, (ues rnti).dlRBG = 0)
    (h : sch.assignDLRBG symPerBeam ues activeDl = some ues') :
    (∀ beam ∈ activeDl, ∃ granted ≤ sch.assignableDlRbgs.toNat,
      DlHolds (symPerBeam beam.1) (beam.2.map Prod.fst) ues' granted) ∧
      ∀ rnti ∉ activeDl.flatMap fun beam => beam.2.map Prod.fst,
        (ues' rnti).dlRBG = (ues rnti).dlRBG := by
  induction activeDl generalizing ues with
  | nil =>
    cases h
    exact ⟨fun beam hMem => absurd hMem List.not_mem_nil, fun _ _ => rfl⟩
  | cons el activeDl ih =>
    rw [assignDLRBG] at h
    split at h
    · cases h
    · rw [List.flatMap_cons] at hNodup hFresh
      obtain ⟨hBeamNodup, hRestNodup, hApart⟩ := List.nodup_append'.mp hNodup
      obtain ⟨hElFits, hRestFits⟩ := List.forall_mem_cons.mp hFits
      let start : DlBeamState μ :=
        { ues := updateDlMetrics (sch.dlPolicy.beforeDlSched
            (ftResources (symPerBeam el.1 * symPerBeam el.1) (symPerBeam el.1))) ues el.2
          ueVector := el.2
          assigned := ftResources 0 0 }
      have hStart : ∀ rnti, (start.ues rnti).dlRBG = (ues rnti).dlRBG :=
        fun rnti => updateDlMetrics_dlRBG _ _ _ _
      have hNone : ∀ rnti ∈ el.2.map Prod.fst, (ues rnti).dlRBG = 0 :=
        fun rnti hMem => hFresh rnti (List.mem_append_left _ hMem)
      have hFitsStart : (0 + sch.assignableDlRbgs.toNat) * (symPerBeam el.1).toNat < 2 ^ 32 := by
        rw [Nat.zero_add]
        exact hElFits
      have hStartHolds : DlHolds (symPerBeam el.1) (el.2.map Prod.fst) start.ues 0 :=
        (holdsNone hNone).congr fun rnti _ => hStart rnti
      obtain ⟨⟨granted, hLe, hHolds⟩, hOthers⟩ :=
        sch.assignDlLoop_spec hStartHolds hBeamNodup (fun ue hMem => List.mem_map_of_mem hMem)
          hFitsStart
      rw [Nat.zero_add] at hLe
      obtain ⟨hBeams, hFrame⟩ := ih hRestFits hRestNodup (fun rnti hMem => by
        rw [hOthers rnti fun hIn => hApart hIn hMem, hStart]
        exact hFresh rnti (List.mem_append_right _ hMem)) h
      constructor
      · refine List.forall_mem_cons.mpr ⟨⟨granted, hLe, hHolds.congr fun rnti hMem => ?_⟩, hBeams⟩
        exact hFrame rnti fun hIn => hApart hMem hIn
      · intro rnti hNot
        rw [List.flatMap_cons, List.mem_append, not_or] at hNot
        rw [hFrame rnti hNot.2, hOthers rnti hNot.1, hStart]

end OfdmaNewData
end Bullet.Mac
