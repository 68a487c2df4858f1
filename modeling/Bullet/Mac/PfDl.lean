import Mathlib.Algebra.Order.Field.Rat
import Bullet.Lib.PointUpdates
import Bullet.Mac.DlShares
import Bullet.Mac.SlotSteps

/-! # The averages of PF after the assignment of DL RBGs

Each RBG that is given to a user of a beam updates the averages of all its users. What comes after the
last one clears streams only.
-/

namespace Bullet.Mac

open Lib.PointUpdates

/-- The bytes of all streams, as the code adds them up. -/
def streamBytes (l : List UInt32) : UInt32 := l.foldl (· + ·) 0

theorem streamBytes_of_empty {l : List UInt32} (h : ∀ tbs ∈ l, tbs = 0) : streamBytes l = 0 := by
  induction l with
  | nil => rfl
  | cons tbs l ih =>
    obtain ⟨hHead, hTail⟩ := List.forall_mem_cons.mp h
    rw [streamBytes, List.foldl_cons, hHead]
    exact ih hTail

/-- Some of the streams are cleared. -/
def Cleared (found l : List UInt32) : Prop :=
  ∀ stream : ℕ, l[stream]? = found[stream]? ∨ l[stream]? = found[stream]?.map fun _ => 0

theorem Cleared.refl (l : List UInt32) : Cleared l l := fun _ => Or.inl rfl

theorem Cleared.trans {found l l' : List UInt32} (h : Cleared found l) (h' : Cleared l l') :
    Cleared found l' := by
  intro stream
  rcases h' stream with hSame | hZero
  · rw [hSame]
    exact h stream
  · rcases h stream with hSame' | hZero'
    · rw [hZero, hSame']
      exact Or.inr rfl
    · rw [hZero, hZero', Option.map_map]
      exact Or.inr rfl

theorem Cleared.length_eq {found l : List UInt32} (h : Cleared found l) :
    l.length = found.length := by
  have hNone : ∀ stream : ℕ, l[stream]? = none ↔ found[stream]? = none := by
    intro stream
    rcases h stream with hSame | hZero
    · rw [hSame]
    · rw [hZero, Option.map_eq_none_iff]
  refine Nat.le_antisymm ?_ ?_
  · exact List.getElem?_eq_none_iff.mp ((hNone _).mpr (List.getElem?_eq_none (Nat.le_refl _)))
  · exact List.getElem?_eq_none_iff.mp ((hNone _).mp (List.getElem?_eq_none (Nat.le_refl _)))

theorem cleared_trimStreams (buf : UInt32) (l : List UInt32) : Cleared l (trimStreams buf l) := by
  intro stream
  induction l generalizing buf stream with
  | nil => exact Or.inl rfl
  | cons tbs l ih =>
    rw [trimStreams]
    split <;> cases stream
    · exact Or.inr rfl
    · exact ih _ _
    · exact Or.inl rfl
    · exact ih _ _

theorem cleared_sentStreams (l : List UInt32) : Cleared l (sentStreams l) := by
  intro stream
  rw [sentStreams, List.getElem?_map]
  cases l[stream]? with
  | none => exact Or.inl rfl
  | some tbs =>
    rw [Option.map_some]
    split
    · exact Or.inr rfl
    · exact Or.inl rfl

/-- The report of the user. -/
def DlUeInfo.cqi (ue : DlUeInfo NrMacSchedulerUeInfoPF) : DlCqiInfo := ue.metric.other.dlCqi

/-- The user before or between updates: of its streams, two at most, those that no update writes are
empty. -/
structure DlUeInfo.Pending (prev : ℚ) (ue : DlUeInfo NrMacSchedulerUeInfoPF) : Prop where
  lastAvg : ue.metric.other.dl.lastAvgTput = prev
  twoStreams : ue.metric.dlTbSize.length ≤ 2
  unwritten : ∀ stream : ℕ, NrAmc.dlStreams ue.cqi ue ≤ stream →
    (ue.metric.dlTbSize[stream]?).getD 0 = 0

/-- The average of the user is the one of the TB sizes for its RBGs over `sym` symbols, of which some
streams may be cleared since, but not the only one. -/
structure DlUeInfo.Averaged (amc : NrAmc) (timeWindow prev : ℚ) (sym : UInt8)
    (ue : DlUeInfo NrMacSchedulerUeInfoPF) : Prop extends ue.Pending prev where
  avg : ue.metric.other.dl.avgTput = PfTput.average timeWindow prev
    ((streamBytes (amc.updateDlMetric ue.cqi ue)).toNat / sym.toNat)
  cleared : Cleared (amc.updateDlMetric ue.cqi ue) ue.metric.dlTbSize
  single : ue.metric.dlTbSize.length = 1 → ue.metric.dlTbSize = amc.updateDlMetric ue.cqi ue

section Users

variable {amc : NrAmc} {timeWindow prev : ℚ} {sym : UInt8} {ue : DlUeInfo NrMacSchedulerUeInfoPF}

/-- Clearing a stream does not change what an update finds. -/
theorem updateDlMetric_of_cleared {metric : DlMetric NrMacSchedulerUeInfoPF}
    (h : ue.Pending prev) (hCleared : Cleared ue.metric.dlTbSize metric.dlTbSize) :
    amc.updateDlMetric ue.cqi { ue with metric := metric } = amc.updateDlMetric ue.cqi ue := by
  refine List.ext_getElem? fun stream => ?_
  rw [NrAmc.getElem?_updateDlMetric, NrAmc.getElem?_updateDlMetric]
  change metric.dlTbSize[stream]?.map (fun tbSize =>
    if ue.dlRBG = 0 then 0
    else if stream < NrAmc.dlStreams ue.cqi ue then amc.dlStreamSize ue.cqi ue stream
    else tbSize) = _
  have hUnwritten := h.unwritten stream
  rcases hCleared stream with hSame | hZero
  · rw [hSame]
  · rw [hZero]
    cases hSize : ue.metric.dlTbSize[stream]? with
    | none => rfl
    | some tbSize =>
      rw [hSize, Option.getD_some] at hUnwritten
      simp only [Option.map_some]
      split
      · rfl
      · split
        · rfl
        · next hBeyond => rw [hUnwritten (Nat.le_of_not_lt hBeyond)]

theorem Pending.of_cleared {metric : DlMetric NrMacSchedulerUeInfoPF} (h : ue.Pending prev)
    (hCqi : metric.other.dlCqi = ue.cqi)
    (hLast : metric.other.dl.lastAvgTput = ue.metric.other.dl.lastAvgTput)
    (hCleared : Cleared ue.metric.dlTbSize metric.dlTbSize) :
    DlUeInfo.Pending prev { ue with metric := metric } where
  lastAvg := hLast.trans h.lastAvg
  twoStreams := hCleared.length_eq.trans_le h.twoStreams
  unwritten stream hBeyond := by
    change (metric.dlTbSize[stream]?).getD 0 = 0
    have hStreams : NrAmc.dlStreams ue.cqi ue ≤ stream := by
      rw [← hCqi]
      exact hBeyond
    have hUnwritten := h.unwritten stream hStreams
    rcases hCleared stream with hSame | hZero
    · rw [hSame]
      exact hUnwritten
    · rw [hZero]
      cases ue.metric.dlTbSize[stream]? <;> rfl

theorem DlUeInfo.Averaged.of_cleared {metric : DlMetric NrMacSchedulerUeInfoPF}
    (h : ue.Averaged amc timeWindow prev sym) (hOther : metric.other = ue.metric.other)
    (hCleared : Cleared ue.metric.dlTbSize metric.dlTbSize)
    (hSingle : metric.dlTbSize.length = 1 → metric.dlTbSize = ue.metric.dlTbSize) :
    DlUeInfo.Averaged amc timeWindow prev sym { ue with metric := metric } := by
  have hCqi : DlUeInfo.cqi { ue with metric := metric } = ue.cqi :=
    congrArg NrMacSchedulerUeInfoPF.dlCqi hOther
  have hFound : amc.updateDlMetric ue.cqi { ue with metric := metric } =
      amc.updateDlMetric ue.cqi ue := updateDlMetric_of_cleared h.toPending hCleared
  refine ⟨Pending.of_cleared h.toPending hCqi (by rw [hOther]) hCleared, ?_, ?_, fun hOne => ?_⟩
  · rw [hCqi, hFound, ← h.avg]
    exact congrArg (fun other => other.dl.avgTput) hOther
  · rw [hCqi, hFound]
    exact h.cleared.trans hCleared
  · have hSame := hSingle hOne
    rw [hCqi, hFound]
    exact hSame.trans (h.single ((congrArg List.length hSame).symm.trans hOne))

/-- An update of a user by PF. -/
def DlUeInfo.pfUpdate (amc : NrAmc) (timeWindow : ℚ) (totAssigned : PointInFTPlane)
    (ue : DlUeInfo NrMacSchedulerUeInfoPF) : DlUeInfo NrMacSchedulerUeInfoPF :=
  { ue with metric := amc.updateDlPFMetric timeWindow totAssigned ue }

theorem updateDlMetric_pfUpdate (totAssigned : PointInFTPlane) :
    amc.updateDlMetric ue.cqi (ue.pfUpdate amc timeWindow totAssigned) =
      amc.updateDlMetric ue.cqi ue :=
  NrAmc.updateDlMetric_updated rfl

theorem averaged_pfUpdate (h : ue.Pending prev) (totAssigned : PointInFTPlane) :
    (ue.pfUpdate amc timeWindow totAssigned).Averaged amc timeWindow prev totAssigned.sym where
  lastAvg := h.lastAvg
  twoStreams := List.length_mapIdx.trans_le h.twoStreams
  unwritten stream hBeyond := by
    have hStreams : NrAmc.dlStreams ue.cqi ue ≤ stream := hBeyond
    have hUnwritten := h.unwritten stream hStreams
    change ((amc.updateDlMetric ue.cqi ue)[stream]?).getD 0 = 0
    rw [NrAmc.getElem?_updateDlMetric]
    cases hSize : ue.metric.dlTbSize[stream]? with
    | none => rfl
    | some tbSize =>
      rw [hSize, Option.getD_some] at hUnwritten
      rw [Option.map_some, Option.getD_some]
      split
      · rfl
      · rw [if_neg (Nat.not_lt.mpr hStreams)]
        exact hUnwritten
  avg := by
    rw [← h.lastAvg]
    change PfTput.average timeWindow ue.metric.other.dl.lastAvgTput _ =
      PfTput.average timeWindow _ ((streamBytes (amc.updateDlMetric ue.cqi
        (ue.pfUpdate amc timeWindow totAssigned))).toNat / totAssigned.sym.toNat)
    rw [updateDlMetric_pfUpdate]
    rfl
  cleared := by
    change Cleared (amc.updateDlMetric ue.cqi (ue.pfUpdate amc timeWindow totAssigned))
      (amc.updateDlMetric ue.cqi ue)
    rw [updateDlMetric_pfUpdate]
    exact Cleared.refl _
  single _ := (updateDlMetric_pfUpdate totAssigned).symm

theorem pending_potential (h : ue.Pending prev) (p : PointInFTPlane) :
    DlUeInfo.Pending prev { ue with metric := amc.calculatePotentialTPutDl p ue } :=
  Pending.of_cleared h rfl rfl (Cleared.refl _)

/-- A user without bytes is ready for the updates of a slot. -/
theorem pending_of_empty (hEmpty : ∀ tbs ∈ ue.metric.dlTbSize, tbs = 0)
    (hTwo : ue.metric.dlTbSize.length ≤ 2) : ue.Pending ue.metric.other.dl.lastAvgTput where
  lastAvg := rfl
  twoStreams := hTwo
  unwritten stream _ := by
    cases hSize : ue.metric.dlTbSize[stream]? with
    | none => rfl
    | some tbs => exact hEmpty tbs (List.mem_of_getElem? hSize)

/-- A pass over the user clears some of its streams if there are several. -/
theorem DlUeInfo.Averaged.pass (h : ue.Averaged amc timeWindow prev sym) (buf : UInt32) :
    DlUeInfo.Averaged amc timeWindow prev sym { ue with
      metric.dlTbSize :=
        if 1 < ue.metric.dlTbSize.length then trimStreams buf ue.metric.dlTbSize
        else ue.metric.dlTbSize } := by
  split
  · next hMore =>
    refine h.of_cleared rfl (cleared_trimStreams buf _) fun hOne => absurd hMore ?_
    rw [← (cleared_trimStreams buf ue.metric.dlTbSize).length_eq]
    exact Nat.not_lt.mpr hOne.le
  · exact h

end Users

/-! ## What is left of the average when the DCIs are there -/

/-- The average of the user is the right one for what is sent, or falls back to the one before. -/
def DlUeInfo.KeepsHistory (timeWindow prev : ℚ) (sym : UInt8)
    (ue : DlUeInfo NrMacSchedulerUeInfoPF) : Prop :=
  ue.Discarded ∨ ue.metric.other.dl.avgTput = PfTput.average timeWindow prev
    ((streamBytes (sentStreams ue.metric.dlTbSize)).toNat / sym.toNat)

/-- What is sent is what the last update found: no stream with bytes was cleared or dropped. -/
def DlUeInfo.SendsAll (amc : NrAmc) (ue : DlUeInfo NrMacSchedulerUeInfoPF) : Prop :=
  ue.Discarded ∨ sentStreams ue.metric.dlTbSize = amc.updateDlMetric ue.cqi ue

theorem average_inj {timeWindow prev a b : ℚ} {sym : UInt8} (hWindow : timeWindow ≠ 0)
    (hSym : sym ≠ 0) :
    PfTput.average timeWindow prev (a / sym.toNat) =
      PfTput.average timeWindow prev (b / sym.toNat) ↔ a = b := by
  have hCast : (sym.toNat : ℚ) ≠ 0 := by
    rw [Nat.cast_ne_zero]
    exact fun hZero => hSym (UInt8.toNat_inj.mp hZero)
  rw [PfTput.average, PfTput.average, add_right_inj,
    mul_right_inj' (one_div_ne_zero hWindow), div_left_inj' hCast]

/-- With at most two streams, of which one is sent, all bytes are sent only if no stream is cleared. -/
theorem streamBytes_inj {found sent : List UInt32} (hCleared : Cleared found sent)
    (hLength : found.length = sent.length) (hTwo : found.length ≤ 2)
    (hSent : ∃ stream : ℕ, ∃ tbs ≠ 0, sent[stream]? = some tbs) :
    streamBytes sent = streamBytes found ↔ sent = found := by
  refine ⟨fun hBytes => ?_, fun hSame => congrArg streamBytes hSame⟩
  have hFirst := hCleared 0
  have hSecond := hCleared 1
  obtain ⟨stream, tbs, hTbs, hStream⟩ := hSent
  match found, sent, hLength, hTwo with
  | [], [], _, _ => rfl
  | [f], [a], _, _ =>
    simp [streamBytes] at hBytes
    rw [hBytes]
  | [f, g], [a, b], _, _ =>
    simp at hFirst hSecond
    simp [streamBytes] at hBytes
    rcases hFirst with rfl | rfl <;> rcases hSecond with rfl | rfl
    · rfl
    · rw [(UInt32.add_right_inj _).mp hBytes]
    · rw [(UInt32.add_left_inj _).mp hBytes]
    · exfalso
      match stream with
      | 0 => exact hTbs (Option.some_inj.mp hStream).symm
      | 1 => exact hTbs (Option.some_inj.mp hStream).symm
      | _ + 2 => cases hStream

section Sent

variable {amc : NrAmc} {timeWindow prev : ℚ} {sym : UInt8} {ue : DlUeInfo NrMacSchedulerUeInfoPF}

/-- Without RBGs there is nothing to find and nothing to send. -/
theorem sentStreams_of_none (hCleared : Cleared (amc.updateDlMetric ue.cqi ue) ue.metric.dlTbSize)
    (hNone : ue.dlRBG = 0) : sentStreams ue.metric.dlTbSize = amc.updateDlMetric ue.cqi ue := by
  refine List.ext_getElem? fun stream => ?_
  have hStream := hCleared stream
  rw [NrAmc.getElem?_updateDlMetric] at hStream ⊢
  simp only [if_pos hNone] at hStream ⊢
  rw [sentStreams, List.getElem?_map]
  cases hSize : ue.metric.dlTbSize[stream]? with
  | none => rfl
  | some tbs =>
    rw [hSize] at hStream
    have hZero : tbs = 0 := by
      rcases hStream with hSame | hZero
      · exact Option.some_inj.mp hSame
      · exact Option.some_inj.mp hZero
    rw [hZero]
    rfl

/-- A user with a single stream sends all that was found. -/
theorem DlUeInfo.Averaged.sendsAll (h : ue.Averaged amc timeWindow prev sym)
    (hSingle : ue.metric.dlTbSize.length = 1) : ue.SendsAll amc := by
  rcases eq_or_ne ue.dlRBG 0 with hNone | hSome
  · exact Or.inr (sentStreams_of_none h.cleared hNone)
  · obtain ⟨tbs, hSize⟩ := List.length_eq_one_iff.mp hSingle
    have hFound := h.single hSingle
    rw [hSize] at hFound
    by_cases hSmall : tbs < 10
    · refine Or.inl ⟨hSome, ?_⟩
      rw [hSize]
      simp [hSmall]
    · refine Or.inr ?_
      rw [← hFound, hSize]
      simp [sentStreams, hSmall]

/-- Over two streams at most, the average is right exactly when all that was found is sent. -/
theorem DlUeInfo.Averaged.keepsHistory_iff (h : ue.Averaged amc timeWindow prev sym)
    (hWindow : timeWindow ≠ 0) (hSym : sym ≠ 0) :
    ue.KeepsHistory timeWindow prev sym ↔ ue.SendsAll amc := by
  rw [DlUeInfo.KeepsHistory, DlUeInfo.SendsAll, h.avg, average_inj hWindow hSym, Nat.cast_inj,
    UInt32.toNat_inj]
  by_cases hDiscarded : ue.Discarded
  · exact iff_of_true (Or.inl hDiscarded) (Or.inl hDiscarded)
  · rw [or_iff_right hDiscarded, or_iff_right hDiscarded]
    rcases eq_or_ne ue.dlRBG 0 with hNone | hSome
    · have hSame := sentStreams_of_none h.cleared hNone
      exact iff_of_true (congrArg streamBytes hSame.symm) hSame
    · have hFoundLength : (amc.updateDlMetric ue.cqi ue).length = ue.metric.dlTbSize.length :=
        List.length_mapIdx
      have hSentLength : (sentStreams ue.metric.dlTbSize).length = ue.metric.dlTbSize.length :=
        List.length_map _
      rw [eq_comm]
      refine streamBytes_inj (h.cleared.trans (cleared_sentStreams _))
        (hFoundLength.trans hSentLength.symm) (hFoundLength.trans_le h.twoStreams) ?_
      have hLarge : ¬ ∀ tbs ∈ ue.metric.dlTbSize, tbs < 10 := by
        intro hAll
        refine hDiscarded ⟨hSome, List.all_eq_true.mpr fun tbs hMem => ?_⟩
        exact decide_eq_true (hAll tbs hMem)
      simp only [not_forall] at hLarge
      obtain ⟨tbs, hMem, hTen⟩ := hLarge
      obtain ⟨stream, hStream⟩ := List.mem_iff_getElem?.mp hMem
      refine ⟨stream, tbs, ?_, ?_⟩
      · rintro rfl
        exact hTen (by decide)
      · rw [sentStreams, List.getElem?_map, hStream, Option.map_some, if_neg hTen]

end Sent

/-! ## OFDMA -/

namespace OfdmaNewData

variable {sch : OfdmaNewData NrMacSchedulerUeInfoPF} {amc : NrAmc} {timeWindow : ℚ}
  {beamSym : UInt32} {ues : DlUes NrMacSchedulerUeInfoPF} {beam : List UePtrAndBufferReq}
  {s : DlBeamState NrMacSchedulerUeInfoPF} {prev : UInt16 → ℚ}

/-- The users of the beam before or between updates. -/
structure DlPending (beam : List UePtrAndBufferReq) (prev : UInt16 → ℚ)
    (s : DlBeamState NrMacSchedulerUeInfoPF) : Prop where
  vector : s.ueVector.Perm beam
  pending : ∀ rnti ∈ beam.map Prod.fst, (s.ues rnti).Pending (prev rnti)

/-- The users of the beam after an update. -/
structure DlUpdated (amc : NrAmc) (timeWindow : ℚ) (beamSym : UInt32)
    (beam : List UePtrAndBufferReq) (prev : UInt16 → ℚ) (s : DlBeamState NrMacSchedulerUeInfoPF) :
    Prop where
  vector : s.ueVector.Perm beam
  averaged : ∀ rnti ∈ beam.map Prod.fst,
    (s.ues rnti).Averaged amc timeWindow (prev rnti) beamSym.toUInt8

theorem DlUpdated.pending (h : DlUpdated amc timeWindow beamSym beam prev s) :
    DlPending beam prev s :=
  ⟨h.vector, fun rnti hMem => (h.averaged rnti hMem).toPending⟩

/-- An RBG that is given updates every user of the beam. -/
theorem awardDl_updated (hPf : sch.dlPolicy = amc.pfDlPolicy timeWindow sch.dlPolicy)
    (hNodup : (beam.map Prod.fst).Nodup) (h : DlPending beam prev s) (rnti : UInt16) :
    DlUpdated amc timeWindow beamSym beam prev (sch.awardDl beamSym rnti s) where
  vector := h.vector
  averaged rnti' hMem := by
    let granted : DlUes NrMacSchedulerUeInfoPF := modifyAt
      (fun ue => { ue with dlRBG := ue.dlRBG + beamSym, dlSym := beamSym.toUInt8 }) s.ues rnti
    let totAssigned : PointInFTPlane :=
      { rbg := s.assigned.rbg + beamSym, sym := beamSym.toUInt8 }
    have hAward : (sch.awardDl beamSym rnti s).ues =
        modifyAll (DlUeInfo.pfUpdate amc timeWindow totAssigned)
          (modifyAt (DlUeInfo.pfUpdate amc timeWindow totAssigned) granted rnti)
          (s.ueVector.filter fun ue => ue.1 ≠ rnti) := by
      rw [awardDl, hPf]
      rfl
    have hGranted : (granted rnti').Pending (prev rnti') := by
      have hPending := h.pending rnti' hMem
      rcases eq_or_ne rnti' rnti with rfl | hNe
      · have hSelf : granted rnti' = _ := modifyAt_self _ _ _
        rw [hSelf]
        exact ⟨hPending.lastAvg, hPending.twoStreams, hPending.unwritten⟩
      · have hOther : granted rnti' = s.ues rnti' := modifyAt_of_ne _ _ hNe
        rw [hOther]
        exact hPending
    have hUpdated : (sch.awardDl beamSym rnti s).ues rnti' =
        (granted rnti').pfUpdate amc timeWindow totAssigned := by
      rw [hAward]
      exact modifyAll_others hNodup h.vector hMem
    rw [hUpdated]
    exact averaged_pfUpdate hGranted totAssigned

/-- A pass keeps what clearing a stream keeps. -/
theorem firstUncoveredDl_induction {P : UInt16 → DlUeInfo NrMacSchedulerUeInfoPF → Prop}
    (hPass : ∀ rnti ue buf, P rnti ue → P rnti { ue with
      metric.dlTbSize :=
        if 1 < ue.metric.dlTbSize.length then trimStreams buf ue.metric.dlTbSize
        else ue.metric.dlTbSize })
    (h : ∀ rnti, P rnti (ues rnti)) (l : List UePtrAndBufferReq) (rnti : UInt16) :
    P rnti ((firstUncoveredDl ues l).1 rnti) := by
  induction l generalizing ues with
  | nil => exact h rnti
  | cons ue l ih =>
    rw [firstUncoveredDl]
    split
    · refine ih fun rnti' => ?_
      have hSelf := hPass _ _ ue.2 (h ue.1)
      split
      · next hMore =>
        rw [if_pos hMore] at hSelf
        rw [setDlMetric]
        rcases eq_or_ne rnti' ue.1 with rfl | hNe
        · rw [Function.update_self]
          exact hSelf
        · rw [Function.update_of_ne hNe]
          exact h rnti'
      · exact h rnti'
    · exact h rnti

/-- A round starts by sorting the users and passing over those that are covered. -/
def passed (sch : OfdmaNewData NrMacSchedulerUeInfoPF) (s : DlBeamState NrMacSchedulerUeInfoPF) :
    DlBeamState NrMacSchedulerUeInfoPF :=
  { s with
    ues := (firstUncoveredDl s.ues (sch.dlPolicy.sort s.ues s.ueVector)).1
    ueVector := sch.dlPolicy.sort s.ues s.ueVector }

theorem passed_updated (h : DlUpdated amc timeWindow beamSym beam prev s) :
    DlUpdated amc timeWindow beamSym beam prev (sch.passed s) where
  vector := (sch.dlPolicy.sort_perm _ _).trans h.vector
  averaged := by
    intro rnti hMem
    refine firstUncoveredDl_induction (P := fun rnti ue => rnti ∈ beam.map Prod.fst →
      ue.Averaged amc timeWindow (prev rnti) beamSym.toUInt8) ?_ h.averaged _ rnti hMem
    exact fun rnti ue buf hAveraged hIn => (hAveraged hIn).pass buf

theorem assignDlLoop_updated {n : ℕ} (hPf : sch.dlPolicy = amc.pfDlPolicy timeWindow sch.dlPolicy)
    (hNodup : (beam.map Prod.fst).Nodup) (h : DlUpdated amc timeWindow beamSym beam prev s) :
    DlUpdated amc timeWindow beamSym beam prev (sch.assignDlLoop beamSym n s) := by
  induction n generalizing s with
  | zero => exact h
  | succ n ih =>
    rw [assignDlLoop]
    split
    · exact passed_updated h
    · exact ih (awardDl_updated hPf hNodup (passed_updated h).pending _)

theorem dlCovered_of_empty {ue : DlUeInfo NrMacSchedulerUeInfoPF} (buf : UInt32)
    (h : ∀ tbs ∈ ue.metric.dlTbSize, tbs = 0) : dlCovered ue buf = false := by
  have hBytes : ue.metric.dlTbSize.foldl (· + ·) 0 = 0 := streamBytes_of_empty h
  rw [dlCovered, hBytes]
  exact decide_eq_false (not_max_le_zero buf (by decide))

/-- From users without bytes the loop updates them at least once. -/
theorem assignDlLoop_of_empty {n : ℕ} (hPf : sch.dlPolicy = amc.pfDlPolicy timeWindow sch.dlPolicy)
    (hNodup : (beam.map Prod.fst).Nodup) (hUsers : beam ≠ []) (hRounds : 0 < n)
    (h : DlPending beam prev s)
    (hEmpty : ∀ rnti ∈ beam.map Prod.fst, ∀ tbs ∈ (s.ues rnti).metric.dlTbSize, tbs = 0) :
    DlUpdated amc timeWindow beamSym beam prev (sch.assignDlLoop beamSym n s) := by
  obtain ⟨n, rfl⟩ : ∃ k, n = k + 1 := Nat.exists_eq_succ_of_ne_zero hRounds.ne'
  have hSorted := (sch.dlPolicy.sort_perm s.ues s.ueVector).trans h.vector
  rw [assignDlLoop]
  cases hList : sch.dlPolicy.sort s.ues s.ueVector with
  | nil =>
    rw [hList] at hSorted
    exact absurd hSorted.nil_eq.symm hUsers
  | cons ue l =>
    rw [hList] at hSorted
    have hMem := List.mem_map_of_mem (f := Prod.fst) (hSorted.subset List.mem_cons_self)
    rw [firstUncoveredDl, dlCovered_of_empty ue.2 (hEmpty ue.1 hMem)]
    have hPending : DlPending beam prev { s with ueVector := ue :: l } := ⟨hSorted, h.pending⟩
    exact assignDlLoop_updated hPf hNodup (awardDl_updated hPf hNodup hPending ue.1)

/-- The slot starts with the streams of the users as they are, and so ready for updates. -/
theorem dlStart_carried (hPf : sch.dlPolicy = amc.pfDlPolicy timeWindow sch.dlPolicy)
    (beamSym : UInt32) (ues : DlUes NrMacSchedulerUeInfoPF) (beam : List UePtrAndBufferReq)
    (rnti : UInt16) :
    ((sch.dlStart beamSym ues beam).ues rnti).metric.dlTbSize = (ues rnti).metric.dlTbSize ∧
      ∀ prev, (ues rnti).Pending prev → ((sch.dlStart beamSym ues beam).ues rnti).Pending prev := by
  rw [dlStart, hPf]
  refine modifyAll_induction
    (g := fun ue : DlUeInfo NrMacSchedulerUeInfoPF =>
      { ue with metric := amc.calculatePotentialTPutDl (ftResources (beamSym * beamSym) beamSym) ue })
    (P := fun rnti (ue : DlUeInfo NrMacSchedulerUeInfoPF) =>
      ue.metric.dlTbSize = (ues rnti).metric.dlTbSize ∧
        ∀ prev, (ues rnti).Pending prev → ue.Pending prev)
    ?_ (fun _ => ⟨rfl, fun _ hPending => hPending⟩) rnti
  rintro rnti ue ⟨hSizes, hPending⟩
  exact ⟨hSizes, fun prev hStart => pending_potential (hPending prev hStart) _⟩

theorem assignDlLoop_averaged (hPf : sch.dlPolicy = amc.pfDlPolicy timeWindow sch.dlPolicy)
    (hAssignable : sch.assignableDlRbgs ≠ 0) (hKeys : (beam.map Prod.fst).Nodup)
    (hEmpty : ∀ rnti ∈ beam.map Prod.fst, (∀ tbs ∈ (ues rnti).metric.dlTbSize, tbs = 0) ∧
      (ues rnti).metric.dlTbSize.length ≤ 2)
    {rnti : UInt16} (hMem : rnti ∈ beam.map Prod.fst) :
    ((sch.assignDlLoop beamSym sch.assignableDlRbgs.toNat
      (sch.dlStart beamSym ues beam)).ues rnti).Averaged amc timeWindow
        (ues rnti).metric.other.dl.lastAvgTput beamSym.toUInt8 := by
  have hUsers : beam ≠ [] := by
    rintro rfl
    cases hMem
  have hRounds : 0 < sch.assignableDlRbgs.toNat :=
    Nat.pos_of_ne_zero fun hZero => hAssignable (UInt32.toNat_inj.mp hZero)
  have hPending : DlPending beam (fun rnti => (ues rnti).metric.other.dl.lastAvgTput)
      (sch.dlStart beamSym ues beam) :=
    ⟨List.Perm.refl _, fun rnti hIn =>
      (dlStart_carried hPf beamSym ues beam rnti).2 _
        (pending_of_empty (hEmpty rnti hIn).1 (hEmpty rnti hIn).2)⟩
  have hNone : ∀ rnti ∈ beam.map Prod.fst,
      ∀ tbs ∈ ((sch.dlStart beamSym ues beam).ues rnti).metric.dlTbSize, tbs = 0 := by
    intro rnti hIn
    rw [(dlStart_carried hPf beamSym ues beam rnti).1]
    exact (hEmpty rnti hIn).1
  exact (assignDlLoop_of_empty hPf hKeys hUsers hRounds hPending hNone).averaged rnti hMem

/-- Beam by beam the users are updated over the symbols of their beam. -/
theorem assignDLRBG_averaged {symPerBeam : UInt16 → UInt32} {activeDl : ActiveUeMap}
    {ues' : DlUes NrMacSchedulerUeInfoPF}
    (hPf : sch.dlPolicy = amc.pfDlPolicy timeWindow sch.dlPolicy)
    (hNodup : ((activeDl.flatMap Prod.snd).map Prod.fst).Nodup)
    (hEmpty : ∀ rnti ∈ (activeDl.flatMap Prod.snd).map Prod.fst,
      (∀ tbs ∈ (ues rnti).metric.dlTbSize, tbs = 0) ∧ (ues rnti).metric.dlTbSize.length ≤ 2)
    (h : sch.assignDLRBG symPerBeam ues activeDl = some ues') :
    ∀ el ∈ activeDl, ∀ ue ∈ el.2, (ues' ue.1).Averaged amc timeWindow
      (ues ue.1).metric.other.dl.lastAvgTput (symPerBeam el.1).toUInt8 := by
  induction activeDl generalizing ues with
  | nil => nofun
  | cons el activeDl ih =>
    obtain ⟨hAssignable, final, hFinal, hRest, hOwn, hLater⟩ := assignDLRBG_cons sch hNodup h
    rw [List.flatMap_cons, List.map_append] at hNodup hEmpty
    obtain ⟨hKeys, hRestKeys, -⟩ := List.nodup_append'.mp hNodup
    refine List.forall_mem_cons.mpr ⟨fun ue hUe => ?_, fun beam hBeam ue hUe => ?_⟩
    · rw [hOwn ue hUe, hFinal]
      exact assignDlLoop_averaged hPf hAssignable hKeys
        (fun rnti hMem => hEmpty rnti (List.mem_append_left _ hMem)) (List.mem_map_of_mem hUe)
    · have hMem : ue.1 ∈ (activeDl.flatMap Prod.snd).map Prod.fst :=
        List.mem_map_of_mem (List.mem_flatMap.mpr ⟨beam, hBeam, hUe⟩)
      have hRestEmpty : ∀ rnti ∈ (activeDl.flatMap Prod.snd).map Prod.fst,
          (∀ tbs ∈ (final rnti).metric.dlTbSize, tbs = 0) ∧
            (final rnti).metric.dlTbSize.length ≤ 2 := by
        intro rnti hIn
        rw [hLater rnti hIn]
        exact hEmpty rnti (List.mem_append_right _ hIn)
      rw [← hLater ue.1 hMem]
      exact ih hRestKeys hRestEmpty hRest beam hBeam ue hUe

end OfdmaNewData

end Bullet.Mac
