import Bullet.Mac.DlShares
import Bullet.Mac.UlDataDivisions

/-! # DL resource blocks from the assignment to the grants

`CreateDlDci` checks the RBGs of a user against the symbols and the bandwidth, and takes the next free
ones. The users of a beam hold at most what the beam has, so it finds free RBGs for all of them.
-/

namespace Bullet.Mac

open Lib.Bitmask Lib.Shares

variable {μ : Type}

/-- The TBS of some stream suffices for a DCI. -/
def DlUeInfo.Sends (ue : DlUeInfo μ) : Prop :=
  ue.metric.dlTbSize.all (· < 10) = false

instance (ue : DlUeInfo μ) : Decidable ue.Sends :=
  inferInstanceAs (Decidable (_ = _))

/-- What `ResetDlMetric` changes of the users in DL. -/
def MetricResets.resetDl (resets : MetricResets μ) (rnti : UInt16) (ues : DlUes μ) : DlUes μ :=
  setDlMetric ues rnti
    { dlTbSize := (ues rnti).metric.dlTbSize.map fun _ => 0
      other := resets.dlMetric (ues rnti).metric.other }

namespace OfdmaNewData

variable (sch : OfdmaNewData μ)

/-- The grants of a beam: `CreateDlDci` for each of its users that has RBGs. -/
def createDlDcis (maxSym : UInt32) : PointInFTPlane → DlUes μ → List UInt16 →
    Option (List DciInfoElementTdma × PointInFTPlane × DlUes μ)
  | spoint, ues, [] => some ([], spoint, ues)
  | spoint, ues, rnti :: l =>
    if (ues rnti).dlRBG = 0 then createDlDcis maxSym spoint ues l
    else do
      let (dci, spoint, ues) ← sch.createDlDci spoint rnti maxSym ues
      match dci with
      | none => createDlDcis maxSym spoint (sch.resets.resetDl rnti ues) l
      | some dci => do
        let (dcis, r) ← createDlDcis maxSym spoint ues l
        some (dci :: dcis, r)

/-- The DCI gives the user its RBGs, inside the bandwidth and the notching mask. -/
structure GrantsDlRbgs (ues : DlUes μ) (maxSym : UInt32) (sym : UInt8) (ue : UInt16)
    (dci : DciInfoElementTdma) : Prop where
  rnti : dci.rnti = ue
  numSym : dci.numSym.toNat = maxSym.toNat
  symStart : dci.symStart = sym
  count : dci.rbgBitmask.count 1 = ((ues ue).dlRBG / maxSym).toNat
  bandwidth : dci.rbgBitmask.length = sch.bandwidthInRbg.toNat
  notched : ∀ i : ℕ, dci.rbgBitmask[i]? = some 1 → Usable sch.dlNotchedRbgsMask i

section Mask

variable {sch}

theorem usable_of_dlRbgMask {i : ℕ} (h : sch.dlRbgMask[i]? = some 1) :
    Usable sch.dlNotchedRbgsMask i :=
  usable_of_mask h

theorem length_dlRbgMask
    (h : sch.dlNotchedRbgsMask = [] ∨ sch.dlNotchedRbgsMask.length = sch.bandwidthInRbg.toNat) :
    sch.dlRbgMask.length = sch.bandwidthInRbg.toNat :=
  length_mask h

theorem assignableDlRbgs_toNat
    (h : sch.dlNotchedRbgsMask = [] ∨ sch.dlNotchedRbgsMask.length = sch.bandwidthInRbg.toNat) :
    sch.assignableDlRbgs.toNat = sch.dlRbgMask.count 1 :=
  count_mask h

end Mask

section Grants

variable {sch} {ues dl : DlUes μ} {maxSym : UInt32} {spoint : PointInFTPlane}
  {rnti : UInt16}

/-- A user whose RBGs are free from the starting point on gets them, or its TBS is too small. -/
theorem createDlDci_spec (hMask : sch.dlRbgMask.length = sch.bandwidthInRbg.toNat)
    (hSym : 0 < maxSym.toNat) (hLt : maxSym.toNat < 2 ^ 8)
    (hMultiple : maxSym.toNat ∣ (ues rnti).dlRBG.toNat) (hSome : (ues rnti).dlRBG ≠ 0)
    (hFree : ((ues rnti).dlRBG / maxSym).toNat ≤ onesFrom spoint.rbg.toNat 0 sch.dlRbgMask) :
    ∃ metric, (¬ (ues rnti).Sends ∧
        sch.createDlDci spoint rnti maxSym ues = some (none, spoint, setDlMetric ues rnti metric)) ∨
      ((ues rnti).Sends ∧ ∃ dci q,
        sch.createDlDci spoint rnti maxSym ues =
          some (some dci, q, setDlMetric ues rnti metric) ∧
        sch.GrantsDlRbgs ues maxSym spoint.sym rnti dci ∧ q.sym = spoint.sym ∧
        spoint.rbg.toNat ≤ q.rbg.toNat ∧
        onesFrom q.rbg.toNat 0 sch.dlRbgMask + ((ues rnti).dlRBG / maxSym).toNat =
          onesFrom spoint.rbg.toNat 0 sch.dlRbgMask ∧
        ∀ i : ℕ, dci.rbgBitmask[i]? = some 1 → spoint.rbg.toNat ≤ i ∧ i < q.rbg.toNat) := by
  have hBw : sch.bandwidthInRbg.toNat < 2 ^ 16 := sch.bandwidthInRbg.toNat_lt
  have hRbgNum : ((ues rnti).dlRBG / maxSym).toNat = (ues rnti).dlRBG.toNat / maxSym.toNat :=
    UInt32.toNat_div ..
  have hPos : 0 < ((ues rnti).dlRBG / maxSym).toNat := by
    rw [hRbgNum]
    refine Nat.div_pos (Nat.le_of_dvd ?_ hMultiple) hSym
    exact Nat.pos_of_ne_zero fun hZero => hSome (UInt32.toNat_inj.mp hZero)
  have hInside : spoint.rbg.toNat < sch.bandwidthInRbg.toNat := by
    have hStart := start_lt_of_onesFrom_pos (Nat.lt_of_lt_of_le hPos hFree)
    rw [Nat.zero_add, hMask] at hStart
    exact hStart
  have hAtMost : ((ues rnti).dlRBG / maxSym).toNat ≤ sch.bandwidthInRbg.toNat := by
    rw [← hMask]
    exact hFree.trans onesFrom_le_length
  have hTaken := taken spoint.rbg.toNat (show (1 : UInt8) ≠ 0 by decide) hPos hFree
  have hSymNe : maxSym ≠ 0 := by
    rintro rfl
    exact Nat.lt_irrefl 0 hSym
  have hChecks : ¬ ((ues rnti).dlRBG % maxSym ≠ 0 ∨
      maxSym * sch.bandwidthInRbg.toUInt32 < (ues rnti).dlRBG ∨
      sch.bandwidthInRbg.toUInt32 ≤ spoint.rbg ∨ 255 < maxSym) := by
    rintro (hRest | hMany | hOutside | hLong)
    · apply hRest
      apply UInt32.toNat_inj.mp
      rw [UInt32.toNat_mod]
      exact Nat.mod_eq_zero_of_dvd hMultiple
    · have hProduct : (maxSym * sch.bandwidthInRbg.toUInt32).toNat =
          maxSym.toNat * sch.bandwidthInRbg.toNat := by
        rw [UInt32.toNat_mul, UInt16.toNat_toUInt32]
        exact Nat.mod_eq_of_lt ((Nat.mul_lt_mul'' hLt hBw).trans (by decide))
      rw [UInt32.lt_iff_toNat_lt, hProduct, ← Nat.mul_div_cancel' hMultiple, ← hRbgNum] at hMany
      exact Nat.not_lt.mpr (Nat.mul_le_mul_left _ hAtMost) hMany
    · rw [UInt32.le_iff_toNat_le, UInt16.toNat_toUInt32] at hOutside
      omega
    · have hTop : (255 : UInt32).toNat = 255 := rfl
      rw [UInt32.lt_iff_toNat_lt, hTop] at hLong
      omega
  rw [createDlDci]
  dsimp only
  rw [if_neg hSymNe, if_neg hChecks]
  by_cases hSends : (ues rnti).Sends
  · have hAll : ¬ (ues rnti).metric.dlTbSize.all (· < 10) = true := by
      rw [hSends]
      exact Bool.false_ne_true
    rw [if_neg hAll, if_neg (not_not_intro hMask)]
    generalize takeOnes spoint.rbg.toNat 0 sch.dlRbgMask ((ues rnti).dlRBG / maxSym).toNat
      spoint.rbg.toNat = r at *
    have hLast := hTaken.last_lt
    have hNext : (UInt32.ofNat (r.2.2 + 1)).toNat = r.2.2 + 1 := by
      rw [UInt32.toNat_ofNat']
      exact Nat.mod_eq_of_lt (by omega)
    have hFound : ¬ (r.2.1 ≠ 0 ∨ r.1.count 0 = sch.bandwidthInRbg.toNat) := by
      rintro (hMissing | hEmpty)
      · exact hMissing hTaken.missing
      · exact hTaken.count_zero_ne (hEmpty.trans hMask.symm)
    rw [if_neg hFound]
    refine ⟨_, Or.inr ⟨hSends, _, _, rfl,
      ⟨rfl, ?_, rfl, hTaken.count, hTaken.length.trans hMask, ?_⟩, rfl, ?_, ?_, ?_⟩⟩
    · exact (UInt32.toNat_toUInt8 maxSym).trans (Nat.mod_eq_of_lt hLt)
    · exact fun i hi => usable_of_dlRbgMask (hTaken.kept i hi).1
    · rw [hNext]
      exact hTaken.start_le.trans (Nat.le_succ _)
    · rw [hNext]
      exact hTaken.behind
    · intro i hi
      obtain ⟨-, hLow, hHigh⟩ := hTaken.kept i hi
      rw [hNext]
      exact ⟨hLow, Nat.lt_succ_of_le hHigh⟩
  · have hAll : (ues rnti).metric.dlTbSize.all (· < 10) = true := Bool.eq_true_of_not_eq_false hSends
    rw [if_pos hAll]
    exact ⟨_, Or.inl ⟨hSends, rfl⟩⟩

/-- The user is to get a DCI. -/
def DlGranted (ues : DlUes μ) (rnti : UInt16) : Prop :=
  (ues rnti).dlRBG ≠ 0 ∧ (ues rnti).Sends

instance (ues : DlUes μ) : DecidablePred (DlGranted ues) :=
  fun _ => inferInstanceAs (Decidable (_ ∧ _))

theorem GrantsDlRbgs.of_eq {ues' : DlUes μ} {sym : UInt8} {dci : DciInfoElementTdma}
    (h : sch.GrantsDlRbgs ues maxSym sym rnti dci) (hSame : ues rnti = ues' rnti) :
    sch.GrantsDlRbgs ues' maxSym sym rnti dci :=
  ⟨h.rnti, h.numSym, h.symStart, hSame ▸ h.count, h.bandwidth, h.notched⟩

/-- The users of a beam get their RBGs in turn as long as the free ones cover all of them. The RBGs of
a user whose TBS is too small stay free. -/
theorem createDlDcis_spec {l : List UInt16}
    (hMask : sch.dlRbgMask.length = sch.bandwidthInRbg.toNat) (hSym : 0 < maxSym.toNat)
    (hLt : maxSym.toNat < 2 ^ 8) (hNodup : l.Nodup) (hSame : ∀ rnti ∈ l, dl rnti = ues rnti)
    (hMultiples : ∀ rnti ∈ l, maxSym.toNat ∣ (ues rnti).dlRBG.toNat)
    (hFree : total l (fun rnti => ((ues rnti).dlRBG / maxSym).toNat) ≤
      onesFrom spoint.rbg.toNat 0 sch.dlRbgMask) :
    ∃ dcis r, sch.createDlDcis maxSym spoint dl l = some (dcis, r) ∧
      List.Forall₂ (sch.GrantsDlRbgs ues maxSym spoint.sym) (l.filter fun ue => DlGranted ues ue)
        dcis ∧
      (dcis.Pairwise fun a b =>
        ∀ i : ℕ, ¬ (a.rbgBitmask[i]? = some 1 ∧ b.rbgBitmask[i]? = some 1)) ∧
      ∀ dci ∈ dcis, ∀ i : ℕ, dci.rbgBitmask[i]? = some 1 → spoint.rbg.toNat ≤ i := by
  induction l generalizing spoint dl with
  | nil => exact ⟨[], _, rfl, List.Forall₂.nil, List.Pairwise.nil, nofun⟩
  | cons rnti l ih =>
    obtain ⟨hNotIn, hNodup⟩ := List.nodup_cons.mp hNodup
    obtain ⟨hOwn, hRest⟩ := List.forall_mem_cons.mp hSame
    obtain ⟨hMultiple, hMultiples⟩ := List.forall_mem_cons.mp hMultiples
    rw [total_cons] at hFree
    rw [createDlDcis, hOwn]
    rcases eq_or_ne (ues rnti).dlRBG 0 with hNone | hSome
    · have hNot : ¬ DlGranted ues rnti := fun h => h.1 hNone
      rw [if_pos hNone, List.filter_cons, if_neg (mt of_decide_eq_true hNot)]
      exact ih hNodup hRest hMultiples (by omega)
    · rw [if_neg hSome]
      rw [← hOwn] at hMultiple hSome
      have hOwnFree : ((dl rnti).dlRBG / maxSym).toNat ≤
          onesFrom spoint.rbg.toNat 0 sch.dlRbgMask := by
        rw [hOwn]
        exact (Nat.le_add_right _ _).trans hFree
      obtain ⟨metric, ⟨hSmall, hCreate⟩ |
          ⟨hSends, dci, p, hCreate, hGrant, hPoint, hNext, hOnes, hKept⟩⟩ :=
        createDlDci_spec hMask hSym hLt hMultiple hSome hOwnFree
      · have hNot : ¬ DlGranted ues rnti := by
          intro h
          rw [hOwn] at hSmall
          exact hSmall h.2
        rw [hCreate, List.filter_cons, if_neg (mt of_decide_eq_true hNot)]
        refine ih hNodup (fun rnti' hMem => ?_) hMultiples (by omega)
        have hNe : rnti' ≠ rnti := fun hEq => hNotIn (hEq ▸ hMem)
        exact (Function.update_of_ne hNe _ _).trans
          ((Function.update_of_ne hNe _ _).trans (hRest rnti' hMem))
      · have hGranted : DlGranted ues rnti := by
          rw [DlGranted, ← hOwn]
          exact ⟨hSome, hSends⟩
        rw [hOwn] at hOnes
        have hTail : ∀ rnti' ∈ l, setDlMetric dl rnti metric rnti' = ues rnti' := by
          intro rnti' hMem
          have hNe : rnti' ≠ rnti := fun hEq => hNotIn (hEq ▸ hMem)
          exact (Function.update_of_ne hNe _ _).trans (hRest rnti' hMem)
        obtain ⟨dcis, r, hRun, hGrants, hApart, hBehind⟩ :=
          @ih (setDlMetric dl rnti metric) p hNodup hTail hMultiples (by omega)
        rw [hPoint] at hGrants
        refine ⟨dci :: dcis, r, ?_, ?_, ?_, ?_⟩
        · rw [hCreate, Option.bind_eq_bind, Option.bind_some]
          dsimp only
          rw [hRun]
          rfl
        · rw [List.filter_cons, if_pos (decide_eq_true hGranted)]
          exact List.Forall₂.cons (hGrant.of_eq hOwn) hGrants
        · refine List.Pairwise.cons (fun other hOther i => ?_) hApart
          rintro ⟨hHead, hLater⟩
          exact Nat.not_lt.mpr (hBehind other hOther i hLater) (hKept i hHead).2
        · intro other hOther i hOne
          rcases List.mem_cons.mp hOther with rfl | hOther
          · exact (hKept i hOne).1
          · exact hNext.trans (hBehind other hOther i hOne)

end Grants

/-! ## The loop of the scheduler -/

section Loop

open NewDataState

variable {sch} {maxSym : UInt32} {symbolsPerSlot : UInt32} {ids : List UInt8}
  {s t : NewDataState μ} {rnti : UInt16}

theorem transport_spec {ues ues' : SchedUes μ} {dci : DciInfoElementTdma} {alloc : VarTtiAllocInfo}
    (h : (dlDirection symbolsPerSlot ids).transport ues rnti dci = some (alloc, ues')) :
    ues'.dl = ues.dl ∧ ∃ id, alloc.dci = { dci with harqProcess := id } := by
  rw [dlDirection] at h
  dsimp only at h
  split at h
  · cases h
  rw [transportDl] at h
  obtain ⟨ue, -, h⟩ := Option.bind_eq_some_iff.mp h
  obtain ⟨id, -, h⟩ := Option.bind_eq_some_iff.mp h
  obtain ⟨rlcPduInfo, -, h⟩ := Option.bind_eq_some_iff.mp h
  split at h
  · cases h
  · cases h
    exact ⟨rfl, id, rfl⟩

/-- The DCIs that the scheduler places in a beam are those of `createDlDcis`, with their HARQ process. -/
theorem beamLoop_places {l : List UInt16}
    (h : beamLoop sch.dlNewData (dlDirection symbolsPerSlot ids) maxSym s l = some t) :
    ∃ dcis placed, sch.createDlDcis maxSym s.spoint s.ues.dl l = some (dcis, t.spoint, t.ues.dl) ∧
      t.slotAlloc.varTtiAllocInfo = s.slotAlloc.varTtiAllocInfo ++ placed ∧
      List.Forall₂ (fun dci alloc => ∃ id, alloc.dci = { dci with harqProcess := id }) dcis
        placed := by
  induction l generalizing s with
  | nil =>
    cases h
    exact ⟨[], [], rfl, (List.append_nil _).symm, List.Forall₂.nil⟩
  | cons rnti l ih =>
    obtain ⟨u, hStep, hRest⟩ := Option.bind_eq_some_iff.mp h
    have hRbg : (dlDirection (μ := μ) symbolsPerSlot ids).rbg s.ues rnti = (s.ues.dl rnti).dlRBG := rfl
    rw [scheduleUe, hRbg] at hStep
    rw [createDlDcis]
    by_cases hNone : (s.ues.dl rnti).dlRBG = 0
    · rw [if_pos hNone]
      rw [if_pos hNone] at hStep
      cases hStep
      exact ih hRest
    · rw [if_neg hNone]
      rw [if_neg hNone] at hStep
      obtain ⟨⟨dci, spoint, ues⟩, hCreate, hStep⟩ := Option.bind_eq_some_iff.mp hStep
      obtain ⟨⟨_, _, dl⟩, hDci, hEq⟩ := Option.bind_eq_some_iff.mp hCreate
      cases hEq
      rw [hDci, Option.bind_eq_bind, Option.bind_some]
      cases dci with
      | none =>
        cases hStep
        exact ih hRest
      | some dci =>
        obtain ⟨⟨alloc, ues⟩, hTransport, hStep⟩ := Option.bind_eq_some_iff.mp hStep
        cases hStep
        obtain ⟨hDl, id, hProcess⟩ := transport_spec hTransport
        obtain ⟨dcis, placed, hRun, hAlloc, hPlaced⟩ := ih hRest
        refine ⟨dci :: dcis, alloc :: placed, ?_, ?_, List.Forall₂.cons ⟨id, hProcess⟩ hPlaced⟩
        · have hTail : sch.createDlDcis maxSym spoint dl l = some (dcis, t.spoint, t.ues.dl) := by
            rw [← hRun]
            exact congrArg (fun dl => sch.createDlDcis maxSym spoint dl l) hDl.symm
          dsimp only
          rw [hTail]
          rfl
        · rw [hAlloc]
          exact (List.append_assoc ..)

theorem createDlDci_dlRBG {ues ues' : DlUes μ} {spoint q : PointInFTPlane}
    {dci : Option DciInfoElementTdma}
    (h : sch.createDlDci spoint rnti maxSym ues = some (dci, q, ues')) (rnti' : UInt16) :
    (ues' rnti').dlRBG = (ues rnti').dlRBG := by
  rw [createDlDci] at h
  dsimp only at h
  split_ifs at h
  · cases h
    exact setDlMetric_dlRBG _ _ _ _
  · cases h
    exact setDlMetric_dlRBG _ _ _ _

theorem createDlDcis_dlRBG {l : List UInt16} {ues : DlUes μ} {spoint : PointInFTPlane}
    {dcis : List DciInfoElementTdma} {r : PointInFTPlane × DlUes μ}
    (h : sch.createDlDcis maxSym spoint ues l = some (dcis, r)) (rnti' : UInt16) :
    (r.2 rnti').dlRBG = (ues rnti').dlRBG := by
  induction l generalizing ues spoint dcis with
  | nil =>
    cases h
    rfl
  | cons rnti l ih =>
    rw [createDlDcis] at h
    split at h
    · exact ih h
    · obtain ⟨⟨dci, q, dl⟩, hCreate, h⟩ := Option.bind_eq_some_iff.mp h
      have hSame := createDlDci_dlRBG hCreate rnti'
      cases dci with
      | none => exact (ih h).trans ((setDlMetric_dlRBG _ _ _ _).trans hSame)
      | some dci =>
        obtain ⟨⟨dcis, r⟩, hRest, h⟩ := Option.bind_eq_some_iff.mp h
        cases h
        exact (ih hRest).trans hSame

theorem loop_dlRBG {symPerBeam : UInt16 → UInt32} {activeDl : ActiveUeMap}
    (h : loop sch.dlNewData (dlDirection symbolsPerSlot ids) symPerBeam s activeDl = some t)
    (rnti' : UInt16) : (t.ues.dl rnti').dlRBG = (s.ues.dl rnti').dlRBG := by
  induction activeDl generalizing s with
  | nil =>
    cases h
    rfl
  | cons beam activeDl ih =>
    rw [loop] at h
    split at h
    · exact ih h
    · obtain ⟨u, hBeam, h⟩ := Option.bind_eq_some_iff.mp h
      obtain ⟨dcis, placed, hRun, -⟩ := beamLoop_places hBeam
      have hEnd : (u.endBeam sch.dlNewData (symPerBeam beam.1)).ues = u.ues := by
        rw [endBeam]
        split
        · rfl
        · rfl
      rw [ih h, hEnd]
      exact createDlDcis_dlRBG hRun rnti'

theorem resetDlSchedInfo_dlRBG (resets : MetricResets μ) (ues : SchedUes μ) (rnti' : UInt16) :
    ((resets.resetDlSchedInfo rnti ues).dl rnti').dlRBG =
      if rnti' = rnti then 0 else (ues.dl rnti').dlRBG := by
  rw [MetricResets.resetDlSchedInfo]
  dsimp only
  split
  · next hEq => rw [hEq, Function.update_self]
  · next hNe => rw [Function.update_of_ne hNe]

theorem resetAll_dlRBG (resets : MetricResets μ) (l : List UInt16) (ues : SchedUes μ)
    (rnti' : UInt16) :
    ((l.foldl (fun ues rnti => resets.resetDlSchedInfo rnti ues) ues).dl rnti').dlRBG =
      if rnti' ∈ l then 0 else (ues.dl rnti').dlRBG := by
  induction l generalizing ues with
  | nil => rfl
  | cons rnti l ih =>
    rw [List.foldl_cons, ih, resetDlSchedInfo_dlRBG]
    rcases Decidable.em (rnti' ∈ l) with hMem | hNot
    · rw [if_pos hMem, if_pos (List.mem_cons_of_mem _ hMem)]
    · rw [if_neg hNot]
      rcases eq_or_ne rnti' rnti with rfl | hNe
      · rw [if_pos rfl, if_pos List.mem_cons_self]
      · rw [if_neg hNe, if_neg (List.not_mem_cons_of_ne_of_not_mem hNe hNot)]

end Loop

/-! ## One slot -/

section Slot

open NewDataState

variable {symAvail : UInt32} {activeDl : ActiveUeMap} {ues ues' : SchedUes μ}
  {symPerBeam : UInt16 → UInt32}

/-- `DoScheduleDlData` comes with a number of symbols of 8 bits, and the users have no RBGs yet. -/
structure DlAssignCall (symAvail : UInt32) (activeDl : ActiveUeMap) (ues : SchedUes μ) : Prop where
  symbols : symAvail.toNat < 2 ^ 8
  mask : sch.dlNotchedRbgsMask = [] ∨ sch.dlNotchedRbgsMask.length = sch.bandwidthInRbg.toNat
  nodup : (activeDl.flatMap fun beam => beam.2.map Prod.fst).Nodup
  fresh : ∀ rnti ∈ activeDl.flatMap fun beam => beam.2.map Prod.fst, (ues.dl rnti).dlRBG = 0

variable {sch}

/-- `AssignDLRBG` goes through when there is an RBG to assign. -/
theorem exists_assignRBG (hAvail : symAvail.toNat < 2 ^ 8) (hSome : sch.assignableDlRbgs ≠ 0) :
    ∃ r, sch.dlNewData.assignRBG symAvail activeDl ues = some r := by
  have hAssign : ∀ (symPerBeam : UInt16 → UInt32) (dl : DlUes μ),
      ∃ dl', sch.assignDLRBG symPerBeam dl activeDl = some dl' := by
    intro symPerBeam
    induction activeDl with
    | nil => exact fun dl => ⟨dl, rfl⟩
    | cons el activeDl ih =>
      intro dl
      rw [assignDLRBG, if_neg hSome]
      exact ih _
  obtain ⟨l, hSplit⟩ : ∃ l, sch.getSymPerBeam symAvail activeDl = some l :=
    ⟨_, sch.getSymPerBeam_eq hAvail⟩
  obtain ⟨dl, hDl⟩ := hAssign (symbolsOf l) ues.dl
  refine ⟨({ ues with dl := dl }, symbolsOf l), ?_⟩
  change (sch.getSymPerBeam symAvail activeDl >>= _) = _
  rw [hSplit, Option.bind_eq_bind, Option.bind_some, hDl]
  rfl

theorem assignableDlRbgs_lt
    (h : sch.dlNotchedRbgsMask = [] ∨ sch.dlNotchedRbgsMask.length = sch.bandwidthInRbg.toNat) :
    sch.assignableDlRbgs.toNat < 2 ^ 16 := by
  rw [assignableDlRbgs_toNat h]
  refine List.count_le_length.trans_lt ?_
  rw [length_dlRbgMask h]
  exact sch.bandwidthInRbg.toNat_lt

/-- The users of every beam hold at most its RBGs, over all of its symbols. -/
theorem assignRBG_holds (hCall : sch.DlAssignCall symAvail activeDl ues)
    (hAssign : sch.dlNewData.assignRBG symAvail activeDl ues = some (ues', symPerBeam)) :
    (∀ beam ∈ activeDl, (symPerBeam beam.1).toNat < 2 ^ 8 ∧
      ∃ granted ≤ sch.assignableDlRbgs.toNat,
        DlHolds (symPerBeam beam.1) (beam.2.map Prod.fst) ues'.dl granted) ∧
      ∀ rnti ∉ activeDl.flatMap fun beam => beam.2.map Prod.fst,
        (ues'.dl rnti).dlRBG = (ues.dl rnti).dlRBG := by
  obtain ⟨l, hSplit, hAssign⟩ := Option.bind_eq_some_iff.mp hAssign
  obtain ⟨dl, hDl, hAssign⟩ := Option.bind_eq_some_iff.mp hAssign
  cases hAssign
  have hLt : ∀ beam, (symbolsOf l beam).toNat < 2 ^ 8 := fun beam =>
    (sch.symbolsOf_getSymPerBeam_le hCall.symbols hSplit beam).trans_lt hCall.symbols
  have hBound := assignableDlRbgs_lt hCall.mask
  have hFits : ∀ beam ∈ activeDl,
      sch.assignableDlRbgs.toNat * (symbolsOf l beam.1).toNat < 2 ^ 32 :=
    fun beam _ => (Nat.mul_lt_mul'' hBound (hLt beam.1)).trans (by decide)
  obtain ⟨hHolds, hFrame⟩ := sch.assignDLRBG_spec hFits hCall.nodup hCall.fresh hDl
  exact ⟨fun beam hBeam => ⟨hLt beam.1, hHolds beam hBeam⟩, hFrame⟩

/-- The DCIs of a beam with symbols: none of the checks of `CreateDlDci` fails, each user with RBGs
and a sufficient TBS gets its RBGs, and no RBG is given twice. -/
theorem dlBeam_served (hCall : sch.DlAssignCall symAvail activeDl ues)
    (hAssign : sch.dlNewData.assignRBG symAvail activeDl ues = some (ues', symPerBeam))
    {beam : UInt16 × List UePtrAndBufferReq} (hBeam : beam ∈ activeDl)
    (hSym : symPerBeam beam.1 ≠ 0) {spoint : PointInFTPlane} (hStart : spoint.rbg = 0) :
    ∃ dcis r, sch.createDlDcis (symPerBeam beam.1) spoint ues'.dl (beam.2.map Prod.fst) =
        some (dcis, r) ∧
      List.Forall₂ (sch.GrantsDlRbgs ues'.dl (symPerBeam beam.1) spoint.sym)
        ((beam.2.map Prod.fst).filter fun ue => DlGranted ues'.dl ue) dcis ∧
      dcis.Pairwise fun a b =>
        ∀ i : ℕ, ¬ (a.rbgBitmask[i]? = some 1 ∧ b.rbgBitmask[i]? = some 1) := by
  obtain ⟨hLt, granted, hGranted, hHeld⟩ := (assignRBG_holds hCall hAssign).1 beam hBeam
  have hPos : 0 < (symPerBeam beam.1).toNat :=
    Nat.pos_of_ne_zero fun hZero => hSym (UInt32.toNat_inj.mp hZero)
  have hTotal : total (beam.2.map Prod.fst)
      (fun rnti => ((ues'.dl rnti).dlRBG / symPerBeam beam.1).toNat) = granted := by
    refine Nat.eq_of_mul_eq_mul_right hPos ?_
    rw [← total_mul, ← hHeld.held]
    refine total_congr fun rnti hMem => ?_
    rw [UInt32.toNat_div, Nat.div_mul_cancel (hHeld.multiples rnti hMem)]
  have hFree : total (beam.2.map Prod.fst)
      (fun rnti => ((ues'.dl rnti).dlRBG / symPerBeam beam.1).toNat) ≤
        onesFrom spoint.rbg.toNat 0 sch.dlRbgMask := by
    have hZero : spoint.rbg.toNat = 0 := congrArg UInt32.toNat hStart
    rw [hTotal, onesFrom_of_le hZero.le, ← assignableDlRbgs_toNat hCall.mask]
    exact hGranted
  have hNodup : (beam.2.map Prod.fst).Nodup := (List.nodup_flatMap.mp hCall.nodup).1 beam hBeam
  obtain ⟨dcis, r, hRun, hGrants, hApart, -⟩ :=
    createDlDcis_spec (length_dlRbgMask hCall.mask) hPos hLt hNodup (fun rnti _ => rfl)
      hHeld.multiples hFree
  exact ⟨dcis, r, hRun, hGrants, hApart⟩

/-- Round robin in DL: the user with the fewest RBGs comes first. -/
def dlRoundRobin : DlPolicy Unit where
  beforeDlSched _ ue := ue.metric
  assignedDlResources _ _ ue :=
    { ue.metric with dlTbSize := [OfdmaScheduler.tbSizeMcs9 ue.dlRBG] }
  notAssignedDlResources _ _ ue := ue.metric
  sort ues l := l.insertionSort fun a b => (ues a.1).dlRBG ≤ (ues b.1).dlRBG
  sort_perm _ l := List.perm_insertionSort _ l

/-- Four RBGs, of which the third is notched. -/
def notchedRoundRobin : OfdmaNewData Unit :=
  { UlScheduler.ofdmaRoundRobin with
    toOfdmaScheduler := OfdmaScheduler.grantFree 4
    dlNotchedRbgsMask := [1, 1, 0, 1]
    dlPolicy := dlRoundRobin }

/-- Two users on one beam with six symbols share the three RBGs. -/
theorem dlBeam_served_notched :
    ∃ ues' symPerBeam, notchedRoundRobin.dlNewData.assignRBG 6 [(3, [(1, 2000), (2, 2000)])]
        UlScheduler.idleUsers = some (ues', symPerBeam) ∧
      ∃ dcis r, notchedRoundRobin.createDlDcis (symPerBeam 3) ⟨0, 1⟩ ues'.dl [1, 2] =
          some (dcis, r) ∧
        dcis.Pairwise fun a b =>
          ∀ i : ℕ, ¬ (a.rbgBitmask[i]? = some 1 ∧ b.rbgBitmask[i]? = some 1) := by
  have hCall : notchedRoundRobin.DlAssignCall 6 [(3, [(1, 2000), (2, 2000)])]
      UlScheduler.idleUsers :=
    ⟨by decide, Or.inr rfl, by decide, fun _ _ => rfl⟩
  refine ⟨_, _, rfl, ?_⟩
  obtain ⟨dcis, r, hRun, -, hApart⟩ :=
    dlBeam_served hCall rfl List.mem_cons_self (by decide)
      (show (⟨0, 1⟩ : PointInFTPlane).rbg = 0 from rfl)
  exact ⟨dcis, r, hRun, hApart⟩

/-- The users of a slot have no RBGs left after it, and so the next one starts without any. -/
theorem doScheduleDlData_fresh (hAvail : symAvail.toNat < 2 ^ 8)
    (hMask : sch.dlNotchedRbgsMask = [] ∨
      sch.dlNotchedRbgsMask.length = sch.bandwidthInRbg.toNat)
    (hNodup : (activeDl.flatMap fun beam => beam.2.map Prod.fst).Nodup)
    (hFresh : ∀ rnti, (ues.dl rnti).dlRBG = 0) {symbolsPerSlot : UInt32} {ids : List UInt8}
    {spoint : PointInFTPlane} {slotAlloc : SlotAllocInfo} {s : NewDataState μ}
    (h : doScheduleDlData sch.dlNewData symbolsPerSlot ids spoint symAvail activeDl ues slotAlloc =
      some s) (rnti : UInt16) : (s.ues.dl rnti).dlRBG = 0 := by
  rw [doScheduleDlData] at h
  split at h
  · cases h
  · obtain ⟨⟨ues', symPerBeam⟩, hAssign, h⟩ := Option.bind_eq_some_iff.mp h
    obtain ⟨t, hLoop, h⟩ := Option.bind_eq_some_iff.mp h
    have hCall : sch.DlAssignCall symAvail activeDl ues :=
      ⟨hAvail, hMask, hNodup, fun rnti _ => hFresh rnti⟩
    have hFrame := (assignRBG_holds hCall hAssign).2 rnti
    rw [finish] at h
    split at h
    · cases h
      refine (resetAll_dlRBG sch.resets _ _ _).trans ?_
      split
      · rfl
      · next hNot => rw [loop_dlRBG hLoop, hFrame hNot, hFresh]
    · cases h

end Slot

end OfdmaNewData
end Bullet.Mac
