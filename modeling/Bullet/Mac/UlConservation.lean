import Mathlib.Data.List.Sort
import Bullet.Mac.UlShares
import Bullet.Mac.UlDci

/-! # UL resource blocks from the assignment to the grants

The users of a beam hold at most what the beam has, and `CreateUlDci` finds free RBGs for all of
them. The grant-free mode keeps to this exactly when its 15 RBGs for each user fit.
-/

namespace Bullet.Mac

open Lib.Bitmask Lib.Shares

variable {μ : Type}

namespace OfdmaScheduler

variable {sch : OfdmaScheduler μ} {symPerBeam : UInt16 → UInt32} {beamSym : UInt32}
  {activeUl : ActiveUeMap} {ues : UlUes μ} {beam : List UePtrAndBufferReq}

/-- Slot by slot, the users start without RBGs and each beam has a symbol. -/
structure UlAssignCall (sch : OfdmaScheduler μ) (symPerBeam : UInt16 → UInt32)
    (activeUl : ActiveUeMap) (ues : UlUes μ) : Prop where
  assignable : sch.assignableRbgs ≠ 0
  mask : sch.ulNotchedRbgsMask = [] ∨ sch.ulNotchedRbgsMask.length = sch.bandwidthInRbg.toNat
  symbols : ∀ beam ∈ activeUl, 0 < (symPerBeam beam.1).toNat ∧ (symPerBeam beam.1).toNat < 2 ^ 8
  nodup : (activeUl.flatMap fun beam => beam.2.map Prod.fst).Nodup
  fresh : ∀ rnti ∈ activeUl.flatMap fun beam => beam.2.map Prod.fst, (ues rnti).ulRBG = 0

theorem length_ulRbgMask
    (h : sch.ulNotchedRbgsMask = [] ∨ sch.ulNotchedRbgsMask.length = sch.bandwidthInRbg.toNat) :
    sch.ulRbgMask.length = sch.bandwidthInRbg.toNat :=
  length_mask h

theorem assignableRbgs_toNat
    (h : sch.ulNotchedRbgsMask = [] ∨ sch.ulNotchedRbgsMask.length = sch.bandwidthInRbg.toNat) :
    sch.assignableRbgs.toNat = sch.ulRbgMask.count 1 :=
  count_mask h

/-- The users of the beam hold `granted` RBGs, over all its symbols. -/
structure Holds (sch : OfdmaScheduler μ) (beamSym : UInt32) (ues : UlUes μ)
    (beam : List UePtrAndBufferReq) (granted : ℕ) : Prop where
  multiples : ∀ rnti ∈ beam.map Prod.fst, beamSym.toNat ∣ (ues rnti).ulRBG.toNat
  held : total (beam.map Prod.fst) (fun rnti => (ues rnti).ulRBG.toNat) = granted * beamSym.toNat
  counter : granted ≤ sch.assignableRbgs.toNat

theorem Holds.congr {ues' : UlUes μ} {granted : ℕ} (h : Holds sch beamSym ues beam granted)
    (hEq : ∀ rnti ∈ beam.map Prod.fst, ues' rnti = ues rnti) :
    Holds sch beamSym ues' beam granted where
  multiples rnti hMem := by
    rw [hEq rnti hMem]
    exact h.multiples rnti hMem
  held := by
    rw [← h.held]
    exact total_congr fun rnti hMem => by rw [hEq rnti hMem]
  counter := h.counter

/-- Over all beams: where the grant-free mode fits the users hold what was granted, and where it
does not, more was granted than there is. -/
theorem assignULRBG_spec (maxBuffer : UInt32) (hCall : UlAssignCall sch symPerBeam activeUl ues) :
    ∃ r, sch.assignULRBG symPerBeam ues maxBuffer activeUl = some r ∧
      (∀ rnti ∉ activeUl.flatMap fun beam => beam.2.map Prod.fst, r.1 rnti = ues rnti) ∧
      List.Forall₂ (fun beam granted =>
        (sch.GrantFreeFits beam.2 → Holds sch (symPerBeam beam.1) r.1 beam.2 granted) ∧
        (granted ≤ sch.assignableRbgs.toNat → sch.GrantFreeFits beam.2)) activeUl r.2.2 := by
  obtain ⟨hAssignable, hMask, hSymbols, hNodup, hFresh⟩ := hCall
  have hBound : sch.assignableRbgs.toNat < 2 ^ 16 := by
    rw [assignableRbgs_toNat hMask]
    refine List.count_le_length.trans_lt ?_
    rw [length_ulRbgMask hMask]
    exact sch.bandwidthInRbg.toNat_lt
  induction activeUl generalizing ues maxBuffer with
  | nil => exact ⟨(ues, maxBuffer, []), rfl, fun _ _ => rfl, List.Forall₂.nil⟩
  | cons el activeUl ih =>
    rw [List.flatMap_cons] at hNodup
    obtain ⟨hBeamNodup, hRestNodup, hApart⟩ := List.nodup_append.mp hNodup
    obtain ⟨hSym, hLt⟩ := hSymbols el List.mem_cons_self
    have hPool : sch.assignableRbgs.toNat * (symPerBeam el.1).toNat < 2 ^ 32 :=
      (Nat.mul_lt_mul'' hBound hLt).trans (by decide)
    obtain ⟨t, hBeam, hWithin, hConserved, hFits⟩ := assignBeam_spec maxBuffer hAssignable hSym hLt
      hPool hBeamNodup fun rnti hMem => hFresh rnti (List.mem_append_left _ hMem)
    have hRestFresh : ∀ rnti ∈ activeUl.flatMap fun beam => beam.2.map Prod.fst,
        (t.ues rnti).ulRBG = 0 := by
      intro rnti hMem
      rw [hWithin.frame rnti fun hBeamMem => hApart rnti hBeamMem rnti hMem rfl]
      exact hFresh rnti (List.mem_append_right _ hMem)
    obtain ⟨r, hRun, hFrame, hRest⟩ := ih t.maxBuffer
      (fun beam hMem => hSymbols beam (List.mem_cons_of_mem _ hMem)) hRestNodup hRestFresh
    refine ⟨(r.1, r.2.1, t.granted :: r.2.2), ?_, fun rnti hNotMem => ?_,
      List.Forall₂.cons ⟨fun hFit => ?_, hFits⟩ hRest⟩
    · rw [assignULRBG, hBeam, Option.bind_eq_bind, Option.bind_some, hRun]
      rfl
    · rw [List.flatMap_cons, List.mem_append, not_or] at hNotMem
      exact (hFrame rnti hNotMem.2).trans (hWithin.frame rnti hNotMem.1)
    · have hHeld := hConserved hFit
      refine Holds.congr ⟨hHeld.multiples, hHeld.total, ?_⟩ fun rnti hMem =>
        hFrame rnti fun hRestMem => hApart rnti hMem rnti hRestMem rfl
      exact Nat.le.intro hHeld.counter

/-- The RBGs of one beam, from the counter to the grants. -/
structure UlBeamServed (sch : OfdmaScheduler μ) (beamSym : UInt32) (ues : UlUes μ)
    (beam : List UePtrAndBufferReq) (granted : ℕ) : Prop where
  counter : granted ≤ sch.assignableRbgs.toNat
  held : total (beam.map Prod.fst) (fun rnti => (ues rnti).ulRBG.toNat) ≤
    sch.assignableRbgs.toNat * beamSym.toNat
  grants : ∀ spoint : PointInFTPlane, spoint.rbg = 0 → beamSym.toNat ≤ spoint.sym.toNat →
    ∃ dcis q, sch.createUlDcis ues beamSym spoint beam = some (dcis, q) ∧
      List.Forall₂ (sch.GrantsRbgs ues beamSym spoint)
        (beam.filter fun ue => sch.Granted ues ue) dcis ∧
      dcis.Pairwise fun a b =>
        ∀ i : ℕ, ¬ (a.rbgBitmask[i]? = some 1 ∧ b.rbgBitmask[i]? = some 1)

theorem Holds.served {granted : ℕ} (h : Holds sch beamSym ues beam granted)
    (hMask : sch.ulNotchedRbgsMask = [] ∨
      sch.ulNotchedRbgsMask.length = sch.bandwidthInRbg.toNat)
    (hSym : 0 < beamSym.toNat) : UlBeamServed sch beamSym ues beam granted where
  counter := h.counter
  held := by
    rw [h.held]
    exact Nat.mul_le_mul_right _ h.counter
  grants spoint hRbg hRoom := by
    have hFree : total (beam.map Prod.fst) (fun rnti => ((ues rnti).ulRBG / beamSym).toNat) ≤
        onesFrom spoint.rbg.toNat 0 sch.ulRbgMask := by
      have hGranted : total (beam.map Prod.fst)
          (fun rnti => ((ues rnti).ulRBG / beamSym).toNat) = granted := by
        refine Nat.eq_of_mul_eq_mul_right hSym ?_
        rw [← total_mul, ← h.held]
        refine total_congr fun rnti hMem => ?_
        rw [UInt32.toNat_div, Nat.div_mul_cancel (h.multiples rnti hMem)]
      have hZero : spoint.rbg.toNat = 0 := congrArg UInt32.toNat hRbg
      rw [hGranted, onesFrom_of_le hZero.le, ← assignableRbgs_toNat hMask]
      exact h.counter
    obtain ⟨dcis, q, hRun, hGrants, hApart, -⟩ :=
      createUlDcis_spec (length_ulRbgMask hMask) hSym hRoom h.multiples hFree
    exact ⟨dcis, q, hRun, hGrants, hApart⟩

/-- The RBGs of every beam are conserved and reach the grants exactly when the grant-free mode does
not hand out more of them than a beam has. -/
theorem ulBeamServed_iff (maxBuffer : UInt32) (hCall : UlAssignCall sch symPerBeam activeUl ues) :
    (∃ r, sch.assignULRBG symPerBeam ues maxBuffer activeUl = some r ∧
      List.Forall₂ (fun beam granted => UlBeamServed sch (symPerBeam beam.1) r.1 beam.2 granted)
        activeUl r.2.2) ↔
    ∀ beam ∈ activeUl, sch.GrantFreeFits beam.2 := by
  obtain ⟨r, hRun, -, hBeams⟩ := assignULRBG_spec maxBuffer hCall
  constructor
  · rintro ⟨r', hRun', hServed⟩ beam hBeam
    cases Option.some_inj.mp (hRun.symm.trans hRun')
    obtain ⟨k, hk, rfl⟩ := List.mem_iff_getElem.mp hBeam
    have hk' : k < r.2.2.length := hBeams.length_eq ▸ hk
    exact (hBeams.get hk hk').2 (hServed.get hk hk').counter
  · intro hFits
    have hBeam : ∀ beam ∈ activeUl,
        sch.GrantFreeFits beam.2 ∧ 0 < (symPerBeam beam.1).toNat :=
      fun beam hMem => ⟨hFits beam hMem, (hCall.symbols beam hMem).1⟩
    refine ⟨r, hRun, ((List.forall₂_and_left _ _).mpr ⟨hBeam, hBeams⟩).imp ?_⟩
    rintro beam granted ⟨⟨hFit, hSym⟩, hHolds, -⟩
    exact (hHolds hFit).served hCall.mask hSym

/-- The TBS of the default error model: 11 of the 12 subcarriers carry data, MCS 9 sends 2 bits on
each at rate 0.51, and 3 bytes go to the parity bits of each code block of 768 bytes. -/
def tbSizeMcs9 (nprb : UInt32) : UInt32 :=
  let payloadSize := 11 * nprb * 2 * 51 / 800
  let tbSize := if 3 ≤ payloadSize then payloadSize - 3 else payloadSize
  if 768 < tbSize then payloadSize - tbSize / 768 * 3 else tbSize

/-- Round robin: the user with the fewest RBGs comes first. -/
def roundRobin (numRbPerRbg : UInt32) : UlPolicy Unit where
  beforeUlSched _ ue := ue.metric
  assignedUlResources _ _ ue :=
    { ue.metric with
      ulTbSize := if ue.ulRBG = 0 then 0 else tbSizeMcs9 (ue.ulRBG * numRbPerRbg) }
  notAssignedUlResources _ _ ue := ue.metric
  sort ues l := l.insertionSort fun a b => (ues a.1).ulRBG ≤ (ues b.1).ulRBG
  sort_perm _ l := List.perm_insertionSort _ l

/-- The grant-free mode, with a proactive demand of user 1 only. -/
def grantFree (bandwidthInRbg : UInt16) : OfdmaScheduler Unit where
  scheduleMode := 1
  enableBbr := false
  windowPassed := false
  bandwidthInRbg := bandwidthInRbg
  numRbPerRbg := 1
  bwpId := 0
  ulNotchedRbgsMask := []
  proactiveBSR rnti := if rnti = 1 then 1000 else 0
  confidentBSR _ := 0
  policy := roundRobin 1
  bufferPenalty :=
    { average := fun buf maxBuffer => UInt32.ofNat ((2 * buf.toNat + 8 * maxBuffer.toNat) / 10)
      reached := fun rbg maxResources maxBuffer =>
        maxResources.toNat * max maxBuffer.toNat 60000 ≤ 150000 * rbg.toNat }
  calculateTbSize _ nprb := tbSizeMcs9 nprb

/-- Two users, on a beam of their own each. -/
def twoBeams : ActiveUeMap := [(3, [(1, 2000)]), (4, [(2, 2000)])]

def idleUes : UlUes Unit := fun _ => { ulMcs := 9, metric := { other := () } }

theorem twoBeams_ulAssignCall {bandwidthInRbg : UInt16} (h : bandwidthInRbg ≠ 0) :
    UlAssignCall (grantFree bandwidthInRbg) (fun _ => 6) twoBeams idleUes where
  assignable hNone := by
    refine h (UInt16.toNat_inj.mp ?_)
    exact (UInt16.toNat_toUInt32 bandwidthInRbg).symm.trans (congrArg UInt32.toNat hNone)
  mask := Or.inl rfl
  symbols _ _ := ⟨by decide, by decide⟩
  nodup := by decide
  fresh _ _ := rfl

theorem ulBeamServed_twoBeams : UlAssignCall (grantFree 17) (fun _ => 6) twoBeams idleUes ∧
    ∃ r, (grantFree 17).assignULRBG (fun _ => 6) idleUes 0 twoBeams = some r ∧
      List.Forall₂ (fun beam granted => UlBeamServed (grantFree 17) 6 r.1 beam.2 granted)
        twoBeams r.2.2 := by
  have hCall := twoBeams_ulAssignCall (show (17 : UInt16) ≠ 0 by decide)
  exact ⟨hCall, (ulBeamServed_iff 0 hCall).mpr (by decide)⟩

/-- With ten RBGs the first user is given fifteen. -/
theorem fifteen_of_ten : UlAssignCall (grantFree 10) (fun _ => 6) twoBeams idleUes ∧
    ¬ ∃ r, (grantFree 10).assignULRBG (fun _ => 6) idleUes 0 twoBeams = some r ∧
      List.Forall₂ (fun beam granted => UlBeamServed (grantFree 10) 6 r.1 beam.2 granted)
        twoBeams r.2.2 := by
  refine ⟨twoBeams_ulAssignCall (by decide), ?_⟩
  rintro ⟨⟨ues, maxBuffer, granted⟩, hRun, hServed⟩
  have hFirst : ((grantFree 10).assignULRBG (fun _ => 6) idleUes 0 twoBeams).map
      (fun r => r.2.2.head?) = some (some 15) := by decide
  rw [hRun, Option.map_some, Option.some_inj] at hFirst
  change granted.head? = some 15 at hFirst
  cases hServed with
  | cons hHead _ =>
    cases hFirst
    exact absurd hHead.counter (by decide)

end OfdmaScheduler

end Bullet.Mac
