import Bullet.Lib.PointUpdates
import Bullet.Lib.StaleMembers
import Bullet.Mac.Policies
import Bullet.Mac.RoundRobin

/-! # Streams that are not needed

A pass of `AssignDLRBG` clears the streams that a covered user does not need, but each RBG, or symbol,
that is given writes TB sizes again: those of the user that gets it with RR, those of all users with
PF. When the resources run out no pass follows.
-/

namespace Bullet.Mac

open Lib.Shares Lib.FairRounds Lib.PointUpdates Lib.StaleMembers

variable {μ : Type}

/-- A stream has no bytes when those before it cover the request. -/
def NoUnneeded (buf : UInt32) (l : List UInt32) : Prop :=
  ∀ stream : ℕ, 1 ≤ stream → buf.toNat ≤ tbBytes (l.take stream) → (l[stream]?).getD 0 = 0

theorem trimStreams_of_covered {buf : UInt32} {l : List UInt32} {stream : ℕ}
    (h : buf.toNat ≤ tbBytes ((trimStreams buf l).take stream)) :
    ((trimStreams buf l)[stream]?).getD 0 = 0 := by
  induction l generalizing buf stream with
  | nil => rfl
  | cons tbs l ih =>
    rw [trimStreams] at h ⊢
    split at h
    · next hNone =>
      rw [if_pos hNone]
      cases stream with
      | zero => rfl
      | succ stream => exact ih (Nat.zero_le _)
    · next hSome =>
      rw [if_neg hSome]
      cases stream with
      | zero => exact absurd (UInt32.toNat_inj.mp (Nat.le_zero.mp h)) hSome
      | succ stream =>
        refine ih ?_
        rw [List.take_succ_cons, tbBytes, total_cons] at h
        rw [tbBytes]
        split
        · exact Nat.zero_le _
        · next hMore =>
          have hLe := UInt32.le_of_lt (UInt32.not_le.mp hMore)
          have hRest := UInt32.toNat_sub_of_le _ _ hLe
          rw [if_neg hMore] at h
          omega

theorem noUnneeded_of_length_le_one {buf : UInt32} {l : List UInt32} (h : l.length ≤ 1) :
    NoUnneeded buf l := by
  intro stream hLater _
  rw [List.getElem?_eq_none (h.trans hLater)]
  rfl

theorem noUnneeded_of_empty {buf : UInt32} {l : List UInt32} (h : ∀ tbs ∈ l, tbs = 0) :
    NoUnneeded buf l := by
  intro stream _ _
  cases hSize : l[stream]? with
  | none => rfl
  | some tbs => exact h tbs (List.mem_of_getElem? hSize)

theorem noUnneeded_trimDl (buf : UInt32) (ue : DlUeInfo μ) :
    NoUnneeded buf (trimDl buf ue).metric.dlTbSize := by
  rw [trimDl]
  dsimp only
  split
  · exact fun stream _ hCovered => trimStreams_of_covered hCovered
  · next hSingle => exact noUnneeded_of_length_le_one (Nat.not_lt.mp hSingle)

/-! ## The updates -/

/-- The TB sizes that `UpdateDlMetric` finds for the user. -/
def DlUeInfo.foundStreams (amc : NrAmc) (cqi : μ → DlCqiInfo) (ue : DlUeInfo μ) : List UInt32 :=
  amc.updateDlMetric (cqi ue.metric.other) ue

/-- The metric with the TB sizes that `UpdateDlMetric` finds. -/
structure DlUeInfo.UpdatedBy (amc : NrAmc) (cqi : μ → DlCqiInfo) (ue : DlUeInfo μ)
    (metric : DlMetric μ) : Prop where
  dlTbSize : metric.dlTbSize = ue.foundStreams amc cqi
  cqi : cqi metric.other = cqi ue.metric.other

/-- TB sizes change by `UpdateDlMetric` only: for the user that is given resources, and for the others as
well if `all`. -/
structure DlPolicy.UpdatesStreams (policy : DlPolicy μ) (amc : NrAmc) (cqi : μ → DlCqiInfo)
    (all : Bool) : Prop where
  before : ∀ p ue, (policy.beforeDlSched p ue).dlTbSize = ue.metric.dlTbSize
  assigned : ∀ p q (ue : DlUeInfo μ), ue.UpdatedBy amc cqi (policy.assignedDlResources p q ue)
  notAssigned : ∀ p q (ue : DlUeInfo μ), if all then ue.UpdatedBy amc cqi (policy.notAssignedDlResources p q ue)
    else policy.notAssignedDlResources p q ue = ue.metric

theorem updatesStreams_rr (amc : NrAmc) (cqi : μ → DlCqiInfo) (order : DlPolicy μ) :
    (amc.rrDlPolicy cqi order).UpdatesStreams amc cqi false where
  before _ _ := rfl
  assigned _ _ _ := ⟨rfl, rfl⟩
  notAssigned _ _ _ := rfl

theorem updatesStreams_pf (amc : NrAmc) (timeWindow : ℚ) (order : DlPolicy NrMacSchedulerUeInfoPF) :
    (amc.pfDlPolicy timeWindow order).UpdatesStreams amc NrMacSchedulerUeInfoPF.dlCqi true where
  before _ _ := rfl
  assigned _ _ _ := ⟨rfl, rfl⟩
  notAssigned _ _ _ := ⟨rfl, rfl⟩

section Awards

variable {policy : DlPolicy μ} {amc : NrAmc} {cqi : μ → DlCqiInfo} {all : Bool}
  {users vector : List UePtrAndBufferReq} {ues : DlUes μ} {w : UInt16}

theorem foundStreams_updated {ue : DlUeInfo μ} {metric : DlMetric μ}
    (h : ue.UpdatedBy amc cqi metric) :
    metric.dlTbSize = DlUeInfo.foundStreams amc cqi { ue with metric := metric } := by
  have hFound : amc.updateDlMetric (cqi ue.metric.other) { ue with metric := metric } =
      metric.dlTbSize :=
    (NrAmc.updateDlMetric_updated h.dlTbSize).trans h.dlTbSize.symm
  rw [DlUeInfo.foundStreams]
  dsimp only
  rw [h.cqi, hFound]

/-- The users after one award. -/
def awarded (policy : DlPolicy μ) (grant : DlUeInfo μ → DlUeInfo μ) (p q : PointInFTPlane)
    (w : UInt16) (vector : List UePtrAndBufferReq) (ues : DlUes μ) : DlUes μ :=
  modifyAll (fun ue => { ue with metric := policy.notAssignedDlResources p q ue })
    (modifyAt (fun ue => { ue with metric := policy.assignedDlResources p q ue })
      (modifyAt grant ues w) w)
    (vector.filter fun ue => ue.1 ≠ w)

/-- The users whose TB sizes an award updates. -/
def updatedUsers (all : Bool) (w : UInt16) (vector : List UePtrAndBufferReq) : List UInt16 :=
  if all then vector.map Prod.fst else [w]

theorem awarded_spec (hPolicy : policy.UpdatesStreams amc cqi all)
    (hKeys : (users.map Prod.fst).Nodup) (hVector : vector.Perm users)
    (grant : DlUeInfo μ → DlUeInfo μ) (p q : PointInFTPlane) {m : UePtrAndBufferReq} (hM : m ∈ users) :
    (m.1 ∈ updatedUsers all w vector → (awarded policy grant p q w vector ues m.1).metric.dlTbSize =
      (awarded policy grant p q w vector ues m.1).foundStreams amc cqi) ∧
    (m.1 ∉ updatedUsers all w vector → w ∈ users.map Prod.fst →
      awarded policy grant p q w vector ues m.1 = ues m.1) := by
  have hKept : ((vector.filter fun ue => ue.1 ≠ w).map Prod.fst).Nodup :=
    ((hVector.map Prod.fst).nodup_iff.mpr hKeys).sublist (List.filter_sublist.map _)
  rcases eq_or_ne m.1 w with rfl | hNe
  · have hSelf : awarded policy grant p q m.1 vector ues m.1 =
        { grant (ues m.1) with
          metric := policy.assignedDlResources p q (grant (ues m.1)) } := by
      rw [awarded, modifyAll_of_notMem, modifyAt_self, modifyAt_self]
      intro hIn
      obtain ⟨ue, hUe, hEq⟩ := List.mem_map.mp hIn
      exact of_decide_eq_true (List.mem_filter.mp hUe).2 hEq
    refine ⟨fun _ => ?_, fun hNot hW => absurd ?_ hNot⟩
    · rw [hSelf]
      exact foundStreams_updated (hPolicy.assigned p q _)
    · rw [updatedUsers]
      split
      · exact (hVector.map _).mem_iff.mpr hW
      · exact List.mem_singleton_self _
  · have hIn : m.1 ∈ (vector.filter fun ue => ue.1 ≠ w).map Prod.fst :=
      List.mem_map_of_mem (List.mem_filter.mpr ⟨hVector.mem_iff.mpr hM, decide_eq_true hNe⟩)
    have hOther : awarded policy grant p q w vector ues m.1 =
        { ues m.1 with metric := policy.notAssignedDlResources p q (ues m.1) } := by
      rw [awarded, modifyAll_of_mem hKept hIn, modifyAt_of_ne _ _ hNe, modifyAt_of_ne _ _ hNe]
    have hPolicy := hPolicy.notAssigned p q (ues m.1)
    rw [hOther]
    cases all with
    | true =>
      refine ⟨fun _ => foundStreams_updated hPolicy, fun hNot => absurd ?_ hNot⟩
      exact List.mem_map_of_mem (hVector.mem_iff.mpr hM)
    | false =>
      refine ⟨fun hUpdated => absurd (List.mem_singleton.mp hUpdated) hNe, fun _ _ => ?_⟩
      have hSame : policy.notAssignedDlResources p q (ues m.1) = (ues m.1).metric := hPolicy
      rw [hSame]

end Awards

/-! ## The loops -/

/-- What the passes and the awards of a loop make of the users. -/
abbrev SettlesStreams {σ : Type} (L : PassLoop σ UInt16 UInt32 (DlUeInfo μ)) (amc : NrAmc)
    (cqi : μ → DlCqiInfo) (users : List UePtrAndBufferReq) (vector : σ → List UePtrAndBufferReq) :
    Prop :=
  L.Settles users (fun s => (vector s).Perm users) (fun ue u => NoUnneeded ue.2 u.metric.dlTbSize)
    fun u => u.metric.dlTbSize = u.foundStreams amc cqi

/-- The loop ends with a pass over all users, or the users that were updated after the last pass over
them need all streams for their RBGs. -/
def StreamsNeeded {σ : Type} (L : PassLoop σ UInt16 UInt32 (DlUeInfo μ)) (amc : NrAmc)
    (cqi : μ → DlCqiInfo) (users : List UePtrAndBufferReq) (n : ℕ) (s : σ) : Prop :=
  L.Ends n s ∨ ∀ ue ∈ users, ue.1 ∈ L.stale n s [] →
    NoUnneeded ue.2 ((L.values (L.run n s) ue.1).foundStreams amc cqi)

theorem noUnneeded_iff_streamsNeeded {σ : Type} {L : PassLoop σ UInt16 UInt32 (DlUeInfo μ)}
    {amc : NrAmc} {cqi : μ → DlCqiInfo} {users : List UePtrAndBufferReq}
    {vector : σ → List UePtrAndBufferReq} {n : ℕ} {s : σ}
    (hSettles : SettlesStreams L amc cqi users vector) (hKeys : (users.map Prod.fst).Nodup)
    (hVector : (vector s).Perm users)
    (hEmpty : ∀ ue ∈ users, ∀ tbs ∈ (L.values s ue.1).metric.dlTbSize, tbs = 0) :
    (∀ ue ∈ users, NoUnneeded ue.2 (L.values (L.run n s) ue.1).metric.dlTbSize) ↔
      StreamsNeeded L amc cqi users n s := by
  have hStart : L.Ledger users (fun ue u => NoUnneeded ue.2 u.metric.dlTbSize)
      (fun u => u.metric.dlTbSize = u.foundStreams amc cqi) [] s :=
    ⟨nofun, fun ue hUe _ => noUnneeded_of_empty (hEmpty ue hUe)⟩
  have hEnd := PassLoop.ledger_run hSettles hKeys n hVector hStart
  constructor
  · intro h
    refine Or.inr fun ue hUe hStale => ?_
    rw [← hEnd.stale ue hUe hStale]
    exact h ue hUe
  · rintro (hEnds | hNeeded) ue hUe
    · exact hEnd.settled ue hUe (PassLoop.notMem_stale_of_ends hSettles hKeys hVector hEnds ue hUe)
    · by_cases hStale : ue.1 ∈ L.stale n s []
      · rw [hEnd.stale ue hUe hStale]
        exact hNeeded ue hUe hStale
      · exact hEnd.settled ue hUe hStale

namespace OfdmaNewData

variable {sch : OfdmaNewData μ} {amc : NrAmc} {cqi : μ → DlCqiInfo} {all : Bool}
  {beamSym : UInt32} {s : DlBeamState μ} {users : List UePtrAndBufferReq}

/-- The rounds in which a beam is assigned. -/
def dlRounds (sch : OfdmaNewData μ) (all : Bool) (beamSym : UInt32) :
    PassLoop (DlBeamState μ) UInt16 UInt32 (DlUeInfo μ) where
  rules := dlRules μ
  vector s := sch.dlPolicy.sort s.ues s.ueVector
  values s := s.ues
  passed s :=
    { s with
      ues := (firstUncoveredDl s.ues (sch.dlPolicy.sort s.ues s.ueVector)).1
      ueVector := sch.dlPolicy.sort s.ues s.ueVector }
  award w s := sch.awardDl beamSym w.1 s
  updates w s := updatedUsers all w.1 (sch.dlPolicy.sort s.ues s.ueVector)
  values_passed s := by rw [firstUncoveredDl_eq_passOver]

theorem run_dlRounds (n : ℕ) (s : DlBeamState μ) :
    (sch.dlRounds all beamSym).run n s = sch.assignDlLoop beamSym n s := by
  induction n generalizing s with
  | zero => rfl
  | succ n ih =>
    have hFound : (sch.dlRounds all beamSym).found s =
        (firstUncoveredDl s.ues (sch.dlPolicy.sort s.ues s.ueVector)).2 := by
      rw [firstUncoveredDl_eq_passOver]
      rfl
    rw [PassLoop.run, assignDlLoop, hFound]
    cases (firstUncoveredDl s.ues (sch.dlPolicy.sort s.ues s.ueVector)).2 with
    | none => rfl
    | some ue => exact ih _

theorem awardDl_eq (beamSym : UInt32) (w : UInt16) (s : DlBeamState μ) :
    (sch.awardDl beamSym w s).ues = awarded sch.dlPolicy
      (fun ue => { ue with dlRBG := ue.dlRBG + beamSym, dlSym := beamSym.toUInt8 })
      (ftResources beamSym beamSym) { rbg := s.assigned.rbg + beamSym, sym := beamSym.toUInt8 } w
      s.ueVector s.ues := rfl

theorem dlRounds_settles (hPolicy : sch.dlPolicy.UpdatesStreams amc cqi all)
    (hKeys : (users.map Prod.fst).Nodup) (beamSym : UInt32) :
    SettlesStreams (sch.dlRounds all beamSym) amc cqi users DlBeamState.ueVector where
  perm s hVector := (sch.dlPolicy.sort_perm _ _).trans hVector
  award w s hVector _ := (sch.dlPolicy.sort_perm s.ues s.ueVector).trans hVector
  settled m ue _ := noUnneeded_trimDl m.2 ue
  updated w s hVector _ m hM hUpdated := by
    have hSorted := (sch.dlPolicy.sort_perm s.ues s.ueVector).trans hVector
    change ((sch.awardDl _ _ _).ues _).metric.dlTbSize = ((sch.awardDl _ _ _).ues _).foundStreams _ _
    rw [awardDl_eq]
    exact (awarded_spec hPolicy hKeys hSorted _ _ _ hM).1 hUpdated
  kept w s hVector hW m hM hNot := by
    have hSorted := (sch.dlPolicy.sort_perm s.ues s.ueVector).trans hVector
    change (sch.awardDl _ _ _).ues _ = _
    rw [awardDl_eq]
    exact (awarded_spec hPolicy hKeys hSorted _ _ _ hM).2 hNot (List.mem_map_of_mem hW)

/-- Beam by beam, each loop from what the loops before it have left. -/
def StreamsNeededIn (sch : OfdmaNewData μ) (amc : NrAmc) (cqi : μ → DlCqiInfo) (all : Bool)
    (symPerBeam : UInt16 → UInt32) : DlUes μ → ActiveUeMap → Prop
  | _, [] => True
  | ues, el :: activeDl =>
    StreamsNeeded (sch.dlRounds all (symPerBeam el.1)) amc cqi el.2 sch.assignableDlRbgs.toNat
        (sch.dlStart (symPerBeam el.1) ues el.2) ∧
      StreamsNeededIn sch amc cqi all symPerBeam
        (sch.assignDlLoop (symPerBeam el.1) sch.assignableDlRbgs.toNat
          (sch.dlStart (symPerBeam el.1) ues el.2)).ues activeDl

theorem dlStart_dlTbSize (hPolicy : sch.dlPolicy.UpdatesStreams amc cqi all) (beamSym : UInt32)
    (ues : DlUes μ) (beam : List UePtrAndBufferReq) (rnti : UInt16) :
    ((sch.dlStart beamSym ues beam).ues rnti).metric.dlTbSize = (ues rnti).metric.dlTbSize := by
  rw [dlStart]
  exact modifyAll_induction
    (g := fun ue : DlUeInfo μ => { ue with
      metric := sch.dlPolicy.beforeDlSched (ftResources (beamSym * beamSym) beamSym) ue })
    (P := fun rnti (ue : DlUeInfo μ) => ue.metric.dlTbSize = (ues rnti).metric.dlTbSize)
    (fun _ ue hSame => (hPolicy.before _ ue).trans hSame) (fun _ => rfl) rnti

theorem assignDLRBG_noUnneeded_iff {symPerBeam : UInt16 → UInt32} {activeDl : ActiveUeMap}
    {ues ues' : DlUes μ} (hPolicy : sch.dlPolicy.UpdatesStreams amc cqi all)
    (hKeys : ((activeDl.flatMap Prod.snd).map Prod.fst).Nodup)
    (hEmpty : ∀ rnti ∈ (activeDl.flatMap Prod.snd).map Prod.fst,
      ∀ tbs ∈ (ues rnti).metric.dlTbSize, tbs = 0)
    (h : sch.assignDLRBG symPerBeam ues activeDl = some ues') :
    (∀ el ∈ activeDl, ∀ ue ∈ el.2, NoUnneeded ue.2 (ues' ue.1).metric.dlTbSize) ↔
      sch.StreamsNeededIn amc cqi all symPerBeam ues activeDl := by
  induction activeDl generalizing ues with
  | nil => exact iff_of_true nofun trivial
  | cons el activeDl ih =>
    obtain ⟨-, final, hFinal, hRest, hOwn, hLater⟩ := assignDLRBG_cons sch hKeys h
    rw [List.flatMap_cons, List.map_append] at hKeys hEmpty
    obtain ⟨hBeamKeys, hRestKeys, -⟩ := List.nodup_append'.mp hKeys
    have hRestEmpty : ∀ rnti ∈ (activeDl.flatMap Prod.snd).map Prod.fst,
        ∀ tbs ∈ (final rnti).metric.dlTbSize, tbs = 0 := by
      intro rnti hMem
      rw [hLater rnti hMem]
      exact hEmpty rnti (List.mem_append_right _ hMem)
    have hBeamEmpty : ∀ ue ∈ el.2,
        ∀ tbs ∈ ((sch.dlStart (symPerBeam el.1) ues el.2).ues ue.1).metric.dlTbSize, tbs = 0 := by
      intro ue hUe
      rw [dlStart_dlTbSize hPolicy]
      exact hEmpty ue.1 (List.mem_append_left _ (List.mem_map_of_mem hUe))
    have hBeam := noUnneeded_iff_streamsNeeded (n := sch.assignableDlRbgs.toNat)
      (s := sch.dlStart (symPerBeam el.1) ues el.2)
      (dlRounds_settles hPolicy hBeamKeys (symPerBeam el.1)) hBeamKeys (List.Perm.refl _) hBeamEmpty
    rw [run_dlRounds] at hBeam
    rw [List.forall_mem_cons, StreamsNeededIn, ← hFinal]
    refine and_congr ?_ (ih hRestKeys hRestEmpty hRest)
    rw [← hBeam]
    refine forall₂_congr fun ue hUe => ?_
    rw [hOwn ue hUe, hFinal]
    rfl

end OfdmaNewData

namespace TdmaScheduler

variable {sch : TdmaScheduler μ} {amc : NrAmc} {cqi : μ → DlCqiInfo} {all : Bool} {rbgs : UInt32}
  {users : List UePtrAndBufferReq}

theorem dlCallbacks_firstUncovered (ues : DlUes μ) (l : List UePtrAndBufferReq) :
    sch.dlCallbacks.firstUncovered ues l = passOver (dlRules μ) ues l :=
  TdmaCallbacks.firstUncovered_eq_passOver (fun _ _ => rfl) (fun _ _ => rfl) ues l

/-- The rounds in which a slot is assigned. -/
def dlRounds (sch : TdmaScheduler μ) (all : Bool) (rbgs : UInt32) :
    PassLoop (TdmaState (DlUeInfo μ)) UInt16 UInt32 (DlUeInfo μ) where
  rules := dlRules μ
  vector s := sch.dlPolicy.sort s.ues s.ueVector
  values s := s.ues
  passed s :=
    { s with
      ues := (sch.dlCallbacks.firstUncovered s.ues (sch.dlPolicy.sort s.ues s.ueVector)).1
      ueVector := sch.dlPolicy.sort s.ues s.ueVector }
  award w s := sch.dlCallbacks.award rbgs w.1 s
  updates w s := updatedUsers all w.1 (sch.dlPolicy.sort s.ues s.ueVector)
  values_passed s := by rw [dlCallbacks_firstUncovered]

theorem run_dlRounds (n : ℕ) (s : TdmaState (DlUeInfo μ)) :
    (sch.dlRounds all rbgs).run n s = sch.dlCallbacks.assignLoop rbgs n s := by
  induction n generalizing s with
  | zero => rfl
  | succ n ih =>
    have hFound : (sch.dlRounds all rbgs).found s =
        (sch.dlCallbacks.firstUncovered s.ues (sch.dlPolicy.sort s.ues s.ueVector)).2 := by
      rw [dlCallbacks_firstUncovered]
      rfl
    have hSort : sch.dlCallbacks.sort = sch.dlPolicy.sort := rfl
    rw [PassLoop.run, TdmaCallbacks.assignLoop, hFound, hSort]
    cases (sch.dlCallbacks.firstUncovered s.ues (sch.dlPolicy.sort s.ues s.ueVector)).2 with
    | none => rfl
    | some ue => exact ih _

theorem award_eq (w : UInt16) (s : TdmaState (DlUeInfo μ)) :
    (sch.dlCallbacks.award rbgs w s).ues = awarded sch.dlPolicy
      (fun ue => { ue with dlRBG := ue.dlRBG + rbgs, dlSym := ue.dlSym + 1 })
      (ftResources rbgs 1) { rbg := s.assigned.rbg + rbgs, sym := s.assigned.sym + 1 } w
      s.ueVector s.ues := rfl

theorem dlRounds_settles (hPolicy : sch.dlPolicy.UpdatesStreams amc cqi all)
    (hKeys : (users.map Prod.fst).Nodup) (rbgs : UInt32) :
    SettlesStreams (sch.dlRounds all rbgs) amc cqi users TdmaState.ueVector where
  perm s hVector := (sch.dlPolicy.sort_perm _ _).trans hVector
  award w s hVector _ := (sch.dlPolicy.sort_perm s.ues s.ueVector).trans hVector
  settled m ue _ := noUnneeded_trimDl m.2 ue
  updated w s hVector _ m hM hUpdated := by
    have hSorted := (sch.dlPolicy.sort_perm s.ues s.ueVector).trans hVector
    change ((sch.dlCallbacks.award _ _ _).ues _).metric.dlTbSize =
      ((sch.dlCallbacks.award _ _ _).ues _).foundStreams _ _
    rw [award_eq]
    exact (awarded_spec hPolicy hKeys hSorted _ _ _ hM).1 hUpdated
  kept w s hVector hW m hM hNot := by
    have hSorted := (sch.dlPolicy.sort_perm s.ues s.ueVector).trans hVector
    change (sch.dlCallbacks.award _ _ _).ues _ = _
    rw [award_eq]
    exact (awarded_spec hPolicy hKeys hSorted _ _ _ hM).2 hNot (List.mem_map_of_mem hW)

theorem start_dlTbSize (hPolicy : sch.dlPolicy.UpdatesStreams amc cqi all) (active : ActiveUeMap)
    (ues : DlUes μ) (rnti : UInt16) :
    ((sch.dlCallbacks.start rbgs active ues).ues rnti).metric.dlTbSize =
      (ues rnti).metric.dlTbSize :=
  modifyAll_induction (g := sch.dlCallbacks.beforeSched (ftResources rbgs 1))
    (P := fun rnti (ue : DlUeInfo μ) => ue.metric.dlTbSize = (ues rnti).metric.dlTbSize)
    (fun _ ue hSame => (hPolicy.before _ ue).trans hSame) (fun _ => rfl) rnti

end TdmaScheduler

/-! ## Both schedulers -/

/-- Either scheduler. -/
inductive DlScheduler (μ : Type) where
  | ofdma (sch : OfdmaNewData μ)
  | tdma (sch : TdmaScheduler μ)

namespace DlScheduler

def newData : DlScheduler μ → NewDataScheduler μ
  | ofdma sch => sch.dlNewData
  | tdma sch => sch.dlNewData

def dlPolicy : DlScheduler μ → DlPolicy μ
  | ofdma sch => sch.dlPolicy
  | tdma sch => sch.dlPolicy

/-- In each loop, one for a beam with OFDMA and one for the slot with TDMA. -/
def StreamsNeeded (m : DlScheduler μ) (amc : NrAmc) (cqi : μ → DlCqiInfo) (all : Bool)
    (symAvail : UInt32) (active : ActiveUeMap) (ues : DlUes μ) : Prop :=
  match m with
  | ofdma sch => ∀ l, sch.getSymPerBeam symAvail active = some l →
      sch.StreamsNeededIn amc cqi all (symbolsOf l) ues active
  | tdma sch =>
    let rbgs := sch.numOfAssignableRbgs sch.dlNotchedRbgsMask
    Mac.StreamsNeeded (sch.dlRounds all rbgs) amc cqi (active.flatMap Prod.snd) symAvail.toNat
      (sch.dlCallbacks.start rbgs active ues)

/-- Round robin with TDMA over ten RBGs. -/
def tenRbgs : TdmaScheduler DlCqiInfo where
  bandwidthInRbg := 10
  numRbPerRbg := 1
  bwpId := 0
  dlNotchedRbgsMask := []
  ulNotchedRbgsMask := []
  dlPolicy := NrAmc.rrDlPolicy ⟨fun _ => OfdmaScheduler.tbSizeMcs9, 1⟩ id
    { beforeDlSched := fun _ ue => ue.metric
      assignedDlResources := fun _ _ ue => ue.metric
      notAssignedDlResources := fun _ _ ue => ue.metric
      sort := fun ues l => l.insertionSort fun a b => (ues a.1).dlRBG ≤ (ues b.1).dlRBG
      sort_perm := fun _ l => List.perm_insertionSort _ l }
  ulPolicy :=
    { beforeUlSched := fun _ ue => ue.metric
      assignedUlResources := fun _ _ ue => ue.metric
      notAssignedUlResources := fun _ _ ue => ue.metric
      sort := fun _ l => l
      sort_perm := fun _ => List.Perm.refl }
  resets := ⟨id, id, id, id⟩
  calculateTbSize _ := OfdmaScheduler.tbSizeMcs9

/-- Users that report two streams. -/
def twoStreamUsers : SchedUes DlCqiInfo where
  harq _ := none
  dl _ :=
    { dlMcs := [9, 9]
      metric := { dlTbSize := [0, 0], other := { ri := 2, wbCqi := [9, 9] } } }
  ul _ := { metric := { other := {} } }
  dlLCG _ := []
  ulLCG _ := []

theorem twoStreamUsers_empty (rnti : UInt16) :
    ∀ tbs ∈ (twoStreamUsers.dl rnti).metric.dlTbSize, tbs = 0 :=
  List.forall_mem_cons.mpr ⟨rfl, List.forall_mem_singleton.mpr rfl⟩

theorem tenRbgs_updatesStreams : (tdma tenRbgs).dlPolicy.UpdatesStreams
    ⟨fun _ => OfdmaScheduler.tbSizeMcs9, 1⟩ id false :=
  updatesStreams_rr _ _ _

end DlScheduler

end Bullet.Mac
