import Bullet.Lib.FairRounds
import Bullet.Mac.DlGrants

/-! # Round robin

The RR schedulers give each RBG, or each symbol, to the user with the fewest RBGs that is not
covered. They update the TB sizes of the user that is given resources, and of no other.
-/

namespace Bullet.Mac

open Lib.Shares Lib.FairRounds

variable {μ : Type}

/-- `NrMacSchedulerOfdmaRR` and `NrMacSchedulerTdmaRR` in DL. How `UpdateDlMetric` finds the TB sizes
is left open. -/
structure DlPolicy.RoundRobin (policy : DlPolicy μ) : Prop where
  before : ∀ p ue, policy.beforeDlSched p ue = ue.metric
  notAssigned : ∀ p q ue, policy.notAssignedDlResources p q ue = ue.metric
  sorted : ∀ ues l, (policy.sort ues l).Pairwise fun a b => (ues a.1).dlRBG ≤ (ues b.1).dlRBG

structure UlPolicy.RoundRobin (policy : UlPolicy μ) : Prop where
  before : ∀ p ue, policy.beforeUlSched p ue = ue.metric
  notAssigned : ∀ p q ue, policy.notAssignedUlResources p q ue = ue.metric
  sorted : ∀ ues l, (policy.sort ues l).Pairwise fun a b => (ues a.1).ulRBG ≤ (ues b.1).ulRBG

/-! ## What a pass does to a user -/

theorem trimStreams_trimStreams (buf : UInt32) (l : List UInt32) :
    trimStreams buf (trimStreams buf l) = trimStreams buf l := by
  induction l generalizing buf with
  | nil => rfl
  | cons tbs l ih =>
    rw [trimStreams]
    split
    case isTrue hZero =>
      subst hZero
      rw [trimStreams, if_pos rfl, ih]
    case isFalse hBuf => rw [trimStreams, if_neg hBuf, ih]

@[simp] theorem length_trimStreams (buf : UInt32) (l : List UInt32) :
    (trimStreams buf l).length = l.length := by
  induction l generalizing buf with
  | nil => rfl
  | cons tbs l ih =>
    rw [trimStreams]
    split <;> exact congrArg (· + 1) (ih _)

/-- The bytes of all streams. -/
def tbBytes (l : List UInt32) : ℕ := total l UInt32.toNat

/-- The streams that are kept still cover the bytes. -/
theorem le_tbBytes_trimStreams {buf : UInt32} {l : List UInt32} (h : buf.toNat ≤ tbBytes l) :
    buf.toNat ≤ tbBytes (trimStreams buf l) := by
  induction l generalizing buf with
  | nil => exact h
  | cons tbs l ih =>
    rw [trimStreams]
    split
    case isTrue hZero =>
      subst hZero
      exact Nat.zero_le _
    case isFalse =>
      rw [tbBytes, total_cons] at h ⊢
      split
      case isTrue hLe => exact (UInt32.le_iff_toNat_le.mp hLe).trans (Nat.le_add_right _ _)
      case isFalse hLt =>
        have hLe := UInt32.le_of_lt (UInt32.not_le.mp hLt)
        have hRest := UInt32.toNat_sub_of_le _ _ hLe
        have hNeeded : (buf - tbs).toNat ≤ tbBytes l := by
          rw [tbBytes]
          omega
        have hKept := ih hNeeded
        rw [tbBytes] at hKept
        omega

/-- The sum in 32 bits is at most the true one. -/
theorem foldl_add_le_tbBytes (l : List UInt32) : (l.foldl (· + ·) 0).toNat ≤ tbBytes l := by
  have hFold : ∀ (l : List UInt32) (start : UInt32),
      (l.foldl (· + ·) start).toNat ≤ start.toNat + tbBytes l := by
    intro l
    induction l with
    | nil => exact fun start => Nat.le_refl _
    | cons tbs l ih =>
      intro start
      have hRest := ih (start + tbs)
      have hSum : (start + tbs).toNat ≤ start.toNat + tbs.toNat := by
        rw [UInt32.toNat_add]
        exact Nat.mod_le _ _
      rw [List.foldl_cons, tbBytes, total_cons]
      rw [tbBytes] at hRest
      omega
  exact (hFold l 0).trans (le_of_eq (Nat.zero_add _))

/-- Clears the streams of a user that it does not need. -/
def trimDl (buf : UInt32) (ue : DlUeInfo μ) : DlUeInfo μ :=
  { ue with metric.dlTbSize :=
      if 1 < ue.metric.dlTbSize.length then trimStreams buf ue.metric.dlTbSize
      else ue.metric.dlTbSize }

/-- The TB sizes of the user cover its request. -/
def ServedDl (buf : UInt32) (ue : DlUeInfo μ) : Prop := buf.toNat ≤ tbBytes ue.metric.dlTbSize

def ServedUl (buf : UInt32) (ue : UlUeInfo μ) : Prop := buf.toNat ≤ ue.metric.ulTbSize.toNat

theorem le_of_max_le {buf least tbs : UInt32} (h : max buf least ≤ tbs) : buf.toNat ≤ tbs.toNat := by
  have hMax : max buf least = if buf ≤ least then least else buf := rfl
  rw [hMax] at h
  split at h
  case isTrue hLe => exact UInt32.le_iff_toNat_le.mp (UInt32.le_trans hLe h)
  case isFalse => exact UInt32.le_iff_toNat_le.mp h

theorem servedDl_of_covered {buf : UInt32} {ue : DlUeInfo μ} (h : dlCovered ue buf = true) :
    ServedDl buf ue :=
  (le_of_max_le (of_decide_eq_true h)).trans (foldl_add_le_tbBytes _)

theorem servedDl_trimDl {buf : UInt32} {ue : DlUeInfo μ} (h : ServedDl buf ue) :
    ServedDl buf (trimDl buf ue) := by
  rw [ServedDl, trimDl]
  dsimp only
  split
  · exact le_tbBytes_trimStreams h
  · exact h

theorem trimDl_trimDl (buf : UInt32) (ue : DlUeInfo μ) :
    trimDl buf (trimDl buf ue) = trimDl buf ue := by
  unfold trimDl
  dsimp only
  split
  case isTrue hSeveral => rw [length_trimStreams, if_pos hSeveral, trimStreams_trimStreams]
  case isFalse => rfl

def dlRules (μ : Type) : Rules UInt32 (DlUeInfo μ) where
  covered buf ue := dlCovered ue buf
  served := ServedDl
  trim := trimDl
  held ue := ue.dlRBG.toNat
  served_of_covered _ _ := servedDl_of_covered
  served_trim _ _ h := servedDl_trimDl (servedDl_of_covered h)
  trim_trim := trimDl_trimDl
  held_trim _ _ := rfl

def ulRules (μ : Type) : Rules UInt32 (UlUeInfo μ) where
  covered buf ue := max buf 10 ≤ ue.metric.ulTbSize
  served := ServedUl
  trim _ ue := ue
  held ue := ue.ulRBG.toNat
  served_of_covered _ _ h := le_of_max_le (of_decide_eq_true h)
  served_trim _ _ h := le_of_max_le (of_decide_eq_true h)
  trim_trim _ _ := rfl
  held_trim _ _ := rfl

/-! ## The loops as rounds -/

theorem setDlMetric_self (ues : DlUes μ) (rnti : UInt16) :
    setDlMetric ues rnti (ues rnti).metric = ues := Function.update_eq_self rnti ues

theorem updateDlMetrics_metric (ues : DlUes μ) (l : List UePtrAndBufferReq) :
    updateDlMetrics DlUeInfo.metric ues l = ues := by
  rw [updateDlMetrics]
  induction l with
  | nil => rfl
  | cons ue l ih => rw [List.foldl_cons, setDlMetric_self, ih]

theorem firstUncoveredDl_eq_passOver (ues : DlUes μ) (l : List UePtrAndBufferReq) :
    firstUncoveredDl ues l = passOver (dlRules μ) ues l := by
  induction l generalizing ues with
  | nil => rfl
  | cons ue l ih =>
    rw [firstUncoveredDl, passOver]
    have hTrim : (if 1 < (ues ue.1).metric.dlTbSize.length then
        setDlMetric ues ue.1 { (ues ue.1).metric with
          dlTbSize := trimStreams ue.2 (ues ue.1).metric.dlTbSize }
        else ues) = Function.update ues ue.1 (trimDl ue.2 (ues ue.1)) := by
      unfold trimDl
      split
      · rfl
      · exact (Function.update_eq_self ue.1 ues).symm
    dsimp only
    rw [hTrim, ih]
    rfl

namespace OfdmaNewData

variable {sch : OfdmaNewData μ} {beamSym : UInt32} {s : DlBeamState μ} {n : ℕ}
  {users : List UePtrAndBufferReq}

/-- Nothing changes for the other users. -/
theorem awardDl_of_ne (hRr : sch.dlPolicy.RoundRobin) {rnti rnti' : UInt16} (hNe : rnti' ≠ rnti) :
    (sch.awardDl beamSym rnti s).ues rnti' = s.ues rnti' := by
  have hIdle : ∀ p q, sch.dlPolicy.notAssignedDlResources p q = DlUeInfo.metric :=
    fun p q => funext fun ue => hRr.notAssigned p q ue
  rw [awardDl, hIdle]
  dsimp only
  rw [updateDlMetrics_metric, setDlMetric, Function.update_of_ne hNe, Function.update_of_ne hNe]

theorem assignDlLoop_runs (hRr : sch.dlPolicy.RoundRobin) (hKeys : (users.map Prod.fst).Nodup)
    (hPerm : s.ueVector.Perm users)
    (hFits : total users (fun ue => (s.ues ue.1).dlRBG.toNat) + n * beamSym.toNat < 2 ^ 32) :
    Runs (dlRules μ) beamSym.toNat users n s.ues (sch.assignDlLoop beamSym n s).ues := by
  induction n generalizing s with
  | zero => exact .spent s.ues
  | succ n ih =>
    have hPerm' := (sch.dlPolicy.sort_perm s.ues s.ueVector).trans hPerm
    have hSorted : Sorted (dlRules μ) s.ues (sch.dlPolicy.sort s.ues s.ueVector) :=
      (hRr.sorted s.ues s.ueVector).imp UInt32.le_iff_toNat_le.mp
    rw [assignDlLoop, firstUncoveredDl_eq_passOver]
    cases hFound : (passOver (dlRules μ) s.ues (sch.dlPolicy.sort s.ues s.ueVector)).2 with
    | none => exact .rest n (rest_of_passOver hPerm' hKeys hFound)
    | some w =>
      let passed : DlBeamState μ :=
        { s with
          ues := (passOver (dlRules μ) s.ues (sch.dlPolicy.sort s.ues s.ueVector)).1
          ueVector := sch.dlPolicy.sort s.ues s.ueVector }
      have hRbg : ∀ rnti, (passed.ues rnti).dlRBG = (s.ues rnti).dlRBG := by
        intro rnti
        have hKept : ((firstUncoveredDl s.ues (sch.dlPolicy.sort s.ues s.ueVector)).1 rnti).dlRBG =
            (s.ues rnti).dlRBG := firstUncoveredDl_dlRBG _ _
        rwa [firstUncoveredDl_eq_passOver] at hKept
      obtain ⟨hMem, hLt⟩ : w ∈ users ∧
          (s.ues w.1).dlRBG.toNat + beamSym.toNat < 2 ^ 32 := by
        have hMem := hPerm'.mem_iff.mp (mem_of_passOver hFound)
        have hHeld := le_total (fun ue : UePtrAndBufferReq => (s.ues ue.1).dlRBG.toNat) hMem
        rw [Nat.succ_mul] at hFits
        exact ⟨hMem, by omega⟩
      have hGain : ((sch.awardDl beamSym w.1 passed).ues w.1).dlRBG.toNat =
          (s.ues w.1).dlRBG.toNat + beamSym.toNat := by
        rw [awardDl_dlRBG_self, hRbg, UInt32.toNat_add]
        exact Nat.mod_eq_of_lt hLt
      have hRound : Round (dlRules μ) beamSym.toNat users w s.ues
          (sch.awardDl beamSym w.1 passed).ues :=
        round_of_passOver hPerm' hKeys hSorted hFound (fun _ hNe => awardDl_of_ne hRr hNe) hGain
      have hTotal : total users (fun ue => ((sch.awardDl beamSym w.1 passed).ues ue.1).dlRBG.toNat) =
          total users (fun ue => (s.ues ue.1).dlRBG.toNat) + beamSym.toNat :=
        hRound.total_held hKeys
      refine .round hRound (ih hPerm' ?_)
      rw [Nat.succ_mul] at hFits
      rw [hTotal]
      omega

end OfdmaNewData

namespace TdmaCallbacks

variable {α : Type} {cb : TdmaCallbacks α} {r : Rules UInt32 α} {rbgs : UInt32} {s : TdmaState α}
  {n : ℕ} {users : List UePtrAndBufferReq}

/-- The callbacks of a round robin scheduler follow the rules. -/
structure RoundRobin (cb : TdmaCallbacks α) (r : Rules UInt32 α) : Prop where
  before : ∀ p ue, cb.beforeSched p ue = ue
  notAssigned : ∀ p q ue, cb.unSuccessfullAssignment p q ue = ue
  sorted : ∀ ues l, (cb.sort ues l).Pairwise fun a b => cb.getRBG (ues a.1) ≤ cb.getRBG (ues b.1)
  covered : ∀ buf ue, r.covered buf ue = decide (max buf 10 ≤ cb.getTBS ue)
  trim : ∀ buf ue, r.trim buf ue = cb.trim buf ue
  held : ∀ ue, r.held ue = (cb.getRBG ue).toNat

theorem foldl_updateUe_id {f : α → α} (hId : ∀ ue, f ue = ue) (ues : UInt16 → α)
    (l : List UePtrAndBufferReq) : l.foldl (fun ues ue => updateUe f ues ue.1) ues = ues := by
  induction l with
  | nil => rfl
  | cons ue l ih => rw [List.foldl_cons, updateUe, hId, Function.update_eq_self, ih]

theorem firstUncovered_eq_passOver
    (hCovered : ∀ buf ue, r.covered buf ue = decide (max buf 10 ≤ cb.getTBS ue))
    (hTrim : ∀ buf ue, r.trim buf ue = cb.trim buf ue) (ues : UInt16 → α)
    (l : List UePtrAndBufferReq) : cb.firstUncovered ues l = passOver r ues l := by
  induction l generalizing ues with
  | nil => rfl
  | cons ue l ih =>
    rw [firstUncovered, passOver, hCovered, ih, updateUe, hTrim]
    simp only [decide_eq_true_eq]

/-- Nothing changes for the other users. -/
theorem award_of_ne (hRr : cb.RoundRobin r) {rnti rnti' : UInt16} (hNe : rnti' ≠ rnti) :
    (cb.award rbgs rnti s).ues rnti' = s.ues rnti' := by
  rw [award]
  dsimp only
  rw [foldl_updateUe_id (hRr.notAssigned _ _), updateUe, updateUe, Function.update_of_ne hNe,
    Function.update_of_ne hNe]

theorem assignLoop_runs (hRr : cb.RoundRobin r) (hKeys : (users.map Prod.fst).Nodup)
    (hPerm : s.ueVector.Perm users)
    (hFits : total users (fun ue => r.held (s.ues ue.1)) + n * rbgs.toNat < 2 ^ 32) :
    Runs r rbgs.toNat users n s.ues (cb.assignLoop rbgs n s).ues := by
  induction n generalizing s with
  | zero => exact .spent s.ues
  | succ n ih =>
    have hPerm' := (cb.sort_perm s.ues s.ueVector).trans hPerm
    have hSorted : Sorted r s.ues (cb.sort s.ues s.ueVector) := by
      refine (hRr.sorted s.ues s.ueVector).imp fun hLe => ?_
      rw [hRr.held, hRr.held]
      exact UInt32.le_iff_toNat_le.mp hLe
    rw [assignLoop, firstUncovered_eq_passOver hRr.covered hRr.trim]
    cases hFound : (passOver r s.ues (cb.sort s.ues s.ueVector)).2 with
    | none => exact .rest n (rest_of_passOver hPerm' hKeys hFound)
    | some w =>
      let passed : TdmaState α :=
        { s with
          ues := (passOver r s.ues (cb.sort s.ues s.ueVector)).1
          ueVector := cb.sort s.ues s.ueVector }
      have hRbg : cb.getRBG (passed.ues w.1) = cb.getRBG (s.ues w.1) := by
        have hKept := cb.getRBG_firstUncovered (cb.sort s.ues s.ueVector) s.ues w.1
        rwa [firstUncovered_eq_passOver hRr.covered hRr.trim] at hKept
      have hLt : (cb.getRBG (s.ues w.1)).toNat + rbgs.toNat < 2 ^ 32 := by
        have hMem := hPerm'.mem_iff.mp (mem_of_passOver hFound)
        have hHeld := le_total (fun ue : UePtrAndBufferReq => r.held (s.ues ue.1)) hMem
        rw [hRr.held] at hHeld
        rw [Nat.succ_mul] at hFits
        omega
      have hGain : r.held ((cb.award rbgs w.1 passed).ues w.1) =
          r.held (s.ues w.1) + rbgs.toNat := by
        rw [hRr.held, hRr.held, getRBG_award, if_pos rfl, hRbg, UInt32.toNat_add]
        exact Nat.mod_eq_of_lt hLt
      have hRound : Round r rbgs.toNat users w s.ues (cb.award rbgs w.1 passed).ues :=
        round_of_passOver hPerm' hKeys hSorted hFound (fun _ hNe => award_of_ne hRr hNe) hGain
      have hTotal : total users (fun ue => r.held ((cb.award rbgs w.1 passed).ues ue.1)) =
          total users (fun ue => r.held (s.ues ue.1)) + rbgs.toNat := hRound.total_held hKeys
      refine .round hRound (ih hPerm' ?_)
      rw [Nat.succ_mul] at hFits
      rw [hTotal]
      omega

end TdmaCallbacks

theorem roundRobin_dlCallbacks {sch : TdmaScheduler μ} (hRr : sch.dlPolicy.RoundRobin) :
    sch.dlCallbacks.RoundRobin (dlRules μ) where
  before p ue := congrArg (fun metric => { ue with metric := metric }) (hRr.before p ue)
  notAssigned p q ue := congrArg (fun metric => { ue with metric := metric }) (hRr.notAssigned p q ue)
  sorted := hRr.sorted
  covered _ _ := rfl
  trim _ _ := rfl
  held _ := rfl

theorem roundRobin_ulCallbacks {sch : TdmaScheduler μ} (hRr : sch.ulPolicy.RoundRobin) :
    sch.ulCallbacks.RoundRobin (ulRules μ) where
  before p ue := congrArg (fun metric => { ue with metric := metric }) (hRr.before p ue)
  notAssigned p q ue := congrArg (fun metric => { ue with metric := metric }) (hRr.notAssigned p q ue)
  sorted := hRr.sorted
  covered _ _ := rfl
  trim _ _ := rfl
  held _ := rfl

/-! ## The three assignments -/

/-- The users that share a budget of steps, and what a step adds to the RBGs of a user. -/
structure Competition where
  users : List UePtrAndBufferReq
  step : ℕ
  budget : ℕ

/-- Whoever is more than one step behind another user is served, and either all users are served or
all steps are handed out. -/
structure FairShares (c : Competition) (held : UInt16 → ℕ) (served : UePtrAndBufferReq → Prop) :
    Prop where
  maxMin : ∀ i ∈ c.users, ∀ j ∈ c.users, held j.1 + c.step < held i.1 → served j
  conserving : (∀ ue ∈ c.users, served ue) ∨
    total c.users (fun ue => held ue.1) = c.budget * c.step

theorem fairShares_of_runs {α : Type} {r : Rules UInt32 α} {step n : ℕ}
    {users : List UePtrAndBufferReq} {ues ues' : UInt16 → α} (hRuns : Runs r step users n ues ues')
    (hKeys : (users.map Prod.fst).Nodup) (hFresh : ∀ ue ∈ users, r.held (ues ue.1) = 0) :
    FairShares ⟨users, step, n⟩ (fun rnti => r.held (ues' rnti))
      fun ue => r.served ue.2 (ues' ue.1) where
  maxMin := hRuns.fair (even_of_equal fun i hI j hJ => (hFresh i hI).trans (hFresh j hJ).symm) hKeys
  conserving := by
    refine (hRuns.conserves hKeys).imp_right fun hTotal => hTotal.trans ?_
    rw [total_eq_zero hFresh, Nat.zero_add]

theorem FairShares.congr {c : Competition} {held held' : UInt16 → ℕ}
    {served served' : UePtrAndBufferReq → Prop} (h : FairShares c held served)
    (hHeld : ∀ ue ∈ c.users, held' ue.1 = held ue.1)
    (hServed : ∀ ue ∈ c.users, served' ue ↔ served ue) : FairShares c held' served' where
  maxMin i hI j hJ hBehind := by
    rw [hHeld i hI, hHeld j hJ] at hBehind
    exact (hServed j hJ).mpr (h.maxMin i hI j hJ hBehind)
  conserving := by
    rcases h.conserving with hAll | hTotal
    · exact Or.inl fun ue hUe => (hServed ue hUe).mpr (hAll ue hUe)
    · exact Or.inr ((total_congr hHeld).trans hTotal)

/-- Beam by beam, and nothing changes for users that are in none of the beams. -/
theorem OfdmaNewData.assignDLRBG_fair {sch : OfdmaNewData μ} (hRr : sch.dlPolicy.RoundRobin)
    {symPerBeam : UInt16 → UInt32} {activeDl : ActiveUeMap} {ues ues' : DlUes μ}
    (hFits : ∀ beam ∈ activeDl, sch.assignableDlRbgs.toNat * (symPerBeam beam.1).toNat < 2 ^ 32)
    (hNodup : ((activeDl.flatMap Prod.snd).map Prod.fst).Nodup)
    (hFresh : ∀ ue ∈ activeDl.flatMap Prod.snd, (ues ue.1).dlRBG.toNat = 0)
    (h : sch.assignDLRBG symPerBeam ues activeDl = some ues') :
    (∀ beam ∈ activeDl,
      FairShares ⟨beam.2, (symPerBeam beam.1).toNat, sch.assignableDlRbgs.toNat⟩
        (fun rnti => (ues' rnti).dlRBG.toNat) fun ue => ServedDl ue.2 (ues' ue.1)) ∧
      ∀ rnti ∉ (activeDl.flatMap Prod.snd).map Prod.fst, ues' rnti = ues rnti := by
  induction activeDl generalizing ues with
  | nil =>
    cases h
    exact ⟨fun beam hMem => absurd hMem List.not_mem_nil, fun _ _ => rfl⟩
  | cons el activeDl ih =>
    rw [assignDLRBG] at h
    split at h
    · cases h
    · have hBefore : ∀ p, sch.dlPolicy.beforeDlSched p = DlUeInfo.metric :=
        fun p => funext fun ue => hRr.before p ue
      rw [hBefore, updateDlMetrics_metric] at h
      rw [List.flatMap_cons, List.map_append] at hNodup
      obtain ⟨hKeys, hRestKeys, hApart⟩ := List.nodup_append'.mp hNodup
      obtain ⟨hElFits, hRestFits⟩ := List.forall_mem_cons.mp hFits
      have hOwn : ∀ ue ∈ el.2, (ues ue.1).dlRBG.toNat = 0 := fun ue hUe =>
        hFresh ue (List.mem_append_left _ hUe)
      let start : DlBeamState μ := ⟨ues, el.2, ftResources 0 0⟩
      have hStart : total el.2 (fun ue => (start.ues ue.1).dlRBG.toNat) +
          sch.assignableDlRbgs.toNat * (symPerBeam el.1).toNat < 2 ^ 32 := by
        rw [total_eq_zero (l := el.2) hOwn, Nat.zero_add]
        exact hElFits
      have hRuns : Runs (dlRules μ) (symPerBeam el.1).toNat el.2 sch.assignableDlRbgs.toNat ues
          (sch.assignDlLoop (symPerBeam el.1) sch.assignableDlRbgs.toNat start).ues :=
        assignDlLoop_runs hRr hKeys (List.Perm.refl _) hStart
      obtain ⟨hBeams, hFrame⟩ := ih hRestFits hRestKeys (fun ue hUe => by
        rw [hRuns.frame ue.1 fun hIn => hApart hIn (List.mem_map_of_mem hUe)]
        exact hFresh ue (List.mem_append_right _ hUe)) h
      constructor
      · refine List.forall_mem_cons.mpr ⟨?_, hBeams⟩
        have hSame : ∀ ue ∈ el.2, ues' ue.1 = _ := fun ue hUe =>
          hFrame ue.1 fun hIn => hApart (List.mem_map_of_mem hUe) hIn
        refine (fairShares_of_runs hRuns hKeys hOwn).congr ?_ ?_
        · exact fun ue hUe => congrArg (fun u => u.dlRBG.toNat) (hSame ue hUe)
        · exact fun ue hUe => iff_of_eq (congrArg (ServedDl ue.2) (hSame ue hUe))
      · intro rnti hNot
        rw [List.flatMap_cons, List.map_append, List.mem_append, not_or] at hNot
        exact (hFrame rnti hNot.2).trans (hRuns.frame rnti hNot.1)

theorem TdmaCallbacks.assignRBGTDMA_fair {α : Type} {cb : TdmaCallbacks α} {r : Rules UInt32 α}
    (hRr : cb.RoundRobin r) {rbgs symAvail : UInt32} {activeUe : ActiveUeMap} {ues : UInt16 → α}
    {result : (UInt16 → α) × List (UInt16 × UInt32)}
    (hFits : symAvail.toNat * rbgs.toNat < 2 ^ 32)
    (hNodup : ((activeUe.flatMap Prod.snd).map Prod.fst).Nodup)
    (hFresh : ∀ ue ∈ activeUe.flatMap Prod.snd, r.held (ues ue.1) = 0)
    (h : cb.assignRBGTDMA rbgs symAvail activeUe ues = some result) :
    FairShares ⟨activeUe.flatMap Prod.snd, rbgs.toNat, symAvail.toNat⟩
      (fun rnti => r.held (result.1 rnti)) fun ue => r.served ue.2 (result.1 ue.1) := by
  rw [assignRBGTDMA] at h
  split at h
  · cases h
  · dsimp only at h
    rw [foldl_updateUe_id (hRr.before _)] at h
    cases h
    refine fairShares_of_runs (assignLoop_runs hRr hNodup (List.Perm.refl _) ?_) hNodup hFresh
    rwa [total_eq_zero hFresh, Nat.zero_add]

/-- A round robin scheduler, in a direction in which it gives resources in turn. -/
inductive RoundRobinScheduler (μ : Type) where
  | ofdmaDl (sch : OfdmaNewData μ)
  | tdmaDl (sch : TdmaScheduler μ)
  | tdmaUl (sch : TdmaScheduler μ)

namespace RoundRobinScheduler

/-- `AssignDLRBG` or `AssignULRBG`. -/
def newData : RoundRobinScheduler μ → NewDataScheduler μ
  | ofdmaDl sch => sch.dlNewData
  | tdmaDl sch => sch.dlNewData
  | tdmaUl sch => sch.ulNewData

def RoundRobin : RoundRobinScheduler μ → Prop
  | ofdmaDl sch => sch.dlPolicy.RoundRobin
  | tdmaDl sch => sch.dlPolicy.RoundRobin
  | tdmaUl sch => sch.ulPolicy.RoundRobin

def held (m : RoundRobinScheduler μ) (ues : SchedUes μ) (rnti : UInt16) : ℕ :=
  match m with
  | tdmaUl _ => (ues.ul rnti).ulRBG.toNat
  | _ => (ues.dl rnti).dlRBG.toNat

/-- The TB sizes of the user cover its request. -/
def Served (m : RoundRobinScheduler μ) (ues : SchedUes μ) (ue : UePtrAndBufferReq) : Prop :=
  match m with
  | tdmaUl _ => ServedUl ue.2 (ues.ul ue.1)
  | _ => ServedDl ue.2 (ues.dl ue.1)

/-- The users of a beam compete for its RBGs over all its symbols with OFDMA, all users for the
symbols with TDMA. -/
def competitions (m : RoundRobinScheduler μ) (symAvail : UInt32) (active : ActiveUeMap)
    (symPerBeam : UInt16 → UInt32) : List Competition :=
  match m with
  | ofdmaDl sch => active.map fun beam =>
      ⟨beam.2, (symPerBeam beam.1).toNat, sch.assignableDlRbgs.toNat⟩
  | tdmaDl sch => [⟨active.flatMap Prod.snd,
      (sch.numOfAssignableRbgs sch.dlNotchedRbgsMask).toNat, symAvail.toNat⟩]
  | tdmaUl sch => [⟨active.flatMap Prod.snd,
      (sch.numOfAssignableRbgs sch.ulNotchedRbgsMask).toNat, symAvail.toNat⟩]

def MaskFits : RoundRobinScheduler μ → Prop
  | ofdmaDl sch =>
    sch.dlNotchedRbgsMask = [] ∨ sch.dlNotchedRbgsMask.length = sch.bandwidthInRbg.toNat
  | tdmaDl sch =>
    sch.dlNotchedRbgsMask = [] ∨ sch.dlNotchedRbgsMask.length = sch.bandwidthInRbg.toNat
  | tdmaUl sch =>
    sch.ulNotchedRbgsMask = [] ∨ sch.ulNotchedRbgsMask.length = sch.bandwidthInRbg.toNat

/-- What the scheduler is called with: symbols of 8 bits, users that are listed once and have no RBGs
yet, and a mask of the bandwidth. -/
structure Call (m : RoundRobinScheduler μ) (symAvail : UInt32) (active : ActiveUeMap)
    (ues : SchedUes μ) : Prop where
  symbols : symAvail.toNat < 2 ^ 8
  mask : m.MaskFits
  nodup : ((active.flatMap Prod.snd).map Prod.fst).Nodup
  fresh : ∀ ue ∈ active.flatMap Prod.snd, m.held ues ue.1 = 0

/-- Round robin is fair, and hands out what it can. -/
theorem newData_fair {m : RoundRobinScheduler μ} (hRr : m.RoundRobin) {symAvail : UInt32}
    {active : ActiveUeMap} {ues ues' : SchedUes μ} {symPerBeam : UInt16 → UInt32}
    (hCall : m.Call symAvail active ues)
    (h : m.newData.assignRBG symAvail active ues = some (ues', symPerBeam)) :
    ∀ c ∈ m.competitions symAvail active symPerBeam, FairShares c (m.held ues') (m.Served ues') := by
  have hTdma : ∀ {sch : TdmaScheduler μ} {mask : List UInt8},
      mask = [] ∨ mask.length = sch.bandwidthInRbg.toNat →
      symAvail.toNat * (sch.numOfAssignableRbgs mask).toNat < 2 ^ 32 := by
    intro sch mask hMask
    exact (Nat.mul_lt_mul'' hCall.symbols (UlScheduler.numOfAssignableRbgs_lt hMask)).trans (by decide)
  cases m with
  | ofdmaDl sch =>
    obtain ⟨l, hSplit, h⟩ := Option.bind_eq_some_iff.mp h
    obtain ⟨dl, hDl, h⟩ := Option.bind_eq_some_iff.mp h
    cases h
    have hFits : ∀ beam ∈ active,
        sch.assignableDlRbgs.toNat * (symbolsOf l beam.1).toNat < 2 ^ 32 := by
      intro beam _
      have hRbgs := OfdmaNewData.assignableDlRbgs_lt hCall.mask
      have hSym := (sch.symbolsOf_getSymPerBeam_le hCall.symbols hSplit beam.1).trans_lt
        hCall.symbols
      exact (Nat.mul_lt_mul'' hRbgs hSym).trans (by decide)
    intro c hC
    obtain ⟨beam, hBeam, rfl⟩ := List.mem_map.mp hC
    exact (OfdmaNewData.assignDLRBG_fair hRr hFits hCall.nodup hCall.fresh hDl).1 beam hBeam
  | tdmaDl sch =>
    obtain ⟨r, hAssign, h⟩ := Option.bind_eq_some_iff.mp h
    cases h
    intro c hC
    cases List.mem_singleton.mp hC
    exact TdmaCallbacks.assignRBGTDMA_fair (roundRobin_dlCallbacks hRr) (hTdma hCall.mask)
      hCall.nodup hCall.fresh hAssign
  | tdmaUl sch =>
    obtain ⟨r, hAssign, h⟩ := Option.bind_eq_some_iff.mp h
    cases h
    intro c hC
    cases List.mem_singleton.mp hC
    exact TdmaCallbacks.assignRBGTDMA_fair (roundRobin_ulCallbacks hRr) (hTdma hCall.mask)
      hCall.nodup hCall.fresh hAssign

end RoundRobinScheduler

theorem dlRoundRobin_roundRobin : OfdmaNewData.dlRoundRobin.RoundRobin where
  before _ _ := rfl
  notAssigned _ _ _ := rfl
  sorted ues l := by
    have : Std.Total fun a b : UePtrAndBufferReq => (ues a.1).dlRBG ≤ (ues b.1).dlRBG :=
      ⟨fun a b => UInt32.le_total _ _⟩
    have : IsTrans UePtrAndBufferReq fun a b => (ues a.1).dlRBG ≤ (ues b.1).dlRBG :=
      ⟨fun _ _ _ => UInt32.le_trans⟩
    exact List.pairwise_insertionSort _ l

/-- Three users with demands of 2000, 100 and 2000 bytes share three RBGs over six symbols. -/
theorem newData_fair_three :
    ∃ ues' symPerBeam, OfdmaNewData.notchedRoundRobin.dlNewData.assignRBG 6
        [(3, [(1, 2000), (2, 100), (4, 2000)])] UlScheduler.idleUsers =
          some (ues', symPerBeam) ∧
      ∀ c ∈ (RoundRobinScheduler.ofdmaDl OfdmaNewData.notchedRoundRobin).competitions 6
          [(3, [(1, 2000), (2, 100), (4, 2000)])] symPerBeam,
        FairShares c ((RoundRobinScheduler.ofdmaDl OfdmaNewData.notchedRoundRobin).held ues')
          ((RoundRobinScheduler.ofdmaDl OfdmaNewData.notchedRoundRobin).Served ues') := by
  have hCall : (RoundRobinScheduler.ofdmaDl OfdmaNewData.notchedRoundRobin).Call 6
      [(3, [(1, 2000), (2, 100), (4, 2000)])] UlScheduler.idleUsers :=
    ⟨by decide, Or.inr rfl, by decide, fun _ _ => rfl⟩
  refine ⟨_, _, rfl, ?_⟩
  exact RoundRobinScheduler.newData_fair (m := .ofdmaDl OfdmaNewData.notchedRoundRobin) dlRoundRobin_roundRobin
    hCall rfl

end Bullet.Mac
