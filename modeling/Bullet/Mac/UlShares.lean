import Mathlib.Data.UInt
import Bullet.Lib.Shares
import Bullet.Mac.UlAssign

/-! # What the users of a beam are given

Each RBG that leaves the counter of a beam reaches one of its users, over all the symbols of the
beam. The grant-free mode is the one that does not look at the counter.
-/

namespace Bullet.Mac

open Lib.Shares

variable {μ : Type}

section Metrics

theorem setMetric_ulRBG (ues : UlUes μ) (rnti rnti' : UInt16) (metric : UlMetric μ) :
    (setMetric ues rnti metric rnti').ulRBG = (ues rnti').ulRBG := by
  rw [setMetric]
  rcases eq_or_ne rnti' rnti with rfl | hNe
  · rw [Function.update_self]
  · rw [Function.update_of_ne hNe]

theorem updateMetrics_ulRBG (f : UlUeInfo μ → UlMetric μ) (ues : UlUes μ)
    (l : List UePtrAndBufferReq) (rnti : UInt16) :
    (updateMetrics f ues l rnti).ulRBG = (ues rnti).ulRBG := by
  induction l generalizing ues with
  | nil => rfl
  | cons ue l ih => exact (ih _).trans (setMetric_ulRBG _ _ _ _)

theorem updateMetrics_of_notMem {l : List UePtrAndBufferReq} {rnti : UInt16}
    (f : UlUeInfo μ → UlMetric μ) (ues : UlUes μ) (h : rnti ∉ l.map Prod.fst) :
    updateMetrics f ues l rnti = ues rnti := by
  induction l generalizing ues with
  | nil => rfl
  | cons ue l ih =>
    rw [List.map_cons, List.mem_cons, not_or] at h
    exact (ih _ h.2).trans (Function.update_of_ne h.1 _ _)

end Metrics

/-- The loops over the beam keep its users and touch no other one. -/
structure Within (ues : UlUes μ) (beam : List UePtrAndBufferReq) (s : BeamState μ) : Prop where
  vector : s.ueVector.Perm beam
  frame : ∀ rnti ∉ beam.map Prod.fst, s.ues rnti = ues rnti

/-- The users of the beam hold what has left the counter, as natural numbers. -/
structure Conserved (beamSym : UInt32) (pool : ℕ) (ues : UlUes μ) (beam : List UePtrAndBufferReq)
    (s : BeamState μ) : Prop extends Within ues beam s where
  multiples : ∀ rnti ∈ beam.map Prod.fst, beamSym.toNat ∣ (s.ues rnti).ulRBG.toNat
  total : total (beam.map Prod.fst) (fun rnti => (s.ues rnti).ulRBG.toNat) =
    s.granted * beamSym.toNat
  counter : s.granted + s.resources.toNat = pool

section Beam

variable {beamSym : UInt32} {pool : ℕ} {ues : UlUes μ} {beam : List UePtrAndBufferReq}
  {s : BeamState μ} {rnti : UInt16}

theorem Conserved.of_metrics (h : Conserved beamSym pool ues beam s) {ues' : UlUes μ}
    (hRbg : ∀ rnti, (ues' rnti).ulRBG = (s.ues rnti).ulRBG)
    (hWithin : Within ues beam { s with ues := ues' }) :
    Conserved beamSym pool ues beam { s with ues := ues' } where
  toWithin := hWithin
  multiples rnti hMem := by
    change beamSym.toNat ∣ (ues' rnti).ulRBG.toNat
    rw [hRbg rnti]
    exact h.multiples rnti hMem
  total := by
    refine Eq.trans (total_congr fun rnti _ => ?_) h.total
    rw [hRbg rnti]
  counter := h.counter

theorem grant_ues_self (beamSym : UInt32) (rnti : UInt16) (s : BeamState μ) :
    ((s.grant beamSym rnti).ues rnti).ulRBG = (s.ues rnti).ulRBG + beamSym := by
  simp [BeamState.grant]

theorem grant_ues_of_ne {rnti' : UInt16} (beamSym : UInt32) (s : BeamState μ)
    (hNe : rnti' ≠ rnti) : (s.grant beamSym rnti).ues rnti' = s.ues rnti' :=
  Function.update_of_ne hNe _ _

theorem Within.grant (h : Within ues beam s) (beamSym : UInt32)
    (hMem : rnti ∈ beam.map Prod.fst) : Within ues beam (s.grant beamSym rnti) where
  vector := h.vector
  frame rnti' hNotMem := by
    have hNe : rnti' ≠ rnti := by
      rintro rfl
      exact hNotMem hMem
    rw [grant_ues_of_ne beamSym s hNe]
    exact h.frame rnti' hNotMem

theorem Within.aggressiveUe (h : Within ues beam s) (beamSym : UInt32)
    (hMem : rnti ∈ beam.map Prod.fst) (n : ℕ) : Within ues beam (s.aggressiveUe beamSym rnti n) := by
  induction n generalizing s with
  | zero => exact h
  | succ n ih =>
    rw [BeamState.aggressiveUe]
    split
    · exact ih (h.grant beamSym hMem)
    · exact h

/-- The user that is given an RBG while the counter is positive holds it on top of the others. -/
theorem Conserved.grant_self (h : Conserved beamSym pool ues beam s)
    (hPool : pool * beamSym.toNat < 2 ^ 32) (hMem : rnti ∈ beam.map Prod.fst)
    (hPos : 0 < s.resources.toNat) :
    ((s.grant beamSym rnti).ues rnti).ulRBG.toNat = (s.ues rnti).ulRBG.toNat + beamSym.toNat := by
  have hCounter := h.counter
  have hHeld : (s.ues rnti).ulRBG.toNat ≤ s.granted * beamSym.toNat :=
    h.total ▸ le_total (fun rnti => (s.ues rnti).ulRBG.toNat) hMem
  have hNext : (s.granted + 1) * beamSym.toNat ≤ pool * beamSym.toNat :=
    Nat.mul_le_mul_right _ (by omega)
  rw [Nat.add_mul, Nat.one_mul] at hNext
  rw [grant_ues_self, UInt32.toNat_add]
  exact Nat.mod_eq_of_lt (by omega)

/-- A grant conserves as long as the counter is positive. -/
theorem Conserved.grant (h : Conserved beamSym pool ues beam s)
    (hNodup : (beam.map Prod.fst).Nodup) (hPool : pool * beamSym.toNat < 2 ^ 32)
    (hMem : rnti ∈ beam.map Prod.fst) (hPos : 0 < s.resources.toNat) :
    Conserved beamSym pool ues beam (s.grant beamSym rnti) := by
  have hCounter := h.counter
  have hGain := h.grant_self hPool hMem hPos
  refine ⟨h.toWithin.grant beamSym hMem, ?_, ?_, ?_⟩
  · intro rnti' hMem'
    rcases eq_or_ne rnti' rnti with rfl | hNe
    · rw [hGain]
      exact Nat.dvd_add (h.multiples rnti' hMem') (Nat.dvd_refl _)
    · rw [grant_ues_of_ne beamSym s hNe]
      exact h.multiples rnti' hMem'
  · rw [total_of_gain hNodup hMem hGain fun rnti' hNe => by rw [grant_ues_of_ne beamSym s hNe],
      h.total]
    exact (Nat.succ_mul _ _).symm
  · have hLess : (s.resources - 1).toNat = s.resources.toNat - 1 :=
      UInt32.toNat_sub_of_le _ _ (UInt32.le_iff_toNat_le.mpr hPos)
    change s.granted + 1 + (s.resources - 1).toNat = pool
    omega

/-- Between 0 and 15 RBGs, the rounds left are all made. -/
theorem aggressiveUe_spec {n j : ℕ} (hSym : 0 < beamSym.toNat) (hLt : beamSym.toNat < 2 ^ 8)
    (hHeld : (s.ues rnti).ulRBG.toNat = j * beamSym.toNat) (hRounds : j + n = 15) :
    (s.aggressiveUe beamSym rnti n).granted = s.granted + n ∧
    (s.aggressiveUe beamSym rnti n).ueVector = s.ueVector ∧
    ∀ rnti' ≠ rnti, (s.aggressiveUe beamSym rnti n).ues rnti' = s.ues rnti' := by
  induction n generalizing s j with
  | zero => exact ⟨rfl, rfl, fun _ _ => rfl⟩
  | succ n ih =>
    have hFew : (s.ues rnti).ulRBG / beamSym < 15 := by
      rw [UInt32.lt_iff_toNat_lt, UInt32.toNat_div, hHeld, Nat.mul_div_cancel _ hSym]
      change j < 15
      omega
    have hNext : ((s.grant beamSym rnti).ues rnti).ulRBG.toNat = (j + 1) * beamSym.toNat := by
      rw [grant_ues_self, UInt32.toNat_add, hHeld, Nat.add_mul, Nat.one_mul]
      have hBound : j * beamSym.toNat ≤ 14 * beamSym.toNat := Nat.mul_le_mul_right _ (by omega)
      exact Nat.mod_eq_of_lt (by omega)
    obtain ⟨hGranted, hVector, hRest⟩ := ih hNext (by omega)
    rw [BeamState.aggressiveUe, if_pos hFew]
    refine ⟨hGranted.trans ?_, hVector, fun rnti' hNe => (hRest rnti' hNe).trans
      (grant_ues_of_ne beamSym s hNe)⟩
    change s.granted + 1 + n = s.granted + (n + 1)
    omega

/-- With the rounds covered by the counter, the grant-free loop of one user conserves. -/
theorem Conserved.aggressiveUe {n : ℕ} (h : Conserved beamSym pool ues beam s)
    (hNodup : (beam.map Prod.fst).Nodup) (hPool : pool * beamSym.toNat < 2 ^ 32)
    (hMem : rnti ∈ beam.map Prod.fst) (hRounds : n ≤ s.resources.toNat) :
    Conserved beamSym pool ues beam (s.aggressiveUe beamSym rnti n) := by
  induction n generalizing s with
  | zero => exact h
  | succ n ih =>
    rw [BeamState.aggressiveUe]
    split
    · have hGrant := h.grant hNodup hPool hMem (Nat.lt_of_lt_of_le (Nat.succ_pos n) hRounds)
      refine ih hGrant ?_
      have hCounter := h.counter
      have hNext : s.granted + 1 + (s.grant beamSym rnti).resources.toNat = pool := hGrant.counter
      omega
    · exact h

end Beam

namespace OfdmaScheduler

variable {sch : OfdmaScheduler μ} {beamSym : UInt32} {pool : ℕ} {ues : UlUes μ}
  {beam : List UePtrAndBufferReq} {s : BeamState μ}

/-- The grant-free mode hands out 15 RBGs for each user with a proactive demand. -/
theorem aggressive_fold_granted {l : List UePtrAndBufferReq} (hSym : 0 < beamSym.toNat)
    (hLt : beamSym.toNat < 2 ^ 8) (hNodup : (l.map Prod.fst).Nodup)
    (hFresh : ∀ rnti ∈ l.map Prod.fst, (s.ues rnti).ulRBG = 0) :
    (l.foldl (fun t ue =>
      if 0 < sch.proactiveBSR ue.1 then t.aggressiveUe beamSym ue.1 15 else t) s).granted =
      s.granted + 15 * l.countP fun ue => 0 < sch.proactiveBSR ue.1 := by
  induction l generalizing s with
  | nil => rfl
  | cons ue l ih =>
    obtain ⟨hNotIn, hTail⟩ := List.nodup_cons.mp hNodup
    rw [List.foldl_cons, List.countP_cons]
    have hTailFresh : ∀ rnti ∈ l.map Prod.fst, (s.ues rnti).ulRBG = 0 :=
      fun rnti hMem => hFresh rnti (List.mem_cons_of_mem _ hMem)
    split
    · rename_i hDemand
      have hHeld : (s.ues ue.1).ulRBG.toNat = 0 * beamSym.toNat := by
        rw [hFresh ue.1 List.mem_cons_self, Nat.zero_mul]
        rfl
      obtain ⟨hGranted, -, hRest⟩ := aggressiveUe_spec (n := 15) hSym hLt hHeld rfl
      rw [ih hTail fun rnti hMem => by
        rw [hRest rnti fun hEq => hNotIn (hEq ▸ hMem)]
        exact hTailFresh rnti hMem, hGranted, if_pos (decide_eq_true hDemand)]
      omega
    · rename_i hDemand
      rw [ih hTail hTailFresh, if_neg (fun h => hDemand (of_decide_eq_true h))]
      omega

theorem aggressive_fold_conserved {l : List UePtrAndBufferReq}
    (h : Conserved beamSym pool ues beam s) (hSym : 0 < beamSym.toNat)
    (hLt : beamSym.toNat < 2 ^ 8) (hBeam : (beam.map Prod.fst).Nodup)
    (hPool : pool * beamSym.toNat < 2 ^ 32) (hNodup : (l.map Prod.fst).Nodup)
    (hSub : ∀ ue ∈ l, ue.1 ∈ beam.map Prod.fst)
    (hFresh : ∀ rnti ∈ l.map Prod.fst, (s.ues rnti).ulRBG = 0)
    (hFits : 15 * (l.countP fun ue => 0 < sch.proactiveBSR ue.1) ≤ s.resources.toNat) :
    Conserved beamSym pool ues beam (l.foldl (fun t ue =>
      if 0 < sch.proactiveBSR ue.1 then t.aggressiveUe beamSym ue.1 15 else t) s) := by
  induction l generalizing s with
  | nil => exact h
  | cons ue l ih =>
    obtain ⟨hNotIn, hTail⟩ := List.nodup_cons.mp hNodup
    rw [List.countP_cons] at hFits
    rw [List.foldl_cons]
    have hTailFresh : ∀ rnti ∈ l.map Prod.fst, (s.ues rnti).ulRBG = 0 :=
      fun rnti hMem => hFresh rnti (List.mem_cons_of_mem _ hMem)
    have hTailSub : ∀ ue ∈ l, ue.1 ∈ beam.map Prod.fst :=
      fun ue hMem => hSub ue (List.mem_cons_of_mem _ hMem)
    split
    · rename_i hDemand
      rw [if_pos (decide_eq_true hDemand)] at hFits
      have hHeld : (s.ues ue.1).ulRBG.toNat = 0 * beamSym.toNat := by
        rw [hFresh ue.1 List.mem_cons_self, Nat.zero_mul]
        rfl
      obtain ⟨hGranted, -, hRest⟩ := aggressiveUe_spec (n := 15) hSym hLt hHeld rfl
      have hNext := h.aggressiveUe hBeam hPool (hSub ue List.mem_cons_self)
        (n := 15) (by omega)
      refine ih hNext hTail hTailSub (fun rnti hMem => ?_) ?_
      · rw [hRest rnti fun hEq => hNotIn (hEq ▸ hMem)]
        exact hTailFresh rnti hMem
      · have hCounter := h.counter
        have hNextCounter := hNext.counter
        omega
    · exact ih h hTail hTailSub hTailFresh (by omega)

theorem firstUncovered_mem {i : ℕ} {maxResources maxBuffer : UInt32}
    {l : List UePtrAndBufferReq} {ue : UePtrAndBufferReq}
    (h : (sch.firstUncovered i beamSym maxResources ues maxBuffer l).2 = some ue) : ue ∈ l := by
  induction l generalizing maxBuffer with
  | nil => cases h
  | cons a l ih =>
    rw [firstUncovered] at h
    split at h
    · exact List.mem_cons_of_mem _ (ih h)
    · exact Option.some_inj.mp h ▸ List.mem_cons_self

theorem award_within {rnti : UInt16} (h : Within ues beam s) (hMem : rnti ∈ beam.map Prod.fst) :
    Within ues beam (sch.award beamSym rnti s) where
  vector := h.vector
  frame rnti' hNotMem := by
    have hNe : rnti' ≠ rnti := by
      rintro rfl
      exact hNotMem hMem
    have hOther : rnti' ∉ ((s.grant beamSym rnti).ueVector.filter
        fun ue => ue.1 ≠ rnti).map Prod.fst := by
      intro hIn
      obtain ⟨ue, hUe, rfl⟩ := List.mem_map.mp hIn
      exact hNotMem (List.mem_map_of_mem (h.vector.subset (List.mem_of_mem_filter hUe)))
    refine (updateMetrics_of_notMem _ _ hOther).trans ?_
    exact (Function.update_of_ne hNe _ _).trans ((h.grant beamSym hMem).frame rnti' hNotMem)

theorem award_conserved {rnti : UInt16} (h : Conserved beamSym pool ues beam s)
    (hNodup : (beam.map Prod.fst).Nodup) (hPool : pool * beamSym.toNat < 2 ^ 32)
    (hMem : rnti ∈ beam.map Prod.fst) (hPos : 0 < s.resources.toNat) :
    Conserved beamSym pool ues beam (sch.award beamSym rnti s) :=
  (h.grant hNodup hPool hMem hPos).of_metrics
    (fun _ => (updateMetrics_ulRBG _ _ _ _).trans (setMetric_ulRBG _ _ _ _))
    (award_within h.toWithin hMem)

theorem assignLoop_within {i : ℕ} {maxResources : UInt32} (h : Within ues beam s) (n : ℕ) :
    Within ues beam (sch.assignLoop i beamSym maxResources n s) := by
  induction n generalizing s with
  | zero => exact h
  | succ n ih =>
    have hVector := (sch.policy.sort_perm s.ues s.ueVector).trans h.vector
    rw [assignLoop]
    split
    · exact ⟨hVector, h.frame⟩
    · rename_i ue hUe
      exact ih (award_within ⟨hVector, h.frame⟩
        (List.mem_map_of_mem (hVector.subset (firstUncovered_mem hUe))))

theorem assignLoop_conserved {i n : ℕ} {maxResources : UInt32}
    (h : Conserved beamSym pool ues beam s) (hNodup : (beam.map Prod.fst).Nodup)
    (hPool : pool * beamSym.toNat < 2 ^ 32) (hCount : s.resources.toNat = n) :
    Conserved beamSym pool ues beam (sch.assignLoop i beamSym maxResources n s) := by
  induction n generalizing s with
  | zero => exact h
  | succ n ih =>
    have hVector := (sch.policy.sort_perm s.ues s.ueVector).trans h.vector
    rw [assignLoop]
    split
    · exact ⟨⟨hVector, h.frame⟩, h.multiples, h.total, h.counter⟩
    · rename_i ue hUe
      have hMem : ue.1 ∈ beam.map Prod.fst :=
        List.mem_map_of_mem (hVector.subset (firstUncovered_mem hUe))
      have hSorted : Conserved beamSym pool ues beam
          { s with
            ueVector := sch.policy.sort s.ues s.ueVector
            maxBuffer := (sch.firstUncovered i beamSym maxResources s.ues s.maxBuffer
              (sch.policy.sort s.ues s.ueVector)).1 } :=
        ⟨⟨hVector, h.frame⟩, h.multiples, h.total, h.counter⟩
      have hAward : Conserved beamSym pool ues beam (sch.award beamSym ue.1 _) :=
        award_conserved hSorted hNodup hPool hMem
          (Nat.lt_of_lt_of_eq (Nat.succ_pos n) hCount.symm)
      refine ih hAward ?_
      have hCounter := h.counter
      have hNext : s.granted + 1 + _ = pool := hAward.counter
      omega

theorem granted_le_assignLoop {i n : ℕ} {maxResources : UInt32} :
    s.granted ≤ (sch.assignLoop i beamSym maxResources n s).granted := by
  induction n generalizing s with
  | zero => exact Nat.le_refl _
  | succ n ih =>
    rw [assignLoop]
    split
    · exact Nat.le_refl _
    · rename_i ue hUe
      refine Nat.le_trans ?_ ih
      exact Nat.le_succ s.granted

/-- The mode does not hand out more RBGs without looking than there are. -/
def GrantFreeFits (sch : OfdmaScheduler μ) (beam : List UePtrAndBufferReq) : Prop :=
  sch.scheduleMode = 1 →
    15 * (beam.countP fun ue => 0 < sch.proactiveBSR ue.1) ≤ sch.assignableRbgs.toNat

instance (beam : List UePtrAndBufferReq) : Decidable (sch.GrantFreeFits beam) :=
  inferInstanceAs (Decidable (_ → _))

theorem aggressive_within (h : Within ues beam s) : Within ues beam (sch.aggressive beamSym s) := by
  have hSub : ∀ ue ∈ s.ueVector, ue.1 ∈ beam.map Prod.fst :=
    fun ue hUe => List.mem_map_of_mem (h.vector.subset hUe)
  rw [aggressive]
  generalize s.ueVector = l at hSub
  induction l generalizing s with
  | nil => exact h
  | cons ue l ih =>
    rw [List.foldl_cons]
    refine ih ?_ fun ue hUe => hSub ue (List.mem_cons_of_mem _ hUe)
    split
    · exact h.aggressiveUe beamSym (hSub ue List.mem_cons_self) 15
    · exact h

/-- What the stage hands to its main loop. -/
def opening (sch : OfdmaScheduler μ) (beamSym : UInt32) (s : BeamState μ) : BeamState μ :=
  if sch.scheduleMode = 1 then sch.aggressive beamSym { s with assigned := ftResources 0 0 }
  else { s with assigned := ftResources 0 0 }

theorem stage_eq {i : ℕ} {maxResources : UInt32} (h : s.resources ≠ 0) :
    sch.stage i beamSym maxResources s = sch.assignLoop i beamSym maxResources
      (sch.opening beamSym s).resources.toNat (sch.opening beamSym s) :=
  if_neg h

theorem stage_within {i : ℕ} {maxResources : UInt32} (h : Within ues beam s) :
    Within ues beam (sch.stage i beamSym maxResources s) := by
  rcases eq_or_ne s.resources 0 with hNone | hSome
  · rw [stage, if_pos hNone]
    exact h
  · rw [stage_eq hSome]
    refine assignLoop_within ?_ _
    rw [opening]
    split
    · exact aggressive_within ⟨h.vector, h.frame⟩
    · exact ⟨h.vector, h.frame⟩

theorem stage_conserved {i : ℕ} {maxResources : UInt32} (h : Conserved beamSym pool ues beam s)
    (hNodup : (beam.map Prod.fst).Nodup) (hPool : pool * beamSym.toNat < 2 ^ 32)
    (hOpening : Conserved beamSym pool ues beam (sch.opening beamSym s)) :
    Conserved beamSym pool ues beam (sch.stage i beamSym maxResources s) := by
  rcases eq_or_ne s.resources 0 with hNone | hSome
  · rw [stage, if_pos hNone]
    exact h
  · rw [stage_eq hSome]
    exact assignLoop_conserved hOpening hNodup hPool rfl

theorem opening_conserved (h : Conserved beamSym pool ues beam s)
    (hNodup : (beam.map Prod.fst).Nodup) (hSym : 0 < beamSym.toNat)
    (hLt : beamSym.toNat < 2 ^ 8) (hPool : pool * beamSym.toNat < 2 ^ 32)
    (hFirst : sch.scheduleMode = 1 → s.ueVector = beam ∧ s.resources = sch.assignableRbgs ∧
      ∀ rnti ∈ beam.map Prod.fst, (s.ues rnti).ulRBG = 0) (hFits : sch.GrantFreeFits beam) :
    Conserved beamSym pool ues beam (sch.opening beamSym s) := by
  have hReset : Conserved beamSym pool ues beam { s with assigned := ftResources 0 0 } :=
    ⟨⟨h.vector, h.frame⟩, h.multiples, h.total, h.counter⟩
  rw [opening]
  split
  · rename_i hMode
    obtain ⟨hVector, hResources, hFresh⟩ := hFirst hMode
    refine aggressive_fold_conserved (l := s.ueVector) hReset hSym hLt hNodup hPool
      (hVector ▸ hNodup) (fun ue hUe => List.mem_map_of_mem (hVector ▸ hUe)) (hVector ▸ hFresh) ?_
    rw [hResources, hVector]
    exact hFits hMode
  · exact hReset

theorem granted_le_stage {i : ℕ} {maxResources : UInt32} (hSym : 0 < beamSym.toNat)
    (hLt : beamSym.toNat < 2 ^ 8) (hNodup : (s.ueVector.map Prod.fst).Nodup)
    (hFresh : ∀ rnti ∈ s.ueVector.map Prod.fst, (s.ues rnti).ulRBG = 0)
    (hResources : s.resources ≠ 0) (hMode : sch.scheduleMode = 1) :
    15 * (s.ueVector.countP fun ue => 0 < sch.proactiveBSR ue.1) ≤
      (sch.stage i beamSym maxResources s).granted := by
  rw [stage_eq hResources, opening, if_pos hMode]
  refine le_trans ?_ granted_le_assignLoop
  refine le_trans (Nat.le_add_left _ s.granted) (Nat.le_of_eq ?_)
  exact (aggressive_fold_granted (s := { s with assigned := ftResources 0 0 }) hSym hLt hNodup
    hFresh).symm

/-- The state before the first stage of a beam. -/
def beamStart (sch : OfdmaScheduler μ) (beamSym : UInt32) (ues : UlUes μ) (maxBuffer : UInt32)
    (beam : List UePtrAndBufferReq) : BeamState μ where
  ues := updateMetrics
    (sch.policy.beforeUlSched (ftResources (beamSym * beamSym) beamSym)) ues beam
  ueVector := beam
  assigned := ftResources 0 0
  resources := sch.assignableRbgs
  maxBuffer := maxBuffer

theorem assignBeam_eq {maxBuffer : UInt32} (hAssignable : sch.assignableRbgs ≠ 0)
    (hSym : 0 < beamSym.toNat) :
    sch.assignBeam beamSym ues maxBuffer beam = some (if sch.scheduleMode = 3 then
      sch.stage 1 beamSym sch.assignableRbgs
        (sch.stage 0 beamSym sch.assignableRbgs (sch.beamStart beamSym ues maxBuffer beam))
      else sch.stage 0 beamSym sch.assignableRbgs (sch.beamStart beamSym ues maxBuffer beam)) := by
  have hNe : beamSym ≠ 0 := by
    rintro rfl
    exact lt_irrefl 0 hSym
  exact if_neg (not_or.mpr ⟨hAssignable, fun hZero => hNe hZero.1⟩)

theorem beamStart_conserved {maxBuffer : UInt32}
    (hFresh : ∀ rnti ∈ beam.map Prod.fst, (ues rnti).ulRBG = 0) :
    Conserved beamSym sch.assignableRbgs.toNat ues beam
      (sch.beamStart beamSym ues maxBuffer beam) := by
  have hZero : ∀ rnti ∈ beam.map Prod.fst,
      ((sch.beamStart beamSym ues maxBuffer beam).ues rnti).ulRBG.toNat = 0 := by
    intro rnti hMem
    refine congrArg UInt32.toNat ((updateMetrics_ulRBG _ _ _ _).trans (hFresh rnti hMem))
  refine ⟨⟨List.Perm.refl _, fun rnti hNotMem => updateMetrics_of_notMem _ _ hNotMem⟩,
    fun rnti hMem => ?_, ?_, Nat.zero_add _⟩
  · rw [hZero rnti hMem]
    exact Nat.dvd_zero _
  · exact (total_eq_zero hZero).trans (Nat.zero_mul _).symm

/-- A beam conserves whenever the grant-free mode fits, and otherwise grants more than there is. -/
theorem assignBeam_spec (maxBuffer : UInt32) (hAssignable : sch.assignableRbgs ≠ 0)
    (hSym : 0 < beamSym.toNat) (hLt : beamSym.toNat < 2 ^ 8)
    (hPool : sch.assignableRbgs.toNat * beamSym.toNat < 2 ^ 32)
    (hNodup : (beam.map Prod.fst).Nodup)
    (hFresh : ∀ rnti ∈ beam.map Prod.fst, (ues rnti).ulRBG = 0) :
    ∃ t, sch.assignBeam beamSym ues maxBuffer beam = some t ∧ Within ues beam t ∧
      (sch.GrantFreeFits beam → Conserved beamSym sch.assignableRbgs.toNat ues beam t) ∧
      (t.granted ≤ sch.assignableRbgs.toNat → sch.GrantFreeFits beam) := by
  have hStart : Conserved beamSym sch.assignableRbgs.toNat ues beam
      (sch.beamStart beamSym ues maxBuffer beam) := beamStart_conserved hFresh
  have hStartFresh : ∀ rnti ∈ beam.map Prod.fst,
      ((sch.beamStart beamSym ues maxBuffer beam).ues rnti).ulRBG = 0 :=
    fun rnti hMem => (updateMetrics_ulRBG _ _ _ _).trans (hFresh rnti hMem)
  have hFirst : sch.GrantFreeFits beam → Conserved beamSym sch.assignableRbgs.toNat ues beam
      (sch.stage 0 beamSym sch.assignableRbgs (sch.beamStart beamSym ues maxBuffer beam)) :=
    fun hFits => stage_conserved hStart hNodup hPool
      (opening_conserved hStart hNodup hSym hLt hPool (fun _ => ⟨rfl, rfl, hStartFresh⟩) hFits)
  rw [assignBeam_eq hAssignable hSym]
  split
  · rename_i hMode
    have hNotFree : sch.scheduleMode ≠ 1 := by
      rw [hMode]
      decide
    have hFits : sch.GrantFreeFits beam := fun hFree => absurd hFree hNotFree
    refine ⟨_, rfl, stage_within (stage_within hStart.toWithin), fun _ => ?_, fun _ => hFits⟩
    exact stage_conserved (hFirst hFits) hNodup hPool (opening_conserved (hFirst hFits) hNodup hSym
      hLt hPool (fun hFree => absurd hFree hNotFree) hFits)
  · refine ⟨_, rfl, stage_within hStart.toWithin, hFirst, fun hGranted hFree => ?_⟩
    exact (granted_le_stage hSym hLt hNodup hStartFresh hAssignable hFree).trans hGranted

end OfdmaScheduler

end Bullet.Mac
