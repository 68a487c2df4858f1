import Bullet.Mac.PfDl
import Bullet.Mac.PfUl

/-! # The averages of PF after the assignment of TDMA

Each symbol that is given to a user updates the averages of all users of the slot, over all the symbols
given so far.
-/

namespace Bullet.Mac

open Lib.PointUpdates Lib.Shares

variable {α : Type}

namespace TdmaCallbacks

variable {cb : TdmaCallbacks α} {pending : UInt16 → α → Prop} {averaged : UInt8 → UInt16 → α → Prop}
  {rbgs : UInt32} {ues : UInt16 → α} {s : TdmaState α} {users : List UePtrAndBufferReq}
  {rnti : UInt16}

/-- What an update makes of the users that are ready for it, and what keeps it. -/
structure Averages (cb : TdmaCallbacks α) (pending : UInt16 → α → Prop)
    (averaged : UInt8 → UInt16 → α → Prop) : Prop where
  before : ∀ rnti p ue, pending rnti ue → pending rnti (cb.beforeSched p ue)
  getTBS_before : ∀ p ue, cb.getTBS (cb.beforeSched p ue) = cb.getTBS ue
  grant : ∀ rnti n ue, pending rnti ue → pending rnti (cb.grant n ue)
  success : ∀ rnti p q ue, pending rnti ue →
    averaged q.sym rnti (cb.successfullAssignment p q ue)
  unSuccess : ∀ p q ue, cb.unSuccessfullAssignment p q ue = cb.successfullAssignment p q ue
  trim : ∀ sym rnti buf ue, averaged sym rnti ue → averaged sym rnti (cb.trim buf ue)
  pending : ∀ sym rnti ue, averaged sym rnti ue → pending rnti ue

/-- The slot after an update. -/
structure Updated (averaged : UInt8 → UInt16 → α → Prop) (users : List UePtrAndBufferReq)
    (s : TdmaState α) : Prop where
  vector : s.ueVector.Perm users
  averaged : ∀ rnti ∈ users.map Prod.fst, averaged s.assigned.sym rnti (s.ues rnti)

/-- A pass keeps what clearing streams keeps. -/
theorem firstUncovered_induction {P : UInt16 → α → Prop}
    (hTrim : ∀ rnti buf ue, P rnti ue → P rnti (cb.trim buf ue)) (h : ∀ rnti, P rnti (ues rnti))
    (l : List UePtrAndBufferReq) (rnti : UInt16) : P rnti ((cb.firstUncovered ues l).1 rnti) := by
  induction l generalizing ues with
  | nil => exact h rnti
  | cons ue l ih =>
    rw [firstUncovered]
    split
    · refine ih fun rnti' => ?_
      rcases eq_or_ne rnti' ue.1 with rfl | hNe
      · have hSelf : updateUe (cb.trim ue.2) ues ue.1 ue.1 = _ := modifyAt_self _ _ _
        rw [hSelf]
        exact hTrim _ _ _ (h _)
      · have hOther : updateUe (cb.trim ue.2) ues ue.1 rnti' = ues rnti' := modifyAt_of_ne _ _ hNe
        rw [hOther]
        exact h rnti'
    · exact h rnti

theorem firstUncovered_of_notMem {l : List UePtrAndBufferReq} (h : rnti ∉ l.map Prod.fst) :
    (cb.firstUncovered ues l).1 rnti = ues rnti := by
  induction l generalizing ues with
  | nil => rfl
  | cons ue l ih =>
    rw [List.map_cons, List.mem_cons, not_or] at h
    rw [firstUncovered]
    split
    · exact (ih h.2).trans (modifyAt_of_ne _ _ h.1)
    · rfl

theorem mem_of_firstUncovered {l : List UePtrAndBufferReq} {ue : UePtrAndBufferReq}
    (h : (cb.firstUncovered ues l).2 = some ue) : ue ∈ l := by
  induction l generalizing ues with
  | nil => cases h
  | cons a l ih =>
    rw [firstUncovered] at h
    split at h
    · exact List.mem_cons_of_mem _ (ih h)
    · exact Option.some_inj.mp h ▸ List.mem_cons_self

/-- A round starts by sorting the users and passing over those that are covered. -/
def passed (cb : TdmaCallbacks α) (s : TdmaState α) : TdmaState α :=
  { s with
    ues := (cb.firstUncovered s.ues (cb.sort s.ues s.ueVector)).1
    ueVector := cb.sort s.ues s.ueVector }

theorem passed_updated (hCb : cb.Averages pending averaged) (h : Updated averaged users s) :
    Updated averaged users (cb.passed s) where
  vector := (cb.sort_perm _ _).trans h.vector
  averaged := by
    intro rnti hMem
    refine firstUncovered_induction (P := fun rnti ue => rnti ∈ users.map Prod.fst →
      averaged s.assigned.sym rnti ue) ?_ h.averaged _ rnti hMem
    exact fun rnti buf ue hAveraged hIn => hCb.trim _ _ _ _ (hAveraged hIn)

/-- A symbol that is given updates all users. -/
theorem award_updated (hCb : cb.Averages pending averaged) (hKeys : (users.map Prod.fst).Nodup)
    (hVector : s.ueVector.Perm users)
    (h : ∀ rnti ∈ users.map Prod.fst, pending rnti (s.ues rnti)) (rnti : UInt16) :
    Updated averaged users (cb.award rbgs rnti s) where
  vector := hVector
  averaged rnti' hMem := by
    let granted := modifyAt (cb.grant rbgs) s.ues rnti
    let totAssigned : PointInFTPlane :=
      { rbg := s.assigned.rbg + rbgs, sym := s.assigned.sym + 1 }
    let update := cb.successfullAssignment (ftResources rbgs 1) totAssigned
    have hAward : (cb.award rbgs rnti s).ues =
        modifyAll update (modifyAt update granted rnti) (s.ueVector.filter fun ue => ue.1 ≠ rnti) := by
      have hSame : cb.unSuccessfullAssignment (ftResources rbgs 1) totAssigned = update :=
        funext fun ue => hCb.unSuccess _ _ ue
      rw [award]
      dsimp only
      rw [hSame]
      rfl
    have hGranted : pending rnti' (granted rnti') := by
      have hPending := h rnti' hMem
      rcases eq_or_ne rnti' rnti with rfl | hNe
      · have hSelf : granted rnti' = _ := modifyAt_self _ _ _
        rw [hSelf]
        exact hCb.grant _ _ _ hPending
      · have hOther : granted rnti' = s.ues rnti' := modifyAt_of_ne _ _ hNe
        rw [hOther]
        exact hPending
    have hUpdated : (cb.award rbgs rnti s).ues rnti' = update (granted rnti') := by
      rw [hAward]
      exact modifyAll_others hKeys hVector hMem
    rw [hUpdated]
    exact hCb.success _ _ totAssigned _ hGranted

theorem assignLoop_updated {n : ℕ} (hCb : cb.Averages pending averaged)
    (hKeys : (users.map Prod.fst).Nodup) (h : Updated averaged users s) :
    Updated averaged users (cb.assignLoop rbgs n s) := by
  induction n generalizing s with
  | zero => exact h
  | succ n ih =>
    have hPassed := passed_updated hCb h
    rw [assignLoop]
    split
    · exact hPassed
    · exact ih (award_updated hCb hKeys hPassed.vector
        (fun rnti hMem => hCb.pending _ _ _ (hPassed.averaged rnti hMem)) _)

/-- From users without bytes the loop updates all of them at least once. -/
theorem assignLoop_of_empty {n : ℕ} (hCb : cb.Averages pending averaged)
    (hKeys : (users.map Prod.fst).Nodup) (hUsers : users ≠ []) (hRounds : 0 < n)
    (hVector : s.ueVector.Perm users)
    (h : ∀ rnti ∈ users.map Prod.fst, pending rnti (s.ues rnti))
    (hEmpty : ∀ rnti ∈ users.map Prod.fst, cb.getTBS (s.ues rnti) = 0) :
    Updated averaged users (cb.assignLoop rbgs n s) := by
  obtain ⟨n, rfl⟩ : ∃ k, n = k + 1 := Nat.exists_eq_succ_of_ne_zero hRounds.ne'
  have hSorted := (cb.sort_perm s.ues s.ueVector).trans hVector
  rw [assignLoop]
  cases hList : cb.sort s.ues s.ueVector with
  | nil =>
    rw [hList] at hSorted
    exact absurd hSorted.nil_eq.symm hUsers
  | cons ue l =>
    rw [hList] at hSorted
    have hMem := List.mem_map_of_mem (f := Prod.fst) (hSorted.subset List.mem_cons_self)
    let sorted : TdmaState α := { s with ueVector := ue :: l }
    have hAward : Updated averaged users (cb.award rbgs ue.1 sorted) :=
      award_updated (s := sorted) hCb hKeys hSorted h ue.1
    rw [firstUncovered, hEmpty ue.1 hMem, if_neg (not_max_le_zero ue.2 (by decide))]
    exact assignLoop_updated hCb hKeys hAward

theorem award_frame {l : List UInt16} {rnti' : UInt16} (hMem : rnti ∈ l)
    (hVector : ∀ ue ∈ s.ueVector, ue.1 ∈ l) (hNot : rnti' ∉ l) :
    (cb.award rbgs rnti s).ues rnti' = s.ues rnti' := by
  have hNe : rnti' ≠ rnti := by
    rintro rfl
    exact hNot hMem
  have hOthers : rnti' ∉ (s.ueVector.filter fun ue => ue.1 ≠ rnti).map Prod.fst := by
    intro hIn
    obtain ⟨ue, hUe, rfl⟩ := List.mem_map.mp hIn
    exact hNot (hVector ue (List.mem_of_mem_filter hUe))
  refine (modifyAll_of_notMem hOthers).trans ?_
  exact (modifyAt_of_ne _ _ hNe).trans (modifyAt_of_ne _ _ hNe)

theorem assignLoop_frame {n : ℕ} {l : List UInt16} (hVector : ∀ ue ∈ s.ueVector, ue.1 ∈ l)
    (hNot : rnti ∉ l) : (cb.assignLoop rbgs n s).ues rnti = s.ues rnti := by
  induction n generalizing s with
  | zero => rfl
  | succ n ih =>
    have hSub : ∀ ue ∈ cb.sort s.ues s.ueVector, ue.1 ∈ l :=
      fun ue hIn => hVector ue ((cb.sort_perm s.ues s.ueVector).subset hIn)
    have hPassed : (cb.firstUncovered s.ues (cb.sort s.ues s.ueVector)).1 rnti = s.ues rnti := by
      refine firstUncovered_of_notMem fun hIn => ?_
      obtain ⟨ue, hUe, rfl⟩ := List.mem_map.mp hIn
      exact hNot (hSub ue hUe)
    rw [assignLoop]
    split
    · exact hPassed
    · next ue hUe =>
      refine (ih hSub).trans ?_
      exact (award_frame (hSub ue (mem_of_firstUncovered hUe)) hSub hNot).trans hPassed

/-! ## The symbols of the slot -/

theorem winners_mem {n : ℕ} {l : List UInt16} (hVector : ∀ ue ∈ s.ueVector, ue.1 ∈ l) :
    ∀ rnti ∈ cb.winners rbgs n s, rnti ∈ l := by
  induction n generalizing s with
  | zero => exact fun _ hNone => absurd hNone List.not_mem_nil
  | succ n ih =>
    have hSub : ∀ ue ∈ cb.sort s.ues s.ueVector, ue.1 ∈ l :=
      fun ue hIn => hVector ue ((cb.sort_perm s.ues s.ueVector).subset hIn)
    rw [winners]
    split
    · exact fun _ hNone => absurd hNone List.not_mem_nil
    · next ue hUe =>
      exact List.forall_mem_cons.mpr ⟨hSub ue (mem_of_firstUncovered hUe), ih hSub⟩

/-- The symbols that are assigned are the rounds, in 8 bits. -/
theorem assignLoop_sym (n : ℕ) (s : TdmaState α) :
    (cb.assignLoop rbgs n s).assigned.sym =
      s.assigned.sym + UInt8.ofNat (cb.winners rbgs n s).length := by
  induction n generalizing s with
  | zero => exact (UInt8.add_zero _).symm
  | succ n ih =>
    rw [assignLoop, winners]
    cases (cb.firstUncovered s.ues (cb.sort s.ues s.ueVector)).2 with
    | none => exact (UInt8.add_zero _).symm
    | some ue =>
      dsimp only
      rw [ih, List.length_cons, Nat.add_comm _ 1, UInt8.ofNat_add, ← UInt8.add_assoc]
      rfl

theorem total_count_eq {users rounds : List UInt16} (hNodup : users.Nodup)
    (hSub : ∀ rnti ∈ rounds, rnti ∈ users) : total users (rounds.count ·) = rounds.length := by
  induction rounds with
  | nil => exact total_eq_zero fun _ _ => rfl
  | cons winner rounds ih =>
    obtain ⟨hMem, hTail⟩ := List.forall_mem_cons.mp hSub
    have hGain := total_of_gain (f := (rounds.count ·)) (g := ((winner :: rounds).count ·)) hNodup
      hMem List.count_cons_self fun _ hNe => List.count_cons_of_ne (Ne.symm hNe)
    rw [hGain, ih hTail]
    rfl

/-- The symbols of all beams are the rounds. -/
theorem total_symbols {symAvail : UInt32} {active : ActiveUeMap}
    {r : (UInt16 → α) × List (UInt16 × UInt32)} (hRbgs : rbgs.toNat < 2 ^ 17)
    (hAvail : symAvail.toNat < 2 ^ 8) (hBeams : (active.map Prod.fst).Nodup)
    (hKeys : ((active.flatMap Prod.snd).map Prod.fst).Nodup)
    (hFresh : ∀ rnti ∈ (active.flatMap Prod.snd).map Prod.fst, cb.getRBG (ues rnti) = 0)
    (h : cb.assignRBGTDMA rbgs symAvail active ues = some r) :
    total active (fun beam => (symbolsOf r.2 beam.1).toNat) =
      (cb.winners rbgs symAvail.toNat (cb.start rbgs active ues)).length := by
  have hRounds := cb.length_winners rbgs symAvail.toNat (cb.start rbgs active ues)
  have hSub : ∀ rnti ∈ cb.winners rbgs symAvail.toNat (cb.start rbgs active ues),
      rnti ∈ (active.flatMap Prod.snd).map Prod.fst :=
    winners_mem fun ue hUe => List.mem_map_of_mem hUe
  rw [← total_count_eq hKeys hSub]
  rw [assignRBGTDMA] at h
  split at h
  · cases h
  · next hPos =>
    cases h
    have hSym : ∀ beam ∈ active, (symbolsOf (active.map fun el => (el.1, cb.symOfBeam rbgs
        (cb.assignLoop rbgs symAvail.toNat (cb.start rbgs active ues)).ues el.2)) beam.1).toNat =
          total (beam.2.map Prod.fst)
            ((cb.winners rbgs symAvail.toNat (cb.start rbgs active ues)).count ·) := by
      intro beam hBeam
      have hIn : ∀ ue ∈ beam.2, ue.1 ∈ (active.flatMap Prod.snd).map Prod.fst :=
        fun ue hUe => List.mem_map_of_mem (List.mem_flatMap.mpr ⟨beam, hBeam, hUe⟩)
      have hOwn : (beam.2.map Prod.fst).Nodup := by
        rw [List.map_flatMap] at hKeys
        exact (List.nodup_flatMap.mp hKeys).1 beam hBeam
      rw [symbolsOf_map hBeams hBeam]
      refine cb.symOfBeam_toNat hPos hOwn (by omega) fun ue hUe => ?_
      have hZero : (cb.getRBG ((cb.start rbgs active ues).ues ue.1)).toNat = rbgs.toNat * 0 := by
        rw [start, cb.getRBG_foldl (cb.getRBG_before _), hFresh ue.1 (hIn ue hUe)]
        rfl
      rw [cb.getRBG_assignLoop hRbgs ue.1 hZero (by omega), Nat.zero_add]
    refine (total_congr hSym).trans ?_
    rw [List.map_flatMap, total_flatMap]

theorem total_symbols_le {symAvail : UInt32} {active : ActiveUeMap}
    {r : (UInt16 → α) × List (UInt16 × UInt32)} (hRbgs : rbgs.toNat < 2 ^ 17)
    (hAvail : symAvail.toNat < 2 ^ 8) (hBeams : (active.map Prod.fst).Nodup)
    (hKeys : ((active.flatMap Prod.snd).map Prod.fst).Nodup)
    (hFresh : ∀ rnti ∈ (active.flatMap Prod.snd).map Prod.fst, cb.getRBG (ues rnti) = 0)
    (h : cb.assignRBGTDMA rbgs symAvail active ues = some r) :
    total active (fun beam => (symbolsOf r.2 beam.1).toNat) ≤ symAvail.toNat :=
  (total_symbols hRbgs hAvail hBeams hKeys hFresh h).trans_le (cb.length_winners _ _ _)

/-- The users of a beam with symbols are updated over all the symbols of the slot. -/
theorem assignRBGTDMA_averaged {symAvail : UInt32} {active : ActiveUeMap}
    {r : (UInt16 → α) × List (UInt16 × UInt32)} (hCb : cb.Averages pending averaged)
    (hRbgs : rbgs.toNat < 2 ^ 17) (hAvail : symAvail.toNat < 2 ^ 8)
    (hBeams : (active.map Prod.fst).Nodup)
    (hKeys : ((active.flatMap Prod.snd).map Prod.fst).Nodup)
    (hFresh : ∀ rnti ∈ (active.flatMap Prod.snd).map Prod.fst,
      cb.getRBG (ues rnti) = 0 ∧ cb.getTBS (ues rnti) = 0 ∧ pending rnti (ues rnti))
    (h : cb.assignRBGTDMA rbgs symAvail active ues = some r) :
    (∀ rnti ∉ (active.flatMap Prod.snd).map Prod.fst, r.1 rnti = ues rnti) ∧
    ∀ beam ∈ active, symbolsOf r.2 beam.1 ≠ 0 → ∀ ue ∈ beam.2,
      averaged (UInt8.ofNat (total active fun beam => (symbolsOf r.2 beam.1).toNat)) ue.1
        (r.1 ue.1) := by
  have hTotal := total_symbols hRbgs hAvail hBeams hKeys (fun rnti hMem => (hFresh rnti hMem).1) h
  have hStart : ∀ rnti ∈ (active.flatMap Prod.snd).map Prod.fst,
      cb.getTBS ((cb.start rbgs active ues).ues rnti) = 0 ∧
        pending rnti ((cb.start rbgs active ues).ues rnti) := by
    intro rnti hMem
    refine modifyAll_induction (g := cb.beforeSched (ftResources rbgs 1))
      (P := fun rnti ue => rnti ∈ (active.flatMap Prod.snd).map Prod.fst →
        cb.getTBS ue = 0 ∧ pending rnti ue) ?_ ?_ rnti hMem
    · intro rnti ue hUe hIn
      obtain ⟨hEmpty, hPending⟩ := hUe hIn
      exact ⟨(hCb.getTBS_before _ ue).trans hEmpty, hCb.before _ _ _ hPending⟩
    · exact fun rnti hIn => (hFresh rnti hIn).2
  have hRoom : ∀ beam ∈ active, symbolsOf r.2 beam.1 ≠ 0 → 0 < symAvail.toNat := by
    intro beam hBeam hSymbols
    have hLe := le_total (fun beam => (symbolsOf r.2 beam.1).toNat) hBeam
    have hAll := total_symbols_le hRbgs hAvail hBeams hKeys (fun rnti hMem => (hFresh rnti hMem).1) h
    have hSome : 0 < (symbolsOf r.2 beam.1).toNat :=
      Nat.pos_of_ne_zero fun hZero => hSymbols (UInt32.toNat_inj.mp hZero)
    omega
  rw [hTotal]
  rw [assignRBGTDMA] at h
  split at h
  · cases h
  · cases h
    constructor
    · intro rnti hNot
      refine (assignLoop_frame (fun ue hUe => List.mem_map_of_mem hUe) hNot).trans ?_
      exact modifyAll_of_notMem hNot
    · intro beam hBeam hSymbols ue hUe
      have hMem : ue.1 ∈ (active.flatMap Prod.snd).map Prod.fst :=
        List.mem_map_of_mem (List.mem_flatMap.mpr ⟨beam, hBeam, hUe⟩)
      have hUsers : active.flatMap Prod.snd ≠ [] := by
        intro hNone
        rw [hNone] at hMem
        cases hMem
      have hUpdated : Updated averaged (active.flatMap Prod.snd)
          (cb.assignLoop rbgs symAvail.toNat (cb.start rbgs active ues)) :=
        assignLoop_of_empty hCb hKeys hUsers (hRoom beam hBeam hSymbols) (List.Perm.refl _)
          (fun rnti hIn => (hStart rnti hIn).2) fun rnti hIn => (hStart rnti hIn).1
      have hAveraged := hUpdated.averaged ue.1 hMem
      rw [assignLoop_sym] at hAveraged
      change averaged (0 + _) _ _ at hAveraged
      rw [UInt8.zero_add] at hAveraged
      exact hAveraged

end TdmaCallbacks

end Bullet.Mac
