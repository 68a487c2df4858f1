import Bullet.Mac.DlGrants
import Bullet.Mac.NewDataLayout
import Bullet.Mac.PfTdma
import Bullet.Mac.UlShares

/-! # Where OFDMA and TDMA put new data

With OFDMA the users of a beam lie side by side on all its symbols, with TDMA a user takes its rounds
over the whole bandwidth. Both stay within the symbols that the slot has left.
-/

namespace Bullet.Mac

open Lib.Bitmask Lib.PointUpdates Lib.Shares Lib.Tiles NewDataState

variable {μ : Type} {ues ues' : SchedUes μ} {rnti : UInt16}

section Resets

variable (resets : MetricResets μ)

theorem resetDlMetric_frames (rnti : UInt16) (ues : SchedUes μ) :
    (resets.resetDlMetric rnti ues).rbgs = ues.rbgs ∧
      (resets.resetDlMetric rnti ues).harq = ues.harq := by
  refine ⟨?_, rfl⟩
  funext fmt rnti'
  cases fmt with
  | dl =>
    change ((Function.update ues.dl rnti _) rnti').dlRBG = (ues.dl rnti').dlRBG
    rcases eq_or_ne rnti' rnti with rfl | hNe
    · rw [Function.update_self]
    · rw [Function.update_of_ne hNe]
  | ul => rfl

theorem resetUlMetric_frames (rnti : UInt16) (ues : SchedUes μ) :
    (resets.resetUlMetric rnti ues).rbgs = ues.rbgs ∧
      (resets.resetUlMetric rnti ues).harq = ues.harq := by
  refine ⟨?_, rfl⟩
  funext fmt rnti'
  cases fmt with
  | dl => rfl
  | ul =>
    change ((Function.update ues.ul rnti _) rnti').ulRBG = (ues.ul rnti').ulRBG
    rcases eq_or_ne rnti' rnti with rfl | hNe
    · rw [Function.update_self]
    · rw [Function.update_of_ne hNe]

theorem resetSchedInfo_filled {harq : UeMap} {f : NrMacSchedulerUeInfo → NrMacSchedulerUeInfo}
    (hKeep : ∀ ue, (f ue).ulHarq = ue.ulHarq) (hFilled : harq.UlGrantsFilled) :
    UeMap.UlGrantsFilled (Function.update harq rnti ((harq rnti).map f)) := by
  refine hFilled.congr fun key => ulProcess_congr ?_
  rcases eq_or_ne key.rnti rnti with hEq | hNe
  · rw [hEq, Function.update_self, Option.map_map]
    congr 1
    funext ue
    exact hKeep ue
  · rw [Function.update_of_ne hNe]

theorem resetDlSchedInfo_frames (rnti : UInt16) (ues : SchedUes μ) :
    (ues.harq.UlGrantsFilled → (resets.resetDlSchedInfo rnti ues).harq.UlGrantsFilled) ∧
    ∀ fmt' rnti', (resets.resetDlSchedInfo rnti ues).rbgs fmt' rnti' =
      if fmt' = .dl ∧ rnti' = rnti then 0 else ues.rbgs fmt' rnti' := by
  refine ⟨resetSchedInfo_filled fun _ => rfl, fun fmt' rnti' => ?_⟩
  cases fmt' with
  | dl =>
    refine (OfdmaNewData.resetDlSchedInfo_dlRBG resets ues rnti').trans ?_
    exact if_congr (by simp) rfl rfl
  | ul => exact (if_neg (by simp)).symm

theorem resetUlSchedInfo_frames (rnti : UInt16) (ues : SchedUes μ) :
    (ues.harq.UlGrantsFilled → (resets.resetUlSchedInfo rnti ues).harq.UlGrantsFilled) ∧
    ∀ fmt' rnti', (resets.resetUlSchedInfo rnti ues).rbgs fmt' rnti' =
      if fmt' = .ul ∧ rnti' = rnti then 0 else ues.rbgs fmt' rnti' := by
  refine ⟨resetSchedInfo_filled fun _ => rfl, fun fmt' rnti' => ?_⟩
  cases fmt' with
  | dl => exact (if_neg (by simp)).symm
  | ul =>
    change ((Function.update ues.ul rnti _) rnti').ulRBG = _
    rcases eq_or_ne rnti' rnti with rfl | hNe
    · rw [Function.update_self, if_pos ⟨rfl, rfl⟩]
    · rw [Function.update_of_ne hNe, if_neg fun h => hNe h.2]
      rfl

end Resets

/-! ## OFDMA -/

section Mask

variable {α : Type*} [DecidableEq α] [Zero α] [One α] {start i n : ℕ} {mask l : List α}

/-- The free positions meet a demand of which nothing is missing. -/
theorem le_onesFrom_of_missing (last : ℕ) (h : (takeOnes start i l n last).2.1 = 0) :
    n ≤ onesFrom start i l := by
  induction l generalizing i n last with
  | nil => exact h.le
  | cons b l ih =>
    by_cases hTake : start ≤ i ∧ 0 < n ∧ b = 1
    · rw [takeOnes_of_take hTake] at h
      rw [onesFrom_cons_of_free ⟨hTake.1, hTake.2.2⟩]
      have hRest := ih i h
      omega
    · rw [takeOnes_of_skip hTake] at h
      have hRest := ih last h
      rw [onesFrom]
      omega

/-- A mask that is not empty took what was asked for. -/
theorem taken_of_missing (last : ℕ) (hNe : (1 : α) ≠ 0)
    (hMissing : (takeOnes start 0 mask n last).2.1 = 0)
    (hSome : (takeOnes start 0 mask n last).1.count 0 ≠ mask.length) :
    Taken mask start n (takeOnes start 0 mask n last) := by
  refine taken last hNe ?_ (le_onesFrom_of_missing last hMissing)
  refine Nat.pos_of_ne_zero fun hZero => hSome ?_
  rw [hZero, takeOnes_zero, List.count_replicate_self]

end Mask

namespace OfdmaNewData

variable {sch : OfdmaNewData μ} {spoint spoint' : PointInFTPlane} {maxSym : UInt32}
  {dci : DciInfoElementTdma}

theorem toNat_of_last {last : ℕ} {bw : UInt16} (h : last < bw.toNat) :
    (UInt32.ofNat (last + 1)).toNat = last + 1 := by
  have hBw := bw.toNat_lt
  rw [UInt32.toNat_ofNat']
  exact Nat.mod_eq_of_lt (by omega)

/-- A DCI takes RBGs from the starting point on, and the next one starts behind them. -/
theorem createDlDci_grant {dlUes dlUes' : DlUes μ} (hMax : maxSym ≠ 0)
    (h : sch.createDlDci spoint rnti maxSym dlUes = some (some dci, spoint', dlUes')) :
    DataDci .dl rnti dci ∧ dci.numSym.toUInt32 = maxSym ∧ dci.symStart = spoint.sym ∧
      spoint'.sym = spoint.sym ∧ spoint.rbg.toNat ≤ spoint'.rbg.toNat ∧
      ∀ i : ℕ, dci.rbgBitmask[i]? = some 1 → spoint.rbg.toNat ≤ i ∧ i < spoint'.rbg.toNat := by
  rw [createDlDci] at h
  dsimp only at h
  rw [if_neg hMax] at h
  split at h
  · cases h
  · next hCall =>
    have hWide : ¬ 255 < maxSym := fun hLt => hCall (Or.inr (Or.inr (Or.inr hLt)))
    split at h
    · cases h
    · next hStreams =>
      split at h
      · cases h
      · next hMask =>
        rw [not_ne_iff] at hMask
        generalize hTakes : takeOnes spoint.rbg.toNat 0 sch.dlRbgMask
          ((dlUes rnti).dlRBG / maxSym).toNat spoint.rbg.toNat = r at h
        split at h
        · cases h
        · next hTaken =>
          push Not at hTaken
          cases h
          have hSpec := taken_of_missing spoint.rbg.toNat (show (1 : UInt8) ≠ 0 by decide)
            (hTakes ▸ hTaken.1) (by rw [hTakes, hMask]; exact hTaken.2)
          rw [hTakes] at hSpec
          have hNext := toNat_of_last (hSpec.last_lt.trans_eq hMask)
          have hNumSym : maxSym.toUInt8.toUInt32 = maxSym := by
            refine UInt32.toNat_inj.mp ?_
            rw [UInt8.toNat_toUInt32, UInt32.toNat_toUInt8]
            exact Nat.mod_eq_of_lt (Nat.lt_succ_of_le (UInt32.le_iff_toNat_le.mp (UInt32.not_lt.mp hWide)))
          refine ⟨⟨rfl, rfl, rfl, ?_, fun hZero => hMax ?_⟩, hNumSym, rfl, rfl, ?_, fun i hi => ?_⟩
          · rw [List.all_eq_true] at hStreams
            push Not at hStreams
            obtain ⟨tbs, hMem, hLarge⟩ := hStreams
            refine List.mem_map.mpr ⟨tbs, hMem, if_neg fun hSmall => hLarge (decide_eq_true hSmall)⟩
          · rw [← hNumSym]
            exact congrArg UInt8.toUInt32 hZero
          · rw [hNext]
            exact hSpec.start_le.trans (Nat.le_succ _)
          · obtain ⟨-, hLow, hHigh⟩ := hSpec.kept i hi
            rw [hNext]
            exact ⟨hLow, Nat.lt_succ_of_le hHigh⟩

theorem createUlDci_grant {ue : UlUeInfo μ} (hMax : maxSym ≠ 0)
    (h : sch.createUlDci spoint rnti ue maxSym = some (some dci, spoint')) :
    DataDci .ul rnti dci ∧ dci.numSym.toUInt32 = maxSym ∧ maxSym.toNat ≤ spoint.sym.toNat ∧
      dci.symStart = (spoint.sym.toUInt32 - maxSym).toUInt8 ∧
      spoint'.sym = spoint.sym ∧ spoint.rbg.toNat ≤ spoint'.rbg.toNat ∧
      ∀ i : ℕ, dci.rbgBitmask[i]? = some 1 → spoint.rbg.toNat ≤ i ∧ i < spoint'.rbg.toNat := by
  rw [OfdmaScheduler.createUlDci] at h
  split at h
  · cases h
  · split at h
    · cases h
    · next hMask =>
      rw [not_ne_iff] at hMask
      dsimp only at h
      generalize hTakes : takeOnes spoint.rbg.toNat 0 sch.ulRbgMask
        (ue.ulRBG / maxSym).toNat spoint.rbg.toNat = r at h
      split at h
      · cases h
      · next hTaken =>
        push Not at hTaken
        cases h
        have hSpec := taken_of_missing spoint.rbg.toNat (show (1 : UInt8) ≠ 0 by decide)
          (hTakes ▸ hTaken.1) (by rw [hTakes, hMask]; exact hTaken.2.2)
        rw [hTakes] at hSpec
        have hNext := toNat_of_last (hSpec.last_lt.trans_eq hMask)
        have hRoom : maxSym.toNat ≤ spoint.sym.toNat := by
          have hLe := UInt32.le_iff_toNat_le.mp (UInt32.not_lt.mp hTaken.2.1)
          rwa [UInt8.toNat_toUInt32] at hLe
        have hNumSym : maxSym.toUInt8.toUInt32 = maxSym := by
          have hLt := spoint.sym.toNat_lt
          refine UInt32.toNat_inj.mp ?_
          rw [UInt8.toNat_toUInt32, UInt32.toNat_toUInt8]
          exact Nat.mod_eq_of_lt (by omega)
        refine ⟨⟨rfl, rfl, rfl, List.mem_singleton_self 1, fun hZero => hMax ?_⟩, hNumSym, hRoom,
          rfl, rfl, ?_, fun i hi => ?_⟩
        · rw [← hNumSym]
          exact congrArg UInt8.toUInt32 hZero
        · rw [hNext]
          exact hSpec.start_le.trans (Nat.le_succ _)
        · obtain ⟨-, hLow, hHigh⟩ := hSpec.kept i hi
          rw [hNext]
          exact ⟨hLow, Nat.lt_succ_of_le hHigh⟩

/-- The users of a beam keep to themselves. -/
theorem assignBeam_frame {sch : OfdmaScheduler μ} {beamSym maxBuffer : UInt32} {ulUes : UlUes μ}
    {beam : List UePtrAndBufferReq} {t : BeamState μ}
    (h : sch.assignBeam beamSym ulUes maxBuffer beam = some t) (hNot : rnti ∉ beam.map Prod.fst) :
    t.ues rnti = ulUes rnti := by
  have hStart : Within ulUes beam (sch.beamStart beamSym ulUes maxBuffer beam) :=
    ⟨List.Perm.refl _, fun rnti hNotMem => updateMetrics_of_notMem _ _ hNotMem⟩
  rw [OfdmaScheduler.assignBeam] at h
  split at h
  · cases h
  · cases h
    split
    · exact (OfdmaScheduler.stage_within (OfdmaScheduler.stage_within hStart)).frame rnti hNot
    · exact (OfdmaScheduler.stage_within hStart).frame rnti hNot

theorem assignULRBG_frame {sch : OfdmaScheduler μ} {symPerBeam : UInt16 → UInt32}
    {maxBuffer : UInt32} {ulUes : UlUes μ} {active : ActiveUeMap} {r : UlUes μ × UInt32 × List ℕ}
    (h : sch.assignULRBG symPerBeam ulUes maxBuffer active = some r)
    (hNot : rnti ∉ active.flatMap fun beam => beam.2.map Prod.fst) : r.1 rnti = ulUes rnti := by
  induction active generalizing ulUes maxBuffer r with
  | nil =>
    cases h
    rfl
  | cons beam active ih =>
    rw [List.flatMap_cons, List.mem_append, not_or] at hNot
    obtain ⟨t, hBeam, h⟩ := Option.bind_eq_some_iff.mp h
    obtain ⟨r', hRest, h⟩ := Option.bind_eq_some_iff.mp h
    cases h
    exact (ih hRest hNot.2).trans (assignBeam_frame hBeam hNot.1)

theorem dlFrames (sch : OfdmaNewData μ) : sch.dlNewData.Frames .dl where
  assign {symAvail active ues ues' symPerBeam} h := by
    obtain ⟨l, -, h⟩ := Option.bind_eq_some_iff.mp h
    obtain ⟨dl, hDl, h⟩ := Option.bind_eq_some_iff.mp h
    cases h
    refine ⟨rfl, fun fmt' rnti hNot => ?_⟩
    cases fmt' with
    | dl =>
      rw [← List.map_flatMap] at hNot
      exact congrArg DlUeInfo.dlRBG (sch.assignDLRBG_frame hDl (hNot rfl))
    | ul => rfl
  create {spoint rnti maxSym ues dci spoint' ues'} h := by
    obtain ⟨⟨made, point, dl⟩, hMade, h⟩ := Option.bind_eq_some_iff.mp h
    cases h
    refine ⟨?_, rfl, ?_⟩
    · funext fmt rnti'
      cases fmt with
      | dl => exact createDlDci_dlRBG hMade rnti'
      | ul => rfl
    · rintro rfl
      rw [createDlDci] at hMade
      dsimp only at hMade
      split_ifs at hMade
      · cases hMade
        rfl
      · cases hMade
  reset := resetDlMetric_frames sch.resets
  close := resetDlSchedInfo_frames sch.resets

theorem ulFrames (sch : OfdmaNewData μ) : sch.ulNewData.Frames .ul where
  assign {symAvail active ues ues' symPerBeam} h := by
    obtain ⟨l, -, h⟩ := Option.bind_eq_some_iff.mp h
    obtain ⟨r, hUl, h⟩ := Option.bind_eq_some_iff.mp h
    cases h
    refine ⟨rfl, fun fmt' rnti hNot => ?_⟩
    cases fmt' with
    | dl => rfl
    | ul => exact congrArg UlUeInfo.ulRBG (assignULRBG_frame hUl (hNot rfl))
  create {spoint rnti maxSym ues dci spoint' ues'} h := by
    obtain ⟨⟨made, point⟩, hMade, h⟩ := Option.bind_eq_some_iff.mp h
    cases h
    refine ⟨rfl, rfl, ?_⟩
    rintro rfl
    rw [OfdmaScheduler.createUlDci] at hMade
    dsimp only at hMade
    split_ifs at hMade
    · cases hMade
      rfl
    · cases hMade
  reset := resetUlMetric_frames sch.resets
  close := resetUlSchedInfo_frames sch.resets

/-- Where the next beam starts in DL and in UL. -/
def nextDl (sym : UInt8) (n : UInt32) : UInt8 := (sym.toUInt32 + n).toUInt8

def nextUl (sym : UInt8) (n : UInt32) : UInt8 := (sym.toUInt32 - n).toUInt8

theorem dlShelves (sch : OfdmaNewData μ) {symbolsPerSlot : UInt32} (ids : List UInt8)
    (hSlot : symbolsPerSlot.toNat < 2 ^ 8) :
    Shelves sch.dlNewData (dlDirection symbolsPerSlot ids) .dl nextDl where
  frames := sch.dlFrames
  changeBeam _ _ := rfl
  grant {spoint spoint' rnti maxSym ues ues' ues'' dci alloc} hMax hCreate hTransport := by
    obtain ⟨⟨made, point, dl⟩, hMade, hCreate⟩ := Option.bind_eq_some_iff.mp hCreate
    cases hCreate
    obtain ⟨hData, hNumSym, hStart, hSym, hLe, hCols⟩ := createDlDci_grant hMax hMade
    have hRoom := (dlDirection_transport hTransport).1
    have hLen : dci.numSym.toNat = maxSym.toNat := by rw [← hNumSym, UInt8.toNat_toUInt32]
    refine ⟨hData, hNumSym, ⟨congrArg UInt8.toNat hStart, ?_⟩, hSym, hLe, hCols⟩
    change dci.symStart.toNat + dci.numSym.toNat ≤ symbolsPerSlot.toNat at hRoom
    change dci.symStart.toNat + dci.numSym.toNat = (spoint.sym.toUInt32 + maxSym).toUInt8.toNat
    rw [hStart, hLen] at hRoom ⊢
    rw [UInt32.toNat_toUInt8, UInt32.toNat_add, UInt8.toNat_toUInt32]
    omega

theorem ulShelves (sch : OfdmaNewData μ) (ids : List UInt8) :
    Shelves sch.ulNewData (ulDirection ids) .ul nextUl where
  frames := sch.ulFrames
  changeBeam _ _ := rfl
  grant {spoint spoint' rnti maxSym ues ues' ues'' dci alloc} hMax hCreate _ := by
    obtain ⟨⟨made, point⟩, hMade, hCreate⟩ := Option.bind_eq_some_iff.mp hCreate
    cases hCreate
    obtain ⟨hData, hNumSym, hRoom, hStart, hSym, hLe, hCols⟩ := createUlDci_grant hMax hMade
    have hLen : dci.numSym.toNat = maxSym.toNat := by rw [← hNumSym, UInt8.toNat_toUInt32]
    refine ⟨hData, hNumSym, ⟨congrArg UInt8.toNat hStart, ?_⟩, hSym, hLe, hCols⟩
    change dci.symStart.toNat + dci.numSym.toNat = spoint.sym.toNat
    have hLt := spoint.sym.toNat_lt
    have hWord : maxSym ≤ spoint.sym.toUInt32 := by
      rw [UInt32.le_iff_toNat_le, UInt8.toNat_toUInt32]
      exact hRoom
    rw [hStart, hLen, UInt32.toNat_toUInt8, UInt32.toNat_sub_of_le _ _ hWord, UInt8.toNat_toUInt32]
    omega

/-- The symbols of the beams are no more than there are. -/
theorem total_getSymPerBeam_le {symAvail : UInt32} {active : ActiveUeMap}
    {l : List (UInt16 × UInt32)} (sch : OfdmaNewData μ) (hAvail : symAvail.toNat < 2 ^ 8)
    (hBeams : (active.map Prod.fst).Nodup) (h : sch.getSymPerBeam symAvail active = some l) :
    total active (fun beam => (symbolsOf l beam.1).toNat) ≤ symAvail.toNat := by
  rw [sch.getSymPerBeam_eq hAvail, Option.some_inj] at h
  have hLe := sch.totalSymbols_shares_le symAvail active
  have hWalk := sch.walkOrder_perm (sch.shares symAvail active)
  have hTotal : totalSymbols (sch.walkOrder (sch.shares symAvail active)) =
      totalSymbols (sch.shares symAvail active) := total_perm _ hWalk
  have hLeftover : sch.leftover symAvail active =
      symAvail.toNat - totalSymbols (sch.shares symAvail active) := rfl
  have hAll : totalSymbols l ≤ symAvail.toNat := by
    rw [← h]
    have hSum := totalSymbols_redistribute_le (sch.leftover symAvail active)
      (sch.walkOrder (sch.shares symAvail active)) (by omega)
    omega
  have hKeys : (l.map Prod.fst).Perm (active.map Prod.fst) := by
    rw [← h, redistribute_keys]
    refine (hWalk.map _).trans (List.Perm.of_eq ?_)
    rw [shares, List.map_map]
    rfl
  have hNodup : (l.map Prod.fst).Nodup := hKeys.nodup_iff.mpr hBeams
  have hOwn : ∀ b ∈ l, symbolsOf l b.1 = b.2 := fun b hb => symbolsOf_of_mem hNodup hb
  refine le_trans (le_of_eq ?_) hAll
  have hSwap : total (active.map Prod.fst) (fun beam => (symbolsOf l beam).toNat) =
      total (l.map Prod.fst) (fun beam => (symbolsOf l beam).toNat) := total_perm _ hKeys.symm
  rw [total, List.map_map] at hSwap
  refine hSwap.trans ?_
  rw [total, List.map_map, totalSymbols]
  exact total_congr (f := fun b => (symbolsOf l b.1).toNat) fun b hb =>
    congrArg UInt32.toNat (hOwn b hb)

end OfdmaNewData

/-! ## TDMA -/

namespace TdmaCallbacks

variable {α : Type} {cb : TdmaCallbacks α} {rbgs symAvail : UInt32} {active : ActiveUeMap}
  {all : UInt16 → α} {r : (UInt16 → α) × List (UInt16 × UInt32)}

theorem assignRBGTDMA_frame (h : cb.assignRBGTDMA rbgs symAvail active all = some r)
    (hNot : rnti ∉ active.flatMap fun beam => beam.2.map Prod.fst) : r.1 rnti = all rnti := by
  rw [← List.map_flatMap] at hNot
  rw [assignRBGTDMA] at h
  split at h
  · cases h
  · cases h
    have hVector : ∀ ue ∈ (cb.start rbgs active all).ueVector,
        ue.1 ∈ (active.flatMap Prod.snd).map Prod.fst := fun ue hUe => List.mem_map_of_mem hUe
    exact (assignLoop_frame (s := cb.start rbgs active all) hVector hNot).trans
      (modifyAll_of_notMem hNot)

/-- A user without RBGs gets those of the rounds that it wins, and the rounds are no more than the
symbols. -/
theorem assignRBGTDMA_rounds (hRbgs : rbgs.toNat < 2 ^ 17) (hAvail : symAvail.toNat < 2 ^ 8)
    (hNodup : (active.flatMap fun beam => beam.2.map Prod.fst).Nodup)
    (hFresh : ∀ rnti, cb.getRBG (all rnti) = 0)
    (h : cb.assignRBGTDMA rbgs symAvail active all = some r) :
    ∃ rounds : List UInt16, rounds.length < 2 ^ 8 ∧
      (∀ rnti, (cb.getRBG (r.1 rnti)).toNat = rbgs.toNat * rounds.count rnti) ∧
      total active (fun beam => total (beam.2.map Prod.fst) (rounds.count ·)) ≤ symAvail.toNat := by
  rw [assignRBGTDMA] at h
  split at h
  · cases h
  · cases h
    have hLength := cb.length_winners rbgs symAvail.toNat (cb.start rbgs active all)
    refine ⟨cb.winners rbgs symAvail.toNat (cb.start rbgs active all), by omega, fun rnti => ?_, ?_⟩
    · have hZero : (cb.getRBG ((cb.start rbgs active all).ues rnti)).toNat = rbgs.toNat * 0 := by
        rw [start, cb.getRBG_foldl (cb.getRBG_before _), hFresh rnti]
        rfl
      exact (cb.getRBG_assignLoop hRbgs rnti hZero (by omega)).trans (by rw [Nat.zero_add])
    · rw [← total_flatMap]
      exact (total_count_le hNodup _).trans hLength

end TdmaCallbacks

namespace TdmaScheduler

variable {sch : TdmaScheduler μ} {spoint spoint' : PointInFTPlane} {maxSym : UInt32}
  {dci : DciInfoElementTdma} {mask : List UInt8} {rounds : ℕ}

theorem numOfAssignableRbgs_lt (sch : TdmaScheduler μ) (mask : List UInt8)
    (h : mask.count 0 ≤ sch.bandwidthInRbg.toNat) :
    (sch.numOfAssignableRbgs mask).toNat < 2 ^ 17 := by
  have hBw := sch.bandwidthInRbg.toNat_lt
  have hCount : (UInt32.ofNat (mask.count 0)).toNat = mask.count 0 := by
    rw [UInt32.toNat_ofNat']
    exact Nat.mod_eq_of_lt (by omega)
  have hLe : UInt32.ofNat (mask.count 0) ≤ sch.bandwidthInRbg.toUInt32 := by
    rw [UInt32.le_iff_toNat_le, hCount, UInt16.toNat_toUInt32]
    exact h
  rw [numOfAssignableRbgs, UInt32.toNat_sub_of_le _ _ hLe, UInt16.toNat_toUInt32]
  omega

theorem createDci_spec {tbs : List UInt32} {fmt : DciFormat} {mcs ndi rv : List UInt8} {numSym : UInt8}
    (hNdi : 1 ∈ ndi)
    (h : sch.createDci mask spoint rnti tbs fmt mcs ndi rv numSym = some dci) :
    DataDci fmt rnti dci ∧ dci.symStart = spoint.sym ∧ dci.numSym = numSym := by
  rw [createDci] at h
  generalize (if mask.length = 0 then List.replicate sch.bandwidthInRbg.toNat 1 else mask) =
    rbgAssigned at h
  split at h
  · cases h
  · next hCall =>
    cases h
    exact ⟨⟨rfl, rfl, rfl, hNdi, fun hZero => hCall (Or.inr (Or.inl hZero))⟩, rfl, rfl⟩

theorem rounds_of_rbgs {rbg rbgs : UInt32} (hRbg : rbg.toNat = rbgs.toNat * rounds)
    (hNe : rbgs ≠ 0) : (rbg / rbgs).toNat = rounds := by
  have hPos : 0 < rbgs.toNat := Nat.pos_of_ne_zero fun hZero => hNe (UInt32.toNat_inj.mp hZero)
  rw [UInt32.toNat_div, hRbg, Nat.mul_div_cancel_left _ hPos]

theorem rounds_pos {rbg rbgs : UInt32} (hRbg : rbg.toNat = rbgs.toNat * rounds) (hSome : rbg ≠ 0) :
    0 < rounds := by
  refine Nat.pos_of_ne_zero fun hZero => hSome (UInt32.toNat_inj.mp ?_)
  rw [hRbg, hZero]
  rfl

/-- A user with RBGs gets its rounds right behind the starting point. -/
theorem createDlDci_grant {dlUes dlUes' : DlUes μ}
    (hRbg : ((dlUes rnti).dlRBG).toNat =
      (sch.numOfAssignableRbgs sch.dlNotchedRbgsMask).toNat * rounds)
    (hFew : rounds < 2 ^ 8) (hSome : (dlUes rnti).dlRBG ≠ 0)
    (h : sch.createDlDci spoint rnti dlUes = some (some dci, spoint', dlUes')) :
    DataDci .dl rnti dci ∧ dci.symStart = spoint.sym ∧ dci.numSym.toNat = rounds ∧
      spoint' = ⟨0, spoint.sym + dci.numSym⟩ := by
  rw [createDlDci] at h
  dsimp only at h
  split at h
  · cases h
  · next hStreams =>
    split at h
    · cases h
    · next hRbgs =>
      obtain ⟨made, hMade, h⟩ := Option.bind_eq_some_iff.mp h
      cases h
      rw [List.all_eq_true] at hStreams
      push Not at hStreams
      obtain ⟨tbs, hMem, hLarge⟩ := hStreams
      obtain ⟨hData, hStart, hNumSym⟩ := createDci_spec (List.mem_map.mpr
        ⟨tbs, hMem, if_neg fun hSmall => hLarge (decide_eq_true hSmall)⟩) hMade
      have hRounds := rounds_of_rbgs hRbg hRbgs
      have hPos := rounds_pos hRbg hSome
      have hWord : ((dlUes rnti).dlRBG /
          sch.numOfAssignableRbgs sch.dlNotchedRbgsMask).toUInt8.toNat = rounds := by
        rw [UInt32.toNat_toUInt8, hRounds]
        exact Nat.mod_eq_of_lt hFew
      have hMax : max ((dlUes rnti).dlRBG /
          sch.numOfAssignableRbgs sch.dlNotchedRbgsMask).toUInt8 1 =
            ((dlUes rnti).dlRBG / sch.numOfAssignableRbgs sch.dlNotchedRbgsMask).toUInt8 := by
        refine ite_eq_right_iff.mpr fun hLe => UInt8.le_antisymm (UInt8.le_iff_toNat_le.mpr ?_) hLe
        rw [hWord]
        exact hPos
      rw [hMax] at hNumSym
      exact ⟨hData, hStart, hNumSym ▸ hWord, by rw [hNumSym]⟩

theorem createUlDci_grant {ue : UlUeInfo μ}
    (hRbg : ue.ulRBG.toNat = (sch.numOfAssignableRbgs sch.ulNotchedRbgsMask).toNat * rounds)
    (hSome : ue.ulRBG ≠ 0)
    (h : sch.createUlDci spoint rnti ue maxSym = some (some dci, spoint')) :
    DataDci .ul rnti dci ∧ dci.numSym ≤ spoint.sym ∧ dci.numSym.toNat ≤ rounds ∧
      dci.symStart = spoint.sym - dci.numSym ∧ spoint' = ⟨0, spoint.sym - dci.numSym⟩ := by
  rw [createUlDci] at h
  dsimp only at h
  split at h
  · cases h
  · split at h
    · cases h
    · next hRbgs =>
      split at h
      · cases h
      · next hRoom =>
        obtain ⟨made, hMade, h⟩ := Option.bind_eq_some_iff.mp h
        cases h
        obtain ⟨hData, hStart, hNumSym⟩ := createDci_spec (List.mem_singleton_self 1) hMade
        have hRounds := rounds_of_rbgs hRbg hRbgs
        have hPos := rounds_pos hRbg hSome
        have hMax : max (ue.ulRBG / sch.numOfAssignableRbgs sch.ulNotchedRbgsMask) 1 =
            ue.ulRBG / sch.numOfAssignableRbgs sch.ulNotchedRbgsMask := by
          refine ite_eq_right_iff.mpr fun hLe =>
            UInt32.le_antisymm (UInt32.le_iff_toNat_le.mpr ?_) hLe
          rw [hRounds]
          exact hPos
        rw [hMax] at hNumSym hRoom hStart
        rw [hMax, ← hNumSym]
        rw [← hNumSym] at hRoom hStart
        refine ⟨hData, UInt8.not_lt.mp hRoom, ?_, hStart, rfl⟩
        rw [hNumSym]
        refine (UInt8.le_iff_toNat_le.mp Std.min_le_left).trans ?_
        rw [UInt32.toNat_toUInt8, hRounds]
        exact Nat.mod_le _ _

theorem dlFrames (sch : TdmaScheduler μ) : sch.dlNewData.Frames .dl where
  assign {symAvail active ues ues' symPerBeam} h := by
    obtain ⟨r, hDl, h⟩ := Option.bind_eq_some_iff.mp h
    cases h
    refine ⟨rfl, fun fmt' rnti hNot => ?_⟩
    cases fmt' with
    | dl => exact congrArg DlUeInfo.dlRBG (TdmaCallbacks.assignRBGTDMA_frame hDl (hNot rfl))
    | ul => rfl
  create {spoint rnti maxSym ues dci spoint' ues'} h := by
    obtain ⟨⟨made, point, dl⟩, hMade, h⟩ := Option.bind_eq_some_iff.mp h
    cases h
    rw [createDlDci] at hMade
    dsimp only at hMade
    have hRbgs : ∀ tbSize rnti', ((setDlMetric ues.dl rnti
        { (ues.dl rnti).metric with dlTbSize := tbSize }) rnti').dlRBG = (ues.dl rnti').dlRBG :=
      fun _ _ => setDlMetric_dlRBG _ _ _ _
    split at hMade
    · cases hMade
      refine ⟨?_, rfl, fun _ => rfl⟩
      funext fmt rnti'
      cases fmt with
      | dl => exact hRbgs _ rnti'
      | ul => rfl
    · split at hMade
      · cases hMade
      · obtain ⟨dci, -, hMade⟩ := Option.bind_eq_some_iff.mp hMade
        cases hMade
        refine ⟨?_, rfl, fun hNone => absurd hNone (Option.some_ne_none _)⟩
        funext fmt rnti'
        cases fmt with
        | dl => exact hRbgs _ rnti'
        | ul => rfl
  reset := resetDlMetric_frames sch.resets
  close := resetDlSchedInfo_frames sch.resets

theorem ulFrames (sch : TdmaScheduler μ) : sch.ulNewData.Frames .ul where
  assign {symAvail active ues ues' symPerBeam} h := by
    obtain ⟨r, hUl, h⟩ := Option.bind_eq_some_iff.mp h
    cases h
    refine ⟨rfl, fun fmt' rnti hNot => ?_⟩
    cases fmt' with
    | dl => rfl
    | ul => exact congrArg UlUeInfo.ulRBG (TdmaCallbacks.assignRBGTDMA_frame hUl (hNot rfl))
  create {spoint rnti maxSym ues dci spoint' ues'} h := by
    obtain ⟨⟨made, point⟩, hMade, h⟩ := Option.bind_eq_some_iff.mp h
    cases h
    refine ⟨rfl, rfl, ?_⟩
    rintro rfl
    rw [createUlDci] at hMade
    dsimp only at hMade
    split at hMade
    · cases hMade
      rfl
    · split at hMade
      · cases hMade
      · split at hMade
        · cases hMade
        · obtain ⟨dci, -, hMade⟩ := Option.bind_eq_some_iff.mp hMade
          cases hMade
  reset := resetUlMetric_frames sch.resets
  close := resetUlSchedInfo_frames sch.resets

theorem dlStacks (sch : TdmaScheduler μ) {symbolsPerSlot : UInt32} (ids : List UInt8)
    (hSlot : symbolsPerSlot.toNat < 2 ^ 8) :
    Stacks sch.dlNewData (dlDirection symbolsPerSlot ids) .dl
      (sch.numOfAssignableRbgs sch.dlNotchedRbgsMask) where
  frames := sch.dlFrames
  changeBeam _ _ := rfl
  grant {spoint spoint' rnti maxSym ues ues' ues'' dci alloc rounds} hRbg hFew hSome hCreate
      hTransport := by
    obtain ⟨⟨made, point, dl⟩, hMade, hCreate⟩ := Option.bind_eq_some_iff.mp hCreate
    cases hCreate
    obtain ⟨hData, hStart, hNumSym, rfl⟩ := createDlDci_grant hRbg hFew hSome hMade
    have hRoom := (dlDirection_transport hTransport).1
    refine ⟨hData, ⟨congrArg UInt8.toNat hStart, ?_⟩, hNumSym.le, rfl⟩
    change dci.symStart.toNat + dci.numSym.toNat ≤ symbolsPerSlot.toNat at hRoom
    change dci.symStart.toNat + dci.numSym.toNat = (spoint.sym + dci.numSym).toNat
    rw [hStart] at hRoom ⊢
    rw [UInt8.toNat_add]
    omega

theorem ulStacks (sch : TdmaScheduler μ) (ids : List UInt8) :
    Stacks sch.ulNewData (ulDirection ids) .ul
      (sch.numOfAssignableRbgs sch.ulNotchedRbgsMask) where
  frames := sch.ulFrames
  changeBeam _ _ := rfl
  grant {spoint spoint' rnti maxSym ues ues' ues'' dci alloc rounds} hRbg _ hSome hCreate _ := by
    obtain ⟨⟨made, point⟩, hMade, hCreate⟩ := Option.bind_eq_some_iff.mp hCreate
    cases hCreate
    obtain ⟨hData, hRoom, hNumSym, hStart, rfl⟩ := createUlDci_grant hRbg hSome hMade
    refine ⟨hData, ⟨congrArg UInt8.toNat hStart, ?_⟩, hNumSym, rfl⟩
    change dci.symStart.toNat + dci.numSym.toNat = spoint.sym.toNat
    have hLe := UInt8.le_iff_toNat_le.mp hRoom
    rw [hStart, UInt8.toNat_sub_of_le _ _ hRoom]
    omega

end TdmaScheduler

/-! ## Both schedulers -/

/-- Either scheduler. -/
inductive MacScheduler (μ : Type) where
  | ofdma (sch : OfdmaNewData μ)
  | tdma (sch : TdmaScheduler μ)

namespace MacScheduler

def dlNewData : MacScheduler μ → NewDataScheduler μ
  | ofdma sch => sch.dlNewData
  | tdma sch => sch.dlNewData

def ulNewData : MacScheduler μ → NewDataScheduler μ
  | ofdma sch => sch.ulNewData
  | tdma sch => sch.ulNewData

/-- With TDMA the masks that are set are those of the bandwidth. -/
def MaskFits : MacScheduler μ → Prop
  | ofdma _ => True
  | tdma sch => ∀ mask ∈ [sch.dlNotchedRbgsMask, sch.ulNotchedRbgsMask],
      mask.count 0 ≤ sch.bandwidthInRbg.toNat

variable {m : MacScheduler μ} {ids : List UInt8} {spoint : PointInFTPlane} {symAvail : UInt32}
  {active : ActiveUeMap} {slotAlloc : SlotAllocInfo} {t : NewDataState μ}

/-- What both directions share. -/
theorem laid_of_shelves {v : NewDataScheduler μ} {d : Direction μ} {fmt : DciFormat}
    {after : UInt8 → UInt32 → UInt8} {symPerBeam : UInt16 → UInt32} {s : NewDataState μ}
    (hShelves : Shelves v d fmt after) (hTransports : d.Transports fmt)
    (hAvail : symAvail.toNat < 2 ^ 8) (hRbg : spoint.rbg = 0)
    (hAssign : v.assignRBG symAvail active ues = some (ues', symPerBeam))
    (hBound : total active (fun beam => (symPerBeam beam.1).toNat) ≤ symAvail.toNat)
    (hLoop : loop v d symPerBeam ⟨spoint, ues', slotAlloc, 0, false, [], 0⟩ active = some s)
    (hFinish : finish v active s = some t) :
    ∃ l, DataLaid fmt active symAvail.toNat spoint ues slotAlloc t l :=
  dataLaid hShelves.frames hAvail hRbg hAssign
    (fun _ _ hSome _ _ hStart _ hRun => hShelves.beam hTransports hSome hStart hRun) hBound hLoop
    hFinish

theorem laid_of_stacks {v : NewDataScheduler μ} {d : Direction μ} {fmt : DciFormat} {rbgs : UInt32}
    {symPerBeam : UInt16 → UInt32} {s : NewDataState μ} {rounds : List UInt16}
    (hStacks : Stacks v d fmt rbgs) (hTransports : d.Transports fmt)
    (hAvail : symAvail.toNat < 2 ^ 8) (hRbg : spoint.rbg = 0)
    (hAssign : v.assignRBG symAvail active ues = some (ues', symPerBeam))
    (hFew : rounds.length < 2 ^ 8)
    (hRounds : ∀ rnti, (ues'.rbgs fmt rnti).toNat = rbgs.toNat * rounds.count rnti)
    (hBound : total active (fun beam => total (beam.2.map Prod.fst) (rounds.count ·)) ≤
      symAvail.toNat)
    (hLoop : loop v d symPerBeam ⟨spoint, ues', slotAlloc, 0, false, [], 0⟩ active = some s)
    (hFinish : finish v active s = some t) :
    ∃ l, DataLaid fmt active symAvail.toNat spoint ues slotAlloc t l :=
  dataLaid hStacks.frames hAvail hRbg hAssign
    (fun _ _ _ _ _ hStart hSame hRun =>
      hStacks.beam hTransports (fun rnti _ => hSame ▸ hRounds rnti) hFew hStart hRun) hBound hLoop
    hFinish

/-- New DL data is laid behind the starting point. -/
theorem doScheduleDlData_laid {symbolsPerSlot : UInt32} (hMask : m.MaskFits)
    (hSlot : symbolsPerSlot.toNat < 2 ^ 8) (hAvail : symAvail.toNat < 2 ^ 8)
    (hBeams : (active.map Prod.fst).Nodup)
    (hUsers : (active.flatMap fun beam => beam.2.map Prod.fst).Nodup) (hCleared : ues.Cleared)
    (h : doScheduleDlData m.dlNewData symbolsPerSlot ids spoint symAvail active ues slotAlloc =
      some t) :
    ∃ l, DataLaid .dl active symAvail.toNat spoint ues slotAlloc t l := by
  rw [doScheduleDlData] at h
  split at h
  · cases h
  · next hRbg =>
    rw [not_ne_iff] at hRbg
    obtain ⟨⟨ues', symPerBeam⟩, hAssign, h⟩ := Option.bind_eq_some_iff.mp h
    obtain ⟨s, hLoop, hFinish⟩ := Option.bind_eq_some_iff.mp h
    have hTransports := @dlDirection_transports μ symbolsPerSlot ids
    cases m with
    | ofdma sch =>
      have hCopy := hAssign
      obtain ⟨l, hSplit, hCopy⟩ := Option.bind_eq_some_iff.mp hCopy
      obtain ⟨dl, -, hCopy⟩ := Option.bind_eq_some_iff.mp hCopy
      cases hCopy
      exact laid_of_shelves (sch.dlShelves ids hSlot) hTransports hAvail hRbg hAssign
        (sch.total_getSymPerBeam_le hAvail hBeams hSplit) hLoop hFinish
    | tdma sch =>
      have hCopy := hAssign
      obtain ⟨r, hRounds, hCopy⟩ := Option.bind_eq_some_iff.mp hCopy
      cases hCopy
      obtain ⟨rounds, hFew, hWon, hBound⟩ := TdmaCallbacks.assignRBGTDMA_rounds
        (sch.numOfAssignableRbgs_lt _ (hMask _ List.mem_cons_self)) hAvail hUsers
        (fun rnti => hCleared .dl rnti) hRounds
      exact laid_of_stacks (sch.dlStacks ids hSlot) hTransports hAvail hRbg hAssign hFew hWon hBound
        hLoop hFinish

/-- New UL data is laid in front of the starting point. -/
theorem doScheduleUlData_laid (hMask : m.MaskFits) (hAvail : symAvail.toNat < 2 ^ 8)
    (hBeams : (active.map Prod.fst).Nodup)
    (hUsers : (active.flatMap fun beam => beam.2.map Prod.fst).Nodup) (hCleared : ues.Cleared)
    (h : doScheduleUlData m.ulNewData ids spoint symAvail active ues slotAlloc = some t) :
    ∃ l, DataLaid .ul active symAvail.toNat spoint ues slotAlloc t l := by
  rw [doScheduleUlData] at h
  split at h
  · cases h
  · next hCall =>
    have hRbg : spoint.rbg = 0 := of_not_not fun hNe => hCall (Or.inr (Or.inr hNe))
    obtain ⟨⟨ues', symPerBeam⟩, hAssign, h⟩ := Option.bind_eq_some_iff.mp h
    dsimp only at h
    split at h
    · cases h
    · obtain ⟨s, hLoop, hFinish⟩ := Option.bind_eq_some_iff.mp h
      have hTransports := @ulDirection_transports μ ids
      cases m with
      | ofdma sch =>
        have hCopy := hAssign
        obtain ⟨l, hSplit, hCopy⟩ := Option.bind_eq_some_iff.mp hCopy
        obtain ⟨r, -, hCopy⟩ := Option.bind_eq_some_iff.mp hCopy
        cases hCopy
        exact laid_of_shelves (sch.ulShelves ids) hTransports hAvail hRbg hAssign
          (sch.total_getSymPerBeam_le hAvail hBeams hSplit) hLoop hFinish
      | tdma sch =>
        have hCopy := hAssign
        obtain ⟨r, hRounds, hCopy⟩ := Option.bind_eq_some_iff.mp hCopy
        cases hCopy
        obtain ⟨rounds, hFew, hWon, hBound⟩ := TdmaCallbacks.assignRBGTDMA_rounds
          (sch.numOfAssignableRbgs_lt _ (hMask _ (List.mem_cons_of_mem _ List.mem_cons_self)))
          hAvail hUsers (fun rnti => hCleared .ul rnti) hRounds
        exact laid_of_stacks (sch.ulStacks ids) hTransports hAvail hRbg hAssign hFew hWon hBound
          hLoop hFinish

end MacScheduler

end Bullet.Mac
