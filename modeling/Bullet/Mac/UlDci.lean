import Mathlib.Data.UInt
import Mathlib.Data.List.Forall2
import Bullet.Lib.Bitmask
import Bullet.Lib.Shares
import Bullet.Mac.UlAssign

/-! # UL grants of new data

`CreateUlDci` takes the next free RBGs behind the starting point for the RBGs that a user was
assigned.
-/

namespace Bullet.Mac

open Lib.Bitmask Lib.Shares

variable {μ : Type}

namespace OfdmaScheduler

variable (sch : OfdmaScheduler μ)

/-- The RBGs that may be used, as a mask of the whole bandwidth. -/
def ulRbgMask : List UInt8 :=
  if sch.ulNotchedRbgsMask.length = 0 then List.replicate sch.bandwidthInRbg.toNat 1
  else sch.ulNotchedRbgsMask

/-- The TBS of what the user was assigned. -/
def tbs (ue : UlUeInfo μ) : UInt32 := sch.calculateTbSize ue.ulMcs (ue.ulRBG * sch.numRbPerRbg)

def ulDci (spoint : PointInFTPlane) (rnti : UInt16) (ue : UlUeInfo μ) (maxSym : UInt32)
    (rbgBitmask : List UInt8) : DciInfoElementTdma where
  rnti := rnti
  format := .ul
  symStart := (spoint.sym.toUInt32 - maxSym).toUInt8
  numSym := maxSym.toUInt8
  mcs := [ue.ulMcs]
  tbSize := [sch.tbs ue]
  ndi := [1]
  rv := [0]
  type := .data
  bwpIndex := sch.bwpId.toUInt8
  tpc := 1
  rbgBitmask := rbgBitmask

/-- The DCI, if the TBS suffices for one, and the next starting point. -/
def createUlDci (spoint : PointInFTPlane) (rnti : UInt16) (ue : UlUeInfo μ) (maxSym : UInt32) :
    Option (Option DciInfoElementTdma × PointInFTPlane) :=
  if sch.tbs ue < 12 then some (none, spoint)
  else if sch.ulRbgMask.length ≠ sch.bandwidthInRbg.toNat then none
  else
    let r := takeOnes spoint.rbg.toNat 0 sch.ulRbgMask (ue.ulRBG / maxSym).toNat spoint.rbg.toNat
    if r.2.1 ≠ 0 ∨ spoint.sym.toUInt32 < maxSym ∨ r.1.count 0 = sch.bandwidthInRbg.toNat then none
    else
      some (some (sch.ulDci spoint rnti ue maxSym r.1),
        { spoint with rbg := UInt32.ofNat (r.2.2 + 1) })

/-- The grants of a beam: `CreateUlDci` for each of its users that has RBGs. -/
def createUlDcis (ues : UlUes μ) (maxSym : UInt32) :
    PointInFTPlane → List UePtrAndBufferReq → Option (List DciInfoElementTdma × PointInFTPlane)
  | spoint, [] => some ([], spoint)
  | spoint, ue :: l =>
    if (ues ue.1).ulRBG = 0 then createUlDcis ues maxSym spoint l
    else do
      let d ← sch.createUlDci spoint ue.1 (ues ue.1) maxSym
      let r ← createUlDcis ues maxSym d.2 l
      return (d.1.toList ++ r.1, r.2)

/-- The user is to get a DCI. -/
def Granted (ues : UlUes μ) (ue : UePtrAndBufferReq) : Prop :=
  (ues ue.1).ulRBG ≠ 0 ∧ 12 ≤ sch.tbs (ues ue.1)

instance (ues : UlUes μ) : DecidablePred (sch.Granted ues) :=
  fun _ => inferInstanceAs (Decidable (_ ∧ _))

/-- The DCI gives the user its RBGs, inside the bandwidth and the notching mask, on the symbols below
the starting point. -/
structure GrantsRbgs (ues : UlUes μ) (maxSym : UInt32) (spoint : PointInFTPlane)
    (ue : UePtrAndBufferReq) (dci : DciInfoElementTdma) : Prop where
  rnti : dci.rnti = ue.1
  numSym : dci.numSym.toNat = maxSym.toNat
  symStart : dci.symStart.toNat + maxSym.toNat = spoint.sym.toNat
  count : dci.rbgBitmask.count 1 = ((ues ue.1).ulRBG / maxSym).toNat
  bandwidth : dci.rbgBitmask.length = sch.bandwidthInRbg.toNat
  notched : ∀ i : ℕ, dci.rbgBitmask[i]? = some 1 → Usable sch.ulNotchedRbgsMask i

section Grants

variable {sch} {ues : UlUes μ} {maxSym : UInt32} {spoint : PointInFTPlane}

theorem usable_of_ulRbgMask {i : ℕ} (h : sch.ulRbgMask[i]? = some 1) :
    Usable sch.ulNotchedRbgsMask i :=
  usable_of_mask h

/-- A user whose RBGs are free from the starting point on gets them. -/
theorem createUlDci_spec (rnti : UInt16) {ue : UlUeInfo μ}
    (hMask : sch.ulRbgMask.length = sch.bandwidthInRbg.toNat)
    (hRoom : maxSym.toNat ≤ spoint.sym.toNat) (hTbs : 12 ≤ sch.tbs ue)
    (hPos : 0 < (ue.ulRBG / maxSym).toNat)
    (hFree : (ue.ulRBG / maxSym).toNat ≤ onesFrom spoint.rbg.toNat 0 sch.ulRbgMask) :
    ∃ mask q, sch.createUlDci spoint rnti ue maxSym =
        some (some (sch.ulDci spoint rnti ue maxSym mask), q) ∧
      q.sym = spoint.sym ∧ spoint.rbg.toNat ≤ q.rbg.toNat ∧
      onesFrom q.rbg.toNat 0 sch.ulRbgMask + (ue.ulRBG / maxSym).toNat =
        onesFrom spoint.rbg.toNat 0 sch.ulRbgMask ∧
      mask.length = sch.bandwidthInRbg.toNat ∧ mask.count 1 = (ue.ulRBG / maxSym).toNat ∧
      ∀ i : ℕ, mask[i]? = some 1 →
        sch.ulRbgMask[i]? = some 1 ∧ spoint.rbg.toNat ≤ i ∧ i < q.rbg.toNat := by
  have hTaken := taken spoint.rbg.toNat (show (1 : UInt8) ≠ 0 by decide) hPos hFree
  rw [createUlDci, if_neg (UInt32.not_lt.mpr hTbs), if_neg (not_not_intro hMask)]
  generalize takeOnes spoint.rbg.toNat 0 sch.ulRbgMask (ue.ulRBG / maxSym).toNat
    spoint.rbg.toNat = r at *
  have hBw : sch.bandwidthInRbg.toNat < 2 ^ 16 := sch.bandwidthInRbg.toNat_lt
  have hLast := hTaken.last_lt
  have hNext : (UInt32.ofNat (r.2.2 + 1)).toNat = r.2.2 + 1 := by
    rw [UInt32.toNat_ofNat']
    exact Nat.mod_eq_of_lt (by omega)
  refine ⟨r.1, { spoint with rbg := UInt32.ofNat (r.2.2 + 1) }, ?_, rfl, ?_, ?_,
    hTaken.length.trans hMask, hTaken.count, fun j hj => ?_⟩
  · refine if_neg ?_
    rintro (hMissing | hNoSym | hEmpty)
    · exact hMissing hTaken.missing
    · rw [UInt32.lt_iff_toNat_lt, UInt8.toNat_toUInt32] at hNoSym
      exact Nat.not_lt.mpr hRoom hNoSym
    · exact hTaken.count_zero_ne (hEmpty.trans hMask.symm)
  · rw [hNext]
    exact hTaken.start_le.trans (Nat.le_succ _)
  · rw [hNext]
    exact hTaken.behind
  · obtain ⟨hSet, hLow, hHigh⟩ := hTaken.kept j hj
    rw [hNext]
    exact ⟨hSet, hLow, Nat.lt_succ_of_le hHigh⟩

theorem ulDci_grantsRbgs {ue : UePtrAndBufferReq} {mask : List UInt8}
    (hRoom : maxSym.toNat ≤ spoint.sym.toNat)
    (hCount : mask.count 1 = ((ues ue.1).ulRBG / maxSym).toNat)
    (hLength : mask.length = sch.bandwidthInRbg.toNat)
    (hKept : ∀ i : ℕ, mask[i]? = some 1 → sch.ulRbgMask[i]? = some 1) :
    sch.GrantsRbgs ues maxSym spoint ue (sch.ulDci spoint ue.1 (ues ue.1) maxSym mask) where
  rnti := rfl
  numSym := by
    have hSym : spoint.sym.toNat < 2 ^ 8 := spoint.sym.toNat_lt
    exact (UInt32.toNat_toUInt8 maxSym).trans (Nat.mod_eq_of_lt (by omega))
  symStart := by
    have hSym : spoint.sym.toNat < 2 ^ 8 := spoint.sym.toNat_lt
    have hLe : maxSym ≤ spoint.sym.toUInt32 := by
      rw [UInt32.le_iff_toNat_le, UInt8.toNat_toUInt32]
      exact hRoom
    change (spoint.sym.toUInt32 - maxSym).toUInt8.toNat + maxSym.toNat = spoint.sym.toNat
    rw [UInt32.toNat_toUInt8, UInt32.toNat_sub_of_le _ _ hLe, UInt8.toNat_toUInt32]
    omega
  count := hCount
  bandwidth := hLength
  notched i hOne := usable_of_ulRbgMask (hKept i hOne)

theorem filter_granted_of_not {ue : UePtrAndBufferReq} (l : List UePtrAndBufferReq)
    (h : ¬ sch.Granted ues ue) :
    ((ue :: l).filter fun ue => sch.Granted ues ue) = l.filter fun ue => sch.Granted ues ue :=
  List.filter_cons_of_neg (mt of_decide_eq_true h)

/-- The users of a beam get their RBGs in turn as long as the free ones cover all of them. -/
theorem createUlDcis_spec {l : List UePtrAndBufferReq}
    (hMask : sch.ulRbgMask.length = sch.bandwidthInRbg.toNat)
    (hSym : 0 < maxSym.toNat) (hRoom : maxSym.toNat ≤ spoint.sym.toNat)
    (hMultiples : ∀ rnti ∈ l.map Prod.fst, maxSym.toNat ∣ (ues rnti).ulRBG.toNat)
    (hFree : total (l.map Prod.fst) (fun rnti => ((ues rnti).ulRBG / maxSym).toNat) ≤
      onesFrom spoint.rbg.toNat 0 sch.ulRbgMask) :
    ∃ dcis q, sch.createUlDcis ues maxSym spoint l = some (dcis, q) ∧
      List.Forall₂ (sch.GrantsRbgs ues maxSym spoint)
        (l.filter fun ue => sch.Granted ues ue) dcis ∧
      (dcis.Pairwise fun a b =>
        ∀ i : ℕ, ¬ (a.rbgBitmask[i]? = some 1 ∧ b.rbgBitmask[i]? = some 1)) ∧
      ∀ dci ∈ dcis, ∀ i : ℕ, dci.rbgBitmask[i]? = some 1 → spoint.rbg.toNat ≤ i := by
  induction l generalizing spoint with
  | nil => exact ⟨[], spoint, rfl, List.Forall₂.nil, List.Pairwise.nil, nofun⟩
  | cons ue l ih =>
    rw [List.map_cons, total_cons] at hFree
    have hTail : ∀ rnti ∈ l.map Prod.fst, maxSym.toNat ∣ (ues rnti).ulRBG.toNat :=
      fun rnti hMem => hMultiples rnti (List.mem_cons_of_mem _ hMem)
    rw [createUlDcis]
    rcases eq_or_ne (ues ue.1).ulRBG 0 with hNone | hSome
    · have hNot : ¬ sch.Granted ues ue := fun h => h.1 hNone
      rw [if_pos hNone, filter_granted_of_not l hNot]
      exact ih hRoom hTail (by omega)
    · rw [if_neg hSome]
      rcases Nat.lt_or_ge (sch.tbs (ues ue.1)).toNat 12 with hSmall | hTbs
      · have hLt : sch.tbs (ues ue.1) < 12 := hSmall
        have hCreate : sch.createUlDci spoint ue.1 (ues ue.1) maxSym = some (none, spoint) :=
          if_pos hLt
        have hNot : ¬ sch.Granted ues ue := fun h => UInt32.not_lt.mpr h.2 hLt
        rw [hCreate, filter_granted_of_not l hNot]
        obtain ⟨dcis, q, hRun, hRest⟩ := ih hRoom hTail (by omega)
        refine ⟨dcis, q, ?_, hRest⟩
        rw [Option.bind_eq_bind, Option.bind_some, hRun]
        rfl
      · have hTbs' : 12 ≤ sch.tbs (ues ue.1) := hTbs
        have hPos : 0 < ((ues ue.1).ulRBG / maxSym).toNat := by
          rw [UInt32.toNat_div]
          refine Nat.div_pos (Nat.le_of_dvd ?_ (hMultiples ue.1 List.mem_cons_self)) hSym
          exact Nat.pos_of_ne_zero fun hZero => hSome (UInt32.toNat_inj.mp hZero)
        obtain ⟨mask, p, hCreate, hPoint, hNext, hOnes, hLength, hCount, hKept⟩ :=
          createUlDci_spec ue.1 hMask hRoom hTbs' hPos (by omega)
        have hNextRoom : maxSym.toNat ≤ p.sym.toNat := by
          rw [hPoint]
          exact hRoom
        obtain ⟨dcis, q, hRun, hGrants, hApart, hBehind⟩ := ih hNextRoom hTail (by omega)
        have hGranted : sch.Granted ues ue := ⟨hSome, hTbs'⟩
        refine ⟨sch.ulDci spoint ue.1 (ues ue.1) maxSym mask :: dcis, q, ?_, ?_, ?_, ?_⟩
        · rw [hCreate, Option.bind_eq_bind, Option.bind_some, hRun]
          rfl
        · have hFilter : (ue :: l).filter (fun ue => sch.Granted ues ue) =
              ue :: l.filter fun ue => sch.Granted ues ue :=
            List.filter_cons_of_pos (decide_eq_true hGranted)
          rw [hFilter]
          refine List.Forall₂.cons ?_ (hGrants.imp fun a dci hGrant => ?_)
          · exact ulDci_grantsRbgs hRoom hCount hLength fun i hOne => (hKept i hOne).1
          · exact ⟨hGrant.rnti, hGrant.numSym, hPoint ▸ hGrant.symStart, hGrant.count,
              hGrant.bandwidth, hGrant.notched⟩
        · refine List.Pairwise.cons (fun dci hDci i => ?_) hApart
          rintro ⟨hHead, hOther⟩
          exact Nat.not_lt.mpr (hBehind dci hDci i hOther) (hKept i hHead).2.2
        · intro dci hDci i hOne
          rcases List.mem_cons.mp hDci with rfl | hDci
          · exact (hKept i hOne).2.1
          · exact hNext.trans (hBehind dci hDci i hOne)

end Grants

end OfdmaScheduler

end Bullet.Mac
