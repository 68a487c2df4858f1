import Bullet.Mac.UlDataDivisions

/-! # The split of the symbols between the beams

Each beam gets its proportional share, rounded down, and the symbols that are left go to the beams
with the fewest. The map of the active users may hold beams whose users have all been erased.
-/

namespace Bullet.Mac

open Lib.Shares UlScheduler

variable {l : List (UInt16 × UInt32)} {b : UInt16 × UInt32} {sym : UInt32}

/-! ## The symbols that are left -/

/-- No beam loses a symbol. -/
theorem le_incFirst (hBound : sym.toNat + 1 < 2 ^ 32) (hMem : b ∈ l) :
    ∃ v, (b.1, v) ∈ incFirst sym l ∧ b.2.toNat ≤ v.toNat := by
  induction l with
  | nil => cases hMem
  | cons a l ih =>
    rw [incFirst]
    split
    case isTrue hEq =>
      rcases List.mem_cons.mp hMem with rfl | hTail
      · refine ⟨b.2 + 1, List.mem_cons_self, ?_⟩
        rw [hEq, UInt32.toNat_add]
        have hOne : (1 : UInt32).toNat = 1 := rfl
        omega
      · exact ⟨b.2, List.mem_cons_of_mem _ hTail, Nat.le_refl _⟩
    case isFalse =>
      rcases List.mem_cons.mp hMem with rfl | hTail
      · exact ⟨b.2, List.mem_cons_self, Nat.le_refl _⟩
      · obtain ⟨v, hV, hLe⟩ := ih hTail
        exact ⟨v, List.mem_cons_of_mem a hV, hLe⟩

/-- The redistribution hands out all symbols, and takes none away. -/
theorem redistribute_spec (n : ℕ) (hNe : l ≠ []) (hBound : totalSymbols l + n < 2 ^ 32) :
    totalSymbols (redistribute n l) = totalSymbols l + n ∧
      ∀ b ∈ l, ∃ v, (b.1, v) ∈ redistribute n l ∧ b.2.toNat ≤ v.toNat := by
  induction n generalizing l with
  | zero => exact ⟨rfl, fun b hB => ⟨b.2, hB, Nat.le_refl _⟩⟩
  | succ n ih =>
    obtain ⟨sym, hMem, -, hRound⟩ := redistribute_succ n hNe
    obtain ⟨a, hA, rfl⟩ := List.mem_map.mp hMem
    have hShare : a.2.toNat ≤ totalSymbols l := le_total (fun b => b.2.toNat) hA
    have hTotal := totalSymbols_incFirst hMem (by omega)
    have hNe' : incFirst a.2 l ≠ [] := by
      intro hNil
      have hKeys := incFirst_keys a.2 l
      rw [hNil] at hKeys
      exact hNe (List.map_eq_nil_iff.mp hKeys.symm)
    obtain ⟨hAll, hKept⟩ := ih hNe' (by omega)
    rw [hRound]
    refine ⟨by omega, fun b hB => ?_⟩
    have hStep : a.2.toNat + 1 < 2 ^ 32 := by omega
    obtain ⟨v, hV, hLe⟩ := le_incFirst hStep hB
    obtain ⟨w, hW, hLe'⟩ := hKept (b.1, v) hV
    exact ⟨w, hW, hLe.trans hLe'⟩

/-! ## The split -/

/-- The bytes that the users of a beam ask for. -/
def requested (beam : List UePtrAndBufferReq) : ℕ := total beam fun ue => ue.2.toNat

/-- All symbols are handed out, each beam gets its proportional share at least, and a beam without
users gets none. -/
structure FairSplit (symAvail : UInt32) (active : ActiveUeMap) (l : List (UInt16 × UInt32)) :
    Prop where
  total : totalSymbols l = symAvail.toNat
  share : ∀ beam ∈ active,
    requested beam.2 * symAvail.toNat / bufTotal active ≤ (symbolsOf l beam.1).toNat
  empty : ∀ beam ∈ active, beam.2 = [] → symbolsOf l beam.1 = 0

/-- The sum of a beam in 32 bits is exact when it fits. -/
theorem bufSizeBeam_eq {beam : List UePtrAndBufferReq} (hFits : requested beam < 2 ^ 32) :
    (bufSizeBeam beam).toNat = requested beam := by
  have hFold : ∀ (l : List UePtrAndBufferReq) (start : UInt32),
      start.toNat + requested l < 2 ^ 32 →
      ((l.map Prod.snd).foldl (· + ·) start).toNat = start.toNat + requested l := by
    intro l
    induction l with
    | nil => exact fun start _ => rfl
    | cons ue l ih =>
      intro start hLt
      have hCons : requested (ue :: l) = ue.2.toNat + requested l := total_cons ue l _
      have hSum : (start + ue.2).toNat = start.toNat + ue.2.toNat := by
        rw [UInt32.toNat_add]
        omega
      rw [List.map_cons, List.foldl_cons, ih _ (by omega), hSum, hCons]
      omega
  exact (hFold beam 0 ((Nat.zero_add _).trans_lt hFits)).trans (Nat.zero_add _)

theorem requested_le_bufTotal {active : ActiveUeMap} {beam : UInt16 × List UePtrAndBufferReq}
    (hMem : beam ∈ active) : requested beam.2 ≤ bufTotal active := by
  induction active with
  | nil => cases hMem
  | cons a active ih =>
    have hSplit : bufTotal (a :: active) = requested a.2 + bufTotal active := by
      rw [bufTotal, List.flatMap_cons, total, List.map_append, List.sum_append]
      rfl
    rw [hSplit]
    rcases List.mem_cons.mp hMem with rfl | hTail
    · exact Nat.le_add_right _ _
    · exact (ih hTail).trans (Nat.le_add_left _ _)

theorem exactShare_toNat (symAvail : UInt32) {active : ActiveUeMap}
    {beam : UInt16 × List UePtrAndBufferReq} (hMem : beam ∈ active)
    (hFits : requested beam.2 < 2 ^ 32) :
    (exactShare symAvail (bufSizeBeam beam.2) (bufTotal active)).toNat =
      requested beam.2 * symAvail.toNat / bufTotal active := by
  have hLe : requested beam.2 * symAvail.toNat / bufTotal active ≤ symAvail.toNat :=
    Nat.div_le_of_le_mul (Nat.mul_le_mul_right _ (requested_le_bufTotal hMem))
  rw [exactShare, bufSizeBeam_eq hFits]
  exact UInt32.toNat_ofNat_of_lt' (hLe.trans_lt (UInt32.toNat_lt symAvail))

namespace OfdmaNewData

variable {μ : Type} (sch : OfdmaNewData μ) {symAvail : UInt32} {active : ActiveUeMap}

/-- `GetSymPerBeam` with its division: the sum of all requests may be zero. -/
def getSymPerBeamChecked (symAvail : UInt32) (active : ActiveUeMap) :
    Option (List (UInt16 × UInt32)) :=
  if bufTotal active = 0 then none else sch.getSymPerBeam symAvail active

/-- The symbols that are left do not reach the beam: enough beams whose share is below one symbol
come before it. -/
def Unreached (symAvail : UInt32) (active : ActiveUeMap) (beam : UInt16) : Prop :=
  beam ∈ (withoutSymbols (sch.walkOrder (sch.shares symAvail active))).drop
    (symAvail.toNat - total active fun beam =>
      requested beam.2 * symAvail.toNat / bufTotal active)

instance (symAvail : UInt32) (active : ActiveUeMap) (beam : UInt16) :
    Decidable (sch.Unreached symAvail active beam) :=
  inferInstanceAs (Decidable (_ ∈ _))

theorem leftover_eq (hExact : sch.symForBeam = exactShare)
    (hFits : ∀ beam ∈ active, requested beam.2 < 2 ^ 32) :
    sch.leftover symAvail active = symAvail.toNat - total active fun beam =>
      requested beam.2 * symAvail.toNat / bufTotal active := by
  have hTotal : totalSymbols (sch.shares symAvail active) = total active fun beam =>
      requested beam.2 * symAvail.toNat / bufTotal active := by
    rw [totalSymbols, total, shares, List.map_map]
    apply total_congr (l := active)
    intro beam hMem
    dsimp only [Function.comp_apply]
    rw [hExact]
    exact exactShare_toNat symAvail hMem (hFits beam hMem)
  rw [leftover, hTotal]

/-- Whatever the beams are, all symbols are handed out and no share is cut. -/
theorem getSymPerBeam_shares (hExact : sch.symForBeam = exactShare)
    (hAvail : symAvail.toNat < 2 ^ 8) (hMap : active ≠ [])
    (hNodup : (active.map Prod.fst).Nodup) (hFits : ∀ beam ∈ active, requested beam.2 < 2 ^ 32)
    (hSplit : sch.getSymPerBeam symAvail active = some l) :
    totalSymbols l = symAvail.toNat ∧ ∀ beam ∈ active,
      requested beam.2 * symAvail.toNat / bufTotal active ≤ (symbolsOf l beam.1).toNat := by
  rw [sch.getSymPerBeam_eq hAvail, Option.some_inj] at hSplit
  have hLe := sch.totalSymbols_shares_le symAvail active
  have hWalk := sch.walkOrder_perm (sch.shares symAvail active)
  have hTotal : totalSymbols (sch.walkOrder (sch.shares symAvail active)) =
      totalSymbols (sch.shares symAvail active) := total_perm _ hWalk
  have hLeftover : sch.leftover symAvail active =
      symAvail.toNat - totalSymbols (sch.shares symAvail active) := rfl
  have hNe : sch.walkOrder (sch.shares symAvail active) ≠ [] := by
    intro hNil
    rw [hNil] at hWalk
    exact hMap (List.map_eq_nil_iff.mp hWalk.nil_eq.symm)
  obtain ⟨hAll, hKept⟩ := redistribute_spec (sch.leftover symAvail active) hNe (by omega)
  rw [hSplit] at hAll hKept
  refine ⟨by omega, fun beam hMem => ?_⟩
  have hShares : (sch.shares symAvail active).map Prod.fst = active.map Prod.fst := by
    rw [shares, List.map_map]
    rfl
  have hKeys : (l.map Prod.fst).Perm (active.map Prod.fst) := by
    rw [← hSplit, redistribute_keys, ← hShares]
    exact hWalk.map _
  have hShare : (beam.1, sch.symForBeam symAvail (bufSizeBeam beam.2) (bufTotal active)) ∈
      sch.walkOrder (sch.shares symAvail active) :=
    hWalk.mem_iff.mpr (List.mem_map.mpr ⟨beam, hMem, rfl⟩)
  obtain ⟨v, hV, hGrows⟩ := hKept _ hShare
  have hValue := symbolsOf_of_mem (hKeys.nodup_iff.mpr hNodup) hV
  dsimp only at hValue hGrows
  rw [hExact, exactShare_toNat symAvail hMem (hFits beam hMem)] at hGrows
  rw [hValue]
  exact hGrows

/-- The split is as it should be exactly when a user is left, and the symbols that are left reach no
beam without users. -/
theorem getSymPerBeam_fair_iff (hExact : sch.symForBeam = exactShare) (symAvail : UInt8)
    (hMap : active ≠ []) (hNodup : (active.map Prod.fst).Nodup)
    (hFits : ∀ beam ∈ active, requested beam.2 < 2 ^ 32) :
    (∃ l, sch.getSymPerBeamChecked symAvail.toUInt32 active = some l ∧
        FairSplit symAvail.toUInt32 active l) ↔
      bufTotal active ≠ 0 ∧ ∀ beam ∈ active, beam.2 = [] →
        sch.Unreached symAvail.toUInt32 active beam.1 := by
  have hAvail : symAvail.toUInt32.toNat < 2 ^ 8 := by
    rw [UInt8.toNat_toUInt32]
    exact UInt8.toNat_lt symAvail
  have hSplit : sch.getSymPerBeam symAvail.toUInt32 active = some _ := sch.getSymPerBeam_eq hAvail
  obtain ⟨hTotal, hShare⟩ := sch.getSymPerBeam_shares hExact hAvail hMap hNodup hFits hSplit
  have hReached : ∀ beam ∈ active, symbolsOf (redistribute (sch.leftover symAvail.toUInt32 active)
      (sch.walkOrder (sch.shares symAvail.toUInt32 active))) beam.1 = 0 ↔
        sch.Unreached symAvail.toUInt32 active beam.1 := by
    intro beam hMem
    have hGets := sch.symbolsOf_getSymPerBeam hAvail hNodup hSplit (List.mem_map_of_mem hMem)
    rw [← not_iff_not, ← ne_eq, hGets, GetsSymbol, Unreached, sch.leftover_eq hExact hFits]
  rw [getSymPerBeamChecked]
  split
  case isTrue hZero =>
    constructor
    · rintro ⟨l, hNone, -⟩
      cases hNone
    · rintro ⟨hPos, -⟩
      exact absurd hZero hPos
  case isFalse hPos =>
    rw [hSplit]
    constructor
    · rintro ⟨l, hEq, hFair⟩
      cases hEq
      exact ⟨hPos, fun beam hMem hEmpty => (hReached beam hMem).mp (hFair.empty beam hMem hEmpty)⟩
    · rintro ⟨-, hEmpty⟩
      exact ⟨_, rfl, hTotal, hShare,
        fun beam hMem hNone => (hReached beam hMem).mpr (hEmpty beam hMem hNone)⟩

end OfdmaNewData

/-- Two beams with a user each, and one whose user has been erased. -/
def erasedBeam (first second : UInt32) : ActiveUeMap :=
  [(1, [(10, first)]), (2, [(20, second)]), (3, [])]

theorem getSymPerBeam_fair_erased :
    ∃ l, ofdmaRoundRobin.getSymPerBeamChecked (4 : UInt8).toUInt32 (erasedBeam 30 10) = some l ∧
      FairSplit (4 : UInt8).toUInt32 (erasedBeam 30 10) l :=
  (ofdmaRoundRobin.getSymPerBeam_fair_iff rfl 4 (by decide) (by decide) (by decide +kernel)).mpr
    (by decide +kernel)

/-- When the users of all beams are erased, the split divides by zero; and a symbol that the rounding
leaves goes to the beam whose user has been erased. -/
theorem erased_users_unfair :
    ofdmaRoundRobin.getSymPerBeamChecked 3 [(1, []), (2, [])] = none ∧
      ofdmaRoundRobin.getSymPerBeamChecked 3 (erasedBeam 10 10) = some [(1, 1), (2, 1), (3, 1)] ∧
      ¬ FairSplit 3 (erasedBeam 10 10) [(1, 1), (2, 1), (3, 1)] := by
  refine ⟨by decide +kernel, by decide +kernel, fun hFair => ?_⟩
  exact absurd (hFair.empty (3, []) (by simp [erasedBeam]) rfl) (by decide +kernel)

end Bullet.Mac
