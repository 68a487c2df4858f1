import Bullet.Mac.OfdmaNewData
import Bullet.Mac.TdmaNewData

/-! # Beams without symbols

The OFDMA split leaves a beam without symbols when its rounded share is zero and the symbols that are
left run out before its turn; TDMA leaves one without when no round goes to one of its users.
-/

namespace Bullet.Mac

open Lib.Shares

variable {l : List (UInt16 × UInt32)} {beam : UInt16} {sym : UInt32}

theorem symbolsOf_of_mem {b : UInt16 × UInt32} (hNodup : (l.map Prod.fst).Nodup) (hMem : b ∈ l) :
    symbolsOf l b.1 = b.2 := by
  have hLookup : l.lookup b.1 = some b.2 := by
    induction l with
    | nil => cases hMem
    | cons a l ih =>
      obtain ⟨hNotIn, hTail⟩ := List.nodup_cons.mp hNodup
      rw [List.lookup_cons]
      rcases List.mem_cons.mp hMem with rfl | hIn
      · rw [beq_self_eq_true]
      · have hNe : b.1 ≠ a.1 := fun hEq => hNotIn (hEq ▸ List.mem_map_of_mem hIn)
        rw [beq_eq_false_iff_ne.mpr hNe]
        exact ih hTail hIn
  rw [symbolsOf, hLookup]
  rfl

/-! ## The split of OFDMA -/

def withoutSymbols (l : List (UInt16 × UInt32)) : List UInt16 :=
  (l.filter fun b => b.2 = 0).map Prod.fst

theorem withoutSymbols_cons_zero (b : UInt16 × UInt32) (h : b.2 = 0) :
    withoutSymbols (b :: l) = b.1 :: withoutSymbols l := by
  rw [withoutSymbols, List.filter_cons_of_pos (by simpa using h)]
  rfl

theorem withoutSymbols_cons_pos (b : UInt16 × UInt32) (h : b.2 ≠ 0) :
    withoutSymbols (b :: l) = withoutSymbols l := by
  rw [withoutSymbols, List.filter_cons_of_neg (by simpa using h)]
  rfl

theorem mem_withoutSymbols : beam ∈ withoutSymbols l ↔ (beam, 0) ∈ l := by
  simp [withoutSymbols]

theorem incFirst_keys (sym : UInt32) (l : List (UInt16 × UInt32)) :
    (incFirst sym l).map Prod.fst = l.map Prod.fst := by
  induction l with
  | nil => rfl
  | cons b l ih =>
    rw [incFirst]
    split
    · rfl
    · rw [List.map_cons, ih, List.map_cons]

/-- The first beam without symbols gets one. -/
theorem withoutSymbols_incFirst_zero (l : List (UInt16 × UInt32)) :
    withoutSymbols (incFirst 0 l) = (withoutSymbols l).tail := by
  induction l with
  | nil => rfl
  | cons b l ih =>
    rw [incFirst]
    split
    · next hZero =>
      have hOne : b.2 + 1 ≠ 0 := by
        rw [hZero]
        decide
      rw [withoutSymbols_cons_zero b hZero, withoutSymbols_cons_pos _ hOne, List.tail_cons]
    · next hPos => rw [withoutSymbols_cons_pos b hPos, withoutSymbols_cons_pos b hPos, ih]

theorem withoutSymbols_incFirst_pos (hPos : sym ≠ 0) (hNext : sym + 1 ≠ 0)
    (l : List (UInt16 × UInt32)) : withoutSymbols (incFirst sym l) = withoutSymbols l := by
  induction l with
  | nil => rfl
  | cons b l ih =>
    rw [incFirst]
    split
    · next hEq =>
      rw [withoutSymbols_cons_pos b (hEq ▸ hPos), withoutSymbols_cons_pos _ (hEq ▸ hNext)]
    · by_cases hZero : b.2 = 0
      · rw [withoutSymbols_cons_zero b hZero, withoutSymbols_cons_zero b hZero, ih]
      · rw [withoutSymbols_cons_pos b hZero, withoutSymbols_cons_pos b hZero, ih]

/-- The symbols of all beams. -/
def totalSymbols (l : List (UInt16 × UInt32)) : ℕ := total l fun b => b.2.toNat

theorem totalSymbols_incFirst (hMem : sym ∈ l.map Prod.snd) (hBound : sym.toNat + 1 < 2 ^ 32) :
    totalSymbols (incFirst sym l) = totalSymbols l + 1 := by
  induction l with
  | nil => cases hMem
  | cons b l ih =>
    rw [incFirst]
    split
    · next hEq =>
      have hInc : (b.2 + 1).toNat = b.2.toNat + 1 := by
        rw [UInt32.toNat_add, hEq]
        exact Nat.mod_eq_of_lt hBound
      rw [totalSymbols, totalSymbols, total_cons, total_cons, hInc]
      omega
    · next hNe =>
      have hRest := ih ((List.mem_cons.mp hMem).resolve_left fun hEq => hNe hEq.symm)
      rw [totalSymbols, totalSymbols] at hRest
      rw [totalSymbols, totalSymbols, total_cons, total_cons, hRest]
      omega

/-- One round of the redistribution. -/
theorem redistribute_succ (n : ℕ) (hNe : l ≠ []) :
    ∃ sym ∈ l.map Prod.snd, (∀ b ∈ l, sym ≤ b.2) ∧
      redistribute (n + 1) l = redistribute n (incFirst sym l) := by
  have hSome : (l.map Prod.snd).min? ≠ none := by
    intro hNone
    exact hNe (List.map_eq_nil_iff.mp (List.min?_eq_none_iff.mp hNone))
  obtain ⟨sym, hMin⟩ := Option.ne_none_iff_exists'.mp hSome
  obtain ⟨hMem, hLeast⟩ := List.min?_eq_some_iff.mp hMin
  refine ⟨sym, hMem, fun b hb => hLeast b.2 (List.mem_map_of_mem hb), ?_⟩
  rw [redistribute, hMin]
  rfl

theorem redistribute_nil (n : ℕ) : redistribute n [] = [] := by
  induction n with
  | zero => rfl
  | succ n ih => exact ih

theorem redistribute_keys (n : ℕ) (l : List (UInt16 × UInt32)) :
    (redistribute n l).map Prod.fst = l.map Prod.fst := by
  induction n generalizing l with
  | zero => rfl
  | succ n ih =>
    rcases eq_or_ne l [] with rfl | hNe
    · rw [redistribute_nil]
    · obtain ⟨sym, -, -, hRound⟩ := redistribute_succ n hNe
      rw [hRound, ih, incFirst_keys]

theorem totalSymbols_redistribute_le (n : ℕ) (l : List (UInt16 × UInt32))
    (hBound : totalSymbols l + n < 2 ^ 32) :
    totalSymbols (redistribute n l) ≤ totalSymbols l + n := by
  induction n generalizing l with
  | zero => exact Nat.le_refl _
  | succ n ih =>
    rcases eq_or_ne l [] with rfl | hNe
    · rw [redistribute_nil]
      exact Nat.le_add_right _ _
    · obtain ⟨sym, hMem, -, hRound⟩ := redistribute_succ n hNe
      obtain ⟨b, hb, rfl⟩ := List.mem_map.mp hMem
      have hShare : b.2.toNat ≤ totalSymbols l := le_total (fun b => b.2.toNat) hb
      have hTotal := totalSymbols_incFirst hMem (by omega)
      rw [hRound]
      have hRest := ih (incFirst b.2 l) (by omega)
      omega

/-- The symbols that are left go to the beams without symbols first, one each. -/
theorem withoutSymbols_redistribute (n : ℕ) (l : List (UInt16 × UInt32))
    (hBound : totalSymbols l + n < 2 ^ 32) :
    withoutSymbols (redistribute n l) = (withoutSymbols l).drop n := by
  induction n generalizing l with
  | zero => rfl
  | succ n ih =>
    rcases eq_or_ne l [] with rfl | hNe
    · rw [redistribute_nil]
      exact List.drop_nil.symm
    · obtain ⟨sym, hMem, hLeast, hRound⟩ := redistribute_succ n hNe
      obtain ⟨b, hb, rfl⟩ := List.mem_map.mp hMem
      have hShare : b.2.toNat ≤ totalSymbols l := le_total (fun b => b.2.toNat) hb
      have hTotal := totalSymbols_incFirst hMem (by omega)
      rw [hRound, ih _ (by omega)]
      by_cases hZero : b.2 = 0
      · rw [hZero, withoutSymbols_incFirst_zero, List.drop_tail]
      · have hNext : b.2 + 1 ≠ 0 := by
          intro hWrap
          have hValue := congrArg UInt32.toNat hWrap
          rw [UInt32.toNat_add] at hValue
          have hOne : (1 : UInt32).toNat = 1 := rfl
          have hNone : (0 : UInt32).toNat = 0 := rfl
          omega
        have hEmpty : withoutSymbols l = [] := by
          rw [List.eq_nil_iff_forall_not_mem]
          intro beam hBeam
          have hLe := hLeast _ (mem_withoutSymbols.mp hBeam)
          exact hZero (UInt32.le_antisymm hLe UInt32.zero_le)
        rw [withoutSymbols_incFirst_pos hZero hNext, hEmpty, List.drop_nil, List.drop_nil]

theorem symbolsOf_eq_zero_iff (hNodup : (l.map Prod.fst).Nodup) (hMem : beam ∈ l.map Prod.fst) :
    symbolsOf l beam = 0 ↔ beam ∈ withoutSymbols l := by
  induction l with
  | nil => cases hMem
  | cons b l ih =>
    obtain ⟨hNotIn, hTail⟩ := List.nodup_cons.mp hNodup
    rw [mem_withoutSymbols, List.mem_cons]
    by_cases hHead : beam = b.1
    · have hLookup : symbolsOf (b :: l) beam = b.2 := by
        rw [symbolsOf, List.lookup_cons, beq_iff_eq.mpr hHead]
        rfl
      rw [hLookup]
      constructor
      · intro hZero
        exact Or.inl (Prod.ext hHead hZero.symm)
      · rintro (hEq | hIn)
        · exact (congrArg Prod.snd hEq).symm
        · exact absurd (hHead ▸ List.mem_map_of_mem hIn) hNotIn
    · have hLookup : symbolsOf (b :: l) beam = symbolsOf l beam := by
        rw [symbolsOf, List.lookup_cons, beq_eq_false_iff_ne.mpr hHead]
        rfl
      rw [hLookup, ih hTail ((List.mem_cons.mp hMem).resolve_left hHead), mem_withoutSymbols]
      constructor
      · exact Or.inr
      · rintro (hEq | hIn)
        · exact absurd (congrArg Prod.fst hEq) hHead
        · exact hIn

namespace OfdmaNewData

variable {μ : Type} (sch : OfdmaNewData μ) {symAvail : UInt32} {active : ActiveUeMap}

/-- The rounded shares of the beams. -/
def shares (symAvail : UInt32) (active : ActiveUeMap) : List (UInt16 × UInt32) :=
  active.map fun beam => (beam.1, sch.symForBeam symAvail (bufSizeBeam beam.2) (bufTotal active))

/-- The symbols that the rounding leaves. -/
def leftover (symAvail : UInt32) (active : ActiveUeMap) : ℕ :=
  symAvail.toNat - totalSymbols (sch.shares symAvail active)

theorem totalSymbols_shares_le (symAvail : UInt32) (active : ActiveUeMap) :
    totalSymbols (sch.shares symAvail active) ≤ symAvail.toNat := by
  refine le_trans (le_of_eq ?_) (sch.symForBeam_le symAvail active)
  rw [totalSymbols, total, shares, List.map_map]
  rfl

/-- The counter of the source, while the symbols fit into 8 bits. -/
theorem symUsed_toNat (l : List (UInt16 × UInt32)) (used : UInt8)
    (h : used.toNat + totalSymbols l < 2 ^ 8) :
    (l.foldl (fun used beam => (used.toUInt32 + beam.2).toUInt8) used).toNat =
      used.toNat + totalSymbols l := by
  induction l generalizing used with
  | nil => rfl
  | cons b l ih =>
    have hTotal : totalSymbols (b :: l) = b.2.toNat + totalSymbols l := total_cons b l _
    have hSum : ((used.toUInt32 + b.2).toUInt8).toNat = used.toNat + b.2.toNat := by
      rw [UInt32.toNat_toUInt8, UInt32.toNat_add, UInt8.toNat_toUInt32]
      omega
    rw [List.foldl_cons, ih _ (by omega), hSum, hTotal]
    omega

theorem getSymPerBeam_eq (hAvail : symAvail.toNat < 2 ^ 8) :
    sch.getSymPerBeam symAvail active = some (redistribute (sch.leftover symAvail active)
      (sch.walkOrder (sch.shares symAvail active))) := by
  have hLe := sch.totalSymbols_shares_le symAvail active
  have hUsed := symUsed_toNat (sch.shares symAvail active) 0 (by
    rw [UInt8.toNat_zero]
    omega)
  rw [UInt8.toNat_zero, Nat.zero_add] at hUsed
  have hSymUsed : ((sch.shares symAvail active).foldl
      (fun used beam => (used.toUInt32 + beam.2).toUInt8) (0 : UInt8)).toUInt32.toNat =
        totalSymbols (sch.shares symAvail active) :=
    (UInt8.toNat_toUInt32 _).trans hUsed
  have hEnough : ¬ symAvail < ((sch.shares symAvail active).foldl
      (fun used beam => (used.toUInt32 + beam.2).toUInt8) (0 : UInt8)).toUInt32 := by
    rw [UInt32.lt_iff_toNat_lt, hSymUsed]
    omega
  have hLeft : (symAvail - ((sch.shares symAvail active).foldl
      (fun used beam => (used.toUInt32 + beam.2).toUInt8) (0 : UInt8)).toUInt32).toUInt8.toNat =
        sch.leftover symAvail active := by
    rw [UInt32.toNat_toUInt8, UInt32.toNat_sub_of_le _ _ (UInt32.not_lt.mp hEnough), hSymUsed, leftover]
    exact Nat.mod_eq_of_lt (by omega)
  rw [← hLeft]
  exact if_neg hEnough

/-- The beam gets a symbol: its share has one, or its turn comes while symbols are left. -/
def GetsSymbol (symAvail : UInt32) (active : ActiveUeMap) (beam : UInt16) : Prop :=
  beam ∉ (withoutSymbols (sch.walkOrder (sch.shares symAvail active))).drop
    (sch.leftover symAvail active)

instance (symAvail : UInt32) (active : ActiveUeMap) (beam : UInt16) :
    Decidable (sch.GetsSymbol symAvail active beam) :=
  inferInstanceAs (Decidable (_ ∉ _))

theorem symbolsOf_getSymPerBeam (hAvail : symAvail.toNat < 2 ^ 8)
    (hNodup : (active.map Prod.fst).Nodup) {l : List (UInt16 × UInt32)}
    (hSplit : sch.getSymPerBeam symAvail active = some l) {beam : UInt16}
    (hMem : beam ∈ active.map Prod.fst) :
    symbolsOf l beam ≠ 0 ↔ sch.GetsSymbol symAvail active beam := by
  rw [sch.getSymPerBeam_eq hAvail, Option.some_inj] at hSplit
  have hLe := sch.totalSymbols_shares_le symAvail active
  have hWalk := sch.walkOrder_perm (sch.shares symAvail active)
  have hTotal : totalSymbols (sch.walkOrder (sch.shares symAvail active)) =
      totalSymbols (sch.shares symAvail active) := total_perm _ hWalk
  have hShares : (sch.shares symAvail active).map Prod.fst = active.map Prod.fst := by
    rw [shares, List.map_map]
    rfl
  have hKeys : (l.map Prod.fst).Perm (active.map Prod.fst) := by
    rw [← hSplit, redistribute_keys, ← hShares]
    exact hWalk.map _
  have hLeftover : sch.leftover symAvail active ≤ symAvail.toNat := Nat.sub_le _ _
  rw [ne_eq, symbolsOf_eq_zero_iff (hKeys.nodup_iff.mpr hNodup) (hKeys.mem_iff.mpr hMem), ← hSplit,
    withoutSymbols_redistribute _ _ (by omega), GetsSymbol]

/-- No beam gets more symbols than there are. -/
theorem symbolsOf_getSymPerBeam_le (hAvail : symAvail.toNat < 2 ^ 8) {l : List (UInt16 × UInt32)}
    (hSplit : sch.getSymPerBeam symAvail active = some l) (beam : UInt16) :
    (symbolsOf l beam).toNat ≤ symAvail.toNat := by
  rw [sch.getSymPerBeam_eq hAvail, Option.some_inj] at hSplit
  have hLe := sch.totalSymbols_shares_le symAvail active
  have hTotal : totalSymbols (sch.walkOrder (sch.shares symAvail active)) =
      totalSymbols (sch.shares symAvail active) := total_perm _ (sch.walkOrder_perm _)
  have hLeftover : sch.leftover symAvail active =
      symAvail.toNat - totalSymbols (sch.shares symAvail active) := rfl
  have hAll : totalSymbols l ≤ symAvail.toNat := by
    rw [← hSplit]
    have hSum := totalSymbols_redistribute_le (sch.leftover symAvail active)
      (sch.walkOrder (sch.shares symAvail active)) (by omega)
    omega
  rw [symbolsOf]
  cases hLookup : l.lookup beam with
  | none => exact Nat.zero_le _
  | some sym =>
    have hMem : (beam, sym) ∈ l := by
      obtain ⟨before, after, rfl, -⟩ := List.lookup_eq_some_iff.mp hLookup
      exact List.mem_append_right _ List.mem_cons_self
    exact (le_total (fun b : UInt16 × UInt32 => b.2.toNat) hMem).trans hAll

end OfdmaNewData

/-! ## The rounds of TDMA -/

namespace TdmaCallbacks

variable {α : Type} (cb : TdmaCallbacks α) {rbgs : UInt32} {s : TdmaState α} {ues : UInt16 → α}

/-- The users that the rounds go to. -/
def winners (rbgs : UInt32) : ℕ → TdmaState α → List UInt16
  | 0, _ => []
  | n + 1, s =>
    let ueVector := cb.sort s.ues s.ueVector
    let r := cb.firstUncovered s.ues ueVector
    let s := { s with ues := r.1, ueVector := ueVector }
    match r.2 with
    | none => []
    | some ue => ue.1 :: winners rbgs n (cb.award rbgs ue.1 s)

theorem getRBG_updateUe {f : α → α} (hKeep : ∀ ue, cb.getRBG (f ue) = cb.getRBG ue)
    (ues : UInt16 → α) (rnti rnti' : UInt16) :
    cb.getRBG (updateUe f ues rnti rnti') = cb.getRBG (ues rnti') := by
  rw [updateUe]
  rcases eq_or_ne rnti' rnti with rfl | hNe
  · rw [Function.update_self, hKeep]
  · rw [Function.update_of_ne hNe]

theorem getRBG_foldl {f : α → α} (hKeep : ∀ ue, cb.getRBG (f ue) = cb.getRBG ue)
    (l : List UePtrAndBufferReq) (ues : UInt16 → α) (rnti : UInt16) :
    cb.getRBG (l.foldl (fun ues ue => updateUe f ues ue.1) ues rnti) = cb.getRBG (ues rnti) := by
  induction l generalizing ues with
  | nil => rfl
  | cons ue l ih => rw [List.foldl_cons, ih, cb.getRBG_updateUe hKeep]

theorem getRBG_firstUncovered (l : List UePtrAndBufferReq) (ues : UInt16 → α) (rnti : UInt16) :
    cb.getRBG ((cb.firstUncovered ues l).1 rnti) = cb.getRBG (ues rnti) := by
  induction l generalizing ues with
  | nil => rfl
  | cons ue l ih =>
    rw [firstUncovered]
    split
    · rw [ih, cb.getRBG_updateUe (cb.getRBG_trim ue.2)]
    · rfl

theorem getRBG_award (rbgs : UInt32) (rnti rnti' : UInt16) (s : TdmaState α) :
    cb.getRBG ((cb.award rbgs rnti s).ues rnti') =
      if rnti' = rnti then cb.getRBG (s.ues rnti') + rbgs else cb.getRBG (s.ues rnti') := by
  rw [award]
  dsimp only
  rw [cb.getRBG_foldl (cb.getRBG_unSuccess _ _), cb.getRBG_updateUe (cb.getRBG_success _ _), updateUe]
  split
  · next hEq => rw [hEq, Function.update_self, cb.getRBG_grant]
  · next hNe => rw [Function.update_of_ne hNe]

theorem length_winners (rbgs : UInt32) (n : ℕ) (s : TdmaState α) : (cb.winners rbgs n s).length ≤ n := by
  induction n generalizing s with
  | zero => exact Nat.le_refl 0
  | succ n ih =>
    rw [winners]
    split
    · exact Nat.zero_le _
    · exact Nat.succ_le_succ (ih _)

/-- Each round adds the RBGs of one symbol to its winner. -/
theorem getRBG_assignLoop (hRbgs : rbgs.toNat < 2 ^ 17) (rnti : UInt16) {n c : ℕ}
    {s : TdmaState α} (hStart : (cb.getRBG (s.ues rnti)).toNat = rbgs.toNat * c)
    (hBound : c + n < 2 ^ 15) :
    (cb.getRBG ((cb.assignLoop rbgs n s).ues rnti)).toNat =
      rbgs.toNat * (c + (cb.winners rbgs n s).count rnti) := by
  induction n generalizing s c with
  | zero => exact hStart
  | succ n ih =>
    have hKeep := cb.getRBG_firstUncovered (cb.sort s.ues s.ueVector) s.ues rnti
    rw [assignLoop, winners]
    cases hFound : (cb.firstUncovered s.ues (cb.sort s.ues s.ueVector)).2 with
    | none => exact (congrArg UInt32.toNat hKeep).trans hStart
    | some ue =>
      have hAward := cb.getRBG_award rbgs ue.1 rnti
        ⟨(cb.firstUncovered s.ues (cb.sort s.ues s.ueVector)).1, cb.sort s.ues s.ueVector, s.assigned⟩
      rw [hKeep] at hAward
      by_cases hWinner : rnti = ue.1
      · rw [if_pos hWinner] at hAward
        have hMul : rbgs.toNat * (c + 1) < 2 ^ 32 :=
          lt_of_lt_of_le (Nat.mul_lt_mul_of_lt_of_le hRbgs (by omega : c + 1 ≤ 2 ^ 15) (by decide))
            (by decide)
        have hGain := congrArg UInt32.toNat hAward
        rw [UInt32.toNat_add, hStart, ← Nat.mul_succ, Nat.mod_eq_of_lt hMul] at hGain
        dsimp only
        rw [ih hGain (by omega), hWinner, List.count_cons_self, Nat.add_assoc, Nat.add_comm 1]
      · rw [if_neg hWinner] at hAward
        have hSame := (congrArg UInt32.toNat hAward).trans hStart
        dsimp only
        rw [ih hSame (by omega), List.count_cons_of_ne (Ne.symm hWinner)]

theorem total_count_le {users : List UInt16} (hNodup : users.Nodup) (rounds : List UInt16) :
    total users (rounds.count ·) ≤ rounds.length := by
  induction rounds with
  | nil => exact le_of_eq (total_eq_zero fun _ _ => rfl)
  | cons winner rounds ih =>
    rw [List.length_cons]
    by_cases hMem : winner ∈ users
    · have hGain := total_of_gain (f := (rounds.count ·)) (g := ((winner :: rounds).count ·)) hNodup
        hMem List.count_cons_self fun _ hNe => List.count_cons_of_ne (Ne.symm hNe)
      omega
    · have hSame : total users ((winner :: rounds).count ·) = total users (rounds.count ·) := by
        refine total_congr fun user hUser => List.count_cons_of_ne ?_
        rintro rfl
        exact hMem hUser
      omega

/-- The symbols of a beam are the rounds that its users won. -/
theorem symOfBeam_toNat {rounds : List UInt16} {beam : List UePtrAndBufferReq}
    (hRbgs : rbgs ≠ 0) (hNodup : (beam.map Prod.fst).Nodup) (hBound : rounds.length < 2 ^ 32)
    (hWon : ∀ ue ∈ beam, (cb.getRBG (ues ue.1)).toNat = rbgs.toNat * rounds.count ue.1) :
    (cb.symOfBeam rbgs ues beam).toNat = total (beam.map Prod.fst) (rounds.count ·) := by
  have hPos : 0 < rbgs.toNat := by
    rw [Nat.pos_iff_ne_zero]
    exact fun hZero => hRbgs (UInt32.toNat_inj.mp hZero)
  have hFold : ∀ (start : UInt32) (l : List UePtrAndBufferReq),
      (∀ ue ∈ l, (cb.getRBG (ues ue.1)).toNat = rbgs.toNat * rounds.count ue.1) →
      start.toNat + total (l.map Prod.fst) (rounds.count ·) < 2 ^ 32 →
      (l.foldl (fun sym ue => sym + cb.getRBG (ues ue.1) / rbgs) start).toNat =
        start.toNat + total (l.map Prod.fst) (rounds.count ·) := by
    intro start l
    induction l generalizing start with
    | nil => exact fun _ _ => rfl
    | cons ue l ih =>
      intro hWon hLt
      obtain ⟨hHead, hTail⟩ := List.forall_mem_cons.mp hWon
      rw [List.map_cons, total_cons] at hLt
      have hQuotient : (cb.getRBG (ues ue.1) / rbgs).toNat = rounds.count ue.1 := by
        rw [UInt32.toNat_div, hHead, Nat.mul_div_cancel_left _ hPos]
      have hSum : (start + cb.getRBG (ues ue.1) / rbgs).toNat =
          start.toNat + rounds.count ue.1 := by
        rw [UInt32.toNat_add, hQuotient]
        exact Nat.mod_eq_of_lt (by omega)
      rw [List.foldl_cons, ih _ hTail (by omega), hSum, List.map_cons, total_cons, Nat.add_assoc]
  have hTotal := total_count_le hNodup rounds
  rw [symOfBeam, hFold 0 beam hWon (by rw [UInt32.toNat_zero]; omega), UInt32.toNat_zero,
    Nat.zero_add]

/-- The users before the first round. -/
def start (rbgs : UInt32) (activeUe : ActiveUeMap) (ues : UInt16 → α) : TdmaState α :=
  let ueVector := activeUe.flatMap Prod.snd
  ⟨ueVector.foldl (fun ues ue => updateUe (cb.beforeSched (ftResources rbgs 1)) ues ue.1) ues,
    ueVector, ftResources 0 0⟩

/-- The beam gets a symbol: a round goes to one of its users. -/
def GetsSymbol (rbgs symAvail : UInt32) (active : ActiveUeMap) (ues : UInt16 → α)
    (beam : List UePtrAndBufferReq) : Prop :=
  ∃ ue ∈ beam, ue.1 ∈ cb.winners rbgs symAvail.toNat (cb.start rbgs active ues)

theorem symbolsOf_map {f : UInt16 × List UePtrAndBufferReq → UInt32} {active : ActiveUeMap}
    (hNodup : (active.map Prod.fst).Nodup) {beam : UInt16 × List UePtrAndBufferReq}
    (hMem : beam ∈ active) : symbolsOf (active.map fun el => (el.1, f el)) beam.1 = f beam := by
  have hKeys : ((active.map fun el => (el.1, f el)).map Prod.fst).Nodup := by
    rw [List.map_map]
    exact hNodup
  exact symbolsOf_of_mem hKeys (List.mem_map_of_mem (f := fun el => (el.1, f el)) hMem)

theorem symbolsOf_assignRBGTDMA {symAvail : UInt32} {active : ActiveUeMap}
    {r : (UInt16 → α) × List (UInt16 × UInt32)} (hRbgs : rbgs.toNat < 2 ^ 17)
    (hAvail : symAvail.toNat < 2 ^ 8) (hBeams : (active.map Prod.fst).Nodup)
    (hUsers : ∀ beam ∈ active, (beam.2.map Prod.fst).Nodup)
    (hFresh : ∀ beam ∈ active, ∀ ue ∈ beam.2, cb.getRBG (ues ue.1) = 0)
    (h : cb.assignRBGTDMA rbgs symAvail active ues = some r)
    {beam : UInt16 × List UePtrAndBufferReq} (hMem : beam ∈ active) :
    symbolsOf r.2 beam.1 ≠ 0 ↔ cb.GetsSymbol rbgs symAvail active ues beam.2 := by
  rw [assignRBGTDMA] at h
  split at h
  · cases h
  · next hPos =>
    cases h
    have hRounds := cb.length_winners rbgs symAvail.toNat (cb.start rbgs active ues)
    have hWon : ∀ ue ∈ beam.2, (cb.getRBG ((cb.assignLoop rbgs symAvail.toNat
        (cb.start rbgs active ues)).ues ue.1)).toNat =
          rbgs.toNat * (cb.winners rbgs symAvail.toNat (cb.start rbgs active ues)).count ue.1 := by
      intro ue hUe
      have hZero : (cb.getRBG ((cb.start rbgs active ues).ues ue.1)).toNat = rbgs.toNat * 0 := by
        rw [start, cb.getRBG_foldl (cb.getRBG_before _), hFresh beam hMem ue hUe]
        rfl
      rw [cb.getRBG_assignLoop hRbgs ue.1 hZero (by omega), Nat.zero_add]
    have hSym := cb.symOfBeam_toNat hPos (hUsers beam hMem) (by omega) hWon
    rw [symbolsOf_map hBeams hMem, GetsSymbol]
    constructor
    · intro hSome
      by_contra hNone
      refine hSome (UInt32.toNat_inj.mp (hSym.trans (total_eq_zero fun rnti hIn => ?_)))
      obtain ⟨ue, hUe, rfl⟩ := List.mem_map.mp hIn
      exact List.count_eq_zero_of_not_mem fun hWinner => hNone ⟨ue, hUe, hWinner⟩
    · rintro ⟨ue, hUe, hWinner⟩ hZero
      have hLe := le_total ((cb.winners rbgs symAvail.toNat (cb.start rbgs active ues)).count ·)
        (List.mem_map_of_mem (f := Prod.fst) hUe)
      have hPositive := List.count_pos_iff.mpr hWinner
      have hNone : (cb.symOfBeam rbgs (cb.assignLoop rbgs symAvail.toNat
          (cb.start rbgs active ues)).ues beam.2).toNat = 0 := congrArg UInt32.toNat hZero
      omega

end TdmaCallbacks

end Bullet.Mac
