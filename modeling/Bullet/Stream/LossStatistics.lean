import Mathlib.Data.Bool.Count
import Mathlib.Data.Nat.ModEq
import Mathlib.Tactic.Linarith
import Bullet.Lib.RunLength
import Bullet.Stream.FeedbackScan
import Bullet.Stream.ReceiveWindow

/-! # The losses of a window

A window of ids in serial number order has a reception pattern from its first to its last id. The
feedback counts the ids that are missing in it and records its run lengths; the count goes wrong
when ids are missing at the wrap, the run lengths when ids are missing right before the last one.
-/

namespace Bullet.Stream

open Lib Lib.SerialNumber Lib.RunLength

variable {first prev id : UInt16} {ids : List UInt16} {n : ℕ}

/-- The ids stand in serial number order. -/
def InIdOrder (ids : List UInt16) : Prop := ids.Pairwise fun a b => lessThanSimple a b = true

instance (ids : List UInt16) : Decidable (InIdOrder ids) :=
  inferInstanceAs (Decidable (ids.Pairwise _))

/-- Of each id from the first to the last one, whether it was received. -/
def receptionPattern : List UInt16 → List Bool
  | [] => []
  | first :: rest =>
    let last := (first :: rest).getLast (List.cons_ne_nil first rest)
    (List.range (idGap first last + 1)).map fun k =>
      decide (first + UInt16.ofNat k ∈ first :: rest)

/-- The ids between the first and the last one that were not received. -/
def lostIds (ids : List UInt16) : ℕ := (receptionPattern ids).count false

/-- The ids from the first to the last one. -/
def spannedIds (ids : List UInt16) : ℕ := (receptionPattern ids).length

/-- Neighbouring ids between which the ids wrap follow each other. -/
def NoLossAtWrap (ids : List UInt16) : Prop := ids.IsChain fun a b => a < b ∨ b = a + 1

instance (ids : List UInt16) : Decidable (NoLossAtWrap ids) :=
  inferInstanceAs (Decidable (ids.IsChain _))

/-- The last id follows the one before it. -/
def EndsInRun (ids : List UInt16) : Prop := ∀ a b, [a, b] <:+ ids → b = a + 1

/-! ## Offsets from the first id -/

def offsets (first : UInt16) (ids : List UInt16) : List ℕ := ids.map (idGap first)

/-- The ids come after `prev` in an order that begins at `first`. -/
structure Follows (first prev : UInt16) (ids : List UInt16) : Prop where
  half : ∀ id ∈ prev :: ids, InHalf first.toBitVec id.toBitVec
  sorted : InIdOrder (prev :: ids)

theorem Follows.of_inIdOrder (hSorted : InIdOrder (first :: ids)) : Follows first first ids := by
  refine ⟨fun id hMem => ?_, hSorted⟩
  obtain rfl | hMem := List.mem_cons.mp hMem
  · exact inHalf_self _
  · exact InHalf.of_before (lessThanSimple_iff.mp ((List.pairwise_cons.mp hSorted).1 id hMem))

theorem Follows.tail (h : Follows first prev (id :: ids)) : Follows first id ids :=
  ⟨fun b hMem => h.half b (List.mem_cons_of_mem prev hMem), (List.pairwise_cons.mp h.sorted).2⟩

theorem Follows.offset_lt (h : Follows first prev ids) (hMem : id ∈ ids) :
    idGap first prev < idGap first id := by
  have hLess := lessThanSimple_iff.mp ((List.pairwise_cons.mp h.sorted).1 id hMem)
  exact ((h.half prev List.mem_cons_self).before_iff (h.half id (List.mem_cons_of_mem prev hMem))).mp
    hLess

theorem Follows.idGap_eq (h : Follows first prev ids) (hMem : id ∈ ids) :
    idGap prev id = idGap first id - idGap first prev :=
  ahead_of_le (h.offset_lt hMem).le

theorem Follows.offsets_start (h : Follows first prev ids) :
    ∀ m ∈ offsets first ids, idGap first prev < m := by
  intro m hMem
  obtain ⟨id, hId, rfl⟩ := List.mem_map.mp hMem
  exact h.offset_lt hId

theorem Follows.offsets_sorted (h : Follows first prev ids) :
    (offsets first ids).Pairwise (· < ·) := by
  induction ids generalizing prev with
  | nil => exact List.Pairwise.nil
  | cons id ids ih => exact List.pairwise_cons.mpr ⟨h.tail.offsets_start, ih h.tail⟩

theorem idGap_self (id : UInt16) : idGap id id = 0 := ahead_self _

theorem add_ofNat_eq_iff {k : ℕ} (hLt : k < 65536) :
    first + UInt16.ofNat k = id ↔ k = idGap first id := by
  have hFirst := first.toNat_lt
  have hId := id.toNat_lt
  rw [← UInt16.toNat_inj, UInt16.toNat_add, UInt16.toNat_ofNat', idGap_eq]
  omega

theorem receptionPattern_eq (hSorted : InIdOrder (first :: ids)) :
    receptionPattern (first :: ids) = pattern 0 (offsets first (first :: ids)) := by
  have hFollows := Follows.of_inIdOrder hSorted
  have hOffsets : (offsets first (first :: ids)).Pairwise (· < ·) :=
    List.pairwise_cons.mpr ⟨fun m hMem => hFollows.offsets_start m hMem, hFollows.offsets_sorted⟩
  have hLastMem := List.getLast_mem (List.cons_ne_nil first ids)
  rw [receptionPattern, pattern_eq_map (fun m _ => Nat.zero_le m) hOffsets
    (List.mem_map_of_mem hLastMem)]
  · rw [List.range_eq_range', Nat.sub_zero]
    apply List.map_congr_left
    intro k hK
    have hLt := (List.mem_range'_1.mp hK).2
    have hSpan := idGap_lt first ((first :: ids).getLast (List.cons_ne_nil first ids))
    rw [decide_eq_decide, offsets, List.mem_map]
    constructor
    · intro hMem
      exact ⟨_, hMem, ((add_ofNat_eq_iff (by omega)).mp rfl).symm⟩
    · rintro ⟨id, hMem, hEq⟩
      rwa [(add_ofNat_eq_iff (by omega)).mpr hEq.symm]
  · intro m hMem
    obtain ⟨id, hId, rfl⟩ := List.mem_map.mp hMem
    have hLe := (List.pairwise_map.mp hOffsets).imp fun hLess => hLess.le
    exact hLe.rel_getLast_of_rel_getLast_getLast hId le_rfl

/-! ## The losses counted -/

/-- The ids missing behind an id. -/
def lostFrom : UInt16 → List UInt16 → ℕ
  | _, [] => 0
  | prev, id :: ids => idGap prev id - 1 + lostFrom id ids

/-- The gaps at a wrap. -/
def wrapsFrom : UInt16 → List UInt16 → ℕ
  | _, [] => 0
  | prev, id :: ids => (if prev < id ∨ id = prev + 1 then 0 else 1) + wrapsFrom id ids

theorem idGap_eq_one_iff : idGap prev id = 1 ↔ id = prev + 1 := by
  have hAdd : prev + 1 = id ↔ 1 = idGap prev id := add_ofNat_eq_iff (k := 1) (by omega)
  exact ⟨fun hGap => (hAdd.mpr hGap.symm).symm, fun hNext => (hAdd.mp hNext.symm).symm⟩

/-- The subtraction without the modulus is off at a wrap. -/
theorem sub_sub_one_toNat (hNe : prev ≠ id) : (id.toUInt32 - prev.toUInt32 - 1).toNat =
    idGap prev id - 1 + 65536 * (65535 * if prev < id then 0 else 1) := by
  have hPrev := prev.toNat_lt
  have hId := id.toNat_lt
  have hNat : prev.toNat ≠ id.toNat := fun hEq => hNe (UInt16.toNat_inj.mp hEq)
  rw [UInt32.toNat_sub, UInt32.toNat_sub, UInt16.toNat_toUInt32, UInt16.toNat_toUInt32, idGap_eq]
  change (2 ^ 32 - 1 + (2 ^ 32 - prev.toNat + id.toNat) % 2 ^ 32) % 2 ^ 32 = _
  split
  · next hLess =>
    have hLt : prev.toNat < id.toNat := UInt16.lt_iff_toNat_lt.mp hLess
    omega
  · next hWrap =>
    have hLe : id.toNat ≤ prev.toNat := UInt16.le_iff_toNat_le.mp (UInt16.not_lt.mp hWrap)
    omega

theorem lossesFrom_toNat (hFollows : Follows first prev ids) :
    (FeedbackScan.lossesFrom prev ids).toNat =
      (lostFrom prev ids + 65536 * (65535 * wrapsFrom prev ids)) % (65536 * 65536) := by
  induction ids generalizing prev with
  | nil => simp [FeedbackScan.lossesFrom, lostFrom, wrapsFrom]
  | cons id ids ih =>
    have hNe : prev ≠ id := by
      rintro rfl
      exact Nat.lt_irrefl _ (hFollows.offset_lt List.mem_cons_self)
    rw [FeedbackScan.lossesFrom, lostFrom, wrapsFrom, UInt32.toNat_add, ih hFollows.tail]
    split
    · next hOne =>
      rw [if_pos (Or.inr (idGap_eq_one_iff.mp hOne)), hOne]
      change (0 + _) % _ = _
      omega
    · next hGap =>
      have hNot : id ≠ prev + 1 := fun hEq => hGap (idGap_eq_one_iff.mpr hEq)
      rw [sub_sub_one_toNat hNe]
      simp only [hNot, or_false]
      split <;> omega

theorem wrapsFrom_eq_zero : wrapsFrom prev ids = 0 ↔ NoLossAtWrap (prev :: ids) := by
  induction ids generalizing prev with
  | nil => exact iff_of_true rfl (List.isChain_singleton prev)
  | cons id ids ih =>
    rw [wrapsFrom, Nat.add_eq_zero_iff, ih, NoLossAtWrap, NoLossAtWrap, List.isChain_cons_cons,
      ite_eq_left_iff]
    exact and_congr_left fun _ => ⟨fun h => by by_contra hNot; exact absurd (h hNot) one_ne_zero,
      fun h hNot => absurd h hNot⟩

theorem wrapsFrom_le (prev : UInt16) (ids : List UInt16) : wrapsFrom prev ids ≤ ids.length := by
  induction ids generalizing prev with
  | nil => exact le_rfl
  | cons id ids ih =>
    have hRest := ih id
    rw [wrapsFrom, List.length_cons]
    split <;> omega

theorem count_pattern_false (hFollows : Follows first prev ids) :
    (pattern (idGap first prev + 1) (offsets first ids)).count false = lostFrom prev ids := by
  induction ids generalizing prev with
  | nil => rfl
  | cons id ids ih =>
    have hGap := hFollows.idGap_eq List.mem_cons_self
    change (pattern _ (idGap first id :: offsets first ids)).count false = _
    rw [pattern, lostFrom, List.count_append, List.count_replicate_self,
      List.count_cons_of_ne (by decide), ih hFollows.tail, hGap, Nat.sub_add_eq]

theorem lostIds_eq (hSorted : InIdOrder (first :: ids)) :
    lostIds (first :: ids) = lostFrom first ids := by
  have hFollows := Follows.of_inIdOrder hSorted
  have hCount := count_pattern_false hFollows
  rw [lostIds, receptionPattern_eq hSorted]
  change (pattern 0 (idGap first first :: offsets first ids)).count false = _
  rw [pattern, idGap_self, List.count_append, Nat.sub_self, List.replicate_zero, List.count_nil,
    List.count_cons_of_ne (by decide), Nat.zero_add, ← hCount, idGap_self]

theorem length_add_lostIds (hSorted : InIdOrder (first :: ids)) :
    (first :: ids).length + lostIds (first :: ids) = spannedIds (first :: ids) := by
  have hReceived := count_pattern_true 0 (offsets first (first :: ids))
  rw [← receptionPattern_eq hSorted, offsets, List.length_map] at hReceived
  rw [lostIds, spannedIds, ← hReceived, Nat.add_comm, List.count_false_add_count_true]

theorem spannedIds_le (first : UInt16) (ids : List UInt16) : spannedIds (first :: ids) ≤ 65536 := by
  have hSpan := idGap_lt first ((first :: ids).getLast (List.cons_ne_nil first ids))
  rw [spannedIds, receptionPattern, List.length_map, List.length_range]
  omega

theorem eq_zero_of_turns {lost wraps : ℕ} (hShort : wraps < 65536) (hLost : lost < 65536 * 65536)
    (hEq : (lost + 65536 * (65535 * wraps)) % (65536 * 65536) = lost) : wraps = 0 := by
  have hSame : lost + 65536 * (65535 * wraps) ≡ lost + 0 [MOD 65536 * 65536] :=
    hEq.trans (Nat.mod_eq_of_lt hLost).symm
  have hTurns := Nat.modEq_zero_iff_dvd.mp (Nat.ModEq.add_left_cancel' lost hSame)
  have hFactor : 65536 ∣ 65535 * wraps := Nat.dvd_of_mul_dvd_mul_left (by decide) hTurns
  have hCoprime : Nat.Coprime 65536 65535 := by decide
  exact Nat.eq_zero_of_dvd_of_lt (hCoprime.dvd_of_dvd_mul_left hFactor) hShort

theorem lossesFrom_eq_iff (hSorted : InIdOrder (first :: ids)) :
    (FeedbackScan.lossesFrom first ids).toNat = lostIds (first :: ids) ↔
      NoLossAtWrap (first :: ids) := by
  have hLength := length_add_lostIds hSorted
  have hSpan := spannedIds_le first ids
  have hWraps := wrapsFrom_le first ids
  rw [lossesFrom_toNat (Follows.of_inIdOrder hSorted), lostIds_eq hSorted, ← wrapsFrom_eq_zero]
  rw [lostIds_eq hSorted, List.length_cons] at hLength
  constructor
  · exact eq_zero_of_turns (by omega) (by omega)
  · intro hNone
    rw [hNone, Nat.mul_zero, Nat.add_zero, Nat.mod_eq_of_lt (by omega)]

/-! ## The feedback -/

theorem inIdOrder_recordIds {record : List RecordedPkt} :
    InIdOrder (recordIds record) ↔ record.Pairwise IdOrder :=
  List.pairwise_map

theorem spannedIds_eq (first : UInt16) (ids : List UInt16) :
    spannedIds (first :: ids) =
      idGap first ((first :: ids).getLast (List.cons_ne_nil first ids)) + 1 := by
  rw [spannedIds, receptionPattern, List.length_map, List.length_range]

/-- The span counted for two ids, the second not right before the first. -/
theorem countSpan_toNat (hGap : idGap first id < 65535) :
    ((id.toUInt32 - first.toUInt32 + 65537) % 65536).toUInt16.toNat = idGap first id + 1 := by
  have hFirst := first.toNat_lt
  have hId := id.toNat_lt
  rw [idGap_eq] at hGap ⊢
  rw [UInt32.toNat_toUInt16, UInt32.toNat_mod, UInt32.toNat_add, UInt32.toNat_sub,
    UInt16.toNat_toUInt32, UInt16.toNat_toUInt32]
  change ((2 ^ 32 - first.toNat + id.toNat) % 2 ^ 32 + 65537) % 2 ^ 32 % 65536 % 2 ^ 16 = _
  omega

theorem countPkts_toNat {front q : RecordedPkt} {rest : List RecordedPkt}
    (hSorted : InIdOrder (recordIds (front :: q :: rest))) :
    (NetRecord.countPkts (front :: q :: rest)).toNat =
      spannedIds (recordIds (front :: q :: rest)) := by
  have hLast : (recordIds (front :: q :: rest)).getLast (List.cons_ne_nil _ _) =
      ((q :: rest).getLast (List.cons_ne_nil q rest)).pktId := List.getLast_map _
  have hMem : ((q :: rest).getLast (List.cons_ne_nil q rest)).pktId ∈ recordIds (q :: rest) :=
    List.mem_map_of_mem (List.getLast_mem _)
  have hHalf := (Follows.of_inIdOrder hSorted).half _ (List.mem_cons_of_mem _ hMem)
  have hGap : 2 * idGap front.pktId ((q :: rest).getLast (List.cons_ne_nil q rest)).pktId < 65536 :=
    hHalf
  change _ = spannedIds (front.pktId :: recordIds (q :: rest))
  rw [spannedIds_eq]
  change _ = idGap front.pktId ((recordIds (front :: q :: rest)).getLast _) + 1
  rw [hLast]
  exact countSpan_toNat (by omega)

/-- What a feedback of an ordered window computes. -/
theorem feedbackNetState_eq (r : NetRecord) (delay : Time) {p : RecordedPkt}
    {rest : List RecordedPkt} (hRecord : r.record = p :: rest)
    (hSorted : InIdOrder (recordIds (p :: rest))) :
    ∃ netstate r', r.feedbackNetState delay = some (netstate, r') ∧
      r'.lossesInWnd = FeedbackScan.lossesFrom p.pktId (recordIds rest) ∧
      netstate.lossRate =
        (if 1 ≤ NetRecord.countPkts r.record then
          (r'.lossesInWnd.toNat / (NetRecord.countPkts r.record).toNat : ℚ) else r.lossRate) ∧
      netstate.lossSeq = (if rest.isEmpty then [1] else []) ++
        FeedbackScan.runsFrom 1 p.pktId (recordIds rest) := by
  obtain ⟨t, hScan, hSeq, hLosses⟩ :=
    FeedbackScan.scan_reads r.lastFeedback p rest hSorted.isChain
  rw [← hRecord] at hScan
  rw [NetRecord.feedbackNetState, hScan]
  exact ⟨_, _, rfl, hLosses, rfl, hSeq⟩

/-- The losses counted and the loss rate reported are those of the window. -/
structure LossesRight (ids : List UInt16) (lossesInWnd : UInt32) (lossRate : ℚ) : Prop where
  losses : lossesInWnd.toNat = lostIds ids
  rate : lossRate = lostIds ids / spannedIds ids
  rate_mem : 0 ≤ lossRate ∧ lossRate ≤ 1

theorem lossesRight_iff (hSorted : InIdOrder (first :: ids)) {losses : UInt32} {rate : ℚ} :
    LossesRight (first :: ids) losses rate ↔ losses.toNat = lostIds (first :: ids) ∧
      rate = lostIds (first :: ids) / spannedIds (first :: ids) := by
  constructor
  · intro hRight
    exact ⟨hRight.losses, hRight.rate⟩
  · rintro ⟨hLosses, hRate⟩
    have hLength := length_add_lostIds hSorted
    refine ⟨hLosses, hRate, ?_, ?_⟩
    · rw [hRate]
      positivity
    · rw [hRate]
      apply div_le_one_of_le₀
      · exact_mod_cast (by omega : lostIds (first :: ids) ≤ spannedIds (first :: ids))
      · positivity

/-- The losses and the loss rate are right for the windows without a loss at the wrap, but for a
single packet after a loss rate that is not zero. -/
theorem feedback_losses_iff (r : NetRecord) (delay : Time) (hSome : r.record ≠ [])
    (hSorted : r.record.Pairwise IdOrder) :
    ∃ netstate r', r.feedbackNetState delay = some (netstate, r') ∧
      (LossesRight (recordIds r.record) r'.lossesInWnd netstate.lossRate ↔
        NoLossAtWrap (recordIds r.record) ∧ (2 ≤ r.record.length ∨ r.lossRate = 0)) := by
  obtain ⟨p, rest, hRecord⟩ := List.exists_cons_of_ne_nil hSome
  rw [hRecord, ← inIdOrder_recordIds] at hSorted
  obtain ⟨netstate, r', hFeedback, hLosses, hRate, -⟩ := feedbackNetState_eq r delay hRecord hSorted
  rw [recordIds_cons] at hSorted
  have hRight := lossesFrom_eq_iff hSorted
  refine ⟨netstate, r', hFeedback, ?_⟩
  rw [hRecord] at hRate ⊢
  rw [recordIds_cons, lossesRight_iff hSorted, hLosses, ← hRight, hRate]
  refine and_congr_right fun hCount => ?_
  cases rest with
  | nil =>
    have hNone : lostIds (p.pktId :: recordIds []) = 0 := lostIds_eq hSorted
    have hPkts : ¬ (1 : UInt16) ≤ 0 := by decide
    have hShort : ¬ 2 ≤ [p].length := Nat.lt_irrefl 1
    change (if (1 : UInt16) ≤ 0 then _ else _) = _ ↔ _
    rw [if_neg hPkts, hNone, Nat.cast_zero, zero_div, or_iff_right hShort]
  | cons q rest =>
    have hPkts := countPkts_toNat hSorted
    have hLength := length_add_lostIds hSorted
    have hSome : 1 ≤ NetRecord.countPkts (p :: q :: rest) := by
      rw [UInt16.le_iff_toNat_le, hPkts, recordIds_cons, ← hLength, List.length_cons]
      exact Nat.le_add_right_of_le (Nat.le_add_left 1 _)
    rw [if_pos hSome, hLosses, hCount, hPkts, recordIds_cons]
    exact iff_of_true rfl (Or.inl (Nat.le_add_left 2 _))

/-- Three packets of which the last follows the wrap, with four losses before it. -/
def lossBeforeWrap : NetRecord :=
  { NetRecord.create 34000 with record := [⟨65530, 0, 100⟩, ⟨65535, 10, 100⟩, ⟨0, 20, 100⟩] }

theorem feedback_losses_lossBeforeWrap :
    ∃ netstate r', lossBeforeWrap.feedbackNetState 0 = some (netstate, r') ∧
      (LossesRight (recordIds lossBeforeWrap.record) r'.lossesInWnd netstate.lossRate ↔
        NoLossAtWrap (recordIds lossBeforeWrap.record) ∧
          (2 ≤ lossBeforeWrap.record.length ∨ lossBeforeWrap.lossRate = 0)) :=
  feedback_losses_iff lossBeforeWrap 0 (by decide) (by decide)

/-- One id is lost, and it is the first one after the wrap. -/
def lossAtWrap : NetRecord :=
  { NetRecord.create 34000 with record := [⟨65535, 0, 100⟩, ⟨1, 10, 100⟩] }

theorem loss_at_wrap_miscounted :
    lossAtWrap.record.Pairwise IdOrder ∧ lostIds (recordIds lossAtWrap.record) = 1 ∧
      ∃ netstate r', lossAtWrap.feedbackNetState 0 = some (netstate, r') ∧
        r'.lossesInWnd = 4294901761 ∧
        ¬ LossesRight (recordIds lossAtWrap.record) r'.lossesInWnd netstate.lossRate :=
  ⟨by decide, by decide, _, _, rfl, by decide, fun hRight => absurd hRight.losses (by decide)⟩

/-! ## The run lengths -/

/-- The run of the last id, when it is left out. -/
def finalRun : UInt16 → List UInt16 → List ℤ
  | _, [] => []
  | prev, [id] => if idGap prev id = 1 then [] else [1]
  | _, id :: next :: ids => finalRun id (next :: ids)

/-- With the final run, the entries pushed encode the reception. -/
theorem runsFrom_append_finalRun (hFollows : Follows first prev ids) (hSome : ids ≠ []) :
    FeedbackScan.runsFrom n prev ids ++ finalRun prev ids =
      encode n (idGap first prev) (offsets first ids) := by
  induction ids generalizing prev n with
  | nil => exact absurd rfl hSome
  | cons id ids ih =>
    have hLess := hFollows.offset_lt List.mem_cons_self
    have hGap := hFollows.idGap_eq List.mem_cons_self
    have hNext : idGap prev id = 1 ↔ idGap first id = idGap first prev + 1 := by omega
    have hEntry : (1 - idGap prev id : ℤ) = idGap first prev + 1 - idGap first id := by omega
    rw [FeedbackScan.runsFrom, offsets, List.map_cons, encode, ← offsets, hEntry]
    cases ids with
    | nil =>
      rw [finalRun]
      split
      · next hOne =>
        rw [if_pos (hNext.mp hOne)]
        rfl
      · next hFar =>
        rw [if_neg fun hEq => hFar (hNext.mpr hEq)]
        rfl
    | cons next ids =>
      rw [finalRun]
      split
      · next hOne =>
        rw [if_pos (hNext.mp hOne), ← ih hFollows.tail (List.cons_ne_nil next ids)]
        rfl
      · next hFar =>
        rw [if_neg fun hEq => hFar (hNext.mpr hEq), ← ih hFollows.tail (List.cons_ne_nil next ids)]
        rfl

theorem finalRun_eq_or (prev : UInt16) (ids : List UInt16) :
    finalRun prev ids = [] ∨ finalRun prev ids = [1] := by
  fun_induction finalRun prev ids with
  | case1 prev => exact Or.inl rfl
  | case2 prev id hOne => exact Or.inl rfl
  | case3 prev id hFar => exact Or.inr rfl
  | case4 prev id next ids ih => exact ih

/-- The final run is there exactly when the last id follows the one before it. -/
theorem finalRun_eq_nil : finalRun prev ids = [] ↔ EndsInRun (prev :: ids) := by
  fun_induction finalRun prev ids with
  | case1 prev =>
    refine iff_of_true rfl fun a b hSuffix => ?_
    exact absurd hSuffix.length_le (Nat.lt_irrefl 1)
  | case2 prev id hOne =>
    refine iff_of_true rfl fun a b hSuffix => ?_
    have hEq := hSuffix.eq_of_length rfl
    cases hEq
    exact idGap_eq_one_iff.mp hOne
  | case3 prev id hFar =>
    refine iff_of_false (List.cons_ne_nil 1 []) fun hEnds => hFar ?_
    exact idGap_eq_one_iff.mpr (hEnds prev id List.suffix_rfl)
  | case4 prev id next ids ih =>
    rw [ih, EndsInRun, EndsInRun]
    refine forall_congr' fun a => forall_congr' fun b => imp_congr_left ?_
    have hCons : [a, b] <:+ prev :: id :: next :: ids ↔
        [a, b] = prev :: id :: next :: ids ∨ [a, b] <:+ id :: next :: ids := List.suffix_cons_iff
    rw [hCons, eq_comm]
    exact (or_iff_right fun hEq => by cases hEq).symm

/-- The entries are the run lengths of the reception from the first to the last id. -/
structure LossSeqExact (ids : List UInt16) (lossSeq : List ℤ) : Prop where
  expands : expand lossSeq = receptionPattern ids
  alternates : Alternates lossSeq
  received : (lossSeq.filter fun n => 0 < n).sum = ids.length
  lost : ((lossSeq.filter fun n => n < 0).map Int.natAbs).sum = lostIds ids

/-- With the final run, the whole list encodes the reception. -/
theorem lossSeq_append_finalRun (hSorted : InIdOrder (first :: ids)) :
    ((if ids.isEmpty then [1] else []) ++ FeedbackScan.runsFrom 1 first ids) ++
      finalRun first ids = encode 1 0 (offsets first ids) := by
  cases ids with
  | nil => rfl
  | cons id ids =>
    have hRuns := runsFrom_append_finalRun (n := 1) (Follows.of_inIdOrder hSorted)
      (List.cons_ne_nil id ids)
    rw [idGap_self] at hRuns
    exact hRuns

theorem expand_encode_offsets (hSorted : InIdOrder (first :: ids)) :
    expand (encode 1 0 (offsets first ids)) = receptionPattern (first :: ids) := by
  have hFollows := Follows.of_inIdOrder hSorted
  have hStart := hFollows.offsets_start
  rw [idGap_self] at hStart
  rw [expand_encode hStart hFollows.offsets_sorted, receptionPattern_eq hSorted, offsets, offsets,
    List.map_cons, pattern, idGap_self]
  rfl

theorem lossSeqExact_iff (hSorted : InIdOrder (first :: ids)) :
    LossSeqExact (first :: ids)
        ((if ids.isEmpty then [1] else []) ++ FeedbackScan.runsFrom 1 first ids) ↔
      EndsInRun (first :: ids) := by
  have hFollows := Follows.of_inIdOrder hSorted
  have hEncode := lossSeq_append_finalRun hSorted
  have hExpand := expand_encode_offsets hSorted
  generalize (if ids.isEmpty then [1] else []) ++ FeedbackScan.runsFrom 1 first ids = lossSeq
    at hEncode ⊢
  rw [← finalRun_eq_nil]
  constructor
  · intro hExact
    -- A final run left out would make the pattern longer than the entries.
    refine (finalRun_eq_or first ids).resolve_right fun hOne => ?_
    rw [← hEncode, hOne, expand_append, hExact.expands] at hExpand
    have hLength := congrArg List.length hExpand
    rw [List.length_append] at hLength
    exact absurd hLength (by simp [expand, piece])
  · intro hNone
    rw [hNone, List.append_nil] at hEncode
    have hStart := hFollows.offsets_start
    rw [idGap_self] at hStart
    have hReceived := count_pattern_true 0 (offsets first (first :: ids))
    rw [← receptionPattern_eq hSorted, offsets, List.length_map] at hReceived
    refine ⟨hEncode ▸ hExpand, ?_, ?_, ?_⟩
    · rw [hEncode]
      exact alternates_encode Nat.one_pos hStart hFollows.offsets_sorted
    · rw [sum_positive, hEncode, hExpand, hReceived]
    · rw [sum_negative, hEncode, hExpand, lostIds]

/-- The loss sequence is exact for the windows whose last id follows the one before it. -/
theorem feedback_lossSeq_iff (r : NetRecord) (delay : Time)
    (hSorted : r.record.Pairwise IdOrder) :
    ∃ netstate r', r.feedbackNetState delay = some (netstate, r') ∧
      (LossSeqExact (recordIds r.record) netstate.lossSeq ↔ EndsInRun (recordIds r.record)) := by
  cases hRecord : r.record with
  | nil =>
    have hScan : FeedbackScan.scan r.lastFeedback r.record =
        some (FeedbackScan.start 0 r.lastFeedback) := by
      rw [hRecord, FeedbackScan.scan]
    rw [NetRecord.feedbackNetState, hScan]
    refine ⟨_, _, rfl, iff_of_true ⟨rfl, List.isChain_nil, rfl, rfl⟩ fun a b hSuffix => ?_⟩
    exact absurd hSuffix.length_le (Nat.not_succ_le_zero 1)
  | cons p rest =>
    rw [hRecord, ← inIdOrder_recordIds] at hSorted
    obtain ⟨netstate, r', hFeedback, -, -, hSeq⟩ := feedbackNetState_eq r delay hRecord hSorted
    refine ⟨netstate, r', hFeedback, ?_⟩
    have hEmpty : rest.isEmpty = (recordIds rest).isEmpty := by rw [recordIds, List.isEmpty_map]
    rw [hSeq, recordIds_cons, hEmpty]
    exact lossSeqExact_iff hSorted

theorem feedback_lossSeq_lossBeforeWrap :
    ∃ netstate r', lossBeforeWrap.feedbackNetState 0 = some (netstate, r') ∧
      (LossSeqExact (recordIds lossBeforeWrap.record) netstate.lossSeq ↔
        EndsInRun (recordIds lossBeforeWrap.record)) :=
  feedback_lossSeq_iff lossBeforeWrap 0 (by decide)

/-- The last run is not recorded. -/
theorem last_run_left_out :
    lossAtWrap.record.Pairwise IdOrder ∧
      ∃ netstate r', lossAtWrap.feedbackNetState 0 = some (netstate, r') ∧
        netstate.lossSeq = [1, -1] ∧
        receptionPattern (recordIds lossAtWrap.record) = [true, false, true] ∧
        ¬ LossSeqExact (recordIds lossAtWrap.record) netstate.lossSeq :=
  ⟨by decide, _, _, rfl, by decide, by decide, fun hExact => absurd hExact.expands (by decide)⟩

end Bullet.Stream
