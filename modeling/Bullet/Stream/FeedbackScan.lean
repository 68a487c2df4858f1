import Bullet.Stream.NetRecord

/-! # What the feedback reads off the record

The loop over the record gathers the losses, their run lengths and the new packets side by side.
Each is a function of the records it goes over.
-/

namespace Bullet.Stream

open Lib

/-- How far an id is ahead of another one. -/
def idGap (prev id : UInt16) : ℕ := SerialNumber.ahead prev.toBitVec id.toBitVec

theorem idGap_eq (prev id : UInt16) : idGap prev id = (65536 - prev.toNat + id.toNat) % 65536 := by
  rw [idGap, SerialNumber.ahead, BitVec.toNat_sub]
  rfl

theorem idGap_lt (prev id : UInt16) : idGap prev id < 65536 := SerialNumber.ahead_lt _ _

def recordIds (record : List RecordedPkt) : List UInt16 := record.map RecordedPkt.pktId

theorem recordIds_cons (p : RecordedPkt) (record : List RecordedPkt) :
    recordIds (p :: record) = p.pktId :: recordIds record := rfl

namespace FeedbackScan

variable {s t : FeedbackScan} {prev id : UInt16} {n : ℕ} {p : RecordedPkt} {l : List RecordedPkt}

/-- The losses counted behind an id. -/
def lossesFrom : UInt16 → List UInt16 → UInt32
  | _, [] => 0
  | prev, id :: ids =>
    (if idGap prev id = 1 then 0 else id.toUInt32 - prev.toUInt32 - 1) + lossesFrom id ids

/-- The entries pushed behind an id that ends a run. -/
def runsFrom : ℕ → UInt16 → List UInt16 → List ℤ
  | _, _, [] => []
  | n, prev, id :: ids =>
    if idGap prev id = 1 then
      (if ids.isEmpty then [(n + 1 : ℤ)] else []) ++ runsFrom (n + 1) id ids
    else (n : ℤ) :: (1 - idGap prev id : ℤ) :: runsFrom 1 id ids

/-- The packets ahead of the cursor, which follows them. -/
def newFrom : UInt16 → List RecordedPkt → List RecordedPkt
  | _, [] => []
  | cursor, p :: l =>
    if lessThanSimple cursor p.pktId then p :: newFrom p.pktId l else newFrom cursor l

/-- Where the cursor stands afterwards. -/
def cursorFrom : UInt16 → List RecordedPkt → UInt16
  | cursor, [] => cursor
  | cursor, p :: l =>
    if lessThanSimple cursor p.pktId then cursorFrom p.pktId l else cursorFrom cursor l

theorem gap_toNat (hPrev : s.prevId = prev.toUInt32) (id : UInt16) :
    (s.gap id.toUInt32).toNat = idGap prev id := by
  have hId := id.toNat_lt
  have hLt := prev.toNat_lt
  rw [gap, hPrev, idGap_eq, UInt32.toNat_mod, UInt32.toNat_add, UInt32.toNat_sub,
    UInt16.toNat_toUInt32, UInt16.toNat_toUInt32]
  change ((2 ^ 32 - prev.toNat + id.toNat) % 2 ^ 32 + 65536) % 2 ^ 32 % 65536 = _
  omega

theorem gap_eq_one_iff (hPrev : s.prevId = prev.toUInt32) (id : UInt16) :
    s.gap id.toUInt32 = 1 ↔ idGap prev id = 1 := by
  rw [← gap_toNat hPrev, ← UInt32.toNat_inj]
  rfl

theorem one_sub_toInt {gap : UInt32} (hLt : gap.toNat < 65536) :
    (1 - gap).toInt32.toInt = 1 - (gap.toNat : ℤ) := by
  have hSub : (1 - gap).toNat = (2 ^ 32 - gap.toNat + 1) % 2 ^ 32 := UInt32.toNat_sub 1 gap
  have hInt : (1 - gap).toInt32.toInt = if 2 * (1 - gap).toNat < 2 ^ 32 then
      ((1 - gap).toNat : ℤ) else ((1 - gap).toNat : ℤ) - (2 ^ 32 : ℕ) :=
    BitVec.toInt_eq_toNat_cond (1 - gap).toBitVec
  rw [hInt, hSub]
  split <;> omega

/-! ## One record -/

theorem sample_frame (s : FeedbackScan) (p : RecordedPkt) :
    (s.sample p).lossSeq = s.lossSeq ∧ (s.sample p).lossesInWnd = s.lossesInWnd ∧
      (s.sample p).consecutiveRecv = s.consecutiveRecv := by
  rw [sample]
  split <;> exact ⟨rfl, rfl, rfl⟩

theorem countLosses_frame (s : FeedbackScan) (id : UInt32) (isLast : Bool) :
    (s.countLosses id isLast).recvSample = s.recvSample ∧
      (s.countLosses id isLast).lastFeedback = s.lastFeedback := by
  rw [countLosses]
  split <;> exact ⟨rfl, rfl⟩

/-- A visit, with a name for the scan in which the losses are counted. -/
theorem visit_eq {isLast : Bool} {counted : FeedbackScan}
    (hCounted : s.countLosses p.pktId.toUInt32 isLast = counted) :
    s.visit p isLast = { counted.sample p with prevId := p.pktId.toUInt32 } := by
  rw [visit, hCounted]

theorem visit_counts {isLast : Bool} {counted : FeedbackScan}
    (hCounted : s.countLosses p.pktId.toUInt32 isLast = counted) :
    (s.visit p isLast).lossSeq = counted.lossSeq ∧
      (s.visit p isLast).lossesInWnd = counted.lossesInWnd ∧
      (s.visit p isLast).consecutiveRecv = counted.consecutiveRecv := by
  rw [visit_eq hCounted]
  exact sample_frame counted p

theorem visit_next (isLast : Bool) (hCount : s.consecutiveRecv = n)
    (hNext : s.gap p.pktId.toUInt32 = 1) :
    (s.visit p isLast).lossSeq = s.lossSeq ++ (if isLast then [(n + 1 : ℤ)] else []) ∧
      (s.visit p isLast).lossesInWnd = s.lossesInWnd ∧
      (s.visit p isLast).consecutiveRecv = (n + 1 : ℕ) := by
  obtain ⟨hSeq, hLosses, hRecv⟩ := visit_counts (rfl : s.countLosses p.pktId.toUInt32 isLast = _)
  rw [hSeq, hLosses, hRecv, countLosses, if_pos hNext, hCount]
  refine ⟨?_, rfl, rfl⟩
  cases isLast with
  | false => exact (List.append_nil s.lossSeq).symm
  | true => rfl

theorem visit_gap (isLast : Bool) (hPrev : s.prevId = prev.toUInt32)
    (hCount : s.consecutiveRecv = n) (hGap : idGap prev p.pktId ≠ 1) :
    (s.visit p isLast).lossSeq = s.lossSeq ++ [(n : ℤ), (1 - idGap prev p.pktId : ℤ)] ∧
      (s.visit p isLast).lossesInWnd =
        s.lossesInWnd + (p.pktId.toUInt32 - prev.toUInt32 - 1) ∧
      (s.visit p isLast).consecutiveRecv = (1 : ℕ) := by
  have hWay := gap_toNat hPrev p.pktId
  have hEntry := one_sub_toInt (hWay ▸ idGap_lt prev p.pktId)
  rw [hWay] at hEntry
  obtain ⟨hSeq, hLosses, hRecv⟩ := visit_counts (rfl : s.countLosses p.pktId.toUInt32 isLast = _)
  rw [hSeq, hLosses, hRecv, countLosses,
    if_neg fun hEq => hGap ((gap_eq_one_iff hPrev p.pktId).mp hEq), hCount, hEntry, hPrev]
  exact ⟨rfl, rfl, rfl⟩

theorem visit_sample (s : FeedbackScan) (p : RecordedPkt) (isLast : Bool) :
    (s.visit p isLast).recvSample =
        s.recvSample ++ (if lessThanSimple s.lastFeedback p.pktId then [p] else []) ∧
      (s.visit p isLast).lastFeedback =
        if lessThanSimple s.lastFeedback p.pktId then p.pktId else s.lastFeedback := by
  obtain ⟨hSample, hCursor⟩ := countLosses_frame s p.pktId.toUInt32 isLast
  obtain ⟨counted, hCounted⟩ : ∃ counted, s.countLosses p.pktId.toUInt32 isLast = counted :=
    ⟨_, rfl⟩
  rw [hCounted] at hSample hCursor
  rw [visit_eq hCounted, sample, hCursor]
  split
  · exact ⟨congrArg (· ++ [p]) hSample, rfl⟩
  · rw [List.append_nil]
    exact ⟨hSample, hCursor⟩

/-! ## The whole loop -/

theorem scanRest_reads (hPrev : s.prevId = prev.toUInt32) (hCount : s.consecutiveRecv = n)
    (hScan : scanRest s l = some t) :
    t.lossSeq = s.lossSeq ++ runsFrom n prev (recordIds l) ∧
      t.lossesInWnd = s.lossesInWnd + lossesFrom prev (recordIds l) := by
  induction l generalizing s prev n with
  | nil =>
    cases hScan
    exact ⟨(List.append_nil t.lossSeq).symm, (UInt32.add_zero t.lossesInWnd).symm⟩
  | cons p rest ih =>
    rw [scanRest] at hScan
    split at hScan
    · change t.lossSeq = _ ++ runsFrom n prev (p.pktId :: recordIds rest) ∧
        t.lossesInWnd = _ + lossesFrom prev (p.pktId :: recordIds rest)
      rw [runsFrom, lossesFrom]
      split
      · next hNext =>
        have hOne := (gap_eq_one_iff hPrev p.pktId).mpr hNext
        obtain ⟨hSeq, hLosses, hRecv⟩ := visit_next rest.isEmpty hCount hOne
        obtain ⟨hRestSeq, hRestLosses⟩ := ih rfl hRecv hScan
        rw [hRestSeq, hSeq, hRestLosses, hLosses, List.append_assoc, UInt32.zero_add]
        exact ⟨by rw [recordIds, List.isEmpty_map], rfl⟩
      · next hGap =>
        obtain ⟨hSeq, hLosses, hRecv⟩ := visit_gap rest.isEmpty hPrev hCount hGap
        obtain ⟨hRestSeq, hRestLosses⟩ := ih rfl hRecv hScan
        rw [hRestSeq, hSeq, hRestLosses, hLosses, List.append_assoc, UInt32.add_assoc]
        exact ⟨rfl, rfl⟩
    · cases hScan

theorem scanRest_new (hScan : scanRest s l = some t) :
    t.recvSample = s.recvSample ++ newFrom s.lastFeedback l ∧
      t.lastFeedback = cursorFrom s.lastFeedback l := by
  induction l generalizing s with
  | nil =>
    cases hScan
    exact ⟨(List.append_nil t.recvSample).symm, rfl⟩
  | cons p rest ih =>
    rw [scanRest] at hScan
    split at hScan
    · obtain ⟨hSample, hCursor⟩ := visit_sample s p rest.isEmpty
      obtain ⟨hRest, hEnd⟩ := ih hScan
      rw [hRest, hEnd, hSample, hCursor, newFrom, cursorFrom, List.append_assoc]
      split <;> exact ⟨rfl, rfl⟩
    · cases hScan

/-- In an ordered record no assertion fails. -/
theorem exists_scanRest (hPrev : s.prevId = prev.toUInt32)
    (hChain : (prev :: recordIds l).IsChain fun a b => lessThanSimple a b = true) :
    ∃ t, scanRest s l = some t := by
  induction l generalizing s prev with
  | nil => exact ⟨s, rfl⟩
  | cons p rest ih =>
    obtain ⟨hLess, hRest⟩ := List.isChain_cons_cons.mp hChain
    rw [scanRest, hPrev, UInt16.toUInt16_toUInt32, if_pos hLess]
    exact ih rfl hRest

/-- The first record begins a run, whatever its id. -/
theorem start_gap (id cursor : UInt16) : (start (id.toUInt32 - 1) cursor).gap id.toUInt32 = 1 := by
  change (id.toUInt32 - (id.toUInt32 - 1) + 65536) % 65536 = 1
  have hBack : id.toUInt32 - (id.toUInt32 - 1) = 1 :=
    UInt32.toBitVec_inj.mp (sub_sub_cancel id.toUInt32.toBitVec 1)
  rw [hBack]
  rfl

theorem scan_reads (cursor : UInt16) (p : RecordedPkt) (rest : List RecordedPkt)
    (hChain : (recordIds (p :: rest)).IsChain fun a b => lessThanSimple a b = true) :
    ∃ t, scan cursor (p :: rest) = some t ∧
      t.lossSeq = (if rest.isEmpty then [1] else []) ++ runsFrom 1 p.pktId (recordIds rest) ∧
      t.lossesInWnd = lossesFrom p.pktId (recordIds rest) := by
  have hFirst := start_gap p.pktId cursor
  generalize hStart : start (p.pktId.toUInt32 - 1) cursor = s at hFirst
  obtain ⟨hZero, hNoSeq, hNoLoss⟩ :
      s.consecutiveRecv = (0 : ℕ) ∧ s.lossSeq = [] ∧ s.lossesInWnd = 0 := hStart ▸ ⟨rfl, rfl, rfl⟩
  obtain ⟨hSeq, hLosses, hRecv⟩ := visit_next rest.isEmpty hZero hFirst
  have hPrev : (s.visit p rest.isEmpty).prevId = p.pktId.toUInt32 := rfl
  obtain ⟨t, hScan⟩ := exists_scanRest hPrev hChain
  obtain ⟨hRestSeq, hRestLosses⟩ := scanRest_reads hPrev hRecv hScan
  refine ⟨t, ?_, ?_, ?_⟩
  · rw [scan, hStart]
    exact hScan
  · rw [hRestSeq, hSeq, hNoSeq]
    rfl
  · rw [hRestLosses, hLosses, hNoLoss]
    exact UInt32.zero_add _

theorem scan_new {cursor : UInt16} (hScan : scan cursor l = some t) :
    t.recvSample = newFrom cursor l ∧ t.lastFeedback = cursorFrom cursor l := by
  cases l with
  | nil =>
    cases hScan
    exact ⟨rfl, rfl⟩
  | cons p rest =>
    rw [scan] at hScan
    generalize hStart : start (p.pktId.toUInt32 - 1) cursor = s at hScan
    obtain ⟨hNoSample, hOld⟩ : s.recvSample = [] ∧ s.lastFeedback = cursor := hStart ▸ ⟨rfl, rfl⟩
    obtain ⟨hSample, hCursor⟩ := visit_sample s p rest.isEmpty
    obtain ⟨hNew, hEnd⟩ := scanRest_new hScan
    rw [hNew, hEnd, hSample, hCursor, hNoSample, hOld, newFrom, cursorFrom]
    split <;> exact ⟨rfl, rfl⟩

/-- The packets ahead of the cursor ascend from it, each ahead of the one before, and the cursor ends
at the last of them. -/
theorem newFrom_isChain (cursor : UInt16) (l : List RecordedPkt) :
    (cursor :: recordIds (newFrom cursor l)).IsChain (fun a b => lessThanSimple a b = true) ∧
      (recordIds (newFrom cursor l)).getLastD cursor = cursorFrom cursor l := by
  induction l generalizing cursor with
  | nil => exact ⟨List.IsChain.singleton cursor, rfl⟩
  | cons p rest ih =>
    rw [newFrom, cursorFrom]
    split
    · next hAhead =>
      obtain ⟨hChain, hLast⟩ := ih p.pktId
      refine ⟨List.isChain_cons_cons.mpr ⟨hAhead, hChain⟩, ?_⟩
      rw [recordIds_cons, List.getLastD_cons]
      exact hLast
    · exact ih cursor

theorem newFrom_subset (cursor : UInt16) (l : List RecordedPkt) : newFrom cursor l ⊆ l := by
  induction l generalizing cursor with
  | nil => exact List.Subset.refl []
  | cons p rest ih =>
    rw [newFrom]
    split
    · exact List.cons_subset_cons p (ih p.pktId)
    · exact fun q hMem => List.mem_cons_of_mem p (ih cursor hMem)

end FeedbackScan

end Bullet.Stream
