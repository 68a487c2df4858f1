import Bullet.Trigger.History

/-! # Arrival detection on the history

What the look-back and the detection compute, in terms of the history behind the queues.
-/

namespace Bullet.Trigger.BulletTrigger

open Mac Lib Lib.RecentHistory

variable {s : BulletTrigger} {past all : List SlotRecord} {cur b r : SlotRecord}

/-- The history has a report `i` positions before its newest record, or an SR due for it. -/
def Reported (all : List SlotRecord) (i : ℕ) : Prop :=
  (∃ r, (withBlanks all)[i - 1]? = some r ∧ r.getBsr = true) ∨
    ∃ r, (withBlanks all)[i + 3]? = some r ∧ r.sr = true

theorem Holds.reportedAt (h : s.Holds all) {i : ℕ} (hLow : 1 ≤ i) (hHigh : i ≤ 99) :
    s.reportedAt s.getBsrQueue.length i = ((withBlanks all)[i - 1]?).bind fun r =>
      if r.getBsr then some true else ((withBlanks all)[i + 3]?).map (·.sr) := by
  have hGet := h.readAt (·.getBsr) hLow (by rw [queueSize]; omega)
  have hSr := h.readAt (·.sr) (j := i + 4) (by omega) (by rw [queueSize]; omega)
  rw [← h.getBsr] at hGet
  rw [← h.sr] at hSr
  have hIndex : (s.getBsrQueue.length : ℤ) - i - s.bsrSlot + s.srSlot =
      s.getBsrQueue.length - ((i + 4 : ℕ) : ℤ) := by
    rw [h.bsrSlot, h.srSlot]
    omega
  rw [BulletTrigger.reportedAt, hGet, hIndex, hSr]
  cases (withBlanks all)[i - 1]? with
  | none => rfl
  | some r => rfl

theorem Holds.reportedAt_hit (h : s.Holds all) {i : ℕ} (hLow : 1 ≤ i) (hHigh : i ≤ 99)
    (hHit : s.reportedAt s.getBsrQueue.length i = some true) : Reported all i := by
  rw [h.reportedAt hLow hHigh] at hHit
  obtain ⟨r, hr, hHit⟩ := Option.bind_eq_some_iff.mp hHit
  split at hHit
  · next hGet => exact Or.inl ⟨r, hr, hGet⟩
  · obtain ⟨r', hr', hSr⟩ := Option.map_eq_some_iff.mp hHit
    exact Or.inr ⟨r', hr', hSr⟩

theorem Holds.reportedAt_ne_none (h : s.Holds all) {i : ℕ} (hLow : 1 ≤ i) (hHigh : i ≤ 99)
    (hIn : i + 3 < all.length + 50) : s.reportedAt s.getBsrQueue.length i ≠ none := by
  rw [← length_withBlanks] at hIn
  rw [h.reportedAt hLow hHigh, List.getElem?_eq_getElem (by omega), Option.bind_some,
    List.getElem?_eq_getElem hIn]
  split
  · exact Option.some_ne_none _
  · exact Option.some_ne_none _

theorem Holds.reportedAt_of_reported (h : s.Holds all) {i : ℕ} (hLow : 1 ≤ i) (hHigh : i ≤ 99)
    (hIn : i + 3 < all.length + 50) (hReported : Reported all i) :
    s.reportedAt s.getBsrQueue.length i = some true := by
  rw [← length_withBlanks] at hIn
  rw [h.reportedAt hLow hHigh]
  obtain ⟨r, hr, hGet⟩ | ⟨r, hr, hSr⟩ := hReported
  · rw [hr, Option.bind_some, if_pos hGet]
  · rw [List.getElem?_eq_getElem (by omega), Option.bind_some, hr, Option.map_some, hSr]
    split
    · rfl
    · rfl

theorem Holds.reportedAt_miss (h : s.Holds all) {i : ℕ} (hLow : 1 ≤ i) (hHigh : i ≤ 99)
    (hIn : i + 3 < all.length + 50) (hNot : ¬ Reported all i) :
    s.reportedAt s.getBsrQueue.length i = some false := by
  obtain ⟨hit, hSome⟩ := Option.ne_none_iff_exists'.mp (h.reportedAt_ne_none hLow hHigh hIn)
  cases hit with
  | false => exact hSome
  | true => exact absurd (h.reportedAt_hit hLow hHigh hSome) hNot

/-- A report is one of the slots, not a blank. -/
theorem Reported.lt {i : ℕ} (h : Reported all i) : i - 1 < all.length := by
  obtain ⟨r, hr, hGet⟩ | ⟨r, hr, hSr⟩ := h
  · exact lt_of_withBlanks hr fun hEq => by rw [hEq] at hGet; cases hGet
  · have hLt := lt_of_withBlanks hr fun hEq => by rw [hEq] at hSr; cases hSr
    omega

theorem Holds.lastBsrIndex_eq (h : s.Holds all) :
    s.lastBsrIndex = (firstHit (s.reportedAt s.getBsrQueue.length)
      (List.range' 2 (min 100 (all.length + 50) - 2))).map fun hit => hit.getD 1 := by
  have hRange : min 100 s.getBsrQueue.length = min 100 (all.length + 50) := by
    rw [h.length, queueSize]
    omega
  rw [BulletTrigger.lastBsrIndex, hRange]
  cases firstHit (s.reportedAt s.getBsrQueue.length)
    (List.range' 2 (min 100 (all.length + 50) - 2)) with
  | none => rfl
  | some hit => rfl

/-- The last report is found at the first position that has one. -/
theorem Holds.lastBsrIndex_of_reported (h : s.Holds all) {i : ℕ} (hLow : 2 ≤ i) (hHigh : i ≤ 99)
    (hIn : i + 3 < all.length + 50) (hReported : Reported all i)
    (hBefore : ∀ j, 2 ≤ j → j < i → ¬ Reported all j) : s.lastBsrIndex = some i := by
  obtain ⟨l, m, hSplit, hRange⟩ := range'_split 2 (min 100 (all.length + 50) - 2) hLow (by omega)
  have hMiss : ∀ j ∈ l, s.reportedAt s.getBsrQueue.length j = some false := by
    intro j hMem
    obtain ⟨hTwo, hLt⟩ := hRange j hMem
    exact h.reportedAt_miss (by omega) (by omega) (by omega) (hBefore j hTwo hLt)
  rw [h.lastBsrIndex_eq, hSplit, firstHit_append_of_miss hMiss, firstHit,
    h.reportedAt_of_reported (by omega) hHigh hIn hReported]
  rfl

/-- What the look-back returns when it does not run off the queue. -/
theorem Holds.lastBsrIndex_cases (h : s.Holds all) {last : ℕ} (hLast : s.lastBsrIndex = some last) :
    last = 1 ∨ (2 ≤ last ∧ last ≤ 99 ∧ last - 1 < all.length) := by
  rw [h.lastBsrIndex_eq] at hLast
  obtain ⟨hit, hHit, rfl⟩ := Option.map_eq_some_iff.mp hLast
  cases hit with
  | none => exact Or.inl rfl
  | some i =>
    obtain ⟨hMem, hTrue⟩ := firstHit_eq_some hHit
    rw [List.mem_range'_1] at hMem
    have hReported := h.reportedAt_hit (by omega) (by omega) hTrue
    exact Or.inr ⟨hMem.1, by dsimp only [Option.getD_some]; omega, hReported.lt⟩

theorem Holds.allocAt (h : s.Holds all) {i : ℕ} (hSize : i < queueSize) :
    s.allocAt s.getBsrQueue.length i = ((withBlanks all).map (·.alloc))[i]? := by
  have hTime := h.readAt (·.time) (j := i + 1) (by omega) (by omega)
  have hAlloc := h.readAt (·.alloc) (j := i + 1) (by omega) (by omega)
  rw [← h.time, Nat.add_sub_cancel] at hTime
  rw [← h.alloc, Nat.add_sub_cancel] at hAlloc
  have hIndex : (s.getBsrQueue.length : ℤ) - i - 1 =
      s.getBsrQueue.length - ((i + 1 : ℕ) : ℤ) := by
    omega
  rw [BulletTrigger.allocAt, hIndex, hTime, hAlloc, List.getElem?_map]
  cases (withBlanks all)[i]? with
  | none => rfl
  | some r => rfl

/-- The arrival that a slot without a BSR or with an SR adds. -/
def srArrival (cur : SlotRecord) : Int := if cur.sr then 50 else 0

theorem Holds.getLast? (h : s.Holds (cur :: past)) :
    s.srQueue.getLast? = some cur.sr ∧ s.getBsrQueue.getLast? = some cur.getBsr := by
  rw [h.sr, h.getBsr, withBlanks_cons, List.map_cons, List.map_cons,
    getLast?_recent_cons (by decide), getLast?_recent_cons (by decide)]
  exact ⟨rfl, rfl⟩

theorem Holds.detect_unreported (h : s.Holds (cur :: past)) (hNot : cur.getBsr = false) :
    s.detectArrival = some (⟨srArrival cur, 0⟩, s.recentGranted) := by
  obtain ⟨hSr, hGet⟩ := h.getLast?
  rw [detectArrival, hSr, hGet, Option.bind_eq_bind, Option.bind_some, Option.bind_eq_bind,
    Option.bind_some, if_pos hNot]
  rfl

/-- The detection runs off a queue exactly when the look-back does. -/
theorem Holds.detect_eq_none (h : s.Holds (cur :: past)) (hGet : cur.getBsr = true)
    (hLast : s.lastBsrIndex = none) : s.detectArrival = none := by
  obtain ⟨hSr, hBack⟩ := h.getLast?
  rw [detectArrival, hSr, hBack, Option.bind_eq_bind, Option.bind_some, Option.bind_eq_bind,
    Option.bind_some, if_neg (by rw [hGet]; exact Bool.noConfusion), hLast]
  rfl

theorem Holds.detect_of_last (h : s.Holds (cur :: past)) (hGet : cur.getBsr = true) {last : ℕ}
    (hLast : s.lastBsrIndex = some last) :
    ∃ b, (withBlanks (cur :: past))[last - 1]? = some b ∧
      s.detectArrival = some
        (⟨srArrival cur + (fromLevelToBytes cur.bsr - fromLevelToBytes b.bsr +
            (((withBlanks (cur :: past)).map (·.alloc)).take (last - 1)).sum), last⟩,
          (((withBlanks (cur :: past)).map (·.alloc)).take (last - 1)).sum) := by
  obtain ⟨hSr, hBack⟩ := h.getLast?
  have hLength := length_withBlanks (cur :: past)
  rw [List.length_cons] at hLength
  have hBounds : 1 ≤ last ∧ last ≤ 99 ∧ last + 10 < past.length + 51 := by
    obtain rfl | ⟨hLow, hHigh, hLt⟩ := h.lastBsrIndex_cases hLast
    · omega
    · rw [List.length_cons] at hLt
      omega
  obtain ⟨hLow, hHigh, hIn⟩ := hBounds
  have hAllocs : (List.range (last - 1)).mapM (s.allocAt s.getBsrQueue.length) =
      some (((withBlanks (cur :: past)).map (·.alloc)).take (last - 1)) := by
    apply mapM_range_getElem?
    · rw [List.length_map]
      omega
    · intro i hLt
      exact h.allocAt (by rw [queueSize]; omega)
  have hCurr := h.readAt (·.bsr) (j := 1) (by omega) (by decide)
  have hBsr := h.readAt (·.bsr) (j := last) (by omega) (by rw [queueSize]; omega)
  have hTime := h.readAt (·.time) (j := last + 11) (by omega) (by rw [queueSize]; omega)
  rw [← h.bsr] at hCurr hBsr
  rw [← h.time, List.getElem?_eq_getElem (by omega), Option.map_some] at hTime
  rw [List.getElem?_eq_getElem (by omega), Option.map_some] at hBsr
  have hIndex : (s.getBsrQueue.length : ℤ) - last - s.bsrSlot - s.allocSlot =
      s.getBsrQueue.length - ((last + 11 : ℕ) : ℤ) := by
    rw [h.bsrSlot, h.allocSlot]
    omega
  refine ⟨(withBlanks (cur :: past))[last - 1], List.getElem?_eq_getElem (by omega), ?_⟩
  rw [detectArrival, hSr, hBack, Option.bind_eq_bind, Option.bind_some, Option.bind_eq_bind,
    Option.bind_some, if_neg (by rw [hGet]; exact Bool.noConfusion), hLast, Option.bind_eq_bind,
    Option.bind_some, hAllocs, Option.bind_eq_bind, Option.bind_some]
  rw [Nat.cast_one] at hCurr
  rw [hCurr, hBsr, hIndex, hTime]
  rfl

end Bullet.Trigger.BulletTrigger
