import Mathlib.Data.Finset.Lattice.Fold
import Mathlib.Data.Nat.Find

/-! # Reordering in a window

Numbered packets arrive out of order, or more than once, or not at all. A number is waited for
until packets that lie a window ahead have come, or until a timer gives it up. `first` is the first
number that is still waited for and has not come: what is below it can be released in order.
-/

namespace Bullet.Lib

/-- The numbers that have come while they were waited for, one more than the highest of them, the
number below which none is waited for, and the one below which none is after the timer. -/
@[ext]
structure ReorderingWindow where
  received : Finset ℕ := ∅
  next : ℕ := 0
  floor : ℕ := 0
  timer : Option ℕ := none

namespace ReorderingWindow

variable {r : ReorderingWindow} {w n k x : ℕ}

theorem exists_missing (r : ReorderingWindow) : ∃ n, r.floor ≤ n ∧ n ∉ r.received := by
  refine ⟨max r.floor (r.received.sup id + 1), le_max_left _ _, fun hMem => ?_⟩
  have hLe := Finset.le_sup (f := id) hMem
  have hMax := le_max_right r.floor (r.received.sup id + 1)
  dsimp only [id] at hLe
  omega

def first (r : ReorderingWindow) : ℕ := Nat.find r.exists_missing

/-- The timer runs while a number is missing; it is started anew when the numbers it was started
for are no longer waited for. -/
def restart (r : ReorderingWindow) : ReorderingWindow :=
  { r with
    timer := (r.timer.filter (r.first < ·)).or (if r.first < r.next then some r.next else none) }

def record (w : ℕ) (r : ReorderingWindow) (n : ℕ) : ReorderingWindow :=
  { r with
    received := if r.floor ≤ n then insert n r.received else r.received
    next := max r.next (n + 1)
    floor := max r.floor (max r.next (n + 1) - w) }

def arrive (w : ℕ) (r : ReorderingWindow) (n : ℕ) : ReorderingWindow := (r.record w n).restart

/-- The timer that was started for `x` expires. -/
def expire (r : ReorderingWindow) (x : ℕ) : ReorderingWindow :=
  restart { r with floor := max r.floor x, timer := none }

/-- The received numbers from `a` to `b`, in order. -/
def released (received : Finset ℕ) (a b : ℕ) : List ℕ :=
  (List.range' a (b - a)).filter (· ∈ received)

/-! ## The first missing number -/

theorem floor_le_first (r : ReorderingWindow) : r.floor ≤ r.first :=
  (Nat.find_spec r.exists_missing).1

theorem first_notMem (r : ReorderingWindow) : r.first ∉ r.received :=
  (Nat.find_spec r.exists_missing).2

theorem mem_of_lt_first (hFloor : r.floor ≤ k) (hLt : k < r.first) : k ∈ r.received := by
  by_contra hMissing
  exact Nat.find_min r.exists_missing hLt ⟨hFloor, hMissing⟩

theorem first_eq (hFloor : r.floor ≤ n) (hMissing : n ∉ r.received)
    (hMem : ∀ k, r.floor ≤ k → k < n → k ∈ r.received) : r.first = n := by
  refine (Nat.find_eq_iff _).mpr ⟨⟨hFloor, hMissing⟩, ?_⟩
  rintro k hLt ⟨hLe, hNot⟩
  exact hNot (hMem k hLe hLt)

/-- What comes later does not move the first missing number back. -/
theorem first_le_first {t : ReorderingWindow} (hFloor : r.floor ≤ t.floor)
    (hReceived : r.received ⊆ t.received) : r.first ≤ t.first := by
  by_contra hNot
  have hMem := mem_of_lt_first (hFloor.trans t.floor_le_first) (Nat.lt_of_not_le hNot)
  exact t.first_notMem (hReceived hMem)

@[simp] theorem first_restart (r : ReorderingWindow) : r.restart.first = r.first := rfl

/-! ## What every event keeps -/

/-- The numbers are in order, and every window of numbers has one that has been received. -/
structure Bounded (w : ℕ) (r : ReorderingWindow) : Prop where
  below : ∀ n ∈ r.received, n < r.next
  floor : r.floor ≤ r.next
  wide : r.next ≤ r.floor + w
  top : ∀ k, r.next = k + 1 → k ∈ r.received
  dense : ∀ m, m + w ≤ r.next → ∃ n ∈ r.received, m ≤ n ∧ n < m + w

structure Settled (w : ℕ) (r : ReorderingWindow) : Prop extends Bounded w r where
  timer : ∀ x, r.timer = some x → r.first < x ∧ x ≤ r.next
  stopped : r.timer = none → r.next ≤ r.first

theorem Bounded.first_le_next (h : Bounded w r) : r.first ≤ r.next := by
  by_contra hNot
  exact absurd (h.below _ (mem_of_lt_first h.floor (Nat.lt_of_not_le hNot))) (Nat.lt_irrefl _)

theorem Bounded.restart (h : Bounded w r) (hTimer : ∀ x, r.timer = some x → x ≤ r.next) :
    Settled w r.restart where
  toBounded := ⟨h.below, h.floor, h.wide, h.top, h.dense⟩
  timer x hRuns := by
    obtain hKept | ⟨-, hStarted⟩ := Option.or_eq_some_iff.mp hRuns
    · obtain ⟨hTimes, hLt⟩ := Option.filter_eq_some_iff.mp hKept
      exact ⟨of_decide_eq_true hLt, hTimer x hTimes⟩
    · split at hStarted
      · next hLt =>
        cases hStarted
        exact ⟨hLt, le_rfl⟩
      · cases hStarted
  stopped hNone := by
    obtain ⟨-, hStarted⟩ := Option.or_eq_none_iff.mp hNone
    split at hStarted
    · cases hStarted
    · next hNot => exact Nat.not_lt.mp hNot

theorem settled_empty (hPos : 0 < w) : Settled w {} where
  below := nofun
  floor := le_rfl
  wide := Nat.zero_le _
  top := nofun
  dense m hLe := by
    dsimp only at hLe
    omega
  timer := nofun
  stopped _ := Nat.zero_le _

/-! ## A packet arrives -/

theorem mem_received_record :
    k ∈ (r.record w n).received ↔ k ∈ r.received ∨ r.floor ≤ n ∧ k = n := by
  change k ∈ (if r.floor ≤ n then insert n r.received else r.received) ↔ _
  split
  · next hFloor => simp [hFloor, or_comm]
  · next hFloor => simp [hFloor]

/-- Nothing comes below the first missing number. -/
theorem mem_of_mem_record (h : k ∈ (r.record w n).received) :
    k ∈ r.received ∨ r.first ≤ n ∧ k = n := by
  obtain hMem | ⟨hFloor, rfl⟩ := mem_received_record.mp h
  · exact .inl hMem
  · obtain hLt | hLe := Nat.lt_or_ge k r.first
    · exact .inl (mem_of_lt_first hFloor hLt)
    · exact .inr ⟨hLe, rfl⟩

theorem received_record (hLe : r.first ≤ n) :
    (r.record w n).received = insert n r.received :=
  if_pos (r.floor_le_first.trans hLe)

theorem next_record : (r.record w n).next = max r.next (n + 1) := rfl

theorem floor_record : (r.record w n).floor = max r.floor (max r.next (n + 1) - w) := rfl

theorem Bounded.record (h : Bounded w r) (hPos : 0 < w) (hNew : n < r.next + w) :
    Bounded w (r.record w n) := by
  have hFloor := h.floor
  have hWide := h.wide
  constructor
  · intro k hMem
    rw [next_record]
    obtain hMem | ⟨-, rfl⟩ := mem_received_record.mp hMem
    · have hBelow := h.below k hMem
      omega
    · omega
  · rw [next_record, floor_record]
    omega
  · rw [next_record, floor_record]
    omega
  · intro k hTop
    rw [next_record] at hTop
    obtain hLt | hLe := Nat.lt_or_ge n r.next
    · exact mem_received_record.mpr (.inl (h.top k (by omega)))
    · exact mem_received_record.mpr (.inr ⟨by omega, by omega⟩)
  · intro m hLe
    rw [next_record] at hLe
    obtain hOld | hFurther := Nat.lt_or_ge r.next (m + w)
    · obtain hLast | hBefore : n + 1 = m + w ∨ n + 1 ≠ m + w := em _
      · exact ⟨n, mem_received_record.mpr (.inr ⟨by omega, rfl⟩), by omega, by omega⟩
      · have hTop : r.next - 1 ∈ r.received := h.top _ (by omega)
        exact ⟨_, mem_received_record.mpr (.inl hTop), by omega, by omega⟩
    · obtain ⟨k, hMem, hRange⟩ := h.dense m hFurther
      exact ⟨k, mem_received_record.mpr (.inl hMem), hRange⟩

theorem Settled.arrive (h : Settled w r) (hPos : 0 < w) (hNew : n < r.next + w) :
    Settled w (r.arrive w n) :=
  (h.toBounded.record hPos hNew).restart fun x hTimer =>
    (h.timer x hTimer).2.trans (le_max_left _ _)

theorem Settled.restart_eq (h : Settled w r) : r.restart = r := by
  have hTimer : (r.timer.filter (r.first < ·)).or (if r.first < r.next then some r.next else none) =
      r.timer := by
    cases hRuns : r.timer with
    | some x => simp [(h.timer x hRuns).1]
    | none => simp [h.stopped hRuns]
  unfold restart
  rw [hTimer]

/-- What has come before, or is not waited for, changes nothing. -/
theorem Settled.arrive_eq (h : Settled w r) (hKnown : n < r.first ∨ n ∈ r.received) :
    r.arrive w n = r := by
  have hLt : n < r.next := by
    obtain hLt | hMem := hKnown
    · exact hLt.trans_le h.first_le_next
    · exact h.below n hMem
  have hReceived : (r.record w n).received = r.received := by
    ext k
    rw [mem_received_record]
    refine or_iff_left_of_imp ?_
    rintro ⟨hFloor, rfl⟩
    obtain hBelow | hMem := hKnown
    · exact mem_of_lt_first hFloor hBelow
    · exact hMem
  have hNext : (r.record w n).next = r.next := max_eq_left hLt
  have hFloor : (r.record w n).floor = r.floor := by
    have hWide := h.wide
    rw [floor_record]
    omega
  have hRecord : r.record w n = r := ReorderingWindow.ext hReceived hNext hFloor rfl
  rw [ReorderingWindow.arrive, hRecord, h.restart_eq]

/-! ## The timer expires -/

theorem Settled.expire (h : Settled w r) (hLe : x ≤ r.next) : Settled w (r.expire x) := by
  have hFloor := h.floor
  have hWide := h.wide
  refine Bounded.restart ⟨h.below, ?_, ?_, h.top, h.dense⟩ nofun
  · dsimp only
    omega
  · dsimp only
    omega

/-! ## What is released -/

variable {received : Finset ℕ} {a b c : ℕ}

theorem mem_released : k ∈ released received a b ↔ k ∈ received ∧ a ≤ k ∧ k < b := by
  rw [released, List.mem_filter, List.mem_range'_1, decide_eq_true_iff, and_comm]
  exact and_congr_right fun _ => by omega

theorem released_pairwise : (released received a b).Pairwise (· < ·) :=
  (List.pairwise_lt_range' ..).filter _

@[simp] theorem released_self : released received a a = [] := by
  rw [released, Nat.sub_self]
  rfl

theorem released_of_mem (hLt : a < b) (hMem : a ∈ received) :
    released received a b = a :: released received (a + 1) b := by
  obtain ⟨d, rfl⟩ := Nat.exists_eq_add_of_lt hLt
  rw [released, released, show a + d + 1 - a = d + 1 by omega, List.range'_succ,
    List.filter_cons_of_pos (by simpa using hMem), show a + d + 1 - (a + 1) = d by omega]

theorem released_of_notMem (hNot : a ∉ received) :
    released received a b = released received (a + 1) b := by
  obtain hLe | hLt := Nat.lt_or_ge a b
  · obtain ⟨d, rfl⟩ := Nat.exists_eq_add_of_lt hLe
    rw [released, released, show a + d + 1 - a = d + 1 by omega, List.range'_succ,
      List.filter_cons_of_neg (by simpa using hNot), show a + d + 1 - (a + 1) = d by omega]
  · rw [released, released, Nat.sub_eq_zero_of_le hLt, Nat.sub_eq_zero_of_le (by omega)]
    rfl

theorem released_append (hLeft : a ≤ b) (hRight : b ≤ c) :
    released received a b ++ released received b c = released received a c := by
  obtain ⟨d, rfl⟩ := Nat.exists_eq_add_of_le hLeft
  obtain ⟨e, rfl⟩ := Nat.exists_eq_add_of_le hRight
  rw [released, released, released, ← List.filter_append, Nat.add_sub_cancel_left,
    Nat.add_sub_cancel_left, Nat.add_assoc, Nat.add_sub_cancel_left, List.range'_append_1]

end ReorderingWindow

end Bullet.Lib
