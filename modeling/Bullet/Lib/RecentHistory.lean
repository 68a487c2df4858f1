import Mathlib.Data.List.Basic
import Mathlib.Data.Option.Basic

/-! # Bounded queues of recent values

A queue that keeps the last `size` values pushed is read by positions counted from its end, so it is
described by the whole history, newest value first. A search reads one position after the other and
may run off the queue.
-/

namespace Bullet.Lib.RecentHistory

variable {α β : Type*} {size : ℕ} {h : List α} {q : List α} {x : α}

/-- Reading a queue at a computed index; `none` is an index outside of it. -/
def readAt (q : List α) (i : Int) : Option α :=
  if 0 ≤ i then q[i.toNat]? else none

/-- The queue that keeps the last `size` values of a history, newest first. -/
def recent (size : ℕ) (h : List α) : List α := (h.take size).reverse

@[simp] theorem length_recent : (recent size h).length = min size h.length := by
  rw [recent, List.length_reverse, List.length_take]

theorem getLast?_recent_cons (hSize : 0 < size) : (recent size (x :: h)).getLast? = some x := by
  obtain ⟨n, rfl⟩ := Nat.exists_eq_add_of_lt hSize
  rw [recent, List.getLast?_reverse, Nat.zero_add, List.take_succ_cons]
  rfl

/-- A push, and a pop when the queue grows beyond its size. -/
theorem recent_push :
    recent size (x :: h) =
      if size < (recent size h ++ [x]).length then (recent size h ++ [x]).drop 1
      else recent size h ++ [x] := by
  have hPush : recent size h ++ [x] = (x :: h.take size).reverse := by
    rw [recent, List.reverse_cons]
  rw [hPush, List.length_reverse, List.length_cons, List.length_take, List.drop_reverse, recent]
  split
  · next hLt =>
    cases size with
    | zero => simp
    | succ n =>
      have hMin : min (n + 1) h.length + 1 - 1 = n + 1 := by omega
      rw [List.length_cons, List.length_take, hMin, List.take_succ_cons, List.take_succ_cons,
        List.take_take, Nat.min_eq_left (Nat.le_succ n)]
  · next hLt =>
    cases size with
    | zero =>
      rw [Nat.zero_min] at hLt
      exact absurd Nat.zero_lt_one hLt
    | succ n =>
      rw [List.take_succ_cons, List.take_of_length_le (by omega), List.take_of_length_le (by omega)]

/-- The `j`-th newest value, if the queue still holds it. -/
theorem readAt_recent {j : Int} (hPos : 1 ≤ j) :
    readAt (recent size h) ((recent size h).length - j) =
      if j ≤ size then h[(j - 1).toNat]? else none := by
  obtain ⟨k, rfl⟩ : ∃ k : ℕ, j = k + 1 := ⟨(j - 1).toNat, by omega⟩
  rw [readAt, length_recent, Int.add_sub_cancel, Int.toNat_natCast]
  by_cases hIn : k < min size h.length
  · rw [if_pos (by omega), if_pos (by omega), recent, List.getElem?_reverse (by
      rw [List.length_take]
      omega), List.length_take, List.getElem?_take, if_pos (by omega)]
    congr 1
    omega
  · rw [if_neg (by omega)]
    split
    · rw [List.getElem?_eq_none (by omega)]
    · rfl

/-- The values of the queue that are at least `k` pushes old. -/
theorem mem_take_recent (size k : ℕ) (h : List α) :
    x ∈ (recent size h).take ((recent size h).length - k) ↔
      ∃ i, k ≤ i ∧ i < size ∧ h[i]? = some x := by
  have hTake : (recent size h).take ((recent size h).length - k) = ((h.take size).drop k).reverse := by
    rw [recent, List.take_reverse, List.length_reverse]
    by_cases hLe : k ≤ (h.take size).length
    · rw [Nat.sub_sub_self hLe]
    · rw [List.drop_of_length_le (by omega), List.drop_of_length_le (by omega)]
  rw [hTake, List.mem_reverse, List.mem_iff_getElem?]
  constructor
  · rintro ⟨i, hi⟩
    rw [List.getElem?_drop, List.getElem?_take] at hi
    split at hi
    · next hLt => exact ⟨k + i, Nat.le_add_right k i, hLt, hi⟩
    · cases hi
  · rintro ⟨i, hLe, hLt, hi⟩
    refine ⟨i - k, ?_⟩
    rw [List.getElem?_drop, Nat.add_sub_cancel' hLe, List.getElem?_take, if_pos hLt, hi]

/-- The first position that the probe hits; a probe that fails ends the search. -/
def firstHit (probe : ℕ → Option Bool) : List ℕ → Option (Option ℕ)
  | [] => some none
  | i :: l =>
    match probe i with
    | none => none
    | some true => some (some i)
    | some false => firstHit probe l

theorem firstHit_append_of_miss {probe : ℕ → Option Bool} {l m : List ℕ}
    (h : ∀ i ∈ l, probe i = some false) : firstHit probe (l ++ m) = firstHit probe m := by
  induction l with
  | nil => rfl
  | cons i l ih =>
    rw [List.cons_append, firstHit, h i List.mem_cons_self]
    exact ih fun j hMem => h j (List.mem_cons_of_mem i hMem)

/-- What a search finds. -/
theorem firstHit_eq_some {probe : ℕ → Option Bool} {l : List ℕ} {i : ℕ}
    (h : firstHit probe l = some (some i)) : i ∈ l ∧ probe i = some true := by
  induction l with
  | nil => cases h
  | cons j l ih =>
    rw [firstHit] at h
    split at h
    · cases h
    · next hHit =>
      cases h
      exact ⟨List.mem_cons_self, hHit⟩
    · obtain ⟨hMem, hHit⟩ := ih h
      exact ⟨List.mem_cons_of_mem j hMem, hHit⟩

/-- A search hits something if it meets no failing probe before one that hits. -/
theorem firstHit_isSome_of_hit {probe : ℕ → Option Bool} {l m : List ℕ} {i : ℕ}
    (hBefore : ∀ j ∈ l, probe j ≠ none) (hHit : probe i = some true) :
    ∃ j, firstHit probe (l ++ i :: m) = some (some j) := by
  induction l with
  | nil =>
    rw [List.nil_append, firstHit, hHit]
    exact ⟨i, rfl⟩
  | cons j l ih =>
    rw [List.cons_append, firstHit]
    split
    · next hNone => exact absurd hNone (hBefore j List.mem_cons_self)
    · exact ⟨j, rfl⟩
    · exact ih fun k hMem => hBefore k (List.mem_cons_of_mem j hMem)

theorem firstHit_isSome (probe : ℕ → Option Bool) (l : List ℕ) (h : ∀ i ∈ l, probe i ≠ none) :
    ∃ hit, firstHit probe l = some hit := by
  induction l with
  | nil => exact ⟨none, rfl⟩
  | cons i l ih =>
    rw [firstHit]
    split
    · next hNone => exact absurd hNone (h i List.mem_cons_self)
    · exact ⟨some i, rfl⟩
    · exact ih fun j hMem => h j (List.mem_cons_of_mem i hMem)

/-- Reading the first entries of a list one by one. -/
theorem mapM_range_getElem? {f : ℕ → Option α} {l : List α} {n : ℕ} (hLe : n ≤ l.length)
    (h : ∀ i < n, f i = l[i]?) : (List.range n).mapM f = some (l.take n) := by
  induction n with
  | zero => rfl
  | succ n ih =>
    rw [List.range_succ, List.mapM_append, ih (by omega) fun i hLt => h i (by omega),
      List.take_add_one, Option.bind_eq_bind, Option.bind_some, List.mapM_cons, h n (by omega),
      List.getElem?_eq_getElem (by omega)]
    rfl

theorem range'_split (start n : ℕ) {i : ℕ} (hLow : start ≤ i) (hHigh : i < start + n) :
    ∃ l m, List.range' start n = l ++ i :: m ∧ ∀ j ∈ l, start ≤ j ∧ j < i := by
  obtain ⟨d, rfl⟩ := Nat.exists_eq_add_of_le hLow
  obtain ⟨e, rfl⟩ := Nat.exists_eq_add_of_lt (Nat.add_lt_add_iff_left.mp hHigh)
  refine ⟨List.range' start d, List.range' (start + d + 1) e, ?_, fun j hMem => ?_⟩
  · rw [Nat.add_assoc, ← List.range'_append_1]
    rfl
  · rw [List.mem_range'_1] at hMem
    exact hMem

end Bullet.Lib.RecentHistory
