import Mathlib.Data.Int.ModEq
import Mathlib.Data.Nat.Periodic
import Mathlib.Data.List.Nodup
import Mathlib.Data.List.Count
import Mathlib.Order.Bounds.Basic

/-! # Tables over a cycle

A search that counts up from a start finds the least number with a property, and finds it within a
period when the property is periodic. A table over a cycle of `m` slots lists, for each slot, the
delays after which the slots that it serves come around; over consecutive times every slot is
served once.
-/

namespace Bullet.Lib.CyclicTable

/-! ## Searching -/

section Search

variable {p : ℕ → Prop} {m n k : ℕ}

theorem exists_isLeast (hm : 0 < m) (hPeriod : Function.Periodic p m) (hSome : ∃ k, p k) (n : ℕ) :
    ∃ k, IsLeast {k | n ≤ k ∧ p k} k ∧ k < n + m := by
  classical
  obtain ⟨j, hj⟩ := hSome
  -- The number from `n` on that is congruent to `j`.
  let c := n + (j + m * n - n) % m
  have hLe : n ≤ m * n := Nat.le_mul_of_pos_left n hm
  have hMod : c % m = j % m := by
    calc
      c % m = (n + (j + m * n - n)) % m := by rw [Nat.add_mod_mod]
      _ = (j + m * n) % m := by congr 1; omega
      _ = j % m := Nat.add_mul_mod_self_left ..
  have hc : p c := by
    rw [← hPeriod.map_mod_nat c, hMod, hPeriod.map_mod_nat j]
    exact hj
  have hEx : ∃ k, n ≤ k ∧ p k := ⟨c, Nat.le_add_right .., hc⟩
  refine ⟨Nat.find hEx, ⟨Nat.find_spec hEx, fun i hi => Nat.find_min' hEx hi⟩, ?_⟩
  calc
    Nat.find hEx ≤ c := Nat.find_min' hEx ⟨Nat.le_add_right .., hc⟩
    _ < n + m := Nat.add_lt_add_left (Nat.mod_lt _ hm) n

/-- A loop that stops at the first number with the property returns at the least one. -/
theorem search_eq {β : Type*} [DecidablePred p] (loop : ℕ → ℕ → Option β) (found : ℕ → Option β)
    (hStep : ∀ fuel j, n ≤ j → j ≤ k →
      loop (fuel + 1) j = if p j then found j else loop fuel (j + 1))
    (hLeast : IsLeast {j | n ≤ j ∧ p j} k) {fuel : ℕ} (hFuel : k < n + fuel) :
    loop fuel n = found k := by
  have hFrom : ∀ d fuel, d ≤ k - n → d < fuel → loop fuel (k - d) = found k := by
    intro d
    induction d with
    | zero =>
      rintro (_ | fuel) - hPos
      · cases hPos
      · rw [Nat.sub_zero, hStep fuel k hLeast.1.1 (Nat.le_refl k), if_pos hLeast.1.2]
    | succ d ih =>
      rintro (_ | fuel) hd hPos
      · cases hPos
      · have hNext : k - (d + 1) + 1 = k - d := by omega
        have hNot : ¬ p (k - (d + 1)) := by
          intro hp
          have hLe : k ≤ k - (d + 1) := hLeast.2 ⟨by omega, hp⟩
          omega
        rw [hStep fuel _ (by omega) (Nat.sub_le ..), if_neg hNot, hNext]
        exact ih fuel (by omega) (Nat.lt_of_succ_lt_succ hPos)
  have hStart : k - (k - n) = n := Nat.sub_sub_self hLeast.1.1
  rw [← hStart]
  exact hFrom (k - n) fuel (Nat.le_refl _) (by omega)

end Search

/-! ## Columns -/

/-- The slot that lies `k` before `i` on the cycle. -/
def back (m i k : ℕ) : ℕ :=
  (((i : ℤ) - k) % m).toNat

/-- The delays of the slots that slot `r` serves. -/
def column (m : ℕ) (slots : List ℕ) (delay : ℕ → ℕ) (r : ℕ) : List ℕ :=
  (slots.filter fun i => back m i (delay i) = r).map delay

variable {m i j k l r t : ℕ} {slots : List ℕ} {delay : ℕ → ℕ}

theorem back_cast (hm : 0 < m) : ((back m i k : ℕ) : ℤ) = ((i : ℤ) - k) % m :=
  Int.toNat_of_nonneg (Int.emod_nonneg _ (Int.natCast_ne_zero.mpr hm.ne'))

theorem back_lt (hm : 0 < m) : back m i k < m := by
  have hLt := Int.emod_lt_of_pos ((i : ℤ) - k) (Int.natCast_pos.mpr hm)
  rw [← back_cast hm] at hLt
  exact Int.ofNat_lt.mp hLt

theorem back_eq_iff (hr : r < m) (hi : i < m) : back m i k = r ↔ (r + k) % m = i := by
  have hm : 0 < m := Nat.zero_lt_of_lt hr
  have hR : (r : ℤ) % m = r := Int.emod_eq_of_lt (Int.natCast_nonneg r) (Int.ofNat_lt.mpr hr)
  have hI : (i : ℤ) % m = i := Int.emod_eq_of_lt (Int.natCast_nonneg i) (Int.ofNat_lt.mpr hi)
  calc
    back m i k = r ↔ (i : ℤ) - k ≡ r [ZMOD m] := by
      rw [Int.ModEq, hR, ← back_cast hm, Int.natCast_inj]
    _ ↔ (m : ℤ) ∣ r - (i - k) := Int.modEq_iff_dvd
    _ ↔ (m : ℤ) ∣ i - (r + k) := by
      rw [← dvd_neg, neg_sub]
      congr! 1
      omega
    _ ↔ (r : ℤ) + k ≡ i [ZMOD m] := Int.modEq_iff_dvd.symm
    _ ↔ (r + k) % m = i := by
      rw [Int.ModEq, hI]
      exact_mod_cast Iff.rfl

theorem back_zero (hr : r < m) : back m r 0 = r :=
  (back_eq_iff hr hr).mpr (Nat.mod_eq_of_lt hr)

/-- Going back twice goes back by the sum. -/
theorem back_back (hm : 0 < m) : back m (back m i k) l = back m i (k + l) := by
  apply Int.natCast_inj.mp
  rw [back_cast hm, back_cast hm, back_cast hm, Int.emod_sub_emod, Int.natCast_add, Int.sub_sub]

theorem mem_column : k ∈ column m slots delay r ↔
    ∃ i ∈ slots, back m i (delay i) = r ∧ delay i = k := by
  simp only [column, List.mem_map, List.mem_filter, decide_eq_true_eq, and_assoc]

@[simp] theorem column_nil : column m [] delay r = [] := rfl

theorem column_append_singleton : column m (slots ++ [i]) delay r =
    column m slots delay r ++ if r = back m i (delay i) then [delay i] else [] := by
  rw [column, List.filter_append, List.map_append, ← column]
  congr 1
  split
  · next h => simp [h]
  · next h => simp [Ne.symm h]

/-- A column lists the delays of the slots that come around after them, once each. -/
theorem count_column (hNodup : slots.Nodup) (hBelow : ∀ i ∈ slots, i < m) (hr : r < m) :
    (column m slots delay r).count k =
      if (r + k) % m ∈ slots ∧ delay ((r + k) % m) = k then 1 else 0 := by
  have hSame : ∀ i ∈ slots, (((· == k) ∘ delay) i && decide (back m i (delay i) = r)) =
      ((i == (r + k) % m) && decide (delay ((r + k) % m) = k)) := by
    intro i hi
    rw [Bool.eq_iff_iff, Function.comp_apply]
    simp only [Bool.and_eq_true, beq_iff_eq, decide_eq_true_eq]
    constructor
    · rintro ⟨rfl, hBack⟩
      have hSlot := (back_eq_iff hr (hBelow i hi)).mp hBack
      rw [hSlot]
      exact ⟨rfl, rfl⟩
    · rintro ⟨rfl, hDelay⟩
      exact ⟨hDelay, (back_eq_iff hr (hBelow _ hi)).mpr (by rw [hDelay])⟩
  rw [column, List.count_eq_countP, List.countP_map, List.countP_filter,
    List.countP_congr fun i hi => iff_of_eq (congrArg (· = true) (hSame i hi))]
  split
  · next h =>
    simp only [h.2, decide_true, Bool.and_true]
    exact List.count_eq_one_of_mem hNodup h.1
  · next h =>
    apply List.countP_eq_zero.mpr
    intro i hi hBoth
    rw [Bool.and_eq_true, beq_iff_eq, decide_eq_true_eq] at hBoth
    exact h ⟨hBoth.1 ▸ hi, hBoth.2⟩

/-- Serving every slot later by `l` moves the columns back by `l`. -/
theorem column_add (hr : r < m) :
    column m slots (fun i => delay i + l) (back m r l) =
      (column m slots delay r).map (· + l) := by
  have hm : 0 < m := Nat.zero_lt_of_lt hr
  rw [column, column, List.map_map]
  congr 1
  apply List.filter_congr
  intro i hi
  rw [decide_eq_decide, ← back_back hm]
  have hBack : back m i (delay i) < m := back_lt hm
  constructor
  · intro hEq
    have hLeft := (back_eq_iff (back_lt hm) hBack).mp hEq
    rw [← hLeft]
    exact (back_eq_iff (back_lt hm) hr).mp rfl
  · rintro hEq
    rw [hEq]

/-! ## Consecutive times -/

/-- Among `n` consecutive numbers, at most a period of them, a slot comes around when it lies less
than `n` after the first. -/
theorem count_range'_mod {a n : ℕ} (hn : n ≤ m) (hr : r < m) :
    ((List.range' a n).map (· % m)).count r = if back m r a < n then 1 else 0 := by
  have hm : 0 < m := Nat.zero_lt_of_lt hr
  have hShift : ∀ j < m, ((a + j) % m = r ↔ j = back m r a) := by
    intro j hj
    rw [Nat.add_comm, ← back_eq_iff hj hr, eq_comm]
  have hCount : ((List.range' a n).map (· % m)).count r = (List.range n).count (back m r a) := by
    rw [List.range'_eq_map_range, List.map_map, List.count_eq_countP, List.countP_map,
      List.count_eq_countP]
    apply List.countP_congr
    intro j hj
    rw [Function.comp_apply, Function.comp_apply, beq_iff_eq, beq_iff_eq]
    exact hShift j (Nat.lt_of_lt_of_le (List.mem_range.mp hj) hn)
  rw [hCount]
  split
  · next hLt => exact List.count_eq_one_of_mem List.nodup_range (List.mem_range.mpr hLt)
  · next hNot => exact List.count_eq_zero.mpr fun hMem => hNot (List.mem_range.mp hMem)

theorem map_mod_mod_range' {a n w : ℕ} (h : a + n ≤ w) :
    (List.range' a n).map (· % w % m) = (List.range' a n).map (· % m) := by
  apply List.map_congr_left
  intro v hv
  rw [List.mem_range'_1] at hv
  rw [Nat.mod_eq_of_lt (show v < w by omega)]

/-- A counter with `w` values, read modulo `m`: over a period that starts at `a`, the values past the
last one start again at 0. -/
theorem count_range'_ring {a w : ℕ} (hr : r < m) (hRing : m ≤ w) (hStart : a ≤ w) :
    ((List.range' a m).map (· % w % m)).count r =
      1 - (if back m r w < a + m - w then 1 else 0) + if r < a + m - w then 1 else 0 := by
  have hAll := count_range'_mod (a := a) (Nat.le_refl m) hr
  rw [if_pos (back_lt (Nat.zero_lt_of_lt hr))] at hAll
  rcases Nat.le_total (a + m) w with hBelow | hPast
  · rw [map_mod_mod_range' hBelow, hAll, Nat.sub_eq_zero_of_le hBelow, if_neg (Nat.not_lt_zero _),
      if_neg (Nat.not_lt_zero _)]
  · obtain ⟨k, hk⟩ := Nat.exists_eq_add_of_le hStart
    have hSplit : List.range' a m = List.range' a k ++ List.range' w (a + m - w) := by
      have hLength : m = k + (a + m - w) := by omega
      rw [hk, List.range'_append_1, ← hk, ← hLength]
    have hWrapped : (List.range' w (a + m - w)).map (· % w % m) =
        (List.range' 0 (a + m - w)).map (· % m) := by
      rw [List.range'_eq_map_range, List.range'_eq_map_range, List.map_map, List.map_map]
      apply List.map_congr_left
      intro j hj
      have hLt := List.mem_range.mp hj
      rw [Function.comp_apply, Function.comp_apply, Nat.add_mod_left,
        Nat.mod_eq_of_lt (show j < w by omega), Nat.zero_add]
    rw [hSplit, List.map_append, List.count_append, count_range'_mod (a := w) (by omega) hr] at hAll
    rw [hSplit, List.map_append, List.count_append, map_mod_mod_range' (by omega), hWrapped,
      count_range'_mod (a := 0) (by omega) hr, back_zero hr]
    omega

/-- The times at which the slots come around that time `a` serves. -/
def served (m : ℕ) (slots : List ℕ) (delay : ℕ → ℕ) (a : ℕ) : List ℕ :=
  (column m slots delay (a % m)).map (a + ·)

theorem count_served (hNodup : slots.Nodup) (hBelow : ∀ i ∈ slots, i < m) (hm : 0 < m) (a : ℕ) :
    (served m slots delay a).count t =
      if t % m ∈ slots ∧ a + delay (t % m) = t then 1 else 0 := by
  rcases Nat.lt_or_ge t a with hLt | hLe
  · rw [if_neg (by omega), List.count_eq_zero]
    intro hMem
    obtain ⟨k, -, hk⟩ := List.mem_map.mp hMem
    omega
  · obtain ⟨k, rfl⟩ := Nat.exists_eq_add_of_le hLe
    have hSlot : (a % m + k) % m = (a + k) % m := Nat.mod_add_mod ..
    rw [served, List.count_map_of_injective _ _ (fun _ _ => Nat.add_left_cancel),
      count_column hNodup hBelow (Nat.mod_lt a hm), hSlot]
    simp only [Nat.add_left_cancel_iff]

/-- Over consecutive times, every slot that comes around is served once. -/
theorem count_served_run (hNodup : slots.Nodup) (hBelow : ∀ i ∈ slots, i < m) (hm : 0 < m)
    (a n : ℕ) :
    ((List.range' a n).flatMap (served m slots delay)).count t =
      if t % m ∈ slots ∧ a + delay (t % m) ≤ t ∧ t < a + n + delay (t % m) then 1 else 0 := by
  induction n with
  | zero =>
    rw [List.range'_zero, List.flatMap_nil, List.count_nil, if_neg]
    omega
  | succ n ih =>
    rw [List.range'_1_concat, List.flatMap_append, List.count_append, ih, List.flatMap_singleton,
      count_served hNodup hBelow hm]
    by_cases hSlot : t % m ∈ slots
    · simp only [hSlot, true_and]
      split_ifs <;> omega
    · simp only [hSlot, false_and, if_false]

end Bullet.Lib.CyclicTable
