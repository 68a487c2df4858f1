import Mathlib.Algebra.BigOperators.Group.List.Basic
import Mathlib.Algebra.GroupWithZero.Nat
import Mathlib.Algebra.Order.Group.Int
import Mathlib.Algebra.Ring.Int.Defs
import Mathlib.Data.List.Chain

/-! # Run lengths of a set of numbers

An increasing list of numbers marks the places of a pattern. The run lengths of the pattern are
signed: a positive entry stands for so many marked places, a negative one for unmarked ones.
-/

namespace Bullet.Lib.RunLength

variable {start n prev m : ℕ} {l : List ℕ} {runs : List ℤ}

/-- The places from `start` to the last number: those in the list are marked. -/
def pattern : ℕ → List ℕ → List Bool
  | _, [] => []
  | start, n :: l => List.replicate (n - start) false ++ true :: pattern (n + 1) l

def piece (n : ℤ) : List Bool := List.replicate n.natAbs (decide (0 < n))

/-- The pattern that the run lengths stand for. -/
def expand (runs : List ℤ) : List Bool := runs.flatMap piece

/-- The signs of neighbouring entries differ. -/
def Alternates (runs : List ℤ) : Prop := runs.IsChain fun a b => a * b < 0

instance (runs : List ℤ) : Decidable (Alternates runs) :=
  inferInstanceAs (Decidable (runs.IsChain _))

/-- The run lengths after a run of `n` marked places that ends at `prev`. -/
def encode : ℕ → ℕ → List ℕ → List ℤ
  | n, _, [] => [(n : ℤ)]
  | n, prev, m :: l =>
    if m = prev + 1 then encode (n + 1) m l
    else (n : ℤ) :: (prev + 1 - m : ℤ) :: encode 1 m l

@[simp] theorem expand_nil : expand [] = [] := rfl

@[simp] theorem expand_cons (n : ℤ) (runs : List ℤ) : expand (n :: runs) = piece n ++ expand runs :=
  List.flatMap_cons

theorem expand_append (runs runs' : List ℤ) : expand (runs ++ runs') = expand runs ++ expand runs' :=
  List.flatMap_append

theorem piece_natCast (n : ℕ) : piece n = List.replicate n true := by
  cases n with
  | zero => rfl
  | succ n =>
    rw [piece, Int.natAbs_natCast, decide_eq_true (by omega)]

theorem piece_neg {n : ℤ} (hNeg : n < 0) : piece n = List.replicate n.natAbs false := by
  rw [piece, decide_eq_false (by omega)]

/-- The sum of the positive entries is the number of marked places. -/
theorem sum_positive (runs : List ℤ) :
    (runs.filter fun n => 0 < n).sum = (expand runs).count true := by
  induction runs with
  | nil => rfl
  | cons n runs ih =>
    rw [expand_cons, List.count_append, Int.natCast_add, ← ih]
    obtain hPos | hNot := lt_or_ge 0 n
    · rw [List.filter_cons_of_pos (by simpa using hPos), List.sum_cons, piece,
        decide_eq_true hPos, List.count_replicate_self]
      omega
    · rw [List.filter_cons_of_neg (by simpa using hNot), piece, decide_eq_false (by omega),
        List.count_replicate, if_neg (by decide)]
      omega

/-- The sum of the magnitudes of the negative entries is the number of unmarked places. -/
theorem sum_negative (runs : List ℤ) :
    ((runs.filter fun n => n < 0).map Int.natAbs).sum = (expand runs).count false := by
  induction runs with
  | nil => rfl
  | cons n runs ih =>
    rw [expand_cons, List.count_append, ← ih]
    obtain hNeg | hNot := lt_or_ge n 0
    · rw [List.filter_cons_of_pos (by simpa using hNeg), List.map_cons, List.sum_cons,
        piece_neg hNeg, List.count_replicate_self]
    · rw [List.filter_cons_of_neg (by simpa using hNot)]
      lift n to ℕ using hNot
      rw [piece_natCast, List.count_replicate, if_neg (by decide), Nat.zero_add]

theorem count_pattern_true (start : ℕ) (l : List ℕ) : (pattern start l).count true = l.length := by
  induction l generalizing start with
  | nil => rfl
  | cons n l ih =>
    rw [pattern, List.count_append, List.count_replicate, if_neg (by decide), List.count_cons_self,
      ih, List.length_cons, Nat.zero_add]

theorem expand_encode (hStart : ∀ m ∈ l, prev < m) (hSorted : l.Pairwise (· < ·)) :
    expand (encode n prev l) = List.replicate n true ++ pattern (prev + 1) l := by
  induction l generalizing n prev with
  | nil =>
    rw [encode, expand_cons, expand_nil, piece_natCast]
    rfl
  | cons m l ih =>
    obtain ⟨hFirst, hRest⟩ := List.pairwise_cons.mp hSorted
    have hLess := hStart m List.mem_cons_self
    rw [encode]
    split
    · next hNext =>
      rw [ih hFirst hRest, pattern, hNext, Nat.sub_self, List.replicate_zero, List.nil_append,
        List.replicate_succ', List.append_assoc, List.singleton_append]
    · next hGap =>
      have hNeg : (prev + 1 - m : ℤ) < 0 := by omega
      have hAbs : (prev + 1 - m : ℤ).natAbs = m - (prev + 1) := by omega
      rw [expand_cons, expand_cons, ih hFirst hRest, piece_natCast, piece_neg hNeg, hAbs, pattern]
      rfl

theorem encode_head_pos (hPos : 0 < n) (l : List ℕ) : ∀ a ∈ (encode n prev l).head?, 0 < a := by
  fun_induction encode n prev l with
  | case1 n prev =>
    intro a hMem
    cases hMem
    omega
  | case2 n prev l ih => exact ih (Nat.succ_pos n)
  | case3 n prev m l hGap ih =>
    intro a hMem
    cases hMem
    omega

theorem alternates_encode (hPos : 0 < n) (hStart : ∀ m ∈ l, prev < m)
    (hSorted : l.Pairwise (· < ·)) : Alternates (encode n prev l) := by
  induction l generalizing n prev with
  | nil => exact List.isChain_singleton (n : ℤ)
  | cons m l ih =>
    obtain ⟨hFirst, hRest⟩ := List.pairwise_cons.mp hSorted
    have hLess := hStart m List.mem_cons_self
    rw [encode]
    split
    · exact ih (Nat.succ_pos n) hFirst hRest
    · next hGap =>
      have hNeg : (prev + 1 - m : ℤ) < 0 := by omega
      have hFront : (n : ℤ) * (prev + 1 - m) < 0 :=
        Int.mul_neg_of_pos_of_neg (by omega) hNeg
      refine List.IsChain.cons_cons hFront (List.isChain_cons.mpr ⟨fun a hMem => ?_, ?_⟩)
      · exact Int.mul_neg_of_neg_of_pos hNeg (encode_head_pos Nat.one_pos l a hMem)
      · exact ih Nat.one_pos hFirst hRest

/-- The pattern tells of each place whether it is in the list. -/
theorem pattern_eq_map (hStart : ∀ m ∈ l, start ≤ m) (hSorted : l.Pairwise (· < ·)) (hMem : n ∈ l)
    (hLast : ∀ m ∈ l, m ≤ n) :
    pattern start l = (List.range' start (n + 1 - start)).map fun k => decide (k ∈ l) := by
  induction l generalizing start with
  | nil => cases hMem
  | cons m l ih =>
    obtain ⟨hFirst, hRest⟩ := List.pairwise_cons.mp hSorted
    have hFrom := hStart m List.mem_cons_self
    have hTo := hLast m List.mem_cons_self
    have hSplit : List.range' start (n + 1 - start) =
        List.range' start (m - start) ++ m :: List.range' (m + 1) (n - m) := by
      have hLength : n + 1 - start = (m - start) + (1 + (n - m)) := by omega
      rw [hLength, ← List.range'_append_1, Nat.add_sub_cancel' hFrom, Nat.add_comm 1,
        List.range'_succ]
    rw [pattern, hSplit, List.map_append, List.map_cons, decide_eq_true List.mem_cons_self]
    congr 1
    · rw [eq_comm, List.eq_replicate_iff]
      refine ⟨by rw [List.length_map, List.length_range'], fun b hB => ?_⟩
      obtain ⟨k, hK, rfl⟩ := List.mem_map.mp hB
      have hBefore := (List.mem_range'_1.mp hK).2
      rw [decide_eq_false_iff_not, List.mem_cons, not_or]
      exact ⟨by omega, fun hIn => by have := hFirst k hIn; omega⟩
    · congr 1
      have hOthers : (List.range' (m + 1) (n - m)).map (fun k => decide (k ∈ m :: l)) =
          (List.range' (m + 1) (n - m)).map fun k => decide (k ∈ l) := by
        apply List.map_congr_left
        intro k hK
        have hAfter := (List.mem_range'_1.mp hK).1
        rw [decide_eq_decide, List.mem_cons]
        exact or_iff_right (by omega)
      rw [hOthers]
      obtain rfl | hIn := List.mem_cons.mp hMem
      · -- The last number ends the list.
        have hNil : l = [] := List.eq_nil_iff_forall_not_mem.mpr fun k hK => by
          have hLess := hFirst k hK
          have hLe := hLast k (List.mem_cons_of_mem n hK)
          omega
        rw [hNil, Nat.sub_self]
        rfl
      · rw [ih (fun k hK => hFirst k hK) hRest hIn fun k hK => hLast k (List.mem_cons_of_mem m hK),
          Nat.add_sub_add_right]

end Bullet.Lib.RunLength
