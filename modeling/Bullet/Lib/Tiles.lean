import Mathlib.Algebra.BigOperators.Group.Finset.Basic
import Mathlib.Data.Nat.Dist
import Mathlib.Order.CompletePartialOrder
import Mathlib.Order.Interval.Finset.Nat
import Bullet.Lib.Blocks

/-! # Tiles

A tile takes some columns of a block of rows. Tiles are laid over an interval of rows if no two of
them share a cell, their blocks are the same or apart, and every row is in use. The rows in use are
then the lengths of the different blocks, which a walk in the order of the starts adds up, and so
does a table of the lengths by their starts.
-/

namespace Bullet.Lib.Tiles

open Blocks

structure Tile (κ : Type*) where
  rows : Block
  cols : Set κ

variable {κ : Type*} {a b : Tile κ} {l m : List (Tile κ)} {lo mid hi : ℕ}

/-- The tiles share no cell. -/
def Tile.Clear (a b : Tile κ) : Prop := a.rows.Apart b.rows ∨ Disjoint a.cols b.cols

theorem Tile.Clear.symm (h : a.Clear b) : b.Clear a := h.imp Or.symm fun hCols => hCols.symm

structure Fit (l : List (Tile κ)) : Prop where
  filled : ∀ a ∈ l, 0 < a.rows.len
  aligned : ∀ a ∈ l, ∀ b ∈ l, a.rows = b.rows ∨ a.rows.Apart b.rows
  clear : l.Pairwise Tile.Clear

structure Laid (lo hi : ℕ) (l : List (Tile κ)) : Prop extends Fit l where
  le : lo ≤ hi
  inside : ∀ a ∈ l, a.rows.Inside lo hi
  covers : ∀ i, lo ≤ i → i < hi → ∃ a ∈ l, a.rows.start ≤ i ∧ i < a.rows.stop

theorem Fit.perm (h : Fit l) (hPerm : m.Perm l) : Fit m where
  filled a ha := h.filled a (hPerm.subset ha)
  aligned a ha b hb := h.aligned a (hPerm.subset ha) b (hPerm.subset hb)
  clear := hPerm.symm.pairwise h.clear Tile.Clear.symm

theorem Fit.append (h : Fit l) (h' : Fit m) (hApart : ∀ a ∈ l, ∀ b ∈ m, a.rows.Apart b.rows) :
    Fit (l ++ m) where
  filled a ha := (List.mem_append.mp ha).elim (h.filled a) (h'.filled a)
  aligned := by
    intro a ha b hb
    rcases List.mem_append.mp ha with ha | ha <;> rcases List.mem_append.mp hb with hb | hb
    · exact h.aligned a ha b hb
    · exact Or.inr (hApart a ha b hb)
    · exact Or.inr (hApart b hb a ha).symm
    · exact h'.aligned a ha b hb
  clear := List.pairwise_append.mpr
    ⟨h.clear, h'.clear, fun a ha b hb => Or.inl (hApart a ha b hb)⟩

/-- The start of a block tells which one it is. -/
theorem Fit.rows_eq (h : Fit l) (ha : a ∈ l) (hb : b ∈ l) (hStart : a.rows.start = b.rows.start) :
    a.rows = b.rows := by
  rcases h.aligned a ha b hb with hEq | hApart
  · exact hEq
  · have hPosA := h.filled a ha
    have hPosB := h.filled b hb
    rw [Block.Apart, Block.stop, Block.stop] at hApart
    omega

theorem Laid.nil : Laid lo lo ([] : List (Tile κ)) where
  filled := by simp
  aligned := by simp
  clear := List.Pairwise.nil
  le := le_rfl
  inside := by simp
  covers i hLow hHigh := absurd hLow (Nat.not_le.mpr hHigh)

theorem Laid.perm (h : Laid lo hi l) (hPerm : m.Perm l) : Laid lo hi m where
  toFit := h.toFit.perm hPerm
  le := h.le
  inside a ha := h.inside a (hPerm.subset ha)
  covers i hLow hHigh := by
    obtain ⟨a, ha, hRow⟩ := h.covers i hLow hHigh
    exact ⟨a, hPerm.symm.subset ha, hRow⟩

theorem Laid.append (h : Laid lo mid l) (h' : Laid mid hi m) : Laid lo hi (l ++ m) where
  toFit := h.toFit.append h'.toFit fun a ha b hb =>
    Or.inl ((h.inside a ha).2.trans (h'.inside b hb).1)
  le := h.le.trans h'.le
  inside := by
    intro a ha
    rcases List.mem_append.mp ha with ha | ha
    · exact ⟨(h.inside a ha).1, (h.inside a ha).2.trans h'.le⟩
    · exact ⟨h.le.trans (h'.inside a ha).1, (h'.inside a ha).2⟩
  covers := by
    intro i hLow hHigh
    rcases Nat.lt_or_ge i mid with hBelow | hAbove
    · obtain ⟨a, ha, hRow⟩ := h.covers i hLow hBelow
      exact ⟨a, List.mem_append_left _ ha, hRow⟩
    · obtain ⟨a, ha, hRow⟩ := h'.covers i hAbove hHigh
      exact ⟨a, List.mem_append_right _ ha, hRow⟩

/-- Tiles side by side on the same rows. -/
theorem Laid.shelf {rows : Block} (hLen : 0 < rows.len) (hSome : l ≠ [])
    (hRows : ∀ a ∈ l, a.rows = rows) (hCols : l.Pairwise fun a b => Disjoint a.cols b.cols) :
    Laid rows.start rows.stop l where
  filled a ha := hRows a ha ▸ hLen
  aligned a ha b hb := Or.inl ((hRows a ha).trans (hRows b hb).symm)
  clear := hCols.imp fun h => Or.inr h
  le := Nat.le_add_right _ _
  inside a ha := hRows a ha ▸ ⟨le_rfl, le_rfl⟩
  covers i hLow hHigh := by
    obtain ⟨a, ha⟩ := List.exists_mem_of_ne_nil l hSome
    exact ⟨a, ha, hRows a ha ▸ ⟨hLow, hHigh⟩⟩

theorem Laid.single (hLen : 0 < a.rows.len) : Laid a.rows.start a.rows.stop [a] :=
  Laid.shelf hLen (List.cons_ne_nil _ _) (by simp) (List.pairwise_singleton _ _)

/-! ## Towards one side -/

/-- Tiles laid from row `i` to row `j`, upwards or downwards. -/
def Swept (up : Bool) (i j : ℕ) (l : List (Tile κ)) : Prop :=
  if up = true then Laid i j l else Laid j i l

/-- The block has its ends at the rows `i` and `j`. -/
def Spans (up : Bool) (i j : ℕ) (rows : Block) : Prop :=
  if up = true then rows.start = i ∧ rows.stop = j else rows.start = j ∧ rows.stop = i

section Swept

variable {up : Bool} {i j k : ℕ} {rows : Block}

theorem Swept.nil : Swept up i i ([] : List (Tile κ)) := by
  cases up <;> exact Laid.nil

theorem Swept.perm (h : Swept up i j l) (hPerm : m.Perm l) : Swept up i j m := by
  cases up <;> exact Laid.perm h hPerm

theorem Swept.append (h : Swept up i j l) (h' : Swept up j k m) : Swept up i k (l ++ m) := by
  cases up with
  | true => exact Laid.append h h'
  | false => exact (Laid.append h' h).perm List.perm_append_comm

theorem Swept.dist_append (h : Swept up i j l) (h' : Swept up j k m) :
    Nat.dist i j + Nat.dist j k = Nat.dist i k := by
  cases up with
  | true =>
    have hLe := Laid.le h
    have hLe' := Laid.le h'
    rw [Nat.dist, Nat.dist, Nat.dist]
    omega
  | false =>
    have hLe := Laid.le h
    have hLe' := Laid.le h'
    rw [Nat.dist, Nat.dist, Nat.dist]
    omega

theorem Spans.unique {rows' : Block} (h : Spans up i j rows) (h' : Spans up i j rows') :
    rows = rows' := by
  cases rows
  cases rows'
  cases up <;> simp only [Spans, Block.stop, if_pos, Bool.false_eq_true, if_false] at h h' <;>
    simp only [Block.mk.injEq] <;> omega

theorem Spans.dist_eq (h : Spans up i j rows) : Nat.dist i j = rows.len := by
  cases up <;> simp only [Spans, Block.stop, if_pos, Bool.false_eq_true, if_false] at h <;>
    rw [Nat.dist] <;> omega

theorem Swept.shelf (hSpans : Spans up i j rows) (hLen : 0 < rows.len) (hSome : l ≠ [])
    (hRows : ∀ a ∈ l, a.rows = rows) (hCols : l.Pairwise fun a b => Disjoint a.cols b.cols) :
    Swept up i j l := by
  have hLaid := Laid.shelf hLen hSome hRows hCols
  cases up with
  | true =>
    obtain ⟨rfl, rfl⟩ := hSpans
    exact hLaid
  | false =>
    obtain ⟨rfl, rfl⟩ := hSpans
    exact hLaid

/-- A block that goes on where the tiles end starts at none of their starts. -/
theorem Swept.start_ne (h : Swept up i j l) (hSpans : Spans up j k rows) (hLen : 0 < rows.len)
    (ha : a ∈ l) : a.rows.start ≠ rows.start := by
  cases up with
  | true =>
    have hPos := (Laid.toFit h).filled a ha
    have hInside := (Laid.inside h a ha).2
    obtain ⟨hStart, -⟩ := hSpans
    rw [Block.stop] at hInside
    omega
  | false =>
    have hInside := (Laid.inside h a ha).1
    obtain ⟨-, hStop⟩ := hSpans
    rw [Block.stop] at hStop
    omega

end Swept

/-! ## The rows in use -/

def height (l : List (Tile κ)) : ℕ := ∑ b ∈ (l.map Tile.rows).toFinset, b.len

theorem height_perm (hPerm : m.Perm l) : height m = height l := by
  rw [height, height, List.toFinset_eq_of_perm _ _ (hPerm.map _)]

/-- Tiles that fit together use the rows of their blocks, each once. -/
theorem Fit.card (h : Fit l) :
    ((l.map Tile.rows).toFinset.biUnion fun b => Finset.Ico b.start b.stop).card = height l := by
  rw [Finset.card_biUnion, height]
  · exact Finset.sum_congr rfl fun b _ => by rw [Nat.card_Ico, Block.stop, Nat.add_sub_cancel_left]
  · intro b hb c hc hNe
    obtain ⟨t, ht, rfl⟩ := List.mem_map.mp (List.mem_toFinset.mp hb)
    obtain ⟨u, hu, rfl⟩ := List.mem_map.mp (List.mem_toFinset.mp hc)
    refine Finset.disjoint_left.mpr fun i hi hi' => ?_
    rw [Finset.mem_Ico] at hi hi'
    rcases (h.aligned t ht u hu).resolve_left hNe with hApart | hApart <;> omega

theorem Laid.height_eq (h : Laid lo hi l) : height l = hi - lo := by
  rw [← h.card, ← Nat.card_Ico]
  congr 1
  ext i
  simp only [Finset.mem_biUnion, List.mem_toFinset, List.mem_map, Finset.mem_Ico]
  constructor
  · rintro ⟨b, ⟨a, ha, rfl⟩, hRow⟩
    obtain ⟨hLow, hHigh⟩ := h.inside a ha
    omega
  · rintro ⟨hLow, hHigh⟩
    obtain ⟨a, ha, hRow⟩ := h.covers i hLow hHigh
    exact ⟨a.rows, ⟨a, ha, rfl⟩, hRow⟩

theorem Swept.dist_eq {up : Bool} {i j : ℕ} (h : Swept up i j l) : Nat.dist i j = height l := by
  cases up with
  | true =>
    have hLe := Laid.le h
    rw [Laid.height_eq h, Nat.dist]
    omega
  | false =>
    have hLe := Laid.le h
    rw [Laid.height_eq h, Nat.dist]
    omega

theorem height_append (h : Fit (l ++ m)) (hApart : ∀ a ∈ l, ∀ b ∈ m, a.rows.Apart b.rows) :
    height (l ++ m) = height l + height m := by
  rw [height, List.map_append, List.toFinset_append, Finset.sum_union]
  · rfl
  · rw [Finset.disjoint_left]
    intro b hb hb'
    simp only [List.mem_toFinset, List.mem_map] at hb hb'
    obtain ⟨t, ht, rfl⟩ := hb
    obtain ⟨u, hu, hEq⟩ := hb'
    have hPos := h.filled t (List.mem_append_left _ ht)
    have hRows := hApart t ht u hu
    rw [hEq, Block.Apart, Block.stop] at hRows
    omega

/-! ## Two ways to count them -/

section Count

variable {blocks : List Block}

/-- The lengths that a walk adds up where the start changes. -/
def changes : Option ℕ → List Block → ℕ
  | _, [] => 0
  | last, b :: l => (if last = some b.start then 0 else b.len) + changes (some b.start) l

theorem changes_eq_filter {last : Option ℕ}
    (hSame : ∀ b ∈ blocks, ∀ c ∈ blocks, b.start = c.start → b = c)
    (hSorted : blocks.Pairwise fun b c => b.start ≤ c.start)
    (hLast : ∀ i, last = some i → ∀ b ∈ blocks, i ≤ b.start) :
    changes last blocks = ∑ b ∈ blocks.toFinset.filter fun b => last ≠ some b.start, b.len := by
  induction blocks generalizing last with
  | nil => rfl
  | cons b blocks ih =>
    obtain ⟨hBehind, hSortedTail⟩ := List.pairwise_cons.mp hSorted
    have hRest : changes (some b.start) blocks =
        ∑ c ∈ blocks.toFinset.filter fun c => some b.start ≠ some c.start, c.len :=
      ih (fun c hc d hd => hSame c (List.mem_cons_of_mem _ hc) d (List.mem_cons_of_mem _ hd))
        hSortedTail (by rintro i ⟨⟩ c hc; exact hBehind c hc)
    rw [changes, hRest, List.toFinset_cons]
    split
    · next hEq => rw [Nat.zero_add, hEq, Finset.filter_insert, if_neg (by simp)]
    · next hNe =>
      have hAll : (insert b blocks.toFinset).filter (fun c => last ≠ some c.start) =
          insert b (blocks.toFinset.filter fun c => some b.start ≠ some c.start) := by
        ext c
        simp only [Finset.mem_filter, Finset.mem_insert, List.mem_toFinset, ne_eq, Option.some_inj]
        constructor
        · rintro ⟨rfl | hc, -⟩
          · exact Or.inl rfl
          · refine (eq_or_ne c b).imp id fun hOther => ⟨hc, fun hStart => hOther ?_⟩
            exact hSame c (List.mem_cons_of_mem _ hc) b List.mem_cons_self hStart.symm
        · rintro (rfl | ⟨hc, hStart⟩)
          · exact ⟨Or.inl rfl, hNe⟩
          · refine ⟨Or.inr hc, fun hEq => ?_⟩
            have hFirst := hLast _ hEq b List.mem_cons_self
            exact hStart (le_antisymm (hBehind c hc) hFirst)
      rw [hAll, Finset.sum_insert (by simp)]

/-- A walk in the order of the starts counts each block once. -/
theorem changes_eq (hSame : ∀ b ∈ blocks, ∀ c ∈ blocks, b.start = c.start → b = c)
    (hSorted : blocks.Pairwise fun b c => b.start ≤ c.start) :
    changes none blocks = ∑ b ∈ blocks.toFinset, b.len := by
  rw [changes_eq_filter hSame hSorted (by simp), Finset.filter_true_of_mem (by simp)]

/-- The lengths by their starts. -/
def table (n : ℕ) (blocks : List Block) : List ℕ :=
  blocks.foldl (fun t b => t.set b.start b.len) (List.replicate n 0)

theorem table_append_singleton {n : ℕ} {b : Block} :
    table n (blocks ++ [b]) = (table n blocks).set b.start b.len := by
  rw [table, List.foldl_append]
  rfl

theorem length_table {n : ℕ} : (table n blocks).length = n := by
  induction blocks using List.reverseRecOn with
  | nil => exact List.length_replicate
  | append_singleton blocks b ih => rw [table_append_singleton, List.length_set, ih]

theorem getElem?_table {n i : ℕ} (hi : i < n) : (table n blocks)[i]? =
    some (((blocks.reverse.find? fun b => b.start = i).map Block.len).getD 0) := by
  induction blocks using List.reverseRecOn with
  | nil => simp [table, hi]
  | append_singleton blocks b ih =>
    rw [table_append_singleton, List.getElem?_set, length_table, List.reverse_append,
      List.reverse_singleton, List.singleton_append, List.find?_cons]
    by_cases hEq : b.start = i
    · simp [hEq, hi]
    · simp [hEq, ih]

theorem sum_table {n : ℕ} (hSame : ∀ b ∈ blocks, ∀ c ∈ blocks, b.start = c.start → b = c)
    (hStart : ∀ b ∈ blocks, b.start < n) :
    (table n blocks).sum = ∑ b ∈ blocks.toFinset, b.len := by
  induction blocks using List.reverseRecOn with
  | nil => simp [table]
  | append_singleton blocks b ih =>
    have hHead : ∀ c ∈ blocks, c ∈ blocks ++ [b] := fun c hc => List.mem_append_left _ hc
    have hLast : b ∈ blocks ++ [b] := List.mem_append_right _ (List.mem_singleton_self b)
    have hSum := ih (fun c hc d hd => hSame c (hHead c hc) d (hHead d hd))
      fun c hc => hStart c (hHead c hc)
    have hLt : b.start < (table n blocks).length := by
      rw [length_table]
      exact hStart b hLast
    have hOld : (table n blocks).sum =
        ((table n blocks).take b.start).sum + ((table n blocks)[b.start] +
          ((table n blocks).drop (b.start + 1)).sum) := by
      conv_lhs => rw [← List.take_append_drop b.start (table n blocks), List.sum_append,
        List.drop_eq_getElem_cons hLt, List.sum_cons]
    have hValue : (table n blocks)[b.start]? =
        some (((blocks.reverse.find? fun c => c.start = b.start).map Block.len).getD 0) :=
      getElem?_table (hStart b hLast)
    rw [List.getElem?_eq_getElem hLt, Option.some_inj] at hValue
    rw [table_append_singleton, List.sum_set, if_pos hLt, List.toFinset_append,
      List.toFinset_cons, List.toFinset_nil]
    by_cases hMem : b ∈ blocks
    · have hFound : (blocks.reverse.find? fun c => c.start = b.start) = some b := by
        obtain ⟨c, hc⟩ := Option.isSome_iff_exists.mp (List.find?_isSome.mpr
          ⟨b, List.mem_reverse.mpr hMem, decide_eq_true rfl⟩ :
            (blocks.reverse.find? fun c => c.start = b.start).isSome)
        have hEq := hSame c (hHead c (List.mem_reverse.mp (List.mem_of_find?_eq_some hc))) b hLast
          (by simpa using List.find?_some hc)
        rw [hc, hEq]
      have hUnion : blocks.toFinset ∪ insert b ∅ = blocks.toFinset :=
        Finset.union_eq_left.mpr (by simpa using hMem)
      rw [hFound] at hValue
      rw [hUnion, ← hSum, hOld, hValue]
      exact Nat.add_assoc _ _ _
    · have hFound : (blocks.reverse.find? fun c => c.start = b.start) = none := by
        rw [List.find?_eq_none]
        intro c hc hEq
        rw [List.mem_reverse] at hc
        exact hMem (hSame c (hHead c hc) b hLast (of_decide_eq_true hEq) ▸ hc)
      have hUnion : ∑ c ∈ blocks.toFinset ∪ insert b ∅, c.len =
          ∑ c ∈ blocks.toFinset, c.len + b.len := by
        rw [Finset.sum_union (by simpa using hMem)]
        simp
      rw [hFound] at hValue
      rw [hUnion, ← hSum, hOld, hValue, Option.map_none, Option.getD_none, Nat.zero_add]
      omega

end Count

end Bullet.Lib.Tiles
