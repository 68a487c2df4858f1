import Mathlib.Algebra.BigOperators.Fin

/-! # Tables with a size

A table maps each index of a finite type to an entry or to nothing, and has the sum of its
entries' sizes. Writing one index changes the sum by what the entry there changes.
-/

namespace Bullet.Lib.SizedTable

variable {ι β : Type} [Fintype ι] (size : β → ℕ) (t : ι → Option β)

/-- The size of an optional entry. -/
def entrySize (b : Option β) : ℕ := b.elim 0 size

def total : ℕ := ∑ i, entrySize size (t i)

@[simp] theorem entrySize_none : entrySize size none = 0 := rfl

@[simp] theorem entrySize_some (b : β) : entrySize size (some b) = size b := rfl

theorem exists_of_total_pos (h : total size t ≠ 0) : ∃ i b, t i = some b := by
  obtain ⟨i, -, hPos⟩ := Finset.exists_ne_zero_of_sum_ne_zero h
  cases hEntry : t i with
  | none =>
    rw [hEntry] at hPos
    exact absurd rfl hPos
  | some b => exact ⟨i, b, hEntry⟩

@[simp] theorem total_empty : total size (fun _ : ι => (none : Option β)) = 0 :=
  Finset.sum_eq_zero fun _ _ => rfl

variable [DecidableEq ι]

theorem total_update (i : ι) (b : Option β) :
    total size (Function.update t i b) + entrySize size (t i) = total size t + entrySize size b := by
  have hUpdate : (fun j => entrySize size (Function.update t i b j)) =
      Function.update (fun j => entrySize size (t j)) i (entrySize size b) :=
    Function.comp_update (entrySize size) t i b
  rw [total, hUpdate, Finset.sum_update_of_mem (Finset.mem_univ i), total,
    ← Finset.add_sum_erase Finset.univ (fun j => entrySize size (t j)) (Finset.mem_univ i),
    Finset.sdiff_singleton_eq_erase]
  omega

/-- An entry is put where there is none. -/
theorem total_insert {i : ι} (hFree : t i = none) (b : β) :
    total size (Function.update t i (some b)) = total size t + size b := by
  have hTotal := total_update size t i (some b)
  rwa [hFree, entrySize_none, Nat.add_zero] at hTotal

/-- An entry is taken out. -/
theorem total_remove {i : ι} {b : β} (hHeld : t i = some b) :
    total size (Function.update t i none) + size b = total size t := by
  have hTotal := total_update size t i none
  rwa [hHeld] at hTotal

end Bullet.Lib.SizedTable
