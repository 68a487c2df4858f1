import Mathlib.Algebra.GroupWithZero.Nat
import Mathlib.Algebra.Order.Group.Nat
import Mathlib.Data.List.Pairwise

/-! # Blocks on a line

A block is a start and a length. Blocks stacked below a level each end where the one before them
starts, the first one at the level; blocks stacked above a level each start where the one before
them ends.
-/

namespace Bullet.Lib.Blocks

structure Block where
  start : ℕ
  len : ℕ
deriving DecidableEq, Repr

namespace Block

def stop (b : Block) : ℕ := b.start + b.len

def Apart (a b : Block) : Prop := a.stop ≤ b.start ∨ b.stop ≤ a.start

def Inside (lo hi : ℕ) (b : Block) : Prop := lo ≤ b.start ∧ b.stop ≤ hi

end Block

def total (l : List Block) : ℕ := (l.map Block.len).sum

def StackedBelow : ℕ → List Block → Prop
  | _, [] => True
  | level, b :: l => b.stop = level ∧ StackedBelow b.start l

/-- Two lists divided into two parts each. -/
theorem append_perm_append {α : Type*} {a b l a' b' l' : List α} (h : (a ++ b).Perm l)
    (h' : (a' ++ b').Perm l') : ((a ++ a') ++ (b ++ b')).Perm (l ++ l') := by
  refine List.Perm.trans ?_ (h.append h')
  rw [List.append_assoc, List.append_assoc]
  refine List.Perm.append_left _ ?_
  rw [← List.append_assoc, ← List.append_assoc]
  exact List.Perm.append_right _ List.perm_append_comm

variable {level : ℕ} {l : List Block}

@[simp] theorem total_nil : total [] = 0 := rfl

@[simp] theorem total_cons (b : Block) (l : List Block) : total (b :: l) = b.len + total l :=
  List.sum_cons

theorem total_append (l m : List Block) : total (l ++ m) = total l + total m := by
  rw [total, total, total, List.map_append, List.sum_append]

theorem StackedBelow.append {m : List Block} (h : StackedBelow (level + total l) l)
    (h' : StackedBelow level m) : StackedBelow (level + total l) (l ++ m) := by
  induction l with
  | nil => exact h'
  | cons b l ih =>
    obtain ⟨hStop, hRest⟩ := h
    have hStart : b.start = level + total l := by
      rw [total_cons, Block.stop] at hStop
      omega
    rw [hStart] at hRest
    refine ⟨hStop, ?_⟩
    rw [hStart]
    exact ih hRest

theorem StackedBelow.inside (h : StackedBelow level l) :
    ∀ b ∈ l, b.Inside (level - total l) level := by
  induction l generalizing level with
  | nil => exact fun b hb => (List.not_mem_nil hb).elim
  | cons a l ih =>
    obtain ⟨rfl, hRest⟩ := h
    rw [total_cons]
    intro b hb
    rcases List.mem_cons.mp hb with rfl | hb
    · refine ⟨?_, Nat.le_refl _⟩
      rw [Block.stop]
      omega
    · obtain ⟨hLow, hHigh⟩ := ih hRest b hb
      refine ⟨?_, ?_⟩
      · rw [Block.stop]
        omega
      · exact Nat.le_trans hHigh (Nat.le_add_right _ _)

theorem StackedBelow.pairwise_apart (h : StackedBelow level l) : l.Pairwise Block.Apart := by
  induction l generalizing level with
  | nil => exact List.Pairwise.nil
  | cons a l ih => exact List.Pairwise.cons (fun b hb => Or.inr (h.2.inside b hb).2) (ih h.2)

def StackedAbove : ℕ → List Block → Prop
  | _, [] => True
  | level, b :: l => b.start = level ∧ StackedAbove b.stop l

theorem StackedAbove.append {m : List Block} (h : StackedAbove level l)
    (h' : StackedAbove (level + total l) m) : StackedAbove level (l ++ m) := by
  induction l generalizing level with
  | nil => exact h'
  | cons b l ih =>
    obtain ⟨rfl, hRest⟩ := h
    rw [total_cons, ← Nat.add_assoc] at h'
    exact ⟨rfl, ih hRest h'⟩

theorem StackedAbove.inside (h : StackedAbove level l) :
    ∀ b ∈ l, b.Inside level (level + total l) := by
  induction l generalizing level with
  | nil => exact fun b hb => (List.not_mem_nil hb).elim
  | cons a l ih =>
    obtain ⟨rfl, hRest⟩ := h
    rw [total_cons, ← Nat.add_assoc]
    intro b hb
    rcases List.mem_cons.mp hb with rfl | hb
    · exact ⟨Nat.le_refl _, Nat.le_add_right _ _⟩
    · obtain ⟨hLow, hHigh⟩ := ih hRest b hb
      exact ⟨Nat.le_trans (Nat.le_add_right _ _) hLow, hHigh⟩

theorem StackedAbove.pairwise_apart (h : StackedAbove level l) : l.Pairwise Block.Apart := by
  induction l generalizing level with
  | nil => exact List.Pairwise.nil
  | cons a l ih => exact List.Pairwise.cons (fun b hb => Or.inl (h.2.inside b hb).1) (ih h.2)

/-- Blocks stacked above a level leave no gap. -/
theorem StackedAbove.exists_mem (h : StackedAbove level l) {i : ℕ} (hLow : level ≤ i)
    (hHigh : i < level + total l) : ∃ b ∈ l, b.start ≤ i ∧ i < b.stop := by
  induction l generalizing level with
  | nil => exact absurd hHigh (Nat.not_lt.mpr hLow)
  | cons a l ih =>
    obtain ⟨rfl, hRest⟩ := h
    rcases Nat.lt_or_ge i a.stop with hIn | hOut
    · exact ⟨a, List.mem_cons_self, hLow, hIn⟩
    · rw [total_cons, ← Nat.add_assoc] at hHigh
      obtain ⟨b, hb, hBlock⟩ := ih hRest hOut hHigh
      exact ⟨b, List.mem_cons_of_mem _ hb, hBlock⟩

end Bullet.Lib.Blocks
