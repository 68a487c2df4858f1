import Mathlib.Algebra.BigOperators.Group.List.Basic
import Mathlib.Algebra.GroupWithZero.Nat
import Mathlib.Algebra.Order.Group.Nat
import Mathlib.Logic.Function.Basic

/-! # Shares of the members of a list

The total that the members hold, when one of them changes what it holds.
-/

namespace Bullet.Lib.Shares

variable {α : Type*}

def total (l : List α) (f : α → ℕ) : ℕ := (l.map f).sum

@[simp] theorem total_nil (f : α → ℕ) : total [] f = 0 := rfl

@[simp] theorem total_cons (a : α) (l : List α) (f : α → ℕ) : total (a :: l) f = f a + total l f :=
  List.sum_cons

theorem total_congr {l : List α} {f g : α → ℕ} (h : ∀ a ∈ l, f a = g a) : total l f = total l g :=
  congrArg List.sum (List.map_congr_left h)

theorem total_eq_zero {l : List α} {f : α → ℕ} (h : ∀ a ∈ l, f a = 0) : total l f = 0 := by
  induction l with
  | nil => rfl
  | cons a l ih =>
    rw [total_cons, h a List.mem_cons_self, ih fun b hb => h b (List.mem_cons_of_mem _ hb)]

theorem total_perm {l m : List α} (f : α → ℕ) (h : l.Perm m) : total l f = total m f :=
  (h.map f).sum_eq

theorem le_total {l : List α} {a : α} (f : α → ℕ) (h : a ∈ l) : f a ≤ total l f := by
  induction l with
  | nil => cases h
  | cons b l ih =>
    rw [total_cons]
    rcases List.mem_cons.mp h with rfl | h
    · exact Nat.le_add_right _ _
    · exact (ih h).trans (Nat.le_add_left _ _)

/-- What one member gains, the total gains. -/
theorem total_of_gain_of_mem {l : List α} {a : α} {f g : α → ℕ} {gain : ℕ} (hNodup : l.Nodup)
    (hMem : a ∈ l) (hGain : g a = f a + gain) (hRest : ∀ b ∈ l, b ≠ a → g b = f b) :
    total l g = total l f + gain := by
  induction l with
  | nil => cases hMem
  | cons b l ih =>
    obtain ⟨hNotIn, hTail⟩ := List.nodup_cons.mp hNodup
    rw [total_cons, total_cons]
    rcases List.mem_cons.mp hMem with rfl | hMem
    · have hSame : total l g = total l f := total_congr fun c hc =>
        hRest c (List.mem_cons_of_mem _ hc) fun hEq => hNotIn (hEq ▸ hc)
      omega
    · have hHead : g b = f b := hRest b List.mem_cons_self fun hEq => hNotIn (hEq ▸ hMem)
      have hTotal := ih hTail hMem fun c hc => hRest c (List.mem_cons_of_mem _ hc)
      omega

theorem total_of_gain {l : List α} {a : α} {f g : α → ℕ} {gain : ℕ} (hNodup : l.Nodup)
    (hMem : a ∈ l) (hGain : g a = f a + gain) (hRest : ∀ b ≠ a, g b = f b) :
    total l g = total l f + gain :=
  total_of_gain_of_mem hNodup hMem hGain fun b _ => hRest b

/-- Where a growing total first exceeds a bound. -/
theorem exists_crossing {l : List α} {f : α → ℕ} {bound start : ℕ} (hStart : start ≤ bound)
    (hEnd : bound < start + total l f) :
    ∃ before a after, l = before ++ a :: after ∧ start + total before f ≤ bound ∧
      bound < start + total before f + f a := by
  induction l generalizing start with
  | nil =>
    rw [total_nil, Nat.add_zero] at hEnd
    exact absurd hStart (Nat.not_le_of_lt hEnd)
  | cons a l ih =>
    rw [total_cons, ← Nat.add_assoc] at hEnd
    by_cases hNext : start + f a ≤ bound
    · obtain ⟨before, b, after, rfl, hBefore, hAfter⟩ := ih hNext hEnd
      refine ⟨a :: before, b, after, rfl, ?_, ?_⟩
      · rw [total_cons, ← Nat.add_assoc]
        exact hBefore
      · rw [total_cons, ← Nat.add_assoc]
        exact hAfter
    · exact ⟨[], a, l, rfl, hStart, Nat.lt_of_not_le hNext⟩

theorem total_flatMap {β : Type*} (l : List β) (f : β → List α) (g : α → ℕ) :
    total (l.flatMap f) g = total l fun b => total (f b) g := by
  induction l with
  | nil => rfl
  | cons b l ih =>
    rw [List.flatMap_cons, total_cons, ← ih, total, List.map_append, List.sum_append]
    rfl

theorem total_mul (l : List α) (f : α → ℕ) (c : ℕ) : total l (fun a => f a * c) = total l f * c := by
  induction l with
  | nil => exact (Nat.zero_mul c).symm
  | cons a l ih => rw [total_cons, total_cons, ih, Nat.add_mul]

theorem total_le_total {l : List α} {f g : α → ℕ} (h : ∀ a ∈ l, f a ≤ g a) :
    total l f ≤ total l g := by
  induction l with
  | nil => exact Nat.le_refl 0
  | cons a l ih =>
    exact Nat.add_le_add (h a List.mem_cons_self) (ih fun b hb => h b (List.mem_cons_of_mem a hb))

/-- Shares that are rounded down. -/
theorem total_div_le (l : List α) (f : α → ℕ) (c d : ℕ) :
    total l (fun a => f a * c / d) ≤ total l f * c / d := by
  induction l with
  | nil => exact Nat.zero_le _
  | cons a l ih =>
    rw [total_cons, total_cons, Nat.add_mul]
    exact le_trans (Nat.add_le_add_left ih _) Nat.div_add_div_le_add_div

end Bullet.Lib.Shares
