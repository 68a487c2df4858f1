import Mathlib.Data.List.Basic
import Mathlib.Algebra.Order.Group.Nat

/-! # First fit into a budget

Demands are taken in order. One that fits what is left of the budget is granted, another one is
skipped, and once the budget is used up no demand is looked at any more.
-/

namespace Bullet.Lib.FirstFit

variable {b d : ℕ} {l m : List ℕ}

def afterDemand (b d : ℕ) : ℕ := if d ≤ b then b - d else b

def remaining (b : ℕ) (l : List ℕ) : ℕ := l.foldl afterDemand b

/-- How many demands are looked at. -/
def examined : ℕ → List ℕ → ℕ
  | _, [] => 0
  | b, d :: l => if b = 0 then 0 else examined (afterDemand b d) l + 1

@[simp] theorem remaining_nil : remaining b [] = b := rfl

@[simp] theorem remaining_cons : remaining b (d :: l) = remaining (afterDemand b d) l := rfl

theorem remaining_append : remaining b (l ++ m) = remaining (remaining b l) m :=
  List.foldl_append

theorem afterDemand_zero (d : ℕ) : afterDemand 0 d = 0 := by
  rw [afterDemand]
  split
  · exact Nat.zero_sub d
  · rfl

@[simp] theorem remaining_zero (l : List ℕ) : remaining 0 l = 0 := by
  induction l with
  | nil => rfl
  | cons d l ih => rw [remaining_cons, afterDemand_zero, ih]

theorem examined_le_length (b : ℕ) (l : List ℕ) : examined b l ≤ l.length := by
  induction l generalizing b with
  | nil => exact le_rfl
  | cons d l ih =>
    rw [examined, List.length_cons]
    split
    · exact Nat.zero_le _
    · exact Nat.succ_le_succ (ih _)

theorem examined_of_pos (h : 0 < b) : examined b (d :: l) = examined (afterDemand b d) l + 1 :=
  if_neg h.ne'

/-- All demands are looked at exactly when those before the last one leave some budget. -/
theorem examined_eq_length_iff :
    examined b l = l.length ↔ l = [] ∨ 0 < remaining b l.dropLast := by
  induction l generalizing b with
  | nil => exact iff_of_true rfl (Or.inl rfl)
  | cons d l ih =>
    rcases Nat.eq_zero_or_pos b with rfl | hPos
    · refine iff_of_false ?_ ?_
      · rw [examined, if_pos rfl]
        exact (Nat.succ_ne_zero _).symm
      · rintro (hNil | hPos)
        · cases hNil
        · rw [remaining_zero] at hPos
          exact lt_irrefl 0 hPos
    · rw [examined_of_pos hPos, List.length_cons, Nat.succ_inj, ih]
      cases l with
      | nil => exact iff_of_true (Or.inl rfl) (Or.inr hPos)
      | cons e l =>
        rw [List.dropLast_cons_cons, remaining_cons]
        constructor
        · rintro (hNil | hRest)
          · cases hNil
          · exact Or.inr hRest
        · rintro (hNil | hRest)
          · cases hNil
          · exact Or.inr hRest

theorem remaining_take_examined (b : ℕ) (l : List ℕ) :
    remaining b (l.take (examined b l)) = remaining b l := by
  induction l generalizing b with
  | nil => rfl
  | cons d l ih =>
    rcases Nat.eq_zero_or_pos b with rfl | hPos
    · rw [remaining_zero, remaining_zero]
    · rw [examined_of_pos hPos, List.take_succ_cons, remaining_cons, remaining_cons, ih]

end Bullet.Lib.FirstFit
