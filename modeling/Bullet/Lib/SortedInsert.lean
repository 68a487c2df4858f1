import Mathlib.Data.List.Basic

/-! # Insertion from the end

A sorted list takes a new element at its front when it is less than the first, and else behind the
last element that is less than it. The relation need only be an order on the elements at hand.
-/

namespace Bullet.Lib.SortedInsert

variable {α : Type*} {lt : α → α → Prop} {a b : α} {l m : List α}

/-- The relation is transitive on the list. -/
def TransOn (lt : α → α → Prop) (l : List α) : Prop :=
  ∀ a ∈ l, ∀ b ∈ l, ∀ c ∈ l, lt a b → lt b c → lt a c

theorem TransOn.mono (hTrans : TransOn lt l) (hSub : m ⊆ l) : TransOn lt m :=
  fun a hA b hB c hC => hTrans a (hSub hA) b (hSub hB) c (hSub hC)

variable [DecidableRel lt]

/-- Behind the first smaller element from the end, if there is one. -/
def insertBehind (lt : α → α → Prop) [DecidableRel lt] (a : α) : List α → Option (List α)
  | [] => none
  | b :: rest =>
    match insertBehind lt a rest with
    | some rest => some (b :: rest)
    | none => if lt b a then some (b :: a :: rest) else none

def insertFromEnd (lt : α → α → Prop) [DecidableRel lt] (a : α) : List α → List α
  | [] => [a]
  | b :: rest =>
    if lt a b then a :: b :: rest
    else (insertBehind lt a (b :: rest)).getD (b :: rest)

theorem insertBehind_perm (hInsert : insertBehind lt a l = some m) : m.Perm (a :: l) := by
  induction l generalizing m with
  | nil => cases hInsert
  | cons b rest ih =>
    rw [insertBehind] at hInsert
    split at hInsert
    · next hRest =>
      cases hInsert
      exact ((ih hRest).cons b).trans (List.Perm.swap a b rest)
    · split at hInsert
      · cases hInsert
        exact List.Perm.swap a b rest
      · cases hInsert

theorem insertBehind_eq_none (hInsert : insertBehind lt a l = none) : ∀ b ∈ l, ¬ lt b a := by
  induction l with
  | nil =>
    intro b hMem
    cases hMem
  | cons c rest ih =>
    rw [insertBehind] at hInsert
    split at hInsert
    · cases hInsert
    · next hRest =>
      split at hInsert
      · cases hInsert
      · next hNot =>
        intro b hMem
        obtain rfl | hMem := List.mem_cons.mp hMem
        · exact hNot
        · exact ih hRest b hMem

theorem exists_lt_of_insertBehind (hInsert : insertBehind lt a l = some m) : ∃ b ∈ l, lt b a := by
  induction l generalizing m with
  | nil => cases hInsert
  | cons b rest ih =>
    rw [insertBehind] at hInsert
    split at hInsert
    · next hRest =>
      obtain ⟨c, hMem, hLt⟩ := ih hRest
      exact ⟨c, List.mem_cons_of_mem b hMem, hLt⟩
    · split at hInsert
      · next hLt => exact ⟨b, List.mem_cons_self, hLt⟩
      · cases hInsert

theorem insertBehind_sorted (hTrans : TransOn lt (a :: l)) (hNew : ∀ b ∈ l, lt a b ∨ lt b a)
    (hSorted : l.Pairwise lt) (hInsert : insertBehind lt a l = some m) : m.Pairwise lt := by
  induction l generalizing m with
  | nil => cases hInsert
  | cons b rest ih =>
    obtain ⟨hFirst, hRestSorted⟩ := List.pairwise_cons.mp hSorted
    rw [insertBehind] at hInsert
    split at hInsert
    · next later hRest =>
      cases hInsert
      have hPerm := insertBehind_perm hRest
      have hLater := ih (hTrans.mono (List.cons_subset_cons a (List.subset_cons_self b rest)))
        (fun c hMem => hNew c (List.mem_cons_of_mem b hMem)) hRestSorted hRest
      -- The new element stands behind a smaller one, which the first one is less than.
      obtain ⟨c, hMem, hLt⟩ := exists_lt_of_insertBehind hRest
      refine List.pairwise_cons.mpr ⟨fun d hD => ?_, hLater⟩
      obtain rfl | hD := List.mem_cons.mp (hPerm.mem_iff.mp hD)
      · exact hTrans b (by simp) c (by simp [hMem]) d (by simp) (hFirst c hMem) hLt
      · exact hFirst d hD
    · next hRest =>
      split at hInsert
      · next hLt =>
        cases hInsert
        have hAfter : ∀ c ∈ rest, lt a c := fun c hMem =>
          (hNew c (List.mem_cons_of_mem b hMem)).resolve_right (insertBehind_eq_none hRest c hMem)
        refine List.pairwise_cons.mpr ⟨fun c hMem => ?_, List.pairwise_cons.mpr ⟨hAfter, hRestSorted⟩⟩
        obtain rfl | hMem := List.mem_cons.mp hMem
        · exact hLt
        · exact hFirst c hMem
      · cases hInsert

theorem mem_of_mem_insertFromEnd (hMem : b ∈ insertFromEnd lt a l) : b ∈ a :: l := by
  cases l with
  | nil => exact hMem
  | cons c rest =>
    rw [insertFromEnd] at hMem
    split at hMem
    · exact hMem
    · cases hInsert : insertBehind lt a (c :: rest) with
      | none =>
        rw [hInsert] at hMem
        exact List.mem_cons_of_mem a hMem
      | some m =>
        rw [hInsert] at hMem
        exact (insertBehind_perm hInsert).mem_iff.mp hMem

theorem insertFromEnd_perm (hNew : ∀ b ∈ l, lt a b ∨ lt b a) :
    (insertFromEnd lt a l).Perm (a :: l) := by
  cases l with
  | nil => exact List.Perm.refl _
  | cons b rest =>
    rw [insertFromEnd]
    split
    · exact List.Perm.refl _
    · next hNot =>
      have hLess := (hNew b List.mem_cons_self).resolve_left hNot
      cases hInsert : insertBehind lt a (b :: rest) with
      | none => exact absurd hLess (insertBehind_eq_none hInsert b List.mem_cons_self)
      | some m => exact insertBehind_perm hInsert

theorem insertFromEnd_sorted (hTrans : TransOn lt (a :: l)) (hNew : ∀ b ∈ l, lt a b ∨ lt b a)
    (hSorted : l.Pairwise lt) : (insertFromEnd lt a l).Pairwise lt := by
  cases l with
  | nil => exact List.pairwise_singleton lt a
  | cons b rest =>
    rw [insertFromEnd]
    split
    · next hLess =>
      refine List.pairwise_cons.mpr ⟨fun c hMem => ?_, hSorted⟩
      obtain rfl | hMem' := List.mem_cons.mp hMem
      · exact hLess
      · exact hTrans a (by simp) b (by simp) c (by simp [hMem']) hLess
          ((List.pairwise_cons.mp hSorted).1 c hMem')
    · cases hInsert : insertBehind lt a (b :: rest) with
      | none => exact hSorted
      | some m => exact insertBehind_sorted hTrans hNew hSorted hInsert

end Bullet.Lib.SortedInsert
