import Mathlib.Data.List.Nodup
import Mathlib.Data.List.Perm.Basic
import Mathlib.Logic.Function.Basic

/-! # Functions updated point by point

A list of distinct keys is walked, and the value at each of them is replaced by one that depends on
it only.
-/

namespace Bullet.Lib.PointUpdates

variable {ι α β : Type*} [DecidableEq ι] {g : α → α} {s : ι → α} {l : List (ι × β)} {i : ι}

/-- The value at `i` changes by `g`. -/
def modifyAt (g : α → α) (s : ι → α) (i : ι) : ι → α := Function.update s i (g (s i))

@[simp] theorem modifyAt_self (g : α → α) (s : ι → α) (i : ι) : modifyAt g s i i = g (s i) :=
  Function.update_self i _ s

theorem modifyAt_of_ne {j : ι} (g : α → α) (s : ι → α) (hNe : j ≠ i) : modifyAt g s i j = s j :=
  Function.update_of_ne hNe _ s

theorem modifyAt_eq_self (h : g (s i) = s i) : modifyAt g s i = s := by
  rw [modifyAt, h, Function.update_eq_self]

/-- The values at the keys of the list change one after the other. -/
def modifyAll (g : α → α) (s : ι → α) (l : List (ι × β)) : ι → α :=
  l.foldl (fun s m => modifyAt g s m.1) s

theorem modifyAll_of_notMem (h : i ∉ l.map Prod.fst) : modifyAll g s l i = s i := by
  induction l generalizing s with
  | nil => rfl
  | cons m l ih =>
    rw [List.map_cons, List.mem_cons, not_or] at h
    exact (ih h.2).trans (modifyAt_of_ne g s h.1)

/-- Each value that is reached changes once. -/
theorem modifyAll_of_mem (hKeys : (l.map Prod.fst).Nodup) (h : i ∈ l.map Prod.fst) :
    modifyAll g s l i = g (s i) := by
  induction l generalizing s with
  | nil => cases h
  | cons m l ih =>
    obtain ⟨hNotIn, hTail⟩ := List.nodup_cons.mp hKeys
    rw [List.map_cons, List.mem_cons] at h
    rcases h with rfl | hIn
    · exact (modifyAll_of_notMem hNotIn).trans (modifyAt_self g s m.1)
    · have hNe : i ≠ m.1 := fun hEq => hNotIn (hEq ▸ hIn)
      exact (ih hTail hIn).trans (congrArg g (modifyAt_of_ne g s hNe))

/-- The value at one key changes first and then those at the others: each of them changes once. -/
theorem modifyAll_others {members : List (ι × β)} {k : ι} (hKeys : (members.map Prod.fst).Nodup)
    (hPerm : l.Perm members) (h : i ∈ members.map Prod.fst) :
    modifyAll g (modifyAt g s k) (l.filter fun m => m.1 ≠ k) i = g (s i) := by
  have hKept : ((l.filter fun m => m.1 ≠ k).map Prod.fst).Nodup :=
    ((hPerm.map Prod.fst).nodup_iff.mpr hKeys).sublist (List.filter_sublist.map _)
  rcases eq_or_ne i k with rfl | hNe
  · rw [modifyAll_of_notMem, modifyAt_self]
    intro hIn
    obtain ⟨m, hM, hEq⟩ := List.mem_map.mp hIn
    exact of_decide_eq_true (List.mem_filter.mp hM).2 hEq
  · rw [modifyAll_of_mem hKept, modifyAt_of_ne g s hNe]
    obtain ⟨m, hM, rfl⟩ := List.mem_map.mp h
    exact List.mem_map_of_mem (List.mem_filter.mpr ⟨hPerm.mem_iff.mpr hM, decide_eq_true hNe⟩)

/-- What the changes keep of each value still holds. -/
theorem modifyAll_induction {P : ι → α → Prop} (hKeep : ∀ i a, P i a → P i (g a))
    (h : ∀ i, P i (s i)) (i : ι) : P i (modifyAll g s l i) := by
  induction l generalizing s with
  | nil => exact h i
  | cons m l ih =>
    have hStep : ∀ j, P j (modifyAt g s m.1 j) := by
      intro j
      rcases eq_or_ne j m.1 with rfl | hNe
      · rw [modifyAt_self]
        exact hKeep m.1 _ (h m.1)
      · rw [modifyAt_of_ne g s hNe]
        exact h j
    exact ih hStep

end Bullet.Lib.PointUpdates
