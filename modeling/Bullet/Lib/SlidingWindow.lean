import Mathlib.Data.List.Infix

/-! # Sliding windows of a log

A log is a list of entries in the order of their times, oldest first. The window of width `width` at
time `now` keeps the entries that are at most `width` old; in an ordered log they are at its end.
-/

namespace Bullet.Lib.SlidingWindow

variable {α : Type*} {time : α → ℕ} {width now later n : ℕ} {a : α} {l w : List α}

def window (time : α → ℕ) (width now : ℕ) (l : List α) : List α :=
  l.filter fun a => now ≤ time a + width

def Ordered (time : α → ℕ) (l : List α) : Prop := l.Pairwise fun a b => time a ≤ time b

theorem mem_window : a ∈ window time width now l ↔ a ∈ l ∧ now ≤ time a + width := by
  rw [window, List.mem_filter, decide_eq_true_iff]

theorem window_cons_old (hOld : time a + width < now) :
    window time width now (a :: l) = window time width now l :=
  List.filter_cons_of_neg (by simpa using hOld)

/-- An ordered log whose first entry is in the window is in it as a whole. -/
theorem window_cons_young (hOrdered : Ordered time (a :: l)) (hYoung : now ≤ time a + width) :
    window time width now (a :: l) = a :: l := by
  apply List.filter_eq_self.mpr
  intro b hMem
  rw [decide_eq_true_iff]
  obtain rfl | hMem := List.mem_cons.mp hMem
  · exact hYoung
  · exact hYoung.trans (Nat.add_le_add_right ((List.pairwise_cons.mp hOrdered).1 b hMem) width)

theorem window_suffix (hOrdered : Ordered time l) : window time width now l <:+ l := by
  induction l with
  | nil => exact List.suffix_refl _
  | cons a l ih =>
    obtain hOld | hYoung := Nat.lt_or_ge (time a + width) now
    · rw [window_cons_old hOld]
      exact (ih hOrdered.of_cons).trans (List.suffix_cons a l)
    · rw [window_cons_young hOrdered hYoung]

theorem Ordered.window (hOrdered : Ordered time l) :
    Ordered time (SlidingWindow.window time width now l) :=
  List.Pairwise.filter _ hOrdered

/-- A later window is one of the entries that an earlier window kept, and of the newer ones. -/
theorem window_append (hLe : now ≤ later) (m : List α) :
    window time width later (l ++ m) = window time width later (window time width now l ++ m) := by
  rw [window, window, List.filter_append, List.filter_append, window, List.filter_filter]
  congr 1
  apply List.filter_congr
  intro a _
  rw [← Bool.decide_and, decide_eq_decide]
  exact ⟨fun h => ⟨h, hLe.trans h⟩, And.left⟩

theorem ordered_append (hOrdered : Ordered time l) (hLast : ∀ b ∈ l, time b ≤ time a) :
    Ordered time (l ++ [a]) := by
  rw [Ordered, List.pairwise_append]
  refine ⟨hOrdered, List.pairwise_singleton _ a, ?_⟩
  intro b hMem c hC
  rw [List.mem_singleton.mp hC]
  exact hLast b hMem

theorem suffix_drop (hSuffix : w <:+ l) (hShort : w.length ≤ n) : w <:+ l.drop (l.length - n) := by
  rw [List.suffix_iff_eq_drop.mp hSuffix]
  apply List.drop_suffix_drop_left
  omega

theorem drop_suffix (hSuffix : w <:+ l) (hLong : n ≤ w.length) : l.drop (l.length - n) <:+ w := by
  rw [List.suffix_iff_eq_drop.mp hSuffix]
  apply List.drop_suffix_drop_left
  omega

end Bullet.Lib.SlidingWindow
