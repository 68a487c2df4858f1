import Mathlib.Data.List.Basic

/-! # Positions at which a list carries a stamp

`stamped f n l` lists, in order, the positions (counted from `n`) of the entries that `f` accepts,
each with the value `f` gives.
-/

namespace Bullet.Lib.StampedList

variable {α β : Type*} (f : α → Option β)

def stamped (n : Nat) (l : List α) : List (Nat × β) :=
  (l.zipIdx n).filterMap fun entry => (f entry.1).map fun b => (entry.2, b)

@[simp] theorem stamped_nil (n : Nat) : stamped f n [] = [] := rfl

theorem stamped_append (n : Nat) (l m : List α) :
    stamped f n (l ++ m) = stamped f n l ++ stamped f (n + l.length) m := by
  rw [stamped, List.zipIdx_append, List.filterMap_append]
  rfl

theorem stamped_eq_nil {n : Nat} {l : List α} (h : ∀ a ∈ l, f a = none) : stamped f n l = [] := by
  rw [stamped, List.filterMap_eq_nil_iff]
  rintro ⟨a, i⟩ hMem
  rw [h a (List.fst_mem_of_mem_zipIdx hMem), Option.map_none]

theorem mem_stamped {l : List α} {i : Nat} {b : β} :
    (i, b) ∈ stamped f 0 l ↔ ∃ a, l[i]? = some a ∧ f a = some b := by
  rw [stamped, List.mem_filterMap]
  constructor
  · rintro ⟨⟨a, j⟩, hMem, hStamp⟩
    obtain ⟨b', hValue, hPair⟩ := Option.map_eq_some_iff.mp hStamp
    cases hPair
    exact ⟨a, List.mem_zipIdx_iff_getElem?.mp hMem, hValue⟩
  · rintro ⟨a, hEntry, hValue⟩
    exact ⟨(a, i), List.mem_zipIdx_iff_getElem?.mpr hEntry, by rw [hValue, Option.map_some]⟩

/-- No position is stamped twice. -/
theorem stamped_nodup (n : Nat) (l : List α) : ((stamped f n l).map Prod.fst).Nodup := by
  have hSublist : ((stamped f n l).map Prod.fst).Sublist ((l.zipIdx n).map Prod.snd) := by
    rw [stamped, List.map_filterMap]
    induction l generalizing n with
    | nil => exact List.Sublist.refl _
    | cons a l ih =>
      rw [List.zipIdx_cons, List.map_cons, List.filterMap_cons]
      cases f a with
      | none => exact (ih (n + 1)).cons _
      | some b => exact (ih (n + 1)).cons_cons _
  rw [List.zipIdx_map_snd] at hSublist
  exact hSublist.nodup (List.nodup_range' _)

end Bullet.Lib.StampedList
