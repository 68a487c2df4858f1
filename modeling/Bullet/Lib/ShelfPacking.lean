import Mathlib.Algebra.Order.Group.Nat

/-! # Packing a shelf

Items of a given area are put side by side on a shelf of fixed height, one per owner. An item is
rounded up to a whole number of columns, and one that does not fit is left out.
-/

namespace Bullet.Lib.ShelfPacking

variable {α : Type*} {height area length : ℕ}

/-- The columns that an item takes. -/
def width (height area : ℕ) : ℕ :=
  if area % height = 0 then area / height else area / height + 1

theorem area_le_width_mul (height area : ℕ) (h : 0 < height) : area ≤ width height area * height := by
  have hDiv := Nat.div_add_mod' area height
  have hMod := Nat.mod_lt area h
  rw [width]
  split
  · omega
  · rw [Nat.add_mul]
    omega

theorem width_le (hArea : area ≤ length * height) :
    width height area ≤ length := by
  rw [width]
  split
  · exact Nat.div_le_of_le_mul (Nat.mul_comm length height ▸ hArea)
  · rename_i hMod
    have hDiv := Nat.div_add_mod' area height
    have hLt : area / height * height < length * height := by omega
    exact Nat.lt_of_mul_lt_mul_right hLt

structure Item (α : Type*) where
  owner : α
  area : ℕ

structure OpenShelf (α : Type*) where
  filled : ℕ := 0
  owners : List α := []

namespace OpenShelf

def Fits (length height : ℕ) (s : OpenShelf α) (i : Item α) : Prop :=
  i.owner ∉ s.owners ∧ i.area ≤ (length - s.filled) * height

instance [DecidableEq α] (length height : ℕ) (s : OpenShelf α) (i : Item α) :
    Decidable (Fits length height s i) := inferInstanceAs (Decidable (_ ∧ _))

theorem Fits.width_le {s : OpenShelf α} {i : Item α} (h : s.Fits length height i)
    (hFilled : s.filled ≤ length) : s.filled + width height i.area ≤ length := by
  have hWidth := ShelfPacking.width_le h.2
  omega

variable [DecidableEq α]

def place (length height : ℕ) (s : OpenShelf α) (i : Item α) : OpenShelf α :=
  if s.Fits length height i then
    { filled := s.filled + width height i.area, owners := s.owners ++ [i.owner] }
  else s

def pack (length height : ℕ) (s : OpenShelf α) (l : List (Item α)) : OpenShelf α :=
  l.foldl (place length height) s

theorem pack_append (s : OpenShelf α) (l m : List (Item α)) :
    pack length height s (l ++ m) = pack length height (pack length height s l) m :=
  List.foldl_append

theorem place_of_fits {s : OpenShelf α} {i : Item α} (h : s.Fits length height i) :
    s.place length height i =
      { filled := s.filled + width height i.area, owners := s.owners ++ [i.owner] } :=
  if_pos h

theorem place_of_not_fits {s : OpenShelf α} {i : Item α} (h : ¬ s.Fits length height i) :
    s.place length height i = s :=
  if_neg h

end OpenShelf

end Bullet.Lib.ShelfPacking
