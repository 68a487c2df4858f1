import Mathlib.Data.List.Perm.Subperm
import Mathlib.Order.Defs.LinearOrder
import Mathlib.Order.Lattice

/-! # Ordered maps

A map with ordered keys as the list of its entries, greatest key first.
-/

namespace Bullet.Lib

structure OrderedMap (κ α : Type*) [LinearOrder κ] where
  entries : List (κ × α)
  sorted : (entries.map Prod.fst).Pairwise (· > ·)

namespace OrderedMap

variable {κ α : Type*} [LinearOrder κ]

def empty : OrderedMap κ α := ⟨[], List.Pairwise.nil⟩

def keys (m : OrderedMap κ α) : List κ := m.entries.map Prod.fst

/-- The values, greatest key first. -/
def values (m : OrderedMap κ α) : List α := m.entries.map Prod.snd

def find (m : OrderedMap κ α) (k : κ) : Option α := m.entries.lookup k

def setEntry (k : κ) (v : α) : List (κ × α) → List (κ × α)
  | [] => [(k, v)]
  | e :: l => if e.1 < k then (k, v) :: e :: l else if e.1 = k then (k, v) :: l else e :: setEntry k v l

theorem mem_keys_setEntry {k k' : κ} {v : α} {l : List (κ × α)} :
    k' ∈ (setEntry k v l).map Prod.fst ↔ k' = k ∨ k' ∈ l.map Prod.fst := by
  induction l with
  | nil => simp [setEntry]
  | cons e l ih =>
    rw [setEntry]
    split
    · simp
    · split
      · next hEq => simp [hEq]
      · rw [List.map_cons, List.mem_cons, ih, List.map_cons, List.mem_cons]
        tauto

theorem setEntry_sorted {k : κ} {v : α} {l : List (κ × α)}
    (h : (l.map Prod.fst).Pairwise (· > ·)) :
    ((setEntry k v l).map Prod.fst).Pairwise (· > ·) := by
  induction l with
  | nil => exact List.pairwise_singleton _ k
  | cons e l ih =>
    obtain ⟨hHead, hTail⟩ := List.pairwise_cons.mp h
    rw [setEntry]
    split
    · next hLt =>
      refine List.pairwise_cons.mpr ⟨fun k' hMem => ?_, h⟩
      obtain rfl | hMem := List.mem_cons.mp hMem
      · exact hLt
      · exact lt_trans (hHead k' hMem) hLt
    · next hNotLt =>
      split
      · next hEq =>
        rw [hEq] at hHead
        exact List.pairwise_cons.mpr ⟨hHead, hTail⟩
      · next hNe =>
        refine List.pairwise_cons.mpr ⟨fun k' hMem => ?_, ih hTail⟩
        obtain rfl | hMem := mem_keys_setEntry.mp hMem
        · exact lt_of_le_of_ne (not_lt.mp hNotLt) (Ne.symm hNe)
        · exact hHead k' hMem

def set (m : OrderedMap κ α) (k : κ) (v : α) : OrderedMap κ α :=
  ⟨setEntry k v m.entries, setEntry_sorted m.sorted⟩

@[simp] theorem keys_empty : (empty : OrderedMap κ α).keys = [] := rfl

theorem mem_keys_set {m : OrderedMap κ α} {k k' : κ} {v : α} :
    k' ∈ (m.set k v).keys ↔ k' = k ∨ k' ∈ m.keys :=
  mem_keys_setEntry

theorem keys_nodup (m : OrderedMap κ α) : m.keys.Nodup :=
  m.sorted.imp fun h => ne_of_gt h

theorem mem_keys_of_find {m : OrderedMap κ α} {k : κ} {v : α} (h : m.find k = some v) :
    k ∈ m.keys := by
  rw [find] at h
  obtain ⟨l, m', hEq, -⟩ := List.lookup_eq_some_iff.mp h
  rw [keys, hEq]
  simp

theorem length_values (m : OrderedMap κ α) : m.values.length = m.keys.length := by
  rw [values, keys, List.length_map, List.length_map]

/-- A map whose keys are all keys of another one is not larger. -/
theorem length_values_le {β : Type*} {m : OrderedMap κ α} {m' : OrderedMap κ β}
    (h : ∀ k ∈ m.keys, k ∈ m'.keys) : m.values.length ≤ m'.values.length := by
  rw [length_values, length_values]
  exact (List.subperm_of_subset m.keys_nodup h).length_le

end OrderedMap
end Bullet.Lib
