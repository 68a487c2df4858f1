import Mathlib.Data.List.AList

/-! # Lists under keys

A map from keys to lists, read as a function whose value is empty where the map has no entry.
-/

namespace Bullet.Lib

abbrev KeyedLists (κ α : Type*) :=
  AList fun _ : κ => List α

namespace KeyedLists

variable {κ α : Type*} [DecidableEq κ]

def read (t : KeyedLists κ α) (k : κ) : List α :=
  (t.lookup k).getD []

def pushBack (t : KeyedLists κ α) (k : κ) (a : α) : KeyedLists κ α :=
  t.insert k (t.read k ++ [a])

/-- Reading through an index operator adds an empty list for a new key. -/
def touch (t : KeyedLists κ α) (k : κ) : KeyedLists κ α :=
  t.insert k (t.read k)

def mapLists (f : List α → List α) (t : KeyedLists κ α) : KeyedLists κ α where
  entries := t.entries.map (.map id fun _ => f)
  nodupKeys := by
    rw [List.NodupKeys, List.keys, List.map_map]
    exact t.nodupKeys

variable {t : KeyedLists κ α} {k k' : κ} {a : α}

@[simp] theorem read_empty : (∅ : KeyedLists κ α).read k = [] := rfl

theorem read_pushBack : (t.pushBack k a).read k' = t.read k' ++ if k' = k then [a] else [] := by
  rw [read, pushBack]
  split
  · next h =>
    subst h
    rw [AList.lookup_insert, Option.getD_some]
  · next h => rw [AList.lookup_insert_ne h, List.append_nil, read]

@[simp] theorem read_touch : (t.touch k).read k' = t.read k' := by
  rw [read, touch]
  rcases eq_or_ne k' k with rfl | h
  · rw [AList.lookup_insert, Option.getD_some]
  · rw [AList.lookup_insert_ne h, read]

theorem read_mapLists {f : List α → List α} (hf : f [] = []) :
    (t.mapLists f).read k = f (t.read k) := by
  have hLookup : (t.mapLists f).lookup k = (t.lookup k).map f := List.dlookup_map₂ k
  rw [read, hLookup, read]
  cases t.lookup k with
  | none => exact hf.symm
  | some l => rfl

theorem touch_entries_ne_nil : (t.touch k).entries ≠ [] :=
  List.cons_ne_nil _ _

theorem entries_ne_nil_of_read (h : t.read k ≠ []) : t.entries ≠ [] := by
  rintro hEntries
  apply h
  rw [read, AList.lookup, hEntries, List.dlookup_nil, Option.getD_none]

end KeyedLists

end Bullet.Lib
