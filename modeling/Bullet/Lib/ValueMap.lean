import Mathlib.Data.List.AList

/-! # Maps with changed values

The values of a map change, its keys do not.
-/

namespace Bullet.Lib

variable {κ β γ : Type*}

def mapValues (f : κ → β → γ) (m : AList fun _ : κ => β) : AList fun _ : κ => γ where
  entries := m.entries.map fun e => ⟨e.1, f e.1 e.2⟩
  nodupKeys := by
    rw [List.NodupKeys, List.keys, List.map_map]
    exact m.nodupKeys

variable {f : κ → β → γ} {m : AList fun _ : κ => β} {k : κ}

@[simp] theorem mem_mapValues : k ∈ mapValues f m ↔ k ∈ m := by
  rw [AList.mem_keys, AList.mem_keys, AList.keys, List.keys, mapValues, List.map_map]
  exact Iff.rfl

variable [DecidableEq κ]

theorem mem_of_lookup {b : β} (h : m.lookup k = some b) : k ∈ m :=
  AList.lookup_isSome.mp (by rw [h, Option.isSome_some])

/-- A new value under an old key leaves the keys. -/
theorem mem_insert_of_mem {b : β} {k' : κ} (h : k ∈ m) : k' ∈ m.insert k b ↔ k' ∈ m := by
  rw [AList.mem_insert]
  constructor
  · rintro (rfl | hMem)
    · exact h
    · exact hMem
  · exact Or.inr

end Bullet.Lib
