import Mathlib.Data.List.AList
import Mathlib.Data.List.Forall2

/-! # The values held in a map

What the entries of a map hold, as a list up to order: how it changes when an entry is added, removed
or when all entries are written anew.
-/

namespace Bullet.Lib.HeldValues

variable {κ β γ : Type*} [DecidableEq κ] {f : β → γ} {m : AList fun _ : κ => β} {k : κ} {v : β}

def held (f : β → γ) (m : AList fun _ : κ => β) : List γ :=
  m.keys.filterMap fun k => (m.lookup k).map f

@[simp] theorem held_empty : held f (∅ : AList fun _ : κ => β) = [] := rfl

theorem mem_held {c : γ} : c ∈ held f m ↔ ∃ k v, m.lookup k = some v ∧ f v = c := by
  rw [held, List.mem_filterMap]
  constructor
  · rintro ⟨k, -, h⟩
    obtain ⟨v, hLookup, hv⟩ := Option.map_eq_some_iff.mp h
    exact ⟨k, v, hLookup, hv⟩
  · rintro ⟨k, v, hLookup, hv⟩
    refine ⟨k, ?_, ?_⟩
    · rw [← AList.mem_keys, ← AList.lookup_isSome, hLookup]
      rfl
    · rw [hLookup, Option.map_some, hv]

theorem length_held : (held f m).length = m.keys.length := by
  have hAll : ∀ l : List κ, l ⊆ m.keys →
      (l.filterMap fun k => (m.lookup k).map f).length = l.length := by
    intro l hl
    induction l with
    | nil => rfl
    | cons k l ih =>
      obtain ⟨hk, hl⟩ := List.cons_subset.mp hl
      obtain ⟨v, hv⟩ := Option.isSome_iff_exists.mp (AList.lookup_isSome.mpr hk)
      rw [List.filterMap_cons_some (by rw [hv, Option.map_some]), List.length_cons, List.length_cons,
        ih hl]
  exact hAll m.keys (List.Subset.refl _)

theorem held_insert_of_notMem (h : k ∉ m) : held f (m.insert k v) = f v :: held f m := by
  have hKeys : (m.insert k v).keys = k :: m.keys := by
    rw [AList.keys_insert, List.erase_of_not_mem (fun hk => h (AList.mem_keys.mpr hk))]
  rw [held, hKeys, List.filterMap_cons_some (by rw [AList.lookup_insert, Option.map_some]), held]
  congr 1
  apply List.filterMap_congr
  intro k' hk'
  rw [AList.lookup_insert_ne]
  rintro rfl
  exact h (AList.mem_keys.mpr hk')

theorem held_perm_erase (h : m.lookup k = some v) : (held f m).Perm (f v :: held f (m.erase k)) := by
  have hMem : k ∈ m.keys := by
    rw [← AList.mem_keys, ← AList.lookup_isSome, h]
    rfl
  have hRest : held f (m.erase k) = (m.keys.erase k).filterMap fun k => (m.lookup k).map f := by
    rw [held, AList.keys_erase]
    apply List.filterMap_congr
    intro k' hk'
    rw [AList.lookup_erase_ne]
    rintro rfl
    exact (m.keys_nodup.not_mem_erase) hk'
  rw [hRest, ← List.filterMap_cons_some (f := fun k => (m.lookup k).map f) (by rw [h, Option.map_some])]
  exact (List.perm_cons_erase hMem).filterMap _

/-- When no value is held twice, a value tells its key. -/
theorem key_eq_of_held_nodup {k' : κ} {v' : β} (hNodup : (held f m).Nodup)
    (hk : m.lookup k = some v) (hk' : m.lookup k' = some v') (hSame : f v = f v') : k = k' := by
  by_contra hNe
  have hOnce := (held_perm_erase hk).nodup_iff.mp hNodup
  apply (List.nodup_cons.mp hOnce).1
  apply mem_held.mpr
  refine ⟨k', v', ?_, hSame.symm⟩
  rw [AList.lookup_erase_ne (Ne.symm hNe)]
  exact hk'

omit [DecidableEq κ] in
theorem exists_of_forall₂ {α : Type*} {R : κ → α → Prop} {l : List κ} {os : List α}
    (h : List.Forall₂ R l os) (hk : k ∈ l) : ∃ o ∈ os, R k o := by
  induction h with
  | nil => cases hk
  | cons hHead _ ih =>
    rcases List.mem_cons.mp hk with rfl | hk
    · exact ⟨_, List.mem_cons_self, hHead⟩
    · obtain ⟨o, ho, hR⟩ := ih hk
      exact ⟨o, List.mem_cons_of_mem _ ho, hR⟩

/-- When every entry is looked up once, in any order, what is found is what the map holds. -/
theorem held_perm_of_forall₂ {l : List κ} {os : List γ} (hl : l.Perm m.keys)
    (h : List.Forall₂ (fun k o => (m.lookup k).map f = some o) l os) : (held f m).Perm os := by
  have hOs : l.filterMap (fun k => (m.lookup k).map f) = os := by
    clear hl
    induction h with
    | nil => rfl
    | cons hk _ ih =>
      rw [List.filterMap_cons]
      simp only [hk, ih]
  rw [← hOs]
  exact (hl.filterMap _).symm

end Bullet.Lib.HeldValues
