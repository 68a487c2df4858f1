import Mathlib.Data.List.Dedup
import Mathlib.Data.Option.Basic

/-! # Association maps and maps of maps

A map as the list of its entries, no key twice, and a two-level map whose inner maps are dropped
when their last entry goes. Everything that changes a map is an `alter` of one entry.
-/

namespace Bullet.Lib

/-- Operations that commute and do not add up when repeated depend on the set of their inputs. -/
theorem foldl_eq_of_mem_iff {σ ι : Type*} [DecidableEq ι] {op : σ → ι → σ}
    (hComm : ∀ s i j, op (op s i) j = op (op s j) i) (hIdem : ∀ s i, op (op s i) i = op s i)
    {l m : List ι} (h : ∀ i, i ∈ l ↔ i ∈ m) (s : σ) : l.foldl op s = m.foldl op s := by
  have hAbsorb : ∀ (l : List ι) (s : σ) (i : ι), i ∈ l → l.foldl op (op s i) = l.foldl op s := by
    intro l
    induction l with
    | nil => simp
    | cons j l ih =>
      intro s i hMem
      obtain rfl | hMem := List.mem_cons.mp hMem
      · rw [List.foldl_cons, List.foldl_cons, hIdem]
      · rw [List.foldl_cons, List.foldl_cons, hComm, ih _ i hMem]
  have hDedup : ∀ (l : List ι) (s : σ), l.dedup.foldl op s = l.foldl op s := by
    intro l
    induction l with
    | nil => intro s; rfl
    | cons i l ih =>
      intro s
      by_cases hMem : i ∈ l
      · rw [List.dedup_cons_of_mem hMem, ih, List.foldl_cons, hAbsorb l s i hMem]
      · rw [List.dedup_cons_of_notMem hMem, List.foldl_cons, List.foldl_cons, ih]
  have hPerm : l.dedup.Perm m.dedup := by
    rw [List.perm_ext_iff_of_nodup l.nodup_dedup m.nodup_dedup]
    intro i
    rw [List.mem_dedup, List.mem_dedup, h i]
  rw [← hDedup l, ← hDedup m]
  exact hPerm.foldl_eq' (fun i _ j _ s => hComm s i j) s

variable {κ ι α β : Type*} [DecidableEq κ] [DecidableEq ι]

structure AssocMap (κ α : Type*) where
  entries : List (κ × α)
  nodup : (entries.map Prod.fst).Nodup

namespace AssocMap

omit [DecidableEq κ] in
theorem ext {m m' : AssocMap κ α} (h : m.entries = m'.entries) : m = m' := by
  cases m
  cases m'
  cases h
  rfl

def empty : AssocMap κ α := ⟨[], List.nodup_nil⟩

def find (m : AssocMap κ α) (k : κ) : Option α := m.entries.lookup k

/-- Replaces the entry at `k` by what `f` makes of it; a new entry goes to the end. -/
def alterEntries (k : κ) (f : Option α → Option α) : List (κ × α) → List (κ × α)
  | [] => (f none).toList.map (Prod.mk k)
  | e :: l =>
    if e.1 = k then (f (some e.2)).toList.map (Prod.mk k) ++ l else e :: alterEntries k f l

theorem mem_keys_alterEntries {k k' : κ} {f : Option α → Option α} {l : List (κ × α)}
    (h : k' ∈ (alterEntries k f l).map Prod.fst) : k' = k ∨ k' ∈ l.map Prod.fst := by
  induction l with
  | nil =>
    cases hNew : f none with
    | none => simp [alterEntries, hNew] at h
    | some v => exact Or.inl (by simpa [alterEntries, hNew] using h)
  | cons e l ih =>
    rw [alterEntries] at h
    split at h
    · cases hNew : f (some e.2) with
      | none =>
        rw [hNew] at h
        exact Or.inr (List.mem_cons_of_mem _ h)
      | some v =>
        rw [hNew] at h
        obtain rfl | hMem := List.mem_cons.mp h
        · exact Or.inl rfl
        · exact Or.inr (List.mem_cons_of_mem _ hMem)
    · obtain rfl | hMem := List.mem_cons.mp h
      · exact Or.inr List.mem_cons_self
      · exact (ih hMem).imp_right (List.mem_cons_of_mem _)

theorem nodup_alterEntries {k : κ} {f : Option α → Option α} {l : List (κ × α)}
    (h : (l.map Prod.fst).Nodup) : ((alterEntries k f l).map Prod.fst).Nodup := by
  induction l with
  | nil => cases hNew : f none <;> simp [alterEntries, hNew]
  | cons e l ih =>
    obtain ⟨hHead, hTail⟩ := List.nodup_cons.mp h
    rw [alterEntries]
    split
    · next hEq =>
      cases f (some e.2) with
      | none => exact hTail
      | some v => exact List.nodup_cons.mpr ⟨hEq ▸ hHead, hTail⟩
    · next hNe =>
      refine List.nodup_cons.mpr ⟨fun hMem => ?_, ih hTail⟩
      exact (mem_keys_alterEntries hMem).elim hNe hHead

def alter (m : AssocMap κ α) (k : κ) (f : Option α → Option α) : AssocMap κ α :=
  ⟨alterEntries k f m.entries, nodup_alterEntries m.nodup⟩

theorem lookup_of_notMem {l : List (κ × α)} {k : κ} (h : k ∉ l.map Prod.fst) :
    l.lookup k = none := by
  rw [List.lookup_eq_none_iff]
  intro e hMem
  have hNe : k ≠ e.1 := fun hEq => h (hEq ▸ List.mem_map_of_mem hMem)
  simpa using hNe

theorem lookup_cons_of_eq {e : κ × α} {l : List (κ × α)} {k : κ} (h : k = e.1) :
    (e :: l).lookup k = some e.2 := by
  obtain ⟨k', v⟩ := e
  cases h
  exact List.lookup_cons_self

theorem lookup_cons_of_ne {e : κ × α} {l : List (κ × α)} {k : κ} (h : k ≠ e.1) :
    (e :: l).lookup k = l.lookup k := by
  obtain ⟨k', v⟩ := e
  rw [List.lookup_cons, beq_eq_false_iff_ne.mpr h]

theorem lookup_toList_append {k k' : κ} {v : Option α} {l : List (κ × α)} (h : k ∉ l.map Prod.fst) :
    (v.toList.map (Prod.mk k) ++ l).lookup k' = if k' = k then v else l.lookup k' := by
  cases v with
  | none =>
    by_cases hEq : k' = k
    · rw [if_pos hEq, hEq]
      exact lookup_of_notMem h
    · rw [if_neg hEq]
      rfl
  | some v =>
    by_cases hEq : k' = k
    · rw [if_pos hEq]
      exact lookup_cons_of_eq hEq
    · rw [if_neg hEq]
      exact lookup_cons_of_ne hEq

theorem lookup_alterEntries {k k' : κ} {f : Option α → Option α} {l : List (κ × α)}
    (h : (l.map Prod.fst).Nodup) :
    (alterEntries k f l).lookup k' = if k' = k then f (l.lookup k) else l.lookup k' := by
  induction l with
  | nil =>
    have hNew : k ∉ ([] : List (κ × α)).map Prod.fst := List.not_mem_nil
    rw [alterEntries, ← List.append_nil (List.map _ _), lookup_toList_append hNew]
    rfl
  | cons e l ih =>
    obtain ⟨hHead, hTail⟩ := List.nodup_cons.mp h
    rw [alterEntries]
    by_cases hFirst : e.1 = k
    · subst hFirst
      rw [if_pos rfl, lookup_toList_append hHead, lookup_cons_of_eq rfl]
      by_cases hEq : k' = e.1
      · rw [if_pos hEq, if_pos hEq]
      · rw [if_neg hEq, if_neg hEq, lookup_cons_of_ne hEq]
    · rw [if_neg hFirst, lookup_cons_of_ne (Ne.symm hFirst)]
      by_cases hEq : k' = e.1
      · rw [lookup_cons_of_eq hEq, lookup_cons_of_eq hEq, if_neg (hEq ▸ hFirst)]
      · rw [lookup_cons_of_ne hEq, lookup_cons_of_ne hEq, ih hTail]

theorem find_alter (m : AssocMap κ α) (k k' : κ) (f : Option α → Option α) :
    (m.alter k f).find k' = if k' = k then f (m.find k) else m.find k' :=
  lookup_alterEntries m.nodup

@[simp] theorem find_empty (k : κ) : (empty : AssocMap κ α).find k = none := rfl

theorem mem_entries_of_find {m : AssocMap κ α} {k : κ} {v : α} (h : m.find k = some v) :
    (k, v) ∈ m.entries := by
  rw [find] at h
  obtain ⟨l, l', hEq, -⟩ := List.lookup_eq_some_iff.mp h
  rw [hEq]
  exact List.mem_append_right _ List.mem_cons_self

theorem find_of_mem_entries {m : AssocMap κ α} {k : κ} {v : α} (h : (k, v) ∈ m.entries) :
    m.find k = some v := by
  obtain ⟨l, l', hEq⟩ := List.append_of_mem h
  have hNodup := m.nodup
  rw [hEq, List.map_append, List.map_cons, List.nodup_append] at hNodup
  refine List.lookup_eq_some_iff.mpr ⟨l, l', hEq, ?_⟩
  intro e hMem
  have hNe := hNodup.2.2 e.1 (List.mem_map_of_mem hMem) k List.mem_cons_self
  simpa using Ne.symm hNe

theorem mem_entries_iff {m : AssocMap κ α} {k : κ} {v : α} :
    (k, v) ∈ m.entries ↔ m.find k = some v :=
  ⟨find_of_mem_entries, mem_entries_of_find⟩

/-- Two entries that only change or drop what is there are altered in either order. -/
theorem alterEntries_comm {k k' : κ} (hNe : k ≠ k') {f g : Option α → Option α}
    (hf : f none = none) (hg : g none = none) (l : List (κ × α)) :
    alterEntries k f (alterEntries k' g l) = alterEntries k' g (alterEntries k f l) := by
  induction l with
  | nil => simp [alterEntries, hf, hg]
  | cons e l ih =>
    by_cases hFirst : e.1 = k
    · subst hFirst
      have hOther : alterEntries k' g (e :: l) = e :: alterEntries k' g l := if_neg hNe
      rw [hOther, alterEntries, alterEntries, if_pos rfl, if_pos rfl]
      cases f (some e.2) with
      | none => rfl
      | some v => simp [alterEntries, hNe]
    · by_cases hSecond : e.1 = k'
      · subst hSecond
        have hOther : alterEntries k f (e :: l) = e :: alterEntries k f l := if_neg hFirst
        rw [hOther, alterEntries, alterEntries, if_pos rfl, if_pos rfl]
        cases g (some e.2) with
        | none => rfl
        | some v => simp [alterEntries, hFirst]
      · simp [alterEntries, hFirst, hSecond, ih]

theorem alterEntries_of_notMem {k : κ} {f : Option α → Option α} (hf : f none = none)
    {l : List (κ × α)} (h : k ∉ l.map Prod.fst) : alterEntries k f l = l := by
  induction l with
  | nil => simp [alterEntries, hf]
  | cons e l ih =>
    rw [List.map_cons, List.mem_cons, not_or] at h
    rw [alterEntries, if_neg (Ne.symm h.1), ih h.2]

/-- Altering an entry twice alters it once by the composition. -/
theorem alterEntries_alterEntries {k : κ} {f g : Option α → Option α} (hf : f none = none)
    (hg : g none = none) {l : List (κ × α)} (h : (l.map Prod.fst).Nodup) :
    alterEntries k f (alterEntries k g l) = alterEntries k (fun v => f (g v)) l := by
  induction l with
  | nil => simp [alterEntries, hf, hg]
  | cons e l ih =>
    obtain ⟨hHead, hTail⟩ := List.nodup_cons.mp h
    by_cases hFirst : e.1 = k
    · subst hFirst
      rw [alterEntries, alterEntries, if_pos rfl, if_pos rfl]
      cases g (some e.2) with
      | none =>
        rw [hf]
        exact alterEntries_of_notMem hf hHead
      | some v => simp [alterEntries]
    · simp [alterEntries, hFirst, ih hTail]

theorem alter_comm {k k' : κ} (hNe : k ≠ k') {f g : Option α → Option α} (hf : f none = none)
    (hg : g none = none) (m : AssocMap κ α) :
    (m.alter k' g).alter k f = (m.alter k f).alter k' g :=
  ext (alterEntries_comm hNe hf hg m.entries)

theorem alter_alter {k : κ} {f g : Option α → Option α} (hf : f none = none) (hg : g none = none)
    (m : AssocMap κ α) : (m.alter k g).alter k f = m.alter k fun v => f (g v) :=
  ext (alterEntries_alterEntries hf hg m.nodup)

def set (m : AssocMap κ α) (k : κ) (v : α) : AssocMap κ α := m.alter k fun _ => some v

def erase (m : AssocMap κ α) (k : κ) : AssocMap κ α := m.alter k fun _ => none

theorem find_set (m : AssocMap κ α) (k k' : κ) (v : α) :
    (m.set k v).find k' = if k' = k then some v else m.find k' :=
  find_alter m k k' _

theorem find_erase (m : AssocMap κ α) (k k' : κ) :
    (m.erase k).find k' = if k' = k then none else m.find k' :=
  find_alter m k k' _

theorem erase_comm (m : AssocMap κ α) (k k' : κ) : (m.erase k).erase k' = (m.erase k').erase k := by
  by_cases hEq : k = k'
  · rw [hEq]
  · exact alter_comm (Ne.symm hEq) rfl rfl m

theorem erase_erase (m : AssocMap κ α) (k : κ) : (m.erase k).erase k = m.erase k :=
  alter_alter rfl rfl m

end AssocMap

/-- `unordered_map<κ, unordered_map<ι, α>>`. -/
abbrev NestedMap (κ ι α : Type*) := AssocMap κ (AssocMap ι α)

namespace NestedMap

def get (m : NestedMap κ ι α) (key : κ × ι) : Option α :=
  (m.find key.1).bind fun inner => inner.find key.2

/-- `m[k][i] = v`. -/
def put (m : NestedMap κ ι α) (key : κ × ι) (v : α) : NestedMap κ ι α :=
  m.alter key.1 fun inner => some ((inner.getD AssocMap.empty).set key.2 v)

def dropIfEmpty (inner : AssocMap ι α) : Option (AssocMap ι α) :=
  if inner.entries = [] then none else some inner

/-- Erases the entry, and the inner map with it when nothing is left there. -/
def remove (m : NestedMap κ ι α) (key : κ × ι) : NestedMap κ ι α :=
  m.alter key.1 fun inner => inner.bind fun inner => dropIfEmpty (inner.erase key.2)

def NoEmpty (m : NestedMap κ ι α) : Prop :=
  ∀ k inner, m.find k = some inner → inner.entries ≠ []

theorem find_dropIfEmpty (inner : AssocMap ι α) (i : ι) :
    ((dropIfEmpty inner).bind fun inner => inner.find i) = inner.find i := by
  rw [dropIfEmpty]
  split
  · next hNil => rw [AssocMap.find, hNil]; rfl
  · rfl

@[simp] theorem get_empty (key : κ × ι) : get (AssocMap.empty : NestedMap κ ι α) key = none := rfl

theorem get_put (m : NestedMap κ ι α) (key key' : κ × ι) (v : α) :
    (m.put key v).get key' = if key' = key then some v else m.get key' := by
  rw [get, put, AssocMap.find_alter]
  by_cases hOuter : key'.1 = key.1
  · rw [if_pos hOuter, Option.bind_some, AssocMap.find_set, get, hOuter]
    by_cases hInner : key'.2 = key.2
    · rw [if_pos hInner, if_pos (Prod.ext hOuter hInner)]
    · rw [if_neg hInner, if_neg fun hEq => hInner (congrArg Prod.snd hEq)]
      cases m.find key.1 with
      | none => rfl
      | some inner => rfl
  · rw [if_neg hOuter, if_neg fun hEq => hOuter (congrArg Prod.fst hEq), get]

theorem get_remove (m : NestedMap κ ι α) (key key' : κ × ι) :
    (m.remove key).get key' = if key' = key then none else m.get key' := by
  rw [get, remove, AssocMap.find_alter]
  by_cases hOuter : key'.1 = key.1
  · rw [if_pos hOuter, get, hOuter]
    cases m.find key.1 with
    | none => simp
    | some inner =>
      rw [Option.bind_some, find_dropIfEmpty, AssocMap.find_erase, Option.bind_some]
      by_cases hInner : key'.2 = key.2
      · rw [if_pos hInner, if_pos (Prod.ext hOuter hInner)]
      · rw [if_neg hInner, if_neg fun hEq => hInner (congrArg Prod.snd hEq)]
  · rw [if_neg hOuter, if_neg fun hEq => hOuter (congrArg Prod.fst hEq), get]

omit [DecidableEq ι] in
theorem noEmpty_empty : NoEmpty (AssocMap.empty : NestedMap κ ι α) := by
  intro k inner h
  cases h

theorem noEmpty_put {m : NestedMap κ ι α} (h : m.NoEmpty) (key : κ × ι) (v : α) :
    (m.put key v).NoEmpty := by
  intro k inner hFind
  rw [put, AssocMap.find_alter] at hFind
  split at hFind
  · have hSome : inner.find key.2 = some v := by
      rw [← Option.some.inj hFind, AssocMap.find_set, if_pos rfl]
    exact List.ne_nil_of_mem (AssocMap.mem_entries_of_find hSome)
  · exact h k inner hFind

theorem noEmpty_remove {m : NestedMap κ ι α} (h : m.NoEmpty) (key : κ × ι) :
    (m.remove key).NoEmpty := by
  intro k inner hFind
  rw [remove, AssocMap.find_alter] at hFind
  split at hFind
  · obtain ⟨old, -, hDrop⟩ := Option.bind_eq_some_iff.mp hFind
    rw [dropIfEmpty] at hDrop
    split at hDrop
    · cases hDrop
    · next hNe =>
      cases hDrop
      exact hNe
  · exact h k inner hFind

/-- What two removals in one inner map leave of it. -/
theorem bind_dropIfEmpty_erase (inner : AssocMap ι α) (i i' : ι) :
    ((dropIfEmpty (inner.erase i)).bind fun inner => dropIfEmpty (inner.erase i')) =
      dropIfEmpty ((inner.erase i).erase i') := by
  rw [dropIfEmpty]
  split
  · next hNil =>
    have hGone : ((inner.erase i).erase i').entries = [] := by
      change AssocMap.alterEntries i' (fun _ => none) (inner.erase i).entries = []
      rw [hNil]
      rfl
    rw [dropIfEmpty, if_pos hGone]
    rfl
  · rfl

theorem remove_comm (m : NestedMap κ ι α) (key key' : κ × ι) :
    (m.remove key).remove key' = (m.remove key').remove key := by
  obtain ⟨k, i⟩ := key
  obtain ⟨k', i'⟩ := key'
  by_cases hOuter : k = k'
  · subst hOuter
    rw [remove, remove, AssocMap.alter_alter rfl rfl, remove, remove,
      AssocMap.alter_alter rfl rfl]
    congr 1
    funext inner
    cases inner with
    | none => rfl
    | some inner =>
      simp only [Option.bind_some, bind_dropIfEmpty_erase]
      rw [AssocMap.erase_comm]
  · exact AssocMap.alter_comm (Ne.symm hOuter) rfl rfl m

theorem remove_remove (m : NestedMap κ ι α) (key : κ × ι) :
    (m.remove key).remove key = m.remove key := by
  rw [remove, remove, AssocMap.alter_alter rfl rfl]
  congr 1
  funext inner
  cases inner with
  | none => rfl
  | some inner =>
    simp only [Option.bind_some, bind_dropIfEmpty_erase]
    rw [AssocMap.erase_erase]

theorem get_foldl_remove (m : NestedMap κ ι α) (keys : List (κ × ι)) (key : κ × ι) :
    (keys.foldl remove m).get key = if key ∈ keys then none else m.get key := by
  induction keys generalizing m with
  | nil => simp
  | cons first keys ih =>
    rw [List.foldl_cons, ih, get_remove]
    by_cases hFirst : key = first
    · simp [hFirst]
    · simp [hFirst]

theorem noEmpty_foldl_remove {m : NestedMap κ ι α} (h : m.NoEmpty) (keys : List (κ × ι)) :
    (keys.foldl remove m).NoEmpty := by
  induction keys generalizing m with
  | nil => exact h
  | cons first keys ih => exact ih (noEmpty_remove h first)

/-- Removing a list of entries depends on the set of them only. -/
theorem foldl_remove_congr (m : NestedMap κ ι α) {keys keys' : List (κ × ι)}
    (h : ∀ key, key ∈ keys ↔ key ∈ keys') : keys.foldl remove m = keys'.foldl remove m :=
  foldl_eq_of_mem_iff remove_comm remove_remove h m

end NestedMap
end Bullet.Lib
