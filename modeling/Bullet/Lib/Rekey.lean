import Mathlib.Data.List.Basic
import Mathlib.Data.Option.Basic

/-! # Moving the entries of a map to new keys

The entries are taken out under their old keys one after the other and written back under new ones.
Neither step overwrites: of two entries written under one key the first stays, and an entry that was
never taken out stays in place. Whether each entry is then found where a reader looks for it depends
on the keys alone.
-/

namespace Bullet.Lib.Rekey

variable {κ β : Type*} [DecidableEq κ]

def erase (m : κ → Option β) (k : κ) : κ → Option β :=
  fun i => if i = k then none else m i

/-- An insertion that keeps what is there. -/
def insertNew (m : κ → Option β) (k : κ) (b : β) : κ → Option β :=
  fun i => (m i).or (if i = k then some b else none)

/-- Inserts every entry of `added`, keeping what is there. -/
def insertAll (m added : κ → Option β) : κ → Option β :=
  fun i => (m i).or (added i)

/-- An entry's old key, the key it is written back under and the key it is looked up with. -/
structure Move (κ : Type*) where
  old : κ
  written : κ
  read : κ
deriving DecidableEq

/-- What is left of the map, and the entries taken out of it. -/
def takeStep (s : (κ → Option β) × (κ → Option β)) (mv : Move κ) :
    (κ → Option β) × (κ → Option β) :=
  match s.1 mv.old with
  | none => s
  | some b => (erase s.1 mv.old, insertNew s.2 mv.written b)

def rekey (m : κ → Option β) (mvs : List (Move κ)) : κ → Option β :=
  let s := mvs.foldl takeStep (m, fun _ => none)
  insertAll s.1 s.2

/-- The entries taken out, in order, with the keys they are written under. -/
def taken (m : κ → Option β) : List (Move κ) → List (κ × β)
  | [] => []
  | mv :: mvs =>
    match m mv.old with
    | none => taken m mvs
    | some b => (mv.written, b) :: taken (erase m mv.old) mvs

variable {m t : κ → Option β} {mvs : List (Move κ)} {mv : Move κ} {k : κ} {b : β}

theorem takeStep_of_none (h : m mv.old = none) : takeStep (m, t) mv = (m, t) := by
  simp only [takeStep, h]

theorem takeStep_of_some (h : m mv.old = some b) :
    takeStep (m, t) mv = (erase m mv.old, insertNew t mv.written b) := by
  simp only [takeStep, h]

theorem foldl_takeStep_left :
    (mvs.foldl takeStep (m, t)).1 k = if k ∈ mvs.map Move.old then none else m k := by
  induction mvs generalizing m t with
  | nil => simp
  | cons mv mvs ih =>
    rw [List.foldl_cons, List.map_cons]
    cases hAt : m mv.old with
    | none =>
      rw [takeStep_of_none hAt, ih]
      by_cases hKey : k = mv.old
      · simp [hKey, hAt]
      · simp [hKey]
    | some b =>
      rw [takeStep_of_some hAt, ih]
      by_cases hKey : k = mv.old
      · simp [hKey, erase]
      · simp [hKey, erase]

theorem foldl_takeStep_taken :
    (mvs.foldl takeStep (m, t)).2 k = (t k).or ((taken m mvs).lookup k) := by
  induction mvs generalizing m t with
  | nil => simp [taken]
  | cons mv mvs ih =>
    rw [List.foldl_cons, taken]
    cases hAt : m mv.old with
    | none =>
      rw [takeStep_of_none hAt]
      exact ih
    | some b =>
      rw [takeStep_of_some hAt, ih, insertNew, Option.or_assoc, List.lookup_cons]
      by_cases hKey : k = mv.written
      · simp [hKey]
      · simp [hKey, beq_eq_false_iff_ne.mpr hKey]

theorem rekey_apply :
    rekey m mvs k =
      (if k ∈ mvs.map Move.old then none else m k).or ((taken m mvs).lookup k) := by
  simp only [rekey, insertAll, foldl_takeStep_left, foldl_takeStep_taken, Option.none_or]

/-- An entry is written under the key that the first move of its old key gives it. -/
theorem mem_taken_iff : (k, b) ∈ taken m mvs ↔
    ∃ o, m o = some b ∧ (mvs.find? fun mv => mv.old = o).map Move.written = some k := by
  induction mvs generalizing m with
  | nil => simp [taken]
  | cons mv mvs ih =>
    rw [taken]
    constructor
    · intro hMem
      cases hAt : m mv.old with
      | none =>
        rw [hAt] at hMem
        obtain ⟨o, hO, hFirst⟩ := ih.mp hMem
        have hNe : mv.old ≠ o := fun h => by simp [← h, hAt] at hO
        exact ⟨o, hO, by simpa [List.find?_cons, hNe] using hFirst⟩
      | some c =>
        rw [hAt] at hMem
        obtain hHead | hTail := List.mem_cons.mp hMem
        · cases hHead
          exact ⟨mv.old, hAt, by simp⟩
        · obtain ⟨o, hO, hFirst⟩ := ih.mp hTail
          have hNe : mv.old ≠ o := fun h => by simp [erase, ← h] at hO
          have hHere : m o = some b := by simpa [erase, Ne.symm hNe] using hO
          exact ⟨o, hHere, by simpa [List.find?_cons, hNe] using hFirst⟩
    · rintro ⟨o, hO, hFirst⟩
      by_cases hOld : mv.old = o
      · have hWritten : mv.written = k := by simpa [hOld] using hFirst
        rw [hOld, hO]
        exact hWritten ▸ List.mem_cons_self
      · have hRest : (mvs.find? fun mv => mv.old = o).map Move.written = some k := by
          simpa [List.find?_cons, hOld] using hFirst
        cases hAt : m mv.old with
        | none => exact ih.mpr ⟨o, hO, hRest⟩
        | some c =>
          apply List.mem_cons_of_mem
          exact ih.mpr ⟨o, by simpa [erase, Ne.symm hOld] using hO, hRest⟩

theorem lookup_eq_some_of_unique {l : List (κ × β)} (hMem : (k, b) ∈ l)
    (hUnique : ∀ c, (k, c) ∈ l → c = b) : l.lookup k = some b := by
  induction l with
  | nil => cases hMem
  | cons p l ih =>
    obtain ⟨j, c⟩ := p
    rw [List.lookup_cons]
    by_cases hKey : k = j
    · subst hKey
      simpa using hUnique c List.mem_cons_self
    · rw [beq_eq_false_iff_ne.mpr hKey]
      apply ih
      · simpa [hKey] using hMem
      · exact fun c hc => hUnique c (List.mem_cons_of_mem _ hc)

theorem mem_of_lookup_eq_some {l : List (κ × β)} (h : l.lookup k = some b) : (k, b) ∈ l := by
  induction l with
  | nil => cases h
  | cons p l ih =>
    obtain ⟨j, c⟩ := p
    rw [List.lookup_cons] at h
    by_cases hKey : k = j
    · subst hKey
      simp only [BEq.rfl, Option.some.injEq] at h
      exact h ▸ List.mem_cons_self
    · rw [beq_eq_false_iff_ne.mpr hKey] at h
      exact List.mem_cons_of_mem _ (ih h)

/-- An entry of the new map was left in place or is written there by the first move of its key. -/
theorem source_of_rekey (h : rekey m mvs k = some b) :
    m k = some b ∧ k ∉ mvs.map Move.old ∨ ∃ o ∈ mvs.map Move.old,
      m o = some b ∧ (mvs.find? fun mv => mv.old = o).map Move.written = some k := by
  rw [rekey_apply, Option.or_eq_some_iff] at h
  rcases h with hLeft | ⟨-, hTaken⟩
  · split at hLeft
    · cases hLeft
    · exact Or.inl ⟨hLeft, ‹_›⟩
  · obtain ⟨o, hO, hFirst⟩ := mem_taken_iff.mp (mem_of_lookup_eq_some hTaken)
    obtain ⟨i, hFind, -⟩ := Option.map_eq_some_iff.mp hFirst
    have hI : i.old = o := by simpa using List.find?_some hFind
    exact Or.inr ⟨o, hI ▸ List.mem_map_of_mem (List.mem_of_find?_eq_some hFind), hO, hFirst⟩

/-- Entries that differ in `f` still do after the moves. -/
theorem rekey_distinct {γ : Type*} {f : β → γ}
    (hDistinct : ∀ i j b c, m i = some b → m j = some c → f b = f c → i = j) {i j : κ} {c : β}
    (hI : rekey m mvs i = some b) (hJ : rekey m mvs j = some c) (hSame : f b = f c) : i = j := by
  rcases source_of_rekey hI with ⟨hAtI, hNotI⟩ | ⟨o, hOld, hAtO, hFirst⟩ <;>
    rcases source_of_rekey hJ with ⟨hAtJ, hNotJ⟩ | ⟨q, hOldQ, hAtQ, hFirstQ⟩
  · exact hDistinct i j b c hAtI hAtJ hSame
  · exact absurd (hDistinct i q b c hAtI hAtQ hSame ▸ hOldQ) hNotI
  · exact absurd (hDistinct o j b c hAtO hAtJ hSame ▸ hOld) hNotJ
  · rw [hDistinct o q b c hAtO hAtQ hSame, hFirstQ, Option.some.injEq] at hFirst
    exact hFirst.symm

/-- No entry that stays is in the way of the moved one, the first move of its old key writes it
where it is looked up, and no other entry is looked up there. -/
structure Carried (m : κ → Option β) (mvs : List (Move κ)) (mv : Move κ) : Prop where
  free : m mv.read = none ∨ mv.read ∈ mvs.map Move.old
  first : (mvs.find? fun i => i.old = mv.old).map Move.written = some mv.read
  alone : ∀ i ∈ mvs, (m i.old).isSome → i.read = mv.read → i.old = mv.old

theorem rekey_read_of_carried (hCarried : ∀ mv ∈ mvs, (m mv.old).isSome → Carried m mvs mv)
    (hMem : mv ∈ mvs) (hAt : m mv.old = some b) : rekey m mvs mv.read = some b := by
  have h := hCarried mv hMem (Option.isSome_of_mem hAt)
  have hLeft : (if mv.read ∈ mvs.map Move.old then none else m mv.read) = none := by
    rcases h.free with hNone | hOld
    · simp [hNone]
    · exact if_pos hOld
  rw [rekey_apply, hLeft, Option.none_or]
  apply lookup_eq_some_of_unique (mem_taken_iff.mpr ⟨mv.old, hAt, h.first⟩)
  intro c hc
  obtain ⟨o, hO, hFirst⟩ := mem_taken_iff.mp hc
  obtain ⟨i, hFind, hWritten⟩ := Option.map_eq_some_iff.mp hFirst
  have hI : i.old = o := by simpa using List.find?_some hFind
  have hIMem := List.mem_of_find?_eq_some hFind
  have hISome : (m i.old).isSome := by rw [hI]; exact Option.isSome_of_mem hO
  have hIFirst := (hCarried i hIMem hISome).first
  rw [hI, hFind, Option.map_some, Option.some.injEq] at hIFirst
  have hSame : o = mv.old := hI ▸ h.alone i hIMem hISome (hIFirst.symm.trans hWritten)
  rw [hSame, hAt] at hO
  exact (Option.some.inj hO).symm

/-- Every moved entry is found where it is looked up exactly when every one is carried there. -/
theorem rekey_read_iff (hDistinct : ∀ i j b, m i = some b → m j = some b → i = j) :
    (∀ mv ∈ mvs, ∀ b, m mv.old = some b → rekey m mvs mv.read = some b) ↔
      ∀ mv ∈ mvs, (m mv.old).isSome → Carried m mvs mv := by
  constructor
  · intro hFound mv hMem hSome
    obtain ⟨b, hAt⟩ := Option.isSome_iff_exists.mp hSome
    have hRead := hFound mv hMem b hAt
    have hFree : m mv.read = none ∨ mv.read ∈ mvs.map Move.old := by
      by_contra hTaken
      obtain ⟨hThere, hNotOld⟩ := not_or.mp hTaken
      obtain ⟨c, hC⟩ := Option.ne_none_iff_exists'.mp hThere
      rw [rekey_apply, if_neg hNotOld, hC, Option.some_or, Option.some.injEq] at hRead
      have hKey : mv.read = mv.old := hDistinct _ _ b (hRead ▸ hC) hAt
      exact hNotOld (hKey ▸ List.mem_map_of_mem hMem)
    refine ⟨hFree, ?_, ?_⟩
    · have hLeft : (if mv.read ∈ mvs.map Move.old then none else m mv.read) = none := by
        rcases hFree with hNone | hOld
        · simp [hNone]
        · exact if_pos hOld
      rw [rekey_apply, hLeft, Option.none_or] at hRead
      obtain ⟨o, hO, hFirst⟩ := mem_taken_iff.mp (mem_of_lookup_eq_some hRead)
      rwa [hDistinct _ _ b hO hAt] at hFirst
    · intro i hI hISome hSame
      obtain ⟨c, hC⟩ := Option.isSome_iff_exists.mp hISome
      have hIRead := hFound i hI c hC
      rw [hSame, hRead, Option.some.injEq] at hIRead
      exact hDistinct _ _ b (hIRead ▸ hC) hAt
  · intro hCarried mv hMem b hAt
    exact rekey_read_of_carried hCarried hMem hAt

end Bullet.Lib.Rekey
