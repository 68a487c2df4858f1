import Bullet.Lib.Shares
import Mathlib.Data.List.Nodup
import Mathlib.Logic.Function.Basic

/-! # Rounds that serve whoever holds the least

The members of a list hold an amount each. A round passes over the members that are covered, and
trims them, until it finds one that is not: as the list is sorted by what its members hold, that
member holds the least of those that are not covered. It is given one step more. The rounds end with
the budget, or when all members are covered.

A member that is trimmed may fail the test afterwards although its demand is still served, so that
others are up to two steps ahead of it.
-/

namespace Bullet.Lib.FairRounds

open Shares

variable {ι β α : Type*}

/-- What the rounds read and change of a member that asks for `b : β`. -/
structure Rules (β α : Type*) where
  covered : β → α → Bool
  served : β → α → Prop
  trim : β → α → α
  held : α → ℕ
  served_of_covered : ∀ b a, covered b a = true → served b a
  served_trim : ∀ b a, covered b a = true → served b (trim b a)
  trim_trim : ∀ b a, trim b (trim b a) = trim b a
  held_trim : ∀ b a, held (trim b a) = held a

variable {r : Rules β α} {step n : ℕ} {members : List (ι × β)} {s s' s'' : ι → α} {w : ι × β}

/-- One round, which `w` wins. -/
structure Round (r : Rules β α) (step : ℕ) (members : List (ι × β)) (w : ι × β) (s s' : ι → α) :
    Prop where
  mem : w ∈ members
  uncovered : r.covered w.2 (s w.1) = false
  least : ∀ m ∈ members, r.covered m.2 (s m.1) = false → r.held (s w.1) ≤ r.held (s m.1)
  passed : ∀ m ∈ members, r.held (s m.1) < r.held (s w.1) → s' m.1 = r.trim m.2 (s m.1)
  others : ∀ m ∈ members, m.1 ≠ w.1 →
    s' m.1 = s m.1 ∨ r.covered m.2 (s m.1) = true ∧ s' m.1 = r.trim m.2 (s m.1)
  gains : r.held (s' w.1) = r.held (s w.1) + step
  frame : ∀ k ∉ members.map Prod.fst, s' k = s k

/-- The pass that finds all members covered. -/
structure Rest (r : Rules β α) (members : List (ι × β)) (s s' : ι → α) : Prop where
  covered : ∀ m ∈ members, r.covered m.2 (s m.1) = true ∧ s' m.1 = r.trim m.2 (s m.1)
  frame : ∀ k ∉ members.map Prod.fst, s' k = s k

/-- Rounds on a budget. -/
inductive Runs (r : Rules β α) (step : ℕ) (members : List (ι × β)) :
    ℕ → (ι → α) → (ι → α) → Prop where
  | spent (s : ι → α) : Runs r step members 0 s s
  | rest (n : ℕ) {s s' : ι → α} : Rest r members s s' → Runs r step members (n + 1) s s'
  | round {n : ℕ} {w : ι × β} {s s' s'' : ι → α} : Round r step members w s s' →
      Runs r step members n s' s'' → Runs r step members (n + 1) s s''

/-- What the rounds keep. A member that fails the test is two steps behind at most, one whose demand
is not served one step, and one that is further behind has been trimmed. -/
structure Even (r : Rules β α) (step : ℕ) (members : List (ι × β)) (s : ι → α) : Prop where
  near : ∀ i ∈ members, ∀ j ∈ members, r.covered j.2 (s j.1) = false →
    r.held (s i.1) ≤ r.held (s j.1) + 2 * step
  close : ∀ i ∈ members, ∀ j ∈ members, ¬ r.served j.2 (s j.1) →
    r.held (s i.1) ≤ r.held (s j.1) + step
  trimmed : ∀ i ∈ members, ∀ j ∈ members, r.held (s j.1) + step < r.held (s i.1) →
    r.trim j.2 (s j.1) = s j.1

/-- Everyone starts with the same. -/
theorem even_of_equal (h : ∀ i ∈ members, ∀ j ∈ members, r.held (s i.1) = r.held (s j.1)) :
    Even r step members s where
  near i hI j hJ _ := (h i hI j hJ).trans_le (Nat.le_add_right _ _)
  close i hI j hJ _ := (h i hI j hJ).trans_le (Nat.le_add_right _ _)
  trimmed i hI j hJ hBehind := by
    rw [h i hI j hJ] at hBehind
    omega

/-- Nobody but the winner holds more. -/
theorem Round.held_eq (h : Round r step members w s s') {m : ι × β} (hM : m ∈ members)
    (hNe : m.1 ≠ w.1) : r.held (s' m.1) = r.held (s m.1) := by
  rcases h.others m hM hNe with hSame | ⟨-, hTrim⟩
  · rw [hSame]
  · rw [hTrim, r.held_trim]

theorem Round.total_held (h : Round r step members w s s') (hKeys : (members.map Prod.fst).Nodup) :
    total members (fun m => r.held (s' m.1)) = total members (fun m => r.held (s m.1)) + step := by
  refine total_of_gain_of_mem (List.Nodup.of_map _ hKeys) h.mem h.gains ?_
  intro m hM hNe
  exact h.held_eq hM fun hEq => hNe (List.inj_on_of_nodup_map hKeys hM h.mem hEq)

/-- A member that a round leaves uncovered was so before, or is trimmed in the round. -/
theorem Round.uncovered_or (h : Round r step members w s s') {m : ι × β} (hM : m ∈ members)
    (hNe : m.1 ≠ w.1) (hAfter : r.covered m.2 (s' m.1) = false) :
    r.covered m.2 (s m.1) = false ∨ r.trim m.2 (s m.1) ≠ s m.1 := by
  rcases h.others m hM hNe with hSame | ⟨hBefore, hTrim⟩
  · rw [hSame] at hAfter
    exact Or.inl hAfter
  · right
    intro hStable
    rw [hTrim, hStable, hBefore] at hAfter
    cases hAfter

theorem Round.not_served (h : Round r step members w s s') {m : ι × β} (hM : m ∈ members)
    (hNe : m.1 ≠ w.1) (hAfter : ¬ r.served m.2 (s' m.1)) : ¬ r.served m.2 (s m.1) := by
  rcases h.others m hM hNe with hSame | ⟨hBefore, hTrim⟩
  · rwa [hSame] at hAfter
  · rw [hTrim] at hAfter
    exact absurd (r.served_trim _ _ hBefore) hAfter

theorem not_covered_of_not_served {b : β} {a : α} (h : ¬ r.served b a) : r.covered b a = false := by
  rw [← Bool.not_eq_true]
  exact fun hCovered => h (r.served_of_covered b a hCovered)

theorem Round.even (h : Round r step members w s s') (hEven : Even r step members s)
    (hKeys : (members.map Prod.fst).Nodup) : Even r step members s' := by
  have hWinner : ∀ m ∈ members, m.1 = w.1 → m = w := fun m hM hEq =>
    List.inj_on_of_nodup_map hKeys hM h.mem hEq
  constructor
  · intro i hI j hJ hUncovered
    rcases eq_or_ne j.1 w.1 with hJw | hJw
    · -- the winner was uncovered before, and nobody else has gained
      rw [hWinner j hJ hJw, h.gains]
      rcases eq_or_ne i.1 w.1 with hIw | hIw
      · rw [hIw, h.gains]
        exact Nat.le_add_right _ _
      · rw [h.held_eq hI hIw]
        have hNear := hEven.near i hI w h.mem h.uncovered
        omega
    · rw [h.held_eq hJ hJw]
      rcases h.uncovered_or hJ hJw hUncovered with hBefore | hTrims
      · rcases eq_or_ne i.1 w.1 with hIw | hIw
        · have hLeast := h.least j hJ hBefore
          rw [hIw, h.gains]
          omega
        · rw [h.held_eq hI hIw]
          exact hEven.near i hI j hJ hBefore
      · -- a member that is trimmed in this round was one step behind at most
        have hStep : ∀ i ∈ members, r.held (s i.1) ≤ r.held (s j.1) + step := fun i hI =>
          Nat.not_lt.mp fun hBehind => hTrims (hEven.trimmed i hI j hJ hBehind)
        rcases eq_or_ne i.1 w.1 with hIw | hIw
        · have hClose := hStep w h.mem
          rw [hIw, h.gains]
          omega
        · have hClose := hStep i hI
          rw [h.held_eq hI hIw]
          omega
  · intro i hI j hJ hUnserved
    rcases eq_or_ne j.1 w.1 with hJw | hJw
    · rw [hWinner j hJ hJw, h.gains]
      rcases eq_or_ne i.1 w.1 with hIw | hIw
      · rw [hIw, h.gains]
        exact Nat.le_add_right _ _
      · rw [h.held_eq hI hIw]
        have hNear := hEven.near i hI w h.mem h.uncovered
        omega
    · have hBefore := h.not_served hJ hJw hUnserved
      rw [h.held_eq hJ hJw]
      rcases eq_or_ne i.1 w.1 with hIw | hIw
      · have hLeast := h.least j hJ (not_covered_of_not_served hBefore)
        rw [hIw, h.gains]
        omega
      · rw [h.held_eq hI hIw]
        exact hEven.close i hI j hJ hBefore
  · intro i hI j hJ hBehind
    rcases eq_or_ne j.1 w.1 with hJw | hJw
    · -- nobody is further ahead of the winner
      rw [hWinner j hJ hJw, h.gains] at hBehind
      rcases eq_or_ne i.1 w.1 with hIw | hIw
      · rw [hIw, h.gains] at hBehind
        omega
      · rw [h.held_eq hI hIw] at hBehind
        have hNear := hEven.near i hI w h.mem h.uncovered
        omega
    · rw [h.held_eq hJ hJw] at hBehind
      have hTrimmed : s' j.1 = r.trim j.2 (s j.1) ∨ r.trim j.2 (s j.1) = s j.1 := by
        rcases eq_or_ne i.1 w.1 with hIw | hIw
        · rw [hIw, h.gains] at hBehind
          exact Or.inl (h.passed j hJ (by omega))
        · rw [h.held_eq hI hIw] at hBehind
          exact Or.inr (hEven.trimmed i hI j hJ hBehind)
      rcases hTrimmed with hTrim | hStable
      · rw [hTrim, r.trim_trim]
      · rcases h.others j hJ hJw with hSame | ⟨-, hTrim⟩
        · rw [hSame, hStable]
        · rw [hTrim, r.trim_trim]

/-- Whoever is more than one step behind when the rounds end is served. -/
theorem Runs.fair (h : Runs r step members n s s') (hEven : Even r step members s)
    (hKeys : (members.map Prod.fst).Nodup) : ∀ i ∈ members, ∀ j ∈ members,
      r.held (s' j.1) + step < r.held (s' i.1) → r.served j.2 (s' j.1) := by
  induction h with
  | spent s =>
    intro i hI j hJ hBehind
    by_contra hUnserved
    have hClose := hEven.close i hI j hJ hUnserved
    omega
  | rest n hRest =>
    intro i hI j hJ _
    obtain ⟨hCovered, hTrim⟩ := hRest.covered j hJ
    rw [hTrim]
    exact r.served_trim _ _ hCovered
  | round hRound _ ih => exact ih (hRound.even hEven hKeys)

/-- The rounds end with everyone served, or with the whole budget handed out. -/
theorem Runs.conserves (h : Runs r step members n s s') (hKeys : (members.map Prod.fst).Nodup) :
    (∀ m ∈ members, r.served m.2 (s' m.1)) ∨
      total members (fun m => r.held (s' m.1)) =
        total members (fun m => r.held (s m.1)) + n * step := by
  induction h with
  | spent s => exact Or.inr (by omega)
  | rest n hRest =>
    left
    intro m hM
    obtain ⟨hCovered, hTrim⟩ := hRest.covered m hM
    rw [hTrim]
    exact r.served_trim _ _ hCovered
  | @round n w s s' s'' hRound _ ih =>
    have hGain := hRound.total_held hKeys
    rcases ih with hServed | hTotal
    · exact Or.inl hServed
    · right
      rw [hTotal, hGain, Nat.succ_mul]
      omega

theorem Runs.frame (h : Runs r step members n s s') : ∀ k ∉ members.map Prod.fst, s' k = s k := by
  induction h with
  | spent s => exact fun _ _ => rfl
  | rest n hRest => exact hRest.frame
  | round hRound _ ih => exact fun k hK => (ih k hK).trans (hRound.frame k hK)

/-! ## Passes over a sorted list -/

variable [DecidableEq ι]

/-- Passes over covered members, which are trimmed, up to the first one that is not. -/
def passOver (r : Rules β α) : (ι → α) → List (ι × β) → (ι → α) × Option (ι × β)
  | s, [] => (s, none)
  | s, m :: l =>
    if r.covered m.2 (s m.1) then passOver r (Function.update s m.1 (r.trim m.2 (s m.1))) l
    else (s, some m)

/-- A pass splits the list into the members that it trims and the rest, which it does not look at. -/
theorem passOver_spec (r : Rules β α) (s : ι → α) {l : List (ι × β)} (hKeys : (l.map Prod.fst).Nodup) :
    ∃ before after, l = before ++ after ∧ (passOver r s l).2 = after.head? ∧
      (∀ m ∈ after.head?, r.covered m.2 (s m.1) = false) ∧
      (∀ m ∈ before, r.covered m.2 (s m.1) = true ∧ (passOver r s l).1 m.1 = r.trim m.2 (s m.1)) ∧
      ∀ k ∉ before.map Prod.fst, (passOver r s l).1 k = s k := by
  induction l generalizing s with
  | nil =>
    refine ⟨[], [], rfl, rfl, ?_, ?_, fun _ _ => rfl⟩
    · intro m hM
      cases hM
    · intro m hM
      cases hM
  | cons a l ih =>
    obtain ⟨hNotIn, hTail⟩ := List.nodup_cons.mp hKeys
    rw [passOver]
    split
    case isTrue hCovered =>
      obtain ⟨before, after, rfl, hFound, hHead, hBefore, hSame⟩ :=
        ih (Function.update s a.1 (r.trim a.2 (s a.1))) hTail
      have hOther : ∀ m ∈ before ++ after, m.1 ≠ a.1 := by
        intro m hM hEq
        exact hNotIn (hEq ▸ List.mem_map_of_mem hM)
      refine ⟨a :: before, after, rfl, hFound, ?_, ?_, ?_⟩
      · intro m hM
        have hNe := hOther m (List.mem_append_right _ (List.mem_of_mem_head? hM))
        rw [← hHead m hM, Function.update_of_ne hNe]
      · intro m hM
        rcases List.mem_cons.mp hM with rfl | hM
        · refine ⟨hCovered, ?_⟩
          rw [hSame _ ?_, Function.update_self]
          intro hIn
          exact hNotIn (List.map_subset _ (List.subset_append_left _ _) hIn)
        · have hNe := hOther m (List.mem_append_left _ hM)
          have hThis := hBefore m hM
          rwa [Function.update_of_ne hNe] at hThis
      · intro k hK
        rw [List.map_cons, List.mem_cons, not_or] at hK
        rw [hSame k hK.2, Function.update_of_ne hK.1]
    case isFalse hUncovered =>
      refine ⟨[], a :: l, rfl, rfl, ?_, ?_, fun _ _ => rfl⟩
      · intro m hM
        cases hM
        exact Bool.eq_false_iff.mpr hUncovered
      · intro m hM
        cases hM

theorem mem_of_passOver {l : List (ι × β)} (hFound : (passOver r s l).2 = some w) : w ∈ l := by
  induction l generalizing s with
  | nil => cases hFound
  | cons a l ih =>
    rw [passOver] at hFound
    split at hFound
    · exact List.mem_cons_of_mem a (ih hFound)
    · cases hFound
      exact List.mem_cons_self

/-- The list is sorted by what its members hold. -/
def Sorted (r : Rules β α) (s : ι → α) : List (ι × β) → Prop :=
  List.Pairwise fun a b => r.held (s a.1) ≤ r.held (s b.1)

/-- A pass over the sorted list that finds a member, and a step for this member, make a round. -/
theorem round_of_passOver {l : List (ι × β)} (hPerm : l.Perm members)
    (hKeys : (members.map Prod.fst).Nodup) (hSorted : Sorted r s l)
    (hFound : (passOver r s l).2 = some w)
    (hOthers : ∀ k ≠ w.1, s' k = (passOver r s l).1 k)
    (hGain : r.held (s' w.1) = r.held (s w.1) + step) : Round r step members w s s' := by
  have hKeys' : (l.map Prod.fst).Nodup := (hPerm.map _).nodup_iff.mpr hKeys
  obtain ⟨before, after, rfl, hHead, hUncovered, hBefore, hSame⟩ := passOver_spec r s hKeys'
  rw [hHead] at hFound
  obtain ⟨rest, rfl⟩ : ∃ rest, after = w :: rest := by
    cases after with
    | nil => cases hFound
    | cons a rest =>
      cases hFound
      exact ⟨rest, rfl⟩
  have hMem : ∀ {m}, m ∈ members → m ∈ before ∨ m = w ∨ m ∈ rest := by
    intro m hM
    simpa using hPerm.mem_iff.mpr hM
  have hLe : ∀ m ∈ rest, r.held (s w.1) ≤ r.held (s m.1) := fun m hM =>
    List.rel_of_pairwise_cons (List.pairwise_append.mp hSorted).2.1 hM
  have hNotBefore : ∀ m, m ∈ before → m.1 ≠ w.1 := by
    intro m hM hEq
    rw [List.map_append, List.nodup_append] at hKeys'
    exact hKeys'.2.2 m.1 (List.mem_map_of_mem hM) w.1 List.mem_cons_self hEq
  have hWinner : w ∈ members := hPerm.mem_iff.mp (List.mem_append_right _ List.mem_cons_self)
  refine ⟨hWinner, hUncovered w rfl, ?_, ?_, ?_, hGain, ?_⟩
  · intro m hM hOpen
    rcases hMem hM with hIn | rfl | hIn
    · rw [(hBefore m hIn).1] at hOpen
      cases hOpen
    · exact Nat.le_refl _
    · exact hLe m hIn
  · intro m hM hLess
    rcases hMem hM with hIn | rfl | hIn
    · rw [hOthers m.1 (hNotBefore m hIn)]
      exact (hBefore m hIn).2
    · exact absurd hLess (Nat.lt_irrefl _)
    · exact absurd (hLe m hIn) (Nat.not_le.mpr hLess)
  · intro m hM hNe
    rw [hOthers m.1 hNe]
    by_cases hIn : m.1 ∈ before.map Prod.fst
    · obtain ⟨m', hM', hEq⟩ := List.mem_map.mp hIn
      have hSameMember : m' = m := List.inj_on_of_nodup_map hKeys
        (hPerm.mem_iff.mp (List.mem_append_left _ hM')) hM hEq
      subst hSameMember
      exact Or.inr (hBefore m' hM')
    · exact Or.inl (hSame m.1 hIn)
  · intro k hK
    have hNe : k ≠ w.1 := by
      rintro rfl
      exact hK (List.mem_map_of_mem hWinner)
    rw [hOthers k hNe]
    apply hSame
    intro hIn
    obtain ⟨m, hM, rfl⟩ := List.mem_map.mp hIn
    exact hK (List.mem_map_of_mem (hPerm.mem_iff.mp (List.mem_append_left _ hM)))

/-- A pass that finds nobody ends the rounds. -/
theorem rest_of_passOver {l : List (ι × β)} (hPerm : l.Perm members)
    (hKeys : (members.map Prod.fst).Nodup) (hFound : (passOver r s l).2 = none) :
    Rest r members s (passOver r s l).1 := by
  have hKeys' : (l.map Prod.fst).Nodup := (hPerm.map _).nodup_iff.mpr hKeys
  obtain ⟨before, after, rfl, hHead, -, hBefore, hSame⟩ := passOver_spec r s hKeys'
  rw [hHead, List.head?_eq_none_iff] at hFound
  subst hFound
  rw [List.append_nil] at hPerm
  constructor
  · intro m hM
    exact hBefore m (hPerm.mem_iff.mpr hM)
  · intro k hK
    exact hSame k fun hIn => hK ((hPerm.map _).subset hIn)

end Bullet.Lib.FairRounds
