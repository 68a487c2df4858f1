import Mathlib.Data.List.Nodup

/-! # The first element of each key

A pass over a list that drops the elements whose key it has seen. It commutes with a filter on the
keys, and leaves a list alone whose keys are distinct.
-/

namespace Bullet.Lib.FirstOfEach

variable {α κ : Type*} [DecidableEq κ] {key : α → κ} {seen : List κ} {l : List α} {a : α} {k : κ}

def firsts (key : α → κ) : List κ → List α → List α
  | _, [] => []
  | seen, a :: l =>
    if key a ∈ seen then firsts key seen l else a :: firsts key (key a :: seen) l

@[simp] theorem firsts_nil : firsts key seen [] = [] := rfl

theorem firsts_cons_of_mem (h : key a ∈ seen) : firsts key seen (a :: l) = firsts key seen l :=
  if_pos h

theorem firsts_cons_of_notMem (h : key a ∉ seen) :
    firsts key seen (a :: l) = a :: firsts key (key a :: seen) l :=
  if_neg h

/-- The keys that are left are those of the list that were not seen. -/
theorem mem_map_firsts : k ∈ (firsts key seen l).map key ↔ k ∈ l.map key ∧ k ∉ seen := by
  induction l generalizing seen with
  | nil => simp
  | cons a l ih =>
    rcases Decidable.em (key a ∈ seen) with hSeen | hNew
    · rw [firsts_cons_of_mem hSeen, ih, List.map_cons, List.mem_cons]
      constructor
      · rintro ⟨hMem, hNot⟩
        exact ⟨Or.inr hMem, hNot⟩
      · rintro ⟨rfl | hMem, hNot⟩
        · exact absurd hSeen hNot
        · exact ⟨hMem, hNot⟩
    · rw [firsts_cons_of_notMem hNew, List.map_cons, List.map_cons, List.mem_cons, List.mem_cons, ih,
        List.mem_cons, not_or]
      constructor
      · rintro (rfl | ⟨hMem, -, hNot⟩)
        · exact ⟨Or.inl rfl, hNew⟩
        · exact ⟨Or.inr hMem, hNot⟩
      · rintro ⟨hMem, hNot⟩
        rcases eq_or_ne k (key a) with rfl | hNe
        · exact Or.inl rfl
        · exact Or.inr ⟨hMem.resolve_left hNe, hNe, hNot⟩

/-- Only the seen keys that pass the filter matter. -/
theorem firsts_filter_of_agree {p : κ → Bool} {seen' : List κ}
    (h : ∀ k, p k = true → (k ∈ seen ↔ k ∈ seen')) :
    firsts key seen (l.filter fun a => p (key a)) =
      (firsts key seen' l).filter fun a => p (key a) := by
  induction l generalizing seen seen' with
  | nil => rfl
  | cons a l ih =>
    cases hp : p (key a) with
    | false =>
      rw [List.filter_cons_of_neg (by rw [hp]; exact Bool.false_ne_true)]
      rcases Decidable.em (key a ∈ seen') with hSeen | hNew
      · rw [firsts_cons_of_mem hSeen]
        exact ih h
      · rw [firsts_cons_of_notMem hNew, List.filter_cons_of_neg (by rw [hp]; exact Bool.false_ne_true)]
        apply ih
        intro k hk
        rw [h k hk, List.mem_cons]
        constructor
        · exact Or.inr
        · rintro (rfl | hMem)
          · rw [hp] at hk
            cases hk
          · exact hMem
    | true =>
      rw [List.filter_cons, if_pos hp]
      rcases Decidable.em (key a ∈ seen) with hSeen | hNew
      · rw [firsts_cons_of_mem hSeen, firsts_cons_of_mem ((h _ hp).mp hSeen)]
        exact ih h
      · rw [firsts_cons_of_notMem hNew, firsts_cons_of_notMem (mt (h _ hp).mpr hNew),
          List.filter_cons, if_pos hp]
        congr 1
        apply ih
        intro k hk
        rw [List.mem_cons, List.mem_cons, h k hk]

theorem firsts_filter (p : κ → Bool) :
    firsts key seen (l.filter fun a => p (key a)) =
      (firsts key seen l).filter fun a => p (key a) :=
  firsts_filter_of_agree fun _ _ => Iff.rfl

theorem firsts_eq_self (hNodup : (l.map key).Nodup) (hNew : ∀ k ∈ seen, k ∉ l.map key) :
    firsts key seen l = l := by
  induction l generalizing seen with
  | nil => rfl
  | cons a l ih =>
    rw [List.map_cons] at hNodup hNew
    obtain ⟨hFresh, hNodup⟩ := List.nodup_cons.mp hNodup
    rw [firsts_cons_of_notMem fun hMem => hNew _ hMem List.mem_cons_self, ih hNodup]
    intro k hk hMem
    rcases List.mem_cons.mp hk with rfl | hk
    · exact hFresh hMem
    · exact hNew k hk (List.mem_cons_of_mem _ hMem)

theorem nodup_firsts : ((firsts key seen l).map key).Nodup := by
  induction l generalizing seen with
  | nil => exact List.nodup_nil
  | cons a l ih =>
    rcases Decidable.em (key a ∈ seen) with hSeen | hNew
    · rw [firsts_cons_of_mem hSeen]
      exact ih
    · rw [firsts_cons_of_notMem hNew, List.map_cons, List.nodup_cons, mem_map_firsts]
      exact ⟨fun h => h.2 List.mem_cons_self, ih⟩

theorem firsts_firsts : firsts key seen (firsts key seen l) = firsts key seen l :=
  firsts_eq_self nodup_firsts fun _ hSeen hMem => (mem_map_firsts.mp hMem).2 hSeen

end Bullet.Lib.FirstOfEach
