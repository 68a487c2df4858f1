import Bullet.Lib.PartialRun

/-! # The last output of a run

Some steps of a partial transition function put something out. The last output of a run decides every
observation that only these steps change, and runs from related states have the same one.
-/

namespace Bullet.Lib.PartialRun

variable {σ τ ι α β : Type*} {step : σ → ι → Option σ} {step' : τ → ι → Option τ}
  {out : σ → ι → Option α} {out' : τ → ι → Option α} {s s' : σ} {t : τ}

/-- The output of the last step of the run that has one. -/
def lastOutput (step : σ → ι → Option σ) (out : σ → ι → Option α) : σ → List ι → Option α
  | _, [] => none
  | s, i :: l => (step s i).bind fun t => (lastOutput step out t l).or (out s i)

/-- An observation that every output determines and that no other step changes. -/
theorem observe_of_lastOutput {observe : σ → β} {f : α → β}
    (hOut : ∀ s i t, step s i = some t → observe t = ((out s i).map f).getD (observe s))
    {l : List ι} (hRun : run step s l = some s') :
    observe s' = ((lastOutput step out s l).map f).getD (observe s) := by
  induction l generalizing s with
  | nil =>
    cases hRun
    rfl
  | cons i l ih =>
    obtain ⟨t, hStep, hRest⟩ := Option.bind_eq_some_iff.mp hRun
    rw [ih hRest, hOut s i t hStep, lastOutput, hStep, Option.bind_some]
    cases lastOutput step out t l with
    | none => rfl
    | some a => rfl

/-- A simulation of steps is one of runs. -/
theorem run_of_related {rel : σ → τ → Prop}
    (hStep : ∀ s t i s', rel s t → step s i = some s' → ∃ t', step' t i = some t' ∧ rel s' t')
    {l : List ι} (h : rel s t) (hRun : run step s l = some s') :
    ∃ t', run step' t l = some t' ∧ rel s' t' := by
  induction l generalizing s t with
  | nil =>
    cases hRun
    exact ⟨t, rfl, h⟩
  | cons i l ih =>
    obtain ⟨u, hFirst, hRest⟩ := Option.bind_eq_some_iff.mp hRun
    obtain ⟨u', hFirst', hRel⟩ := hStep s t i u h hFirst
    obtain ⟨t', hRest', hEnd⟩ := ih hRel hRest
    refine ⟨t', ?_, hEnd⟩
    rw [run_cons, hFirst']
    exact hRest'

/-- Related states that put out the same have the same last output, on a run that goes through. -/
theorem lastOutput_of_related {rel : σ → τ → Prop}
    (hStep : ∀ s t i s', rel s t → step s i = some s' → ∃ t', step' t i = some t' ∧ rel s' t')
    (hOut : ∀ s t i, rel s t → out s i = out' t i)
    {l : List ι} (h : rel s t) (hRun : run step s l = some s') :
    lastOutput step out s l = lastOutput step' out' t l := by
  induction l generalizing s t with
  | nil => rfl
  | cons i l ih =>
    obtain ⟨u, hFirst, hRest⟩ := Option.bind_eq_some_iff.mp hRun
    obtain ⟨u', hFirst', hRel⟩ := hStep s t i u h hFirst
    rw [lastOutput, lastOutput, hFirst, hFirst', Option.bind_some, Option.bind_some, ih hRel hRest,
      hOut s t i h]

end Bullet.Lib.PartialRun
