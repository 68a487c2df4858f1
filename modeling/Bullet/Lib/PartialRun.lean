import Mathlib.Data.Option.Basic
import Mathlib.Data.List.Basic

/-! # Runs of a partial transition function

A step may fail, and a failed step ends the run. A guard is a condition on the state before a step
and on its input; `StepsMeet` asks for it at every step the run takes.
-/

namespace Bullet.Lib.PartialRun

variable {σ ι : Type*} {step : σ → ι → Option σ} {ok ok' : σ → ι → Prop} {s t u : σ}

def run (step : σ → ι → Option σ) (s : σ) (inputs : List ι) : Option σ :=
  inputs.foldlM step s

@[simp] theorem run_nil : run step s [] = some s := rfl

@[simp] theorem run_cons (i : ι) (l : List ι) :
    run step s (i :: l) = (step s i).bind (fun t => run step t l) := rfl

theorem run_append (l m : List ι) :
    run step s (l ++ m) = (run step s l).bind (fun t => run step t m) := by
  induction l generalizing s with
  | nil => rfl
  | cons i l ih =>
    rw [List.cons_append, run_cons, run_cons, Option.bind_assoc]
    exact congrArg _ (funext fun _ => ih)

/-- A run of batches is the run of their concatenation. -/
theorem run_flatten (batches : List (List ι)) :
    run (run step) s batches = run step s batches.flatten := by
  induction batches generalizing s with
  | nil => rfl
  | cons l batches ih =>
    rw [run_cons, List.flatten_cons, run_append]
    exact congrArg _ (funext fun _ => ih)

/-- `ok` holds before each step of the run on the listed inputs. -/
def StepsMeet (step : σ → ι → Option σ) (ok : σ → ι → Prop) : σ → List ι → Prop
  | _, [] => True
  | s, i :: l => ok s i ∧ ∀ t, step s i = some t → StepsMeet step ok t l

theorem StepsMeet.mono (hOk : ∀ s i, ok s i → ok' s i) {l : List ι}
    (h : StepsMeet step ok s l) : StepsMeet step ok' s l := by
  induction l generalizing s with
  | nil => trivial
  | cons i l ih => exact ⟨hOk s i h.1, fun t hStep => ih (h.2 t hStep)⟩

theorem StepsMeet.and {l : List ι} (h : StepsMeet step ok s l) (h' : StepsMeet step ok' s l) :
    StepsMeet step (fun s i => ok s i ∧ ok' s i) s l := by
  induction l generalizing s with
  | nil => trivial
  | cons i l ih => exact ⟨⟨h.1, h'.1⟩, fun t hStep => ih (h.2 t hStep) (h'.2 t hStep)⟩

theorem stepsMeet_of_forall_mem {l : List ι} (h : ∀ i ∈ l, ∀ s, ok s i) :
    StepsMeet step ok s l := by
  induction l generalizing s with
  | nil => trivial
  | cons i l ih =>
    exact ⟨h i List.mem_cons_self s, fun t _ => ih fun j hMem => h j (List.mem_cons_of_mem i hMem)⟩

theorem stepsMeet_append {l m : List ι} :
    StepsMeet step ok s (l ++ m) ↔
      StepsMeet step ok s l ∧ ∀ t, run step s l = some t → StepsMeet step ok t m := by
  induction l generalizing s with
  | nil =>
    constructor
    · intro h
      refine ⟨trivial, fun t hRun => ?_⟩
      cases hRun
      exact h
    · intro h
      exact h.2 s rfl
  | cons i l ih =>
    constructor
    · rintro ⟨hOk, hRest⟩
      refine ⟨⟨hOk, fun t hStep => (ih.mp (hRest t hStep)).1⟩, ?_⟩
      intro u hRun
      obtain ⟨t, hStep, hRun⟩ := Option.bind_eq_some_iff.mp hRun
      exact (ih.mp (hRest t hStep)).2 u hRun
    · rintro ⟨⟨hOk, hRest⟩, hTail⟩
      refine ⟨hOk, fun t hStep => ih.mpr ⟨hRest t hStep, fun u hRun => hTail u ?_⟩⟩
      rw [run_cons, hStep]
      exact hRun

/-- Every input of a guarded run meets the guard in the state that the inputs before it lead to. -/
theorem stepsMeet_iff_forall_append {l : List ι} :
    StepsMeet step ok s l ↔
      ∀ p i q, l = p ++ i :: q → ∀ t, run step s p = some t → ok t i := by
  constructor
  · rintro h p i q rfl t hRun
    exact ((stepsMeet_append.mp h).2 t hRun).1
  · intro h
    induction l generalizing s with
    | nil => trivial
    | cons i l ih =>
      refine ⟨h [] i l rfl s rfl, fun t hStep => ih ?_⟩
      rintro p j q rfl u hRun
      apply h (i :: p) j q rfl u
      rw [run_cons, hStep]
      exact hRun

instance StepsMeet.decidable [∀ s i, Decidable (ok s i)] :
    ∀ (s : σ) (l : List ι), Decidable (StepsMeet step ok s l)
  | _, [] => inferInstanceAs (Decidable True)
  | s, i :: l =>
    match hStep : step s i with
    | none => decidable_of_iff (ok s i)
        ⟨fun h => ⟨h, fun t ht => by rw [hStep] at ht; cases ht⟩, fun h => h.1⟩
    | some t =>
      have : Decidable (StepsMeet step ok t l) := StepsMeet.decidable t l
      decidable_of_iff (ok s i ∧ StepsMeet step ok t l)
        ⟨fun h => ⟨h.1, fun u hu => by rw [hStep] at hu; cases hu; exact h.2⟩,
          fun h => ⟨h.1, h.2 t hStep⟩⟩

/-- What one guarded step keeps, the whole guarded run keeps. -/
theorem invariant_of_run {inv : σ → Prop}
    (hStep : ∀ s i t, inv s → ok s i → step s i = some t → inv t) {l : List ι}
    (hInv : inv s) (hOk : StepsMeet step ok s l) (hRun : run step s l = some t) : inv t := by
  induction l generalizing s with
  | nil =>
    cases hRun
    exact hInv
  | cons i l ih =>
    obtain ⟨u, hFirst, hRest⟩ := Option.bind_eq_some_iff.mp hRun
    exact ih (hStep s i u hInv hOk.1 hFirst) (hOk.2 u hFirst) hRest

/-- What every step keeps, every run keeps. -/
theorem invariant_of_step {inv : σ → Prop}
    (hStep : ∀ s i t, inv s → step s i = some t → inv t) {l : List ι} (hInv : inv s)
    (hRun : run step s l = some t) : inv t := by
  have hMeet : StepsMeet step (fun _ _ => True) s l :=
    stepsMeet_of_forall_mem fun _ _ _ => trivial
  exact invariant_of_run (fun s i t hInv _ hNext => hStep s i t hInv hNext) hInv hMeet hRun

/-- A run over images is a run of the step function on them. -/
theorem run_map {κ : Type*} (f : κ → ι) (l : List κ) :
    run step s (l.map f) = run (fun s i => step s (f i)) s l := by
  induction l generalizing s with
  | nil => rfl
  | cons i l ih =>
    rw [List.map_cons, run_cons, run_cons]
    exact congrArg _ (funext fun _ => ih)

/-- A run on embedded states mirrors a fold over the embedded ones. -/
theorem run_embed {τ : Type*} {f : τ → σ} {g : τ → ι → τ} {p : τ → Prop} {l : List ι} {x : τ}
    (hStep : ∀ x, p x → ∀ i ∈ l, step (f x) i = some (f (g x i)) ∧ p (g x i))
    (hInv : p x) :
    run step (f x) l = some (f (l.foldl g x)) ∧ p (l.foldl g x) := by
  induction l generalizing x with
  | nil => exact ⟨rfl, hInv⟩
  | cons i l ih =>
    obtain ⟨hFirst, hNext⟩ := hStep x hInv i List.mem_cons_self
    rw [run_cons, hFirst]
    exact ih (fun y hy j hj => hStep y hy j (List.mem_cons_of_mem i hj)) hNext

/-- An invariant of the state and of the inputs that remain, when every step succeeds. -/
theorem run_of_remaining {inv : List ι → σ → Prop}
    (hStep : ∀ i l s, inv (i :: l) s → ∃ t, step s i = some t ∧ inv l t) {l : List ι}
    (hInv : inv l s) : ∃ t, run step s l = some t ∧ inv [] t := by
  induction l generalizing s with
  | nil => exact ⟨s, rfl, hInv⟩
  | cons i l ih =>
    obtain ⟨t, hFirst, hNext⟩ := hStep i l s hInv
    obtain ⟨u, hRun, hEnd⟩ := ih hNext
    refine ⟨u, ?_, hEnd⟩
    rw [run_cons, hFirst]
    exact hRun

/-- An invariant of the state and of the inputs that remain. -/
theorem invariant_of_remaining {inv : List ι → σ → Prop}
    (hStep : ∀ i l s t, inv (i :: l) s → step s i = some t → inv l t) {l : List ι}
    (hInv : inv l s) (hRun : run step s l = some t) : inv [] t := by
  induction l generalizing s with
  | nil =>
    cases hRun
    exact hInv
  | cons i l ih =>
    obtain ⟨u, hFirst, hRest⟩ := Option.bind_eq_some_iff.mp hRun
    exact ih (hStep i l s u hInv hFirst) hRest

/-- When the guard says which steps keep a property, a run that ends meets the guard exactly when
the property holds in every state it passes. -/
theorem stepsMeet_iff_of_run {inv good : σ → Prop} {allowed : ι → Prop}
    (hInv : ∀ s i t, inv s → step s i = some t → inv t)
    (hGood : ∀ s i t, inv s → good s → allowed i → step s i = some t → (good t ↔ ok s i))
    (hStart : inv s) (hFirst : good s) {l : List ι} (hAllowed : ∀ i ∈ l, allowed i)
    (hRun : run step s l = some u) :
    (∀ p q, l = p ++ q → ∀ t, run step s p = some t → good t) ↔ StepsMeet step ok s l := by
  induction l generalizing s with
  | nil =>
    refine iff_of_true (fun p q hSplit t hPart => ?_) trivial
    obtain ⟨rfl, rfl⟩ := List.nil_eq_append_iff.mp hSplit
    cases hPart
    exact hFirst
  | cons i l ih =>
    obtain ⟨v, hStep, hRest⟩ := Option.bind_eq_some_iff.mp hRun
    have hOne := hGood s i v hStart hFirst (hAllowed i List.mem_cons_self) hStep
    have hTail := fun hGoodV => ih (hInv s i v hStart hStep) hGoodV
      (fun j hMem => hAllowed j (List.mem_cons_of_mem i hMem)) hRest
    constructor
    · intro hAll
      have hGoodV : good v := hAll [i] l rfl v (by rw [run_cons, hStep]; rfl)
      refine ⟨hOne.mp hGoodV, fun t hEq => ?_⟩
      cases hStep.symm.trans hEq
      refine (hTail hGoodV).mp fun p q hSplit t hPart => hAll (i :: p) q ?_ t ?_
      · rw [hSplit, List.cons_append]
      · rw [run_cons, hStep]
        exact hPart
    · rintro ⟨hOk, hMeet⟩ p q hSplit t hPart
      have hGoodV : good v := hOne.mpr hOk
      cases p with
      | nil =>
        cases hPart
        exact hFirst
      | cons j p =>
        obtain ⟨rfl, rfl⟩ := List.cons.inj hSplit
        rw [run_cons, hStep] at hPart
        exact (hTail hGoodV).mpr (hMeet v hStep) p q rfl t hPart

/-- When the guard says which steps succeed and reach good states, the guarded runs are those that
pass good states only and never fail. -/
theorem forall_prefix_iff_stepsMeet {inv good : σ → Prop}
    (hInv : ∀ s i t, inv s → step s i = some t → inv t)
    (hGood : ∀ s i, inv s → ((∃ t, step s i = some t ∧ good t) ↔ ok s i))
    (hStart : inv s) (hFirst : good s) {l : List ι} :
    (∀ p q, l = p ++ q → ∃ t, run step s p = some t ∧ good t) ↔ StepsMeet step ok s l := by
  induction l generalizing s with
  | nil =>
    refine iff_of_true (fun p q hSplit => ?_) trivial
    obtain ⟨rfl, rfl⟩ := List.nil_eq_append_iff.mp hSplit
    exact ⟨s, rfl, hFirst⟩
  | cons i l ih =>
    rw [StepsMeet, ← hGood s i hStart]
    constructor
    · intro hAll
      obtain ⟨u, hRun, hGoodU⟩ := hAll [i] l rfl
      obtain ⟨t, hStep, hEnd⟩ := Option.bind_eq_some_iff.mp hRun
      cases hEnd
      refine ⟨⟨u, hStep, hGoodU⟩, fun t hEq => ?_⟩
      cases hStep.symm.trans hEq
      refine (ih (hInv s i u hStart hStep) hGoodU).mp fun p q hSplit => ?_
      obtain ⟨v, hPart, hGoodV⟩ := hAll (i :: p) q (by rw [hSplit, List.cons_append])
      rw [run_cons, hStep] at hPart
      exact ⟨v, hPart, hGoodV⟩
    · rintro ⟨⟨t, hStep, hGoodT⟩, hMeet⟩ p q hSplit
      cases p with
      | nil => exact ⟨s, rfl, hFirst⟩
      | cons j p =>
        obtain ⟨rfl, rfl⟩ := List.cons.inj hSplit
        obtain ⟨u, hPart, hGoodU⟩ :=
          (ih (hInv s i t hStart hStep) hGoodT).mpr (hMeet t hStep) p q rfl
        refine ⟨u, ?_, hGoodU⟩
        rw [run_cons, hStep]
        exact hPart

/-- Guards that agree under an invariant of the guarded steps guard the same runs. -/
theorem stepsMeet_congr_of_guard {inv : σ → Prop}
    (hInv : ∀ s i t, inv s → ok s i → step s i = some t → inv t)
    (hOk : ∀ s i, inv s → (ok s i ↔ ok' s i)) (hStart : inv s) {l : List ι} :
    StepsMeet step ok s l ↔ StepsMeet step ok' s l := by
  induction l generalizing s with
  | nil => exact Iff.rfl
  | cons i l ih =>
    constructor
    · rintro ⟨hFirst, hRest⟩
      exact ⟨(hOk s i hStart).mp hFirst, fun t hStep =>
        (ih (hInv s i t hStart hFirst hStep)).mp (hRest t hStep)⟩
    · rintro ⟨hFirst, hRest⟩
      have hGuard := (hOk s i hStart).mpr hFirst
      exact ⟨hGuard, fun t hStep => (ih (hInv s i t hStart hGuard hStep)).mpr (hRest t hStep)⟩

/-- Guards that agree under an invariant guard the same runs. -/
theorem stepsMeet_congr {inv : σ → Prop} (hInv : ∀ s i t, inv s → step s i = some t → inv t)
    (hOk : ∀ s i, inv s → (ok s i ↔ ok' s i)) (hStart : inv s) {l : List ι} :
    StepsMeet step ok s l ↔ StepsMeet step ok' s l :=
  stepsMeet_congr_of_guard (fun s i t hS _ hStep => hInv s i t hS hStep) hOk hStart

/-- When the guard says which steps succeed, the guarded runs are the successful ones. -/
theorem run_ne_none_iff {inv : σ → Prop} (hInv : ∀ s i t, inv s → step s i = some t → inv t)
    (hOk : ∀ s i, inv s → (step s i ≠ none ↔ ok s i)) (hStart : inv s) {l : List ι} :
    run step s l ≠ none ↔ StepsMeet step ok s l := by
  induction l generalizing s with
  | nil => exact ⟨fun _ => trivial, fun _ => Option.some_ne_none s⟩
  | cons i l ih =>
    rw [run_cons, StepsMeet, ← hOk s i hStart]
    cases hStep : step s i with
    | none => simp
    | some t =>
      have hRest := ih (hInv s i t hStart hStep)
      constructor
      · intro hRun
        refine ⟨Option.some_ne_none t, fun u hEq => ?_⟩
        cases hEq
        exact hRest.mp hRun
      · rintro ⟨-, hMeet⟩
        exact hRest.mpr (hMeet t rfl)

/-- From a state in `inv`, a guarded step succeeds, stays in `inv` and moves along `rel`. -/
structure Advances (step : σ → ι → Option σ) (ok : σ → ι → Prop) (inv : σ → Prop)
    (rel : σ → σ → Prop) : Prop where
  refl : ∀ s, rel s s
  trans : ∀ s t u, rel s t → rel t u → rel s u
  advance : ∀ s i, inv s → ok s i → ∃ t, step s i = some t ∧ inv t ∧ rel s t

/-- A guarded run of an advancing step function succeeds. -/
theorem Advances.run {inv : σ → Prop} {rel : σ → σ → Prop} (h : Advances step ok inv rel)
    {l : List ι} (hInv : inv s) (hOk : StepsMeet step ok s l) :
    ∃ t, run step s l = some t ∧ inv t ∧ rel s t := by
  induction l generalizing s with
  | nil => exact ⟨s, rfl, hInv, h.refl s⟩
  | cons i l ih =>
    obtain ⟨t, hStep, hInvT, hRel⟩ := h.advance s i hInv hOk.1
    obtain ⟨u, hRun, hInvU, hRelU⟩ := ih hInvT (hOk.2 t hStep)
    refine ⟨u, ?_, hInvU, h.trans s t u hRel hRelU⟩
    rw [run_cons, hStep]
    exact hRun

/-- A partial function that succeeds on every element of a list maps the list. -/
theorem mapM_eq_map {α β : Type*} {f : α → Option β} {g : α → β} {l : List α}
    (h : ∀ a ∈ l, f a = some (g a)) : l.mapM f = some (l.map g) := by
  induction l with
  | nil => rfl
  | cons a l ih =>
    rw [List.mapM_cons, h a List.mem_cons_self, ih fun b hb => h b (List.mem_cons_of_mem a hb)]
    rfl

/-- What a map of a list returns, it returns for each of the elements. -/
theorem exists_of_mapM {α β : Type*} {f : α → Option β} {l : List α} {l' : List β}
    (h : l.mapM f = some l') {a : α} (ha : a ∈ l) : ∃ b ∈ l', f a = some b := by
  induction l generalizing l' with
  | nil => cases ha
  | cons c l ih =>
    rw [List.mapM_cons] at h
    obtain ⟨b, hHead, h⟩ := Option.bind_eq_some_iff.mp h
    obtain ⟨bs, hTail, h⟩ := Option.bind_eq_some_iff.mp h
    cases h
    rcases List.mem_cons.mp ha with rfl | ha
    · exact ⟨b, List.mem_cons_self, hHead⟩
    · obtain ⟨b', hMem, hApply⟩ := ih hTail ha
      exact ⟨b', List.mem_cons_of_mem b hMem, hApply⟩

/-- What a map of a list returns, it returns for some element. -/
theorem mem_of_mapM {α β : Type*} {f : α → Option β} {l : List α} {l' : List β}
    (h : l.mapM f = some l') {b : β} (hb : b ∈ l') : ∃ a ∈ l, f a = some b := by
  induction l generalizing l' with
  | nil =>
    cases h
    cases hb
  | cons c l ih =>
    rw [List.mapM_cons] at h
    obtain ⟨first, hHead, h⟩ := Option.bind_eq_some_iff.mp h
    obtain ⟨rest, hTail, h⟩ := Option.bind_eq_some_iff.mp h
    cases h
    rcases List.mem_cons.mp hb with rfl | hb
    · exact ⟨c, List.mem_cons_self, hHead⟩
    · obtain ⟨a, hMem, hApply⟩ := ih hTail hb
      exact ⟨a, List.mem_cons_of_mem c hMem, hApply⟩

end Bullet.Lib.PartialRun
