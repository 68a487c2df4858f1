import Mathlib.Data.List.Basic

/-! # Faults

Computations with integers of 32 bits that tell a division by zero from an assertion that fails.
-/

namespace Bullet.Lib.Faults

inductive Fault where
  | assertion
  | division
deriving DecidableEq, Repr

variable {α β : Type} {x : Except Fault α} {f : α → Except Fault β} {fault : Fault}

def divide (n d : UInt32) : Except Fault UInt32 :=
  if d = 0 then .error .division else .ok (n / d)

theorem divide_of_ne {d : UInt32} (h : d ≠ 0) (n : UInt32) : divide n d = .ok (n / d) := if_neg h

theorem divide_ne_assertion (n d : UInt32) : divide n d ≠ .error .assertion := by
  rw [divide]
  split <;> nofun

@[simp] theorem bind_ok (a : α) (f : α → Except Fault β) : (Except.ok a >>= f) = f a := rfl

@[simp] theorem bind_error (fault : Fault) (f : α → Except Fault β) :
    ((Except.error fault : Except Fault α) >>= f) = .error fault := rfl

/-- A fault that neither part meets, the whole does not meet. -/
theorem bind_ne (hx : x ≠ .error fault) (hf : ∀ a, x = .ok a → f a ≠ .error fault) :
    (x >>= f) ≠ .error fault := by
  cases x with
  | error other =>
    intro h
    exact hx (congrArg _ (Except.error.inj h))
  | ok a => exact hf a rfl

theorem foldlM_ok {ι σ : Type} {step : σ → ι → Except Fault σ} {next : σ → ι → σ} {l : List ι}
    (h : ∀ s i, i ∈ l → step s i = .ok (next s i)) (s : σ) :
    l.foldlM step s = .ok (l.foldl next s) := by
  induction l generalizing s with
  | nil => rfl
  | cons i l ih =>
    rw [List.foldlM_cons, h s i List.mem_cons_self, bind_ok, List.foldl_cons]
    exact ih (fun s j hj => h s j (List.mem_cons_of_mem i hj)) _

theorem foldlM_ne {ι σ : Type} {step : σ → ι → Except Fault σ} {l : List ι}
    (h : ∀ s i, step s i ≠ .error fault) (s : σ) : l.foldlM step s ≠ .error fault := by
  induction l generalizing s with
  | nil => nofun
  | cons i l ih => exact bind_ne (h s i) fun t _ => ih t

theorem forM_cons {ι : Type} (body : ι → Except Fault Unit) (i : ι) (l : List ι) :
    (i :: l).forM body = (body i >>= fun _ => l.forM body) := rfl

/-- A loop whose body only ever divides by zero does so when one of its rounds does. -/
theorem forM_ne_division_iff {ι : Type} {body : ι → Except Fault Unit} {l : List ι}
    (h : ∀ i ∈ l, body i ≠ .error .assertion) :
    l.forM body ≠ .error .division ↔ ∀ i ∈ l, body i ≠ .error .division := by
  induction l with
  | nil => exact iff_of_true nofun nofun
  | cons i l ih =>
    rw [forM_cons, List.forall_mem_cons,
      ← ih fun j hj => h j (List.mem_cons_of_mem i hj)]
    cases hBody : body i with
    | error fault =>
      cases fault with
      | assertion => exact absurd hBody (h i List.mem_cons_self)
      | division => simp
    | ok u => simp

theorem forM_ne_assertion {ι : Type} {body : ι → Except Fault Unit} {l : List ι}
    (h : ∀ i ∈ l, body i ≠ .error .assertion) : l.forM body ≠ .error .assertion := by
  induction l with
  | nil => nofun
  | cons i l ih =>
    rw [forM_cons]
    exact bind_ne (h i List.mem_cons_self) fun _ _ => ih fun j hj => h j (List.mem_cons_of_mem i hj)

end Bullet.Lib.Faults
