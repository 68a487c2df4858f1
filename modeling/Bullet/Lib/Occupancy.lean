import Mathlib.Data.List.Count
import Mathlib.Data.List.Nodup
import Mathlib.Logic.Function.Basic
import Bullet.Lib.PartialRun

/-! # Occupied entries of a table

The number of entries of a table that are in use, and steps that walk over the entries one by one.
-/

namespace Bullet.Lib.Occupancy

open PartialRun

section Count

variable {κ α : Type*} {busy : α → Bool} {keys : List κ} {f : κ → Option α} {k : κ} {v : α}

/-- The number of the listed entries that are in use. -/
def occupied (busy : α → Bool) (keys : List κ) (f : κ → Option α) : ℕ :=
  keys.countP fun k => (f k).any busy

theorem occupied_perm {keys' : List κ} (h : keys.Perm keys') :
    occupied busy keys f = occupied busy keys' f :=
  h.countP_eq _

theorem occupied_le : occupied busy keys f ≤ keys.length :=
  List.countP_le_length

theorem occupied_lt_iff :
    occupied busy keys f < keys.length ↔ ∃ k ∈ keys, (f k).any busy = false := by
  have hLe : occupied busy keys f ≤ keys.length := occupied_le
  constructor
  · intro hLt
    by_contra hAll
    push Not at hAll
    have hFull : occupied busy keys f = keys.length :=
      List.countP_eq_length.mpr fun k hMem => by simpa using hAll k hMem
    omega
  · rintro ⟨k, hMem, hFree⟩
    apply Nat.lt_of_le_of_ne hLe
    intro hFull
    have hBusy := List.countP_eq_length.mp hFull k hMem
    rw [hFree] at hBusy
    cases hBusy

variable [DecidableEq κ]

theorem occupied_update_of_notMem (h : k ∉ keys) :
    occupied busy keys (Function.update f k (some v)) = occupied busy keys f := by
  apply List.countP_congr
  intro j hMem
  rw [Function.update_of_ne]
  rintro rfl
  exact h hMem

theorem occupied_update (busy : α → Bool) (f : κ → Option α) (v : α) (hNodup : keys.Nodup)
    (hMem : k ∈ keys) :
    occupied busy keys (Function.update f k (some v)) + ((f k).any busy).toNat =
      occupied busy keys f + (busy v).toNat := by
  induction keys with
  | nil => exact absurd hMem List.not_mem_nil
  | cons j keys ih =>
    have hCons : ∀ g : κ → Option α, occupied busy (j :: keys) g =
        occupied busy keys g + ((g j).any busy).toNat := by
      intro g
      rw [occupied, List.countP_cons, occupied]
      cases (g j).any busy <;> rfl
    rw [hCons, hCons]
    obtain ⟨hHead, hTail⟩ := List.nodup_cons.mp hNodup
    by_cases hEq : k = j
    · subst hEq
      rw [occupied_update_of_notMem hHead, Function.update_self, Option.any_some]
      omega
    · have hRest := ih hTail ((List.mem_cons.mp hMem).resolve_left hEq)
      rw [Function.update_of_ne (Ne.symm hEq)]
      omega

end Count

section Sweep

variable {σ κ β : Type*} [DecidableEq κ] {step : σ → κ → Option σ} {view : σ → κ → Option β}
  {f : β → β} {inv : σ → Prop} {s : σ}

/-- A step at a key succeeds, keeps `inv` and changes the entry of that key alone, by `f`. -/
def Sweeps (step : σ → κ → Option σ) (view : σ → κ → Option β) (f : β → β) (inv : σ → Prop) : Prop :=
  ∀ s k b, inv s → view s k = some b →
    ∃ t, step s k = some t ∧ inv t ∧ view t = Function.update (view s) k (some (f b))

/-- A sweep over distinct keys changes each of their entries by `f`. -/
theorem Sweeps.run (h : Sweeps step view f inv) {l : List κ} (hInv : inv s) (hNodup : l.Nodup)
    (hSome : ∀ k ∈ l, (view s k).isSome) :
    ∃ t, run step s l = some t ∧ inv t ∧
      ∀ k, view t k = if k ∈ l then (view s k).map f else view s k := by
  induction l generalizing s with
  | nil => exact ⟨s, rfl, hInv, fun k => (if_neg List.not_mem_nil).symm⟩
  | cons j l ih =>
    obtain ⟨hHead, hTail⟩ := List.nodup_cons.mp hNodup
    obtain ⟨b, hView⟩ := Option.isSome_iff_exists.mp (hSome j List.mem_cons_self)
    obtain ⟨t, hStep, hInvT, hUpdate⟩ := h s j b hInv hView
    have hOther : ∀ k ∈ l, view t k = view s k := by
      intro k hMem
      rw [hUpdate, Function.update_of_ne]
      rintro rfl
      exact hHead hMem
    obtain ⟨u, hRun, hInvU, hRest⟩ := ih hInvT hTail fun k hMem => by
      rw [hOther k hMem]
      exact hSome k (List.mem_cons_of_mem j hMem)
    refine ⟨u, ?_, hInvU, fun k => ?_⟩
    · rw [run_cons, hStep]
      exact hRun
    · rw [hRest]
      by_cases hMem : k ∈ l
      · rw [if_pos hMem, if_pos (List.mem_cons_of_mem j hMem), hOther k hMem]
      · rw [if_neg hMem, hUpdate]
        by_cases hEq : k = j
        · subst hEq
          rw [Function.update_self, if_pos List.mem_cons_self, hView, Option.map_some]
        · rw [Function.update_of_ne hEq, if_neg]
          exact fun hCons => (List.mem_cons.mp hCons).elim hEq hMem

end Sweep

end Bullet.Lib.Occupancy
