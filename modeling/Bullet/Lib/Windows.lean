import Mathlib.Data.ZMod.Basic

/-! # Once in every window

A window of length `p` is a range of `p` consecutive times. An event that happens once in every
window happens at times of one residue modulo `p`; the terms of an arithmetic progression whose step
is coprime to `p` meet each residue once in a window.
-/

namespace Bullet.Lib.Windows

/-- `P` holds at one time of the window of length `p` that begins at `n`. -/
def OnceFrom (p : ℕ) (P : ℕ → Prop) (n : ℕ) : Prop :=
  ∃! k, k < p ∧ P (n + k)

variable {p a b : ℕ} {P Q : ℕ → Prop}

theorem OnceFrom.pos {n : ℕ} (h : OnceFrom p P n) : 0 < p := by
  obtain ⟨k, ⟨hK, -⟩, -⟩ := h
  exact Nat.zero_lt_of_lt hK

theorem onceFrom_congr {n : ℕ} (h : ∀ k < p, P (n + k) ↔ Q (n + k)) :
    OnceFrom p P n ↔ OnceFrom p Q n := by
  apply existsUnique_congr
  intro k
  exact and_congr_right fun hK => h k hK

/-- The previous time of an event that happens once in every window. -/
theorem sub_of_onceFrom (hPrev : OnceFrom p P (b - p)) (hNext : OnceFrom p P (b - p + 1))
    (hLe : p ≤ b) (hb : P b) : P (b - p) := by
  have hPos := hPrev.pos
  obtain ⟨k, ⟨hK, hHit⟩, -⟩ := hPrev
  rcases Nat.eq_zero_or_pos k with rfl | hLate
  · exact hHit
  · -- A later time of the window lies in the next one too, together with `b`.
    have hTime : b - p + k = b - p + 1 + (k - 1) := by omega
    have hEnd : b = b - p + 1 + (p - 1) := by omega
    have hSame : k - 1 = p - 1 :=
      hNext.unique ⟨by omega, hTime ▸ hHit⟩ ⟨by omega, hEnd ▸ hb⟩
    omega

/-- Two times of the event differ by a multiple of the length. -/
theorem dvd_sub_of_onceFrom (hOnce : ∀ n ≤ b, OnceFrom p P n) (ha : P a) (hb : P b)
    (hLe : a ≤ b) : p ∣ b - a := by
  induction b using Nat.strong_induction_on with
  | h b ih =>
    have hPos := (hOnce b le_rfl).pos
    rcases Nat.lt_or_ge (b - a) p with hNear | hFar
    · have hTime : a + (b - a) = b := Nat.add_sub_cancel' hLe
      have hSame : b - a = 0 :=
        (hOnce a hLe).unique ⟨hNear, hTime.symm ▸ hb⟩ ⟨hPos, ha⟩
      exact hSame ▸ dvd_zero p
    · have hPrev := sub_of_onceFrom (hOnce _ (by omega)) (hOnce _ (by omega)) (by omega) hb
      have hDvd := ih (b - p) (by omega) (fun n hn => hOnce n (by omega)) hPrev (by omega)
      have hSplit : b - a = b - p - a + p := by omega
      exact hSplit ▸ dvd_add hDvd dvd_rfl

/-- Of `p` terms of a progression one has the residue of `t`. -/
theorem onceFrom_progression {c : ℕ} (hPos : 0 < p) (hCoprime : Nat.Coprime c p) (f t n : ℕ) :
    OnceFrom p (fun k => (f + c * k) % p = t % p) n := by
  have : NeZero p := ⟨hPos.ne'⟩
  have hMeets : ∀ k, (f + c * (n + k)) % p = t % p ↔
      (k : ZMod p) = (c : ZMod p)⁻¹ * (t - f) - n := by
    intro k
    change f + c * (n + k) ≡ t [MOD p] ↔ _
    rw [← ZMod.natCast_eq_natCast_iff]
    push_cast
    constructor
    · intro h
      rw [← h, add_sub_cancel_left, ← mul_assoc, mul_comm _ (c : ZMod p),
        ZMod.coe_mul_inv_eq_one c hCoprime, one_mul, add_sub_cancel_left]
    · intro h
      rw [h, add_sub_cancel, ← mul_assoc, ZMod.coe_mul_inv_eq_one c hCoprime, one_mul,
        add_sub_cancel]
  refine ⟨((c : ZMod p)⁻¹ * (t - f) - n).val, ⟨ZMod.val_lt _, ?_⟩, ?_⟩
  · exact (hMeets _).mpr (ZMod.natCast_rightInverse _)
  · rintro k ⟨hK, hMeet⟩
    rw [← (hMeets k).mp hMeet, ZMod.val_natCast_of_lt hK]

end Bullet.Lib.Windows
