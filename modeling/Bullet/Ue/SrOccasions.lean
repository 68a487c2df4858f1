import Bullet.Lib.Windows
import Bullet.Phy.SlotOrder
import Bullet.Ue.NrUeMac

/-! # Periodic occasions for scheduling requests

`DoSlotIndication` numbers the slots with two slots to a subframe. At another numerology the number
jumps back or skips at the end of a subframe, so that only some periods are met.
-/

namespace Bullet.Ue

open Lib.Windows
open Phy Phy.SfnSf

/-! ## The number of a slot -/

/-- The number that `DoSlotIndication` gives a slot, before it wraps. -/
def slotNumber (x : SfnSf) : ℕ :=
  x.frameNum.toNat * 20 + 2 * x.subframeNum.toNat + x.slotNum.toNat

/-- The slot that follows `k` slots later. -/
def slotAfter (x : SfnSf) (k : ℕ) : SfnSf :=
  SfnSf.next^[k] x

theorem slotAfter_succ (x : SfnSf) (k : ℕ) : slotAfter x (k + 1) = (slotAfter x k).next :=
  Function.iterate_succ_apply' ..

theorem slotAfter_normal {x : SfnSf} (h : x.Normal) (k : ℕ) :
    (slotAfter x k).Normal ∧ (slotAfter x k).numerology = x.numerology := by
  induction k with
  | zero => exact ⟨h, rfl⟩
  | succ k ih =>
    have hNext := (next_spec ih.1.admitted).2
    rw [slotAfter_succ]
    exact ⟨hNext.normal ih.1.admitted, hNext.numerology.trans ih.2⟩

/-- One slot on, the number grows by one. The end of a subframe takes back the slots that it has
beyond two, and the wrap of the frame number twenty times 2^32. -/
theorem slotNumber_next {x : SfnSf} (h : x.Normal) :
    ∃ c d, (c = 0 ∧ 1 < x.slotsPerSubframe ∨ c = 1) ∧ (d = 0 ∨ d = 20) ∧
      slotNumber x.next + c * x.slotsPerSubframe + d * 2 ^ 32 = slotNumber x + 1 + c * 2 := by
  obtain ⟨-, hNext⟩ := next_spec h.admitted
  have hSlot := hNext.slot
  have hSubframe := hNext.subframe
  have hFrame := hNext.frame
  have hFrameLt := x.frameNum.toNat_lt
  have hSub := h.subframe
  rcases Nat.eq_or_lt_of_le (Nat.succ_le_of_lt h.slot) with hEnd | hInside
  · rw [← Nat.succ_eq_add_one, hEnd, Nat.mod_self] at hSlot
    rw [← Nat.succ_eq_add_one, hEnd, Nat.div_self slotsPerSubframe_pos] at hSubframe hFrame
    rcases Nat.lt_or_ge (x.frameNum.toNat + (x.subframeNum.toNat + 1) / 10) (2 ^ 32)
      with hKeeps | hWraps
    · refine ⟨1, 0, .inr rfl, .inl rfl, ?_⟩
      rw [Nat.mod_eq_of_lt hKeeps] at hFrame
      rw [slotNumber, slotNumber]
      omega
    · refine ⟨1, 20, .inr rfl, .inr rfl, ?_⟩
      rw [slotNumber, slotNumber]
      omega
  · have hSame : x.slotNum.toNat + 1 < x.slotsPerSubframe := hInside
    rw [Nat.mod_eq_of_lt hSame] at hSlot
    rw [Nat.div_eq_of_lt hSame, Nat.add_zero] at hSubframe hFrame
    refine ⟨0, 0, .inl ⟨rfl, by omega⟩, .inl rfl, ?_⟩
    rw [slotNumber, slotNumber]
    omega

theorem slotNumber_next_le {x : SfnSf} (h : x.Normal) :
    slotNumber x.next ≤ slotNumber x + 2 := by
  obtain ⟨c, d, ⟨rfl, -⟩ | rfl, hD, hNumber⟩ := slotNumber_next h
  · omega
  · have hPos := x.slotsPerSubframe_pos
    omega

theorem slotNumber_le {x : SfnSf} (h : x.Normal) (k : ℕ) :
    slotNumber (slotAfter x k) ≤ slotNumber x + 2 * k := by
  induction k with
  | zero => exact le_rfl
  | succ k ih =>
    have hNext := slotNumber_next_le (slotAfter_normal h k).1
    rw [slotAfter_succ]
    omega

/-! ## Periods -/

/-- The periods that the numbers follow. -/
def PeriodMet (numerology period : UInt8) : Prop :=
  0 < period ∧
    if numerology = 0 then period.toNat % 2 = 1 else period.toNat ∣ 2 ^ numerology.toNat - 2

/-- The numbers of a run of slots wrap nowhere, or a wrap is a number of periods. -/
def KeepsCount (period : UInt8) (x : SfnSf) (len : ℕ) : Prop :=
  period.toNat ∣ 2 ^ 32 ∨
    ∀ k < len, slotNumber (slotAfter x k) / 2 ^ 32 = slotNumber x / 2 ^ 32

/-- How far the number is ahead, modulo the period, one slot on. -/
def advance (numerology : UInt8) : ℕ :=
  if numerology = 0 then 2 else 1

theorem PeriodMet.pos {numerology period : UInt8} (h : PeriodMet numerology period) :
    0 < period.toNat :=
  UInt8.lt_iff_toNat_lt.mp h.1

theorem PeriodMet.coprime {numerology period : UInt8} (h : PeriodMet numerology period) :
    Nat.Coprime (advance numerology) period.toNat := by
  obtain ⟨-, h⟩ := h
  rw [advance]
  split
  · next hZero =>
    rw [if_pos hZero] at h
    exact (Nat.coprime_two_left).mpr (Nat.odd_iff.mpr h)
  · exact Nat.coprime_one_left _

theorem PeriodMet.next {slots u v c d : ℕ} {numerology period : UInt8}
    (h : PeriodMet numerology period) (hSlots : slots = 2 ^ numerology.toNat)
    (hC : c = 0 ∧ 1 < slots ∨ c = 1) (hD : period.toNat ∣ d)
    (hNumber : v + c * slots + d = u + 1 + c * 2) :
    v ≡ u + advance numerology [MOD period.toNat] := by
  obtain ⟨e, hE, hSum⟩ : ∃ e, period.toNat ∣ e ∧ v + e = u + advance numerology := by
    obtain ⟨-, h⟩ := h
    rw [advance]
    split
    · next hZero =>
      subst hZero
      refine ⟨d, hD, ?_⟩
      change slots = 1 at hSlots
      rcases hC with ⟨-, hMore⟩ | rfl <;> omega
    · next hNonzero =>
      rw [if_neg hNonzero, ← hSlots] at h
      have hTwo : 2 ≤ slots := by
        rw [hSlots]
        apply Nat.le_self_pow
        exact fun hZero => hNonzero (UInt8.toNat_inj.mp hZero)
      rcases hC with ⟨rfl, -⟩ | rfl
      · exact ⟨d, hD, by omega⟩
      · exact ⟨slots - 2 + d, dvd_add h hD, by omega⟩
  rw [← hSum]
  exact (Nat.modEq_zero_iff_dvd.mpr hE).symm.add_left v

/-- Over a run that keeps count, the wrapped numbers are a progression modulo the period. -/
theorem PeriodMet.progression {x : SfnSf} {period : UInt8} {len : ℕ}
    (h : PeriodMet x.numerology period) (hx : x.Normal) (hCount : KeepsCount period x len) {k : ℕ}
    (hK : k < len) : slotNumber (slotAfter x k) % 2 ^ 32 ≡
      slotNumber x % 2 ^ 32 + advance x.numerology * k [MOD period.toNat] := by
  induction k with
  | zero => exact Nat.ModEq.refl _
  | succ k ih =>
    obtain ⟨hNormal, hNumerology⟩ := slotAfter_normal hx k
    obtain ⟨c, d, hC, hD, hNumber⟩ := slotNumber_next hNormal
    rw [← slotAfter_succ] at hNumber
    have hSlots : (slotAfter x k).slotsPerSubframe = 2 ^ x.numerology.toNat := by
      rw [slotsPerSubframe, hNumerology]
    have hStep : slotNumber (slotAfter x (k + 1)) % 2 ^ 32 ≡
        slotNumber (slotAfter x k) % 2 ^ 32 + advance x.numerology [MOD period.toNat] := by
      rcases hCount with hDvd | hSame
      · have hNext := h.next hSlots hC (hDvd.mul_left d) hNumber
        have hWrap : ∀ n, n % 2 ^ 32 ≡ n [MOD period.toNat] := fun n =>
          (Nat.mod_modEq n (2 ^ 32)).of_dvd hDvd
        exact (hWrap _).trans (hNext.trans ((hWrap _).symm.add_right _))
      · have hNow := hSame k (by omega)
        have hLater := hSame (k + 1) hK
        obtain rfl : d = 0 := by
          rcases hD with rfl | rfl
          · rfl
          · rcases hC with ⟨rfl, -⟩ | rfl <;> omega
        exact h.next hSlots hC (dvd_zero _) (by omega)
    exact hStep.trans (((ih (by omega)).add_right _).trans (by rw [Nat.mul_succ, Nat.add_assoc]))

/-! ## Occasions -/

namespace NrUeMac

variable {s : NrUeMac} {x : SfnSf} {period : UInt8}

/-- A UE that has a request to send finds an occasion for it. -/
def FindsOccasion (s : NrUeMac) (x : SfnSf) : Prop :=
  ∃ t, s.doSlotIndication x = some t ∧ t.srState = .active

/-- One occasion in every `m_srPeriodicity` slots of a run of `len` slots. -/
def OncePerPeriod (s : NrUeMac) (x : SfnSf) (len : ℕ) : Prop :=
  ∀ n, n + s.srPeriodicity.toNat ≤ len →
    OnceFrom s.srPeriodicity.toNat (fun k => s.FindsOccasion (slotAfter x k)) n

theorem srOccasion_iff : SrOccasion period x ↔
    slotNumber x % 2 ^ 32 % period.toNat = 2 % period.toNat := by
  have hNumber : (x.frameNum * 20 + 2 * x.subframeNum.toUInt32 + x.slotNum.toUInt32).toNat =
      slotNumber x % 2 ^ 32 := by
    rw [UInt32.toNat_add, UInt32.toNat_add, UInt32.toNat_mul, UInt32.toNat_mul,
      UInt8.toNat_toUInt32, UInt8.toNat_toUInt32, slotNumber]
    change ((x.frameNum.toNat * 20 % 2 ^ 32 + 2 * x.subframeNum.toNat % 2 ^ 32) % 2 ^ 32 +
      x.slotNum.toNat) % 2 ^ 32 = _
    omega
  rw [SrOccasion, ← UInt32.toNat_inj, UInt32.toNat_mod, UInt32.toNat_mod, UInt8.toNat_toUInt32,
    hNumber]
  rfl

theorem findsOccasion_iff (hState : s.srState = .toSend) : s.FindsOccasion x ↔
    s.srPeriodicity ≠ 0 ∧ slotNumber x % 2 ^ 32 % s.srPeriodicity.toNat =
      2 % s.srPeriodicity.toNat := by
  rw [← srOccasion_iff, FindsOccasion, doSlotIndication]
  dsimp only
  rw [if_pos hState]
  split
  · next hZero => simp [hZero]
  · next hNonzero =>
    split
    · next hOccasion => exact ⟨fun _ => ⟨hNonzero, hOccasion⟩, fun _ => ⟨_, rfl, rfl⟩⟩
    · next hNone =>
      constructor
      · rintro ⟨t, hStep, hActive⟩
        cases hStep
        cases hState.symm.trans hActive
      · rintro ⟨-, hOccasion⟩
        exact absurd hOccasion hNone

theorem oncePerPeriod_of_met (hState : s.srState = .toSend) (hx : x.Normal)
    (hMet : PeriodMet x.numerology s.srPeriodicity) {len : ℕ}
    (hCount : KeepsCount s.srPeriodicity x len) : s.OncePerPeriod x len := by
  intro n hWindow
  have hNonzero : s.srPeriodicity ≠ 0 := fun hZero => by
    have hPos := hMet.1
    rw [hZero] at hPos
    exact absurd hPos (by decide)
  have hOnce := onceFrom_progression hMet.pos hMet.coprime (slotNumber x % 2 ^ 32) 2 n
  rw [onceFrom_congr fun k hK => ?_]
  · exact hOnce
  · rw [findsOccasion_iff hState, and_iff_right hNonzero]
    exact (hMet.progression hx hCount (k := n + k) (by omega)).congr_left

/-! ## The periods that are not met -/

/-- The first slot of a simulation. -/
def firstSlot (numerology : UInt8) : SfnSf :=
  ⟨0, 0, 0, numerology⟩

theorem firstSlot_normal {numerology : UInt8} (h : numerology ≤ 5) : (firstSlot numerology).Normal :=
  ⟨h, by change 0 < 10; decide, slotsPerSubframe_pos⟩

theorem firstSlot_keepsCount {numerology : UInt8} (h : numerology ≤ 5) {len : ℕ} (hLen : len ≤ 600) :
    KeepsCount period (firstSlot numerology) len := by
  refine .inr fun k hK => ?_
  have hLe := slotNumber_le (firstSlot_normal h) k
  have hFirst : slotNumber (firstSlot numerology) = 0 := rfl
  rw [hFirst, Nat.zero_div, Nat.div_eq_of_lt (by omega)]

theorem slotNumber_first {k : ℕ} (hK : k ≤ 600) : slotNumber (slotAfter (firstSlot 0) k) = 2 * k := by
  induction k with
  | zero => rfl
  | succ k ih =>
    have hNow := ih (by omega)
    have hFirst : (firstSlot 0).Normal := firstSlot_normal (by decide)
    obtain ⟨hNormal, hNumerology⟩ := slotAfter_normal hFirst k
    obtain ⟨c, d, hC, hD, hNumber⟩ := slotNumber_next hNormal
    have hSlots : (slotAfter (firstSlot 0) k).slotsPerSubframe = 1 := by
      rw [slotsPerSubframe, hNumerology]
      rfl
    rw [hSlots] at hC hNumber
    rw [slotAfter_succ]
    rcases hC with ⟨-, hMore⟩ | rfl
    · exact absurd hMore (Nat.lt_irrefl 1)
    · omega

theorem first_subframe {numerology : UInt8} (h : numerology ≤ 5) {k : ℕ}
    (hK : k < 2 ^ numerology.toNat) : (slotAfter (firstSlot numerology) k).frameNum.toNat = 0 ∧
      (slotAfter (firstSlot numerology) k).subframeNum.toNat = 0 ∧
      (slotAfter (firstSlot numerology) k).slotNum.toNat = k := by
  induction k with
  | zero => exact ⟨rfl, rfl, rfl⟩
  | succ k ih =>
    obtain ⟨hFrame, hSubframe, hSlot⟩ := ih (by omega)
    obtain ⟨hNormal, hNumerology⟩ := slotAfter_normal (firstSlot_normal h) k
    have hSlots : (slotAfter (firstSlot numerology) k).slotsPerSubframe = 2 ^ numerology.toNat := by
      rw [slotsPerSubframe, hNumerology]
      rfl
    have hNext := (next_spec hNormal.admitted).2
    rw [slotAfter_succ, hNext.frame, hNext.subframe, hNext.slot, hFrame, hSubframe, hSlot, hSlots,
      Nat.div_eq_of_lt hK, Nat.mod_eq_of_lt hK]
    exact ⟨rfl, rfl, rfl⟩

/-- Above numerology 1 the first slot of the second subframe has the number of the third slot. -/
theorem slotNumber_repeats {numerology : UInt8} (h : numerology ≤ 5)
    (hLarge : 2 < 2 ^ numerology.toNat) : slotNumber (slotAfter (firstSlot numerology) 2) = 2 ∧
      slotNumber (slotAfter (firstSlot numerology) (2 ^ numerology.toNat)) = 2 := by
  constructor
  · obtain ⟨hFrame, hSubframe, hSlot⟩ := first_subframe h hLarge
    rw [slotNumber, hFrame, hSubframe, hSlot]
  · obtain ⟨last, hLast⟩ : ∃ last, 2 ^ numerology.toNat = last + 1 :=
      ⟨2 ^ numerology.toNat - 1, by omega⟩
    obtain ⟨hFrame, hSubframe, hSlot⟩ := first_subframe h (k := last) (by omega)
    obtain ⟨hNormal, hNumerology⟩ := slotAfter_normal (firstSlot_normal h) last
    have hSlots : (slotAfter (firstSlot numerology) last).slotsPerSubframe = last + 1 := by
      rw [slotsPerSubframe, hNumerology, ← hLast]
      rfl
    have hNext := (next_spec hNormal.admitted).2
    rw [hLast, slotAfter_succ, slotNumber, hNext.frame, hNext.subframe, hNext.slot, hFrame,
      hSubframe, hSlot, hSlots, Nat.div_self (by omega), Nat.mod_self]
    rfl

/-- Two slots whose numbers call for an occasion lie a number of periods apart. -/
theorem OncePerPeriod.dvd {numerology : UInt8} {m n : ℕ} (h : numerology ≤ 5)
    (hState : s.srState = .toSend) (hOnce : s.OncePerPeriod (firstSlot numerology) 600)
    (hLen : n ≤ 300) (hLe : m ≤ n)
    (hM : slotNumber (slotAfter (firstSlot numerology) m) % s.srPeriodicity.toNat =
      2 % s.srPeriodicity.toNat)
    (hN : slotNumber (slotAfter (firstSlot numerology) n) % s.srPeriodicity.toNat =
      2 % s.srPeriodicity.toNat) : s.srPeriodicity.toNat ∣ n - m := by
  have hPeriod := s.srPeriodicity.toNat_lt
  have hWindows : ∀ k ≤ n, OnceFrom s.srPeriodicity.toNat
      (fun k => s.FindsOccasion (slotAfter (firstSlot numerology) k)) k :=
    fun k hK => hOnce k (by omega)
  have hNonzero : s.srPeriodicity ≠ 0 := fun hZero => by
    have hPos := (hWindows 0 (Nat.zero_le _)).pos
    rw [hZero] at hPos
    exact absurd hPos (by decide)
  have hFinds : ∀ k ≤ n, slotNumber (slotAfter (firstSlot numerology) k) % s.srPeriodicity.toNat =
      2 % s.srPeriodicity.toNat → s.FindsOccasion (slotAfter (firstSlot numerology) k) := by
    intro k hK hNumber
    have hLe := slotNumber_le (firstSlot_normal h) k
    have hFirst : slotNumber (firstSlot numerology) = 0 := rfl
    have hBelow : slotNumber (slotAfter (firstSlot numerology) k) < 2 ^ 32 := by omega
    rw [findsOccasion_iff hState, Nat.mod_eq_of_lt hBelow]
    exact ⟨hNonzero, hNumber⟩
  exact dvd_sub_of_onceFrom hWindows (hFinds m hLe hM) (hFinds n le_rfl hN) hLe

theorem OncePerPeriod.met {numerology : UInt8} (h : numerology ≤ 5) (hState : s.srState = .toSend)
    (hOnce : s.OncePerPeriod (firstSlot numerology) 600) : PeriodMet numerology s.srPeriodicity := by
  have hPeriod := s.srPeriodicity.toNat_lt
  have hPos : 0 < s.srPeriodicity.toNat := (hOnce 0 (by omega)).pos
  refine ⟨UInt8.lt_iff_toNat_lt.mpr hPos, ?_⟩
  split
  · next hZero =>
    subst hZero
    by_contra hEven
    -- An even period brings two occasions, the second one half a period after the first.
    have hHalf : 2 * (1 + s.srPeriodicity.toNat / 2) = 2 + s.srPeriodicity.toNat := by omega
    have hDvd := hOnce.dvd h hState (m := 1) (n := 1 + s.srPeriodicity.toNat / 2) (by omega)
      (by omega) (by rw [slotNumber_first (by omega)])
      (by rw [slotNumber_first (by omega), hHalf, Nat.add_mod_right])
    rw [Nat.add_sub_cancel_left] at hDvd
    have hLe := Nat.le_of_dvd (by omega) hDvd
    omega
  · next hNonzero =>
    have hSlots : 2 ^ numerology.toNat ≤ 32 :=
      Nat.pow_le_pow_right Nat.two_pos (UInt8.le_iff_toNat_le.mp h)
    rcases Nat.lt_or_ge 2 (2 ^ numerology.toNat) with hLarge | hSmall
    · obtain ⟨hThird, hRepeat⟩ := slotNumber_repeats h hLarge
      exact hOnce.dvd h hState (by omega) hLarge.le (by rw [hThird]) (by rw [hRepeat])
    · rw [Nat.sub_eq_zero_of_le hSmall]
      exact dvd_zero _

/-- The occasions come once in a period, over all runs that keep count, exactly for the periods that
the numbers follow. -/
theorem oncePerPeriod_iff {numerology : UInt8} (h : numerology ≤ 5) (period : UInt8) :
    (∀ (s : NrUeMac) (x : SfnSf) (len : ℕ), s.srState = .toSend → s.srPeriodicity = period →
        x.Normal → x.numerology = numerology → KeepsCount period x len → s.OncePerPeriod x len) ↔
      PeriodMet numerology period := by
  constructor
  · intro hOnce
    exact (hOnce { create period 0 0 with srState := .toSend } (firstSlot numerology) 600 rfl rfl
      (firstSlot_normal h) rfl (firstSlot_keepsCount h le_rfl)).met h rfl
  · rintro hMet s x len hState rfl hx rfl hCount
    exact oncePerPeriod_of_met hState hx hMet hCount

/-- The default period at numerology 1. -/
theorem oncePerPeriod_default :
    OncePerPeriod { create 10 0 0 with srState := .toSend } (firstSlot 1) 600 :=
  (oncePerPeriod_iff (by decide) 10).mpr ⟨by decide, by decide⟩ _ _ _ rfl rfl
    (firstSlot_normal (by decide)) rfl (firstSlot_keepsCount (by decide) le_rfl)

/-- The default period at numerology 2: slots 2 and 4 are both occasions. -/
theorem occasions_bunch : ¬ ∀ (s : NrUeMac) (x : SfnSf) (len : ℕ), s.srState = .toSend →
    x.Normal → s.OncePerPeriod x len := by
  intro hOnce
  have hBoth := hOnce { create 10 0 0 with srState := .toSend } (firstSlot 2) 12 rfl
    (firstSlot_normal (by decide)) 2 (by decide)
  have hFinds : ∀ k, slotNumber (slotAfter (firstSlot 2) k) = 2 →
      FindsOccasion { create 10 0 0 with srState := .toSend } (slotAfter (firstSlot 2) k) := by
    intro k hNumber
    rw [findsOccasion_iff rfl, hNumber]
    exact ⟨by decide, rfl⟩
  have hSame : (0 : ℕ) = 2 := hBoth.unique ⟨by decide, hFinds 2 (by decide)⟩
    ⟨by decide, hFinds 4 (by decide)⟩
  exact absurd hSame (by decide)

end NrUeMac
end Bullet.Ue
