import Mathlib.Algebra.Order.Floor.Ring
import Mathlib.Data.Rat.Floor
import Mathlib.Tactic.Linarith
import Mathlib.Tactic.Positivity
import Bullet.Trigger.ProactiveDemand

/-! # The bound on the proactive demand

The event value is a probability, and the demand below the estimated arrivals of the slots that a
BSR takes, as long as no off-period lasts longer than all recent ones and the recent ones are not
all equal.
-/

namespace Bullet.Trigger

open Lib Lib.PartialRun

theorem truncate_of_nonneg {q : ℚ} (h : 0 ≤ q) : truncate q = ⌊q⌋ := by
  rw [truncate, Int.tdiv_eq_ediv_of_nonneg (Rat.num_nonneg.mpr h), Rat.floor_def']

theorem truncate_nonneg {q : ℚ} (h : 0 ≤ q) : 0 ≤ truncate q := by
  rw [truncate_of_nonneg h]
  exact Int.floor_nonneg.mpr h

theorem truncate_le {q : ℚ} {n : ℤ} (h : 0 ≤ q) (hLe : q ≤ n) : truncate q ≤ n := by
  rw [truncate_of_nonneg h]
  exact Int.cast_le.mp ((Int.floor_le q).trans hLe)

namespace OnlineGaussianEstimator

variable {e : OnlineGaussianEstimator} {samples : List ℚ}

theorem Holds.getVariance_pos (h : e.Holds samples) : 0 < e.getVariance := by
  unfold OnlineGaussianEstimator.getVariance
  split
  · exact one_pos
  · next hMany =>
    have hN : (0 : ℚ) < e.n - 1 := sub_pos.mpr (Nat.one_lt_cast.mpr (by omega))
    have hSq : 0 ≤ Samples.sumSqDev samples := by
      apply List.sum_nonneg
      intro y hy
      obtain ⟨x, -, rfl⟩ := List.mem_map.mp hy
      exact sq_nonneg _
    rw [h.m2]
    positivity

theorem getMinRecent_le_getMaxRecent (e : OnlineGaussianEstimator) :
    e.getMinRecent ≤ e.getMaxRecent := by
  obtain ⟨x, hx⟩ := List.exists_mem_of_ne_nil _ e.recent_ne
  have hMin : e.getMinRecent ≤ x := List.min_le_of_mem hx
  have hMax : x ≤ e.recentSamples.max e.recent_ne := List.le_max_of_mem hx
  rw [getMaxRecent]
  split
  · next hZero =>
    rw [hZero] at hMax
    linarith
  · exact hMin.trans hMax

end OnlineGaussianEstimator

variable {d : Distributions} {x mu variance lower upper event : ℚ}

/-- The truncated distribution divides by zero when its bounds coincide. -/
theorem truncatedNormalCdf_eq_some_iff (hVariance : 0 < variance) :
    (∃ event, truncatedNormalCdf d x mu variance lower upper = some event) ↔ lower ≠ upper := by
  have hEq : d.normalCdf upper mu variance - d.normalCdf lower mu variance = 0 ↔ lower = upper := by
    rw [sub_eq_zero]
    exact (d.increasing mu variance hVariance).injective.eq_iff.trans eq_comm
  rw [truncatedNormalCdf]
  dsimp only
  split
  · next hZero =>
    refine iff_of_false ?_ (not_not_intro (hEq.mp hZero))
    rintro ⟨event, hNone⟩
    cases hNone
  · next hNe => exact iff_of_true ⟨_, rfl⟩ fun hSame => hNe (hEq.mpr hSame)

theorem truncatedNormalCdf_nonneg
    (hEvent : truncatedNormalCdf d x mu variance lower upper = some event) : 0 ≤ event := by
  rw [truncatedNormalCdf] at hEvent
  dsimp only at hEvent
  split at hEvent
  · cases hEvent
  · cases hEvent
    split
    · exact le_rfl
    · next h => exact not_lt.mp h

/-- Beyond its upper bound it grows above 1. -/
theorem truncatedNormalCdf_le_one_iff (hVariance : 0 < variance) (hLe : lower ≤ upper)
    (hEvent : truncatedNormalCdf d x mu variance lower upper = some event) :
    event ≤ 1 ↔ x ≤ upper := by
  have hMono := d.increasing mu variance hVariance
  have hNe : lower ≠ upper := (truncatedNormalCdf_eq_some_iff hVariance).mp ⟨event, hEvent⟩
  have hPos : 0 < d.normalCdf upper mu variance - d.normalCdf lower mu variance :=
    sub_pos.mpr (hMono (lt_of_le_of_ne hLe hNe))
  rw [truncatedNormalCdf] at hEvent
  dsimp only at hEvent
  rw [if_neg hPos.ne'] at hEvent
  cases hEvent
  have hDiv : (d.normalCdf x mu variance - d.normalCdf lower mu variance) /
      (d.normalCdf upper mu variance - d.normalCdf lower mu variance) ≤ 1 ↔ x ≤ upper := by
    rw [div_le_one hPos, sub_le_sub_iff_right]
    exact hMono.le_iff_le
  rw [← hDiv]
  split
  · next hNeg => exact iff_of_true zero_le_one (hNeg.le.trans zero_le_one)
  · exact Iff.rfl

namespace ProactiveDemand

variable {s t : ProactiveDemand} {i : SlotInput}

structure Bounded (s : ProactiveDemand) : Prop where
  event_nonneg : 0 ≤ s.event
  event_le_one : s.event ≤ 1
  proactiveBsr_nonneg : 0 ≤ s.proactiveBsr
  proactiveBsr_le : s.proactiveBsr ≤ s.delays.bsrSlot * s.estimatedArrival

/-- What every slot update keeps. -/
structure Sane (s : ProactiveDemand) : Prop where
  avgArrival : 0 ≤ s.avgArrival
  estimatedArrival : 0 ≤ s.estimatedArrival
  proactiveBsr : 0 ≤ s.proactiveBsr
  started : s.onPeriod = true → s.periodStartTime < s.periodEndTime
  ended : s.onPeriod = true → s.periodEndTime ≤ s.now
  estimator : ∃ samples, s.estimator.Holds samples

/-- After the arrivals of the slot the user is in an off-period. -/
def OffAfter (s : ProactiveDemand) (arrival : ℤ) : Prop :=
  arrival ≤ 0 ∧ (s.onPeriod = true → onThreshold < s.now - s.periodEndTime)

instance (s : ProactiveDemand) (arrival : ℤ) : Decidable (s.OffAfter arrival) :=
  inferInstanceAs (Decidable (_ ∧ _))

/-- How long the off-period has lasted. -/
def offGap (s : ProactiveDemand) : ℚ :=
  s.now -
    if s.onPeriod = true then s.periodEndTime - s.delays.bsrSlot * slotUnit else s.periodStartTime

/-- An off-period has not lasted longer than the longest recent one, and the recent ones differ. -/
def WithinRecent (s : ProactiveDemand) (i : SlotInput) : Prop :=
  s.OffAfter i.arrival →
    s.estimator.getMinRecent ≠ s.estimator.getMaxRecent ∧ s.offGap ≤ s.estimator.getMaxRecent

instance (s : ProactiveDemand) (i : SlotInput) : Decidable (s.WithinRecent i) :=
  inferInstanceAs (Decidable (_ → _))

/-! ## One slot -/

theorem slotUnit_pos : 0 < slotUnit := by decide +kernel

/-- What the profile leaves alone, and whether it ends in an off-period. -/
structure Profiles (s : ProactiveDemand) (i : SlotInput) (t : ProactiveDemand) : Prop where
  sane : t.Sane
  delays : t.delays = s.delays
  scheduleMode : t.scheduleMode = s.scheduleMode
  now : t.now = s.now
  onPeriod : t.onPeriod = false ↔ s.OffAfter i.arrival
  estimator : t.onPeriod = false → t.estimator = s.estimator
  gap : t.onPeriod = false → t.now - t.periodStartTime = s.offGap

/-- An on-period starts before the slot whose arrivals show it. -/
theorem startOnPeriod_spec (hSane : s.Sane) (getBsr : Bool) :
    (s.startOnPeriod getBsr).periodStartTime < s.now ∧
      ∃ samples, (s.startOnPeriod getBsr).estimator.Holds samples := by
  obtain ⟨samples, hHolds⟩ := hSane.estimator
  constructor
  · have hDelay : (0 : ℚ) <
        ((if getBsr = false then s.delays.srSlot else s.delays.bsrSlot : ℤ) : ℚ) := by
      rw [Int.cast_pos]
      split
      · exact s.delays.srSlot_pos
      · exact s.delays.bsrSlot_pos
    have hDiff := mul_pos hDelay slotUnit_pos
    unfold startOnPeriod
    dsimp only
    split
    · exact sub_lt_self _ hDiff
    · exact sub_lt_self _ hDiff
  · unfold startOnPeriod
    dsimp only
    split
    · exact ⟨samples, hHolds⟩
    · exact ⟨_, hHolds.addSample _⟩

/-- The fields that the start of an on-period leaves alone. -/
theorem startOnPeriod_same (s : ProactiveDemand) (getBsr : Bool) :
    (s.startOnPeriod getBsr).delays = s.delays ∧
      (s.startOnPeriod getBsr).scheduleMode = s.scheduleMode ∧
      (s.startOnPeriod getBsr).now = s.now ∧
      (s.startOnPeriod getBsr).avgArrival = s.avgArrival ∧
      (s.startOnPeriod getBsr).estimatedArrival = s.estimatedArrival ∧
      (s.startOnPeriod getBsr).proactiveBsr = s.proactiveBsr := by
  unfold startOnPeriod
  dsimp only
  split
  · exact ⟨rfl, rfl, rfl, rfl, rfl, rfl⟩
  · exact ⟨rfl, rfl, rfl, rfl, rfl, rfl⟩

theorem endOnPeriod_spec (hSane : s.Sane) (hOn : s.onPeriod = true) :
    ∃ t, s.endOnPeriod = some t ∧ t.Sane ∧ t.delays = s.delays ∧
      t.scheduleMode = s.scheduleMode ∧ t.now = s.now ∧ t.onPeriod = false ∧
      t.estimator = s.estimator ∧
      t.periodStartTime = s.periodEndTime - s.delays.bsrSlot * slotUnit := by
  have hLength : 0 < s.periodEndTime - s.periodStartTime := sub_pos.mpr (hSane.started hOn)
  have hSlots : 0 < (s.periodEndTime - s.periodStartTime) / slotUnit := div_pos hLength slotUnit_pos
  have hAvg : 0 ≤ truncate (s.avgArrival / ((s.periodEndTime - s.periodStartTime) / slotUnit)) :=
    truncate_nonneg (div_nonneg (Int.cast_nonneg hSane.avgArrival) hSlots.le)
  rw [endOnPeriod]
  dsimp only
  rw [if_neg hSlots.ne']
  refine ⟨_, rfl, ⟨le_rfl, ?_, hSane.proactiveBsr, nofun, nofun, hSane.estimator⟩, rfl, rfl, rfl,
    rfl, rfl, rfl⟩
  dsimp only
  split
  · exact hAvg
  · have hOld : (0 : ℚ) ≤ s.estimatedArrival := Int.cast_nonneg hSane.estimatedArrival
    have hNew := Int.cast_nonneg (R := ℚ) hAvg
    exact truncate_nonneg (by positivity)

theorem profile_on (hSane : s.Sane) (hArrival : 0 < i.arrival) :
    ∃ t, s.profile i.arrival i.getBsr = some t ∧ s.Profiles i t := by
  have hNotOff : ¬ s.OffAfter i.arrival := fun hOff => absurd hOff.1 (not_le.mpr hArrival)
  rw [profile, if_pos hArrival]
  cases hOn : s.onPeriod with
  | false =>
    obtain ⟨hStart, hEstimator⟩ := startOnPeriod_spec hSane i.getBsr
    obtain ⟨hDelays, hMode, hNow, hAvg, hEst, hBsr⟩ := startOnPeriod_same s i.getBsr
    refine ⟨_, rfl, ?_, hDelays, hMode, hNow, iff_of_false nofun hNotOff, nofun, nofun⟩
    refine ⟨?_, ?_, ?_, fun _ => ?_, fun _ => le_rfl, hEstimator⟩
    · exact add_nonneg (hSane.avgArrival.trans_eq hAvg.symm) hArrival.le
    · exact hSane.estimatedArrival.trans_eq hEst.symm
    · exact hSane.proactiveBsr.trans_eq hBsr.symm
    · exact hStart.trans_eq hNow.symm
  | true =>
    refine ⟨_, rfl, ?_, rfl, rfl, rfl, iff_of_false nofun hNotOff, nofun, nofun⟩
    exact ⟨add_nonneg hSane.avgArrival hArrival.le, hSane.estimatedArrival, hSane.proactiveBsr,
      fun _ => (hSane.started hOn).trans_le (hSane.ended hOn), fun _ => le_rfl, hSane.estimator⟩

theorem profile_off (hSane : s.Sane) (hArrival : ¬ 0 < i.arrival) :
    ∃ t, s.profile i.arrival i.getBsr = some t ∧ s.Profiles i t := by
  rw [profile, if_neg hArrival]
  cases hOn : s.onPeriod with
  | true =>
    rw [if_pos rfl]
    split
    · next hLong =>
      obtain ⟨t, hEnd, hSaneT, hDelays, hMode, hNow, hOff, hEstimator, hStart⟩ :=
        endOnPeriod_spec hSane hOn
      refine ⟨t, hEnd, hSaneT, hDelays, hMode, hNow,
        iff_of_true hOff ⟨not_lt.mp hArrival, fun _ => hLong⟩, fun _ => hEstimator, fun _ => ?_⟩
      rw [hNow, hStart, offGap, if_pos hOn]
    · next hShort =>
      have hNotOff : ¬ s.OffAfter i.arrival := fun hOff => hShort (hOff.2 hOn)
      refine ⟨s, rfl, hSane, rfl, rfl, rfl, ?_, fun _ => rfl, fun hOff => ?_⟩
      · rw [hOn]
        exact iff_of_false nofun hNotOff
      · rw [hOn] at hOff
        cases hOff
  | false =>
    have hOffAfter : s.OffAfter i.arrival := by
      refine ⟨not_lt.mp hArrival, fun hTrue => ?_⟩
      rw [hOn] at hTrue
      cases hTrue
    have hGap : s.now - s.periodStartTime = s.offGap := by
      rw [offGap, hOn, if_neg Bool.false_ne_true]
    rw [if_neg Bool.false_ne_true]
    split
    · have hOld : (0 : ℚ) ≤ s.estimatedArrival := Int.cast_nonneg hSane.estimatedArrival
      refine ⟨_, rfl, ?_, rfl, rfl, rfl, iff_of_true rfl hOffAfter, fun _ => rfl, fun _ => hGap⟩
      exact ⟨hSane.avgArrival, truncate_nonneg (by positivity), hSane.proactiveBsr, nofun, nofun,
        hSane.estimator⟩
    · exact ⟨s, rfl, hSane, rfl, rfl, rfl, iff_of_true hOn hOffAfter, fun _ => rfl, fun _ => hGap⟩

/-- The profile of a slot is always defined. -/
theorem profile_spec (hSane : s.Sane) (i : SlotInput) :
    ∃ t, s.profile i.arrival i.getBsr = some t ∧ s.Profiles i t := by
  by_cases hArrival : 0 < i.arrival
  · exact profile_on hSane hArrival
  · exact profile_off hSane hArrival

/-- In an on-period the event is 0 or 1. -/
theorem rawEvent_on (hOn : s.onPeriod = true) :
    ∃ event, s.rawEvent d = some event ∧ event ≤ 1 := by
  rw [rawEvent, if_pos hOn]
  by_cases hBelow : ExponentialCdfBelow d (s.now - s.periodStartTime) s.onPeriodLength (8 / 10)
  · rw [if_pos hBelow]
    exact ⟨1, rfl, le_rfl⟩
  · rw [if_neg hBelow]
    exact ⟨0, rfl, zero_le_one⟩

/-- In an off-period the event is a probability exactly when the period is within the recent ones. -/
theorem rawEvent_off_iff (hSane : s.Sane) (hOff : s.onPeriod = false) :
    (∃ event, s.rawEvent d = some event ∧ event ≤ 1) ↔
      s.estimator.getMinRecent ≠ s.estimator.getMaxRecent ∧
        s.now - s.periodStartTime ≤ s.estimator.getMaxRecent := by
  obtain ⟨samples, hHolds⟩ := hSane.estimator
  have hVariance := hHolds.getVariance_pos
  have hLe := s.estimator.getMinRecent_le_getMaxRecent
  rw [rawEvent, hOff, if_neg Bool.false_ne_true, ← truncatedNormalCdf_eq_some_iff hVariance]
  constructor
  · rintro ⟨event, hEvent, hOne⟩
    exact ⟨⟨event, hEvent⟩, (truncatedNormalCdf_le_one_iff hVariance hLe hEvent).mp hOne⟩
  · rintro ⟨⟨event, hEvent⟩, hWithin⟩
    exact ⟨event, hEvent, (truncatedNormalCdf_le_one_iff hVariance hLe hEvent).mpr hWithin⟩

theorem eventBsr_nonneg (hSane : s.Sane) (hEvent : 0 ≤ s.event) (getBsr : Bool) :
    0 ≤ s.eventBsr getBsr := by
  have hEst : (0 : ℚ) ≤ s.estimatedArrival := Int.cast_nonneg hSane.estimatedArrival
  have hOld : (0 : ℚ) ≤ s.proactiveBsr := Int.cast_nonneg hSane.proactiveBsr
  rw [eventBsr]
  split
  · dsimp only
    split
    · exact mul_nonneg s.delays.bsrSlot_pos.le hSane.estimatedArrival
    · exact truncate_nonneg (by positivity)
  · exact truncate_nonneg (by positivity)

theorem eventBsr_le (hSane : s.Sane) (hEvent : 0 ≤ s.event) (hOne : s.event ≤ 1) (getBsr : Bool) :
    s.eventBsr getBsr ≤ s.delays.bsrSlot * s.estimatedArrival := by
  have hEst : (0 : ℚ) ≤ s.estimatedArrival := Int.cast_nonneg hSane.estimatedArrival
  rw [eventBsr]
  split
  · dsimp only
    split
    · exact le_rfl
    · next hWithin => exact not_lt.mp hWithin
  · calc truncate (s.event * s.estimatedArrival) ≤ s.estimatedArrival :=
          truncate_le (by positivity) (mul_le_of_le_one_left hEst hOne)
      _ ≤ s.delays.bsrSlot * s.estimatedArrival :=
          le_mul_of_one_le_left hSane.estimatedArrival s.delays.bsrSlot_pos

theorem modeBsr_nonneg (hSane : s.Sane) {bsr : ℤ} (hBsr : 0 ≤ bsr) : 0 ≤ s.modeBsr bsr := by
  have hEst := hSane.estimatedArrival
  rw [modeBsr]
  split_ifs <;> omega

theorem modeBsr_bullet (hMode : s.scheduleMode = 2 ∨ s.scheduleMode = 3) (bsr : ℤ) :
    s.modeBsr bsr = bsr := by
  rw [modeBsr]
  split_ifs <;> omega

/-- The state after a slot, from the profiled one and the raw event. -/
def withEvent (s : ProactiveDemand) (getBsr : Bool) (event : ℚ) : ProactiveDemand :=
  { estimateBsr { s with event := if event < 0 then 0 else event } getBsr with
    now := s.now + slotUnit }

theorem slot_eq (hProfile : s.profile i.arrival i.getBsr = some t) :
    s.slot d i = (t.rawEvent d).map (t.withEvent i.getBsr) := by
  rw [slot, hProfile]
  change (t.estimateEvent d).bind _ = _
  rw [estimateEvent]
  cases t.rawEvent d with
  | none => rfl
  | some event => rfl

theorem Sane.setEvent (h : s.Sane) (event : ℚ) : Sane { s with event := event } :=
  ⟨h.avgArrival, h.estimatedArrival, h.proactiveBsr, h.started, h.ended, h.estimator⟩

theorem cutEvent_nonneg (event : ℚ) : 0 ≤ if event < 0 then 0 else event := by
  split
  · exact le_rfl
  · next h => exact not_lt.mp h

theorem withEvent_sane (hSane : s.Sane) (getBsr : Bool) (event : ℚ) :
    (s.withEvent getBsr event).Sane := by
  have hCut := hSane.setEvent (if event < 0 then 0 else event)
  have hBsr := modeBsr_nonneg hCut (eventBsr_nonneg hCut (cutEvent_nonneg event) getBsr)
  exact ⟨hSane.avgArrival, hSane.estimatedArrival, hBsr, hSane.started,
    fun hOn => (hSane.ended hOn).trans (le_add_of_nonneg_right slotUnit_pos.le), hSane.estimator⟩

theorem withEvent_bounded_iff (hSane : s.Sane) (hMode : s.scheduleMode = 2 ∨ s.scheduleMode = 3)
    (getBsr : Bool) (event : ℚ) : (s.withEvent getBsr event).Bounded ↔ event ≤ 1 := by
  have hCut := hSane.setEvent (if event < 0 then 0 else event)
  have hNonneg := cutEvent_nonneg event
  constructor
  · intro hBounded
    have hOne : (if event < 0 then 0 else event) ≤ 1 := hBounded.event_le_one
    split at hOne
    · next hNeg => exact hNeg.le.trans zero_le_one
    · exact hOne
  · intro hLe
    have hOne : (if event < 0 then 0 else event) ≤ 1 := by
      split
      · exact zero_le_one
      · exact hLe
    refine ⟨hNonneg, hOne, ?_, ?_⟩
    · exact modeBsr_nonneg hCut (eventBsr_nonneg hCut hNonneg getBsr)
    · exact (modeBsr_bullet hMode _).trans_le (eventBsr_le hCut hNonneg hOne getBsr)

/-- What a slot update keeps in the BULLET modes. -/
def InMode (s : ProactiveDemand) : Prop := s.Sane ∧ (s.scheduleMode = 2 ∨ s.scheduleMode = 3)

theorem slot_sane (hSane : s.Sane) (hSlot : s.slot d i = some t) : t.Sane := by
  obtain ⟨u, hProfile, hProfiles⟩ := profile_spec hSane i
  rw [slot_eq hProfile] at hSlot
  obtain ⟨event, -, hAfter⟩ := Option.map_eq_some_iff.mp hSlot
  cases hAfter
  exact withEvent_sane hProfiles.sane i.getBsr event

theorem slot_scheduleMode (hSane : s.Sane) (hSlot : s.slot d i = some t) :
    t.scheduleMode = s.scheduleMode := by
  obtain ⟨u, hProfile, hProfiles⟩ := profile_spec hSane i
  rw [slot_eq hProfile] at hSlot
  obtain ⟨event, -, hAfter⟩ := Option.map_eq_some_iff.mp hSlot
  cases hAfter
  exact hProfiles.scheduleMode

theorem slot_inMode (hIn : s.InMode) (hSlot : s.slot d i = some t) : t.InMode :=
  ⟨slot_sane hIn.1 hSlot, by rw [slot_scheduleMode hIn.1 hSlot]; exact hIn.2⟩

/-- A slot update is defined and keeps the bounds exactly when an off-period is within the recent
ones. -/
theorem slot_bounded_iff (hIn : s.InMode) :
    (∃ t, s.slot d i = some t ∧ t.Bounded) ↔ s.WithinRecent i := by
  obtain ⟨u, hProfile, hProfiles⟩ := profile_spec hIn.1 i
  have hMode := hIn.2
  rw [← hProfiles.scheduleMode] at hMode
  have hRaw : (∃ t, s.slot d i = some t ∧ t.Bounded) ↔
      ∃ event, u.rawEvent d = some event ∧ event ≤ 1 := by
    rw [slot_eq hProfile]
    constructor
    · rintro ⟨t, hSlot, hBounded⟩
      obtain ⟨event, hEvent, hAfter⟩ := Option.map_eq_some_iff.mp hSlot
      cases hAfter
      exact ⟨event, hEvent, (withEvent_bounded_iff hProfiles.sane hMode i.getBsr event).mp hBounded⟩
    · rintro ⟨event, hEvent, hOne⟩
      refine ⟨u.withEvent i.getBsr event, Option.map_eq_some_iff.mpr ⟨event, hEvent, rfl⟩, ?_⟩
      exact (withEvent_bounded_iff hProfiles.sane hMode i.getBsr event).mpr hOne
  rw [hRaw]
  cases hOn : u.onPeriod with
  | true =>
    have hNotOff : ¬ s.OffAfter i.arrival := by
      rw [← hProfiles.onPeriod, hOn]
      exact Bool.noConfusion
    exact iff_of_true (rawEvent_on hOn) fun hOff => absurd hOff hNotOff
  | false =>
    have hOff : s.OffAfter i.arrival := hProfiles.onPeriod.mp hOn
    rw [rawEvent_off_iff hProfiles.sane hOn, hProfiles.estimator hOn, hProfiles.gap hOn]
    exact ⟨fun hWithin _ => hWithin, fun hWithin => hWithin hOff⟩

/-! ## Runs -/

theorem init_sane (delays : Delays) (scheduleMode : ℤ) (now : ℚ) :
    (init delays scheduleMode now).Sane :=
  ⟨le_rfl, le_rfl, le_rfl, nofun, nofun, [], OnlineGaussianEstimator.holds_nil⟩

theorem init_bounded (delays : Delays) (scheduleMode : ℤ) (now : ℚ) :
    (init delays scheduleMode now).Bounded where
  event_nonneg := le_rfl
  event_le_one := zero_le_one
  proactiveBsr_nonneg := le_rfl
  proactiveBsr_le := (mul_zero delays.bsrSlot).ge

/-- The constructor updates the first slot in mode 0. With no demand estimated it leaves the same
state as in a BULLET mode. -/
theorem first_slot_mode (d : Distributions) (delays : Delays) {scheduleMode : ℤ} (now : ℚ)
    (hMode : scheduleMode = 2 ∨ scheduleMode = 3) :
    ((init delays 0 now).slot d ⟨0, false⟩).map (fun s => { s with scheduleMode := scheduleMode }) =
      (init delays scheduleMode now).slot d ⟨0, false⟩ := by
  have hProfile : (init delays scheduleMode now).profile 0 false = some (init delays scheduleMode now) := by
    rcases hMode with rfl | rfl <;> rfl
  have hZero : (init delays 0 now).profile 0 false = some (init delays 0 now) := rfl
  rw [slot_eq (i := ⟨0, false⟩) hProfile, slot_eq (i := ⟨0, false⟩) hZero, Option.map_map]
  have hSame : (init delays 0 now).rawEvent d = (init delays scheduleMode now).rawEvent d := rfl
  rw [hSame]
  congr 1
  funext event
  have hBsr : eventBsr { init delays scheduleMode now with
      event := if event < 0 then 0 else event } false = 0 := by
    change truncate (_ * ((0 : ℤ) : ℚ)) = 0
    rw [Int.cast_zero, mul_zero]
    rfl
  rw [Function.comp_apply, withEvent, withEvent, estimateBsr, estimateBsr,
    modeBsr_bullet (s := { init delays scheduleMode now with event := _ }) hMode, hBsr]
  rfl

/-- In the BULLET modes the event value is defined and a probability, and the demand bounded, after
every slot of a run exactly when every off-period stays within the recent ones. -/
theorem bounded_iff (d : Distributions) (delays : Delays) {scheduleMode : ℤ} (now : ℚ)
    (inputs : List SlotInput) (hMode : scheduleMode = 2 ∨ scheduleMode = 3) :
    (∀ p q, inputs = p ++ q →
      ∃ t, run (slot d) (init delays scheduleMode now) p = some t ∧ t.Bounded) ↔
      StepsMeet (slot d) WithinRecent (init delays scheduleMode now) inputs := by
  have hStart : (init delays scheduleMode now).InMode := ⟨init_sane delays scheduleMode now, hMode⟩
  refine forall_prefix_iff_stepsMeet ?_ ?_ hStart (init_bounded delays scheduleMode now)
  · intro s i t hIn hSlot
    exact slot_inMode hIn hSlot
  · intro s i hIn
    exact slot_bounded_iff hIn

end ProactiveDemand

/-- An increasing distribution with rational values. -/
def rationalCdf (x : ℚ) : ℚ := (1 + x / (1 + |x|)) / 2

theorem rationalCdf_mem (x : ℚ) : 0 ≤ rationalCdf x ∧ rationalCdf x ≤ 1 := by
  have hPos : 0 < 1 + |x| := by positivity
  have hAbs := abs_le.mp (le_refl |x|)
  have hLow : -1 ≤ x / (1 + |x|) := by
    rw [le_div_iff₀ hPos]
    linarith
  have hHigh : x / (1 + |x|) ≤ 1 := by
    rw [div_le_one hPos]
    linarith
  rw [rationalCdf]
  constructor <;> linarith

theorem rationalCdf_strictMono : StrictMono rationalCdf := by
  intro x y hLt
  have hX : 0 < 1 + |x| := by positivity
  have hY : 0 < 1 + |y| := by positivity
  have hCross : x * |y| ≤ y * |x| := by
    rcases le_total 0 x with hx | hx
    · rw [abs_of_nonneg hx, abs_of_nonneg (hx.trans hLt.le), mul_comm]
    · rw [abs_of_nonpos hx, mul_neg, mul_comm y, ← mul_neg]
      exact mul_le_mul_of_nonpos_left (neg_le_abs y) hx
  have hDiv : x / (1 + |x|) < y / (1 + |y|) := by
    rw [div_lt_div_iff₀ hX hY]
    linarith
  rw [rationalCdf, rationalCdf]
  linarith

/-- Its exponential function is the quadratic approximation from below. -/
def rationalDistributions : Distributions where
  exp x := 1 / (1 - x + x ^ 2 / 2)
  normalCdf x mu _ := rationalCdf (x - mu)
  increasing mu _ _ := fun _ _ hLt => rationalCdf_strictMono (sub_lt_sub_right hLt mu)
  nonneg x mu _ := (rationalCdf_mem (x - mu)).1
  le_one x mu _ := (rationalCdf_mem (x - mu)).2

namespace ProactiveDemand

def report : SlotInput := ⟨700, true⟩

def idle : SlotInput := ⟨0, false⟩

/-- Two reports end up 6 ms apart; the second off-period outlasts the first one. -/
def longOff : List SlotInput :=
  report :: (List.replicate 11 idle ++ report :: List.replicate 190 idle)

def schedulerDelays : Delays where
  srSlot := 4
  bsrSlot := 8

theorem bounded_reports :
    ∃ t, run (slot rationalDistributions) (init schedulerDelays 2 1) [idle, report, idle] = some t ∧
      t.Bounded :=
  (bounded_iff rationalDistributions schedulerDelays 1 _ (.inl rfl)).mpr (by decide +kernel)
    [idle, report, idle] [] (List.append_nil _).symm

/-- Reports that end equal off-periods. -/
def equalOff : List SlotInput :=
  report :: ((List.replicate 51 (List.replicate 11 idle ++ [report])).flatten ++
    List.replicate 11 idle)

theorem off_periods_unbounded :
    (∃ t, run (slot rationalDistributions) (init schedulerDelays 2 1) longOff = some t ∧
      1 < t.event ∧ t.delays.bsrSlot * t.estimatedArrival < t.proactiveBsr) ∧
      run (slot rationalDistributions) (init schedulerDelays 2 1) equalOff = none := by
  constructor
  · have hAny : (run (slot rationalDistributions) (init schedulerDelays 2 1) longOff).any
        fun t => 1 < t.event ∧ t.delays.bsrSlot * t.estimatedArrival < t.proactiveBsr := by
      decide +kernel
    obtain ⟨t, hRun, hLarge⟩ := (Option.any_eq_true _ _).mp hAny
    exact ⟨t, hRun, of_decide_eq_true hLarge⟩
  · have hNone : (run (slot rationalDistributions) (init schedulerDelays 2 1) equalOff).isNone := by
      decide +kernel
    exact Option.isNone_iff_eq_none.mp hNone

end ProactiveDemand
end Bullet.Trigger
