import Bullet.Lib.Samples
import Bullet.Trigger.Conservation

/-! # The confident demand

The statistics that lower the estimate are taken from the recorded demands. They are those of the
recorded errors exactly when the two lists of samples agree.
-/

namespace Bullet.Trigger

open Lib Lib.RecentHistory Lib.PartialRun

variable {z : ZScore} {s t u : BulletTrigger} {l m demands errors : List Int}

/-! ## The statistics -/

theorem sampleStats_of_few (h : l.length ≤ 10) : sampleStats l = ⟨0, 0⟩ :=
  if_neg (Nat.not_lt.mpr h)

def rationals (l : List Int) : List ℚ := l.map fun value : Int => (value : ℚ)

theorem sum_rationals (l : List Int) : (rationals l).sum = (l.sum : ℚ) := by
  induction l with
  | nil => rfl
  | cons x l ih =>
    rw [List.sum_cons, Int.cast_add, ← ih]
    rfl

theorem sampleStats_of_many (h : 10 < l.length) :
    sampleStats l = ⟨Samples.mean (rationals l), Samples.variance (rationals l)⟩ := by
  rw [sampleStats, if_pos h, Samples.variance, Samples.mean, sum_rationals, rationals,
    List.length_map, List.map_map]
  rfl

def sumSq (l : List Int) : Int := (l.map fun value => value ^ 2).sum

theorem sumSq_rationals (l : List Int) : Samples.sumSq (rationals l) = (sumSq l : ℚ) := by
  rw [sumSq, ← sum_rationals, rationals, rationals, Samples.sumSq, List.map_map, List.map_map]
  congr 2

/-- The newest demands and the newest errors have the same statistics: there are too few of both,
or the demands are zero while there are too few errors, or the sums and the sums of squares are in
proportion. -/
def SamplesAgree (demands errors : List Int) : Prop :=
  demands.length ≤ 10 ∨ (errors.length ≤ 10 ∧ ∀ demand ∈ demands, demand = 0) ∨
    (10 < errors.length ∧ errors.length * demands.sum = demands.length * errors.sum ∧
      errors.length * sumSq demands = demands.length * sumSq errors)

theorem sampleStats_eq_zero_iff (h : 10 < l.length) :
    sampleStats l = ⟨0, 0⟩ ↔ ∀ value ∈ l, value = 0 := by
  rw [sampleStats_of_many h, SampleStats.mk.injEq]
  have hMem : (∀ q ∈ rationals l, q = 0) ↔ ∀ value ∈ l, value = 0 := by
    simp [rationals]
  rw [← hMem]
  constructor
  · rintro ⟨hMean, hVariance⟩
    exact Samples.eq_zero_of_moments hMean hVariance
  · exact Samples.moments_of_eq_zero

theorem rationals_ne_nil (h : 10 < l.length) : rationals l ≠ [] := by
  rintro hNil
  rw [List.map_eq_nil_iff.mp hNil] at h
  cases h

theorem sampleStats_eq_iff_of_many (hl : 10 < l.length) (hm : 10 < m.length) :
    sampleStats l = sampleStats m ↔
      m.length * l.sum = l.length * m.sum ∧ m.length * sumSq l = l.length * sumSq m := by
  rw [sampleStats_of_many hl, sampleStats_of_many hm, SampleStats.mk.injEq,
    Samples.same_moments_iff (rationals_ne_nil hl) (rationals_ne_nil hm), sum_rationals,
    sum_rationals, sumSq_rationals, sumSq_rationals, rationals, rationals, List.length_map,
    List.length_map]
  constructor
  · rintro ⟨hSum, hSq⟩
    exact ⟨by exact_mod_cast hSum, by exact_mod_cast hSq⟩
  · rintro ⟨hSum, hSq⟩
    exact ⟨by exact_mod_cast hSum, by exact_mod_cast hSq⟩

theorem sampleStats_eq_iff (h : errors.length ≤ demands.length) :
    sampleStats demands = sampleStats errors ↔ SamplesAgree demands errors := by
  rw [SamplesAgree]
  by_cases hDemands : demands.length ≤ 10
  · rw [sampleStats_of_few hDemands, sampleStats_of_few (le_trans h hDemands)]
    exact iff_of_true rfl (Or.inl hDemands)
  · rw [or_iff_right hDemands]
    rw [not_le] at hDemands
    by_cases hErrors : errors.length ≤ 10
    · rw [sampleStats_of_few hErrors, sampleStats_eq_zero_iff hDemands,
        or_iff_left (fun hMany => absurd hMany.1 (Nat.not_lt.mpr hErrors)), and_iff_right hErrors]
    · rw [or_iff_right (fun hFew => hErrors hFew.1), and_iff_right (not_le.mp hErrors)]
      exact sampleStats_eq_iff_of_many hDemands (not_le.mp hErrors)

/-! ## Runs -/

namespace BulletTrigger

/-- The recent estimation errors. -/
def recentErrors (s : BulletTrigger) : List Int := s.slotErrorMap.values.take maxSample

/-- When the current slot takes the statistics, they are those of the recent errors; if these are
zero, the confident demand is the estimated one. -/
def DrivenByErrors (z : ZScore) (s : BulletTrigger) : Event → Prop
  | .slot currentSlot proactiveBsr => ∀ d t, s.detect currentSlot proactiveBsr = some d →
      (d.recordDemand currentSlot).updateError currentSlot = some t →
      sampleStats t.values = sampleStats t.recentErrors ∧
        ((∀ error ∈ t.recentErrors, error = 0) →
          (d.updateDemand z currentSlot).confidentBsr = d.proactiveBsr + d.identifiedDemand)
  | _ => True

/-- When the current slot takes the statistics, the recorded demands and errors agree. -/
def Agrees (s : BulletTrigger) : Event → Prop
  | .slot currentSlot proactiveBsr => ∀ d t, s.detect currentSlot proactiveBsr = some d →
      (d.recordDemand currentSlot).updateError currentSlot = some t →
      SamplesAgree t.values t.recentErrors
  | _ => True

/-- Errors are recorded for slots that have a demand. -/
def ErrorsWithin (s : BulletTrigger) : Prop := ∀ k ∈ s.slotErrorMap.keys, k ∈ s.slotDemandMap.keys

theorem ErrorsWithin.recordDemand (h : s.ErrorsWithin) (currentSlot : Int) :
    (s.recordDemand currentSlot).ErrorsWithin := by
  intro k hk
  exact OrderedMap.mem_keys_set.mpr (Or.inr (h k hk))

theorem updateError_eq_some {currentSlot : Int} (h : s.updateError currentSlot = some t) :
    ∃ slot demand, s.slotDemandMap.find slot = some demand ∧ t = s.recordError slot demand := by
  obtain ⟨slot, -, h⟩ := Option.bind_eq_some_iff.mp h
  obtain ⟨demand, hFind, h⟩ := Option.bind_eq_some_iff.mp h
  exact ⟨slot, demand, hFind, (Option.some.inj h).symm⟩

theorem ErrorsWithin.updateError (h : s.ErrorsWithin) {currentSlot : Int}
    (hError : s.updateError currentSlot = some t) : t.ErrorsWithin := by
  obtain ⟨slot, demand, hFind, rfl⟩ := updateError_eq_some hError
  intro k hk
  obtain rfl | hOld := OrderedMap.mem_keys_set.mp hk
  · exact OrderedMap.mem_keys_of_find hFind
  · exact h k hOld

theorem ErrorsWithin.updateDemand (h : s.ErrorsWithin) (currentSlot : Int) :
    (s.updateDemand z currentSlot).ErrorsWithin := by
  rw [BulletTrigger.updateDemand]
  have hRecorded := h.recordDemand currentSlot
  split
  · exact hRecorded
  · next t hError =>
    have hWithin := hRecorded.updateError hError
    exact hWithin

theorem detect_maps {currentSlot : Int} {proactiveBsr : ℕ}
    (h : s.detect currentSlot proactiveBsr = some t) :
    t.slotDemandMap = s.slotDemandMap ∧ t.slotErrorMap = s.slotErrorMap := by
  obtain ⟨⟨dOut, recentGranted⟩, -, h⟩ := Option.bind_eq_some_iff.mp h
  cases h
  rw [inputVariableTracer]
  dsimp only
  split
  · exact ⟨rfl, rfl⟩
  · exact ⟨rfl, rfl⟩

theorem ErrorsWithin.detect (h : s.ErrorsWithin) {currentSlot : Int} {proactiveBsr : ℕ}
    (hDetect : s.detect currentSlot proactiveBsr = some t) : t.ErrorsWithin := by
  obtain ⟨hDemands, hErrors⟩ := detect_maps hDetect
  rw [ErrorsWithin, hDemands, hErrors]
  exact h

theorem ErrorsWithin.processor (h : s.ErrorsWithin) {currentSlot : Int} {proactiveBsr : ℕ}
    (hStep : s.processor z currentSlot proactiveBsr = some t) : t.ErrorsWithin := by
  obtain ⟨d, hDetect, hStep⟩ := Option.bind_eq_some_iff.mp hStep
  cases hStep
  exact (h.detect hDetect).updateDemand currentSlot

theorem ErrorsWithin.step (h : s.ErrorsWithin) {e : Event}
    (hStep : BulletTrigger.step z s e = some t) : t.ErrorsWithin := by
  cases e with
  | slot currentSlot proactiveBsr => exact h.processor hStep
  | bsr _ | sr | grant _ | ack _ =>
    cases hStep
    exact h

theorem ErrorsWithin.length_recentErrors (h : s.ErrorsWithin) : s.recentErrors.length ≤ s.values.length := by
  rw [recentErrors, values, List.length_take, List.length_take]
  exact min_le_min_left maxSample (OrderedMap.length_values_le h)

/-- Without an error the confident demand is the estimated one. -/
theorem updateDemand_of_zero {currentSlot : Int}
    (hError : (s.recordDemand currentSlot).updateError currentSlot = some t)
    (hStats : sampleStats t.values = ⟨0, 0⟩) :
    (s.updateDemand z currentSlot).confidentBsr = s.proactiveBsr + s.identifiedDemand := by
  obtain ⟨slot, demand, -, rfl⟩ := updateError_eq_some hError
  have hDemand : (s.updateDemand z currentSlot).confidentBsr =
      max (s.proactiveBsr + s.identifiedDemand - truncate 0 - z.penalty 0)
        s.identifiedDemand := by
    rw [updateDemand, hError]
    dsimp only
    rw [hStats]
    rfl
  have hTruncate : truncate 0 = 0 := rfl
  rw [hDemand, z.penalty_zero, hTruncate, sub_zero, sub_zero]
  exact max_eq_left (le_add_of_nonneg_left (Int.natCast_nonneg _))

theorem sampleStats_of_zero (h : ∀ value ∈ l, value = 0) : sampleStats l = ⟨0, 0⟩ := by
  by_cases hMany : 10 < l.length
  · exact (sampleStats_eq_zero_iff hMany).mpr h
  · exact sampleStats_of_few (not_lt.mp hMany)

theorem drivenByErrors_iff_agrees (h : s.ErrorsWithin) (e : Event) :
    s.DrivenByErrors z e ↔ s.Agrees e := by
  cases e with
  | slot currentSlot proactiveBsr =>
    constructor
    · intro hDriven d t hDetect hError
      have hWithin := ((h.detect hDetect).recordDemand currentSlot).updateError hError
      exact (sampleStats_eq_iff hWithin.length_recentErrors).mp (hDriven d t hDetect hError).1
    · intro hAgrees d t hDetect hError
      have hWithin := ((h.detect hDetect).recordDemand currentSlot).updateError hError
      have hStats := (sampleStats_eq_iff hWithin.length_recentErrors).mpr (hAgrees d t hDetect hError)
      refine ⟨hStats, fun hZero => ?_⟩
      exact updateDemand_of_zero hError (hStats.trans (sampleStats_of_zero hZero))
  | bsr _ | sr | grant _ | ack _ => exact Iff.rfl

end BulletTrigger
end Bullet.Trigger
