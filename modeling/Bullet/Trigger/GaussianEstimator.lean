import Mathlib.Algebra.Order.Field.Rat
import Mathlib.Data.List.Induction
import Bullet.Lib.RecentHistory
import Bullet.Lib.Samples

/-! # The off-period estimator

The estimator of the trigger keeps the mean and the squared deviations of the lengths of the
off-periods, and the recent lengths. Its squared deviations start at 1 and its recent lengths with a
0, so what it returns is never the statistics of the samples alone.
-/

namespace Bullet.Trigger

open Lib Lib.RecentHistory

structure OnlineGaussianEstimator where
  mean : ℚ := 0
  m2 : ℚ := 1
  n : ℕ := 0
  recentSamples : List ℚ := [0]
  recent_ne : recentSamples ≠ [] := by decide
deriving DecidableEq, Repr

namespace OnlineGaussianEstimator

def addSample (e : OnlineGaussianEstimator) (x : ℚ) : OnlineGaussianEstimator :=
  let n := e.n + 1
  let delta := x - e.mean
  let mean := e.mean + delta / n
  { mean := mean
    m2 := e.m2 + delta * (x - mean)
    n := n
    recentSamples :=
      (if 50 < e.recentSamples.length then e.recentSamples.drop 1 else e.recentSamples) ++ [x]
    recent_ne := List.append_ne_nil_of_right_ne_nil _ (List.cons_ne_nil x []) }

def getMean (e : OnlineGaussianEstimator) : ℚ := e.mean

/-- The square of `get_stddev`. -/
def getVariance (e : OnlineGaussianEstimator) : ℚ :=
  if e.n < 2 then 1 else e.m2 / (e.n - 1)

def getMinRecent (e : OnlineGaussianEstimator) : ℚ := e.recentSamples.min e.recent_ne

def getMaxRecent (e : OnlineGaussianEstimator) : ℚ :=
  let returnValue := e.recentSamples.max e.recent_ne
  if returnValue = 0 then 100 else returnValue

def addSamples (e : OnlineGaussianEstimator) (samples : List ℚ) : OnlineGaussianEstimator :=
  samples.foldl addSample e

/-- What the estimator holds after the samples. -/
structure Holds (e : OnlineGaussianEstimator) (samples : List ℚ) : Prop where
  mean : e.mean = Samples.mean samples
  m2 : e.m2 = Samples.sumSqDev samples + 1
  n : e.n = samples.length
  recentSamples : e.recentSamples = recent 51 (samples.reverse ++ [0])

theorem holds_nil : Holds {} [] where
  mean := by rw [Samples.mean, List.sum_nil, zero_div]
  m2 := by rw [Samples.sumSqDev, List.map_nil, List.sum_nil, zero_add]
  n := rfl
  recentSamples := rfl

variable {e : OnlineGaussianEstimator} {samples : List ℚ} {x : ℚ}

theorem Holds.addSample (h : e.Holds samples) (x : ℚ) :
    (e.addSample x).Holds (samples ++ [x]) := by
  have hMean : (e.addSample x).mean = Samples.mean (samples ++ [x]) := by
    change e.mean + (x - e.mean) / ((e.n + 1 : ℕ) : ℚ) = _
    rw [Samples.mean_append, h.mean, h.n, Nat.cast_succ]
  refine ⟨hMean, ?_, ?_, ?_⟩
  · change e.m2 + (x - e.mean) * (x - (e.addSample x).mean) = _
    rw [hMean, h.m2, h.mean, Samples.sumSqDev_append]
    ring
  · rw [List.length_append, List.length_singleton, ← h.n]
    rfl
  · change (if 50 < e.recentSamples.length then e.recentSamples.drop 1 else e.recentSamples) ++ [x] =
      _
    rw [List.reverse_append, List.reverse_singleton, List.singleton_append, List.cons_append,
      recent_push, ← h.recentSamples, List.length_append, List.length_singleton]
    have hPos : 1 ≤ e.recentSamples.length := List.length_pos_iff.mpr e.recent_ne
    rw [List.drop_append_of_le_length hPos]
    by_cases hFull : 50 < e.recentSamples.length
    · rw [if_pos hFull, if_pos (by omega)]
    · rw [if_neg hFull, if_neg (by omega)]

theorem holds_addSamples (samples : List ℚ) : (addSamples {} samples).Holds samples := by
  induction samples using List.reverseRecOn with
  | nil => exact holds_nil
  | append_singleton samples x ih =>
    rw [addSamples, List.foldl_append]
    exact ih.addSample x

/-- The sample variance. -/
def sampleVariance (samples : List ℚ) : ℚ := Samples.sumSqDev samples / (samples.length - 1)

/-- The estimator returns the statistics of the samples. -/
structure Estimates (e : OnlineGaussianEstimator) (samples : List ℚ) : Prop where
  mean : e.getMean = Samples.mean samples
  variance : 2 ≤ samples.length → e.getVariance = sampleVariance samples
  minRecent : (samples.drop (samples.length - 50)).min? = some e.getMinRecent
  maxRecent : (samples.drop (samples.length - 50)).max? = some e.getMaxRecent

/-- With two samples or more the variance is too large by the initial square. -/
theorem Holds.getVariance (h : e.Holds samples) (hTwo : 2 ≤ samples.length) :
    e.getVariance = sampleVariance samples + 1 / (samples.length - 1) := by
  rw [OnlineGaussianEstimator.getVariance, if_neg (by rw [h.n]; omega), h.m2, h.n, sampleVariance,
    add_div]

theorem Holds.getVariance_ne (h : e.Holds samples) (hTwo : 2 ≤ samples.length) :
    e.getVariance ≠ sampleVariance samples := by
  have hPos : (0 : ℚ) < samples.length - 1 := sub_pos.mpr (Nat.one_lt_cast.mpr hTwo)
  rw [h.getVariance hTwo, Ne, add_eq_left]
  exact (one_div_pos.mpr hPos).ne'

/-- One sample does not give both bounds: the initial 0 is one of them, or stands for 100. -/
theorem Holds.recent_ne_singleton (h : e.Holds [x]) :
    ¬ (e.getMinRecent = x ∧ e.getMaxRecent = x) := by
  obtain ⟨mean, m2, n, recentSamples, recent_ne⟩ := e
  obtain rfl : recentSamples = [0, x] := h.recentSamples
  rintro ⟨hMin, hMax⟩
  change min 0 x = x at hMin
  change (if max 0 x = 0 then 100 else max 0 x) = x at hMax
  rw [max_eq_left (min_eq_right_iff.mp hMin), if_pos rfl] at hMax
  rw [← hMax] at hMin
  exact absurd hMin (by decide)

theorem not_estimates (hSome : samples ≠ []) : ¬ (addSamples {} samples).Estimates samples := by
  intro hEstimates
  have hHolds := holds_addSamples samples
  cases samples with
  | nil => exact hSome rfl
  | cons x rest =>
    cases rest with
    | nil =>
      exact hHolds.recent_ne_singleton
        ⟨(Option.some.inj hEstimates.minRecent).symm, (Option.some.inj hEstimates.maxRecent).symm⟩
    | cons y rest =>
      have hTwo : 2 ≤ (x :: y :: rest).length := Nat.le_add_left 2 rest.length
      exact hHolds.getVariance_ne hTwo (hEstimates.variance hTwo)

theorem not_estimates_pair : ¬ (addSamples {} [1, 3]).Estimates [1, 3] :=
  not_estimates (List.cons_ne_nil 1 [3])

/-- Of the samples 1 and 3 the variance 2 is returned as 3, and the recent minimum as 0. -/
theorem one_three_misestimated :
    (addSamples {} [1, 3]).getVariance = 3 ∧ sampleVariance [1, 3] = 2 ∧
      (addSamples {} [1, 3]).getMinRecent = 0 ∧ ¬ (addSamples {} [1, 3]).Estimates [1, 3] := by
  have hVariance : (addSamples {} [1, 3]).getVariance = 3 := by decide +kernel
  have hSample : sampleVariance [1, 3] = 2 := by decide +kernel
  refine ⟨hVariance, hSample, by decide +kernel, fun hEstimates => ?_⟩
  have hEq := hEstimates.variance (Nat.le_refl 2)
  rw [hVariance, hSample] at hEq
  revert hEq
  decide

end OnlineGaussianEstimator
end Bullet.Trigger
