import Bullet.Lib.LeastSquares
import Bullet.Lib.PartialRun
import Bullet.Lib.RecentHistory
import Mathlib.Data.Rat.Floor

/-! # The overuse estimator

The trend of the smoothed delays of GCC and the Kalman filter behind it. Doubles are exact rationals
here, and the powers and square roots are those of a library. A failed assertion is `none`.
-/

namespace Bullet.Stream

open Lib Lib.PartialRun Lib.RecentHistory

structure RealFunctions where
  pow : ℚ → ℚ → ℚ
  sqrt : ℚ → ℚ

/-- The hypotheses `N`, `O` and `U` about the use of the bandwidth. -/
inductive BandwidthUsage where
  | normal
  | overusing
  | underusing
deriving DecidableEq, Repr

structure OveruseEstimator where
  numOfDeltas : ℕ := 0
  slope : ℚ := 8 / 512
  offset : ℚ := 0
  prevOffset : ℚ := 0
  e00 : ℚ := 100
  e01 : ℚ := 0
  e10 : ℚ := 0
  e11 : ℚ := 1 / 10
  avgNoise : ℚ := 0
  varNoise : ℚ := 50
  tsDeltaHist : List ℚ := []
  accumulatedDelay : ℚ := 0
  smoothedDelay : ℚ := 0
  delayHist : List (ℚ × ℚ) := []

/-- The arguments of `OveruseEstimatorUpdate`, the size aside, which it does not read. -/
structure DelaySample where
  tDelta : ℤ
  tsDelta : UInt32
  hypothesis : BandwidthUsage
  nowMs : ℤ

/-- The change of the delay. -/
def DelaySample.tTsDelta (d : DelaySample) : ℚ := d.tDelta - d.tsDelta.toNat

namespace OveruseEstimator

def minFramePeriodHistoryLength : ℕ := 60
def deltaCounterMax : ℕ := 1000
def windowSize : ℕ := 20
def smoothingCoef : ℚ := 9 / 10
def processNoise0 : ℚ := 1 / 10000000000
def processNoise1 : ℚ := 1 / 1000

/-- The slope of the line through the points, and 0 when they lie above each other. -/
def linearFitSlope (points : List (ℚ × ℚ)) : ℚ :=
  let sums : ℚ × ℚ := points.foldl (fun sums p => (sums.1 + p.1, sums.2 + p.2)) (0, 0)
  let xAvg := sums.1 / points.length
  let yAvg := sums.2 / points.length
  let moments : ℚ × ℚ := points.foldl
    (fun m p => (m.1 + (p.1 - xAvg) * (p.2 - yAvg), m.2 + (p.1 - xAvg) * (p.1 - xAvg))) (0, 0)
  if moments.2 = 0 then 0 else moments.1 / moments.2

def updateMinFramePeriod (s : OveruseEstimator) (tsDelta : ℚ) : OveruseEstimator × ℚ :=
  let hist :=
    if minFramePeriodHistoryLength ≤ s.tsDeltaHist.length then s.tsDeltaHist.tail else s.tsDeltaHist
  ({ s with tsDeltaHist := hist ++ [tsDelta] },
    hist.foldl (fun minFramePeriod old => min old minFramePeriod) tsDelta)

def updateNoiseEstimate (lib : RealFunctions) (s : OveruseEstimator) (residual tsDelta : ℚ)
    (stableState : Bool) : OveruseEstimator :=
  if !stableState then s
  else
    let alpha : ℚ := if 10 * 30 < s.numOfDeltas then 2 / 1000 else 1 / 100
    let beta := lib.pow (1 - alpha) (tsDelta * 30 / 1000)
    let avgNoise := beta * s.avgNoise + (1 - beta) * residual
    let varNoise := beta * s.varNoise + (1 - beta) * (avgNoise - residual) * (avgNoise - residual)
    { s with
      avgNoise := avgNoise
      varNoise := if varNoise < 1 then 1 else varNoise }

/-- The first half of the update: the regression over the window of smoothed delays. -/
def updateTrend (s : OveruseEstimator) (tTsDelta : ℚ) (nowMs : ℤ) : OveruseEstimator :=
  let numOfDeltas := s.numOfDeltas + 1
  let accumulatedDelay := s.accumulatedDelay + tTsDelta
  let smoothedDelay := smoothingCoef * s.smoothedDelay + (1 - smoothingCoef) * accumulatedDelay
  let pushed := s.delayHist ++ [((nowMs : ℚ), smoothedDelay)]
  let delayHist := if windowSize < pushed.length then pushed.drop 1 else pushed
  { s with
    numOfDeltas := if deltaCounterMax < numOfDeltas then deltaCounterMax else numOfDeltas
    accumulatedDelay := accumulatedDelay
    smoothedDelay := smoothedDelay
    delayHist := delayHist
    offset := if delayHist.length = windowSize then linearFitSlope delayHist else s.offset }

/-- The covariance after the process noise. -/
def predict (s : OveruseEstimator) (hypothesis : BandwidthUsage) : OveruseEstimator :=
  let e11 := s.e11 + processNoise1
  { s with
    e00 := s.e00 + processNoise0
    e11 :=
      if (hypothesis = .overusing ∧ s.offset < s.prevOffset) ∨
          (hypothesis = .underusing ∧ s.prevOffset < s.offset) then
        e11 + 10 * processNoise1
      else e11 }

/-- The covariance after a measurement with the gain `k` along `(h0, 1)`. -/
def correct (s : OveruseEstimator) (h0 k0 k1 : ℚ) : OveruseEstimator :=
  { s with
    e00 := s.e00 * (1 - k0 * h0) + s.e10 * (-k0 * 1)
    e01 := s.e01 * (1 - k0 * h0) + s.e11 * (-k0 * 1)
    e10 := s.e00 * (-k1 * h0) + s.e10 * (1 - k1 * 1)
    e11 := s.e01 * (-k1 * h0) + s.e11 * (1 - k1 * 1) }

def positiveSemiDefinite (s : OveruseEstimator) : Bool :=
  decide (0 ≤ s.e00 + s.e11 ∧ 0 ≤ s.e00 * s.e11 - s.e01 * s.e10 ∧ 0 ≤ s.e00)

/-- Very late frames count as the greatest residual. -/
def clampResidual (lib : RealFunctions) (s : OveruseEstimator) (residual : ℚ) : ℚ :=
  let maxResidual := 3 * lib.sqrt s.varNoise
  if |residual| < maxResidual then residual
  else if residual < 0 then -maxResidual else maxResidual

/-- The second half of the update: the Kalman filter. -/
def updateFilter (lib : RealFunctions) (s : OveruseEstimator) (tTsDelta tsDelta minFramePeriod : ℚ)
    (hypothesis : BandwidthUsage) : Option OveruseEstimator :=
  let s := s.predict hypothesis
  let eh0 := s.e00 * tsDelta + s.e01 * 1
  let eh1 := s.e10 * tsDelta + s.e11 * 1
  let residual := tTsDelta - s.slope * tsDelta - s.offset
  let s := s.updateNoiseEstimate lib (s.clampResidual lib residual) minFramePeriod
    (decide (hypothesis = .normal))
  let denom := s.varNoise + tsDelta * eh0 + 1 * eh1
  let k0 := eh0 / denom
  let k1 := eh1 / denom
  let s := s.correct tsDelta k0 k1
  if s.positiveSemiDefinite then
    some { s with
      slope := s.slope + k0 * residual
      prevOffset := s.offset
      offset := s.offset + k1 * residual }
  else none

def overuseEstimatorUpdate (lib : RealFunctions) (s : OveruseEstimator) (d : DelaySample) :
    Option OveruseEstimator :=
  let (s, minFramePeriod) := s.updateMinFramePeriod d.tsDelta.toNat
  (s.updateTrend d.tTsDelta d.nowMs).updateFilter lib d.tTsDelta d.tsDelta.toNat minFramePeriod
    d.hypothesis

/-! ## The covariance -/

/-- The covariance is symmetric and positive semidefinite, and the noise has a variance of its own. -/
structure Covariant (s : OveruseEstimator) : Prop where
  symmetric : s.e10 = s.e01
  e00 : 0 ≤ s.e00
  e11 : 0 ≤ s.e11
  det : s.e01 * s.e01 ≤ s.e00 * s.e11
  noise : 1 ≤ s.varNoise

/-- Two states with the same covariance and the same noise. -/
structure SameFilter (s t : OveruseEstimator) : Prop where
  e00 : t.e00 = s.e00
  e01 : t.e01 = s.e01
  e10 : t.e10 = s.e10
  e11 : t.e11 = s.e11
  varNoise : t.varNoise = s.varNoise

variable {lib : RealFunctions} {s t : OveruseEstimator} {d : DelaySample}
  {tTsDelta tsDelta minFramePeriod residual : ℚ} {hypothesis : BandwidthUsage} {stable : Bool}

theorem Covariant.of_same (h : Covariant s) (hSame : SameFilter s t) : Covariant t where
  symmetric := by rw [hSame.e10, hSame.e01, h.symmetric]
  e00 := hSame.e00.symm ▸ h.e00
  e11 := hSame.e11.symm ▸ h.e11
  det := by
    rw [hSame.e01, hSame.e00, hSame.e11]
    exact h.det
  noise := hSame.varNoise.symm ▸ h.noise

theorem Covariant.initial : Covariant {} where
  symmetric := rfl
  e00 := by norm_num
  e11 := by norm_num
  det := by norm_num
  noise := by norm_num

theorem updateMinFramePeriod_same (s : OveruseEstimator) (tsDelta : ℚ) :
    SameFilter s (s.updateMinFramePeriod tsDelta).1 := ⟨rfl, rfl, rfl, rfl, rfl⟩

theorem updateTrend_same (s : OveruseEstimator) (tTsDelta : ℚ) (nowMs : ℤ) :
    SameFilter s (s.updateTrend tTsDelta nowMs) := ⟨rfl, rfl, rfl, rfl, rfl⟩

/-- The process noise is added on the diagonal. -/
theorem Covariant.predict (h : Covariant s) (hypothesis : BandwidthUsage) :
    Covariant (s.predict hypothesis) := by
  have hNoise0 : (0 : ℚ) ≤ processNoise0 := by norm_num [processNoise0]
  have hNoise1 : (0 : ℚ) ≤ processNoise1 := by norm_num [processNoise1]
  have hGrows : s.e11 ≤ (s.predict hypothesis).e11 := by
    change s.e11 ≤ if _ then _ else _
    split <;> linarith
  have hE00 : s.e00 ≤ (s.predict hypothesis).e00 := le_add_of_nonneg_right hNoise0
  exact ⟨h.symmetric, h.e00.trans hE00, h.e11.trans hGrows,
    h.det.trans (mul_le_mul hE00 hGrows h.e11 (h.e00.trans hE00)), h.noise⟩

theorem le_ite_one (q : ℚ) : 1 ≤ if q < 1 then 1 else q := by
  split
  · exact le_refl 1
  · next hLarge => exact not_lt.mp hLarge

theorem Covariant.updateNoiseEstimate (h : Covariant s) (lib : RealFunctions) (residual tsDelta : ℚ)
    (stable : Bool) :
    Covariant (s.updateNoiseEstimate lib residual tsDelta stable) := by
  rw [OveruseEstimator.updateNoiseEstimate]
  split
  · exact h
  · refine ⟨h.symmetric, h.e00, h.e11, h.det, ?_⟩
    exact le_ite_one _

/-- The entries after a measurement: each is the old one with a share of the determinant, over the
variance of the innovation. -/
theorem correct_entries {h0 denom : ℚ} (hSymmetric : s.e10 = s.e01)
    (hDenom : denom = s.varNoise + h0 * (s.e00 * h0 + s.e01 * 1) + 1 * (s.e10 * h0 + s.e11 * 1))
    (hPos : denom ≠ 0) :
    let t := s.correct h0 ((s.e00 * h0 + s.e01 * 1) / denom) ((s.e10 * h0 + s.e11 * 1) / denom)
    let det := s.e00 * s.e11 - s.e01 * s.e01
    t.e00 = (s.e00 * s.varNoise + det) / denom ∧
      t.e01 = (s.e01 * s.varNoise - h0 * det) / denom ∧
      t.e10 = (s.e01 * s.varNoise - h0 * det) / denom ∧
      t.e11 = (s.e11 * s.varNoise + h0 ^ 2 * det) / denom := by
  rw [hSymmetric] at hDenom
  dsimp only [correct]
  rw [hSymmetric]
  refine ⟨?_, ?_, ?_, ?_⟩ <;>
  · field_simp
    rw [hDenom]
    ring

theorem Covariant.innovation_pos (h : Covariant s) (h0 : ℚ) :
    0 < s.varNoise + h0 * (s.e00 * h0 + s.e01 * 1) + 1 * (s.e10 * h0 + s.e11 * 1) := by
  have hForm : 0 ≤ s.e00 * h0 ^ 2 + 2 * s.e01 * h0 + s.e11 := by
    rcases h.e00.eq_or_lt with hZero | hPos
    · have hE01 : s.e01 = 0 := by
        have hDet := h.det
        rw [← hZero, zero_mul] at hDet
        exact mul_self_eq_zero.mp (le_antisymm hDet (mul_self_nonneg _))
      rw [← hZero, hE01]
      linarith [h.e11]
    · have hSquare : 0 ≤ (s.e00 * h0 + s.e01) ^ 2 := sq_nonneg _
      have hScaled : 0 ≤ s.e00 * (s.e00 * h0 ^ 2 + 2 * s.e01 * h0 + s.e11) := by
        linarith [h.det]
      exact nonneg_of_mul_nonneg_right hScaled hPos
  rw [h.symmetric]
  linarith [h.noise]

/-- A measurement keeps the covariance positive semidefinite. -/
theorem Covariant.correct (h : Covariant s) (h0 : ℚ) {denom : ℚ}
    (hDenom : denom = s.varNoise + h0 * (s.e00 * h0 + s.e01 * 1) + 1 * (s.e10 * h0 + s.e11 * 1)) :
    Covariant
      (s.correct h0 ((s.e00 * h0 + s.e01 * 1) / denom) ((s.e10 * h0 + s.e11 * 1) / denom)) := by
  have hPos : 0 < denom := hDenom ▸ h.innovation_pos h0
  obtain ⟨hE00, hE01, hE10, hE11⟩ := correct_entries h.symmetric hDenom hPos.ne'
  have hNoise : 0 ≤ s.varNoise := zero_le_one.trans h.noise
  have hDet : 0 ≤ s.e00 * s.e11 - s.e01 * s.e01 := sub_nonneg.mpr h.det
  refine ⟨hE10.trans hE01.symm, ?_, ?_, ?_, h.noise⟩
  · rw [hE00]
    exact div_nonneg (add_nonneg (mul_nonneg h.e00 hNoise) hDet) hPos.le
  · rw [hE11]
    exact div_nonneg
      (add_nonneg (mul_nonneg h.e11 hNoise) (mul_nonneg (sq_nonneg h0) hDet)) hPos.le
  · have hShrinks : (s.e00 * s.varNoise + (s.e00 * s.e11 - s.e01 * s.e01)) *
          (s.e11 * s.varNoise + h0 ^ 2 * (s.e00 * s.e11 - s.e01 * s.e01)) -
        (s.e01 * s.varNoise - h0 * (s.e00 * s.e11 - s.e01 * s.e01)) ^ 2 =
        s.varNoise * (s.e00 * s.e11 - s.e01 * s.e01) * denom := by
      rw [hDenom, h.symmetric]
      ring
    have hProduct := mul_nonneg (mul_nonneg hNoise hDet) hPos.le
    rw [hE00, hE01, hE11, div_mul_div_comm, div_mul_div_comm]
    apply div_le_div_of_nonneg_right _ (mul_pos hPos hPos).le
    linarith

theorem Covariant.positiveSemiDefinite (h : Covariant s) : s.positiveSemiDefinite = true := by
  rw [OveruseEstimator.positiveSemiDefinite, decide_eq_true_iff, h.symmetric]
  exact ⟨add_nonneg h.e00 h.e11, sub_nonneg.mpr h.det, h.e00⟩

/-- What the filter leaves as it was. -/
structure SameTrend (s t : OveruseEstimator) : Prop where
  numOfDeltas : t.numOfDeltas = s.numOfDeltas
  accumulatedDelay : t.accumulatedDelay = s.accumulatedDelay
  smoothedDelay : t.smoothedDelay = s.smoothedDelay
  delayHist : t.delayHist = s.delayHist
  trend : t.prevOffset = s.offset

theorem updateNoiseEstimate_same (lib : RealFunctions) (s : OveruseEstimator)
    (residual tsDelta : ℚ) (stable : Bool) :
    (s.updateNoiseEstimate lib residual tsDelta stable) =
      { s with
        avgNoise := (s.updateNoiseEstimate lib residual tsDelta stable).avgNoise
        varNoise := (s.updateNoiseEstimate lib residual tsDelta stable).varNoise } := by
  rw [updateNoiseEstimate]
  split <;> rfl

/-- The assertion about the covariance holds, and holds again after the next update. -/
theorem updateFilter_spec (h : Covariant s) (tTsDelta tsDelta minFramePeriod : ℚ)
    (hypothesis : BandwidthUsage) :
    ∃ t, s.updateFilter lib tTsDelta tsDelta minFramePeriod hypothesis = some t ∧ Covariant t ∧
      SameTrend s t := by
  have hPredicted := h.predict hypothesis
  rw [updateFilter]
  generalize (s.predict hypothesis).clampResidual lib
    (tTsDelta - (s.predict hypothesis).slope * tsDelta - (s.predict hypothesis).offset) = residual
  have hMeasured := hPredicted.updateNoiseEstimate lib residual minFramePeriod
    (decide (hypothesis = .normal))
  have hSame := updateNoiseEstimate_same lib (s.predict hypothesis) residual minFramePeriod
    (decide (hypothesis = .normal))
  generalize (s.predict hypothesis).updateNoiseEstimate lib residual minFramePeriod
    (decide (hypothesis = .normal)) = u at hMeasured hSame
  have hCorrected := hMeasured.correct tsDelta rfl
  rw [hSame] at hCorrected ⊢
  rw [if_pos hCorrected.positiveSemiDefinite]
  exact ⟨_, rfl, hCorrected.of_same ⟨rfl, rfl, rfl, rfl, rfl⟩, ⟨rfl, rfl, rfl, rfl, rfl⟩⟩

theorem overuseEstimatorUpdate_spec (lib : RealFunctions) (h : Covariant s) (d : DelaySample) :
    ∃ t, s.overuseEstimatorUpdate lib d = some t ∧ Covariant t ∧
      SameTrend ((s.updateMinFramePeriod d.tsDelta.toNat).1.updateTrend d.tTsDelta d.nowMs) t := by
  rw [overuseEstimatorUpdate]
  have hFirst := h.of_same (updateMinFramePeriod_same s d.tsDelta.toNat)
  generalize s.updateMinFramePeriod d.tsDelta.toNat = first at hFirst
  obtain ⟨u, minFramePeriod⟩ := first
  exact updateFilter_spec (hFirst.of_same (updateTrend_same u d.tTsDelta d.nowMs)) d.tTsDelta
    d.tsDelta.toNat minFramePeriod d.hypothesis

theorem Covariant.update (h : Covariant s) (hNext : s.overuseEstimatorUpdate lib d = some t) :
    Covariant t := by
  obtain ⟨u, hEq, hCovariant, -⟩ := overuseEstimatorUpdate_spec lib h d
  cases hEq.symm.trans hNext
  exact hCovariant

/-! ## The trend -/

theorem foldl_sums (f g : ℚ × ℚ → ℚ) (points : List (ℚ × ℚ)) (a b : ℚ) :
    points.foldl (fun sums p => (sums.1 + f p, sums.2 + g p)) (a, b) =
      (a + (points.map f).sum, b + (points.map g).sum) := by
  induction points generalizing a b with
  | nil => simp
  | cons p points ih =>
    rw [List.foldl_cons, ih, List.map_cons, List.map_cons, List.sum_cons, List.sum_cons, add_assoc,
      add_assoc]

theorem linearFitSlope_eq (points : List (ℚ × ℚ)) :
    linearFitSlope points =
      if LeastSquares.spread (LeastSquares.xMean points) points = 0 then 0
      else LeastSquares.slopeOf points := by
  have hSquare : ∀ x : ℚ, (fun p : ℚ × ℚ => (p.1 - x) * (p.1 - x)) = fun p => (p.1 - x) ^ 2 :=
    fun x => funext fun p => (sq (p.1 - x)).symm
  rw [linearFitSlope, foldl_sums Prod.fst Prod.snd]
  dsimp only
  rw [foldl_sums, zero_add, zero_add, zero_add, zero_add, hSquare]
  rfl

/-- The fitted slope is the one of least squares, or 0 when the points lie above each other. -/
theorem linearFitSlope_spec (points : List (ℚ × ℚ)) :
    (LeastSquares.IsLeast (linearFitSlope points) points ∧
        ∀ slope, LeastSquares.IsLeast slope points → slope = linearFitSlope points) ∨
      (linearFitSlope points = 0 ∧ ∃ x, ∀ p ∈ points, p.1 = x) := by
  rw [linearFitSlope_eq]
  split
  · next hFlat => exact .inr ⟨rfl, _, LeastSquares.spread_eq_zero_iff.mp hFlat⟩
  · next hSpread =>
    exact .inl ⟨LeastSquares.isLeast_slopeOf hSpread, fun slope hLeast =>
      LeastSquares.eq_slopeOf_of_isLeast hSpread hLeast⟩

/-- The delay that samples add up to. -/
def accumulated (log : List DelaySample) : ℚ := (log.map DelaySample.tTsDelta).sum

/-- The smoothed delay after samples, newest first. -/
def smoothed : List DelaySample → ℚ
  | [] => 0
  | d :: log => smoothingCoef * smoothed log + (1 - smoothingCoef) * accumulated (d :: log)

/-- The smoothed delays over time, newest first. -/
def smoothedDelays : List DelaySample → List (ℚ × ℚ)
  | [] => []
  | d :: log => ((d.nowMs : ℚ), smoothed (d :: log)) :: smoothedDelays log

@[simp] theorem length_smoothedDelays (log : List DelaySample) :
    (smoothedDelays log).length = log.length := by
  induction log with
  | nil => rfl
  | cons d log ih => rw [smoothedDelays, List.length_cons, List.length_cons, ih]

/-- The state against the samples so far, newest first. -/
structure Tracks (log : List DelaySample) (s : OveruseEstimator) : Prop where
  covariant : Covariant s
  numOfDeltas : s.numOfDeltas = min log.length deltaCounterMax
  accumulatedDelay : s.accumulatedDelay = accumulated log
  smoothedDelay : s.smoothedDelay = smoothed log
  delayHist : s.delayHist = recent windowSize (smoothedDelays log)
  trend : windowSize ≤ log.length → s.prevOffset = linearFitSlope s.delayHist

theorem Tracks.initial : Tracks [] {} where
  covariant := .initial
  numOfDeltas := rfl
  accumulatedDelay := rfl
  smoothedDelay := rfl
  delayHist := rfl
  trend hFull := absurd hFull (by decide)

variable {log : List DelaySample}

theorem Tracks.framed (h : Tracks log s) (tsDelta : ℚ) :
    Tracks log (s.updateMinFramePeriod tsDelta).1 :=
  ⟨h.covariant.of_same (updateMinFramePeriod_same s tsDelta), h.numOfDeltas, h.accumulatedDelay,
    h.smoothedDelay, h.delayHist, h.trend⟩

theorem Tracks.smoothed_cons (h : Tracks log s) (d : DelaySample) :
    smoothingCoef * s.smoothedDelay + (1 - smoothingCoef) * (s.accumulatedDelay + d.tTsDelta) =
      smoothed (d :: log) := by
  rw [smoothed, h.smoothedDelay, h.accumulatedDelay, accumulated, accumulated, List.map_cons,
    List.sum_cons, add_comm d.tTsDelta]

theorem Tracks.delayHist_cons (h : Tracks log s) (d : DelaySample) :
    (s.updateTrend d.tTsDelta d.nowMs).delayHist =
      recent windowSize (smoothedDelays (d :: log)) := by
  rw [smoothedDelays, recent_push, ← h.delayHist, ← h.smoothed_cons d]
  rfl

/-- One update. -/
theorem Tracks.update (lib : RealFunctions) (h : Tracks log s) (d : DelaySample) :
    ∃ t, s.overuseEstimatorUpdate lib d = some t ∧ Tracks (d :: log) t := by
  obtain ⟨t, hNext, hCovariant, hSame⟩ := overuseEstimatorUpdate_spec lib h.covariant d
  have hFirst := h.framed d.tsDelta.toNat
  generalize (s.updateMinFramePeriod d.tsDelta.toNat).1 = u at hFirst hSame
  have hTrend := hFirst.delayHist_cons d
  refine ⟨t, hNext, hCovariant, ?_, ?_, ?_, hSame.delayHist.trans hTrend, fun hFull => ?_⟩
  · rw [hSame.numOfDeltas, List.length_cons]
    change (if deltaCounterMax < u.numOfDeltas + 1 then deltaCounterMax else u.numOfDeltas + 1) = _
    have hCount := hFirst.numOfDeltas
    split <;> omega
  · rw [hSame.accumulatedDelay, accumulated, List.map_cons, List.sum_cons, add_comm d.tTsDelta]
    exact congrArg (· + d.tTsDelta) hFirst.accumulatedDelay
  · rw [hSame.smoothedDelay]
    exact hFirst.smoothed_cons d
  · have hLength : (u.updateTrend d.tTsDelta d.nowMs).delayHist.length = windowSize := by
      rw [hTrend, length_recent, length_smoothedDelays]
      exact Nat.min_eq_left hFull
    rw [hSame.trend, hSame.delayHist]
    exact if_pos hLength

theorem tracks_run (lib : RealFunctions) (samples : List DelaySample) :
    ∃ t, run (overuseEstimatorUpdate lib) {} samples = some t ∧ Tracks samples.reverse t := by
  have hAll : ∀ (l : List DelaySample) (log : List DelaySample) (s : OveruseEstimator),
      Tracks log s →
        ∃ t, run (overuseEstimatorUpdate lib) s l = some t ∧ Tracks (l.reverse ++ log) t := by
    intro l
    induction l with
    | nil => exact fun log s h => ⟨s, rfl, h⟩
    | cons d l ih =>
      intro log s h
      obtain ⟨t, hStep, hNext⟩ := h.update lib d
      obtain ⟨u, hRun, hEnd⟩ := ih (d :: log) t hNext
      refine ⟨u, ?_, ?_⟩
      · rw [run_cons, hStep]
        exact hRun
      · rw [List.reverse_cons, List.append_assoc]
        exact hEnd
  obtain ⟨t, hRun, hTracks⟩ := hAll samples [] {} .initial
  rw [List.append_nil] at hTracks
  exact ⟨t, hRun, hTracks⟩

/-- No sequence of delays makes the filter fail its assertion. -/
theorem covariant_of_run (lib : RealFunctions) (samples : List DelaySample) :
    ∃ t, run (overuseEstimatorUpdate lib) {} samples = some t ∧ Covariant t := by
  obtain ⟨t, hRun, hTracks⟩ := tracks_run lib samples
  exact ⟨t, hRun, hTracks.covariant⟩

/-- The last twenty smoothed delays, oldest first. -/
def window (samples : List DelaySample) : List (ℚ × ℚ) :=
  recent windowSize (smoothedDelays samples.reverse)

/-- Square roots to six places, and powers with a whole exponent. -/
def sixPlaces : RealFunctions where
  pow x y := x ^ ⌊y⌋
  sqrt q := Nat.sqrt ⌊q * 1000000000000⌋.toNat / 1000000

/-- Frames sent every 100 ms, each delayed by a millisecond more than the one before. -/
def risingDelays : List DelaySample :=
  (List.range 20).map fun n => ⟨101, 100, .normal, 101 * n⟩

end OveruseEstimator

end Bullet.Stream
