import Bullet.Trigger.BulletTrigger
import Bullet.Trigger.GaussianEstimator

/-! # The proactive demand

The part of `Processor` that follows the on- and off-periods of the traffic and estimates from them
what the user will ask for. Times and probabilities are rationals; the exponential function and the
normal distribution come from outside. `none` is a division by zero whose result would be converted
to an integer.
-/

namespace Bullet.Trigger

structure Distributions where
  exp : ℚ → ℚ
  /-- The distribution at `x`, of a mean and a variance. -/
  normalCdf : (x mu variance : ℚ) → ℚ
  increasing : ∀ mu variance, 0 < variance → StrictMono fun x => normalCdf x mu variance
  nonneg : ∀ x mu variance, 0 ≤ normalCdf x mu variance
  le_one : ∀ x mu variance, normalCdf x mu variance ≤ 1

/-- The test `exponential_cdf(x, scale) < bound`. A scale of zero gives an infinity, or at zero no
number. -/
def ExponentialCdfBelow (d : Distributions) (x scale bound : ℚ) : Prop :=
  if scale = 0 then x < 0 else 1 - d.exp (-x / scale) < bound

instance (d : Distributions) (x scale bound : ℚ) : Decidable (ExponentialCdfBelow d x scale bound) :=
  inferInstanceAs (Decidable (if scale = 0 then x < 0 else 1 - d.exp (-x / scale) < bound))

def truncatedNormalCdf (d : Distributions) (x mu variance lowerBound upperBound : ℚ) : Option ℚ :=
  let cdfValue := d.normalCdf x mu variance
  let cdfLower := d.normalCdf lowerBound mu variance
  let cdfUpper := d.normalCdf upperBound mu variance
  if cdfUpper - cdfLower = 0 then none
  else
    let cdfValue := (cdfValue - cdfLower) / (cdfUpper - cdfLower)
    some (if cdfValue < 0 then 0 else cdfValue)

def slotUnit : ℚ := 5 / 10000

def onThreshold : ℚ := 5 / 1000

/-- The delays of the constructor that the estimation uses. -/
structure Delays where
  srSlot : ℤ
  bsrSlot : ℤ
  srSlot_pos : 0 < srSlot := by decide
  bsrSlot_pos : 0 < bsrSlot := by decide

/-- `now` is the simulated time of the next slot update. -/
structure ProactiveDemand where
  delays : Delays
  scheduleMode : ℤ
  now : ℚ
  onPeriod : Bool := false
  avgArrival : ℤ := 0
  estimatedArrival : ℤ := 0
  startDiff : ℚ := 0
  periodStartTime : ℚ := 0
  periodEndTime : ℚ := 0
  onPeriodLength : ℚ := 0
  offPeriodLength : ℚ := 0
  estimator : OnlineGaussianEstimator := {}
  event : ℚ := 0
  proactiveBsr : ℤ := 0

namespace ProactiveDemand

/-- An off-period ends. -/
def startOnPeriod (s : ProactiveDemand) (getBsr : Bool) : ProactiveDemand :=
  let startDiff := (if getBsr = false then s.delays.srSlot else s.delays.bsrSlot) * slotUnit
  let s := { s with startDiff := startDiff }
  let s :=
    if s.periodStartTime = 0 then s
    else
      let periodLength := s.now - s.periodStartTime
      { s with
        offPeriodLength := 1 / 4 * periodLength + 3 / 4 * s.offPeriodLength
        estimator := s.estimator.addSample periodLength }
  { s with periodStartTime := s.now - startDiff }

/-- An on-period ends. -/
def endOnPeriod (s : ProactiveDemand) : Option ProactiveDemand :=
  let periodLength := s.periodEndTime - s.periodStartTime
  if periodLength / slotUnit = 0 then none
  else
    let avgArrival := truncate (s.avgArrival / (periodLength / slotUnit))
    some { s with
      onPeriod := false
      onPeriodLength := 1 / 5 * periodLength + 4 / 5 * s.onPeriodLength
      estimatedArrival :=
        if s.estimatedArrival = 0 then avgArrival
        else truncate (1 / 5 * avgArrival + 4 / 5 * s.estimatedArrival)
      avgArrival := 0
      periodStartTime := s.periodEndTime - s.delays.bsrSlot * slotUnit }

/-- The on- and off-periods of the detected arrivals. -/
def profile (s : ProactiveDemand) (arrival : ℤ) (getBsr : Bool) : Option ProactiveDemand :=
  if 0 < arrival then
    let s := if s.onPeriod = false then s.startOnPeriod getBsr else s
    some { s with avgArrival := s.avgArrival + arrival, periodEndTime := s.now, onPeriod := true }
  else if s.onPeriod = true then
    if onThreshold < s.now - s.periodEndTime then s.endOnPeriod else some s
  else if s.scheduleMode = 5 then
    some { s with estimatedArrival := truncate (4 / 5 * s.estimatedArrival) }
  else some s

/-- The event value before it is cut at zero. -/
def rawEvent (d : Distributions) (s : ProactiveDemand) : Option ℚ :=
  let timeGap := s.now - s.periodStartTime
  if s.onPeriod = true then
    some (if ExponentialCdfBelow d timeGap s.onPeriodLength (8 / 10) then 1 else 0)
  else
    truncatedNormalCdf d timeGap s.estimator.getMean s.estimator.getVariance
      s.estimator.getMinRecent s.estimator.getMaxRecent

def estimateEvent (d : Distributions) (s : ProactiveDemand) : Option ProactiveDemand := do
  let event ← s.rawEvent d
  some { s with event := if event < 0 then 0 else event }

def eventBsr (s : ProactiveDemand) (getBsr : Bool) : ℤ :=
  if s.onPeriod = true ∧ getBsr = false then
    let proactiveBsr := truncate (s.proactiveBsr + s.event * s.estimatedArrival)
    if s.delays.bsrSlot * s.estimatedArrival < proactiveBsr then
      s.delays.bsrSlot * s.estimatedArrival
    else proactiveBsr
  else truncate (s.event * s.estimatedArrival)

/-- What the schedule mode makes of the estimate. -/
def modeBsr (s : ProactiveDemand) (proactiveBsr : ℤ) : ℤ :=
  if s.scheduleMode = 1 then 2000
  else if s.scheduleMode = 0 ∨ s.scheduleMode = 4 then 0
  else if s.scheduleMode = 3 then proactiveBsr
  else if s.scheduleMode = 5 then s.estimatedArrival
  else if s.scheduleMode = 6 then 50000
  else proactiveBsr

def estimateBsr (s : ProactiveDemand) (getBsr : Bool) : ProactiveDemand :=
  { s with proactiveBsr := s.modeBsr (s.eventBsr getBsr) }

/-- One slot update, of the detected arrival and the flag for a new BSR. -/
structure SlotInput where
  arrival : ℤ
  getBsr : Bool
deriving DecidableEq, Repr

/-- The next update comes one slot later. -/
def slot (d : Distributions) (s : ProactiveDemand) (i : SlotInput) : Option ProactiveDemand := do
  let s ← s.profile i.arrival i.getBsr
  let s ← s.estimateEvent d
  let s := s.estimateBsr i.getBsr
  some { s with now := s.now + slotUnit }

/-- The demand of a new trigger, before its first slot update at time `now`. -/
def init (delays : Delays) (scheduleMode : ℤ) (now : ℚ) : ProactiveDemand where
  delays := delays
  scheduleMode := scheduleMode
  now := now

end ProactiveDemand
end Bullet.Trigger
