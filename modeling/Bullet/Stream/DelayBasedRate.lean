import Bullet.Stream.NetRecord
import Bullet.Stream.OveruseDetector

/-! # The delay-based rate controller

The bit rate of GCC rises while the bandwidth is used normally, slowly when it is near the rate at
which overuse was met, and falls on overuse. A standard deviation is `none` where the source has the
square root of a negative number, with which no comparison holds.
-/

namespace Bullet.Stream

open NetRecord

/-- The states `H`, `I` and `D` of the controller. -/
inductive RateControlState where
  | hold
  | increase
  | decrease
deriving DecidableEq, Repr

/-- The regions `M` and `N`. -/
inductive RateControlRegion where
  | maxUnknown
  | nearMax
deriving DecidableEq, Repr

structure DelayBasedRate where
  minConfiguredBitrateBps : UInt32 := 3000000
  currentBitrateBps : UInt32 := 3000000
  latestIncomingBitrateBps : UInt32 := 3000000
  avgMaxBitrateKbps : ℚ := -1
  varMaxBitrateKbps : ℚ := 2 / 5
  rateControlState : RateControlState := .increase
  rateControlRegion : RateControlRegion := .maxUnknown
  timeLastBitrateChange : ℤ := -1
  timeFirstIncomingEstimate : ℤ := -1
  bitrateIsInitialized : Bool := false
  rtt : ℤ := 100
  lastDecrease : ℤ := 0

namespace DelayBasedRate

def beta : ℚ := 85 / 100

/-- The rate above which the send side is too far off what is received. -/
def maxBitrate (incomingBitrateBps : UInt32) : UInt32 :=
  toUInt32 (3 / 2 * incomingBitrateBps.toNat) + 10000

def clampBitrate (s : DelayBasedRate) (newBitrateBps incomingBitrateBps : UInt32) : UInt32 :=
  let maxBitrateBps := maxBitrate incomingBitrateBps
  let newBitrateBps :=
    if newBitrateBps > s.currentBitrateBps ∧ newBitrateBps > maxBitrateBps ∧
        maxBitrateBps > s.currentBitrateBps then
      max s.currentBitrateBps maxBitrateBps
    else newBitrateBps
  max (min newBitrateBps maxBitrateBps) s.minConfiguredBitrateBps

def getNearMaxIncreaseRateBps (s : DelayBasedRate) : ℤ :=
  let bitsPerFrame : ℚ := s.currentBitrateBps.toNat / 30
  let packetsPerFrame : ℚ := ⌈bitsPerFrame / (8 * 1200)⌉
  let avgPacketSizeBits := bitsPerFrame / packetsPerFrame
  let responseTime := s.rtt + 100
  ⌊max 4000 (avgPacketSizeBits * 1000 / responseTime)⌋

def additiveRateIncrease (s : DelayBasedRate) (nowMs lastMs : ℤ) : UInt32 :=
  UInt32.ofInt (((nowMs - lastMs) * s.getNearMaxIncreaseRateBps).tdiv 1000)

def multiplicativeRateIncrease (lib : RealFunctions) (nowMs lastMs : ℤ)
    (currentBitrateBps : UInt32) : UInt32 :=
  let alpha : ℚ :=
    if lastMs > -1 then lib.pow (108 / 100) ((min (nowMs - lastMs) 1000 : ℤ) / 1000) else 108 / 100
  toUInt32 (max (currentBitrateBps.toNat * (alpha - 1)) 1000)

def averagedMax (s : DelayBasedRate) (incomingBitrateKbps : ℚ) : ℚ :=
  let alpha : ℚ := 5 / 100
  if s.avgMaxBitrateKbps = -1 then incomingBitrateKbps
  else (1 - alpha) * s.avgMaxBitrateKbps + alpha * incomingBitrateKbps

def updateMaxBitRateEstimate (s : DelayBasedRate) (incomingBitrateKbps : ℚ) : DelayBasedRate :=
  let alpha : ℚ := 5 / 100
  let avg := s.averagedMax incomingBitrateKbps
  let norm := max avg 1
  let var := (1 - alpha) * s.varMaxBitrateKbps +
    alpha * (avg - incomingBitrateKbps) * (avg - incomingBitrateKbps) / norm
  { s with avgMaxBitrateKbps := avg, varMaxBitrateKbps := safeClamp var (2 / 5) (5 / 2) }

def changeState (s : DelayBasedRate) (bwState : BandwidthUsage) (nowMs : ℤ) : DelayBasedRate :=
  match bwState with
  | .normal =>
    match s.rateControlState with
    | .hold => { s with timeLastBitrateChange := nowMs, rateControlState := .increase }
    | .increase => s
    | .decrease => { s with rateControlState := .hold }
  | .overusing => { s with rateControlState := .decrease }
  | .underusing => { s with rateControlState := .hold }

def stdMaxBitRate (lib : RealFunctions) (s : DelayBasedRate) : Option ℚ :=
  if s.varMaxBitrateKbps * s.avgMaxBitrateKbps < 0 then none
  else some (lib.sqrt (s.varMaxBitrateKbps * s.avgMaxBitrateKbps))

/-- More comes in than the maximum known so far explains. -/
def aboveMax (lib : RealFunctions) (s : DelayBasedRate) (incomingBitrateKbps : ℚ) : Bool :=
  decide (0 ≤ s.avgMaxBitrateKbps) && (s.stdMaxBitRate lib).any fun std =>
    decide (incomingBitrateKbps > s.avgMaxBitrateKbps + 3 * std)

def belowMax (lib : RealFunctions) (s : DelayBasedRate) (incomingBitrateKbps : ℚ) : Bool :=
  (s.stdMaxBitRate lib).any fun std =>
    decide (incomingBitrateKbps < s.avgMaxBitrateKbps - 3 * std)

/-- The case `I` of `ChangeBitrate`. -/
def increase (lib : RealFunctions) (s : DelayBasedRate) (newBitrateBps incomingBitrateBps : UInt32)
    (nowMs : ℤ) : DelayBasedRate × UInt32 :=
  let s :=
    if s.aboveMax lib (incomingBitrateBps.toNat / 1000) then
      { s with rateControlRegion := .maxUnknown, avgMaxBitrateKbps := -1 }
    else s
  let newBitrateBps :=
    match s.rateControlRegion with
    | .nearMax => newBitrateBps + s.additiveRateIncrease nowMs s.timeLastBitrateChange
    | .maxUnknown =>
      newBitrateBps + multiplicativeRateIncrease lib nowMs s.timeLastBitrateChange newBitrateBps
  ({ s with timeLastBitrateChange := nowMs }, newBitrateBps)

/-- The rate of the case `D`, something lower than what comes in. -/
def decreasedBitrate (s : DelayBasedRate) (incomingBitrateBps : UInt32) : UInt32 :=
  let newBitrateBps := toUInt32 (beta * incomingBitrateBps.toNat + 1 / 2)
  if newBitrateBps > s.currentBitrateBps then
    min
      (match s.rateControlRegion with
        | .maxUnknown => newBitrateBps
        | .nearMax => toUInt32 (beta * s.avgMaxBitrateKbps * 1000 + 1 / 2))
      s.currentBitrateBps
  else newBitrateBps

/-- The case `D` of `ChangeBitrate`. -/
def decrease (lib : RealFunctions) (s : DelayBasedRate) (incomingBitrateBps : UInt32) (nowMs : ℤ) :
    DelayBasedRate × UInt32 :=
  let incomingBitrateKbps : ℚ := incomingBitrateBps.toNat / 1000
  let newBitrateBps := s.decreasedBitrate incomingBitrateBps
  let lastDecrease :=
    if s.bitrateIsInitialized ∧ incomingBitrateBps < s.currentBitrateBps then
      if (newBitrateBps.toNat : ℚ) < 9 / 10 * beta * s.currentBitrateBps.toNat then 0
      else (s.currentBitrateBps.toNat : ℤ) - newBitrateBps.toNat
    else s.lastDecrease
  let avg := if s.belowMax lib incomingBitrateKbps then -1 else s.avgMaxBitrateKbps
  let s :=
    { s with
      rateControlRegion := .nearMax
      lastDecrease := lastDecrease
      avgMaxBitrateKbps := avg
      bitrateIsInitialized := true }
  ({ s.updateMaxBitRateEstimate incomingBitrateKbps with
      rateControlState := .hold
      timeLastBitrateChange := nowMs }, newBitrateBps)

def changeBitrate (lib : RealFunctions) (s : DelayBasedRate) (newBitrateBps : UInt32)
    (bwState : BandwidthUsage) (incomingBitrate : UInt32) (nowMs : ℤ) : DelayBasedRate × UInt32 :=
  let s :=
    if incomingBitrate ≠ 0 then { s with latestIncomingBitrateBps := incomingBitrate } else s
  if s.bitrateIsInitialized = false ∧ bwState = .overusing then (s, s.currentBitrateBps)
  else
    let s := s.changeState bwState nowMs
    let (s, newBitrateBps) :=
      match s.rateControlState with
      | .hold => (s, newBitrateBps)
      | .increase => s.increase lib newBitrateBps incomingBitrate nowMs
      | .decrease => s.decrease lib incomingBitrate nowMs
    (s, s.clampBitrate newBitrateBps incomingBitrate)

/-- The first half second gives the first estimate. -/
def initialize? (s : DelayBasedRate) (incomingBitrate : UInt32) (nowMs : ℤ) : DelayBasedRate :=
  if s.bitrateIsInitialized then s
  else if s.timeFirstIncomingEstimate < 0 then
    if incomingBitrate ≠ 0 then { s with timeFirstIncomingEstimate := nowMs } else s
  else if 500 < nowMs - s.timeFirstIncomingEstimate ∧ incomingBitrate > 0 then
    { s with currentBitrateBps := incomingBitrate, bitrateIsInitialized := true }
  else s

def update (lib : RealFunctions) (s : DelayBasedRate) (bwState : BandwidthUsage)
    (incomingBitrate : UInt32) (nowMs : ℤ) : DelayBasedRate :=
  let s := s.initialize? incomingBitrate nowMs
  let (s, currentBitrateBps) :=
    s.changeBitrate lib s.currentBitrateBps bwState incomingBitrate nowMs
  { s with currentBitrateBps := currentBitrateBps }

/-- A bit rate that is too high for what is received, or one kept for long enough. -/
def timeToReduceFurther (s : DelayBasedRate) (timeNow : ℤ) (incomingBitrateBps : UInt32) : Bool :=
  let bitrateReductionInterval := max (min s.rtt 200) 10
  if timeNow - s.timeLastBitrateChange ≥ bitrateReductionInterval then true
  else if s.bitrateIsInitialized then
    decide (incomingBitrateBps < toUInt32 (1 / 2 * s.currentBitrateBps.toNat))
  else false

/-! ## The clamp -/

variable {lib : RealFunctions} {s : DelayBasedRate} {newBitrate incoming : UInt32} {nowMs : ℤ}
  {bwState : BandwidthUsage}

theorem toNat_max (a b : UInt32) : (max a b).toNat = max a.toNat b.toNat := by
  change (if a ≤ b then b else a).toNat = _
  split
  · next hLe => exact (max_eq_right (UInt32.le_iff_toNat_le.mp hLe)).symm
  · next hLt => exact (max_eq_left (by rw [UInt32.le_iff_toNat_le] at hLt; omega)).symm

theorem toNat_min (a b : UInt32) : (min a b).toNat = min a.toNat b.toNat := by
  change (if a ≤ b then a else b).toNat = _
  split
  · next hLe => exact (min_eq_left (UInt32.le_iff_toNat_le.mp hLe)).symm
  · next hLt => exact (min_eq_right (by rw [UInt32.le_iff_toNat_le] at hLt; omega)).symm

theorem le_clampBitrate (s : DelayBasedRate) (newBitrate incoming : UInt32) :
    s.minConfiguredBitrateBps.toNat ≤ (s.clampBitrate newBitrate incoming).toNat := by
  rw [clampBitrate, toNat_max]
  exact le_max_right _ _

/-- The clamp raises the bit rate only from one above, and never beyond what the receive rate allows. -/
theorem clampBitrate_rise (hMin : s.minConfiguredBitrateBps.toNat ≤ s.currentBitrateBps.toNat)
    (hRise : s.currentBitrateBps.toNat < (s.clampBitrate newBitrate incoming).toNat) :
    s.currentBitrateBps.toNat < newBitrate.toNat ∧
      (s.clampBitrate newBitrate incoming).toNat ≤ (maxBitrate incoming).toNat := by
  rw [clampBitrate, toNat_max, toNat_min] at hRise ⊢
  generalize maxBitrate incoming = limit at *
  split at hRise
  · next hAbove =>
    rw [if_pos hAbove, toNat_max]
    rw [toNat_max] at hRise
    have hNew := UInt32.lt_iff_toNat_lt.mp hAbove.1
    omega
  · next hNot =>
    rw [if_neg hNot]
    omega

/-! ## The updates -/

/-- What the controller keeps between two updates: a state that is not `D`, and a maximum that is known
near the maximum. -/
structure Resting (s : DelayBasedRate) : Prop where
  state : s.rateControlState ≠ .decrease
  known : s.rateControlRegion = .nearMax → 0 ≤ s.avgMaxBitrateKbps
  average : s.avgMaxBitrateKbps = -1 ∨ 0 ≤ s.avgMaxBitrateKbps
  variance : 2 / 5 ≤ s.varMaxBitrateKbps ∧ s.varMaxBitrateKbps ≤ 5 / 2

theorem Resting.initial : Resting {} where
  state := nofun
  known := nofun
  average := .inl rfl
  variance := by norm_num

theorem updateMaxBitRateEstimate_spec (hAverage : s.avgMaxBitrateKbps = -1 ∨ 0 ≤ s.avgMaxBitrateKbps)
    {kbps : ℚ} (hKbps : 0 ≤ kbps) :
    0 ≤ (s.updateMaxBitRateEstimate kbps).avgMaxBitrateKbps ∧
      2 / 5 ≤ (s.updateMaxBitRateEstimate kbps).varMaxBitrateKbps ∧
      (s.updateMaxBitRateEstimate kbps).varMaxBitrateKbps ≤ 5 / 2 := by
  refine ⟨?_, safeClamp_mem (by norm_num) _⟩
  change 0 ≤ s.averagedMax kbps
  rw [averagedMax]
  split
  · exact hKbps
  · next hOther =>
    have hKnown := hAverage.resolve_left hOther
    linarith

theorem decreasedBitrate_le : (s.decreasedBitrate incoming).toNat ≤ s.currentBitrateBps.toNat := by
  rw [decreasedBitrate]
  split
  · rw [toNat_min]
    exact min_le_right _ _
  · next hNot => exact UInt32.le_iff_toNat_le.mp (UInt32.not_lt.mp hNot)

/-- The fields that a change of the bit rate leaves as they were. -/
structure SameRate (s t : DelayBasedRate) : Prop where
  current : t.currentBitrateBps = s.currentBitrateBps
  least : t.minConfiguredBitrateBps = s.minConfiguredBitrateBps

theorem increase_spec (lib : RealFunctions) (h : Resting s) (newBitrate incoming : UInt32) (nowMs : ℤ) :
    Resting (s.increase lib newBitrate incoming nowMs).1 ∧
      SameRate s (s.increase lib newBitrate incoming nowMs).1 := by
  rw [increase]
  dsimp only
  split
  · exact ⟨⟨h.state, nofun, .inl rfl, h.variance⟩, ⟨rfl, rfl⟩⟩
  · exact ⟨⟨h.state, h.known, h.average, h.variance⟩, ⟨rfl, rfl⟩⟩

theorem decrease_spec (lib : RealFunctions)
    (hAverage : s.avgMaxBitrateKbps = -1 ∨ 0 ≤ s.avgMaxBitrateKbps)
    (incoming : UInt32) (nowMs : ℤ) :
    Resting (s.decrease lib incoming nowMs).1 ∧ SameRate s (s.decrease lib incoming nowMs).1 := by
  have hKbps : (0 : ℚ) ≤ incoming.toNat / 1000 := div_nonneg (Nat.cast_nonneg _) (by norm_num)
  rw [decrease]
  dsimp only
  generalize (if s.bitrateIsInitialized = true ∧ incoming < s.currentBitrateBps then _ else _) =
    lastDecrease
  have hAvg : (if s.belowMax lib (incoming.toNat / 1000) then -1 else s.avgMaxBitrateKbps) = -1 ∨
      0 ≤ if s.belowMax lib (incoming.toNat / 1000) then -1 else s.avgMaxBitrateKbps := by
    split
    · exact .inl rfl
    · exact hAverage
  generalize (if s.belowMax lib (incoming.toNat / 1000) then -1 else s.avgMaxBitrateKbps) = avg at *
  obtain ⟨hAvgNext, hVar⟩ := updateMaxBitRateEstimate_spec
    (s := { s with
      rateControlRegion := .nearMax
      lastDecrease := lastDecrease
      avgMaxBitrateKbps := avg
      bitrateIsInitialized := true }) hAvg hKbps
  exact ⟨⟨nofun, fun _ => hAvgNext, .inr hAvgNext, hVar⟩, ⟨rfl, rfl⟩⟩

/-- One of the rates that the clamp is given, when the rate was the current one before. -/
structure Proposed (s : DelayBasedRate) (bwState : BandwidthUsage) (r : DelayBasedRate × UInt32) :
    Prop where
  resting : Resting r.1
  same : SameRate s r.1
  normal : s.currentBitrateBps.toNat < r.2.toNat → bwState = .normal

/-- The cases of the controller's state after a change of it. -/
theorem proposed_changeState (lib : RealFunctions) (h : Resting s)
    (bwState : BandwidthUsage) (incoming : UInt32) (nowMs : ℤ) :
    Proposed s bwState
      (match (s.changeState bwState nowMs).rateControlState with
        | .hold => (s.changeState bwState nowMs, s.currentBitrateBps)
        | .increase =>
          (s.changeState bwState nowMs).increase lib s.currentBitrateBps incoming nowMs
        | .decrease => (s.changeState bwState nowMs).decrease lib incoming nowMs) := by
  cases bwState with
  | normal =>
    have hIncreases : ∀ u : DelayBasedRate, Resting u → SameRate s u →
        Proposed s .normal (u.increase lib s.currentBitrateBps incoming nowMs) := by
      intro u hResting hSame
      obtain ⟨hNext, hSameNext⟩ := increase_spec lib hResting s.currentBitrateBps incoming nowMs
      exact ⟨hNext, ⟨hSameNext.current.trans hSame.current, hSameNext.least.trans hSame.least⟩,
        fun _ => rfl⟩
    rw [changeState]
    cases hState : s.rateControlState with
    | hold => exact hIncreases _ ⟨nofun, h.known, h.average, h.variance⟩ ⟨rfl, rfl⟩
    | increase =>
      dsimp only
      rw [hState]
      exact hIncreases s h ⟨rfl, rfl⟩
    | decrease => exact absurd hState h.state
  | overusing =>
    obtain ⟨hNext, hSame⟩ := decrease_spec lib (s := s.changeState .overusing nowMs)
      h.average incoming nowMs
    refine ⟨hNext, ⟨hSame.current, hSame.least⟩, fun hRise => ?_⟩
    have hLe : ((s.changeState .overusing nowMs).decreasedBitrate incoming).toNat ≤
        s.currentBitrateBps.toNat := decreasedBitrate_le
    exact absurd hRise (not_lt.mpr hLe)
  | underusing =>
    exact ⟨⟨nofun, h.known, h.average, h.variance⟩, ⟨rfl, rfl⟩, fun hRise => absurd hRise (lt_irrefl _)⟩

theorem changeBitrate_spec (lib : RealFunctions) (h : Resting s)
    (bwState : BandwidthUsage) (incoming : UInt32) (nowMs : ℤ) :
    Resting (s.changeBitrate lib s.currentBitrateBps bwState incoming nowMs).1 ∧
      (s.changeBitrate lib s.currentBitrateBps bwState incoming nowMs).1.minConfiguredBitrateBps =
        s.minConfiguredBitrateBps ∧
      ((s.bitrateIsInitialized = false ∧
          (s.changeBitrate lib s.currentBitrateBps bwState incoming nowMs).2 =
            s.currentBitrateBps) ∨
        ∃ u newBitrate, SameRate s u ∧
          (s.changeBitrate lib s.currentBitrateBps bwState incoming nowMs).2 =
            u.clampBitrate newBitrate incoming ∧
          (s.currentBitrateBps.toNat < newBitrate.toNat → bwState = .normal)) := by
  rw [changeBitrate]
  have hLatest : ∃ u, (if incoming ≠ 0 then { s with latestIncomingBitrateBps := incoming } else s) = u ∧
      Resting u ∧ SameRate s u ∧ u.bitrateIsInitialized = s.bitrateIsInitialized := by
    split
    · exact ⟨_, rfl, ⟨h.state, h.known, h.average, h.variance⟩, ⟨rfl, rfl⟩, rfl⟩
    · exact ⟨s, rfl, h, ⟨rfl, rfl⟩, rfl⟩
  obtain ⟨u, hEq, hResting, hSame, hInitialized⟩ := hLatest
  rw [hEq]
  dsimp only
  split
  · next hFirst =>
    exact ⟨hResting, hSame.least, .inl ⟨hInitialized.symm.trans hFirst.1, hSame.current⟩⟩
  · have hProposed := proposed_changeState lib hResting bwState incoming nowMs
    rw [hSame.current] at hProposed
    generalize (match (u.changeState bwState nowMs).rateControlState with
      | .hold => (u.changeState bwState nowMs, s.currentBitrateBps)
      | .increase =>
        (u.changeState bwState nowMs).increase lib s.currentBitrateBps incoming nowMs
      | .decrease => (u.changeState bwState nowMs).decrease lib incoming nowMs) = r at hProposed ⊢
    obtain ⟨v, newBitrate⟩ := r
    have hNormal := hProposed.normal
    rw [hSame.current] at hNormal
    exact ⟨hProposed.resting, hProposed.same.least.trans hSame.least, .inr ⟨v, newBitrate,
      ⟨hProposed.same.current.trans hSame.current, hProposed.same.least.trans hSame.least⟩, rfl,
      hNormal⟩⟩

/-- What an update does to the bit rate. -/
structure Updated (s t : DelayBasedRate) (bwState : BandwidthUsage) (incoming : UInt32) : Prop where
  resting : Resting t
  least : t.minConfiguredBitrateBps = s.minConfiguredBitrateBps
  floor : s.minConfiguredBitrateBps.toNat ≤ t.currentBitrateBps.toNat
  rise : s.bitrateIsInitialized = true → s.currentBitrateBps.toNat < t.currentBitrateBps.toNat →
    bwState = .normal ∧ t.currentBitrateBps.toNat ≤ (maxBitrate incoming).toNat

theorem initialize?_spec (h : Resting s) (incoming : UInt32) (nowMs : ℤ) :
    Resting (s.initialize? incoming nowMs) ∧
      (s.initialize? incoming nowMs).minConfiguredBitrateBps = s.minConfiguredBitrateBps ∧
      (s.bitrateIsInitialized = true → s.initialize? incoming nowMs = s) ∧
      ((s.initialize? incoming nowMs).bitrateIsInitialized = false →
        (s.initialize? incoming nowMs).currentBitrateBps = s.currentBitrateBps) := by
  rw [initialize?]
  split
  · exact ⟨h, rfl, fun _ => rfl, fun _ => rfl⟩
  · next hNot =>
    split
    · split
      · exact ⟨⟨h.state, h.known, h.average, h.variance⟩, rfl, fun hYes => absurd hYes hNot, fun _ => rfl⟩
      · exact ⟨h, rfl, fun _ => rfl, fun _ => rfl⟩
    split
    · exact ⟨⟨h.state, h.known, h.average, h.variance⟩, rfl, fun hYes => absurd hYes hNot, nofun⟩
    · exact ⟨h, rfl, fun _ => rfl, fun _ => rfl⟩

theorem update_spec (lib : RealFunctions) (h : Resting s)
    (hFloor : s.minConfiguredBitrateBps.toNat ≤ s.currentBitrateBps.toNat)
    (bwState : BandwidthUsage) (incoming : UInt32) (nowMs : ℤ) :
    Updated s (s.update lib bwState incoming nowMs) bwState incoming := by
  obtain ⟨hResting, hLeast, hSame, hFirst⟩ := initialize?_spec h incoming nowMs
  rw [update]
  dsimp only
  generalize s.initialize? incoming nowMs = u at *
  obtain ⟨hNext, hLeastNext, hRate⟩ := changeBitrate_spec lib hResting bwState incoming nowMs
  refine ⟨⟨hNext.state, hNext.known, hNext.average, hNext.variance⟩, hLeastNext.trans hLeast, ?_, ?_⟩
  · dsimp only
    rcases hRate with ⟨hNot, hEq⟩ | ⟨v, newBitrate, hSameRate, hEq, -⟩
    · rwa [hEq, hFirst hNot]
    · rw [hEq, ← hLeast, ← hSameRate.least]
      exact le_clampBitrate v newBitrate incoming
  · intro hYes hRise
    have hEqual := hSame hYes
    dsimp only at hRise ⊢
    rcases hRate with ⟨hNot, -⟩ | ⟨v, newBitrate, hSameRate, hEq, hNormal⟩
    · rw [hEqual, hYes] at hNot
      cases hNot
    · rw [hEq, ← hEqual, ← hSameRate.current] at hRise
      obtain ⟨hAbove, hLimit⟩ := clampBitrate_rise
        (by rwa [hSameRate.least, hSameRate.current, hEqual]) hRise
      rw [hEq]
      exact ⟨hNormal (by rwa [hSameRate.current] at hAbove), hLimit⟩

end DelayBasedRate

end Bullet.Stream
