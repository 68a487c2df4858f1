import Bullet.Stream.DelayBasedRate
import Bullet.Stream.SenderBasedController
import Mathlib.Data.List.DropRight

/-! # The GCC controller

The metrics of the base class, the loss-based part of the controller, and a feedback as a whole. An
exception and a failed assertion are `none`. Of the controller's members those stay out that only
times of log entries depend on.
-/

namespace Bullet.Stream

open Lib Lib.PartialRun NetRecord

def PacketRecord.rxUs (p : PacketRecord) : UInt64 := p.txTimestampUs + p.owdUs

namespace SenderBasedController

variable (s : SenderBasedController)

def ntab : ℕ := 15

/-- The smallest of some values, and `none` when there is none. -/
def minimumOf : List UInt64 → Option UInt64
  | [] => none
  | first :: values => some (values.foldl min first)

def getCurrentQdelay : Option UInt64 :=
  minimumOf ((s.packetHistory.reverse.take ntab).map fun p => p.owdUs - s.baseDelayUs)

def getCurrentRTT : Option UInt64 :=
  minimumOf ((s.packetHistory.reverse.take ntab).map PacketRecord.rttUs)

/-- The lost packets, their ratio and the packets of the history, if it has a packet. -/
def getPktLossInfo : Option (Option (UInt32 × ℚ × UInt32)) :=
  match s.packetHistory.head?, s.packetHistory.getLast? with
  | some front, some back =>
    let seqSpan : UInt16 := 1 + back.sequence - front.sequence
    if s.packetHistory.length ≤ seqSpan.toNat then
      let nLoss := UInt32.ofNat (seqSpan.toNat - s.packetHistory.length)
      some (some (nLoss, nLoss.toNat / seqSpan.toNat, seqSpan.toUInt32))
    else none
  | _, _ => some none

/-- The loop over the received packets from the last one on, which are those of the list. It ends with
`some none` at the first packet of all. -/
def scanRecvHistory (lastRxUs : UInt64) :
    UInt64 → UInt32 → List PacketRecord → Option (Option (UInt64 × UInt32 × List PacketRecord))
  | curr, pktcnt, [] => if lastRxUs - curr < 1000000 then none else some (some (curr, pktcnt, []))
  | curr, pktcnt, p :: rest =>
    if lastRxUs - curr < 1000000 then
      if rest.isEmpty then some none
      else
        scanRecvHistory lastRxUs (if p.rxUs > lastRxUs then lastRxUs else p.rxUs) (pktcnt + p.size)
          rest
    else some (some (curr, pktcnt, p :: rest))

def getCurrentRecvRate : Option (SenderBasedController × Option ℚ) :=
  match s.packetHistory.head?, s.packetHistory.getLast? with
  | some front, some back =>
    let firstRxUs := front.rxUs
    let lastRxUs := back.rxUs
    if lessThan firstRxUs (lastRxUs + 1) = false ∨ lastRxUs - firstRxUs = 0 then some (s, none)
    else
      match scanRecvHistory lastRxUs lastRxUs 0 s.recvHistory.reverse with
      | some (some (curr, pktcnt, p :: rest)) =>
        let pktcnt := if pktcnt > p.size then pktcnt - p.size else pktcnt
        let s := { s with recvHistory := s.recvHistory.drop (p :: rest).length }
        if front.size ≤ s.pktSizeSum then
          some (s, some ((pktcnt * 8).toNat * 1000 * 1000 / (lastRxUs - curr).toNat))
        else none
      | some none => some (s, none)
      | _ => none
  | _, _ => some (s, none)

end SenderBasedController

structure LossBasedRate extends DelayBasedRate where
  minBitrateHistory : List (ℤ × UInt32) := []
  minBitrateConfigured : UInt32 := 3000000
  maxBitrateConfigured : UInt32 := 30000000
  hasDecreasedSinceLastFractionLoss : Bool := false
  lastPacketReportMs : ℤ := -1
  lastFractionLoss : UInt8 := 0
  lastRoundTripTimeMs : ℤ := 0
  delayBasedBitrateBps : UInt32 := 0
  timeLastDecreaseMs : ℤ := 0
  firstReportTimeMs : ℤ := -1

namespace LossBasedRate

def bweIncreaseIntervalMs : ℤ := 1000
def bweDecreaseIntervalMs : ℤ := 300
def startPhaseMs : ℤ := 2000
def defaultMaxBitrateBps : UInt32 := 30000000
def bitrateThresholdBps : UInt32 := 0
def lowLossThreshold : ℚ := 2 / 100
def highLossThreshold : ℚ := 1 / 10

def capBitrateToThresholds (s : LossBasedRate) (bitrateBps : UInt32) : LossBasedRate :=
  let bitrateBps :=
    if s.delayBasedBitrateBps > 0 ∧ bitrateBps > s.delayBasedBitrateBps then s.delayBasedBitrateBps
    else bitrateBps
  let bitrateBps :=
    if bitrateBps > s.maxBitrateConfigured then s.maxBitrateConfigured else bitrateBps
  let bitrateBps :=
    if bitrateBps < s.minBitrateConfigured then s.minBitrateConfigured else bitrateBps
  { s with currentBitrateBps := bitrateBps }

def setSendBitrate (s : LossBasedRate) (bitrate : UInt32) : LossBasedRate :=
  { ({ s with delayBasedBitrateBps := 0 } : LossBasedRate).capBitrateToThresholds bitrate with
    minBitrateHistory := [] }

def setMinMaxBitrate (s : LossBasedRate) (minBitrate maxBitrate : UInt32) : LossBasedRate :=
  let minBitrateConfigured := max minBitrate s.minBitrateConfigured
  { s with
    minBitrateConfigured := minBitrateConfigured
    maxBitrateConfigured :=
      if maxBitrate > 0 then max minBitrateConfigured maxBitrate else defaultMaxBitrateBps }

def updateDelayBasedEstimate (s : LossBasedRate) (bitrateBps : UInt32) : LossBasedRate :=
  ({ s with delayBasedBitrateBps := bitrateBps } : LossBasedRate).capBitrateToThresholds
    s.currentBitrateBps

def isInStartPhase (s : LossBasedRate) (nowMs : ℤ) : Bool :=
  decide (s.firstReportTimeMs = -1 ∨ nowMs - s.firstReportTimeMs < startPhaseMs)

def updateMinHistory (s : LossBasedRate) (nowMs : ℤ) : LossBasedRate :=
  let recent := s.minBitrateHistory.dropWhile fun p =>
    decide (nowMs - p.1 + 1 > bweIncreaseIntervalMs)
  let lower := recent.rdropWhile fun p => decide (s.currentBitrateBps ≤ p.2)
  { s with minBitrateHistory := lower ++ [(nowMs, s.currentBitrateBps)] }

/-- The last part of `UpdateEstimate`, on the losses of the last report. -/
def updateByLoss (s : LossBasedRate) (nowMs : ℤ) : LossBasedRate :=
  let loss : ℚ := s.lastFractionLoss.toNat / 256
  if s.currentBitrateBps < bitrateThresholdBps ∨ loss ≤ lowLossThreshold then
    let least := (s.minBitrateHistory.head?.map Prod.snd).getD 0
    s.capBitrateToThresholds (toUInt32 (least.toNat * (108 / 100) + 1 / 2) + 1000)
  else if s.currentBitrateBps > bitrateThresholdBps ∧ highLossThreshold < loss ∧
      s.hasDecreasedSinceLastFractionLoss = false ∧
      nowMs - s.timeLastDecreaseMs ≥ bweDecreaseIntervalMs + s.lastRoundTripTimeMs then
    let reduced := toUInt32 (s.currentBitrateBps.toNat * (512 - s.lastFractionLoss.toNat) / 512)
    ({ s with
      timeLastDecreaseMs := nowMs
      hasDecreasedSinceLastFractionLoss := true } : LossBasedRate).capBitrateToThresholds reduced
  else s.capBitrateToThresholds s.currentBitrateBps

def updateEstimate (s : LossBasedRate) (nowMs : ℤ) : LossBasedRate :=
  let newBitrate := max s.delayBasedBitrateBps s.currentBitrateBps
  if s.lastFractionLoss = 0 ∧ s.isInStartPhase nowMs = true ∧ newBitrate ≠ s.currentBitrateBps then
    ({ s with
      minBitrateHistory := [(nowMs, s.currentBitrateBps)] } : LossBasedRate).capBitrateToThresholds
        newBitrate
  else
    let s := s.updateMinHistory nowMs
    if s.lastPacketReportMs = -1 then s.capBitrateToThresholds s.currentBitrateBps
    else s.updateByLoss nowMs

end LossBasedRate

structure GccController where
  base : SenderBasedController := {}
  estimator : OveruseEstimator := {}
  detector : OveruseDetector := {}
  rates : LossBasedRate := {}
  lastTimeCalcValid : Bool := false
  qdelayUs : UInt64 := 0
  pkt : UInt32 := 0
  ploss : UInt32 := 0
  plr : ℚ := 0
  recvR : ℚ := 0
  timer : ℕ := 0
  prevSeqLoss : ℤ := 0
  lossMovingAvg : ℚ := 0
  lastUpdateMs : ℤ := -1

/-- The arguments of `processFeedback`, the time of the simulator, and what the variable for the round
trip time holds before it is set. -/
structure GccFeedback where
  nowUs : UInt64
  sequence : UInt16
  rxTimestampUs : UInt64
  interArrival : ℤ
  interDeparture : UInt64
  arrivalTime : ℤ
  nowMs : ℕ
  unsetRtt : UInt64

namespace GccController

variable (c : GccController)

def lossTimer : ℕ := 1000

/-- The moving average of the loss ratio, which only a log reads. -/
def averageLosses (f : GccFeedback) : GccController :=
  if c.prevSeqLoss = 0 then { c with prevSeqLoss := f.sequence.toNat, timer := f.nowMs }
  else if c.timer + lossTimer < f.nowMs then
    let deltaSeq : ℤ := f.sequence.toNat - c.prevSeqLoss
    { c with
      lossMovingAvg :=
        if deltaSeq ≠ 0 then
          c.lossMovingAvg * (8 / 10) + c.base.lossCounter.toInt / deltaSeq * (2 / 10)
        else c.lossMovingAvg
      base := { c.base with lossCounter := 0 }
      prevSeqLoss := f.sequence.toNat + 1
      timer := f.nowMs }
  else c

def updateMetrics : Option GccController := do
  let c := { c with qdelayUs := c.base.getCurrentQdelay.getD c.qdelayUs }
  let (base, rrate) ← c.base.getCurrentRecvRate
  let c := { c with base := base, recvR := rrate.getD c.recvR }
  match ← c.base.getPktLossInfo with
  | some (nLoss, plr, nPkt) => some { c with ploss := nLoss, pkt := nPkt, plr := plr }
  | none => some c

def delaySample (f : GccFeedback) : DelaySample :=
  ⟨f.interArrival.tdiv 1000, f.interDeparture.toUInt32 / 1000, c.detector.hypothesis,
    f.arrivalTime.tdiv 1000⟩

def trendSample (f : GccFeedback) (estimator : OveruseEstimator) : TrendSample :=
  ⟨estimator.offset, f.interDeparture.toUInt32 / 1000, estimator.numOfDeltas,
    f.arrivalTime.tdiv 1000⟩

/-- The estimator and the detector on the delays of the feedback. -/
def estimate (lib : RealFunctions) (f : GccFeedback) : Option GccController := do
  let estimator ← c.estimator.overuseEstimatorUpdate lib (c.delaySample f)
  some { c with
    estimator := estimator
    detector := c.detector.detect (trendSample f estimator) }

/-- It is time for a periodic update, or for one because of an overuse. -/
def dueUpdate (f : GccFeedback) : Bool :=
  let rttClamped := min (max (UInt16.ofInt c.rates.rtt) 10) 200
  if c.lastUpdateMs = -1 ∨ (f.nowMs - c.lastUpdateMs) % 2 ^ 64 > rttClamped.toNat then true
  else if c.detector.hypothesis = .overusing then
    let incomingRate := min (toUInt32 c.recvR) c.rates.currentBitrateBps
    decide (incomingRate ≠ 0) &&
      c.rates.timeToReduceFurther ((f.nowMs : ℤ).bmod (2 ^ 32)) incomingRate
  else false

/-- The round trip time of the base class, or what the variable held. -/
def updateRtt (f : GccFeedback) : GccController :=
  { c with rates := { c.rates with rtt := (c.base.getCurrentRTT.getD f.unsetRtt / 1000).toNat } }

/-- The update of the delay-based bit rate, when it is due. -/
def updateRate (lib : RealFunctions) (f : GccFeedback) : GccController :=
  if c.dueUpdate f then
    { c with
      rates :=
        { c.rates with
          toDelayBasedRate :=
            c.rates.toDelayBasedRate.update lib c.detector.hypothesis (toUInt32 c.recvR) f.nowMs }
      lastUpdateMs := f.nowMs }
  else c

/-- What `processFeedback` does after the base class returned `res`. -/
def control (lib : RealFunctions) (res : Bool) (f : GccFeedback) : Option GccController :=
  if res = false then some c
  else if c.lastTimeCalcValid = false then
    some { c with
      lastTimeCalcValid := true
      rates := (c.rates.setMinMaxBitrate 3000000 30000000).setSendBitrate 3000000 }
  else do
    let c ← c.updateMetrics
    let c ← c.estimate lib f
    let c := (c.updateRtt f).updateRate lib f
    some { c with
      rates := (c.rates.updateDelayBasedEstimate c.rates.currentBitrateBps).updateEstimate f.nowMs }

def processFeedback (lib : RealFunctions) (f : GccFeedback) : Option GccController := do
  let (base, res) ← (c.base.processFeedback f.nowUs f.sequence f.rxTimestampUs).toOption
  (({ c with base := base } : GccController).averageLosses f).control lib res f

def getSendBps : UInt32 := c.rates.currentBitrateBps

/-- The calls of a sender: a packet sent, a feedback, a report of the losses, and the transit history
cut. -/
inductive Event where
  | sendPacket (txTimestampUs : UInt64) (sequence : UInt16) (size : UInt32)
  | feedback (f : GccFeedback)
  | lossRate (lossQ8 : UInt8)
  | prun (tarSeq : UInt32)

def step (lib : RealFunctions) (c : GccController) : Event → Option GccController
  | .sendPacket txTimestampUs sequence size =>
    (c.base.processSendPacket txTimestampUs sequence size).toOption.map fun r => { c with base := r.1 }
  | .feedback f => c.processFeedback lib f
  | .lossRate lossQ8 => some { c with rates := { c.rates with lastFractionLoss := lossQ8 } }
  | .prun tarSeq => (c.base.prunTransitHistory tarSeq).toOption.map fun base => { c with base := base }

/-! ## The bit rate after a feedback -/

open DelayBasedRate (Resting toNat_max)

/-- What holds of the rates between two calls. -/
structure RatesInv (r : LossBasedRate) : Prop where
  resting : Resting r.toDelayBasedRate
  leastRate : r.minConfiguredBitrateBps = 3000000
  least : r.minBitrateConfigured = 3000000
  greatest : r.maxBitrateConfigured = 30000000
  bounds : 3000000 ≤ r.currentBitrateBps.toNat ∧ r.currentBitrateBps.toNat ≤ 30000000
  unreported : r.lastPacketReportMs = -1
  unstarted : r.firstReportTimeMs = -1

/-- Two states of the rates with the same thresholds and no report of losses. -/
structure SameThresholds (r r' : LossBasedRate) : Prop where
  least : r'.minBitrateConfigured = r.minBitrateConfigured
  greatest : r'.maxBitrateConfigured = r.maxBitrateConfigured
  report : r'.lastPacketReportMs = r.lastPacketReportMs
  start : r'.firstReportTimeMs = r.firstReportTimeMs

variable {lib : RealFunctions} {c t : GccController} {r : LossBasedRate} {b : UInt32} {f : GccFeedback}
  {nowMs : ℤ}

/-- The cap between the thresholds, for a bit rate that the delay-based one allows. -/
theorem cap_current (hLeast : r.minBitrateConfigured = 3000000)
    (hGreatest : r.maxBitrateConfigured = 30000000) (hAllowed : b.toNat ≤ r.delayBasedBitrateBps.toNat)
    (hLow : 3000000 ≤ b.toNat) :
    (r.capBitrateToThresholds b).currentBitrateBps = if 30000000 < b then 30000000 else b := by
  have hNot : ¬(r.delayBasedBitrateBps > 0 ∧ b > r.delayBasedBitrateBps) := by
    rw [gt_iff_lt, gt_iff_lt, UInt32.lt_iff_toNat_lt, UInt32.lt_iff_toNat_lt]
    omega
  rw [LossBasedRate.capBitrateToThresholds]
  dsimp only
  rw [if_neg hNot, hLeast, hGreatest]
  split
  · exact if_neg (by decide)
  · refine if_neg ?_
    rw [UInt32.lt_iff_toNat_lt]
    exact not_lt.mpr hLow

/-- What a feedback makes of a delay-based bit rate: the losses have no part in it. -/
theorem finish_current (hLeast : r.minBitrateConfigured = 3000000)
    (hGreatest : r.maxBitrateConfigured = 30000000) (hReport : r.lastPacketReportMs = -1)
    (hLow : 3000000 ≤ r.currentBitrateBps.toNat) (nowMs : ℤ) :
    ((r.updateDelayBasedEstimate r.currentBitrateBps).updateEstimate nowMs).currentBitrateBps =
      if 30000000 < r.currentBitrateBps then 30000000 else r.currentBitrateBps := by
  have hFirst : (r.updateDelayBasedEstimate r.currentBitrateBps).currentBitrateBps =
      if 30000000 < r.currentBitrateBps then 30000000 else r.currentBitrateBps :=
    cap_current (r := { r with delayBasedBitrateBps := r.currentBitrateBps }) hLeast hGreatest
      (le_refl _) hLow
  have hDelayBased : (r.updateDelayBasedEstimate r.currentBitrateBps).delayBasedBitrateBps =
      r.currentBitrateBps := rfl
  have hBelow : (r.updateDelayBasedEstimate r.currentBitrateBps).currentBitrateBps.toNat ≤
      r.currentBitrateBps.toNat ∧
      3000000 ≤ (r.updateDelayBasedEstimate r.currentBitrateBps).currentBitrateBps.toNat ∧
      ¬30000000 < (r.updateDelayBasedEstimate r.currentBitrateBps).currentBitrateBps := by
    rw [hFirst]
    split
    · next hAbove =>
      exact ⟨(UInt32.lt_iff_toNat_lt.mp hAbove).le, by decide, by decide⟩
    · next hNot => exact ⟨le_refl _, hLow, hNot⟩
  have hLeastNext : (r.updateDelayBasedEstimate r.currentBitrateBps).minBitrateConfigured = 3000000 :=
    hLeast
  have hGreatestNext :
      (r.updateDelayBasedEstimate r.currentBitrateBps).maxBitrateConfigured = 30000000 := hGreatest
  have hReportNext :
      (r.updateDelayBasedEstimate r.currentBitrateBps).lastPacketReportMs = -1 := hReport
  generalize r.updateDelayBasedEstimate r.currentBitrateBps = u at *
  rw [LossBasedRate.updateEstimate]
  dsimp only
  have hMax : max u.delayBasedBitrateBps u.currentBitrateBps = r.currentBitrateBps := by
    apply UInt32.toNat_inj.mp
    rw [toNat_max, hDelayBased]
    exact max_eq_left hBelow.1
  rw [hMax]
  split
  · exact cap_current (r := { u with minBitrateHistory := [(nowMs, u.currentBitrateBps)] })
      hLeastNext hGreatestNext (by rw [hDelayBased]) hLow
  · rw [if_pos (show (u.updateMinHistory nowMs).lastPacketReportMs = -1 from hReportNext)]
    refine (cap_current (r := u.updateMinHistory nowMs) (b := u.currentBitrateBps) hLeastNext
      hGreatestNext ?_ hBelow.2.1).trans ?_
    · exact hBelow.1.trans_eq (congrArg UInt32.toNat hDelayBased.symm)
    · rw [if_neg hBelow.2.2, hFirst]

/-- The rates after everything else that a feedback does. -/
def finish (r : LossBasedRate) (nowMs : ℤ) : LossBasedRate :=
  (r.updateDelayBasedEstimate r.currentBitrateBps).updateEstimate nowMs

/-- The rates without what they hold about losses. -/
def unreported (r : LossBasedRate) : LossBasedRate :=
  { r with lastFractionLoss := 0, minBitrateHistory := [] }

theorem finish_eq (hReport : r.lastPacketReportMs = -1) (nowMs : ℤ) :
    unreported (finish r nowMs) =
      unreported
        { r with
          currentBitrateBps := (finish r nowMs).currentBitrateBps
          delayBasedBitrateBps := r.currentBitrateBps } := by
  have hReportNext : (((r.updateDelayBasedEstimate r.currentBitrateBps).updateMinHistory
      nowMs).lastPacketReportMs) = -1 := hReport
  rw [finish, LossBasedRate.updateEstimate]
  dsimp only
  split <;> rfl

theorem finish_same (hReport : r.lastPacketReportMs = -1) (nowMs : ℤ) :
    (finish r nowMs).toDelayBasedRate =
        { r.toDelayBasedRate with currentBitrateBps := (finish r nowMs).currentBitrateBps } ∧
      SameThresholds r (finish r nowMs) := by
  have hEq := finish_eq hReport nowMs
  have hLeast := congrArg LossBasedRate.minBitrateConfigured hEq
  have hGreatest := congrArg LossBasedRate.maxBitrateConfigured hEq
  have hReportSame := congrArg LossBasedRate.lastPacketReportMs hEq
  have hStart := congrArg LossBasedRate.firstReportTimeMs hEq
  exact ⟨congrArg LossBasedRate.toDelayBasedRate hEq, hLeast, hGreatest, hReportSame, hStart⟩

/-- The rates that a feedback hands to the loss-based controller. -/
inductive Handed (lib : RealFunctions) (r : LossBasedRate) (bwState : BandwidthUsage)
    (incoming : UInt32) (nowMs : ℤ) : LossBasedRate → Prop
  | kept (rtt : ℤ) : Handed lib r bwState incoming nowMs { r with rtt := rtt }
  | updated (rtt : ℤ) : Handed lib r bwState incoming nowMs
      { r with
        toDelayBasedRate :=
          ({ r.toDelayBasedRate with rtt := rtt } : DelayBasedRate).update lib bwState incoming nowMs }

/-- The feedback gets to the estimator. -/
def reaches (c : GccController) (f : GccFeedback) : Bool :=
  c.lastTimeCalcValid &&
    (c.base.processFeedback f.nowUs f.sequence f.rxTimestampUs).toOption.any Prod.snd

/-- What a feedback does that gets to the estimator. -/
structure Estimates (lib : RealFunctions) (c t : GccController) (f : GccFeedback) : Prop where
  reaches : c.reaches f = true
  estimator : c.estimator.overuseEstimatorUpdate lib (c.delaySample f) = some t.estimator
  detector : t.detector = c.detector.detect (trendSample f t.estimator)
  rates : ∃ r, Handed lib c.rates t.detector.hypothesis (toUInt32 t.recvR) f.nowMs r ∧
    t.rates = finish r f.nowMs

/-- What one does that does not. -/
structure PassesOver (c t : GccController) (f : GccFeedback) : Prop where
  passes : c.reaches f = false
  estimator : t.estimator = c.estimator
  detector : t.detector = c.detector
  rates : t.rates = c.rates ∨
    t.rates = (c.rates.setMinMaxBitrate 3000000 30000000).setSendBitrate 3000000

theorem averageLosses_same (c : GccController) (f : GccFeedback) :
    (c.averageLosses f).estimator = c.estimator ∧ (c.averageLosses f).detector = c.detector ∧
      (c.averageLosses f).rates = c.rates ∧
      (c.averageLosses f).lastTimeCalcValid = c.lastTimeCalcValid := by
  rw [averageLosses]
  split
  · exact ⟨rfl, rfl, rfl, rfl⟩
  split <;> exact ⟨rfl, rfl, rfl, rfl⟩

theorem updateMetrics_same (h : c.updateMetrics = some t) :
    t.estimator = c.estimator ∧ t.detector = c.detector ∧ t.rates = c.rates ∧
      t.lastTimeCalcValid = c.lastTimeCalcValid := by
  obtain ⟨⟨base, rrate⟩, -, h⟩ := Option.bind_eq_some_iff.mp h
  obtain ⟨info, -, h⟩ := Option.bind_eq_some_iff.mp h
  cases info with
  | none =>
    cases h
    exact ⟨rfl, rfl, rfl, rfl⟩
  | some info =>
    cases h
    exact ⟨rfl, rfl, rfl, rfl⟩

theorem updateRate_handed (lib : RealFunctions) (c : GccController) (f : GccFeedback) :
    ((c.updateRtt f).updateRate lib f).estimator = c.estimator ∧
      ((c.updateRtt f).updateRate lib f).detector = c.detector ∧
      ((c.updateRtt f).updateRate lib f).recvR = c.recvR ∧
      Handed lib c.rates c.detector.hypothesis (toUInt32 c.recvR) f.nowMs
        ((c.updateRtt f).updateRate lib f).rates := by
  rw [updateRate]
  split
  · exact ⟨rfl, rfl, rfl, .updated _⟩
  · exact ⟨rfl, rfl, rfl, .kept _⟩

theorem processFeedback_cases (h : c.processFeedback lib f = some t) :
    PassesOver c t f ∨ Estimates lib c t f := by
  obtain ⟨⟨base, res⟩, hBase, h⟩ := Option.bind_eq_some_iff.mp h
  have hReaches : c.reaches f = (c.lastTimeCalcValid && res) := by
    rw [reaches, hBase]
    rfl
  obtain ⟨hEstimator, hDetector, hRates, hValid⟩ :=
    averageLosses_same ({ c with base := base } : GccController) f
  dsimp only at h
  generalize ({ c with base := base } : GccController).averageLosses f = u at *
  rw [control] at h
  split at h
  · next hRes =>
    cases h
    exact .inl ⟨by rw [hReaches, hRes, Bool.and_false], hEstimator, hDetector, .inl hRates⟩
  next hRes =>
  split at h
  · next hFirst =>
    cases h
    exact .inl ⟨by rw [hReaches, ← hValid, hFirst, Bool.false_and], hEstimator, hDetector,
      .inr (by rw [← hRates])⟩
  next hFirst =>
  obtain ⟨v, hMetrics, h⟩ := Option.bind_eq_some_iff.mp h
  obtain ⟨w, hEstimate, h⟩ := Option.bind_eq_some_iff.mp h
  obtain ⟨estimator, hUpdate, hEstimate⟩ := Option.bind_eq_some_iff.mp hEstimate
  obtain ⟨hEstimator', hDetector', hRates', hValid'⟩ := updateMetrics_same hMetrics
  cases hEstimate
  cases h
  obtain ⟨hEstimator'', hDetector'', hRecvR, hHanded⟩ :=
    updateRate_handed lib
      ({ v with
        estimator := estimator
        detector := v.detector.detect (trendSample f estimator) } : GccController) f
  dsimp only at hEstimator'' hDetector'' hRecvR hHanded
  have hSample : v.delaySample f = c.delaySample f := by
    rw [delaySample, hDetector', hDetector]
    rfl
  refine .inr ⟨?_, ?_, ?_, _, ?_, rfl⟩
  · rw [hReaches, ← hValid, Bool.eq_true_of_not_eq_false hFirst,
      Bool.eq_true_of_not_eq_false hRes]
    rfl
  · dsimp only
    rw [hEstimator'', ← hUpdate, hEstimator', hEstimator, hSample]
  · dsimp only
    rw [hDetector'', hEstimator'', hDetector', hDetector]
  · dsimp only
    rw [hDetector'', hRecvR, ← hRates, ← hRates']
    exact hHanded

end GccController

end Bullet.Stream
