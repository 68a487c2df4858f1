import Bullet.Stream.GccController

/-! # Runs of the GCC controller

The bit rate over any sequence of packets, feedbacks and loss reports: its bounds, when it rises, and
what has no part in it. At the end, the rate as the game server hands it to the encoder.
-/

namespace Bullet.Stream

open Lib Lib.PartialRun NetRecord

namespace GameServer

def kMinEncodeBps : UInt32 := 1000000
def kMaxEncodeBps : UInt32 := 30000000

/-- The bit rate that the encoder is set to, in units of 1024 bits per second. -/
def updateBitrate (encodeRateBps : UInt32) : UInt32 :=
  min (max encodeRateBps kMinEncodeBps) kMaxEncodeBps >>> 10

end GameServer

/-- The size of the frames of `DumbVideoEncoder`. -/
def encodeFrame (bitrate : UInt32) (fps : UInt8) : UInt32 := bitrate * 1000 / 8 / fps.toUInt32

namespace GccController

open DelayBasedRate (Resting Updated toNat_max toNat_min maxBitrate)
open OveruseDetector (detectAll)

variable {lib : RealFunctions} {c t : GccController} {r r' : LossBasedRate} {f : GccFeedback}
  {events : List Event} {bwState : BandwidthUsage} {incoming : UInt32} {nowMs : ℤ}

/-! ## The rates -/

theorem RatesInv.initial : RatesInv {} where
  resting := .initial
  leastRate := rfl
  least := rfl
  greatest := rfl
  bounds := by decide
  unreported := rfl
  unstarted := rfl

/-- The delay-based half of a feedback. -/
theorem RatesInv.handed (h : RatesInv r) (hHanded : Handed lib r bwState incoming nowMs r') :
    Resting r'.toDelayBasedRate ∧ r'.minConfiguredBitrateBps = 3000000 ∧ SameThresholds r r' ∧
      3000000 ≤ r'.currentBitrateBps.toNat ∧
      (r.bitrateIsInitialized = true → r.currentBitrateBps.toNat < r'.currentBitrateBps.toNat →
        bwState = .normal ∧ r'.currentBitrateBps.toNat ≤ (maxBitrate incoming).toNat) := by
  have hLeast : r.minConfiguredBitrateBps.toNat = 3000000 := by
    rw [h.leastRate]
    rfl
  cases hHanded with
  | kept rtt =>
    exact ⟨⟨h.resting.state, h.resting.known, h.resting.average, h.resting.variance⟩, h.leastRate,
      ⟨rfl, rfl, rfl, rfl⟩, h.bounds.1, fun _ hRise => absurd hRise (lt_irrefl _)⟩
  | updated rtt =>
    have hUpdated := DelayBasedRate.update_spec lib
      (s := { r.toDelayBasedRate with rtt := rtt })
      ⟨h.resting.state, h.resting.known, h.resting.average, h.resting.variance⟩
      (hLeast.trans_le h.bounds.1) bwState incoming nowMs
    exact ⟨hUpdated.resting, hUpdated.least.trans h.leastRate, ⟨rfl, rfl, rfl, rfl⟩,
      hLeast.symm.trans_le hUpdated.floor, hUpdated.rise⟩

theorem RatesInv.finish (h : RatesInv r) (hHanded : Handed lib r bwState incoming nowMs r')
    (nowMs' : ℤ) :
    RatesInv (finish r' nowMs') ∧
      (finish r' nowMs').currentBitrateBps =
        if 30000000 < r'.currentBitrateBps then 30000000 else r'.currentBitrateBps := by
  obtain ⟨hResting, hLeastRate, hSame, hFloor, -⟩ := h.handed hHanded
  have hReport := hSame.report.trans h.unreported
  have hCurrent := finish_current (hSame.least.trans h.least) (hSame.greatest.trans h.greatest) hReport
    hFloor nowMs'
  obtain ⟨hDelay, hThresholds⟩ := finish_same hReport nowMs'
  rw [← GccController.finish] at hCurrent
  refine ⟨⟨?_, ?_, ?_, ?_, ?_, ?_, ?_⟩, hCurrent⟩
  · rw [hDelay]
    exact ⟨hResting.state, hResting.known, hResting.average, hResting.variance⟩
  · rw [hDelay]
    exact hLeastRate
  · exact hThresholds.least.trans (hSame.least.trans h.least)
  · exact hThresholds.greatest.trans (hSame.greatest.trans h.greatest)
  · rw [hCurrent]
    split
    · decide
    · next hNot =>
      rw [UInt32.lt_iff_toNat_lt] at hNot
      exact ⟨hFloor, not_lt.mp hNot⟩
  · exact hThresholds.report.trans hReport
  · exact hThresholds.start.trans (hSame.start.trans h.unstarted)

/-- The first feedback sets the rates to the least one. -/
theorem RatesInv.first (h : RatesInv r) :
    RatesInv ((r.setMinMaxBitrate 3000000 30000000).setSendBitrate 3000000) := by
  obtain ⟨rates, history, least, greatest, decreased, reported, loss, roundTrip, delayBased, last,
    start⟩ := r
  obtain ⟨hResting, hLeastRate, hLeast, hGreatest, -, hReport, hStart⟩ := h
  dsimp only at hLeast hGreatest
  subst hLeast hGreatest
  exact ⟨⟨hResting.state, hResting.known, hResting.average, hResting.variance⟩, hLeastRate, rfl, rfl,
    ⟨le_refl _, (by decide : 3000000 ≤ 30000000)⟩, hReport, hStart⟩

/-! ## Runs -/

/-- What holds of the controller between two calls. -/
structure GccInv (c : GccController) : Prop where
  rates : RatesInv c.rates
  covariant : c.estimator.Covariant
  threshold : 6 ≤ c.detector.threshold ∧ c.detector.threshold ≤ 600

theorem GccInv.initial : GccInv {} where
  rates := .initial
  covariant := .initial
  threshold := by norm_num

theorem GccInv.processFeedback (h : GccInv c) (hNext : c.processFeedback lib f = some t) :
    GccInv t := by
  rcases processFeedback_cases hNext with hPassed | hEstimated
  · refine ⟨?_, hPassed.estimator ▸ h.covariant, hPassed.detector ▸ h.threshold⟩
    rcases hPassed.rates with hEq | hEq
    · exact hEq ▸ h.rates
    · exact hEq ▸ h.rates.first
  · obtain ⟨r, hHanded, hEq⟩ := hEstimated.rates
    refine ⟨hEq ▸ (h.rates.finish hHanded f.nowMs).1, ?_, ?_⟩
    · exact h.covariant.update hEstimated.estimator
    · rw [hEstimated.detector]
      exact OveruseDetector.detectAll_threshold h.threshold [trendSample f t.estimator]

theorem GccInv.step (h : GccInv c) {e : Event} (hNext : c.step lib e = some t) : GccInv t := by
  cases e with
  | sendPacket txTimestampUs sequence size =>
    obtain ⟨r, -, rfl⟩ := Option.map_eq_some_iff.mp hNext
    exact ⟨h.rates, h.covariant, h.threshold⟩
  | feedback f => exact h.processFeedback hNext
  | lossRate lossQ8 =>
    cases hNext
    exact ⟨⟨h.rates.resting, h.rates.leastRate, h.rates.least, h.rates.greatest, h.rates.bounds,
      h.rates.unreported, h.rates.unstarted⟩, h.covariant, h.threshold⟩
  | prun tarSeq =>
    obtain ⟨base, -, rfl⟩ := Option.map_eq_some_iff.mp hNext
    exact ⟨h.rates, h.covariant, h.threshold⟩

theorem gccInv_of_run (hRun : run (step lib) {} events = some t) : GccInv t :=
  invariant_of_step (fun _ _ _ hInv hNext => hInv.step hNext) .initial hRun

/-- A feedback raises an initialised bit rate only while the bandwidth is used normally, and not beyond
what the receive rate allows. -/
def RaisesNormally (lib : RealFunctions) (c : GccController) (e : Event) : Prop :=
  ∀ t, c.step lib e = some t → c.rates.bitrateIsInitialized = true →
    c.getSendBps.toNat < t.getSendBps.toNat →
      t.detector.hypothesis = .normal ∧
        t.getSendBps.toNat ≤ (maxBitrate (toUInt32 t.recvR)).toNat

theorem GccInv.raisesNormally (h : GccInv c) (e : Event) : RaisesNormally lib c e := by
  intro t hNext hInitialized hRise
  cases e with
  | sendPacket txTimestampUs sequence size =>
    obtain ⟨r, -, rfl⟩ := Option.map_eq_some_iff.mp hNext
    exact absurd hRise (lt_irrefl _)
  | feedback f =>
    rcases processFeedback_cases hNext with hPassed | hEstimated
    · have hNotMore : t.getSendBps.toNat ≤ c.getSendBps.toNat := by
        rcases hPassed.rates with hEq | hEq
        · exact le_of_eq (congrArg (fun r : LossBasedRate => r.currentBitrateBps.toNat) hEq)
        · have hFirst : t.getSendBps.toNat = 3000000 := by
            rw [getSendBps, hEq, LossBasedRate.setMinMaxBitrate, h.rates.least]
            rfl
          exact hFirst.trans_le h.rates.bounds.1
      exact absurd hRise (not_lt.mpr hNotMore)
    · obtain ⟨r, hHanded, hEq⟩ := hEstimated.rates
      obtain ⟨-, -, -, -, hNormal⟩ := h.rates.handed hHanded
      have hCurrent := (h.rates.finish hHanded f.nowMs).2
      have hCapped : t.getSendBps.toNat ≤ r.currentBitrateBps.toNat := by
        rw [getSendBps, hEq, hCurrent]
        split
        · next hAbove => exact (UInt32.lt_iff_toNat_lt.mp hAbove).le
        · exact le_refl _
      obtain ⟨hUsage, hLimit⟩ := hNormal hInitialized (hRise.trans_le hCapped)
      exact ⟨hUsage, hCapped.trans hLimit⟩
  | lossRate lossQ8 =>
    cases hNext
    exact absurd hRise (lt_irrefl _)
  | prun tarSeq =>
    obtain ⟨base, -, rfl⟩ := Option.map_eq_some_iff.mp hNext
    exact absurd hRise (lt_irrefl _)

/-- The controller without what it holds about losses that were reported. -/
def withoutReports (c : GccController) : GccController := { c with rates := unreported c.rates }

theorem finish_unreported (hLeast : r.minBitrateConfigured = 3000000)
    (hGreatest : r.maxBitrateConfigured = 30000000) (hReport : r.lastPacketReportMs = -1)
    (hLow : 3000000 ≤ r.currentBitrateBps.toNat) (nowMs : ℤ) :
    unreported (finish (unreported r) nowMs) = unreported (finish r nowMs) := by
  have hCurrent : (finish (unreported r) nowMs).currentBitrateBps =
      (finish r nowMs).currentBitrateBps :=
    (finish_current (r := unreported r) hLeast hGreatest hReport hLow nowMs).trans
      (finish_current hLeast hGreatest hReport hLow nowMs).symm
  rw [finish_eq (r := unreported r) hReport, finish_eq hReport, hCurrent]
  rfl

theorem averageLosses_withoutReports (c : GccController) (f : GccFeedback) :
    c.withoutReports.averageLosses f = (c.averageLosses f).withoutReports := by
  rw [averageLosses, averageLosses]
  change (if c.prevSeqLoss = 0 then _ else if c.timer + lossTimer < f.nowMs then _ else _) = _
  split
  · rfl
  split <;> rfl

theorem updateMetrics_withoutReports (c : GccController) :
    c.withoutReports.updateMetrics = c.updateMetrics.map withoutReports := by
  rw [updateMetrics, updateMetrics]
  change (c.base.getCurrentRecvRate.bind fun _ => _) = (c.base.getCurrentRecvRate.bind fun _ => _).map _
  rw [Option.map_bind]
  congr 1
  funext ⟨base, rrate⟩
  change (base.getPktLossInfo.bind fun _ => _) = (base.getPktLossInfo.bind fun _ => _).map _
  rw [Option.map_bind]
  congr 1
  funext info
  cases info <;> rfl

theorem estimate_withoutReports (c : GccController) (f : GccFeedback) :
    c.withoutReports.estimate lib f = (c.estimate lib f).map withoutReports := by
  change ((c.estimator.overuseEstimatorUpdate lib (c.delaySample f)).bind fun _ => _) =
    ((c.estimator.overuseEstimatorUpdate lib (c.delaySample f)).bind fun _ => _).map _
  rw [Option.map_bind]
  rfl

theorem updateRate_withoutReports (c : GccController) (f : GccFeedback) :
    c.withoutReports.updateRate lib f = (c.updateRate lib f).withoutReports := by
  have hDue : c.withoutReports.dueUpdate f = c.dueUpdate f := rfl
  rw [updateRate, updateRate, hDue]
  split <;> rfl

/-- The last lines of a feedback. -/
theorem RatesInv.finish_unreported (h : RatesInv r) (hHanded : Handed lib r bwState incoming nowMs r')
    (nowMs' : ℤ) :
    GccController.unreported (GccController.finish (GccController.unreported r') nowMs') =
      GccController.unreported (GccController.finish r' nowMs') := by
  obtain ⟨-, -, hSame, hFloor, -⟩ := h.handed hHanded
  exact GccController.finish_unreported (hSame.least.trans h.least) (hSame.greatest.trans h.greatest)
    (hSame.report.trans h.unreported) hFloor nowMs'

theorem control_withoutReports (h : RatesInv c.rates) (res : Bool) (f : GccFeedback) :
    (c.withoutReports.control lib res f).map withoutReports =
      (c.control lib res f).map withoutReports := by
  rw [control, control]
  change Option.map _ (if _ then _ else if c.lastTimeCalcValid = false then _ else _) = _
  split
  · rfl
  split
  · exact congrArg some (congrArg (fun r => ({ c with
      lastTimeCalcValid := true, rates := r } : GccController)) rfl)
  · dsimp only [bind]
    rw [updateMetrics_withoutReports, Option.bind_map, Option.map_bind, Option.map_bind]
    cases hMetrics : c.updateMetrics with
    | none => rfl
    | some u =>
      obtain ⟨-, -, hRates, -⟩ := updateMetrics_same hMetrics
      dsimp only [Option.bind_some, Function.comp_apply]
      rw [estimate_withoutReports, Option.bind_map, Option.map_bind, Option.map_bind]
      cases hEstimate : u.estimate lib f with
      | none => rfl
      | some v =>
        have hSame : v.rates = u.rates := by
          obtain ⟨estimator, -, hEq⟩ := Option.bind_eq_some_iff.mp hEstimate
          cases hEq
          rfl
        dsimp only [Option.bind_some, Function.comp_apply, Option.map_some]
        change some (withoutReports
          { ((v.updateRtt f).withoutReports.updateRate lib f) with
            rates := finish ((v.updateRtt f).withoutReports.updateRate lib f).rates f.nowMs }) = _
        rw [updateRate_withoutReports]
        obtain ⟨-, -, -, hHanded⟩ := updateRate_handed lib v f
        rw [hSame, hRates] at hHanded
        have hFinish := h.finish_unreported hHanded f.nowMs
        generalize (v.updateRtt f).updateRate lib f = w at hFinish ⊢
        exact congrArg some (congrArg (fun r => ({ w with rates := r } : GccController)) hFinish)

theorem GccInv.processFeedback_withoutReports (h : GccInv c) (f : GccFeedback) :
    (c.withoutReports.processFeedback lib f).map withoutReports =
      (c.processFeedback lib f).map withoutReports := by
  change ((c.base.processFeedback f.nowUs f.sequence f.rxTimestampUs).toOption.bind fun _ => _).map _ =
    ((c.base.processFeedback f.nowUs f.sequence f.rxTimestampUs).toOption.bind fun _ => _).map _
  rw [Option.map_bind, Option.map_bind]
  congr 1
  funext ⟨base, res⟩
  have hAverage := averageLosses_withoutReports ({ c with base := base } : GccController) f
  have hRates := (averageLosses_same ({ c with base := base } : GccController) f).2.2.1
  dsimp only [Function.comp_apply]
  refine (congrArg (fun u : GccController => (u.control lib res f).map withoutReports) hAverage).trans ?_
  exact control_withoutReports (by rw [hRates]; exact h.rates) res f

def Event.isLossRate : Event → Bool
  | .lossRate _ => true
  | _ => false

theorem GccInv.step_withoutReports (h : GccInv c) (e : Event) :
    (c.withoutReports.step lib e).map withoutReports = (c.step lib e).map withoutReports := by
  cases e with
  | sendPacket txTimestampUs sequence size =>
    change Option.map _ ((c.base.processSendPacket txTimestampUs sequence size).toOption.map _) = _
    rw [Option.map_map, GccController.step, Option.map_map]
    rfl
  | feedback f => exact h.processFeedback_withoutReports f
  | lossRate lossQ8 => rfl
  | prun tarSeq =>
    change Option.map _ ((c.base.prunTransitHistory tarSeq).toOption.map _) = _
    rw [Option.map_map, GccController.step, Option.map_map]
    rfl

/-- The run of two controllers that hold the same but for reports, one with the reports. -/
theorem run_withoutReports {d : GccController} (hC : GccInv c) (hD : GccInv d)
    (hSame : c.withoutReports = d.withoutReports) (events : List Event) :
    (run (step lib) c events).map withoutReports =
      (run (step lib) d (events.filter fun e => !e.isLossRate)).map withoutReports := by
  induction events generalizing c d with
  | nil => exact congrArg some hSame
  | cons e events ih =>
    cases hReport : e.isLossRate with
    | true =>
      rw [List.filter_cons_of_neg (by rw [hReport]; decide)]
      cases e with
      | lossRate lossQ8 =>
        have hStep : c.step lib (.lossRate lossQ8) =
          some { c with rates := { c.rates with lastFractionLoss := lossQ8 } } := rfl
        exact ih (hC.step hStep) hD hSame
      | sendPacket => cases hReport
      | feedback => cases hReport
      | prun => cases hReport
    | false =>
      rw [List.filter_cons_of_pos (by rw [hReport]; rfl), run_cons, run_cons]
      have hStep : (c.step lib e).map withoutReports = (d.step lib e).map withoutReports := by
        rw [← hC.step_withoutReports, ← hD.step_withoutReports, hSame]
      cases hStepC : c.step lib e with
      | none =>
        rw [hStepC] at hStep
        rw [Option.map_eq_none_iff.mp hStep.symm]
        rfl
      | some t =>
        rw [hStepC] at hStep
        obtain ⟨u, hStepD, hEq⟩ := Option.map_eq_some_iff.mp hStep.symm
        rw [hStepD]
        exact ih (hC.step hStepC) (hD.step hStepD) hEq.symm

/-- The samples that a run hands to the detector. -/
def samples (lib : RealFunctions) : GccController → List Event → List TrendSample
  | _, [] => []
  | c, e :: events =>
    (c.step lib e).elim [] fun t =>
      (match e with
        | .feedback f => if c.reaches f then [trendSample f t.estimator] else []
        | _ => []) ++ samples lib t events

/-- The detector has seen the samples of the run, and nothing else. -/
theorem detector_of_run (hRun : run (step lib) c events = some t) :
    t.detector = c.detector.detectAll (samples lib c events) := by
  induction events generalizing c with
  | nil =>
    cases hRun
    rfl
  | cons e events ih =>
    obtain ⟨u, hStep, hRest⟩ := Option.bind_eq_some_iff.mp hRun
    rw [ih hRest, samples, hStep, Option.elim_some, OveruseDetector.detectAll_append]
    congr 1
    cases e with
    | sendPacket txTimestampUs sequence size =>
      obtain ⟨r, -, rfl⟩ := Option.map_eq_some_iff.mp hStep
      rfl
    | feedback f =>
      rcases processFeedback_cases hStep with hPassed | hEstimated
      · dsimp only
        rw [hPassed.passes]
        exact hPassed.detector
      · dsimp only
        rw [hEstimated.reaches]
        exact hEstimated.detector
    | lossRate lossQ8 =>
      cases hStep
      rfl
    | prun tarSeq =>
      obtain ⟨base, -, rfl⟩ := Option.map_eq_some_iff.mp hStep
      rfl

/-- In every run the controller takes the bandwidth for overused only after a while of samples above the
threshold, and only as long as they last. -/
theorem sustained_of_run (hRun : run (step lib) {} events = some t)
    (hOverusing : t.detector.hypothesis = .overusing) :
    ∃ before block rest, OveruseDetector.Sustained {}
      (OveruseDetector.counted (samples lib {} events)) before block rest := by
  rw [detector_of_run hRun] at hOverusing
  exact OveruseDetector.sustained_of_counted _ hOverusing

/-- Packets sent 1 ms after each other, each fed back 99 ms later than the one before. The departures
of all but the last two count as simultaneous. -/
def queueing : List Event :=
  (List.range 22).flatMap fun n =>
    [.sendPacket (UInt64.ofNat (1000000 + 1000 * n)) (UInt16.ofNat n) 1000,
      .feedback
        { nowUs := UInt64.ofNat (1020000 + 100000 * n)
          sequence := UInt16.ofNat n
          rxTimestampUs := UInt64.ofNat (1010000 + 100000 * n)
          interArrival := 100000
          interDeparture := if n < 20 then 0 else 60000
          arrivalTime := 1000000 + 100000 * n
          nowMs := 1000 + 100 * n
          unsetRtt := 0 }]

theorem queueing_overusing :
    ∃ t, run (step OveruseEstimator.sixPlaces) {} queueing = some t ∧
      decide (t.detector.hypothesis = .overusing) = true :=
  (Option.any_eq_true _ _).mp (by decide +kernel)

theorem sustained_of_run_queueing :
    ∃ before block rest, OveruseDetector.Sustained {}
      (OveruseDetector.counted (samples OveruseEstimator.sixPlaces {} queueing)) before block rest := by
  obtain ⟨t, hRun, hOverusing⟩ := queueing_overusing
  exact sustained_of_run hRun (of_decide_eq_true hOverusing)

/-! ## The encoder -/

/-- `UpdateSendingRate` of the sender. -/
def updateSendingRate (c : GccController) : UInt32 := toUInt32 (85 / 100 * c.getSendBps.toNat)

/-- The rate between the sender and the encoder: the limits of the game server never come into play,
and no product wraps. -/
structure EncodesWithin (c : GccController) : Prop where
  unclamped : GameServer.updateBitrate c.updateSendingRate = c.updateSendingRate >>> 10
  bitrate : 2490 ≤ (GameServer.updateBitrate c.updateSendingRate).toNat ∧
    (GameServer.updateBitrate c.updateSendingRate).toNat ≤ 24902
  frame : ∀ fps : UInt8, (encodeFrame (GameServer.updateBitrate c.updateSendingRate) fps).toNat =
    (GameServer.updateBitrate c.updateSendingRate).toNat * 125 / fps.toNat

theorem updateSendingRate_bounds (h : 3000000 ≤ c.getSendBps.toNat ∧ c.getSendBps.toNat ≤ 30000000) :
    2550000 ≤ c.updateSendingRate.toNat ∧ c.updateSendingRate.toNat ≤ 25500000 := by
  obtain ⟨hLow, hHigh⟩ := h
  have hLowQ : (3000000 : ℚ) ≤ c.getSendBps.toNat := by exact_mod_cast hLow
  have hHighQ : (c.getSendBps.toNat : ℚ) ≤ 30000000 := by exact_mod_cast hHigh
  have hFloorLow : (2550000 : ℤ) ≤ ⌊(85 / 100 * c.getSendBps.toNat : ℚ)⌋ := by
    apply Int.le_floor.mpr
    push_cast
    linarith
  have hFloorHigh : ⌊(85 / 100 * c.getSendBps.toNat : ℚ)⌋ ≤ (25500000 : ℤ) := by
    have hFloor := Int.floor_le (85 / 100 * c.getSendBps.toNat : ℚ)
    have hCast : ((⌊(85 / 100 * c.getSendBps.toNat : ℚ)⌋ : ℤ) : ℚ) ≤ (25500000 : ℤ) := by
      push_cast
      linarith
    exact Int.cast_le.mp hCast
  have hToNat : c.updateSendingRate.toNat = ⌊(85 / 100 * c.getSendBps.toNat : ℚ)⌋.toNat :=
    UInt32.toNat_ofNat_of_lt' (by change _ < 2 ^ 32; omega)
  omega

theorem GccInv.encodesWithin (h : GccInv c) : EncodesWithin c := by
  obtain ⟨hLow, hHigh⟩ := updateSendingRate_bounds h.rates.bounds
  have hUnclamped : GameServer.updateBitrate c.updateSendingRate = c.updateSendingRate >>> 10 := by
    have hSame : min (max c.updateSendingRate GameServer.kMinEncodeBps) GameServer.kMaxEncodeBps =
        c.updateSendingRate := by
      apply UInt32.toNat_inj.mp
      have hMin : GameServer.kMinEncodeBps.toNat = 1000000 := rfl
      have hMax : GameServer.kMaxEncodeBps.toNat = 30000000 := rfl
      rw [toNat_min, toNat_max, hMin, hMax]
      omega
    rw [GameServer.updateBitrate, hSame]
  have hShift : (c.updateSendingRate >>> 10).toNat = c.updateSendingRate.toNat / 1024 := by
    rw [UInt32.toNat_shiftRight, Nat.shiftRight_eq_div_pow]
    rfl
  rw [← hUnclamped] at hShift
  refine ⟨hUnclamped, by omega, fun fps => ?_⟩
  generalize GameServer.updateBitrate c.updateSendingRate = bitrate at hShift
  have hProduct : (bitrate * 1000).toNat = bitrate.toNat * 1000 := by
    have hThousand : (1000 : UInt32).toNat = 1000 := rfl
    rw [UInt32.toNat_mul, hThousand]
    omega
  have hEight : bitrate.toNat * 1000 / (8 : UInt32).toNat = bitrate.toNat * 125 := by
    have hEight : (8 : UInt32).toNat = 8 := rfl
    rw [hEight]
    omega
  rw [encodeFrame, UInt32.toNat_div, UInt32.toNat_div, hProduct, hEight]
  rfl

end GccController

end Bullet.Stream
