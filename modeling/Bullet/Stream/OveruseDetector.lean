import Bullet.Stream.OveruseEstimator

/-! # The overuse detector

The trend against a threshold that adapts to it. The bandwidth counts as overused after samples above
the threshold for a while.
-/

namespace Bullet.Stream

open Lib Lib.PartialRun

structure OveruseDetector where
  threshold : ℚ := 25 / 2
  lastUpdateMs : ℤ := -1
  prevOffset : ℚ := 0
  timeOverUsing : ℚ := -1
  overuseCounter : ℕ := 0
  hypothesis : BandwidthUsage := .normal

/-- The arguments of `OveruseDetectorDetect`. -/
structure TrendSample where
  offset : ℚ
  tsDelta : UInt32
  numOfDeltas : ℕ
  nowMs : ℤ

def safeClamp (q least greatest : ℚ) : ℚ :=
  if q < least then least else if greatest < q then greatest else q

theorem safeClamp_mem {least greatest : ℚ} (h : least ≤ greatest) (q : ℚ) :
    least ≤ safeClamp q least greatest ∧ safeClamp q least greatest ≤ greatest := by
  rw [safeClamp]
  split
  · exact ⟨le_refl least, h⟩
  · next hLow =>
    split
    · exact ⟨h, le_refl greatest⟩
    · next hHigh => exact ⟨not_lt.mp hLow, not_lt.mp hHigh⟩

namespace OveruseDetector

def maxAdaptOffsetMs : ℚ := 15
def overUsingTimeThreshold : ℚ := 100
def minNumDeltas : ℕ := 60
def thresholdGain : ℚ := 4
def kUp : ℚ := 87 / 10000
def kDown : ℚ := 39 / 1000

def updateThreshold (s : OveruseDetector) (modifiedOffset : ℚ) (nowMs : ℤ) : OveruseDetector :=
  let lastUpdateMs := if s.lastUpdateMs = -1 then nowMs else s.lastUpdateMs
  if s.threshold + maxAdaptOffsetMs < |modifiedOffset| then { s with lastUpdateMs := nowMs }
  else
    let k := if |modifiedOffset| < s.threshold then kDown else kUp
    let timeDeltaMs : ℤ := min (nowMs - lastUpdateMs) 100
    { s with
      threshold :=
        safeClamp (s.threshold + k * (|modifiedOffset| - s.threshold) * timeDeltaMs) 6 600
      lastUpdateMs := nowMs }

/-- The trend that is compared with the threshold. -/
def modifiedOffset (e : TrendSample) : ℚ :=
  (min e.numOfDeltas minNumDeltas : ℕ) * e.offset * thresholdGain

/-- The time above the threshold with one sample more: the first one counts for half. -/
def timeWith (s : OveruseDetector) (e : TrendSample) : ℚ :=
  if s.timeOverUsing = -1 then (e.tsDelta.toNat : ℚ) / 2 else s.timeOverUsing + e.tsDelta.toNat

/-- The hypothesis after a comparison of the trend. -/
def compare (s : OveruseDetector) (e : TrendSample) : OveruseDetector :=
  if s.threshold < modifiedOffset e then
    if overUsingTimeThreshold < s.timeWith e ∧ 1 < s.overuseCounter + 1 ∧ s.prevOffset ≤ e.offset then
      { s with timeOverUsing := 0, overuseCounter := 0, hypothesis := .overusing }
    else { s with timeOverUsing := s.timeWith e, overuseCounter := s.overuseCounter + 1 }
  else if modifiedOffset e < -s.threshold then
    { s with timeOverUsing := -1, overuseCounter := 0, hypothesis := .underusing }
  else { s with timeOverUsing := -1, overuseCounter := 0, hypothesis := .normal }

def overuseDetectorDetect (s : OveruseDetector) (e : TrendSample) :
    OveruseDetector × BandwidthUsage :=
  if e.numOfDeltas < 2 then (s, .normal)
  else
    let s := { s.compare e with prevOffset := e.offset }
    let s := s.updateThreshold (modifiedOffset e) e.nowMs
    (s, s.hypothesis)

def detect (s : OveruseDetector) (e : TrendSample) : OveruseDetector := (s.overuseDetectorDetect e).1

def detectAll (s : OveruseDetector) (samples : List TrendSample) : OveruseDetector :=
  samples.foldl detect s

/-! ## The threshold -/

variable {s : OveruseDetector} {e : TrendSample} {samples : List TrendSample}

theorem compare_threshold (s : OveruseDetector) (e : TrendSample) :
    (s.compare e).threshold = s.threshold := by
  rw [compare]
  split <;> split <;> rfl

theorem updateThreshold_mem (h : 6 ≤ s.threshold ∧ s.threshold ≤ 600) (q : ℚ) (nowMs : ℤ) :
    6 ≤ (s.updateThreshold q nowMs).threshold ∧ (s.updateThreshold q nowMs).threshold ≤ 600 := by
  rw [updateThreshold]
  split
  · exact h
  · exact safeClamp_mem (by norm_num) _

theorem detectAll_threshold (h : 6 ≤ s.threshold ∧ s.threshold ≤ 600) (samples : List TrendSample) :
    6 ≤ (s.detectAll samples).threshold ∧ (s.detectAll samples).threshold ≤ 600 := by
  induction samples generalizing s with
  | nil => exact h
  | cons e samples ih =>
    apply ih
    rw [detect, overuseDetectorDetect]
    split
    · exact h
    · apply updateThreshold_mem
      dsimp only
      rwa [compare_threshold]

/-! ## Overuse -/

theorem detectAll_append (s : OveruseDetector) (samples samples' : List TrendSample) :
    s.detectAll (samples ++ samples') = (s.detectAll samples).detectAll samples' :=
  List.foldl_append

/-- The samples that count: the first one does not. -/
def counted (samples : List TrendSample) : List TrendSample :=
  samples.filter fun e => decide (2 ≤ e.numOfDeltas)

theorem detectAll_counted (s : OveruseDetector) (samples : List TrendSample) :
    s.detectAll (counted samples) = s.detectAll samples := by
  induction samples generalizing s with
  | nil => rfl
  | cons e samples ih =>
    rw [counted, List.filter_cons]
    split
    · exact ih (s.detect e)
    · next hFew =>
      rw [decide_eq_true_iff, not_le] at hFew
      have hSame : s.detect e = s := by rw [detect, overuseDetectorDetect, if_pos hFew]
      refine (ih s).trans ?_
      change _ = (s.detect e).detectAll samples
      rw [hSame]

/-- Every sample is above the threshold when it comes. -/
def AllOver : OveruseDetector → List TrendSample → Prop
  | _, [] => True
  | s, e :: samples => s.threshold < modifiedOffset e ∧ AllOver (s.detect e) samples

theorem allOver_append {samples' : List TrendSample} :
    AllOver s (samples ++ samples') ↔ AllOver s samples ∧ AllOver (s.detectAll samples) samples' := by
  induction samples generalizing s with
  | nil => exact (and_iff_right trivial).symm
  | cons e samples ih => exact (and_congr_right fun _ => ih).trans and_assoc.symm

def totalTime (samples : List TrendSample) : ℚ := (samples.map fun e => (e.tsDelta.toNat : ℚ)).sum

theorem totalTime_append_singleton (samples : List TrendSample) (e : TrendSample) :
    totalTime (samples ++ [e]) = totalTime samples + e.tsDelta.toNat := by
  simp [totalTime]

/-- Two samples or more above the threshold, of more than 100 ms together, and none since that is
not. -/
structure Sustained (start : OveruseDetector) (samples before block rest : List TrendSample) :
    Prop where
  split : samples = before ++ (block ++ rest)
  above : AllOver (start.detectAll before) (block ++ rest)
  two : 2 ≤ block.length
  long : overUsingTimeThreshold < totalTime block

/-- The samples that the timer counts. -/
structure Timed (start s : OveruseDetector) (samples before block : List TrendSample) : Prop where
  split : samples = before ++ block
  above : AllOver (start.detectAll before) block
  counter : s.overuseCounter = block.length
  timer : s.timeOverUsing = -1 ∧ block = [] ∨
    0 ≤ s.timeOverUsing ∧ s.timeOverUsing ≤ totalTime block

structure DetectorInv (start s : OveruseDetector) (samples : List TrendSample) : Prop where
  state : s = start.detectAll samples
  timed : ∃ before block, Timed start s samples before block
  sustained : s.hypothesis = .overusing →
    ∃ before block rest, Sustained start samples before block rest

theorem Sustained.append {start : OveruseDetector} {before block rest : List TrendSample}
    (h : Sustained start samples before block rest)
    (hOver : (start.detectAll samples).threshold < modifiedOffset e) :
    Sustained start (samples ++ [e]) before block (rest ++ [e]) where
  split := by rw [h.split, List.append_assoc, List.append_assoc]
  above := by
    rw [← List.append_assoc]
    refine allOver_append.mpr ⟨h.above, ?_, trivial⟩
    rwa [← detectAll_append, ← h.split]
  two := h.two
  long := h.long

theorem Timed.timeWith {start : OveruseDetector} {before block : List TrendSample}
    (h : Timed start s samples before block) :
    0 ≤ s.timeWith e ∧ s.timeWith e ≤ totalTime (block ++ [e]) := by
  have hDelta : (0 : ℚ) ≤ e.tsDelta.toNat := Nat.cast_nonneg _
  rw [totalTime_append_singleton, OveruseDetector.timeWith]
  rcases h.timer with ⟨hStart, rfl⟩ | ⟨hPos, hLe⟩
  · rw [if_pos hStart]
    have hNone : totalTime [] = 0 := rfl
    constructor <;> linarith
  · rw [if_neg (by linarith)]
    constructor <;> linarith

/-- A sample that counts. -/
theorem DetectorInv.detect {start : OveruseDetector} (h : DetectorInv start s samples)
    (hCounts : 2 ≤ e.numOfDeltas) : DetectorInv start (s.detect e) (samples ++ [e]) := by
  obtain ⟨before, block, hTimed⟩ := h.timed
  have hState : s.detect e = start.detectAll (samples ++ [e]) := by
    rw [detectAll_append, ← h.state]
    rfl
  have hDetect : ∃ t, s.detect e = t ∧ t.overuseCounter = (s.compare e).overuseCounter ∧
      t.timeOverUsing = (s.compare e).timeOverUsing ∧
      t.hypothesis = (s.compare e).hypothesis := by
    refine ⟨_, rfl, ?_⟩
    rw [OveruseDetector.detect, overuseDetectorDetect, if_neg (not_lt.mpr hCounts)]
    dsimp only
    rw [updateThreshold]
    split <;> exact ⟨rfl, rfl, rfl⟩
  obtain ⟨t, hEq, hCounter, hTime, hHypothesis⟩ := hDetect
  rw [hEq] at hState ⊢
  have hSplit : samples ++ [e] = before ++ (block ++ [e]) := by
    rw [hTimed.split, List.append_assoc]
  rw [compare] at hCounter hTime hHypothesis
  split at hCounter
  · next hOver =>
    rw [if_pos hOver] at hTime hHypothesis
    have hAll : AllOver (start.detectAll before) (block ++ [e]) := by
      refine allOver_append.mpr ⟨hTimed.above, ?_, trivial⟩
      rwa [← detectAll_append, ← hTimed.split, ← h.state]
    have hTimer := hTimed.timeWith (e := e)
    split at hCounter
    · next hLong =>
      rw [if_pos hLong] at hTime hHypothesis
      refine ⟨hState, ⟨samples ++ [e], [], by rw [List.append_nil], trivial, hCounter,
        .inr ⟨hTime.ge, hTime.le⟩⟩, fun _ => ⟨before, block ++ [e], [], ?_, ?_, ?_, ?_⟩⟩
      · rw [List.append_nil, hSplit]
      · rwa [List.append_nil]
      · rw [List.length_append, List.length_singleton, ← hTimed.counter]
        exact hLong.2.1
      · exact hLong.1.trans_le hTimer.2
    · next hShort =>
      rw [if_neg hShort] at hTime hHypothesis
      refine ⟨hState, ⟨before, block ++ [e], hSplit, hAll, ?_, .inr ?_⟩, fun hOverusing => ?_⟩
      · rw [hCounter, List.length_append, List.length_singleton, ← hTimed.counter]
      · rwa [hTime]
      · obtain ⟨before, block, rest, hSustained⟩ := h.sustained (hHypothesis.symm.trans hOverusing)
        refine ⟨before, block, rest ++ [e], hSustained.append ?_⟩
        rwa [← h.state]
  · next hNot =>
    rw [if_neg hNot] at hTime hHypothesis
    have hReset : t.overuseCounter = 0 ∧ t.timeOverUsing = -1 ∧ t.hypothesis ≠ .overusing := by
      split at hCounter
      · next hUnder =>
        rw [if_pos hUnder] at hTime hHypothesis
        exact ⟨hCounter, hTime, hHypothesis ▸ nofun⟩
      · next hWithin =>
        rw [if_neg hWithin] at hTime hHypothesis
        exact ⟨hCounter, hTime, hHypothesis ▸ nofun⟩
    obtain ⟨hNone, hStopped, hOther⟩ := hReset
    exact ⟨hState, ⟨samples ++ [e], [], by rw [List.append_nil], trivial, hNone,
      .inl ⟨hStopped, rfl⟩⟩, fun hOverusing => absurd hOverusing hOther⟩

theorem DetectorInv.detectAll (samples : List TrendSample)
    (hCounts : ∀ e ∈ samples, 2 ≤ e.numOfDeltas) :
    DetectorInv {} (OveruseDetector.detectAll {} samples) samples := by
  induction samples using List.reverseRecOn with
  | nil => exact ⟨rfl, ⟨[], [], rfl, trivial, rfl, .inl ⟨rfl, rfl⟩⟩, nofun⟩
  | append_singleton samples e ih =>
    rw [detectAll_append]
    exact (ih fun e' hMem => hCounts e' (List.mem_append_left _ hMem)).detect
      (hCounts e (List.mem_append_right _ (List.mem_singleton_self e)))

/-- The detector takes the bandwidth for overused only after two samples or more that lie above the
threshold, one after the other, for more than 100 ms, and only as long as every sample since does. -/
theorem sustained_of_counted (samples : List TrendSample)
    (hOverusing : (detectAll {} samples).hypothesis = .overusing) :
    ∃ before block rest, Sustained {} (counted samples) before block rest := by
  rw [← detectAll_counted] at hOverusing
  refine (DetectorInv.detectAll (counted samples) fun e hMem => ?_).sustained hOverusing
  exact of_decide_eq_true (List.mem_filter.mp hMem).2

end OveruseDetector

end Bullet.Stream
