import Mathlib.Algebra.Order.Field.Rat
import Bullet.Lib.RunningMean
import Bullet.Stream.PacketHeader
import Bullet.Stream.SenderWindows

/-! # The RTT statistics of the sender

Every ACK of a packet in the history may give a round trip time, and a trace file may give others.
The statistics are kept with exact fractions; the standard deviation, a square root, is left out.
-/

namespace Bullet.Stream

open Lib Lib.PartialRun Lib.RunningMean

structure RttStat where
  currentRtt : Time
  srtt : Time
  minRtt : Time
  statCnt : ℕ
  rttSumAvgMs : ℚ
  rttSquareSumAvgMs : ℚ
deriving DecidableEq, Repr

namespace RttStat

/-- `SetNetworkStatistics` -/
def create (defaultRtt : Time) : RttStat where
  currentRtt := defaultRtt
  srtt := defaultRtt
  minRtt := defaultRtt
  statCnt := 0
  rttSumAvgMs := 0
  rttSquareSumAvgMs := 0

/-- So many fifths of a time, rounded to the nearest nanosecond as `Time` does. -/
def fifths (n : ℤ) (time : Time) : Time := (2 * n * time + 5) / 10

/-- `rtt.GetMicroSeconds() / 1000.0` -/
def truncatedMs (rtt : Time) : ℚ := getMicroSeconds rtt / 1000

def updateRtt (stat : RttStat) (rtt : Time) : RttStat where
  currentRtt := rtt
  srtt := if stat.srtt = 0 then rtt else fifths 1 rtt + fifths 4 stat.srtt
  minRtt := stat.minRtt
  statCnt := stat.statCnt + 1
  rttSumAvgMs := (stat.rttSumAvgMs * stat.statCnt + truncatedMs rtt) / (stat.statCnt + 1)
  rttSquareSumAvgMs :=
    (stat.rttSquareSumAvgMs * stat.statCnt + truncatedMs rtt ^ 2) / (stat.statCnt + 1)

end RttStat

/-- `PacketReceiverUdp::lessThan_simple`: the serial number order of 16-bit ids. -/
def lessThanSimple (id1 id2 : UInt16) : Bool := decide (id2 - id1 < id1 - id2)

/-- What may give a round trip time: an ACK of a known packet, or a line of the trace. -/
inductive RttInput where
  | ack (lastPktId : UInt16) (rtt : Time)
  | trace (rtt : Time)
deriving DecidableEq, Repr

/-- The sender's windows and statistics, with the inputs and the samples so far, newest first. -/
structure RttSender where
  windows : SenderWindows
  stat : RttStat
  lastAckedGlobalId : UInt16
  log : List RttInput
  samples : List Time

namespace RttSender

def create (defaultRtt : Time) : RttSender where
  windows := SenderWindows.create
  stat := RttStat.create defaultRtt
  lastAckedGlobalId := 0
  log := []
  samples := []

def wait (s : RttSender) (delay : ℕ) : RttSender :=
  { s with windows := { s.windows with now := s.windows.now + delay } }

def updateRtt (s : RttSender) (rtt : Time) : RttSender :=
  { s with stat := s.stat.updateRtt rtt, samples := rtt :: s.samples }

/-- The time since the packet was sent. -/
def rttOf (s : RttSender) (info : SentPacketInfo) : Time := s.windows.now - info.pktSendTime

/-- `OnSocketRecv_sender` on an ACK packet, after `RcvACKPacket`. -/
def recvAck (s : RttSender) (lastPktId : UInt16) : RttSender :=
  match s.windows.pktsHistory.find lastPktId with
  | none => s
  | some info =>
    let rtt := s.rttOf info
    let sampled := if s.lastAckedGlobalId ≤ lastPktId then s.updateRtt rtt else s
    { sampled with lastAckedGlobalId := lastPktId, log := .ack lastPktId rtt :: s.log }

/-- `SetNetworkStatisticsBytrace`, with milliseconds. -/
def setNetworkStatisticsBytrace (s : RttSender) (rtt : UInt16) : RttSender :=
  { s.updateRtt (milliSeconds rtt.toNat) with log := .trace (milliSeconds rtt.toNat) :: s.log }

inductive Event where
  | sendPacket (call : SendCall)
  | recvAck (delay : ℕ) (lastPktId : UInt16)
  | setNetworkStatisticsBytrace (delay : ℕ) (rtt : UInt16)
deriving DecidableEq, Repr

def step (s : RttSender) : Event → Option RttSender
  | .sendPacket call => (s.windows.sendPacket call).map fun windows => { s with windows := windows }
  | .recvAck delay lastPktId => some ((s.wait delay).recvAck lastPktId)
  | .setNetworkStatisticsBytrace delay rtt =>
    some ((s.wait delay).setNetworkStatisticsBytrace rtt)

/-! ## The statistics as they should be -/

/-- The newest id acknowledged, in the serial number order. -/
def newest : List RttInput → Option UInt16
  | [] => none
  | .trace _ :: log => newest log
  | .ack id _ :: log =>
    match newest log with
    | none => some id
    | some last => if lessThanSimple id last then some last else some id

/-- The id is not older than the newest one acknowledged. -/
def NotOlder (log : List RttInput) (id : UInt16) : Prop :=
  ∀ last ∈ newest log, lessThanSimple id last = false

instance (log : List RttInput) (id : UInt16) : Decidable (NotOlder log id) :=
  Option.decidableForallMem (newest log)

/-- The samples that the inputs should give. -/
def expected : List RttInput → List Time
  | [] => []
  | .trace rtt :: log => rtt :: expected log
  | .ack id rtt :: log => if NotOlder log id then rtt :: expected log else expected log

/-- A time in milliseconds. -/
def inMs (rtt : Time) : ℚ := rtt / 1000000

/-- At least one and at most another one of the samples and the initial value. -/
def Between (defaultRtt : Time) (samples : List Time) (srtt : Time) : Prop :=
  (∃ least ∈ defaultRtt :: samples, least ≤ srtt) ∧
    ∃ largest ∈ defaultRtt :: samples, srtt ≤ largest

/-- The samples are the expected ones, and the statistics are those of the samples. -/
structure Exact (defaultRtt : Time) (s : RttSender) : Prop where
  samples : s.samples = expected s.log
  average : s.stat.rttSumAvgMs = mean (s.samples.map inMs)
  squareAverage : s.stat.rttSquareSumAvgMs = mean (s.samples.map fun rtt => inMs rtt ^ 2)
  minRtt : ∀ rtt ∈ s.samples, s.stat.minRtt ≤ rtt
  srtt : Between defaultRtt s.samples s.stat.srtt

/-- Whatever the step leads to is exact. -/
def StaysExact (defaultRtt : Time) (s : RttSender) (event : Event) : Prop :=
  ∀ t, s.step event = some t → Exact defaultRtt t

/-- The sample is not below `min_rtt`, and has whole microseconds. -/
structure Fits (s : RttSender) (rtt : Time) : Prop where
  minRtt : s.stat.minRtt ≤ rtt
  microSeconds : 1000 ∣ rtt

/-- The id compares with the last one acknowledged as in the serial number order with the newest. -/
def ComparesSerially (s : RttSender) (id : UInt16) : Prop :=
  s.lastAckedGlobalId ≤ id ↔ NotOlder s.log id

/-- The ids compare serially, and the samples fit. -/
def Regular (s : RttSender) : Event → Prop
  | .sendPacket _ => True
  | .recvAck delay id => ∀ info ∈ s.windows.pktsHistory.find id,
      ComparesSerially s id ∧ (s.lastAckedGlobalId ≤ id → Fits s ((s.wait delay).rttOf info))
  | .setNetworkStatisticsBytrace _ rtt => Fits s (milliSeconds rtt.toNat)

variable {defaultRtt rtt least largest : Time} {s t : RttSender} {event : Event} {log : List RttInput}
  {id : UInt16}

/-! ## One sample -/

theorem fifths_mono {a b : ℤ} (n : ℕ) (h : a ≤ b) : RttStat.fifths n a ≤ RttStat.fifths n b := by
  have hMul : (n : ℤ) * a ≤ n * b := Int.mul_le_mul_of_nonneg_left h (Int.natCast_nonneg n)
  have hNum : 2 * (n : ℤ) * a + 5 ≤ 2 * n * b + 5 := by
    rw [Int.mul_assoc, Int.mul_assoc]
    omega
  exact Int.ediv_le_ediv (by decide) hNum

theorem fifths_add (a : ℤ) : RttStat.fifths 1 a + RttStat.fifths 4 a = a := by
  have hSum : (2 * 1 * a + 5) / 10 + (2 * 4 * a + 5) / 10 = a := by omega
  exact hSum

theorem le_srtt (hRtt : least ≤ rtt) (hOld : least ≤ s.stat.srtt) :
    least ≤ (s.stat.updateRtt rtt).srtt := by
  rw [RttStat.updateRtt]
  split
  · exact hRtt
  · calc
      least = RttStat.fifths 1 least + RttStat.fifths 4 least := (fifths_add least).symm
      _ ≤ RttStat.fifths 1 rtt + RttStat.fifths 4 s.stat.srtt :=
        Int.add_le_add (fifths_mono 1 hRtt) (fifths_mono 4 hOld)

theorem srtt_le (hRtt : rtt ≤ largest) (hOld : s.stat.srtt ≤ largest) :
    (s.stat.updateRtt rtt).srtt ≤ largest := by
  rw [RttStat.updateRtt]
  split
  · exact hRtt
  · calc
      RttStat.fifths 1 rtt + RttStat.fifths 4 s.stat.srtt ≤
          RttStat.fifths 1 largest + RttStat.fifths 4 largest :=
        Int.add_le_add (fifths_mono 1 hRtt) (fifths_mono 4 hOld)
      _ = largest := fifths_add largest

theorem Between.sample {samples : List Time} (h : Between defaultRtt samples s.stat.srtt) :
    Between defaultRtt (rtt :: samples) (s.stat.updateRtt rtt).srtt := by
  have hKeep : ∀ time ∈ defaultRtt :: samples, time ∈ defaultRtt :: rtt :: samples := by
    intro time hMem
    rw [List.mem_cons] at hMem ⊢
    exact hMem.imp_right (List.mem_cons_of_mem _)
  have hNew : rtt ∈ defaultRtt :: rtt :: samples := List.mem_cons_of_mem _ List.mem_cons_self
  obtain ⟨⟨least, hLeast, hLe⟩, largest, hLargest, hGe⟩ := h
  constructor
  · obtain hBelow | hAbove := le_total rtt least
    · exact ⟨rtt, hNew, le_srtt le_rfl (hBelow.trans hLe)⟩
    · exact ⟨least, hKeep least hLeast, le_srtt hAbove hLe⟩
  · obtain hBelow | hAbove := le_total rtt largest
    · exact ⟨largest, hKeep largest hLargest, srtt_le hBelow hGe⟩
    · exact ⟨rtt, hNew, srtt_le le_rfl (hGe.trans hAbove)⟩

theorem inMs_eq_iff {rtt : ℤ} : inMs rtt = RttStat.truncatedMs rtt ↔ 1000 ∣ rtt := by
  have hWhole : inMs rtt = RttStat.truncatedMs rtt ↔ rtt = 1000 * rtt.tdiv 1000 := by
    rw [inMs, RttStat.truncatedMs, getMicroSeconds, div_eq_div_iff (by norm_num) (by norm_num)]
    constructor
    · intro h
      have hInt : rtt * 1000 = rtt.tdiv 1000 * 1000000 := by exact_mod_cast h
      omega
    · intro h
      have hInt : rtt * 1000 = rtt.tdiv 1000 * 1000000 := by omega
      exact_mod_cast hInt
  rw [hWhole]
  constructor
  · exact fun h => ⟨_, h⟩
  · rintro ⟨k, rfl⟩
    rw [Int.mul_tdiv_cancel_left k (by decide)]

/-! ## One step -/

structure RttInv (defaultRtt : Time) (s : RttSender) : Prop extends Exact defaultRtt s where
  count : s.stat.statCnt = s.samples.length

theorem rttInv_create (defaultRtt : Time) : RttInv defaultRtt (create defaultRtt) where
  samples := rfl
  average := mean_nil.symm
  squareAverage := mean_nil.symm
  minRtt := fun _ hMem => (List.not_mem_nil hMem).elim
  srtt := ⟨⟨defaultRtt, List.mem_cons_self, le_rfl⟩, defaultRtt, List.mem_cons_self, le_rfl⟩
  count := rfl

theorem Exact.congr (h : Exact defaultRtt s) (hStat : t.stat = s.stat) (hSamples : t.samples = s.samples)
    (hExpected : expected t.log = expected s.log) : Exact defaultRtt t := by
  constructor
  · rw [hSamples, hExpected]
    exact h.samples
  · rw [hStat, hSamples]
    exact h.average
  · rw [hStat, hSamples]
    exact h.squareAverage
  · rw [hStat, hSamples]
    exact h.minRtt
  · rw [hStat, hSamples]
    exact h.srtt

/-- A sample that was to be taken keeps the statistics exact if and only if it fits. -/
theorem RttInv.sample_iff (h : RttInv defaultRtt s) (hStat : t.stat = s.stat.updateRtt rtt)
    (hSamples : t.samples = rtt :: s.samples) (hExpected : expected t.log = rtt :: expected s.log) :
    Exact defaultRtt t ↔ Fits s rtt := by
  constructor
  · intro hExact
    constructor
    · have hMin := hExact.minRtt rtt (hSamples ▸ List.mem_cons_self)
      rw [hStat] at hMin
      exact hMin
    · have hAverage := hExact.average
      rw [hStat, hSamples, RttStat.updateRtt, h.average, h.count, List.map_cons,
        ← @List.length_map _ _ s.samples inMs] at hAverage
      exact inMs_eq_iff.mp (mean_cons_eq_iff.mp hAverage.symm)
  · intro hFits
    have hMs := inMs_eq_iff.mpr hFits.microSeconds
    constructor
    · rw [hSamples, hExpected, h.samples]
    · rw [hStat, hSamples, RttStat.updateRtt, h.average, h.count, List.map_cons, mean_cons,
        List.length_map, hMs]
    · rw [hStat, hSamples, RttStat.updateRtt, h.squareAverage, h.count, List.map_cons, mean_cons,
        List.length_map, hMs]
    · intro time hMem
      rw [hSamples] at hMem
      rw [hStat]
      obtain rfl | hOld := List.mem_cons.mp hMem
      · exact hFits.minRtt
      · exact h.minRtt time hOld
    · rw [hStat, hSamples]
      exact Between.sample h.srtt

theorem count_step (h : s.stat.statCnt = s.samples.length) (hStep : s.step event = some t) :
    t.stat.statCnt = t.samples.length := by
  have hSample : ∀ rtt, (s.stat.updateRtt rtt).statCnt = (rtt :: s.samples).length := by
    intro rtt
    rw [RttStat.updateRtt, h, List.length_cons]
  cases event with
  | sendPacket call =>
    obtain ⟨windows, -, rfl⟩ := Option.map_eq_some_iff.mp hStep
    exact h
  | recvAck delay id =>
    cases hStep
    rw [recvAck]
    split
    · exact h
    · next info _ =>
      by_cases hLe : (s.wait delay).lastAckedGlobalId ≤ id
      · simp only [if_pos hLe]
        exact hSample _
      · simp only [if_neg hLe]
        exact h
  | setNetworkStatisticsBytrace delay rtt =>
    cases hStep
    exact hSample _

/-- An ACK keeps the statistics exact if and only if its id compares serially and its sample fits. -/
theorem RttInv.recvAck_iff (h : RttInv defaultRtt s) (delay : ℕ) :
    Exact defaultRtt ((s.wait delay).recvAck id) ↔ ∀ info ∈ s.windows.pktsHistory.find id,
      ComparesSerially s id ∧ (s.lastAckedGlobalId ≤ id → Fits s ((s.wait delay).rttOf info)) := by
  rw [recvAck]
  split
  · next hNone =>
    constructor
    · intro _ info hInfo
      exact absurd (hNone.symm.trans hInfo) (Option.some_ne_none info).symm
    · intro _
      exact h.toExact.congr rfl rfl rfl
  · next info hInfo =>
    have hThis : (∀ other ∈ s.windows.pktsHistory.find id, ComparesSerially s id ∧
        (s.lastAckedGlobalId ≤ id → Fits s ((s.wait delay).rttOf other))) ↔
        ComparesSerially s id ∧ (s.lastAckedGlobalId ≤ id → Fits s ((s.wait delay).rttOf info)) := by
      constructor
      · exact fun hAll => hAll info hInfo
      · intro hThis other hOther
        cases (show some info = some other from hInfo.symm.trans hOther)
        exact hThis
    rw [hThis]
    have hLast : (s.wait delay).lastAckedGlobalId = s.lastAckedGlobalId := rfl
    rw [hLast]
    by_cases hTaken : s.lastAckedGlobalId ≤ id
    · simp only [if_pos hTaken]
      by_cases hDue : NotOlder s.log id
      · have hSample := h.sample_iff (t := { (s.wait delay).updateRtt ((s.wait delay).rttOf info) with
          lastAckedGlobalId := id, log := .ack id ((s.wait delay).rttOf info) :: s.log })
          rfl rfl (if_pos hDue)
        exact ⟨fun hExact => ⟨iff_of_true hTaken hDue, fun _ => hSample.mp hExact⟩,
          fun hBoth => hSample.mpr (hBoth.2 hTaken)⟩
      · refine iff_of_false (fun hExact => ?_) fun hBoth => hDue (hBoth.1.mp hTaken)
        have hSamples := hExact.samples
        have hExpected : expected (.ack id ((s.wait delay).rttOf info) :: s.log) = expected s.log :=
          if_neg hDue
        change (s.wait delay).rttOf info :: s.samples =
          expected (.ack id ((s.wait delay).rttOf info) :: s.log) at hSamples
        rw [hExpected, ← h.samples] at hSamples
        exact List.cons_ne_self _ _ hSamples
    · simp only [if_neg hTaken]
      by_cases hDue : NotOlder s.log id
      · refine iff_of_false (fun hExact => ?_) fun hBoth => hTaken (hBoth.1.mpr hDue)
        have hSamples := hExact.samples
        have hExpected : expected (.ack id ((s.wait delay).rttOf info) :: s.log) =
            (s.wait delay).rttOf info :: expected s.log := if_pos hDue
        change s.samples = expected (.ack id ((s.wait delay).rttOf info) :: s.log) at hSamples
        rw [hExpected, ← h.samples] at hSamples
        exact List.cons_ne_self _ _ hSamples.symm
      · refine iff_of_true ?_ ⟨iff_of_false hTaken hDue, fun hLe => absurd hLe hTaken⟩
        exact h.toExact.congr rfl rfl (if_neg hDue)

theorem RttInv.staysExact_iff (h : RttInv defaultRtt s) :
    StaysExact defaultRtt s event ↔ Regular s event := by
  cases event with
  | sendPacket call =>
    refine iff_of_true (fun t hStep => ?_) trivial
    obtain ⟨windows, -, rfl⟩ := Option.map_eq_some_iff.mp hStep
    exact h.toExact.congr rfl rfl rfl
  | recvAck delay id =>
    rw [Regular, ← h.recvAck_iff delay]
    exact ⟨fun hStays => hStays _ rfl, fun hExact t hStep => Option.some.inj hStep ▸ hExact⟩
  | setNetworkStatisticsBytrace delay rtt =>
    rw [Regular, ← h.sample_iff (t := (s.wait delay).setNetworkStatisticsBytrace rtt) rfl rfl rfl]
    exact ⟨fun hStays => hStays _ rfl, fun hExact t hStep => Option.some.inj hStep ▸ hExact⟩

/-- In a run the samples and the statistics are exact after every step if and only if every ACK compares
serially and every sample fits. -/
theorem exact_iff_regular (defaultRtt : Time) (events : List Event) :
    StepsMeet step (StaysExact defaultRtt) (create defaultRtt) events ↔
      StepsMeet step Regular (create defaultRtt) events :=
  stepsMeet_congr_of_guard
    (fun _ _ t hInv hStays hStep => ⟨hStays t hStep, count_step hInv.count hStep⟩)
    (fun _ _ hInv => hInv.staysExact_iff) (rttInv_create defaultRtt)

/-- A data packet sent after so many nanoseconds. -/
def dataCall (delay : ℕ) : SendCall := ⟨delay, .data (DataPacket.ofFrame 0 1 0 0), 1000⟩

/-- A packet acknowledged after 20 ms leaves `min_rtt` at the 50 ms of the start. And when the ACKs of
three packets come in the order 2, 0, 1, the last one gives a sample, although packet 2 is newer. -/
theorem statistics_not_exact :
    ¬StepsMeet step (StaysExact 50000000) (create 50000000)
        [.sendPacket (dataCall 0), .recvAck 20000000 0] ∧
      ¬StepsMeet step (StaysExact 50000000) (create 50000000)
        [.sendPacket (dataCall 0), .sendPacket (dataCall 0), .sendPacket (dataCall 0),
          .recvAck 60000000 2, .recvAck 0 0, .recvAck 0 1] := by
  constructor
  · intro hRun
    have hExact := (hRun.2 _ rfl).1 _ rfl
    exact absurd (hExact.minRtt 20000000 List.mem_cons_self) (by decide +kernel)
  · intro hRun
    have hExact := ((((((hRun.2 _ rfl).2 _ rfl).2 _ rfl).2 _ rfl).2 _ rfl).1 _ rfl)
    exact absurd hExact.samples (by decide +kernel)

end RttSender
end Bullet.Stream
