import Mathlib.Algebra.Order.Group.Int
import Bullet.Stream.DecoderAcks

/-! # Frame acknowledgements at the sender

Which acknowledgements the sender counts as finished frames, and the acknowledgement from the
decoder's call to the sender's counters.
-/

namespace Bullet.Stream

open Lib.PartialRun Lib.StampedList

/-- The arrival of a `FrameAckPacket` at the sender. -/
structure FrameAckArrival where
  now : Time
  frameId : UInt32
  frameEncodeTime : Time
deriving DecidableEq, Repr

/-- The members of the sender that the frame acknowledgements read and write. -/
structure PacketSenderUdp where
  delayDdl : Time
  mDelayDdl : Time
  finishedFrameCnt : UInt64
  timeoutFrameCnt : UInt64
  excludeTenFinishedFrameCnt : UInt64
deriving DecidableEq, Repr

namespace PacketSenderUdp

/-- The initialiser `m_delay_ddl {delay_ddl}` reads the member `delay_ddl` before the body assigns
the parameter to it; `storage` is what lay in that member. -/
def create (storage delayDdl : Time) : PacketSenderUdp where
  delayDdl := delayDdl
  mDelayDdl := storage
  finishedFrameCnt := 0
  timeoutFrameCnt := 0
  excludeTenFinishedFrameCnt := 0

def onFrameAck (s : PacketSenderUdp) (ack : FrameAckArrival) : PacketSenderUdp :=
  if ack.now - ack.frameEncodeTime ≤ s.mDelayDdl + milliSeconds 1 then
    { s with
      finishedFrameCnt := s.finishedFrameCnt + 1
      excludeTenFinishedFrameCnt :=
        if 10 ≤ ack.frameId then s.excludeTenFinishedFrameCnt + 1
        else s.excludeTenFinishedFrameCnt }
  else { s with timeoutFrameCnt := s.timeoutFrameCnt + 1 }

/-- The acknowledgement arrives within the deadline plus one millisecond of the encode time. -/
def OnTime (deadline : Time) (ack : FrameAckArrival) : Prop :=
  ack.now - ack.frameEncodeTime ≤ deadline + milliSeconds 1

instance (deadline : Time) : DecidablePred (OnTime deadline) :=
  fun _ => inferInstanceAs (Decidable (_ ≤ _))

/-- The counters of a sender that counts from `s` on with the given deadline. -/
structure Counts (deadline : Time) (s : PacketSenderUdp) (acks : List FrameAckArrival)
    (s' : PacketSenderUdp) : Prop where
  finished : s'.finishedFrameCnt = s.finishedFrameCnt +
    UInt64.ofNat (acks.countP fun ack => decide (OnTime deadline ack))
  timeout : s'.timeoutFrameCnt = s.timeoutFrameCnt +
    UInt64.ofNat (acks.countP fun ack => decide (¬ OnTime deadline ack))
  excludeTen : s'.excludeTenFinishedFrameCnt = s.excludeTenFinishedFrameCnt +
    UInt64.ofNat (acks.countP fun ack => decide (OnTime deadline ack ∧ 10 ≤ ack.frameId))

theorem onFrameAck_mDelayDdl (s : PacketSenderUdp) (ack : FrameAckArrival) :
    (s.onFrameAck ack).mDelayDdl = s.mDelayDdl := by
  rw [onFrameAck]
  split
  · rfl
  · rfl

theorem Counts.trans {deadline : Time} {s t u : PacketSenderUdp} {acks more : List FrameAckArrival}
    (h : Counts deadline s acks t) (h' : Counts deadline t more u) :
    Counts deadline s (acks ++ more) u where
  finished := by
    rw [h'.finished, h.finished, List.countP_append, UInt64.ofNat_add, UInt64.add_assoc]
  timeout := by
    rw [h'.timeout, h.timeout, List.countP_append, UInt64.ofNat_add, UInt64.add_assoc]
  excludeTen := by
    rw [h'.excludeTen, h.excludeTen, List.countP_append, UInt64.ofNat_add, UInt64.add_assoc]

theorem onFrameAck_counts (s : PacketSenderUdp) (ack : FrameAckArrival) :
    Counts s.mDelayDdl s [ack] (s.onFrameAck ack) := by
  by_cases hTime : OnTime s.mDelayDdl ack
  · have hStep : s.onFrameAck ack = { s with
        finishedFrameCnt := s.finishedFrameCnt + 1
        excludeTenFinishedFrameCnt :=
          if 10 ≤ ack.frameId then s.excludeTenFinishedFrameCnt + 1
          else s.excludeTenFinishedFrameCnt } := if_pos hTime
    rw [hStep]
    refine ⟨?_, ?_, ?_⟩
    · simp [hTime]
    · simp [hTime]
    · by_cases hTen : 10 ≤ ack.frameId
      · simp [hTime, hTen]
      · simp [hTime, hTen]
  · have hStep : s.onFrameAck ack = { s with timeoutFrameCnt := s.timeoutFrameCnt + 1 } :=
      if_neg hTime
    rw [hStep]
    refine ⟨?_, ?_, ?_⟩
    · simp [hTime]
    · simp [hTime]
    · simp [hTime]

theorem foldl_counts (s : PacketSenderUdp) (acks : List FrameAckArrival) :
    Counts s.mDelayDdl s acks (acks.foldl onFrameAck s) := by
  induction acks generalizing s with
  | nil => exact ⟨(UInt64.add_zero _).symm, (UInt64.add_zero _).symm, (UInt64.add_zero _).symm⟩
  | cons ack acks ih =>
    have hRest := ih (s.onFrameAck ack)
    rw [onFrameAck_mDelayDdl] at hRest
    exact (onFrameAck_counts s ack).trans hRest

/-- The sender keeps to the configured deadline exactly when the member happened to hold it before
the constructor ran. -/
theorem counts_configured_iff (storage configured : Time) :
    (∀ acks, Counts configured (create storage configured) acks
      (acks.foldl onFrameAck (create storage configured))) ↔ storage = configured := by
  constructor
  · intro h
    by_contra hNe
    -- An acknowledgement exactly on the later of the two deadlines tells them apart.
    have hSplit : ∀ deadline, OnTime deadline ⟨max storage configured + milliSeconds 1, 0, 0⟩ ↔
        max storage configured ≤ deadline := by
      intro deadline
      simp [OnTime]
    have hClaimed := (h [⟨max storage configured + milliSeconds 1, 0, 0⟩]).finished
    have hActual := (foldl_counts (create storage configured)
      [⟨max storage configured + milliSeconds 1, 0, 0⟩]).finished
    rw [hActual] at hClaimed
    have hMember : (create storage configured).mDelayDdl = storage := rfl
    simp only [hMember, List.countP_singleton, hSplit, decide_eq_true_eq] at hClaimed
    rcases lt_or_gt_of_ne hNe with hLt | hGt
    · rw [max_eq_right hLt.le, if_neg hLt.not_ge, if_pos le_rfl] at hClaimed
      revert hClaimed
      simp
    · rw [max_eq_left hGt.le, if_neg hGt.not_ge, if_pos le_rfl] at hClaimed
      revert hClaimed
      simp
  · rintro rfl acks
    exact foldl_counts (create storage storage) acks

end PacketSenderUdp

open VideoDecoder PacketSenderUdp

/-- In a run that never discards, uncovers or completes a frame outside the in-order loop, the
decoder acknowledges each complete played frame once; and a sender whose deadline member held the
configured deadline before its constructor ran counts every acknowledgement by that deadline. -/
theorem acksOnce_of_run {delayDdl : Time} {fps : UInt16} {start : VideoDecoder}
    (hCreate : VideoDecoder.create delayDdl fps = some start) (calls : List (List DataPacket))
    (hOk : StepsMeet decodePacket AcksPlayed start calls.flatten) {storage configured : Time}
    (hStorage : storage = configured) (acks : List FrameAckArrival) :
    ((1 ≤ start.frameLag → (run decodeDataPacket start calls).isSome) ∧
      ∀ d, run decodeDataPacket start calls = some d → d.AcksOnce) ∧
      Counts configured (PacketSenderUdp.create storage configured) acks
        (acks.foldl onFrameAck (PacketSenderUdp.create storage configured)) :=
  ⟨acksOnce_of_calls hCreate hOk, (counts_configured_iff storage configured).mpr hStorage acks⟩

/-- Frame 0 never completes, and the packet of frame 6 discards what came of it. -/
theorem acksOnce_of_run_late :
    ∃ start d, VideoDecoder.create (milliSeconds 100) 60 = some start ∧
      run decodeDataPacket start [[.ofFrame 0 2 0 0], [.ofFrame 6 1 0 0, .ofFrame 1 1 0 0]] = some d ∧
      d.AcksOnce ∧
      Counts (milliSeconds 100) (PacketSenderUdp.create (milliSeconds 100) (milliSeconds 100))
        [⟨milliSeconds 101, 1, 0⟩]
        ([⟨milliSeconds 101, 1, 0⟩].foldl onFrameAck
          (PacketSenderUdp.create (milliSeconds 100) (milliSeconds 100))) := by
  have hCreate : VideoDecoder.create (milliSeconds 100) 60 = some _ := rfl
  obtain ⟨⟨hReturns, hOnce⟩, hCounts⟩ := acksOnce_of_run hCreate
    [[.ofFrame 0 2 0 0], [.ofFrame 6 1 0 0, .ofFrame 1 1 0 0]] (by decide) rfl
    [⟨milliSeconds 101, 1, 0⟩]
  obtain ⟨d, hRun⟩ := Option.isSome_iff_exists.mp (hReturns (by decide))
  exact ⟨_, d, hCreate, hRun, hOnce d hRun, hCounts⟩

/-- Frame 0 is received completely and played, and no acknowledgement is sent for it. -/
theorem first_frame_not_acked :
    ∃ start d, VideoDecoder.create (milliSeconds 100) 60 = some start ∧
      run decodeDataPacket start (singles [0]) = some d ∧ d.frameAcks = [] ∧ ¬ d.AcksOnce := by
  refine ⟨_, _, rfl, rfl, rfl, fun h => ?_⟩
  have hAcked := (h.acked 0 0).mpr
    ⟨VideoFrame.create (.ofFrame 0 1 0 0), by decide, by decide, by decide⟩
  cases hAcked

end Bullet.Stream
