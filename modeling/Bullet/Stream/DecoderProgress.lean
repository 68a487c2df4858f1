import Bullet.Stream.DecoderSteps

/-! # Progress of the decoder

After a packet the frame that follows the last played one is not complete in the buffer. The
branch of frame 0 plays that frame alone, so the statement asks that frame 1 is not waiting there.
-/

namespace Bullet.Stream.VideoDecoder

open Lib.PartialRun

/-- The frame after the last played one is not ready. -/
def Caught (d : VideoDecoder) : Prop := ¬ d.Ready d.nextFrameId

instance (d : VideoDecoder) : Decidable d.Caught :=
  inferInstanceAs (Decidable (¬ _))

/-- The loop stops at a frame that is not ready, which is the next one to play. -/
theorem drainLoop_caught {ack : Bool} {fuel idx : Nat} {d d' : VideoDecoder} (hSound : d.BufferSound)
    (hIdx : idx = d.nextFrameId) (h : drainLoop ack fuel idx d = some d') : d'.Caught := by
  induction fuel generalizing idx d with
  | zero => cases h
  | succ fuel ih =>
    rw [drainLoop] at h
    split at h
    · split at h
      · next hLookup =>
        cases h
        rintro ⟨frame, hFrame, -⟩
        rw [← hIdx, hLookup] at hFrame
        cases hFrame
      · cases h
      · next frame hLookup =>
        split at h
        · exact ih (hSound.plays (playComplete_plays ack d idx frame))
            (playComplete_nextFrameId ack d idx frame).symm h
        · next hPartial =>
          cases h
          rintro ⟨frame', hFrame, hComplete⟩
          rw [← hIdx, hLookup] at hFrame
          cases hFrame
          exact hPartial hComplete
    · next hMax =>
      cases h
      rintro ⟨frame, hFrame, -⟩
      rw [← hIdx] at hFrame
      exact hMax (hSound.le_max idx (AList.lookup_isSome.mp (Option.isSome_of_eq_some hFrame)))

theorem skipFrame_caught {idx : Nat} {d d' : VideoDecoder} (hSound : d.BufferSound)
    (h : skipFrame idx d = some d') : d'.Caught :=
  drainLoop_caught (hSound.plays (play_plays d idx _)) rfl h

theorem skipLoop_caught {limit : Int} {fuel idx : Nat} {d d' : VideoDecoder}
    (hSound : d.BufferSound) (hCaught : d.Caught) (h : skipLoop limit fuel idx d = some d') :
    d'.Caught := by
  induction fuel generalizing idx d with
  | zero => cases h
  | succ fuel ih =>
    rw [skipLoop] at h
    split at h
    · obtain ⟨e, hFirst, hRest⟩ := Option.bind_eq_some_iff.mp h
      exact ih (hSound.plays (skipFrame_plays hFirst)) (skipFrame_caught hSound hFirst) hRest
    · cases h
      exact hCaught

theorem store_caught {s : VideoDecoder} {frameId : Nat} {frame : VideoFrame} (hCaught : s.Caught)
    (hNext : frameId = s.nextFrameId → ¬ frame.Complete) : (s.store frameId frame).Caught := by
  rintro ⟨frame', hLookup, hComplete⟩
  change (s.store frameId frame).unplayedFrames.lookup s.nextFrameId = _ at hLookup
  by_cases hId : s.nextFrameId = frameId
  · rw [hId, store_lookup_self] at hLookup
    cases hLookup
    exact hNext hId.symm hComplete
  · rw [store_lookup_ne s frame hId] at hLookup
    exact hCaught ⟨frame', hLookup, hComplete⟩

/-- Frame 0 played alone leaves frame 1 as the next one. -/
theorem playFirst_caught {s : VideoDecoder} {frame : VideoFrame} (hSecond : ¬ s.Ready 1) :
    ((s.store 0 frame).play 0 (some frame)).Caught := by
  rintro ⟨frame', hLookup, hComplete⟩
  change ((s.store 0 frame).play 0 (some frame)).unplayedFrames.lookup 1 = _ at hLookup
  rw [play_lookup_ne _ _ Nat.one_ne_zero, store_lookup_ne _ _ Nat.one_ne_zero] at hLookup
  exact hSecond ⟨frame', hLookup, hComplete⟩

/-- A decoder without delay has discarded frame 0 once it has seen a packet. -/
def Started (d : VideoDecoder) : Prop :=
  1 ≤ d.frameLag ∨ 0 ∈ d.playedFrames ∨ (d.unplayedFrames = ∅ ∧ d.nextFrameId = 0)

theorem skipStale_started {d s : VideoDecoder} {frameId : Nat} {limit : Int} (hStarted : d.Started)
    (hLimit : d.skipLimit frameId = some limit) (hSkip : d.skipStale limit = some s) :
    1 ≤ s.frameLag ∨ 0 ∈ s.playedFrames := by
  have hPlays : Plays d s := skipLoop_plays hSkip
  rw [hPlays.frameLag]
  rcases hStarted with hLag | hZero | ⟨-, hNext⟩
  · exact .inl hLag
  · exact .inr (hPlays.played 0 hZero)
  · by_cases hLag : 1 ≤ d.frameLag
    · exact .inl hLag
    · refine .inr ?_
      rw [skipLimit] at hLimit
      split at hLimit
      · cases hLimit
      · have hFirst : ((0 : Nat) : Int) ≤ limit := by
          rw [← Option.some.inj hLimit]
          omega
        rw [skipStale_eq, hNext, if_pos hFirst] at hSkip
        obtain ⟨e, hFrame, hRest⟩ := Option.bind_eq_some_iff.mp hSkip
        exact (skipLoop_plays hRest).played 0 (skipFrame_mem hFrame)

theorem started_of_plays {s d' : VideoDecoder} (h : 1 ≤ s.frameLag ∨ 0 ∈ s.playedFrames)
    (hPlays : Plays s d') : d'.Started := by
  rcases h with hLag | hZero
  · exact .inl (hPlays.frameLag.trans_ge hLag)
  · exact .inr (.inl (hPlays.played 0 hZero))

structure ProgressInv (d : VideoDecoder) : Prop where
  sound : d.BufferSound
  caught : d.Caught
  started : d.Started

/-- Frame 1 does not wait when the packet completes frame 0. -/
def FirstCompletesAlone (d : VideoDecoder) (pkt : DataPacket) : Prop :=
  d.CompletesFirst pkt → ¬ d.Ready 1

instance (d : VideoDecoder) (pkt : DataPacket) : Decidable (d.FirstCompletesAlone pkt) :=
  inferInstanceAs (Decidable (_ → _))

theorem second_not_ready {d s : VideoDecoder} {pkt : DataPacket} {limit : Int} {frame : VideoFrame}
    (hInv : d.ProgressInv) (hOk : d.FirstCompletesAlone pkt) (hZero : pkt.frameId.toNat = 0)
    (hNew : pkt.frameId.toNat ∉ d.playedFrames) (hLimit : d.skipLimit pkt.frameId.toNat = some limit)
    (hSkip : d.skipStale limit = some s) (hFrame : s.frameWith pkt.frameId.toNat pkt = some frame)
    (hComplete : frame.Complete) : ¬ s.Ready 1 := by
  by_cases hLag : 1 ≤ d.frameLag
  · have hSame : s = d := by
      rw [skipLimit] at hLimit
      split at hLimit
      · cases hLimit
      · have hNegative : limit < d.nextFrameId := by
          rw [← Option.some.inj hLimit]
          omega
        exact Option.some.inj (hSkip.symm.trans (skipStale_eq_self hNegative))
    rw [hSame] at hFrame ⊢
    exact hOk ⟨hZero, hZero ▸ hNew, frame, hFrame, hComplete⟩
  · rintro ⟨frame', hLookup, -⟩
    have hMem := (skipLoop_plays hSkip).mem
      (AList.lookup_isSome.mp (Option.isSome_of_eq_some hLookup))
    rcases hInv.started with hPos | hPlayed | ⟨hEmpty, -⟩
    · exact hLag hPos
    · exact hNew (hZero ▸ hPlayed)
    · rw [hEmpty] at hMem
      exact AList.notMem_empty 1 hMem

theorem decodePacket_progress {d d' : VideoDecoder} {pkt : DataPacket} (hInv : d.ProgressInv)
    (hOk : d.FirstCompletesAlone pkt) (h : decodePacket d pkt = some d') : d'.ProgressInv := by
  rcases decodePacket_cases h with
    ⟨-, rfl⟩ | ⟨hNew, limit, s, frame, hLimit, hSkip, hFrame, hFull, hPartial⟩
  · exact hInv
  · have hSound : (s.store pkt.frameId.toNat frame).BufferSound :=
      (hInv.sound.plays (skipLoop_plays hSkip)).store _ _
    have hCaught : s.Caught := skipLoop_caught hInv.sound hInv.caught hSkip
    have hStarted : 1 ≤ s.frameLag ∨ 0 ∈ s.playedFrames :=
      skipStale_started hInv.started hLimit hSkip
    by_cases hComplete : frame.Complete
    · have hPlay := hFull hComplete
      have hPlays := frameCompleted_plays hPlay
      refine ⟨hSound.plays hPlays, ?_, started_of_plays (s := s.store _ frame) hStarted hPlays⟩
      rw [frameCompleted] at hPlay
      split at hPlay
      · next hZero =>
        rw [hZero] at hPlay
        cases hPlay
        exact playFirst_caught
          (second_not_ready hInv hOk hZero hNew hLimit hSkip hFrame hComplete)
      · split at hPlay
        · next hNext => exact drainLoop_caught hSound hNext hPlay
        · next hNext =>
          cases hPlay
          exact store_caught hCaught fun hEq => absurd hEq hNext
    · rw [hPartial hComplete]
      exact ⟨hSound, store_caught hCaught fun _ => hComplete,
        hStarted.elim .inl fun hZero => .inr (.inl hZero)⟩

theorem create_progress {delayDdl : Time} {fps : UInt16} {d : VideoDecoder}
    (h : create delayDdl fps = some d) : d.ProgressInv := by
  rw [create] at h
  split at h
  · cases h
  · cases h
    have hNext : nextId (2 ^ 32 - 1) = 0 := by decide
    refine ⟨⟨fun id hId => absurd hId (AList.notMem_empty id), fun id hNull => by cases hNull⟩, ?_,
      .inr (.inr ⟨rfl, hNext⟩)⟩
    rintro ⟨frame, hLookup, -⟩
    cases hLookup

/-- In a run in which frame 1 never waits when frame 0 completes, no call leaves a complete frame
behind the last played one. With a deadline of at least one frame interval every call returns. -/
theorem caught_of_run {delayDdl : Time} {fps : UInt16} {start : VideoDecoder}
    (hCreate : create delayDdl fps = some start) (calls : List (List DataPacket))
    (hOk : StepsMeet decodePacket FirstCompletesAlone start calls.flatten) :
    (1 ≤ start.frameLag → (run decodeDataPacket start calls).isSome) ∧
      ∀ d, run decodeDataPacket start calls = some d → d.Caught := by
  have hInv := create_progress hCreate
  change (_ → (run (run decodePacket) start calls).isSome) ∧
    ∀ d, run (run decodePacket) start calls = some d → d.Caught
  rw [run_flatten]
  constructor
  · intro hLag
    obtain ⟨d, hRun, -⟩ := decodePacket_advances.run ⟨hInv.sound, hLag⟩
      (hOk.mono fun _ _ _ => trivial)
    exact Option.isSome_of_eq_some hRun
  · intro d hRun
    have hEnd : d.ProgressInv :=
      invariant_of_run (fun s pkt t hS hOkS hStep => decodePacket_progress hS hOkS hStep) hInv hOk hRun
    exact hEnd.caught

theorem caught_of_run_reordered :
    ∃ start, create (milliSeconds 100) 60 = some start ∧
      (run decodeDataPacket start (singles [2, 0, 1])).isSome ∧
      ∀ d, run decodeDataPacket start (singles [2, 0, 1]) = some d → d.Caught := by
  have hCreate : create (milliSeconds 100) 60 = some _ := rfl
  obtain ⟨hReturns, hCaught⟩ := caught_of_run hCreate (singles [2, 0, 1]) (by decide)
  exact ⟨_, hCreate, hReturns (by decide), hCaught⟩

/-- Frame 1 arrives first and stays in the buffer when frame 0 is played. -/
theorem second_frame_stalls :
    ∃ start d, create (milliSeconds 100) 60 = some start ∧
      run decodeDataPacket start (singles [1, 0]) = some d ∧ ¬ d.Caught :=
  ⟨_, _, rfl, rfl, by decide⟩

end Bullet.Stream.VideoDecoder
