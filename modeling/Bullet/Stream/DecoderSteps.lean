import Bullet.Stream.VideoDecoder
import Mathlib.Algebra.Group.Int.Defs

/-! # The steps of the decoder

Every loop of the decoder only moves frames from the buffer to the played frames. This module
collects what that keeps, when the loops end, and the shape of one call on one packet.
-/

namespace Bullet.Stream.VideoDecoder

open Lib.PartialRun

/-- Frame `id` waits in the buffer with all its packets. -/
def Ready (d : VideoDecoder) (id : Nat) : Prop :=
  ∃ frame, d.unplayedFrames.lookup id = some (some frame) ∧ frame.Complete

instance (d : VideoDecoder) (id : Nat) : Decidable (d.Ready id) :=
  decidable_of_iff ((d.unplayedFrames.lookup id).join.any (fun frame => decide frame.Complete)) <| by
    rw [Option.any_eq_true]
    simp only [Option.join_eq_some_iff, decide_eq_true_eq, Ready]

/-- With the packet its frame has all its packets. -/
def Completes (d : VideoDecoder) (pkt : DataPacket) : Prop :=
  ∃ frame, d.frameWith pkt.frameId.toNat pkt = some frame ∧ frame.Complete

instance (d : VideoDecoder) (pkt : DataPacket) : Decidable (d.Completes pkt) :=
  decidable_of_iff ((d.frameWith pkt.frameId.toNat pkt).any (fun frame => decide frame.Complete)) <| by
    rw [Option.any_eq_true]
    simp only [decide_eq_true_eq, Completes]

/-- The packet completes frame 0, which has not been played. -/
def CompletesFirst (d : VideoDecoder) (pkt : DataPacket) : Prop :=
  pkt.frameId.toNat = 0 ∧ 0 ∉ d.playedFrames ∧ d.Completes pkt

instance (d : VideoDecoder) (pkt : DataPacket) : Decidable (d.CompletesFirst pkt) :=
  inferInstanceAs (Decidable (_ ∧ _ ∧ _))

theorem store_lookup_self (d : VideoDecoder) (frameId : Nat) (frame : VideoFrame) :
    (d.store frameId frame).unplayedFrames.lookup frameId = some (some frame) :=
  AList.lookup_insert _

theorem store_lookup_ne (d : VideoDecoder) {id frameId : Nat} (frame : VideoFrame)
    (h : id ≠ frameId) :
    (d.store frameId frame).unplayedFrames.lookup id = d.unplayedFrames.lookup id :=
  AList.lookup_insert_ne h

theorem play_lookup_self (d : VideoDecoder) (idx : Nat) (frame : Option VideoFrame) :
    (d.play idx frame).unplayedFrames.lookup idx = none :=
  AList.lookup_erase _ _

theorem play_lookup_ne (d : VideoDecoder) {id idx : Nat} (frame : Option VideoFrame) (h : id ≠ idx) :
    (d.play idx frame).unplayedFrames.lookup id = d.unplayedFrames.lookup id :=
  AList.lookup_erase_ne h

/-- Frames only move from the buffer to the played frames. -/
structure Plays (d d' : VideoDecoder) : Prop where
  lookup : ∀ id, d'.unplayedFrames.lookup id = d.unplayedFrames.lookup id ∨ id ∉ d'.unplayedFrames
  played : ∀ id ∈ d.playedFrames, id ∈ d'.playedFrames
  maxFrameId : d'.maxFrameId = d.maxFrameId
  delayDdl : d'.delayDdl = d.delayDdl
  frameInterval : d'.frameInterval = d.frameInterval

theorem Plays.refl (d : VideoDecoder) : Plays d d :=
  ⟨fun _ => .inl rfl, fun _ h => h, rfl, rfl, rfl⟩

theorem Plays.trans {d e f : VideoDecoder} (h : Plays d e) (h' : Plays e f) : Plays d f where
  lookup id := by
    rcases h'.lookup id with hSame | hGone
    · rcases h.lookup id with hSame' | hGone'
      · exact .inl (hSame.trans hSame')
      · refine .inr ?_
        rw [← AList.lookup_eq_none, hSame]
        exact AList.lookup_eq_none.mpr hGone'
    · exact .inr hGone
  played id hId := h'.played id (h.played id hId)
  maxFrameId := h'.maxFrameId.trans h.maxFrameId
  delayDdl := h'.delayDdl.trans h.delayDdl
  frameInterval := h'.frameInterval.trans h.frameInterval

theorem Plays.frameLag {d d' : VideoDecoder} (h : Plays d d') : d'.frameLag = d.frameLag := by
  rw [VideoDecoder.frameLag, h.delayDdl, h.frameInterval, VideoDecoder.frameLag]

theorem Plays.mem {d d' : VideoDecoder} (h : Plays d d') {id : Nat} (hId : id ∈ d'.unplayedFrames) :
    id ∈ d.unplayedFrames := by
  rcases h.lookup id with hSame | hGone
  · rw [← AList.lookup_isSome, ← hSame]
    exact AList.lookup_isSome.mpr hId
  · exact absurd hId hGone

theorem Plays.ready {d d' : VideoDecoder} (h : Plays d d') {id : Nat} (hReady : d'.Ready id) :
    d.Ready id := by
  obtain ⟨frame, hLookup, hComplete⟩ := hReady
  rcases h.lookup id with hSame | hGone
  · exact ⟨frame, hSame.symm.trans hLookup, hComplete⟩
  · rw [AList.lookup_eq_none.mpr hGone] at hLookup
    cases hLookup

theorem play_plays (d : VideoDecoder) (idx : Nat) (frame : Option VideoFrame) :
    Plays d (d.play idx frame) where
  lookup id := by
    by_cases hId : id = idx
    · refine .inr ?_
      rw [hId]
      exact fun h => (AList.mem_erase.mp h).1 rfl
    · exact .inl (AList.lookup_erase_ne hId)
  played _ hId := (AList.mem_insert _).mpr (.inr hId)
  maxFrameId := rfl
  delayDdl := rfl
  frameInterval := rfl

theorem playComplete_plays (ack : Bool) (d : VideoDecoder) (idx : Nat) (frame : VideoFrame) :
    Plays d (d.playComplete ack idx frame) := by
  have h := play_plays d idx (some frame)
  cases ack with
  | false => exact h
  | true => exact ⟨h.lookup, h.played, h.maxFrameId, h.delayDdl, h.frameInterval⟩

theorem playComplete_nextFrameId (ack : Bool) (d : VideoDecoder) (idx : Nat) (frame : VideoFrame) :
    (d.playComplete ack idx frame).nextFrameId = nextId idx := by
  cases ack with
  | false => rfl
  | true => rfl

/-- What the buffer of a decoder always satisfies. -/
structure BufferSound (d : VideoDecoder) : Prop where
  le_max : ∀ id ∈ d.unplayedFrames, id ≤ d.maxFrameId
  real : ∀ id, d.unplayedFrames.lookup id ≠ some none

theorem BufferSound.plays {d d' : VideoDecoder} (h : d.BufferSound) (hPlays : Plays d d') :
    d'.BufferSound where
  le_max id hId := by
    rw [hPlays.maxFrameId]
    exact h.le_max id (hPlays.mem hId)
  real id hNull := by
    rcases hPlays.lookup id with hSame | hGone
    · exact h.real id (hSame.symm.trans hNull)
    · rw [AList.lookup_eq_none.mpr hGone] at hNull
      cases hNull

theorem BufferSound.store {d : VideoDecoder} (h : d.BufferSound) (frameId : Nat)
    (frame : VideoFrame) : (d.store frameId frame).BufferSound where
  le_max id hId := by
    change id ≤ max d.maxFrameId frameId
    rcases (AList.mem_insert _).mp hId with rfl | hId
    · exact Nat.le_max_right _ _
    · exact (h.le_max id hId).trans (Nat.le_max_left _ _)
  real id hNull := by
    by_cases hId : id = frameId
    · rw [hId, store_lookup_self] at hNull
      cases hNull
    · rw [store_lookup_ne d frame hId] at hNull
      exact h.real id hNull

section Drain

variable {ack : Bool}

theorem drainLoop_plays {fuel idx : Nat} {d d' : VideoDecoder}
    (h : drainLoop ack fuel idx d = some d') : Plays d d' := by
  induction fuel generalizing idx d with
  | zero => cases h
  | succ fuel ih =>
    rw [drainLoop] at h
    split at h
    · split at h
      · cases h
        exact Plays.refl _
      · cases h
      · next frame _ =>
        split at h
        · exact (playComplete_plays ack d idx frame).trans (ih h)
        · cases h
          exact Plays.refl _
    · cases h
      exact Plays.refl _

/-- The fuel of `drain` is never used up. -/
theorem drainLoop_isSome {fuel idx : Nat} {d : VideoDecoder} (hSound : d.BufferSound)
    (hFuel : d.unplayedFrames.keys.length < fuel) : (drainLoop ack fuel idx d).isSome := by
  induction fuel generalizing idx d with
  | zero => exact absurd hFuel (Nat.not_lt_zero _)
  | succ fuel ih =>
    rw [drainLoop]
    split
    · split
      · rfl
      · next hNull => exact absurd hNull (hSound.real idx)
      · next frame hLookup =>
        split
        · refine ih (hSound.plays (playComplete_plays ack d idx frame)) ?_
          have hMem : idx ∈ d.unplayedFrames.keys :=
            AList.mem_keys.mp (AList.lookup_isSome.mp (Option.isSome_of_eq_some hLookup))
          have hKeys : (d.playComplete ack idx frame).unplayedFrames.keys =
              d.unplayedFrames.keys.erase idx := by
            rw [← AList.keys_erase]
            cases ack with
            | false => rfl
            | true => rfl
          rw [hKeys, List.length_erase_of_mem hMem]
          have := List.length_pos_of_mem hMem
          omega
        · rfl
    · rfl

theorem drain_isSome {idx : Nat} {d : VideoDecoder} (hSound : d.BufferSound) :
    (drain ack idx d).isSome :=
  drainLoop_isSome hSound (Nat.lt_succ_self _)

end Drain

section Skip

theorem skipFrame_isSome {d : VideoDecoder} (idx : Nat) (hSound : d.BufferSound) :
    (skipFrame idx d).isSome :=
  drain_isSome (hSound.plays (play_plays d idx _))

theorem skipFrame_plays {idx : Nat} {d d' : VideoDecoder} (h : skipFrame idx d = some d') :
    Plays d d' :=
  (play_plays d idx _).trans (drainLoop_plays h)

theorem skipFrame_mem {idx : Nat} {d d' : VideoDecoder} (h : skipFrame idx d = some d') :
    idx ∈ d'.playedFrames :=
  (drainLoop_plays h).played idx ((AList.mem_insert _).mpr (.inl rfl))

theorem skipLoop_plays {limit : Int} {fuel idx : Nat} {d d' : VideoDecoder}
    (h : skipLoop limit fuel idx d = some d') : Plays d d' := by
  induction fuel generalizing idx d with
  | zero => cases h
  | succ fuel ih =>
    rw [skipLoop] at h
    split at h
    · obtain ⟨e, hFirst, hRest⟩ := Option.bind_eq_some_iff.mp h
      exact (skipFrame_plays hFirst).trans (ih hRest)
    · cases h
      exact Plays.refl _

theorem skipStale_eq (d : VideoDecoder) (limit : Int) :
    d.skipStale limit =
      if (d.nextFrameId : Int) ≤ limit then
        (skipFrame d.nextFrameId d).bind (skipLoop limit (2 ^ 32 - 1) (nextId d.nextFrameId))
      else some d := by
  change skipLoop limit ((2 ^ 32 - 1) + 1) d.nextFrameId d = _
  rw [skipLoop]

theorem skipStale_eq_self {d : VideoDecoder} {limit : Int} (hLimit : limit < d.nextFrameId) :
    d.skipStale limit = some d := by
  rw [skipStale_eq, if_neg (by omega)]

/-- The deadline loop ends when its limit is below the largest frame id. -/
theorem skipLoop_isSome {limit : Int} (hLimit : limit < 2 ^ 32 - 1) {fuel idx : Nat}
    {d : VideoDecoder} (hSound : d.BufferSound) (hIdx : idx < 2 ^ 32) (hFuel : 0 < fuel)
    (hRounds : limit < idx + fuel - 1) : (skipLoop limit fuel idx d).isSome := by
  induction fuel generalizing idx d with
  | zero => exact absurd hFuel (Nat.lt_irrefl 0)
  | succ fuel ih =>
    rw [skipLoop]
    split
    · next hMore =>
      obtain ⟨e, hFirst⟩ := Option.isSome_iff_exists.mp (skipFrame_isSome idx hSound)
      have hNext : nextId idx = idx + 1 := Nat.mod_eq_of_lt (by omega)
      rw [hFirst, Option.bind_some]
      exact ih (hSound.plays (skipFrame_plays hFirst)) (by omega) (by omega) (by omega)
    · rfl

end Skip

/-- What a call does to one packet: nothing for a played frame, otherwise it skips what is past the
deadline, stores the packet and plays what the packet completed. -/
theorem decodePacket_cases {d d' : VideoDecoder} {pkt : DataPacket}
    (h : decodePacket d pkt = some d') :
    (pkt.frameId.toNat ∈ d.playedFrames ∧ d' = d) ∨
      (pkt.frameId.toNat ∉ d.playedFrames ∧ ∃ limit s frame,
        d.skipLimit pkt.frameId.toNat = some limit ∧ d.skipStale limit = some s ∧
        s.frameWith pkt.frameId.toNat pkt = some frame ∧
        (frame.Complete →
          (s.store pkt.frameId.toNat frame).frameCompleted pkt.frameId.toNat frame = some d') ∧
        (¬ frame.Complete → d' = s.store pkt.frameId.toNat frame)) := by
  rw [decodePacket] at h
  split at h
  · next hPlayed =>
    cases h
    exact .inl ⟨hPlayed, rfl⟩
  · next hNew =>
    obtain ⟨limit, hLimit, h⟩ := Option.bind_eq_some_iff.mp h
    obtain ⟨s, hSkip, h⟩ := Option.bind_eq_some_iff.mp h
    obtain ⟨frame, hFrame, h⟩ := Option.bind_eq_some_iff.mp h
    refine .inr ⟨hNew, limit, s, frame, hLimit, hSkip, hFrame, fun hComplete => ?_, fun hPartial => ?_⟩
    · rwa [if_pos hComplete] at h
    · rw [if_neg hPartial] at h
      exact (Option.some.inj h).symm

theorem decodePacket_of_new {d s : VideoDecoder} {pkt : DataPacket} {limit : Int}
    {frame : VideoFrame} (hNew : pkt.frameId.toNat ∉ d.playedFrames)
    (hLimit : d.skipLimit pkt.frameId.toNat = some limit) (hSkip : d.skipStale limit = some s)
    (hFrame : s.frameWith pkt.frameId.toNat pkt = some frame) :
    decodePacket d pkt =
      if frame.Complete then
        (s.store pkt.frameId.toNat frame).frameCompleted pkt.frameId.toNat frame
      else some (s.store pkt.frameId.toNat frame) := by
  rw [decodePacket, if_neg hNew, hLimit]
  simp only [Option.bind_eq_bind, Option.bind_some, hSkip, hFrame]

theorem frameWith_isSome {d : VideoDecoder} (hSound : d.BufferSound) (frameId : Nat)
    (pkt : DataPacket) : (d.frameWith frameId pkt).isSome := by
  rw [frameWith]
  split
  · rfl
  · next hNull => exact absurd hNull (hSound.real frameId)
  · rfl

theorem frameCompleted_plays {d d' : VideoDecoder} {frameId : Nat} {frame : VideoFrame}
    (h : d.frameCompleted frameId frame = some d') : Plays d d' := by
  rw [frameCompleted] at h
  split at h
  · cases h
    exact play_plays d frameId (some frame)
  · split at h
    · exact drainLoop_plays h
    · cases h
      exact Plays.refl _

/-- A packet of an unplayed frame skips frames, is stored, and lets frames be played. -/
theorem decodePacket_plays {d d' : VideoDecoder} {pkt : DataPacket} (h : decodePacket d pkt = some d')
    (hNew : pkt.frameId.toNat ∉ d.playedFrames) :
    ∃ s frame, Plays d s ∧ Plays (s.store pkt.frameId.toNat frame) d' := by
  rcases decodePacket_cases h with ⟨hPlayed, -⟩ | ⟨-, limit, s, frame, -, hSkip, -, hFull, hPartial⟩
  · exact absurd hPlayed hNew
  · refine ⟨s, frame, skipLoop_plays hSkip, ?_⟩
    by_cases hComplete : frame.Complete
    · exact frameCompleted_plays (hFull hComplete)
    · rw [hPartial hComplete]
      exact Plays.refl _

theorem decodePacket_sound {d d' : VideoDecoder} {pkt : DataPacket} (hSound : d.BufferSound)
    (h : decodePacket d pkt = some d') : d'.BufferSound ∧ d'.frameLag = d.frameLag := by
  by_cases hPlayed : pkt.frameId.toNat ∈ d.playedFrames
  · rw [decodePacket, if_pos hPlayed] at h
    cases h
    exact ⟨hSound, rfl⟩
  · obtain ⟨s, frame, hSkip, hRest⟩ := decodePacket_plays h hPlayed
    exact ⟨((hSound.plays hSkip).store _ _).plays hRest, hRest.frameLag.trans hSkip.frameLag⟩

theorem frameCompleted_isSome {d : VideoDecoder} (hSound : d.BufferSound) (frameId : Nat)
    (frame : VideoFrame) : (d.frameCompleted frameId frame).isSome := by
  rw [frameCompleted]
  split
  · rfl
  · split
    · exact drain_isSome hSound
    · rfl

theorem skipLimit_of_lag {d : VideoDecoder} (hLag : 1 ≤ d.frameLag) (frameId : Nat) :
    d.skipLimit frameId = some (frameId - d.frameLag) := by
  rw [skipLimit, if_neg]
  intro hZero
  have hNone : d.frameLag = 0 := by
    rw [frameLag, hZero]
    exact Int.tdiv_zero _
  omega

theorem skipStale_isSome {d : VideoDecoder} (hSound : d.BufferSound) (hLag : 1 ≤ d.frameLag)
    (pkt : DataPacket) : (d.skipStale (pkt.frameId.toNat - d.frameLag)).isSome := by
  have hId : pkt.frameId.toNat < 2 ^ 32 := pkt.frameId.toNat_lt
  have hIdx : d.nextFrameId < 2 ^ 32 := Nat.mod_lt _ (by omega)
  exact skipLoop_isSome (by omega) hSound hIdx (by omega) (by omega)

/-- With a deadline of at least one frame interval every packet is processed to the end. -/
theorem decodePacket_isSome {d : VideoDecoder} (hSound : d.BufferSound) (hLag : 1 ≤ d.frameLag)
    (pkt : DataPacket) : (decodePacket d pkt).isSome := by
  by_cases hPlayed : pkt.frameId.toNat ∈ d.playedFrames
  · rw [decodePacket, if_pos hPlayed]
    rfl
  · obtain ⟨s, hSkip⟩ := Option.isSome_iff_exists.mp (skipStale_isSome hSound hLag pkt)
    have hSoundS := hSound.plays (skipLoop_plays hSkip)
    obtain ⟨frame, hFrame⟩ := Option.isSome_iff_exists.mp
      (frameWith_isSome hSoundS pkt.frameId.toNat pkt)
    rw [decodePacket_of_new hPlayed (skipLimit_of_lag hLag _) hSkip hFrame]
    split
    · exact frameCompleted_isSome (hSoundS.store _ _) _ _
    · rfl

/-- The calls on a decoder with a deadline of at least one frame interval all return. -/
theorem decodePacket_advances :
    Advances decodePacket (fun _ _ => True) (fun d => d.BufferSound ∧ 1 ≤ d.frameLag)
      (fun d d' => d'.frameLag = d.frameLag) where
  refl _ := rfl
  trans _ _ _ h h' := h'.trans h
  advance d pkt hInv _ := by
    obtain ⟨d', h⟩ := Option.isSome_iff_exists.mp (decodePacket_isSome hInv.1 hInv.2 pkt)
    obtain ⟨hSound, hLag⟩ := decodePacket_sound hInv.1 h
    exact ⟨d', h, ⟨hSound, hLag.trans_ge hInv.2⟩, hLag⟩

/-- Calls with one packet each, every frame of one packet. -/
def singles (ids : List UInt32) : List (List DataPacket) :=
  ids.map fun id => [DataPacket.ofFrame id 1 0 0]

end Bullet.Stream.VideoDecoder
