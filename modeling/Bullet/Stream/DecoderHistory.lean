import Bullet.Lib.StampedList
import Bullet.Stream.DecoderSteps

/-! # The decoder as an append-only play-out history

The intended component plays or discards the frames in the order of their ids and never takes a
decision back: its state is the list of outcomes so far, a discarded frame being the packets that
came of it, or nothing. `Records` relates a decoder to such a history, and the calls that respect
the deadline only append to it.
-/

namespace Bullet.Stream.VideoDecoder

open Lib.PartialRun Lib.StampedList

structure Records (d : VideoDecoder) (history : List (Option VideoFrame)) : Prop where
  sound : d.BufferSound
  played : ∀ id, d.playedFrames.lookup id = history[id]?
  cursor : d.lastPlayedFrameId = (history.length + (2 ^ 32 - 1)) % 2 ^ 32
  bounded : history.length ≤ 2 ^ 32
  waiting : ∀ id ∈ d.unplayedFrames,
    history.length ≤ id ∧ (id : Int) < history.length + d.frameLag ∧ id < 2 ^ 32

section Records

variable {d : VideoDecoder} {history : List (Option VideoFrame)}

theorem Records.nextFrameId (h : d.Records history) : d.nextFrameId = history.length % 2 ^ 32 := by
  rw [VideoDecoder.nextFrameId, nextId, h.cursor]
  omega

theorem Records.nextFrameId_of_lt (h : d.Records history) (hLt : history.length < 2 ^ 32) :
    d.nextFrameId = history.length := by
  rw [h.nextFrameId, Nat.mod_eq_of_lt hLt]

theorem Records.mem_played (h : d.Records history) {id : Nat} :
    id ∈ d.playedFrames ↔ id < history.length := by
  rw [← AList.lookup_isSome, h.played id]
  simp

/-- A ready next frame lies right behind the history. -/
theorem Records.next_of_mem (h : d.Records history) (hMem : d.nextFrameId ∈ d.unplayedFrames) :
    history.length < 2 ^ 32 := by
  have hWaiting := h.waiting d.nextFrameId hMem
  rw [h.nextFrameId] at hWaiting
  have := Nat.mod_lt history.length (show 0 < 2 ^ 32 by omega)
  omega

theorem Records.play (h : d.Records history) (hLt : history.length < 2 ^ 32)
    (outcome : Option VideoFrame) :
    (d.play history.length outcome).Records (history ++ [outcome]) where
  sound := h.sound.plays (play_plays d _ _)
  played id := by
    change (d.playedFrames.insert history.length outcome).lookup id = _
    by_cases hId : id = history.length
    · rw [hId, AList.lookup_insert, List.getElem?_concat_length]
    · rw [AList.lookup_insert_ne hId, h.played id, List.getElem?_append]
      split
      · rfl
      · rw [List.getElem?_eq_none (by omega), List.getElem?_eq_none (by simp; omega)]
  cursor := by
    change history.length = _
    rw [List.length_append, List.length_singleton]
    omega
  bounded := by
    rw [List.length_append, List.length_singleton]
    omega
  waiting id hId := by
    obtain ⟨hNe, hMem⟩ := AList.mem_erase.mp hId
    have := h.waiting id hMem
    rw [List.length_append, List.length_singleton, (play_plays d history.length outcome).frameLag]
    omega

theorem Records.replyFrameAck (h : d.Records history) (idx : Nat) (frame : VideoFrame) :
    (d.replyFrameAck idx frame).Records history :=
  ⟨⟨h.sound.le_max, h.sound.real⟩, h.played, h.cursor, h.bounded, h.waiting⟩

theorem Records.playComplete (h : d.Records history) (hLt : history.length < 2 ^ 32) (ack : Bool)
    (frame : VideoFrame) :
    (d.playComplete ack history.length frame).Records (history ++ [some frame]) := by
  cases ack with
  | false => exact h.play hLt (some frame)
  | true => exact (h.play hLt (some frame)).replyFrameAck _ _

theorem Records.store (h : d.Records history) {frameId : Nat} (hNew : history.length ≤ frameId)
    (hLag : (frameId : Int) < history.length + d.frameLag) (hId : frameId < 2 ^ 32)
    (frame : VideoFrame) : (d.store frameId frame).Records history where
  sound := h.sound.store frameId frame
  played := h.played
  cursor := h.cursor
  bounded := h.bounded
  waiting id hMem := by
    rcases (AList.mem_insert _).mp hMem with rfl | hMem
    · exact ⟨hNew, hLag, hId⟩
    · exact h.waiting id hMem

end Records

/-- The acknowledgement an outcome asks for. -/
def ackStamp (outcome : Option VideoFrame) : Option Time :=
  outcome.bind fun frame => if frame.Complete then some frame.encodeTime else none

theorem ackStamp_eq_some {outcome : Option VideoFrame} {time : Time} :
    ackStamp outcome = some time ↔
      ∃ frame, outcome = some frame ∧ frame.Complete ∧ time = frame.encodeTime := by
  cases outcome with
  | none => simp [ackStamp]
  | some frame => simp [ackStamp, eq_comm]

theorem ackStamp_of_complete {frame : VideoFrame} (h : frame.Complete) :
    ackStamp (some frame) = some frame.encodeTime :=
  ackStamp_eq_some.mpr ⟨frame, rfl, h, rfl⟩

theorem playComplete_frameAcks {d : VideoDecoder} {idx : Nat} {frame : VideoFrame}
    (ack : Bool) (h : frame.Complete) :
    (d.playComplete ack idx frame).frameAcks =
      d.frameAcks ++ if ack then stamped ackStamp idx [some frame] else [] := by
  cases ack with
  | false => exact (List.append_nil _).symm
  | true =>
    change d.frameAcks ++ [(idx, frame.encodeTime)] = _
    rw [if_pos rfl, stamped, List.zipIdx_singleton, List.filterMap_cons_some
      (by rw [ackStamp_of_complete h, Option.map_some]), List.filterMap_nil]

section Drain

variable {ack : Bool} {history : List (Option VideoFrame)}

/-- The outcomes a drain loop appends: complete frames, none of them behind an absent id. -/
structure DrainsTo (ack : Bool) (d : VideoDecoder) (history : List (Option VideoFrame))
    (frames : List VideoFrame) (d' : VideoDecoder) : Prop where
  records : d'.Records (history ++ frames.map some)
  complete : ∀ frame ∈ frames, frame.Complete
  stops : ∀ id, history.length ≤ id → id ∉ d.unplayedFrames → history.length + frames.length ≤ id
  started : frames ≠ [] → d.Ready d.nextFrameId
  idle : frames = [] → d' = d
  frameAcks : d'.frameAcks =
    d.frameAcks ++ if ack then stamped ackStamp history.length (frames.map some) else []

theorem DrainsTo.nil {d : VideoDecoder} (h : d.Records history) : DrainsTo ack d history [] d where
  records := by rwa [List.map_nil, List.append_nil]
  complete _ hMem := by cases hMem
  stops _ hLe _ := hLe
  started hNe := absurd rfl hNe
  idle _ := rfl
  frameAcks := by rw [List.map_nil, stamped_nil, ite_self, List.append_nil]

theorem DrainsTo.cons {d d' : VideoDecoder} {frame : VideoFrame} {frames : List VideoFrame}
    (hNext : d.nextFrameId = history.length)
    (hLookup : d.unplayedFrames.lookup history.length = some (some frame))
    (hComplete : frame.Complete)
    (h : DrainsTo ack (d.playComplete ack history.length frame) (history ++ [some frame]) frames d') :
    DrainsTo ack d history (frame :: frames) d' where
  records := by
    have hRec := h.records
    rwa [List.append_assoc, List.singleton_append] at hRec
  complete := by
    rintro other (_ | ⟨_, hMem⟩)
    · exact hComplete
    · exact h.complete other hMem
  stops id hLe hAbsent := by
    have hNe : id ≠ history.length := by
      rintro rfl
      exact hAbsent (AList.lookup_isSome.mp (Option.isSome_of_eq_some hLookup))
    have hStops := h.stops id
    rw [List.length_append, List.length_singleton] at hStops
    have := hStops (by omega) fun hMem =>
      hAbsent ((playComplete_plays ack d history.length frame).mem hMem)
    rw [List.length_cons]
    omega
  started _ := hNext ▸ ⟨frame, hLookup, hComplete⟩
  idle hNil := by cases hNil
  frameAcks := by
    rw [h.frameAcks, playComplete_frameAcks ack hComplete, List.append_assoc]
    cases ack with
    | false => rfl
    | true =>
      have hStamped :=
        stamped_append ackStamp history.length [some frame] (frames.map some)
      rw [List.singleton_append, List.length_singleton] at hStamped
      rw [if_pos rfl, if_pos rfl, if_pos rfl, List.map_cons, hStamped, List.length_append,
        List.length_singleton]

theorem drainLoop_drainsTo {fuel idx : Nat} {d d' : VideoDecoder} (hRec : d.Records history)
    (hIdx : idx = d.nextFrameId) (h : drainLoop ack fuel idx d = some d') :
    ∃ frames, DrainsTo ack d history frames d' := by
  induction fuel generalizing idx d history with
  | zero => cases h
  | succ fuel ih =>
    rw [drainLoop] at h
    split at h
    · split at h
      · cases h
        exact ⟨[], .nil hRec⟩
      · cases h
      · next frame hLookup =>
        split at h
        · next hComplete =>
          have hLt := hRec.next_of_mem
            (AList.lookup_isSome.mp (Option.isSome_of_eq_some (hIdx ▸ hLookup)))
          have hNext := hRec.nextFrameId_of_lt hLt
          rw [hIdx, hNext] at hLookup h
          obtain ⟨frames, hDrain⟩ := ih (hRec.playComplete hLt ack frame)
            (playComplete_nextFrameId ack d _ frame).symm h
          exact ⟨frame :: frames, .cons hNext hLookup hComplete hDrain⟩
        · cases h
          exact ⟨[], .nil hRec⟩
    · cases h
      exact ⟨[], .nil hRec⟩

theorem drain_drainsTo (ack : Bool) {d : VideoDecoder} (hRec : d.Records history) :
    ∃ d' frames, drain ack d.nextFrameId d = some d' ∧ DrainsTo ack d history frames d' := by
  have hSome : (drain ack d.nextFrameId d).isSome := drain_isSome hRec.sound
  obtain ⟨d', h⟩ := Option.isSome_iff_exists.mp hSome
  obtain ⟨frames, hDrain⟩ := drainLoop_drainsTo hRec rfl h
  exact ⟨d', frames, h, hDrain⟩

end Drain

end Bullet.Stream.VideoDecoder
