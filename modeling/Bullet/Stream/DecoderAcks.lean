import Bullet.Stream.DecoderDeadline

/-! # Frames the decoder acknowledges

With a deadline of at least one frame interval the acknowledgements are read off the history. With
a shorter one the decoder discards every frame before its first packet is stored, and plays none.
-/

namespace Bullet.Stream.VideoDecoder

open Lib.PartialRun Lib.StampedList

/-- The acknowledged frames are the complete played ones, each acknowledged once with its encode
time. -/
structure AcksOnce (d : VideoDecoder) : Prop where
  once : (d.frameAcks.map Prod.fst).Nodup
  acked : ∀ id time, (id, time) ∈ d.frameAcks ↔
    ∃ frame, d.playedFrames.lookup id = some (some frame) ∧ frame.Complete ∧ time = frame.encodeTime

theorem Records.acksOnce {d : VideoDecoder} {history : List (Option VideoFrame)}
    (h : d.Records history) (hAcks : d.frameAcks = stamped ackStamp 0 history) : d.AcksOnce where
  once := by
    rw [hAcks]
    exact stamped_nodup ackStamp 0 history
  acked id time := by
    rw [hAcks, mem_stamped, h.played]
    constructor
    · rintro ⟨outcome, hEntry, hStamp⟩
      obtain ⟨frame, rfl, hComplete⟩ := ackStamp_eq_some.mp hStamp
      exact ⟨frame, hEntry, hComplete⟩
    · rintro ⟨frame, hEntry, hComplete⟩
      exact ⟨some frame, hEntry, ackStamp_eq_some.mpr ⟨frame, rfl, hComplete⟩⟩

theorem decodePacket_advances_acks :
    Advances decodePacket AcksPlayed
      (fun d => 1 ≤ d.frameLag ∧
        ∃ history, d.Records history ∧ d.frameAcks = stamped ackStamp 0 history)
      (fun _ _ => True) where
  refl _ := trivial
  trans _ _ _ _ _ := trivial
  advance d pkt := by
    rintro ⟨hLag, history, hRec, hAcks⟩ hOk
    obtain ⟨d', outcomes, hCall, hAppends⟩ :=
      decodePacket_appendsTo hRec (hOk.discardsInOrder hLag)
    have hLag' := (decodePacket_sound hRec.sound hCall).2.trans_ge hLag
    refine ⟨d', hCall, ⟨hLag', _, hAppends.records, ?_⟩, trivial⟩
    rw [hAppends.frameAcks hOk, hAcks, stamped_append, Nat.zero_add]

section Overdue

/-- A decoder whose deadline is shorter than a frame interval: every id below the cursor was
discarded as a null frame, and what is stored lies below the cursor. -/
structure Overdue (d : VideoDecoder) (cursor : Nat) : Prop where
  next : d.nextFrameId = cursor
  mem_played : ∀ id, id ∈ d.playedFrames ↔ id < cursor
  null : ∀ id frame, d.playedFrames.lookup id = some frame → frame = none
  behind : ∀ id ∈ d.unplayedFrames, id < cursor
  frameAcks : d.frameAcks = []

theorem Overdue.acksOnce {d : VideoDecoder} {cursor : Nat} (h : d.Overdue cursor) : d.AcksOnce where
  once := by
    rw [h.frameAcks]
    exact List.nodup_nil
  acked id time := by
    rw [h.frameAcks]
    constructor
    · intro hMem
      cases hMem
    · rintro ⟨frame, hLookup, -⟩
      cases h.null id _ hLookup

/-- One round of the deadline loop stores a null frame and finds nothing to play. -/
theorem Overdue.skipFrame {d e : VideoDecoder} {cursor : Nat} (h : d.Overdue cursor)
    (hSmall : cursor + 1 < 2 ^ 32) (hSkip : skipFrame cursor d = some e) :
    e.Overdue (cursor + 1) ∧ ∀ id, e.unplayedFrames.lookup id = d.unplayedFrames.lookup id := by
  have hAbsent : ∀ id, cursor ≤ id → d.unplayedFrames.lookup id = none := fun id hLe =>
    AList.lookup_eq_none.mpr fun hMem => absurd (h.behind id hMem) (by omega)
  have hPlay : e = d.play cursor none := by
    have hNone : (d.play cursor none).unplayedFrames.lookup (cursor + 1) = none := by
      rw [play_lookup_ne d none (Nat.succ_ne_self cursor)]
      exact hAbsent _ (Nat.le_succ cursor)
    have hNext : nextId cursor = cursor + 1 := Nat.mod_eq_of_lt hSmall
    rw [VideoDecoder.skipFrame, hAbsent cursor (Nat.le_refl _), hNext] at hSkip
    change drain false (cursor + 1) (d.play cursor none) = some e at hSkip
    rw [drain, drainLoop] at hSkip
    simp only [hNone, ite_self] at hSkip
    exact (Option.some.inj hSkip).symm
  rw [hPlay]
  refine ⟨⟨play_nextFrameId hSmall, fun id => ?_, fun id frame hLookup => ?_, fun id hMem => ?_,
    h.frameAcks⟩, fun id => ?_⟩
  · change id ∈ d.playedFrames.insert cursor none ↔ _
    rw [AList.mem_insert, h.mem_played]
    omega
  · change (d.playedFrames.insert cursor none).lookup id = _ at hLookup
    by_cases hId : id = cursor
    · rw [hId, AList.lookup_insert] at hLookup
      exact (Option.some.inj hLookup).symm
    · rw [AList.lookup_insert_ne hId] at hLookup
      exact h.null id frame hLookup
  · have := h.behind id ((play_plays d cursor none).mem hMem)
    omega
  · by_cases hId : id = cursor
    · rw [hId, play_lookup_self, hAbsent cursor (Nat.le_refl _)]
    · exact play_lookup_ne d none hId

/-- A limit past every id keeps the deadline loop running. -/
theorem skipLoop_eq_none {limit : Int} (hLimit : 2 ^ 32 - 1 ≤ limit) {fuel idx : Nat}
    {d : VideoDecoder} (hIdx : idx < 2 ^ 32) : skipLoop limit fuel idx d = none := by
  induction fuel generalizing idx d with
  | zero => rfl
  | succ fuel ih =>
    rw [skipLoop, if_pos (by omega), Option.bind_eq_none_iff]
    exact fun e _ => ih (Nat.mod_lt _ (by omega))

theorem Overdue.skipLoop {limit : Int} (hSmall : limit < 2 ^ 32 - 1) {fuel cursor : Nat}
    {d s : VideoDecoder} (h : d.Overdue cursor) (hCursor : (cursor : Int) ≤ limit + 1)
    (hSkip : skipLoop limit fuel cursor d = some s) :
    (∃ cursor' : Nat, (cursor' : Int) = limit + 1 ∧ s.Overdue cursor') ∧
      ∀ id, s.unplayedFrames.lookup id = d.unplayedFrames.lookup id := by
  induction fuel generalizing cursor d with
  | zero => cases hSkip
  | succ fuel ih =>
    rw [VideoDecoder.skipLoop] at hSkip
    split at hSkip
    · next hMore =>
      obtain ⟨e, hFirst, hRest⟩ := Option.bind_eq_some_iff.mp hSkip
      obtain ⟨hOverdue, hSame⟩ := h.skipFrame (by omega) hFirst
      have hNext : nextId cursor = cursor + 1 := Nat.mod_eq_of_lt (by omega)
      rw [hNext] at hRest
      obtain ⟨hEnd, hSameS⟩ := ih hOverdue (by omega) hRest
      exact ⟨hEnd, fun id => (hSameS id).trans (hSame id)⟩
    · cases hSkip
      exact ⟨⟨cursor, by omega, h⟩, fun _ => rfl⟩

theorem Overdue.decodePacket {d d' : VideoDecoder} {cursor : Nat} {pkt : DataPacket}
    (h : d.Overdue cursor) (hLag : d.frameLag < 1) (hOk : d.AcksPlayed pkt)
    (hCall : decodePacket d pkt = some d') : ∃ cursor', d'.Overdue cursor' := by
  rcases decodePacket_cases hCall with
    ⟨-, rfl⟩ | ⟨hNew, limit, s, frame, hLimit, hSkip, hFrame, hFull, hPartial⟩
  · exact ⟨cursor, h⟩
  · have hValue : limit = pkt.frameId.toNat - d.frameLag := by
      rw [skipLimit] at hLimit
      split at hLimit
      · cases hLimit
      · exact (Option.some.inj hLimit).symm
    have hLe : cursor ≤ pkt.frameId.toNat := by
      rwa [h.mem_played, Nat.not_lt] at hNew
    have hSmall : limit < 2 ^ 32 - 1 := by
      by_contra hBig
      have hEndless : d.skipStale limit = none :=
        skipLoop_eq_none (by omega) (Nat.mod_lt _ (by omega))
      cases hEndless.symm.trans hSkip
    rw [skipStale, h.next] at hSkip
    obtain ⟨⟨cursor', hCursor, hOverdue⟩, hSame⟩ := h.skipLoop hSmall (by omega) hSkip
    have hStore : (s.store pkt.frameId.toNat frame).Overdue cursor' := by
      refine ⟨hOverdue.next, hOverdue.mem_played, hOverdue.null, fun id hMem => ?_,
        hOverdue.frameAcks⟩
      rcases (AList.mem_insert _).mp hMem with rfl | hMem
      · omega
      · exact hOverdue.behind id hMem
    refine ⟨cursor', ?_⟩
    by_cases hComplete : frame.Complete
    · have hPlay := hFull hComplete
      rw [frameCompleted] at hPlay
      split at hPlay
      · next hZero =>
        refine absurd ⟨hZero, hZero ▸ hNew, frame, ?_, hComplete⟩ hOk.1
        rw [frameWith, hSame] at hFrame
        exact hFrame
      · rw [if_neg] at hPlay
        · cases hPlay
          exact hStore
        · rw [hStore.next]
          omega
    · rw [hPartial hComplete]
      exact hStore

end Overdue

/-- The decoder acknowledges each complete played frame once in every run whose calls keep complete
frames to the in-order loop. -/
theorem acksOnce_of_calls {delayDdl : Time} {fps : UInt16} {start : VideoDecoder}
    (hCreate : create delayDdl fps = some start) {calls : List (List DataPacket)}
    (hOk : StepsMeet decodePacket AcksPlayed start calls.flatten) :
    (1 ≤ start.frameLag → (run decodeDataPacket start calls).isSome) ∧
      ∀ d, run decodeDataPacket start calls = some d → d.AcksOnce := by
  obtain ⟨hStart, hAcks⟩ := create_records hCreate
  change (_ → (run (run decodePacket) start calls).isSome) ∧
    ∀ d, run (run decodePacket) start calls = some d → d.AcksOnce
  rw [run_flatten]
  by_cases hLag : 1 ≤ start.frameLag
  · obtain ⟨d, hRun, ⟨-, history, hRec, hHistory⟩, -⟩ :=
      decodePacket_advances_acks.run ⟨hLag, _, hStart, hAcks⟩ hOk
    rw [hRun]
    exact ⟨fun _ => rfl, fun e hEq => Option.some.inj hEq ▸ hRec.acksOnce hHistory⟩
  · refine ⟨fun h => absurd h hLag, fun d hRun => ?_⟩
    have hInit : start.Overdue 0 := by
      refine ⟨hStart.nextFrameId, fun id => hStart.mem_played, fun id frame hLookup => ?_,
        fun id hMem => ?_, hAcks⟩
      · rw [hStart.played] at hLookup
        cases hLookup
      · have := hStart.waiting id hMem
        rw [List.length_nil] at this
        omega
    have hStep : ∀ (s : VideoDecoder) (pkt : DataPacket) (t : VideoDecoder),
        (s.frameLag < 1 ∧ s.BufferSound ∧ ∃ cursor, s.Overdue cursor) → s.AcksPlayed pkt →
        decodePacket s pkt = some t → t.frameLag < 1 ∧ t.BufferSound ∧ ∃ cursor, t.Overdue cursor := by
      rintro s pkt t ⟨hLagS, hSound, cursor, hOverdue⟩ hOkS hCall
      obtain ⟨hSoundT, hLagT⟩ := decodePacket_sound hSound hCall
      exact ⟨by omega, hSoundT, hOverdue.decodePacket hLagS hOkS hCall⟩
    have hEnd := invariant_of_run hStep ⟨by omega, hStart.sound, 0, hInit⟩ hOk hRun
    exact hEnd.2.2.choose_spec.acksOnce

end Bullet.Stream.VideoDecoder
