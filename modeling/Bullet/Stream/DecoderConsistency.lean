import Bullet.Stream.DecoderDeadline

/-! # Consistency of the decoder over whole runs

A run whose calls respect the deadline order is an append-only history, so nothing played is
replaced; if moreover no discarded frame was lost entirely, every stored frame is a real one.
-/

namespace Bullet.Stream.VideoDecoder

open Lib.PartialRun

/-- The history of `d` is an initial part of the history of `d'`. -/
def Extends (d d' : VideoDecoder) : Prop :=
  ∀ history, d.Records history → ∃ outcomes, d'.Records (history ++ outcomes)

theorem Extends.refl (d : VideoDecoder) : Extends d d :=
  fun history h => ⟨[], by rwa [List.append_nil]⟩

theorem Extends.trans {d e f : VideoDecoder} (h : Extends d e) (h' : Extends e f) : Extends d f := by
  intro history hRec
  obtain ⟨outcomes, hRecE⟩ := h history hRec
  obtain ⟨later, hRecF⟩ := h' _ hRecE
  exact ⟨outcomes ++ later, by rwa [← List.append_assoc]⟩

theorem decodePacket_extends {d d' : VideoDecoder} {pkt : DataPacket} (hOk : d.DiscardsInOrder pkt)
    (h : decodePacket d pkt = some d') : Extends d d' := by
  intro history hRec
  obtain ⟨e, outcomes, hCall, hAppends⟩ := decodePacket_appendsTo hRec hOk
  cases h.symm.trans hCall
  exact ⟨outcomes, hAppends.records⟩

theorem decodePacket_advances_history :
    Advances decodePacket DiscardsInOrder (fun d => ∃ history, d.Records history) Extends where
  refl := Extends.refl
  trans _ _ _ := Extends.trans
  advance d pkt := by
    rintro ⟨history, hRec⟩ hOk
    obtain ⟨d', outcomes, hCall, hAppends⟩ := decodePacket_appendsTo hRec hOk
    exact ⟨d', hCall, ⟨_, hAppends.records⟩, decodePacket_extends hOk hCall⟩

/-- The cursor moves forward once a frame is played, played frames stay as they are, and no frame
is both played and waiting. -/
structure Consistent (d d' : VideoDecoder) : Prop where
  cursor : (∃ id, id ∈ d.playedFrames) → d.lastPlayedFrameId ≤ d'.lastPlayedFrameId
  kept : ∀ id frame, d.playedFrames.lookup id = some frame → d'.playedFrames.lookup id = some frame
  disjoint : ∀ id ∈ d'.playedFrames, id ∉ d'.unplayedFrames

theorem Records.consistent {d d' : VideoDecoder} {history outcomes : List (Option VideoFrame)}
    (h : d.Records history) (h' : d'.Records (history ++ outcomes)) : Consistent d d' where
  cursor := by
    rintro ⟨id, hId⟩
    have hPos := h.mem_played.mp hId
    have hLe := h'.bounded
    rw [h.cursor, h'.cursor]
    rw [List.length_append] at hLe ⊢
    omega
  kept id frame hLookup := by
    rw [h.played] at hLookup
    rw [h'.played]
    obtain ⟨hLt, hEntry⟩ := List.getElem?_eq_some_iff.mp hLookup
    rw [List.getElem?_append_left hLt, hLookup]
  disjoint id hPlayed hWaiting := by
    have hLt := h'.mem_played.mp hPlayed
    have hLe := (h'.waiting id hWaiting).1
    omega

/-- In a run whose calls respect the deadline order every call returns, and the decoder stays
consistent from any point of the run to any later one. -/
theorem consistent_of_run {delayDdl : Time} {fps : UInt16} {start : VideoDecoder}
    (hCreate : create delayDdl fps = some start) (before after : List (List DataPacket))
    (hOk : StepsMeet decodePacket DiscardsInOrder start (before ++ after).flatten) :
    ∃ d d', run decodeDataPacket start before = some d ∧ run decodeDataPacket d after = some d' ∧
      Consistent d d' := by
  rw [List.flatten_append, stepsMeet_append] at hOk
  have hStart := (create_records hCreate).1
  obtain ⟨d, hRun, ⟨history, hRec⟩, -⟩ := decodePacket_advances_history.run ⟨_, hStart⟩ hOk.1
  obtain ⟨d', hRun', -, hExtends⟩ :=
    decodePacket_advances_history.run ⟨_, hRec⟩ (hOk.2 d hRun)
  obtain ⟨outcomes, hRec'⟩ := hExtends history hRec
  refine ⟨d, d', ?_, ?_, hRec.consistent hRec'⟩
  · exact (run_flatten before).trans hRun
  · exact (run_flatten after).trans hRun'

theorem consistent_of_run_skipping :
    ∃ start d d', create (milliSeconds 100) 60 = some start ∧
      run decodeDataPacket start (singles [0, 1, 2, 9]) = some d ∧
      run decodeDataPacket d (singles [4, 12]) = some d' ∧ Consistent d d' := by
  have hCreate : create (milliSeconds 100) 60 = some _ := rfl
  obtain ⟨d, d', h⟩ :=
    consistent_of_run hCreate (singles [0, 1, 2, 9]) (singles [4, 12]) (by decide)
  exact ⟨_, d, d', hCreate, h⟩

/-- Frames 5, 6 and 7 wait complete when the deadline reaches frame 6; frame 7 is played by the
inner loop and overwritten with a null frame at the next packet. -/
theorem played_frame_replaced :
    ∃ start d d', create (milliSeconds 100) 60 = some start ∧
      run decodeDataPacket start (singles [0, 1, 2, 5, 6, 7, 12]) = some d ∧
      run decodeDataPacket d (singles [13]) = some d' ∧ ¬ Consistent d d' := by
  refine ⟨_, _, _, rfl, rfl, rfl, fun h => ?_⟩
  have hKept := h.kept 7 (some (VideoFrame.create (.ofFrame 7 1 0 0))) (by decide)
  revert hKept
  decide

/-- No stored frame is null, and the statistics function meets no null frame. -/
structure RealFrames (d : VideoDecoder) : Prop where
  played : ∀ id frame, d.playedFrames.lookup id = some frame → frame.isSome
  unplayed : ∀ id frame, d.unplayedFrames.lookup id = some frame → frame.isSome
  statistics : d.getDdlMissRate.isSome

theorem addLatency_advances :
    Advances addLatency (fun _ entry => entry.2.isSome) (fun _ => True) (fun _ _ => True) where
  refl _ := trivial
  trans _ _ _ _ _ := trivial
  advance sums entry _ hReal := by
    obtain ⟨frame, hFrame⟩ := Option.isSome_iff_exists.mp hReal
    rw [addLatency, hFrame]
    exact ⟨_, rfl, trivial, trivial⟩

theorem getDdlMissRate_isSome {d : VideoDecoder}
    (h : ∀ id frame, d.playedFrames.lookup id = some frame → frame.isSome) :
    d.getDdlMissRate.isSome := by
  have hEntries : StepsMeet addLatency (fun _ entry => entry.2.isSome) (0, 0)
      d.playedFrames.entries :=
    stepsMeet_of_forall_mem fun entry hMem _ => h entry.1 entry.2 (AList.mem_lookup_iff.mpr hMem)
  obtain ⟨sums, hRun, -⟩ := addLatency_advances.run trivial hEntries
  rw [getDdlMissRate]
  split
  · rfl
  · rw [hRun]
    rfl

theorem Records.realFrames {d : VideoDecoder} {history : List (Option VideoFrame)}
    (h : d.Records history) (hReal : ∀ outcome ∈ history, outcome.isSome) : d.RealFrames := by
  have hPlayed : ∀ id frame, d.playedFrames.lookup id = some frame → frame.isSome := by
    intro id frame hLookup
    rw [h.played] at hLookup
    exact hReal frame (List.mem_of_getElem? hLookup)
  refine ⟨hPlayed, fun id frame hLookup => ?_, getDdlMissRate_isSome hPlayed⟩
  cases frame with
  | none => exact absurd hLookup (h.sound.real id)
  | some frame => rfl

theorem decodePacket_advances_real :
    Advances decodePacket DiscardsArrived
      (fun d => ∃ history, d.Records history ∧ ∀ outcome ∈ history, outcome.isSome)
      (fun _ _ => True) where
  refl _ := trivial
  trans _ _ _ _ _ := trivial
  advance d pkt := by
    rintro ⟨history, hRec, hReal⟩ hOk
    obtain ⟨d', outcomes, hCall, hAppends⟩ := decodePacket_appendsTo hRec hOk.1
    refine ⟨d', hCall, ⟨_, hAppends.records, fun outcome hMem => ?_⟩, trivial⟩
    rcases List.mem_append.mp hMem with hOld | hNew
    · exact hReal outcome hOld
    · exact hAppends.real hOk outcome hNew

/-- In a run in which the deadline only discards frames of which a packet has arrived, and in their
order, every call returns and every stored frame is a real one. -/
theorem realFrames_of_run {delayDdl : Time} {fps : UInt16} {start : VideoDecoder}
    (hCreate : create delayDdl fps = some start) (calls : List (List DataPacket))
    (hOk : StepsMeet decodePacket DiscardsArrived start calls.flatten) :
    ∃ d, run decodeDataPacket start calls = some d ∧ d.RealFrames := by
  have hStart := (create_records hCreate).1
  have hNone : ∀ outcome ∈ ([] : List (Option VideoFrame)), outcome.isSome :=
    fun _ hMem => absurd hMem List.not_mem_nil
  obtain ⟨d, hRun, ⟨history, hRec, hReal⟩, -⟩ :=
    decodePacket_advances_real.run ⟨_, hStart, hNone⟩ hOk
  exact ⟨d, (run_flatten calls).trans hRun, hRec.realFrames hReal⟩

/-- Frame 1 is discarded with one of its two packets. -/
theorem realFrames_of_run_partial :
    ∃ start d, create (milliSeconds 100) 60 = some start ∧
      run decodeDataPacket start [[.ofFrame 0 1 0 0, .ofFrame 1 2 0 0], [.ofFrame 7 1 0 0]] = some d ∧
      d.RealFrames := by
  have hCreate : create (milliSeconds 100) 60 = some _ := rfl
  obtain ⟨d, h⟩ := realFrames_of_run hCreate
    [[.ofFrame 0 1 0 0, .ofFrame 1 2 0 0], [.ofFrame 7 1 0 0]] (by decide)
  exact ⟨_, d, hCreate, h⟩

/-- Frame 1 is lost entirely and discarded as a null frame. -/
theorem lost_frame_is_null :
    ∃ start d, create (milliSeconds 100) 60 = some start ∧
      run decodeDataPacket start (singles [0, 7]) = some d ∧
      d.playedFrames.lookup 1 = some none ∧ d.getDdlMissRate = none ∧ ¬ d.RealFrames := by
  refine ⟨_, _, rfl, rfl, by decide, by decide, fun h => ?_⟩
  have hReal := h.played 1 none (by decide)
  cases hReal

end Bullet.Stream.VideoDecoder
