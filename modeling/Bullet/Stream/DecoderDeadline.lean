import Bullet.Stream.DecoderHistory

/-! # The deadline loop and the call on one packet

What the deadline loop discards is appended to the history as long as no complete frame waits
between the next frame and the deadline: a complete one would be played by the inner loop and then
overwritten by the next round of the outer one.
-/

namespace Bullet.Stream.VideoDecoder

open Lib.PartialRun Lib.StampedList

/-- The deadline of the packet discards no complete frame but the next one. -/
def DiscardsInOrder (d : VideoDecoder) (pkt : DataPacket) : Prop :=
  pkt.frameId.toNat ∉ d.playedFrames →
    1 ≤ d.frameLag ∧ ∀ id ∈ d.unplayedFrames.keys,
      d.nextFrameId < id → (id : Int) ≤ pkt.frameId.toNat - d.frameLag → ¬ d.Ready id

instance (d : VideoDecoder) (pkt : DataPacket) : Decidable (d.DiscardsInOrder pkt) :=
  inferInstanceAs (Decidable (_ → _ ∧ ∀ id ∈ d.unplayedFrames.keys, _ → _ → _))

/-- Of every frame that the deadline of the packet discards a packet has arrived. -/
def DiscardsArrived (d : VideoDecoder) (pkt : DataPacket) : Prop :=
  d.DiscardsInOrder pkt ∧ (pkt.frameId.toNat ∉ d.playedFrames →
    ∀ id < pkt.frameId.toNat, d.nextFrameId ≤ id →
      (id : Int) ≤ pkt.frameId.toNat - d.frameLag → id ∈ d.unplayedFrames)

instance (d : VideoDecoder) (pkt : DataPacket) : Decidable (d.DiscardsArrived pkt) :=
  inferInstanceAs (Decidable (_ ∧ (_ → ∀ id < pkt.frameId.toNat, _ → _ → _)))

/-- The packet does not complete frame 0, and its deadline neither discards nor uncovers a complete
frame. -/
def AcksPlayed (d : VideoDecoder) (pkt : DataPacket) : Prop :=
  ¬ d.CompletesFirst pkt ∧ (pkt.frameId.toNat ∉ d.playedFrames →
    (d.nextFrameId : Int) ≤ pkt.frameId.toNat - d.frameLag →
      ∀ id ∈ d.unplayedFrames.keys, d.nextFrameId ≤ id →
        (id : Int) ≤ pkt.frameId.toNat - d.frameLag + 1 → ¬ d.Ready id)

instance (d : VideoDecoder) (pkt : DataPacket) : Decidable (d.AcksPlayed pkt) :=
  inferInstanceAs (Decidable (_ ∧ (_ → _ → ∀ id ∈ d.unplayedFrames.keys, _ → _ → _)))

theorem AcksPlayed.discardsInOrder {d : VideoDecoder} {pkt : DataPacket} (h : d.AcksPlayed pkt)
    (hLag : 1 ≤ d.frameLag) : d.DiscardsInOrder pkt :=
  fun hNew => ⟨hLag, fun id hMem hNext hLimit =>
    h.2 hNew (by omega) id hMem (by omega) (by omega)⟩

theorem Ready.mem {d : VideoDecoder} {id : Nat} (h : d.Ready id) : id ∈ d.unplayedFrames := by
  obtain ⟨frame, hLookup, -⟩ := h
  exact AList.lookup_isSome.mp (Option.isSome_of_eq_some hLookup)

theorem ackStamp_discarded {d : VideoDecoder} {id : Nat} (h : ¬ d.Ready id) :
    ackStamp (d.unplayedFrames.lookup id).join = none := by
  rw [Option.eq_none_iff_forall_ne_some]
  intro time hStamp
  obtain ⟨frame, hFrame, hComplete, -⟩ := ackStamp_eq_some.mp hStamp
  exact h ⟨frame, Option.join_eq_some_iff.mp hFrame, hComplete⟩

theorem BufferSound.discarded_isSome {d : VideoDecoder} (h : d.BufferSound) {id : Nat}
    (hMem : id ∈ d.unplayedFrames) : (d.unplayedFrames.lookup id).join.isSome := by
  obtain ⟨frame, hLookup⟩ := Option.isSome_iff_exists.mp (AList.lookup_isSome.mpr hMem)
  cases frame with
  | none => exact absurd hLookup (h.real id)
  | some frame =>
    rw [hLookup]
    rfl

/-- The outcomes that the deadline loop appends. -/
structure SkipsTo (limit : Int) (d : VideoDecoder) (history outcomes : List (Option VideoFrame))
    (s : VideoDecoder) : Prop where
  records : s.Records (history ++ outcomes)
  reaches : limit < history.length + outcomes.length
  stops : ∀ id, history.length ≤ id → limit < id → id ∉ d.unplayedFrames →
    history.length + outcomes.length ≤ id
  idle : limit < history.length → outcomes = [] ∧ s = d
  frameAcks : s.frameAcks = d.frameAcks
  real : (∀ id, history.length ≤ id → (id : Int) ≤ limit → id ∈ d.unplayedFrames) →
    ∀ outcome ∈ outcomes, outcome.isSome
  partials : (∀ id, history.length ≤ id → (id : Int) ≤ limit + 1 → ¬ d.Ready id) →
    ∀ outcome ∈ outcomes, ackStamp outcome = none

section Skip

theorem play_nextFrameId {d : VideoDecoder} {idx : Nat} {frame : Option VideoFrame}
    (h : idx + 1 < 2 ^ 32) : (d.play idx frame).nextFrameId = idx + 1 :=
  Nat.mod_eq_of_lt h

variable {limit : Int} {d s : VideoDecoder} {history : List (Option VideoFrame)}

theorem SkipsTo.nil (hRec : d.Records history) (hLimit : limit < history.length) :
    SkipsTo limit d history [] d where
  records := by rwa [List.append_nil]
  reaches := by
    rw [List.length_nil]
    omega
  stops _ hLe _ _ := hLe
  idle _ := ⟨rfl, rfl⟩
  frameAcks := rfl
  real _ _ hMem := by cases hMem
  partials _ _ hMem := by cases hMem

/-- The last round: the frame at the limit is discarded and the inner loop plays on. -/
theorem SkipsTo.last {frames : List VideoFrame} (hRec : d.Records history)
    (hLimit : limit = history.length) (hSmall : limit < 2 ^ 32 - 1)
    (h : DrainsTo false (d.play history.length (d.unplayedFrames.lookup history.length).join)
      (history ++ [(d.unplayedFrames.lookup history.length).join]) frames s) :
    SkipsTo limit d history
      ((d.unplayedFrames.lookup history.length).join :: frames.map some) s where
  records := by
    have hRecS := h.records
    rwa [List.append_assoc, List.singleton_append] at hRecS
  reaches := by
    rw [List.length_cons]
    omega
  stops id _ hLt hAbsent := by
    have hStops := h.stops id
    rw [List.length_append, List.length_singleton] at hStops
    have := hStops (by omega) fun hMem => hAbsent ((play_plays d _ _).mem hMem)
    rw [List.length_cons, List.length_map]
    omega
  idle hLt := by omega
  frameAcks := h.frameAcks.trans (List.append_nil _)
  real hAll := by
    rintro outcome (_ | ⟨_, hMem⟩)
    · exact hRec.sound.discarded_isSome (hAll _ (Nat.le_refl _) (by omega))
    · obtain ⟨frame, -, rfl⟩ := List.mem_map.mp hMem
      rfl
  partials hNone := by
    rintro outcome (_ | ⟨_, hMem⟩)
    · exact ackStamp_discarded (hNone _ (Nat.le_refl _) (by omega))
    · obtain ⟨frame, hFrame, rfl⟩ := List.mem_map.mp hMem
      have hReady := (play_plays d _ _).ready (h.started (List.ne_nil_of_mem hFrame))
      rw [play_nextFrameId (by omega)] at hReady
      exact absurd hReady (hNone _ (by omega) (by omega))

/-- A round before the last one: the inner loop finds its first frame not ready. -/
theorem SkipsTo.cons {outcomes : List (Option VideoFrame)} (hRec : d.Records history)
    (hMore : (history.length : Int) < limit)
    (h : SkipsTo limit (d.play history.length (d.unplayedFrames.lookup history.length).join)
      (history ++ [(d.unplayedFrames.lookup history.length).join]) outcomes s) :
    SkipsTo limit d history ((d.unplayedFrames.lookup history.length).join :: outcomes) s := by
  have hPlays := play_plays d history.length (d.unplayedFrames.lookup history.length).join
  have hLength : (history ++ [(d.unplayedFrames.lookup history.length).join]).length =
      history.length + 1 := by
    rw [List.length_append, List.length_singleton]
  refine ⟨?_, ?_, ?_, fun hLt => by omega, h.frameAcks, ?_, ?_⟩
  · have hRecS := h.records
    rwa [List.append_assoc, List.singleton_append] at hRecS
  · have hReaches := h.reaches
    rw [List.length_cons]
    omega
  · intro id _ hLt hAbsent
    have := h.stops id (by omega) hLt fun hMem => hAbsent (hPlays.mem hMem)
    rw [List.length_cons]
    omega
  · intro hAll
    rintro outcome (_ | ⟨_, hMem⟩)
    · exact hRec.sound.discarded_isSome (hAll _ (Nat.le_refl _) (by omega))
    · refine h.real (fun id hLe hLimit => ?_) outcome hMem
      exact AList.mem_erase.mpr ⟨by omega, hAll id (by omega) hLimit⟩
  · intro hNone
    rintro outcome (_ | ⟨_, hMem⟩)
    · exact ackStamp_discarded (hNone _ (Nat.le_refl _) (by omega))
    · exact h.partials (fun id hLe hLimit hReady => hNone id (by omega) hLimit (hPlays.ready hReady))
        outcome hMem

theorem skipLoop_skipsTo {fuel idx : Nat} (hRec : d.Records history) (hIdx : idx = history.length)
    (hSmall : limit < 2 ^ 32 - 1)
    (hLate : ∀ id, history.length < id → (id : Int) ≤ limit → ¬ d.Ready id)
    (h : skipLoop limit fuel idx d = some s) : ∃ outcomes, SkipsTo limit d history outcomes s := by
  induction fuel generalizing idx d history with
  | zero => cases h
  | succ fuel ih =>
    rw [skipLoop, hIdx] at h
    split at h
    · next hMore =>
      obtain ⟨e, hFirst, hRest⟩ := Option.bind_eq_some_iff.mp h
      have hLt : history.length < 2 ^ 32 := by omega
      have hNext : nextId history.length = history.length + 1 := Nat.mod_eq_of_lt (by omega)
      have hRecP := hRec.play hLt (d.unplayedFrames.lookup history.length).join
      obtain ⟨frames, hDrain⟩ := drainLoop_drainsTo hRecP rfl hFirst
      by_cases hLast : limit = history.length
      · have hSame : s = e := by
          cases fuel with
          | zero => cases hRest
          | succ fuel =>
            rw [skipLoop, if_neg (by omega)] at hRest
            exact (Option.some.inj hRest).symm
        rw [hSame]
        exact ⟨_, .last hRec hLast hSmall hDrain⟩
      · have hIdle : frames = [] := by
          by_contra hNe
          have hReady := (play_plays d _ _).ready (hDrain.started hNe)
          rw [play_nextFrameId (by omega)] at hReady
          exact hLate _ (by omega) (by omega) hReady
        rw [hDrain.idle hIdle, hNext] at hRest
        obtain ⟨outcomes, hSkips⟩ := ih hRecP
          (by rw [List.length_append, List.length_singleton])
          (fun id hLt' hLimit hReady => hLate id
            (by rw [List.length_append] at hLt'; omega) hLimit ((play_plays d _ _).ready hReady))
          hRest
        exact ⟨_, .cons hRec (by omega) hSkips⟩
    · cases h
      exact ⟨[], .nil hRec (by omega)⟩

end Skip

section Call

variable {d : VideoDecoder} {history : List (Option VideoFrame)}

/-- A completed frame behind the history is played if it is the next one. -/
theorem frameCompleted_records (hRec : d.Records history) {frameId : Nat}
    (hNew : history.length ≤ frameId) (frame : VideoFrame) :
    ∃ d' frames, d.frameCompleted frameId frame = some d' ∧
      d'.Records (history ++ List.map some frames) ∧
      (frameId ≠ 0 →
        d'.frameAcks = d.frameAcks ++ stamped ackStamp history.length (frames.map some)) := by
  rw [frameCompleted]
  split
  · next hZero =>
    have hNil : history.length = 0 := by omega
    have hPlay := hRec.play (by omega) (some frame)
    rw [hNil] at hPlay
    exact ⟨_, [frame], rfl, hZero ▸ hPlay, fun hNe => absurd hZero hNe⟩
  · split
    · next hNext =>
      obtain ⟨d', frames, hDrain, hTo⟩ := drain_drainsTo true hRec
      exact ⟨d', frames, hNext ▸ hDrain, hTo.records, fun _ => hTo.frameAcks⟩
    · exact ⟨d, [], rfl, by rwa [List.map_nil, List.append_nil], fun _ => by
        rw [List.map_nil, stamped_nil, List.append_nil]⟩

/-- What a call on one packet appends to the history. -/
structure AppendsTo (d : VideoDecoder) (pkt : DataPacket)
    (history outcomes : List (Option VideoFrame)) (d' : VideoDecoder) : Prop where
  records : d'.Records (history ++ outcomes)
  real : d.DiscardsArrived pkt → ∀ outcome ∈ outcomes, outcome.isSome
  frameAcks : d.AcksPlayed pkt →
    d'.frameAcks = d.frameAcks ++ stamped ackStamp history.length outcomes

/-- The deadline loop stops short of the packet's own frame. -/
theorem SkipsTo.length_le {s : VideoDecoder} {outcomes : List (Option VideoFrame)} {frameId : Nat}
    (hRec : d.Records history) (hLag : 1 ≤ d.frameLag) (hNew : history.length ≤ frameId)
    (h : SkipsTo (frameId - d.frameLag) d history outcomes s) :
    (history ++ outcomes).length ≤ frameId := by
  rw [List.length_append]
  by_cases hSkip : (frameId : Int) - d.frameLag < history.length
  · rw [(h.idle hSkip).1, List.length_nil]
    exact hNew
  · refine h.stops frameId hNew (by omega) fun hMem => ?_
    have := hRec.waiting frameId hMem
    omega

theorem SkipsTo.real_of_arrived {s : VideoDecoder} {outcomes : List (Option VideoFrame)}
    {pkt : DataPacket} (h : SkipsTo (pkt.frameId.toNat - d.frameLag) d history outcomes s)
    (hNext : d.nextFrameId = history.length) (hNew : pkt.frameId.toNat ∉ d.playedFrames)
    (hLag : 1 ≤ d.frameLag) (hOk : d.DiscardsArrived pkt) :
    ∀ outcome ∈ outcomes, outcome.isSome :=
  h.real fun id hLe hLimit => hOk.2 hNew id (by omega) (by omega) hLimit

theorem SkipsTo.frameAcks_of_acksPlayed {s : VideoDecoder} {outcomes : List (Option VideoFrame)}
    {pkt : DataPacket} (h : SkipsTo (pkt.frameId.toNat - d.frameLag) d history outcomes s)
    (hNext : d.nextFrameId = history.length) (hNew : pkt.frameId.toNat ∉ d.playedFrames)
    (hOk : d.AcksPlayed pkt) :
    s.frameAcks = d.frameAcks ++ stamped ackStamp history.length outcomes := by
  rw [h.frameAcks]
  by_cases hSkip : (pkt.frameId.toNat : Int) - d.frameLag < history.length
  · rw [(h.idle hSkip).1, stamped_nil, List.append_nil]
  · have hReady := hOk.2 hNew (by omega)
    rw [stamped_eq_nil ackStamp (h.partials fun id hLe hLimit hReadyId =>
      hReady id (AList.mem_keys.mp hReadyId.mem) (by omega) hLimit hReadyId), List.append_nil]

/-- A call that respects the deadline order returns, and only appends to the history. -/
theorem decodePacket_appendsTo (hRec : d.Records history) {pkt : DataPacket}
    (hOk : d.DiscardsInOrder pkt) :
    ∃ d' outcomes, decodePacket d pkt = some d' ∧ AppendsTo d pkt history outcomes d' := by
  by_cases hPlayed : pkt.frameId.toNat ∈ d.playedFrames
  · refine ⟨d, [], by rw [decodePacket, if_pos hPlayed], ?_, fun _ _ hMem => absurd hMem List.not_mem_nil, ?_⟩
    · rwa [List.append_nil]
    · exact fun _ => by rw [stamped_nil, List.append_nil]
  · obtain ⟨hLag, hReady⟩ := hOk hPlayed
    have hId : pkt.frameId.toNat < 2 ^ 32 := pkt.frameId.toNat_lt
    have hNew : history.length ≤ pkt.frameId.toNat := by
      rwa [hRec.mem_played, Nat.not_lt] at hPlayed
    have hNext := hRec.nextFrameId_of_lt (by omega)
    obtain ⟨s, hSkip⟩ := Option.isSome_iff_exists.mp (skipStale_isSome hRec.sound hLag pkt)
    obtain ⟨skipped, hSkips⟩ := skipLoop_skipsTo hRec hNext (by omega)
      (fun id hLt hLimit hReadyId =>
        hReady id (AList.mem_keys.mp hReadyId.mem) (by omega) hLimit hReadyId) hSkip
    have hLagS : s.frameLag = d.frameLag := (skipLoop_plays hSkip).frameLag
    obtain ⟨frame, hFrame⟩ := Option.isSome_iff_exists.mp
      (frameWith_isSome hSkips.records.sound pkt.frameId.toNat pkt)
    have hReaches := hSkips.reaches
    have hStore := hSkips.records.store (hSkips.length_le hRec hLag hNew)
      (by rw [hLagS, List.length_append]; omega) hId frame
    have hCall := decodePacket_of_new hPlayed (skipLimit_of_lag hLag _) hSkip hFrame
    by_cases hComplete : frame.Complete
    · obtain ⟨d', frames, hDone, hRecD, hAcks⟩ :=
        frameCompleted_records hStore (hSkips.length_le hRec hLag hNew) frame
      refine ⟨d', skipped ++ frames.map some, ?_, ?_, fun hArrived => ?_, fun hAck => ?_⟩
      · rw [hCall, if_pos hComplete]
        exact hDone
      · rwa [← List.append_assoc]
      · intro outcome hMem
        rcases List.mem_append.mp hMem with hMem | hMem
        · exact hSkips.real_of_arrived hNext hPlayed hLag hArrived outcome hMem
        · obtain ⟨played, -, rfl⟩ := List.mem_map.mp hMem
          rfl
      · have hNonzero : pkt.frameId.toNat ≠ 0 := by
          intro hZero
          have hSame := (hSkips.idle (by omega)).2
          rw [hSame] at hFrame
          exact hAck.1 ⟨hZero, hZero ▸ hPlayed, frame, hFrame, hComplete⟩
        have hStored : (s.store pkt.frameId.toNat frame).frameAcks =
            d.frameAcks ++ stamped ackStamp history.length skipped :=
          hSkips.frameAcks_of_acksPlayed hNext hPlayed hAck
        rw [hAcks hNonzero, hStored, List.append_assoc, List.length_append, stamped_append]
    · refine ⟨_, skipped, by rw [hCall, if_neg hComplete], hStore, fun hArrived => ?_, fun hAck => ?_⟩
      · exact hSkips.real_of_arrived hNext hPlayed hLag hArrived
      · exact hSkips.frameAcks_of_acksPlayed hNext hPlayed hAck

end Call

theorem create_records {d : VideoDecoder} {delayDdl : Time} {fps : UInt16} (h : create delayDdl fps = some d) :
    d.Records [] ∧ d.frameAcks = [] := by
  rw [create] at h
  split at h
  · cases h
  · cases h
    refine ⟨⟨⟨fun id hId => ?_, fun id hNull => by cases hNull⟩, fun id => rfl, rfl,
      Nat.zero_le _, fun id hId => ?_⟩, rfl⟩
    · exact absurd hId (AList.notMem_empty id)
    · exact absurd hId (AList.notMem_empty id)

end Bullet.Stream.VideoDecoder
