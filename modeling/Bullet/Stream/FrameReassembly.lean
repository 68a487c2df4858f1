import Bullet.Stream.TcpFrames

/-! # Reassembly of the frames

A callback takes at most one frame, and starts one only when more than its header has arrived. So
the frames are decoded as sent exactly when the callbacks can serve them in turn.
-/

namespace Bullet.Stream

open Lib Lib.Wire Lib.PartialRun

/-! ## Serving the frames in turn -/

/-- The callbacks that finish a frame of which `missing` bytes have not arrived, and those after. -/
def Finishing (sizes : List ℕ) (missing : ℕ) (callbacks : List ℕ) : Prop :=
  ∃ more rest, callbacks = more ++ rest ∧ (∀ i < more.length, (more.take i).sum < missing) ∧
    missing ≤ more.sum ∧ InTurn sizes (more.sum - missing) rest

section

variable {size : ℕ} {sizes : List ℕ} {unread missing c : ℕ} {cs : List ℕ}

theorem finishing_cons_of_le (hPos : 0 < missing) (h : missing ≤ c) :
    Finishing sizes missing (c :: cs) ↔ InTurn sizes (c - missing) cs := by
  constructor
  · rintro ⟨more, rest, hSplit, hPartial, hWhole, hRest⟩
    rcases more with _ | ⟨d, more⟩
    · exact absurd hWhole (by rw [List.sum_nil]; omega)
    obtain ⟨rfl, rfl⟩ := List.cons_eq_cons.mp hSplit
    rcases more with _ | ⟨e, more⟩
    · simpa using hRest
    · have hSecond := hPartial 1 (by simp)
      simp only [List.take_succ_cons, List.take_zero, List.sum_cons, List.sum_nil] at hSecond
      omega
  · intro hRest
    refine ⟨[c], cs, rfl, ?_, by simpa using h, by simpa using hRest⟩
    intro i hi
    have hZero : i = 0 := by simpa using hi
    simpa [hZero] using hPos

theorem finishing_cons_of_lt (h : c < missing) :
    Finishing sizes missing (c :: cs) ↔ Finishing sizes (missing - c) cs := by
  constructor
  · rintro ⟨more, rest, hSplit, hPartial, hWhole, hRest⟩
    rcases more with _ | ⟨d, more⟩
    · exact absurd hWhole (by rw [List.sum_nil]; omega)
    obtain ⟨rfl, rfl⟩ := List.cons_eq_cons.mp hSplit
    rw [List.sum_cons] at hWhole hRest
    refine ⟨more, rest, rfl, ?_, by omega, ?_⟩
    · intro i hi
      have hNext := hPartial (i + 1) (by simpa using hi)
      rw [List.take_succ_cons, List.sum_cons] at hNext
      omega
    · have hUnread : more.sum - (missing - c) = c + more.sum - missing := by omega
      rwa [hUnread]
  · rintro ⟨more, rest, rfl, hPartial, hWhole, hRest⟩
    refine ⟨c :: more, rest, rfl, ?_, by rw [List.sum_cons]; omega, ?_⟩
    · intro i hi
      rcases i with _ | i
      · rw [List.take_zero, List.sum_nil]
        omega
      · have hPrev := hPartial i (by simpa using hi)
        rw [List.take_succ_cons, List.sum_cons]
        omega
    · have hUnread : (c :: more).sum - missing = more.sum - (missing - c) := by
        rw [List.sum_cons]
        omega
      rwa [hUnread]

theorem not_finishing_nil (hPos : 0 < missing) : ¬ Finishing sizes missing [] := by
  rintro ⟨more, rest, hSplit, -, hWhole, -⟩
  have hMore : more = [] := (List.append_eq_nil_iff.mp hSplit.symm).1
  rw [hMore, List.sum_nil] at hWhole
  omega

theorem not_inTurn_nil : ¬ InTurn (size :: sizes) unread [] := by
  generalize hCallbacks : ([] : List ℕ) = callbacks
  rintro (_ | _)
  cases hCallbacks

theorem inTurn_cons_iff : InTurn (size :: sizes) unread (c :: cs) ↔
    0 < size ∧ 13 ≤ unread + c ∧
      if 12 + size ≤ unread + c then InTurn sizes (unread + c - (12 + size)) cs
      else Finishing sizes (12 + size - (unread + c)) cs := by
  constructor
  · generalize hCallbacks : c :: cs = callbacks
    intro h
    cases h with
    | @frame _ _ _ first more rest hSize hFirst hPartial hWhole hRest =>
      obtain ⟨rfl, rfl⟩ := List.cons_eq_cons.mp hCallbacks
      refine ⟨hSize, hFirst, ?_⟩
      split
      · rename_i hArrived
        rcases more with _ | ⟨d, more⟩
        · simpa using hRest
        · have hNone := hPartial 0 (by simp)
          rw [List.take_zero, List.sum_nil] at hNone
          omega
      · refine ⟨more, rest, rfl, ?_, by omega, ?_⟩
        · intro i hi
          have hHere := hPartial i hi
          omega
        · have hUnread : more.sum - (12 + size - (unread + c)) =
              unread + c + more.sum - (12 + size) := by omega
          rwa [hUnread]
  · rintro ⟨hSize, hFirst, hThen⟩
    split at hThen
    · have hAlone : InTurn (size :: sizes) unread (c :: [] ++ cs) :=
        .frame hSize hFirst (by simp) (by simpa using ‹_›) (by simpa using hThen)
      exact hAlone
    · obtain ⟨more, rest, rfl, hPartial, hWhole, hRest⟩ := hThen
      refine .frame hSize hFirst ?_ (by omega) ?_
      · intro i hi
        have hHere := hPartial i hi
        omega
      · have hUnread : unread + c + more.sum - (12 + size) =
            more.sum - (12 + size - (unread + c)) := by omega
        rwa [hUnread]

end

/-! ## The bytes of the frames -/

def DataPacketHeader.bytes (h : DataPacketHeader) : List UInt8 :=
  dataPacketHeader.serialize h ++ NetworkPacket.create h.frameSize

theorem DataPacketHeader.length_bytes (h : DataPacketHeader) :
    h.bytes.length = 12 + h.frameSize.toNat := by
  have hLength : (dataPacketHeader.serialize h).length = 12 := (dataPacketHeader_readsAs h).size.symm
  rw [bytes, List.length_append, hLength, NetworkPacket.create, List.length_replicate]

theorem word_length {n v : ℕ} {l rest : List UInt8} (h : word n l = some (v, rest)) :
    l.length = n + rest.length := by
  rw [word] at h
  split at h
  · cases h
    rw [List.length_drop]
    omega
  · cases h

/-- A header that is not whole fails the bounds assertion of a read. -/
theorem removeHeader_of_short {l : List UInt8} (h : l.length < 12) :
    removeHeader dataPacketHeader l = none := by
  rw [removeHeader]
  cases hRead : dataPacketHeader.deserialize l with
  | none => rfl
  | some p =>
    exfalso
    have hU32 : ∀ {l : List UInt8} {v : UInt32} {rest : List UInt8},
        readU32 l = some (v, rest) → l.length = 4 + rest.length := by
      intro l v rest hWord
      obtain ⟨⟨n, rest'⟩, hWord, hEq⟩ := Option.bind_eq_some_iff.mp hWord
      cases hEq
      exact word_length hWord
    have hU16 : ∀ {l : List UInt8} {v : UInt16} {rest : List UInt8},
        readU16 l = some (v, rest) → l.length = 2 + rest.length := by
      intro l v rest hWord
      obtain ⟨⟨n, rest'⟩, hWord, hEq⟩ := Option.bind_eq_some_iff.mp hWord
      cases hEq
      exact word_length hWord
    obtain ⟨⟨a, l₁⟩, h₁, hRead⟩ := Option.bind_eq_some_iff.mp hRead
    obtain ⟨⟨b, l₂⟩, h₂, hRead⟩ := Option.bind_eq_some_iff.mp hRead
    obtain ⟨⟨c, l₃⟩, h₃, hRead⟩ := Option.bind_eq_some_iff.mp hRead
    obtain ⟨⟨d, l₄⟩, h₄, -⟩ := Option.bind_eq_some_iff.mp hRead
    have e₁ := hU32 h₁
    have e₂ := hU32 h₂
    have e₃ := hU16 h₃
    have e₄ := hU16 h₄
    omega

theorem addHeader_eq_some {α : Type} {H : Header α} {h back : α} {packet w : List UInt8}
    (hReads : H.ReadsAs h back) (hAdd : addHeader H h packet = some w) : w = H.serialize h ++ packet := by
  by_cases hSize : (H.serialize h).length + packet.length < 2 ^ 32
  · rw [addHeader_eq hReads hSize] at hAdd
    exact (Option.some.inj hAdd).symm
  · rw [← hReads.size] at hSize
    simp only [addHeader, if_neg hSize] at hAdd
    cases hAdd

namespace PacketSenderTcp

/-- The stream is made of the frames sent, and each queued packet carries its whole frame. -/
structure Sound (s : PacketSenderTcp) : Prop where
  stream : s.stream = s.sent.flatMap DataPacketHeader.bytes
  queue : ∀ f ∈ s.queue, f.payloadSize = f.header.frameSize

theorem Sound.step {s s' : PacketSenderTcp} {e : TcpSenderEvent} (h : s.Sound)
    (hStep : s.step e = some s') : s'.Sound := by
  cases e with
  | createFrame frameId pktId dataSize =>
    cases hStep
    refine ⟨h.stream, ?_⟩
    intro f hf
    rcases List.mem_append.mp hf with hf | hf
    · exact h.queue f hf
    · rw [List.mem_singleton.mp hf]
  | sendPacket connected sendif =>
    rw [PacketSenderTcp.step, sendPacket] at hStep
    split at hStep
    · cases hStep
      exact h
    · rename_i frame queue hQueue
      obtain ⟨packet, hPacket, hStep⟩ := Option.bind_eq_some_iff.mp hStep
      split at hStep
      · cases hStep
        have hFrame := h.queue frame (hQueue ▸ List.mem_cons_self)
        have hBytes : packet = frame.header.bytes := by
          rw [addHeader_eq_some (dataPacketHeader_readsAs _) hPacket, hFrame]
          rfl
        constructor
        · rw [List.flatMap_append, h.stream, hBytes]
          simp
        · intro f hf
          exact h.queue f (hQueue ▸ List.mem_cons_of_mem frame hf)
      · cases hStep
        exact h

theorem Sound.run {events : List TcpSenderEvent} {s s' : PacketSenderTcp} (h : s.Sound)
    (hRun : PartialRun.run PacketSenderTcp.step s events = some s') : s'.Sound :=
  invariant_of_step (fun _ _ _ (hSound : Sound _) hStep => hSound.step hStep) h hRun

end PacketSenderTcp

/-! ## One callback -/

theorem recv_nil (maxSize : UInt32) : recv [] maxSize = none := by
  simp [recv]

theorem recv_of_pos {buffer : List UInt8} {maxSize : UInt32} (hBuffer : buffer ≠ [])
    (hSize : 0 < maxSize.toNat) :
    recv buffer maxSize = some (buffer.take maxSize.toNat, buffer.drop maxSize.toNat) := by
  have hTake : buffer.take maxSize.toNat ≠ [] := by
    rw [Ne, List.take_eq_nil_iff, not_or]
    exact ⟨by omega, hBuffer⟩
  simp only [recv, if_neg hTake]

theorem recv_zero (buffer : List UInt8) {maxSize : UInt32} (h : maxSize.toNat = 0) :
    recv buffer maxSize = none := by
  simp [recv, h]

namespace PacketReceiverTcp

/-- The receiver is between two frames. -/
structure AtStart (r : PacketReceiverTcp) (buffer : List UInt8) (decoded : List DataPacketHeader) :
    Prop where
  start : r.recvPktStart = true
  buffer : r.buffer = buffer
  decoded : r.decoded = decoded

/-- The receiver lacks `missing` bytes of the frame of `h`. -/
structure Within (r : PacketReceiverTcp) (h : DataPacketHeader) (missing : ℕ)
    (decoded : List DataPacketHeader) : Prop where
  start : r.recvPktStart = false
  header : r.curHdr = h
  missing : r.bytesToRecv.toNat = missing
  buffer : r.buffer = []
  decoded : r.decoded = decoded

variable {r : PacketReceiverTcp} {buffer segment after tail : List UInt8}
  {decoded : List DataPacketHeader} {h : DataPacketHeader} {missing : ℕ}

theorem take_header {arrived : List UInt8} (hArrived : arrived ++ after = h.bytes ++ tail)
    (hLength : 12 ≤ arrived.length) : arrived.take 12 = dataPacketHeader.serialize h := by
  have hHeader : (dataPacketHeader.serialize h).length = 12 := (dataPacketHeader_readsAs h).size.symm
  calc
    arrived.take 12 = (arrived ++ after).take 12 := (List.take_append_of_le_length hLength).symm
    _ = (dataPacketHeader.serialize h ++ (NetworkPacket.create h.frameSize ++ tail)).take 12 := by
      rw [hArrived, DataPacketHeader.bytes, List.append_assoc]
    _ = dataPacketHeader.serialize h := by
      rw [List.take_append_of_le_length hHeader.ge, List.take_of_length_le hHeader.le]

theorem removeHeader_serialize (h : DataPacketHeader) :
    removeHeader dataPacketHeader (dataPacketHeader.serialize h) = some (h, []) := by
  have hRemove := removeHeader_eq [] (dataPacketHeader_readsAs h)
  rwa [List.append_nil] at hRemove

/-- Without a byte of the payload at hand, or with an empty frame, the callback fails. -/
theorem receive_of_early (hAt : AtStart r buffer decoded)
    (hArrived : buffer ++ segment ++ after = h.bytes ++ tail)
    (hEarly : (buffer ++ segment).length < 13 ∨ h.frameSize.toNat = 0) :
    r.receive segment = none := by
  rw [receive, onSocketRecv, if_pos hAt.start, hAt.buffer]
  by_cases hShort : (buffer ++ segment).length < 12
  · by_cases hNone : buffer ++ segment = []
    · rw [hNone, recv_nil]
      rfl
    · rw [recv_of_pos hNone (by decide)]
      have hTake : ((buffer ++ segment).take (UInt32.toNat 12)).length < 12 := by
        rw [List.length_take]
        exact (Nat.min_le_right ..).trans_lt hShort
      simp only [Option.bind_eq_bind, Option.bind_some, removeHeader_of_short hTake, Option.bind_none]
  · have hNone : buffer ++ segment ≠ [] := by
      intro hNil
      rw [hNil] at hShort
      exact hShort (by decide)
    have hHeader : (buffer ++ segment).take (UInt32.toNat 12) = dataPacketHeader.serialize h :=
      take_header hArrived (Nat.not_lt.mp hShort)
    have hPayload : recv ((buffer ++ segment).drop (UInt32.toNat 12)) h.frameSize = none := by
      rcases hEarly with hLess | hZero
      · have hDrop : (buffer ++ segment).drop (UInt32.toNat 12) = [] := by
          apply List.drop_of_length_le
          change (buffer ++ segment).length ≤ 12
          omega
        rw [hDrop, recv_nil]
      · exact recv_zero _ hZero
    rw [recv_of_pos hNone (by decide)]
    simp only [Option.bind_eq_bind, Option.bind_some, hHeader, removeHeader_serialize, hPayload,
      Option.bind_none]

/-- A callback that starts a frame reads what has arrived of it. -/
theorem receive_at_start (hAt : AtStart r buffer decoded)
    (hArrived : buffer ++ segment ++ after = h.bytes ++ tail)
    (hLength : 13 ≤ (buffer ++ segment).length) (hSize : 0 < h.frameSize.toNat) :
    ∃ r', r.receive segment = some r' ∧
      if 12 + h.frameSize.toNat ≤ (buffer ++ segment).length then
        AtStart r' ((buffer ++ segment).drop (12 + h.frameSize.toNat)) (decoded ++ [h])
      else Within r' h (12 + h.frameSize.toNat - (buffer ++ segment).length) decoded := by
  have hNone : buffer ++ segment ≠ [] := by
    intro hNil
    rw [hNil] at hLength
    exact absurd hLength (by decide)
  have hHeader : (buffer ++ segment).take (UInt32.toNat 12) = dataPacketHeader.serialize h :=
    take_header hArrived (by omega)
  have hDropLength : ((buffer ++ segment).drop (UInt32.toNat 12)).length =
      (buffer ++ segment).length - 12 := List.length_drop ..
  have hDrop : (buffer ++ segment).drop (UInt32.toNat 12) ≠ [] := by
    intro hNil
    rw [hNil, List.length_nil] at hDropLength
    omega
  have hTake : (((buffer ++ segment).drop (UInt32.toNat 12)).take h.frameSize.toNat).length =
      min h.frameSize.toNat ((buffer ++ segment).length - 12) := by
    rw [List.length_take, hDropLength]
  have hRest : ((buffer ++ segment).drop (UInt32.toNat 12)).drop h.frameSize.toNat =
      (buffer ++ segment).drop (12 + h.frameSize.toNat) := List.drop_drop ..
  rw [receive, onSocketRecv, if_pos hAt.start, hAt.buffer, recv_of_pos hNone (by decide)]
  simp only [Option.bind_eq_bind, Option.bind_some, hHeader, removeHeader_serialize,
    recv_of_pos hDrop hSize, hTake, hRest]
  split
  · rename_i hLess
    have hPartial : ¬ 12 + h.frameSize.toNat ≤ (buffer ++ segment).length := by omega
    refine ⟨_, rfl, ?_⟩
    rw [if_neg hPartial]
    refine ⟨rfl, rfl, ?_, ?_, hAt.decoded⟩
    · have hFit : min h.frameSize.toNat ((buffer ++ segment).length - 12) =
          (buffer ++ segment).length - 12 := by omega
      have hFrame := h.frameSize.toNat_lt
      have hWord : (UInt32.ofNat ((buffer ++ segment).length - 12)).toNat =
          (buffer ++ segment).length - 12 := by
        rw [UInt32.toNat_ofNat', Nat.mod_eq_of_lt (by omega)]
      change (h.frameSize - UInt32.ofNat (min h.frameSize.toNat _)).toNat = _
      rw [hFit, UInt32.toNat_sub_of_le _ _ (UInt32.le_iff_toNat_le.mpr (by omega)), hWord]
      omega
    · exact List.drop_of_length_le (by omega)
  · rename_i hMore
    have hWhole : 12 + h.frameSize.toNat ≤ (buffer ++ segment).length := by omega
    refine ⟨_, rfl, ?_⟩
    rw [if_pos hWhole]
    refine ⟨?_, ?_, ?_⟩
    · simp only [decode, hAt.start, if_true]
    · simp only [decode, hAt.start, if_true]
    · simp only [decode, hAt.start, if_true, hAt.decoded]

/-- A callback within a frame reads what has arrived of the rest. -/
theorem receive_within (hAt : Within r h missing decoded) (hMissing : 0 < missing)
    (hSegment : segment ≠ []) : ∃ r', r.receive segment = some r' ∧
      if missing ≤ segment.length then AtStart r' (segment.drop missing) (decoded ++ [h])
      else Within r' h (missing - segment.length) decoded := by
  have hStart : ¬ r.recvPktStart = true := by rw [hAt.start]; decide
  have hPos : 0 < r.bytesToRecv.toNat := by rw [hAt.missing]; exact hMissing
  rw [receive, onSocketRecv, if_neg hStart, hAt.buffer, List.nil_append, recv_of_pos hSegment hPos]
  simp only [Option.bind_eq_bind, Option.bind_some, List.length_take, hAt.missing]
  split
  · rename_i hLess
    have hPartial : ¬ missing ≤ segment.length := by omega
    refine ⟨_, rfl, ?_⟩
    rw [if_neg hPartial]
    simp only [decode, hAt.start, Bool.false_eq_true, if_false]
    refine ⟨rfl, hAt.header, ?_, List.drop_of_length_le (by omega), hAt.decoded⟩
    have hBytes := r.bytesToRecv.toNat_lt
    rw [hAt.missing] at hBytes
    have hFit : min missing segment.length = segment.length := by omega
    have hWord : (UInt32.ofNat segment.length).toNat = segment.length := by
      rw [UInt32.toNat_ofNat', Nat.mod_eq_of_lt (by omega)]
    rw [hFit, UInt32.toNat_sub_of_le _ _ (UInt32.le_iff_toNat_le.mpr (by rw [hWord, hAt.missing]; omega)),
      hWord, hAt.missing]
  · rename_i hMore
    have hWhole : missing ≤ segment.length := by omega
    refine ⟨_, rfl, ?_⟩
    rw [if_pos hWhole]
    simp only [decode, if_true]
    exact ⟨rfl, rfl, by rw [hAt.decoded, hAt.header]⟩

/-! ## Every cut of the stream -/

def frameSizes (frames : List DataPacketHeader) : List ℕ :=
  frames.map fun h => h.frameSize.toNat

/-- All callbacks succeed, and the decoder is given `frames` after what it has got. -/
def Decodes (r : PacketReceiverTcp) (segments : List (List UInt8)) (frames : List DataPacketHeader) :
    Prop :=
  ∃ final, run receive r segments = some final ∧ final.decoded = r.decoded ++ frames

theorem decodes_cons {r' : PacketReceiverTcp} {segments : List (List UInt8)}
    {frames : List DataPacketHeader} (hStep : r.receive segment = some r') :
    Decodes r (segment :: segments) frames ↔
      ∃ final, run receive r' segments = some final ∧ final.decoded = r.decoded ++ frames := by
  rw [Decodes, run_cons, hStep, Option.bind_some]

/-- Between two frames, and within one, the receiver decodes what is left exactly when the callbacks
serve it in turn. -/
theorem decodes_iff (segments : List (List UInt8)) (hSegments : ∀ segment ∈ segments, segment ≠ []) :
    (∀ (r : PacketReceiverTcp) buffer decoded frames, AtStart r buffer decoded →
      buffer ++ segments.flatten = frames.flatMap DataPacketHeader.bytes →
        (Decodes r segments frames ↔
          InTurn (frameSizes frames) buffer.length (segments.map List.length))) ∧
    (∀ (r : PacketReceiverTcp) h missing decoded frames tail, Within r h missing decoded →
      0 < missing → tail.length = missing →
      segments.flatten = tail ++ frames.flatMap DataPacketHeader.bytes →
        (Decodes r segments (h :: frames) ↔
          Finishing (frameSizes frames) missing (segments.map List.length))) := by
  induction segments with
  | nil =>
    constructor
    · intro r buffer decoded frames hAt hStream
      rw [List.flatten_nil, List.append_nil] at hStream
      rcases frames with _ | ⟨h, frames⟩
      · have hBuffer : buffer = [] := hStream
        rw [hBuffer]
        exact iff_of_true ⟨r, rfl, (List.append_nil _).symm⟩ .done
      · apply iff_of_false
        · rintro ⟨final, hRun, hDecoded⟩
          cases hRun
          simp at hDecoded
        · exact not_inTurn_nil
    · intro r h missing decoded frames tail hAt hMissing hTail hStream
      apply iff_of_false
      · rintro ⟨final, hRun, hDecoded⟩
        cases hRun
        simp at hDecoded
      · exact not_finishing_nil hMissing
  | cons segment segments ih =>
    have hSegment := hSegments segment List.mem_cons_self
    obtain ⟨ihStart, ihWithin⟩ := ih fun s hs => hSegments s (List.mem_cons_of_mem segment hs)
    constructor
    · intro r buffer decoded frames hAt hStream
      rw [List.flatten_cons, ← List.append_assoc] at hStream
      rcases frames with _ | ⟨h, frames⟩
      · have hNil : buffer ++ segment = [] := (List.append_eq_nil_iff.mp hStream).1
        exact absurd (List.append_eq_nil_iff.mp hNil).2 hSegment
      rw [List.flatMap_cons] at hStream
      change _ ↔ InTurn (h.frameSize.toNat :: frameSizes frames) buffer.length
        (segment.length :: segments.map List.length)
      rw [inTurn_cons_iff, ← List.length_append]
      by_cases hReady : 0 < h.frameSize.toNat ∧ 13 ≤ (buffer ++ segment).length
      · obtain ⟨r', hStep, hNext⟩ := receive_at_start hAt hStream hReady.2 hReady.1
        rw [decodes_cons hStep, and_iff_right hReady.1, and_iff_right hReady.2]
        split at hNext
        · rename_i hWhole
          have hLeft : (buffer ++ segment).drop (12 + h.frameSize.toNat) ++ segments.flatten =
              frames.flatMap DataPacketHeader.bytes := by
            rw [← List.drop_append_of_le_length hWhole, hStream,
              List.drop_append_of_le_length h.length_bytes.ge,
              List.drop_of_length_le h.length_bytes.le, List.nil_append]
          have hRest := ihStart r' _ _ frames hNext hLeft
          rw [List.length_drop] at hRest
          rw [if_pos hWhole, ← hRest, Decodes, hNext.decoded, hAt.decoded]
          simp only [List.append_assoc, List.singleton_append]
        · rename_i hPartial
          have hTail : segments.flatten = h.bytes.drop (buffer ++ segment).length ++
              frames.flatMap DataPacketHeader.bytes := by
            rw [← List.drop_append_of_le_length (by rw [h.length_bytes]; omega), ← hStream,
              List.drop_left]
          have hRest := ihWithin r' h _ _ frames _ hNext (by omega)
            (by rw [List.length_drop, h.length_bytes]) hTail
          rw [if_neg hPartial, ← hRest, Decodes, hNext.decoded, hAt.decoded]
      · have hFail : r.receive segment = none := receive_of_early hAt hStream (by omega)
        apply iff_of_false
        · rintro ⟨final, hRun, -⟩
          rw [run_cons, hFail] at hRun
          cases hRun
        · rintro ⟨hSize, hLength, -⟩
          exact hReady ⟨hSize, hLength⟩
    · intro r h missing decoded frames tail hAt hMissing hTail hStream
      obtain ⟨r', hStep, hNext⟩ := receive_within hAt hMissing hSegment
      rw [List.flatten_cons] at hStream
      rw [decodes_cons hStep, List.map_cons]
      split at hNext
      · rename_i hWhole
        have hLeft : segment.drop missing ++ segments.flatten =
            frames.flatMap DataPacketHeader.bytes := by
          rw [← List.drop_append_of_le_length hWhole, hStream,
            List.drop_append_of_le_length hTail.ge, List.drop_of_length_le hTail.le, List.nil_append]
        have hRest := ihStart r' _ _ frames hNext hLeft
        rw [List.length_drop] at hRest
        rw [finishing_cons_of_le hMissing hWhole, ← hRest, Decodes, hNext.decoded, hAt.decoded]
        simp only [List.append_assoc, List.singleton_append]
      · rename_i hPartial
        have hLess := Nat.not_le.mp hPartial
        have hRestTail : segments.flatten = tail.drop segment.length ++
            frames.flatMap DataPacketHeader.bytes := by
          rw [← List.drop_append_of_le_length (by omega), ← hStream, List.drop_left]
        have hRest := ihWithin r' h _ _ frames _ hNext (by omega)
          (by rw [List.length_drop, hTail]) hRestTail
        rw [finishing_cons_of_lt hLess, ← hRest, Decodes, hNext.decoded, hAt.decoded]

end PacketReceiverTcp

/-- For every run of the sender and every cut of its stream, the receiver decodes the frames as sent
exactly when the callbacks serve them in turn. -/
theorem frames_reassembled_iff (events : List TcpSenderEvent) (sender : PacketSenderTcp)
    (hSender : run PacketSenderTcp.step {} events = some sender) (segments : List (List UInt8))
    (hSegments : ∀ segment ∈ segments, segment ≠ []) (hCut : segments.flatten = sender.stream) :
    (∃ receiver, run PacketReceiverTcp.receive {} segments = some receiver ∧
        receiver.decoded = sender.sent) ↔
      InTurn (sender.sent.map fun h => h.frameSize.toNat) 0 (segments.map List.length) := by
  have hSound : sender.Sound := PacketSenderTcp.Sound.run ⟨rfl, by simp⟩ hSender
  exact (PacketReceiverTcp.decodes_iff segments hSegments).1 {} [] [] sender.sent ⟨rfl, rfl, rfl⟩
    (by rw [List.nil_append, hCut, hSound.stream])

/-- Two frames sent as soon as they are made. -/
def twoFrames : List TcpSenderEvent :=
  [.createFrame 1 0 3, .sendPacket true 15, .createFrame 2 0 1, .sendPacket true 13]

def twoFramesSent : PacketSenderTcp where
  stream := [0, 0, 0, 1, 0, 0, 0, 3, 0, 1, 0, 0, 0, 0, 0] ++ [0, 0, 0, 2, 0, 0, 0, 1, 0, 1, 0, 0, 0]
  sent := [⟨1, 3, 1, 0⟩, ⟨2, 1, 1, 0⟩]

theorem run_twoFrames : run PacketSenderTcp.step {} twoFrames = some twoFramesSent := by
  decide

/-- The second callback brings the end of the first frame and the header of the second. -/
theorem reassembled_in_three : ∃ receiver, run PacketReceiverTcp.receive {}
      [[0, 0, 0, 1, 0, 0, 0, 3, 0, 1, 0, 0, 0, 0], [0, 0, 0, 0, 2, 0, 0, 0, 1, 0, 1, 0, 0], [0]] =
        some receiver ∧ receiver.decoded = twoFramesSent.sent := by
  apply (frames_reassembled_iff twoFrames twoFramesSent run_twoFrames _ (by simp) (by rfl)).mpr
  have hSecond : InTurn [1] 12 (1 :: [] ++ []) :=
    .frame (by decide) (by decide) (by decide) (by decide) .done
  have hFirst : InTurn [3, 1] 0 (14 :: [13] ++ [1]) :=
    .frame (by decide) (by decide) (by decide) (by decide) hSecond
  exact hFirst

/-- When one callback brings both frames the second is never decoded. -/
theorem second_frame_left : ¬ ∀ (events : List TcpSenderEvent) (sender : PacketSenderTcp),
    run PacketSenderTcp.step {} events = some sender → ∀ segments : List (List UInt8),
      (∀ segment ∈ segments, segment ≠ []) → segments.flatten = sender.stream →
        ∃ receiver, run PacketReceiverTcp.receive {} segments = some receiver ∧
          receiver.decoded = sender.sent := by
  intro hAll
  obtain ⟨receiver, hRun, hDecoded⟩ := hAll twoFrames twoFramesSent run_twoFrames
    [twoFramesSent.stream] (by simp [twoFramesSent]) (by simp)
  have hFirst : (run PacketReceiverTcp.receive {} [twoFramesSent.stream]).map
      PacketReceiverTcp.decoded = some [⟨1, 3, 1, 0⟩] := by decide
  rw [hRun, Option.map_some, hDecoded] at hFirst
  exact absurd hFirst (by decide)

end Bullet.Stream
