import Bullet.Stream.DecoderSteps
import Bullet.Stream.GroupDelivery
import Bullet.Stream.GroupLifecycle

/-! # What a receiver makes of what arrives

The place of a data packet in its group and in its frame is never changed on the way. Groups, frames and
acknowledgements of the receiver are made of the places that arrived, and a place that was acknowledged
has reached its frame.
-/

namespace Bullet.Stream

/-- The place of a data packet in its group and in its frame. -/
structure Cargo where
  groupId : UInt32
  pktIdInGroup : UInt16
  frameId : UInt32
  framePktNum : UInt16
  pktIdInFrame : UInt16
deriving DecidableEq, Repr

def Cargo.key (c : Cargo) : UInt32 × UInt16 := (c.groupId, c.pktIdInGroup)

def DataPacket.cargo (pkt : DataPacket) : Cargo :=
  ⟨pkt.groupId, pkt.pktIdInGroup, pkt.frameId, pkt.framePktNum, pkt.pktIdInFrame⟩

/-- What a digest says, in a FEC packet of the group. -/
def DataPktDigest.cargo (digest : DataPktDigest) (groupId : UInt32) : Cargo :=
  ⟨groupId, digest.pktIdInGroup, digest.frameId, digest.framePktNum, digest.pktIdInFrame⟩

variable {P Q : Cargo → Prop}

/-- The packet is, or protects, nothing but such data packets. -/
def VideoPacket.Carries (P : Cargo → Prop) : VideoPacket → Prop
  | .data pkt => P pkt.cargo
  | .dupFec pkt => P pkt.cargo
  | .fec pkt => ∀ digest ∈ pkt.dataPkts, P (digest.cargo pkt.groupId)

theorem VideoPacket.Carries.mono {pkt : VideoPacket} (h : pkt.Carries P) (hPQ : ∀ c, P c → Q c) :
    pkt.Carries Q := by
  cases pkt with
  | data pkt => exact hPQ _ h
  | dupFec pkt => exact hPQ _ h
  | fec pkt => exact fun digest hMem => hPQ _ (h digest hMem)

/-! ## Packet groups -/

structure PacketBatch.Holds (P : Cargo → Prop) (groupId : UInt32) (b : PacketBatch) : Prop where
  undecoded : ∀ pkt ∈ b.undecodedPkts, P pkt.cargo
  fec : ∀ id pkt, b.fecPkts.lookup id = some pkt → ∀ digest ∈ pkt.dataPkts, P (digest.cargo groupId)

structure PacketGroup.Holds (P : Cargo → Prop) (g : PacketGroup) : Prop where
  undecoded : ∀ pkt ∈ g.undecodedPkts, P pkt.cargo
  incomplete : ∀ id b, g.incompleteBatches.lookup id = some b → b.Holds P g.groupId

theorem PacketBatch.Holds.mono {groupId : UInt32} {b : PacketBatch} (h : b.Holds P groupId)
    (hPQ : ∀ c, P c → Q c) : b.Holds Q groupId where
  undecoded pkt hMem := hPQ _ (h.undecoded pkt hMem)
  fec id pkt hLookup digest hMem := hPQ _ (h.fec id pkt hLookup digest hMem)

theorem PacketGroup.Holds.mono {g : PacketGroup} (h : g.Holds P) (hPQ : ∀ c, P c → Q c) :
    g.Holds Q where
  undecoded pkt hMem := hPQ _ (h.undecoded pkt hMem)
  incomplete id b hLookup := (h.incomplete id b hLookup).mono hPQ

theorem PacketBatch.Holds.addPacket {groupId : UInt32} {b : PacketBatch} {pkt : VideoPacket}
    (h : b.Holds P groupId) (hGroup : pkt.header.groupId = groupId) (hCarries : pkt.Carries P) :
    (b.addPacket pkt).Holds P groupId := by
  unfold PacketBatch.addPacket
  split
  · exact h
  have hData : ∀ data : DataPacket, P data.cargo →
      ∀ pkt ∈ b.undecodedPkts ++ [data], P pkt.cargo := by
    intro data hHeld pkt hMem
    rcases List.mem_append.mp hMem with hOld | hNew
    · exact h.undecoded pkt hOld
    · rwa [List.mem_singleton.mp hNew]
  cases pkt with
  | data data => exact ⟨hData data hCarries, h.fec⟩
  | dupFec data => exact ⟨hData data hCarries, h.fec⟩
  | fec fec =>
    refine ⟨h.undecoded, fun id other hLookup => ?_⟩
    by_cases hId : id = fec.pktIdInBatch
    · rw [hId, AList.lookup_insert] at hLookup
      cases hLookup
      exact hGroup ▸ hCarries
    · exact h.fec id other ((AList.lookup_insert_ne hId).symm.trans hLookup)

theorem PacketGroup.Holds.batchWith {g : PacketGroup} {pkt : VideoPacket} {b : PacketBatch}
    (h : g.Holds P) (hGroup : pkt.header.groupId = g.groupId) (hCarries : pkt.Carries P)
    (hBatch : g.batchWith pkt = some b) : b.Holds P g.groupId := by
  rw [PacketGroup.batchWith] at hBatch
  split at hBatch
  · rw [PacketBatch.create] at hBatch
    split at hBatch
    · cases hBatch
      have hEmpty : (PacketBatch.ofHeader pkt.header).Holds P g.groupId :=
        ⟨fun _ hMem => absurd hMem List.not_mem_nil, fun _ _ hLookup => by cases hLookup⟩
      exact hEmpty.addPacket hGroup hCarries
    · cases hBatch
  · next old hOld =>
    cases hBatch
    exact (h.incomplete _ old hOld).addPacket hGroup hCarries

theorem PacketBatch.Holds.checkComplete {begin : FirstEntry} {g : PacketGroup} {b b' : PacketBatch}
    {now : Time} {complete : Bool} (h : b.Holds P g.groupId)
    (hCheck : b.checkComplete begin g now = some (complete, b')) : b'.Holds P g.groupId := by
  rw [PacketBatch.checkComplete] at hCheck
  split at hCheck
  · split at hCheck
    · cases hCheck
      exact h
    split at hCheck
    · obtain ⟨fec, hFirst, hCheck⟩ := Option.bind_eq_some_iff.mp hCheck
      cases hCheck
      obtain ⟨id, hLookup⟩ := begin.mem_of_first _ _ hFirst
      refine ⟨fun pkt hMem => ?_, fun _ _ hNone => by cases hNone⟩
      rcases List.mem_append.mp hMem with hOld | hNew
      · exact h.undecoded pkt hOld
      · obtain ⟨digest, hDigest, rfl⟩ := List.mem_map.mp hNew
        exact h.fec id fec hLookup digest (List.mem_of_mem_filter hDigest)
    · cases hCheck
  · cases hCheck
    exact h

theorem PacketGroup.Holds.storeBatch {g : PacketGroup} {b : PacketBatch} (h : g.Holds P)
    (hBatch : b.Holds P g.groupId) (batchId : UInt32) (complete : Bool) :
    (g.storeBatch batchId complete b).Holds P := by
  have hUndecoded : ∀ pkt ∈ g.undecodedPkts ++ b.undecodedPkts, P pkt.cargo := by
    intro pkt hMem
    exact (List.mem_append.mp hMem).elim (h.undecoded pkt) (hBatch.undecoded pkt)
  cases complete with
  | true =>
    refine ⟨hUndecoded, fun id other hLookup => ?_⟩
    by_cases hId : id = batchId
    · rw [hId] at hLookup
      exact absurd ((AList.lookup_erase batchId g.incompleteBatches).symm.trans hLookup) nofun
    · exact h.incomplete id other ((AList.lookup_erase_ne hId).symm.trans hLookup)
  | false =>
    refine ⟨hUndecoded, fun id other hLookup => ?_⟩
    by_cases hId : id = batchId
    · rw [hId] at hLookup
      have hStored := (AList.lookup_insert g.incompleteBatches).symm.trans hLookup
      cases hStored
      exact ⟨fun _ hMem => absurd hMem List.not_mem_nil, hBatch.fec⟩
    · exact h.incomplete id other ((AList.lookup_insert_ne hId).symm.trans hLookup)

theorem PacketGroup.Holds.addPacket {begin : FirstEntry} {g g' : PacketGroup} {pkt : VideoPacket}
    {now : Time} (h : g.Holds P) (hGroup : pkt.header.groupId = g.groupId)
    (hCarries : pkt.Carries P) (hAdd : g.addPacket begin pkt now = some g') : g'.Holds P := by
  have hSame := PacketGroup.recordPacket_same g pkt
  have hId := PacketReceiverUdp.recordPacket_groupId g pkt
  have hRecord : (g.recordPacket pkt).Holds P :=
    ⟨hSame.undecodedPkts ▸ h.undecoded, by rw [hSame.incompleteBatches, hId]; exact h.incomplete⟩
  rw [← hId] at hGroup
  simp only [PacketGroup.addPacket] at hAdd
  split at hAdd
  · cases hAdd
    exact hRecord
  · obtain ⟨b, hBatch, hAdd⟩ := Option.bind_eq_some_iff.mp hAdd
    obtain ⟨⟨complete, b'⟩, hCheck, hAdd⟩ := Option.bind_eq_some_iff.mp hAdd
    cases hAdd
    exact hRecord.storeBatch ((hRecord.batchWith hGroup hCarries hBatch).checkComplete hCheck) _ _

/-! ## Frames -/

structure VideoFrame.MadeOf (P : Cargo → Prop) (frameId : ℕ) (frame : VideoFrame) : Prop where
  sized : ∃ c, P c ∧ c.frameId.toNat = frameId ∧ c.framePktNum = frame.dataPktNum
  filled : ∀ id ∈ frame.pkts, ∃ c, P c ∧ c.frameId.toNat = frameId ∧ c.pktIdInFrame = id

theorem VideoFrame.MadeOf.mono {frameId : ℕ} {frame : VideoFrame} (h : frame.MadeOf P frameId)
    (hPQ : ∀ c, P c → Q c) : frame.MadeOf Q frameId := by
  refine ⟨?_, fun id hMem => ?_⟩
  · obtain ⟨c, hHeld, hFrame⟩ := h.sized
    exact ⟨c, hPQ c hHeld, hFrame⟩
  · obtain ⟨c, hHeld, hFrame⟩ := h.filled id hMem
    exact ⟨c, hPQ c hHeld, hFrame⟩

namespace VideoDecoder

/-- Frames move from the buffer to the played frames, and complete ones are acknowledged. -/
structure Moves (d d' : VideoDecoder) : Prop where
  kept : ∀ id frame, d.unplayedFrames.lookup id = some (some frame) →
    d'.unplayedFrames.lookup id = some (some frame) ∨ id ∈ d'.playedFrames
  still : ∀ id ∈ d.playedFrames, id ∈ d'.playedFrames
  unplayed : ∀ id frame, d'.unplayedFrames.lookup id = some (some frame) →
    d.unplayedFrames.lookup id = some (some frame)
  played : ∀ id frame, d'.playedFrames.lookup id = some (some frame) →
    d.playedFrames.lookup id = some (some frame) ∨ d.unplayedFrames.lookup id = some (some frame)
  acked : ∀ ack ∈ d'.frameAcks, ack ∈ d.frameAcks ∨
    ∃ frame, d.unplayedFrames.lookup ack.1 = some (some frame) ∧ frame.Complete ∧
      ack.2 = frame.encodeTime

theorem Moves.refl (d : VideoDecoder) : Moves d d where
  kept _ _ h := .inl h
  still _ h := h
  unplayed _ _ h := h
  played _ _ h := .inl h
  acked _ h := .inl h

theorem Moves.trans {d e f : VideoDecoder} (h : Moves d e) (h' : Moves e f) : Moves d f where
  kept id frame hLookup := by
    rcases h.kept id frame hLookup with hKept | hPlayed
    · exact h'.kept id frame hKept
    · exact .inr (h'.still id hPlayed)
  still id hPlayed := h'.still id (h.still id hPlayed)
  unplayed id frame hLookup := h.unplayed id frame (h'.unplayed id frame hLookup)
  played id frame hLookup := by
    rcases h'.played id frame hLookup with hPlayed | hUnplayed
    · exact h.played id frame hPlayed
    · exact .inr (h.unplayed id frame hUnplayed)
  acked ack hMem := by
    rcases h'.acked ack hMem with hOld | ⟨frame, hLookup, hComplete⟩
    · exact h.acked ack hOld
    · exact .inr ⟨frame, h.unplayed _ frame hLookup, hComplete⟩

theorem play_moves {d : VideoDecoder} {idx : ℕ} {outcome : Option VideoFrame}
    (h : ∀ frame, outcome = some frame → d.unplayedFrames.lookup idx = some (some frame)) :
    Moves d (d.play idx outcome) where
  kept id frame hLookup := by
    by_cases hId : id = idx
    · exact .inr ((AList.mem_insert _).mpr (.inl hId))
    · exact .inl ((play_lookup_ne d outcome hId).trans hLookup)
  still id hPlayed := (AList.mem_insert _).mpr (.inr hPlayed)
  unplayed id frame hLookup := by
    by_cases hId : id = idx
    · rw [hId, play_lookup_self] at hLookup
      cases hLookup
    · exact (play_lookup_ne d outcome hId).symm.trans hLookup
  played id frame hLookup := by
    by_cases hId : id = idx
    · have hOutcome : (d.playedFrames.insert idx outcome).lookup idx = some (some frame) :=
        hId ▸ hLookup
      rw [AList.lookup_insert] at hOutcome
      exact .inr (hId ▸ h frame (Option.some.inj hOutcome))
    · exact .inl ((AList.lookup_insert_ne hId).symm.trans hLookup)
  acked _ hMem := .inl hMem

theorem playComplete_moves {d : VideoDecoder} {idx : ℕ} {frame : VideoFrame} (ack : Bool)
    (hLookup : d.unplayedFrames.lookup idx = some (some frame)) (hComplete : frame.Complete) :
    Moves d (d.playComplete ack idx frame) := by
  have hPlay : Moves d (d.play idx (some frame)) :=
    play_moves fun _ hEq => (Option.some.inj hEq) ▸ hLookup
  cases ack with
  | false => exact hPlay
  | true =>
    refine ⟨hPlay.kept, hPlay.still, hPlay.unplayed, hPlay.played, fun ack hMem => ?_⟩
    rcases List.mem_append.mp hMem with hOld | hNew
    · exact .inl hOld
    · rw [List.mem_singleton.mp hNew]
      exact .inr ⟨frame, hLookup, hComplete, rfl⟩

theorem drainLoop_moves {ack : Bool} {fuel idx : ℕ} {d d' : VideoDecoder}
    (h : drainLoop ack fuel idx d = some d') : Moves d d' := by
  induction fuel generalizing idx d with
  | zero => cases h
  | succ fuel ih =>
    rw [drainLoop] at h
    split at h
    · split at h
      · cases h
        exact .refl _
      · cases h
      · next frame hLookup =>
        split at h
        · next hComplete => exact (playComplete_moves ack hLookup hComplete).trans (ih h)
        · cases h
          exact .refl _
    · cases h
      exact .refl _

theorem skipFrame_moves {idx : ℕ} {d d' : VideoDecoder} (h : skipFrame idx d = some d') :
    Moves d d' := by
  refine Moves.trans (play_moves fun frame hEq => ?_) (drainLoop_moves h)
  exact Option.join_eq_some_iff.mp hEq

theorem skipLoop_moves {limit : Int} {fuel idx : ℕ} {d d' : VideoDecoder}
    (h : skipLoop limit fuel idx d = some d') : Moves d d' := by
  induction fuel generalizing idx d with
  | zero => cases h
  | succ fuel ih =>
    rw [skipLoop] at h
    split at h
    · obtain ⟨e, hFirst, hRest⟩ := Option.bind_eq_some_iff.mp h
      exact (skipFrame_moves hFirst).trans (ih hRest)
    · cases h
      exact .refl _

theorem frameCompleted_moves {d d' : VideoDecoder} {frameId : ℕ} {frame : VideoFrame}
    (hLookup : d.unplayedFrames.lookup frameId = some (some frame))
    (h : d.frameCompleted frameId frame = some d') : Moves d d' := by
  rw [frameCompleted] at h
  split at h
  · cases h
    exact play_moves fun _ hEq => (Option.some.inj hEq) ▸ hLookup
  · split at h
    · exact drainLoop_moves h
    · cases h
      exact .refl _

/-- The frame of the place has been played, or it waits with the packet in it. -/
def Reached (d : VideoDecoder) (c : Cargo) : Prop :=
  c.frameId.toNat ∈ d.playedFrames ∨
    ∃ frame, d.unplayedFrames.lookup c.frameId.toNat = some (some frame) ∧
      c.pktIdInFrame ∈ frame.pkts

theorem Moves.reached {d d' : VideoDecoder} {c : Cargo} (h : Moves d d') (hReached : d.Reached c) :
    d'.Reached c := by
  rcases hReached with hPlayed | ⟨frame, hLookup, hMem⟩
  · exact .inl (h.still _ hPlayed)
  · rcases h.kept _ frame hLookup with hKept | hPlayed
    · exact .inr ⟨frame, hKept, hMem⟩
    · exact .inl hPlayed

structure MadeOf (P : Cargo → Prop) (d : VideoDecoder) : Prop where
  unplayed : ∀ id frame, d.unplayedFrames.lookup id = some (some frame) → frame.MadeOf P id
  played : ∀ id frame, d.playedFrames.lookup id = some (some frame) → frame.MadeOf P id
  acked : ∀ ack ∈ d.frameAcks, ∃ frame : VideoFrame, frame.MadeOf P ack.1 ∧ frame.Complete ∧
    ack.2 = frame.encodeTime

theorem MadeOf.mono {d : VideoDecoder} (h : d.MadeOf P) (hPQ : ∀ c, P c → Q c) : d.MadeOf Q where
  unplayed id frame hLookup := (h.unplayed id frame hLookup).mono hPQ
  played id frame hLookup := (h.played id frame hLookup).mono hPQ
  acked ack hMem := by
    obtain ⟨frame, hMade, hComplete⟩ := h.acked ack hMem
    exact ⟨frame, hMade.mono hPQ, hComplete⟩

theorem MadeOf.moves {d d' : VideoDecoder} (h : d.MadeOf P) (hMoves : Moves d d') : d'.MadeOf P where
  unplayed id frame hLookup := h.unplayed id frame (hMoves.unplayed id frame hLookup)
  played id frame hLookup :=
    (hMoves.played id frame hLookup).elim (h.played id frame) (h.unplayed id frame)
  acked ack hMem := by
    rcases hMoves.acked ack hMem with hOld | ⟨frame, hLookup, hComplete⟩
    · exact h.acked ack hOld
    · exact ⟨frame, h.unplayed _ frame hLookup, hComplete⟩

/-- A packet and the buffered packets of its frame. -/
theorem MadeOf.frameWith {d : VideoDecoder} {pkt : DataPacket} {frame : VideoFrame} (h : d.MadeOf P)
    (hHeld : P pkt.cargo) (hFrame : d.frameWith pkt.frameId.toNat pkt = some frame) :
    frame.MadeOf P pkt.frameId.toNat ∧ pkt.pktIdInFrame ∈ frame.pkts ∧
      ∀ old, d.unplayedFrames.lookup pkt.frameId.toNat = some (some old) → old.pkts ⊆ frame.pkts := by
  rw [VideoDecoder.frameWith] at hFrame
  split at hFrame
  · next hNone =>
    cases hFrame
    refine ⟨⟨⟨_, hHeld, rfl, rfl⟩, fun id hMem => ?_⟩, Finset.mem_insert_self _ _, fun old hOld => ?_⟩
    · rcases Finset.mem_insert.mp hMem with rfl | hMem
      · exact ⟨_, hHeld, rfl, rfl⟩
      · exact absurd hMem (Finset.notMem_empty id)
    · rw [hNone] at hOld
      cases hOld
  · cases hFrame
  · next buffered hBuffered =>
    cases hFrame
    have hMade := h.unplayed _ buffered hBuffered
    refine ⟨⟨hMade.sized, fun id hMem => ?_⟩, Finset.mem_insert_self _ _, fun old hOld => ?_⟩
    · rcases Finset.mem_insert.mp hMem with rfl | hMem
      · exact ⟨_, hHeld, rfl, rfl⟩
      · exact hMade.filled id hMem
    · rw [hBuffered] at hOld
      cases hOld
      exact Finset.subset_insert _ _

/-- What a packet makes of the decoder: it has reached its frame, and what had reached theirs still
has. -/
structure Takes (P : Cargo → Prop) (d d' : VideoDecoder) : Prop where
  madeOf : d'.MadeOf P
  reached : ∀ c, d.Reached c → d'.Reached c

theorem decodePacket_takes {d d' : VideoDecoder} {pkt : DataPacket} (h : d.MadeOf P)
    (hHeld : P pkt.cargo) (hStep : decodePacket d pkt = some d') :
    Takes P d d' ∧ d'.Reached pkt.cargo := by
  rcases decodePacket_cases hStep with
    ⟨hPlayed, rfl⟩ | ⟨-, limit, s, frame, -, hSkip, hFrame, hFull, hPartial⟩
  · exact ⟨⟨h, fun _ hReached => hReached⟩, .inl hPlayed⟩
  have hSkipped : Moves d s := skipLoop_moves hSkip
  obtain ⟨hMade, hMem, hSub⟩ := (h.moves hSkipped).frameWith hHeld hFrame
  have hSelf := store_lookup_self s pkt.frameId.toNat frame
  have hStored : (s.store pkt.frameId.toNat frame).MadeOf P := by
    refine ⟨fun id other hLookup => ?_, (h.moves hSkipped).played, (h.moves hSkipped).acked⟩
    by_cases hId : id = pkt.frameId.toNat
    · rw [hId, hSelf] at hLookup
      cases hLookup
      exact hId ▸ hMade
    · exact (h.moves hSkipped).unplayed id other ((store_lookup_ne s frame hId).symm.trans hLookup)
  have hReach : ∀ c, d.Reached c → (s.store pkt.frameId.toNat frame).Reached c := by
    intro c hReached
    rcases hSkipped.reached hReached with hPlayed | ⟨old, hLookup, hOld⟩
    · exact .inl hPlayed
    · by_cases hId : c.frameId.toNat = pkt.frameId.toNat
      · refine .inr ⟨frame, hId ▸ hSelf, hSub old (hId ▸ hLookup) hOld⟩
      · exact .inr ⟨old, (store_lookup_ne s frame hId).trans hLookup, hOld⟩
  have hMoves : Moves (s.store pkt.frameId.toNat frame) d' := by
    by_cases hComplete : frame.Complete
    · exact frameCompleted_moves hSelf (hFull hComplete)
    · rw [hPartial hComplete]
      exact .refl _
  exact ⟨⟨hStored.moves hMoves, fun c hReached => hMoves.reached (hReach c hReached)⟩,
    hMoves.reached (.inr ⟨frame, hSelf, hMem⟩)⟩

theorem decodeDataPacket_takes {d d' : VideoDecoder} {pkts : List DataPacket} (h : d.MadeOf P)
    (hHeld : ∀ pkt ∈ pkts, P pkt.cargo) (hRun : d.decodeDataPacket pkts = some d') :
    Takes P d d' ∧ ∀ pkt ∈ pkts, d'.Reached pkt.cargo := by
  induction pkts generalizing d with
  | nil =>
    cases hRun
    exact ⟨⟨h, fun _ hReached => hReached⟩, fun _ hMem => absurd hMem List.not_mem_nil⟩
  | cons pkt pkts ih =>
    obtain ⟨e, hStep, hRest⟩ := Option.bind_eq_some_iff.mp hRun
    obtain ⟨hFirst, hReached⟩ := decodePacket_takes h (hHeld pkt List.mem_cons_self) hStep
    obtain ⟨hTakes, hAll⟩ :=
      ih hFirst.madeOf (fun other hMem => hHeld other (List.mem_cons_of_mem _ hMem)) hRest
    refine ⟨⟨hTakes.madeOf, fun c hOld => hTakes.reached c (hFirst.reached c hOld)⟩, ?_⟩
    rintro other hMem
    rcases List.mem_cons.mp hMem with rfl | hMem
    · exact hTakes.reached _ hReached
    · exact hAll other hMem

theorem madeOf_create {delayDdl : Time} {fps : UInt16} {d : VideoDecoder}
    (h : VideoDecoder.create delayDdl fps = some d) : d.MadeOf P := by
  rw [VideoDecoder.create] at h
  split at h
  · cases h
  · cases h
    refine ⟨fun id frame hLookup => ?_, fun id frame hLookup => ?_,
      fun ack hMem => absurd hMem List.not_mem_nil⟩
    · cases hLookup
    · cases hLookup

end VideoDecoder

/-! ## The receiver -/

namespace PacketReceiverUdp

structure Holds (P : Cargo → Prop) (r : PacketReceiverUdp) : Prop where
  keyed : r.Keyed
  groups : ∀ id group, r.incompleteGroups.lookup id = some group → group.Holds P
  decoder : r.decoder.MadeOf P
  acks : ∀ ack ∈ r.acks, ∀ info ∈ ack.pktInfos, ∃ c, P c ∧ c.key = info ∧ r.decoder.Reached c

variable {begin : FirstEntry} {r r' : PacketReceiverUdp} {a : PacketArrival}

theorem Holds.mono (h : r.Holds P) (hPQ : ∀ c, P c → Q c) : r.Holds Q where
  keyed := h.keyed
  groups id group hLookup := (h.groups id group hLookup).mono hPQ
  decoder := h.decoder.mono hPQ
  acks ack hAck info hInfo := by
    obtain ⟨c, hHeld, hKey⟩ := h.acks ack hAck info hInfo
    exact ⟨c, hPQ c hHeld, hKey⟩

theorem Holds.groupOf (h : r.Holds P) (pkt : VideoPacket) : (r.groupOf pkt).Holds P := by
  rw [PacketReceiverUdp.groupOf]
  split
  · exact ⟨fun _ hMem => absurd hMem List.not_mem_nil, fun _ _ hLookup => by cases hLookup⟩
  · next group hLookup => exact h.groups _ group hLookup

theorem Holds.storePacket {group : PacketGroup} (h : r.Holds P) (hCarries : a.pkt.Carries P)
    (hStore : r.storePacket begin a = some (group, r')) : r'.Holds P := by
  have hStores := storePacket_stores hStore
  obtain ⟨added, hAdd, hStore⟩ := Option.bind_eq_some_iff.mp hStore
  obtain ⟨decoder, hDecode, hStore⟩ := Option.bind_eq_some_iff.mp hStore
  cases hStore
  have hAdded := (h.groupOf a.pkt).addPacket (groupOf_groupId h.keyed a.pkt).symm hCarries hAdd
  obtain ⟨hTakes, hReached⟩ :=
    VideoDecoder.decodeDataPacket_takes h.decoder hAdded.undecoded hDecode
  refine ⟨hStores.keyed h.keyed, fun id other hLookup => ?_, hTakes.madeOf, fun ack hAck => ?_⟩
  · by_cases hId : id = a.groupId
    · rw [hId] at hLookup
      have hStored := (AList.lookup_insert r.incompleteGroups).symm.trans hLookup
      cases hStored
      exact ⟨fun _ hMem => absurd hMem List.not_mem_nil, hAdded.incomplete⟩
    · exact h.groups id other ((AList.lookup_insert_ne hId).symm.trans hLookup)
  · rcases List.mem_append.mp hAck with hOld | hNew
    · intro info hInfo
      obtain ⟨c, hHeld, hKey, hBefore⟩ := h.acks ack hOld info hInfo
      exact ⟨c, hHeld, hKey, hTakes.reached c hBefore⟩
    · rw [List.mem_singleton.mp hNew]
      intro info hInfo
      obtain ⟨pkt, hMem, rfl⟩ := List.mem_map.mp hInfo
      exact ⟨pkt.cargo, hAdded.undecoded pkt hMem, rfl, hReached pkt hMem⟩

/-- The same decoder and acknowledgements, and no group that was not there. -/
structure Drops (r r' : PacketReceiverUdp) : Prop where
  entries : r'.incompleteGroups.entries ⊆ r.incompleteGroups.entries
  decoder : r'.decoder = r.decoder
  acks : r'.acks = r.acks

theorem Drops.refl (r : PacketReceiverUdp) : Drops r r := ⟨List.Subset.refl _, rfl, rfl⟩

theorem Drops.trans {r'' : PacketReceiverUdp} (h : Drops r r') (h' : Drops r' r'') : Drops r r'' :=
  ⟨List.Subset.trans h'.entries h.entries, h'.decoder.trans h.decoder, h'.acks.trans h.acks⟩

theorem Holds.drops (h : r.Holds P) (hDrops : Drops r r') : r'.Holds P where
  keyed entry hMem := h.keyed entry (hDrops.entries hMem)
  groups id group hLookup :=
    h.groups id group (AList.mem_lookup_iff.mpr (hDrops.entries (AList.mem_lookup_iff.mp hLookup)))
  decoder := hDrops.decoder ▸ h.decoder
  acks := by
    rw [hDrops.acks, hDrops.decoder]
    exact h.acks

theorem erase_drops (r : PacketReceiverUdp) (id : UInt32) :
    (r.incompleteGroups.erase id).entries ⊆ r.incompleteGroups.entries :=
  (List.kerase_sublist id r.incompleteGroups.entries).subset

theorem checkGroup_drops {id : UInt32} {group : PacketGroup} (h : r.checkGroup id group = some r') :
    Drops r r' := by
  rw [checkGroup] at h
  split at h
  · obtain ⟨interval, -, h⟩ := Option.bind_eq_some_iff.mp h
    cases h
    exact ⟨erase_drops r id, rfl, rfl⟩
  · cases h
    exact .refl r

theorem expireGroup_drops (rcvTime : Time) (r : PacketReceiverUdp) (entry : Σ _ : UInt32, PacketGroup) :
    Drops r (r.expireGroup rcvTime entry) := by
  rw [expireGroup]
  split
  · exact ⟨erase_drops r entry.1, rfl, rfl⟩
  · exact .refl r

theorem foldl_expireGroup_drops (rcvTime : Time) (entries : List (Σ _ : UInt32, PacketGroup))
    (r : PacketReceiverUdp) : Drops r (entries.foldl (expireGroup rcvTime) r) := by
  induction entries generalizing r with
  | nil => exact .refl r
  | cons entry entries ih => exact (expireGroup_drops rcvTime r entry).trans (ih _)

/-- A packet that arrives. -/
theorem Holds.receiveUdpPacket (h : r.Holds P) (hCarries : a.pkt.Carries P)
    (hStep : r.receiveUdpPacket begin a = some r') : r'.Holds P := by
  obtain ⟨⟨group, stored⟩, hStore, hStep⟩ := Option.bind_eq_some_iff.mp hStep
  have hStored := h.storePacket hCarries hStore
  dsimp only at hStep
  split at hStep
  · cases hStep
    exact hStored
  · obtain ⟨checked, hCheck, hStep⟩ := Option.bind_eq_some_iff.mp hStep
    cases hStep
    exact (hStored.drops (checkGroup_drops hCheck)).drops
      (foldl_expireGroup_drops a.pkt.header.rcvTime _ checked)

theorem holds_create {delayDdl : Time} {decoder : VideoDecoder} (h : decoder.MadeOf P) :
    (PacketReceiverUdp.create delayDdl decoder).Holds P where
  keyed entry hMem := absurd hMem List.not_mem_nil
  groups id group hLookup := by cases hLookup
  decoder := h
  acks ack hMem := absurd hMem List.not_mem_nil

end PacketReceiverUdp

end Bullet.Stream
