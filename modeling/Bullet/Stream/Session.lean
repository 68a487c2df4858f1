import Bullet.Stream.FecFidelity
import Bullet.Stream.SenderPlaces

/-! # A session of a sender and a receiver

The network may lose packets, repeat them and deliver them in any order; so may the way back of the
acknowledgements. Whatever it does, the receiver holds what the sender has cut, a complete frame is
whole, and no packet is forgotten that has not reached the decoder by its deadline.
-/

namespace Bullet.Stream

open Lib Lib.PartialRun QueueSender

/-- The packet as the receiver reads it. -/
def VideoPacket.received (rcvTime : Time) : VideoPacket → VideoPacket
  | .data pkt => .data (pkt.received rcvTime)
  | .dupFec pkt => .dupFec (pkt.received rcvTime)
  | .fec pkt => .fec (pkt.received rcvTime)

/-- `network` has every packet that was put on the wire. -/
structure Session where
  sender : QueueSender
  network : List VideoPacket
  receiver : PacketReceiverUdp

/-- The packet that `SendPacket` puts on the wire, if one waits. -/
def QueueSender.leaving (s : QueueSender) : List VideoPacket :=
  match s.queue with
  | [] => []
  | frame :: _ => [s.onWire frame.first]

namespace Session

def create (delayDdl : Time) (netStat : NetStat) (decoder : VideoDecoder) : Session where
  sender := .create delayDdl netStat
  network := []
  receiver := .create delayDdl decoder

/-- `deliver` and `ack` bring the packet and the acknowledgement of the given number, once more if they
had come before. -/
inductive Event where
  | wait (delay : ℕ)
  | sendFrame (dataSize : UInt32)
  | sendPacket
  | checkRetransmission
  | setNetStat (netStat : NetStat)
  | deliver (number : ℕ) (globalId : UInt16) (rcvTime now : Time)
  | ack (number : ℕ)
deriving DecidableEq

def turn (env : SenderEnv) (s : Session) (event : QueueSender.Event) : Option Session :=
  (s.sender.step env event).map fun sender => { s with sender := sender }

def step (env : SenderEnv) (begin : FirstEntry) (s : Session) : Event → Option Session
  | .wait delay => s.turn env (.wait delay)
  | .sendFrame dataSize => s.turn env (.sendFrame dataSize)
  | .sendPacket => ({ s with network := s.network ++ s.sender.leaving } : Session).turn env .sendPacket
  | .checkRetransmission => s.turn env .checkRetransmission
  | .setNetStat netStat => s.turn env (.setNetStat netStat)
  | .deliver number globalId rcvTime now =>
    match s.network[number]? with
    | none => some s
    | some pkt =>
      (s.receiver.receiveUdpPacket begin ⟨pkt.received rcvTime, globalId, now⟩).map fun receiver =>
        { s with receiver := receiver }
  | .ack number =>
    match s.receiver.acks[number]? with
    | none => some s
    | some ack => s.turn env (.rcvAck ack.pktInfos)

variable {env : SenderEnv} {begin : FirstEntry} {s t : Session} {events : List Event} {event : Event}

theorem turn_eq_some {e : QueueSender.Event} (h : s.turn env e = some t) :
    ∃ sender, s.sender.step env e = some sender ∧ t = { s with sender := sender } := by
  obtain ⟨sender, hStep, hEq⟩ := Option.map_eq_some_iff.mp h
  exact ⟨sender, hStep, hEq.symm⟩

/-! ## What arrives was cut -/

structure SessionInv (s : Session) : Prop where
  sender : CutInv s.sender []
  network : ∀ pkt ∈ s.network, pkt.Carries s.sender.HasCut
  receiver : s.receiver.Holds s.sender.HasCut

/-- The keys that the receiver has acknowledged. -/
def Acked (s : Session) (key : GroupPacketInfo) : Prop :=
  ∃ ack ∈ s.receiver.acks, key ∈ ack.pktInfos

/-- What a step does to the sender: a frame is added, or nothing is and acknowledged packets may be
forgotten. -/
inductive SenderStep (s : Session) (event : Event) (t : Session) : Prop
  | rests (h : Rests s.sender t.sender) (hAcked : ∀ key, s.Acked key → t.Acked key)
  | adds {dataSize : UInt32} {pkts : List SentPacket} {batches : List Batch}
      (hEvent : event = .sendFrame dataSize)
      (hCut : Sender.dataPackets s.sender.sender.now s.sender.sender.frameId dataPktMaxPayload
        (Sender.dataPktNum dataSize) dataSize (dataSize.toNat + 1) 0 0 = some pkts)
      (h : AddsFrame s.sender t.sender (Sender.dataPktNum dataSize)
        (pkts.map (SentPacket.setEnqueueTime s.sender.sender.now)) batches)
      (hReceiver : t.receiver = s.receiver)
  | forgets {pktInfos : List GroupPacketInfo} (hAcked : ∀ key ∈ pktInfos, s.Acked key)
      (h : t = { s with sender := s.sender.rcvAckPacket pktInfos })

theorem carries_received {P : Cargo → Prop} {pkt : VideoPacket} (rcvTime : Time)
    (h : pkt.Carries P) : (pkt.received rcvTime).Carries P := by
  cases pkt with
  | data pkt => exact h
  | dupFec pkt => exact h
  | fec pkt => exact h

theorem acks_receiveUdpPacket {r r' : PacketReceiverUdp} {a : PacketArrival}
    (h : r.receiveUdpPacket begin a = some r') : ∃ more, r'.acks = r.acks ++ more := by
  obtain ⟨⟨group, stored⟩, hStore, hStep⟩ := Option.bind_eq_some_iff.mp h
  have hAcks : ∃ more, stored.acks = r.acks ++ more := by
    obtain ⟨added, -, hStore⟩ := Option.bind_eq_some_iff.mp hStore
    obtain ⟨decoder, -, hStore⟩ := Option.bind_eq_some_iff.mp hStore
    cases hStore
    exact ⟨_, rfl⟩
  dsimp only at hStep
  split at hStep
  · cases hStep
    exact hAcks
  · obtain ⟨checked, hCheck, hStep⟩ := Option.bind_eq_some_iff.mp hStep
    cases hStep
    rw [PacketReceiverUdp.expireGroups, (PacketReceiverUdp.foldl_expireGroup_drops _ _ checked).acks,
      (PacketReceiverUdp.checkGroup_drops hCheck).acks]
    exact hAcks

/-- A step of the sender alone. -/
theorem SessionInv.sends {sender : QueueSender} (h : SessionInv s) (hInv : CutInv sender [])
    (hKeeps : Keeps s.sender sender) : SessionInv { s with sender := sender } where
  sender := hInv
  network pkt hMem := (h.network pkt hMem).mono fun _ => hKeeps.hasCut
  receiver := h.receiver.mono fun _ => hKeeps.hasCut

theorem SessionInv.rests {sender : QueueSender} (h : SessionInv s)
    (hNext : CutInv sender [] ∧ Rests s.sender sender) (hEq : t = { s with sender := sender }) :
    SessionInv t ∧ SenderStep s event t := by
  rw [hEq]
  exact ⟨h.sends hNext.1 hNext.2.keeps, .rests hNext.2 fun _ hAcked => hAcked⟩

theorem SessionInv.sendPacket (h : SessionInv s)
    (hStep : s.step env begin .sendPacket = some t) :
    SessionInv t ∧ SenderStep s .sendPacket t := by
  obtain ⟨sender, hSender, rfl⟩ := turn_eq_some hStep
  cases hSender
  obtain ⟨hInv, hRests⟩ := h.sender.sendPacket
  refine ⟨⟨hInv, fun pkt hMem => ?_, h.receiver.mono fun _ => hRests.keeps.hasCut⟩,
    .rests hRests fun _ hAcked => hAcked⟩
  rcases List.mem_append.mp hMem with hOld | hNew
  · exact (h.network pkt hOld).mono fun _ => hRests.keeps.hasCut
  · refine VideoPacket.Carries.mono ?_ fun _ => hRests.keeps.hasCut
    rw [leaving] at hNew
    split at hNew
    · exact absurd hNew List.not_mem_nil
    · next frame queue hQueue =>
      rw [List.mem_singleton.mp hNew]
      apply h.sender.carries
      apply h.sender.queued
      rw [InQueue, hQueue]
      exact ⟨frame, List.mem_cons_self, List.mem_cons_self⟩

theorem SessionInv.step (h : SessionInv s) (hStep : s.step env begin event = some t) :
    SessionInv t ∧ SenderStep s event t := by
  cases event with
  | wait delay =>
    obtain ⟨sender, hSender, hEq⟩ := turn_eq_some hStep
    cases hSender
    refine h.rests ?_ hEq
    refine ⟨h.sender.same rfl (fun _ _ => rfl) (fun _ _ hGet => hGet) fun _ hIn => hIn, rfl,
      fun _ _ => rfl, rfl, rfl, ?_, rfl, fun _ _ => .inl⟩
    exact Int.le_add_of_nonneg_right (Int.natCast_nonneg delay)
  | sendFrame dataSize =>
    obtain ⟨sender, hSender, rfl⟩ := turn_eq_some hStep
    rcases h.sender.sendFrame hSender with ⟨-, rfl⟩ | ⟨hInv, hKeeps, pkts, batches, hCut, hAdds⟩
    · exact ⟨h, .rests (.refl _) fun _ hAcked => hAcked⟩
    · exact ⟨h.sends hInv hKeeps, .adds rfl hCut hAdds rfl⟩
  | sendPacket => exact h.sendPacket hStep
  | checkRetransmission =>
    obtain ⟨sender, hSender, hEq⟩ := turn_eq_some hStep
    exact h.rests (h.sender.checkRetransmission hSender) hEq
  | setNetStat netStat =>
    obtain ⟨sender, hSender, hEq⟩ := turn_eq_some hStep
    cases hSender
    refine h.rests ?_ hEq
    exact ⟨h.sender.same rfl (fun _ _ => rfl) (fun _ _ hGet => hGet) fun _ hIn => hIn, rfl,
      fun _ _ => rfl, rfl, rfl, le_refl _, rfl, fun _ _ => .inl⟩
  | deliver number globalId rcvTime now =>
    rw [Session.step] at hStep
    split at hStep
    · cases hStep
      exact ⟨h, .rests (.refl _) fun _ hAcked => hAcked⟩
    · next pkt hPkt =>
      obtain ⟨receiver, hReceive, rfl⟩ := Option.map_eq_some_iff.mp hStep
      have hCarries := carries_received rcvTime (h.network pkt (List.mem_of_getElem? hPkt))
      refine ⟨⟨h.sender, h.network, h.receiver.receiveUdpPacket hCarries hReceive⟩,
        .rests (.refl _) fun key hAcked => ?_⟩
      obtain ⟨ack, hAck, hKey⟩ := hAcked
      obtain ⟨more, hMore⟩ := acks_receiveUdpPacket hReceive
      exact ⟨ack, hMore ▸ List.mem_append_left more hAck, hKey⟩
  | ack number =>
    rw [Session.step] at hStep
    split at hStep
    · cases hStep
      exact ⟨h, .rests (.refl _) fun _ hAcked => hAcked⟩
    · next ack hAck =>
      obtain ⟨sender, hSender, rfl⟩ := turn_eq_some hStep
      cases hSender
      have hAcked : ∀ key ∈ ack.pktInfos, s.Acked key := fun key hKey =>
        ⟨ack, List.mem_of_getElem? hAck, hKey⟩
      exact ⟨h.sends (h.sender.rcvAckPacket ack.pktInfos).1 ⟨le_refl _, fun _ _ _ => rfl⟩,
        .forgets hAcked rfl⟩

/-! ## Runs -/

theorem sessionInv_create {delayDdl : Time} {fps : UInt16} {netStat : NetStat} {decoder : VideoDecoder}
    (hDecoder : VideoDecoder.create delayDdl fps = some decoder) :
    SessionInv (create delayDdl netStat decoder) where
  sender := cutInv_create delayDdl netStat
  network _ hMem := absurd hMem List.not_mem_nil
  receiver := PacketReceiverUdp.holds_create (VideoDecoder.madeOf_create hDecoder)

/-- The session from its start on. -/
def runs (env : SenderEnv) (begin : FirstEntry) (delayDdl : Time) (netStat : NetStat) (fps : UInt16)
    (events : List Event) : Option Session :=
  (VideoDecoder.create delayDdl fps).bind fun decoder =>
    run (step env begin) (create delayDdl netStat decoder) events

/-- An invariant of the states that the session reaches. -/
theorem invariant_of_runs (inv : Session → Prop) (ok : Event → Prop) {delayDdl : Time}
    {netStat : NetStat} {fps : UInt16}
    (hStart : ∀ decoder, VideoDecoder.create delayDdl fps = some decoder →
      inv (create delayDdl netStat decoder))
    (hStep : ∀ s event t, SenderStep s event t → ok event → inv s → inv t)
    (hOk : ∀ event ∈ events, ok event)
    (hRun : runs env begin delayDdl netStat fps events = some t) : SessionInv t ∧ inv t := by
  obtain ⟨decoder, hDecoder, hRun⟩ := Option.bind_eq_some_iff.mp hRun
  have hSteps : ∀ (s : Session) (event : Event) (u : Session), SessionInv s ∧ inv s → ok event →
      step env begin s event = some u → SessionInv u ∧ inv u := by
    rintro s event u ⟨hSession, hInv⟩ hEvent hNext
    obtain ⟨hSession', hSender⟩ := hSession.step hNext
    exact ⟨hSession', hStep s event u hSender hEvent hInv⟩
  exact @invariant_of_run _ _ _ _ _ _ (fun s => SessionInv s ∧ inv s) hSteps _
    ⟨sessionInv_create hDecoder, hStart decoder hDecoder⟩
    (stepsMeet_of_forall_mem fun event hMem _ => hOk event hMem) hRun

/-- Two frames of two data packets and a FEC packet. The network loses the second data packet of each,
and repeats a packet; the way back repeats an acknowledgement. -/
def twoFrames : List Event :=
  [.wait 50000000, .sendFrame 2000, .sendPacket, .sendPacket, .sendPacket,
    .deliver 0 0 60000000 60000000, .deliver 2 1 61000000 61000000, .ack 0,
    .sendFrame 2000, .sendPacket, .sendPacket, .sendPacket,
    .deliver 3 2 62000000 62000000, .deliver 5 3 63000000 63000000, .deliver 3 4 64000000 64000000,
    .ack 1, .ack 0]

/-- The decoder has both frames, and the sender still stores the second one. -/
theorem runs_twoFrames :
    ∃ t, runs (.constant 2 1) .newest 100000000 startStat 60 twoFrames = some t ∧
      t.sender.objectCount = 4 ∧ t.receiver.decoder.frameAcks = [(1, 50000000)] ∧
      t.receiver.acks.map AckPacket.pktInfos =
        [[(0, 0)], [(0, 1)], [(1, 0)], [(1, 1)], [(1, 0)]] ∧
      t.sender.history.get (0, 1) = none ∧ t.sender.history.get (1, 1) = some 3 := by
  have hState : (runs (.constant 2 1) .newest 100000000 startStat 60 twoFrames).any (fun t =>
      decide (t.sender.objectCount = 4 ∧ t.receiver.decoder.frameAcks = [(1, 50000000)] ∧
        t.receiver.acks.map AckPacket.pktInfos =
          [[(0, 0)], [(0, 1)], [(1, 0)], [(1, 1)], [(1, 0)]] ∧
        t.sender.history.get (0, 1) = none ∧ t.sender.history.get (1, 1) = some 3)) = true := by
    decide +kernel
  obtain ⟨t, hRun, hReached⟩ := (Option.any_eq_true _ _).mp hState
  exact ⟨t, hRun, of_decide_eq_true hReached⟩

/-- The frame has every packet that was cut for it, of which there are some. -/
structure Whole (s : QueueSender) (frameId : ℕ) (frame : VideoFrame) : Prop where
  cut : ∃ object < s.objectCount, (s.objects object).cargo.frameId.toNat = frameId
  all : ∀ object < s.objectCount, (s.objects object).cargo.frameId.toNat = frameId →
    (s.objects object).cargo.pktIdInFrame ∈ frame.pkts

theorem whole_of_complete {s : QueueSender} {frameId : ℕ} {frame : VideoFrame} (hPlaces : Places s)
    (hSized : Sized s) (hMade : frame.MadeOf s.HasCut frameId) (hComplete : frame.Complete) :
    Whole s frameId frame := by
  obtain ⟨c, ⟨first, hFirst, -, rfl⟩, hId, hNum⟩ := hMade.sized
  have hSame : ∀ object < s.objectCount, (s.objects object).cargo.frameId.toNat = frameId →
      (s.objects object).cargo.pktIdInFrame.toNat < frame.dataPktNum.toNat := by
    intro object hLt hFrame
    have hEq := hPlaces.sameSize object hLt first hFirst
      (UInt32.toNat_inj.mp (hFrame.trans hId.symm))
    have hBelow := (hSized object hLt).1
    rwa [hEq, hNum] at hBelow
  have hShort : frame.dataPktNum.toNat ≤ 255 := hNum ▸ (hSized first hFirst).2
  have hSub : frame.pkts.image UInt16.toNat ⊆ Finset.range frame.dataPktNum.toNat := by
    intro i hMem
    obtain ⟨id, hPkt, rfl⟩ := Finset.mem_image.mp hMem
    obtain ⟨c, ⟨object, hLt, -, rfl⟩, hFrame, rfl⟩ := hMade.filled id hPkt
    exact Finset.mem_range.mpr (hSame object hLt hFrame)
  have hCard : (frame.pkts.image UInt16.toNat).card = frame.pkts.card :=
    Finset.card_image_of_injective _ fun _ _ => UInt16.toNat_inj.mp
  -- A complete frame has as many packets as ids are allowed, so it has all of them.
  have hLe : frame.pkts.card ≤ frame.dataPktNum.toNat := by
    rw [← hCard, ← Finset.card_range frame.dataPktNum.toNat]
    exact Finset.card_le_card hSub
  have hCount : frame.dataPktNum.toNat = frame.pkts.card := by
    have hReceived : frame.dataPktNum = UInt16.ofNat frame.pkts.card := hComplete
    have hNat := congrArg UInt16.toNat hReceived
    rwa [UInt16.toNat_ofNat_of_lt' (by change _ < 2 ^ 16; omega)] at hNat
  have hAll : frame.pkts.image UInt16.toNat = Finset.range frame.dataPktNum.toNat := by
    apply Finset.eq_of_subset_of_card_le hSub
    rw [Finset.card_range, hCard, hCount]
  refine ⟨⟨first, hFirst, hId⟩, fun object hLt hFrame => ?_⟩
  have hMem := Finset.mem_range.mpr (hSame object hLt hFrame)
  rw [← hAll] at hMem
  obtain ⟨id, hPkt, hEq⟩ := Finset.mem_image.mp hMem
  rwa [← UInt16.toNat_inj.mp hEq]

theorem SenderStep.places (h : SenderStep s event t) (hShort : t.sender.objectCount ≤ 2 ^ 32)
    (hPlaces : s.sender.objectCount ≤ 2 ^ 32 → Places s.sender) : Places t.sender := by
  cases h with
  | rests h hAcked => exact (hPlaces (h.count.symm.trans_le hShort)).rests h
  | adds hEvent hCut h hReceiver =>
    exact (hPlaces ((Nat.le_of_add_right_le (h.count.symm.trans_le hShort)))).addsFrame h hShort
  | forgets hAcked h =>
    subst h
    exact (hPlaces hShort).same rfl (fun _ _ => rfl) rfl rfl

/-- A frame of at most 255 packets, as many as the policy can be told of. -/
def SmallFrame : Event → Prop
  | .sendFrame dataSize => Sender.packetCount dataSize ≤ 255
  | _ => True

instance : DecidablePred SmallFrame
  | .sendFrame dataSize => inferInstanceAs (Decidable (Sender.packetCount dataSize ≤ 255))
  | .wait _ => isTrue trivial
  | .sendPacket => isTrue trivial
  | .checkRetransmission => isTrue trivial
  | .setNetStat _ => isTrue trivial
  | .deliver _ _ _ _ => isTrue trivial
  | .ack _ => isTrue trivial

theorem SenderStep.sized (h : SenderStep s event t) (hSmall : SmallFrame event)
    (hSized : Sized s.sender) : Sized t.sender := by
  cases h with
  | rests h hAcked => exact hSized.rests h
  | adds hEvent hCut h hReceiver =>
    subst hEvent
    exact hSized.addsFrame h hCut hSmall
  | forgets hAcked h =>
    subst h
    exact hSized

theorem SenderStep.remembers (h : SenderStep s event t) (hShort : t.sender.objectCount ≤ 2 ^ 32)
    (hBefore : s.sender.objectCount ≤ 2 ^ 32 → Places s.sender ∧ s.sender.Remembers s.Acked) :
    Places t.sender ∧ t.sender.Remembers t.Acked := by
  refine ⟨h.places hShort fun hCount => (hBefore hCount).1, ?_⟩
  cases h with
  | rests h hAcked =>
    exact ((hBefore (h.count.symm.trans_le hShort)).2.rests h).mono hAcked
  | adds hEvent hCut h hReceiver =>
    obtain ⟨hPlaces, hRemembers⟩ := hBefore (Nat.le_of_add_right_le (h.count.symm.trans_le hShort))
    refine (hRemembers.addsFrame h hPlaces hShort).mono fun key hAcked => ?_
    rw [Acked, hReceiver]
    exact hAcked
  | forgets hAcked h =>
    subst h
    exact (hBefore hShort).2.rcvAckPacket _ hAcked

end Session

end Bullet.Stream
