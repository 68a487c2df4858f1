import Bullet.Stream.PacketGroup

/-! # Delivery from a packet group

A run of arrivals and reads, with the packets that arrived and those returned so far. A data packet
reaches the reader directly or through FEC recovery; it is returned once as long as neither route
hands over an id that the group already knows.
-/

namespace Bullet.Stream.PacketGroup

open Lib.PartialRun

inductive GroupOp where
  | add (pkt : VideoPacket) (now : Time)
  | get
deriving DecidableEq

structure Delivery where
  group : PacketGroup
  arrived : List VideoPacket
  returned : List DataPacket
deriving DecidableEq

def Delivery.init (groupId : UInt32) (dataNum : UInt16) (encodeTime : Time) : Delivery :=
  ⟨create groupId dataNum encodeTime, [], []⟩

def deliver (begin : FirstEntry) (s : Delivery) : GroupOp → Option Delivery
  | .add pkt now => do
    let group ← s.group.addPacket begin pkt now
    some { s with group := group, arrived := s.arrived ++ [pkt] }
  | .get =>
    let (pkts, group) := s.group.getUndecodedPackets
    some { s with group := group, returned := s.returned ++ pkts }

/-- The header of packet `pktIdInBatch` of a batch. -/
def batchHeader (batchId : UInt32) (dataNum fecNum pktIdInBatch pktIdInGroup : UInt16) :
    VideoHeader where
  rcvTime := 0
  encodeTime := 0
  txCount := 0
  groupId := 0
  groupDataNum := dataNum
  groupFecNum := fecNum
  pktIdInGroup := pktIdInGroup
  batchId := batchId
  batchDataNum := dataNum
  batchFecNum := fecNum
  pktIdInBatch := pktIdInBatch

def dataArrival (h : VideoHeader) : GroupOp :=
  .add (.data { h with frameId := 0, framePktNum := 2, pktIdInFrame := h.pktIdInGroup }) 0

/-- A FEC packet over the data packets with the listed ids in the group. -/
def fecArrival (h : VideoHeader) (ids : List UInt16) : GroupOp :=
  .add (.fec { h with dataPkts := ids.zipIdx.map fun (id, i) => ⟨UInt16.ofNat i, id, 0, 2, id⟩ }) 0

/-- The packets returned so far and those the next read returns. -/
def Delivery.delivered (s : Delivery) : List DataPacket := s.returned ++ s.group.undecodedPkts

/-- The statistics change, the batches and the packets do not. -/
structure SameBatches (g g' : PacketGroup) : Prop where
  undecodedPkts : g'.undecodedPkts = g.undecodedPkts
  decodedPkts : g'.decodedPkts = g.decodedPkts
  incompleteBatches : g'.incompleteBatches = g.incompleteBatches
  completeBatches : g'.completeBatches = g.completeBatches

theorem SameBatches.trans {g g' g'' : PacketGroup} (h : SameBatches g g') (h' : SameBatches g' g'') :
    SameBatches g g'' where
  undecodedPkts := h'.undecodedPkts.trans h.undecodedPkts
  decodedPkts := h'.decodedPkts.trans h.decodedPkts
  incompleteBatches := h'.incompleteBatches.trans h.incompleteBatches
  completeBatches := h'.completeBatches.trans h.completeBatches

theorem countPacket_same (g : PacketGroup) (pkt : VideoPacket) :
    SameBatches g (g.countPacket pkt) := by
  unfold countPacket
  split
  · cases pkt with
    | data => exact ⟨rfl, rfl, rfl, rfl⟩
    | dupFec => exact ⟨rfl, rfl, rfl, rfl⟩
    | fec => exact ⟨rfl, rfl, rfl, rfl⟩
  · cases pkt with
    | data => exact ⟨rfl, rfl, rfl, rfl⟩
    | dupFec => exact ⟨rfl, rfl, rfl, rfl⟩
    | fec => exact ⟨rfl, rfl, rfl, rfl⟩

theorem recordPacket_same (g : PacketGroup) (pkt : VideoPacket) :
    SameBatches g (g.recordPacket pkt) := by
  have hUpdate : ∀ (g : PacketGroup), SameBatches g ((g.countPacket pkt).updateTimes pkt.header) :=
    fun g => (countPacket_same g pkt).trans ⟨rfl, rfl, rfl, rfl⟩
  rw [recordPacket]
  split
  · have hInit : SameBatches g (g.initGroup pkt) := ⟨rfl, rfl, rfl, rfl⟩
    exact hInit.trans (hUpdate _)
  · exact hUpdate g

theorem SameBatches.drops {g g' : PacketGroup} (h : SameBatches g g') (pkt : VideoPacket) :
    g'.Drops pkt ↔ g.Drops pkt := by
  rw [Drops, h.completeBatches, h.decodedPkts, Drops]

theorem SameBatches.batchWith {g g' : PacketGroup} (h : SameBatches g g') (pkt : VideoPacket) :
    g'.batchWith pkt = g.batchWith pkt := by
  rw [PacketGroup.batchWith, h.incompleteBatches, PacketGroup.batchWith]

/-- What a completed check hands over besides the packets the batch already has. -/
def Recovers (begin : FirstEntry) (b : PacketBatch) (recovered : List DataPacket) (complete : Bool)
    (g : PacketGroup) (now : Time) : Prop :=
  (¬ b.Decodable ∧ complete = false ∧ recovered = []) ∨
  (b.Decodable ∧ b.dataPkts.keys.length = b.dataNum.toNat ∧ complete = true ∧ recovered = []) ∨
  (b.Decodable ∧ b.dataPkts.keys.length ≠ b.dataNum.toNat ∧ complete = true ∧
    ∃ fec, begin.first b.fecPkts = some fec ∧
      recovered = (b.missing fec.dataPkts).map (b.recover g fec now))

theorem checkComplete_cases {begin : FirstEntry} {b b' : PacketBatch} {g : PacketGroup} {now : Time}
    {complete : Bool} (h : b.checkComplete begin g now = some (complete, b')) :
    ∃ recovered, Recovers begin b recovered complete g now ∧
      b'.undecodedPkts = b.undecodedPkts ++ recovered ∧ b'.batchId = b.batchId ∧
      b'.decodedPkts = b.decodedPkts ∧ b'.dataNum = b.dataNum ∧ (complete = false → b' = b) := by
  rw [PacketBatch.checkComplete] at h
  split at h
  · next hDecodable =>
    split at h
    · next hFull =>
      cases h
      exact ⟨[], .inr (.inl ⟨hDecodable, hFull, rfl, rfl⟩), (List.append_nil _).symm, rfl, rfl, rfl,
        fun hFalse => by cases hFalse⟩
    · next hPartial =>
      split at h
      · obtain ⟨fec, hFec, h⟩ := Option.bind_eq_some_iff.mp h
        cases h
        exact ⟨_, .inr (.inr ⟨hDecodable, hPartial, rfl, fec, hFec, rfl⟩), rfl, rfl, rfl, rfl,
          fun hFalse => by cases hFalse⟩
      · cases h
  · next hFew =>
    cases h
    exact ⟨[], .inl ⟨hFew, rfl, rfl⟩, (List.append_nil _).symm, rfl, rfl, rfl, fun _ => rfl⟩

/-- A kept arrival: its batch `b` (with the packet) hands over what it holds and what it recovers,
and is stored as `stored`. -/
structure Adds (begin : FirstEntry) (s : Delivery) (pkt : VideoPacket) (now : Time)
    (b stored : PacketBatch) (recovered : List DataPacket) (complete : Bool) (s' : Delivery) :
    Prop where
  batch : s.group.batchWith pkt = some b
  recovers : Recovers begin b recovered complete (s.group.recordPacket pkt) now
  undecodedPkts : s'.group.undecodedPkts = s.group.undecodedPkts ++ (b.undecodedPkts ++ recovered)
  decodedPkts : s'.group.decodedPkts = s.group.decodedPkts
  incompleteBatches : s'.group.incompleteBatches =
    if complete then s.group.incompleteBatches.erase pkt.header.batchId
    else s.group.incompleteBatches.insert pkt.header.batchId stored
  completeBatches : s'.group.completeBatches =
    if complete then s.group.completeBatches.insert pkt.header.batchId stored
    else s.group.completeBatches
  batchId : stored.batchId = b.batchId
  drained : stored.undecodedPkts = []
  handed : stored.decodedPkts =
    b.decodedPkts ∪ ((b.undecodedPkts ++ recovered).map (·.pktIdInBatch)).toFinset
  kept : complete = false → stored = b.getUndecodedPackets.2

/-- An arrival is dropped or kept; only the statistics of the group see a dropped one. -/
theorem deliver_add_cases {begin : FirstEntry} {s s' : Delivery} {pkt : VideoPacket} {now : Time}
    (h : deliver begin s (.add pkt now) = some s') :
    s'.arrived = s.arrived ++ [pkt] ∧ s'.returned = s.returned ∧
      ((s.group.Drops pkt ∧ SameBatches s.group s'.group) ∨
        (¬ s.group.Drops pkt ∧ ∃ b stored recovered complete,
          Adds begin s pkt now b stored recovered complete s')) := by
  rw [deliver] at h
  obtain ⟨group, hAdd, h⟩ := Option.bind_eq_some_iff.mp h
  cases h
  refine ⟨rfl, rfl, ?_⟩
  have hSame := recordPacket_same s.group pkt
  rw [addPacket] at hAdd
  dsimp only at hAdd
  split at hAdd
  · next hDrop =>
    cases hAdd
    exact .inl ⟨(hSame.drops pkt).mp hDrop, hSame⟩
  · next hKeep =>
    obtain ⟨b, hBatch, hAdd⟩ := Option.bind_eq_some_iff.mp hAdd
    obtain ⟨⟨complete, b'⟩, hCheck, hAdd⟩ := Option.bind_eq_some_iff.mp hAdd
    rw [hSame.batchWith] at hBatch
    obtain ⟨recovered, hRecovers, hUndecoded, hId, hDecoded, -, hSameBatch⟩ :=
      checkComplete_cases hCheck
    refine .inr ⟨fun hDrop => hKeep ((hSame.drops pkt).mpr hDrop), b, b'.getUndecodedPackets.2,
      recovered, complete, hBatch, hRecovers, ?_, ?_, ?_, ?_, hId, rfl, ?_, ?_⟩
    · rw [← hUndecoded, ← hSame.undecodedPkts, ← Option.some.inj hAdd]
      cases complete with
      | true => rfl
      | false => rfl
    · rw [← hSame.decodedPkts, ← Option.some.inj hAdd]
      cases complete with
      | true => rfl
      | false => rfl
    · rw [← hSame.incompleteBatches, ← Option.some.inj hAdd]
      cases complete with
      | true => rfl
      | false => rfl
    · rw [← hSame.completeBatches, ← Option.some.inj hAdd]
      cases complete with
      | true => rfl
      | false => rfl
    · rw [← hDecoded, ← hUndecoded]
      rfl
    · intro hFalse
      rw [hSameBatch hFalse]

end Bullet.Stream.PacketGroup
