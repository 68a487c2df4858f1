import Bullet.Stream.GroupDelivery

/-! # Exactly-once delivery

The decoded ids of group and batches are always those of handed over packets. No id is handed over
twice as long as an arriving data packet is not the copy of a waiting one, and the packets recovered
from a FEC packet are new to the group.
-/

namespace Bullet.Stream.PacketGroup

open Lib.PartialRun

section Batch

variable {b : PacketBatch} {pkt : VideoPacket}

/-- The packet handed over directly: a data packet that its batch has not decoded. -/
def direct (b : PacketBatch) (pkt : VideoPacket) : List DataPacket :=
  if pkt.header.pktIdInBatch ∈ b.decodedPkts then [] else pkt.asData.toList

theorem addPacket_undecodedPkts (b : PacketBatch) (pkt : VideoPacket) :
    (b.addPacket pkt).undecodedPkts = b.undecodedPkts ++ direct b pkt := by
  unfold PacketBatch.addPacket direct
  split
  · exact (List.append_nil _).symm
  · cases pkt with
    | data => rfl
    | dupFec => rfl
    | fec => exact (List.append_nil _).symm

theorem addPacket_decodedPkts (b : PacketBatch) (pkt : VideoPacket) :
    (b.addPacket pkt).decodedPkts = b.decodedPkts := by
  unfold PacketBatch.addPacket
  split
  · rfl
  · cases pkt with
    | data => rfl
    | dupFec => rfl
    | fec => rfl

theorem addPacket_batchId (b : PacketBatch) (pkt : VideoPacket) :
    (b.addPacket pkt).batchId = b.batchId := by
  unfold PacketBatch.addPacket
  split
  · rfl
  · cases pkt with
    | data => rfl
    | dupFec => rfl
    | fec => rfl

theorem mem_direct {data : DataPacket} (h : data ∈ direct b pkt) :
    data.batchId = pkt.header.batchId ∧ data.pktIdInGroup = pkt.header.pktIdInGroup := by
  unfold direct at h
  split at h
  · cases h
  · cases pkt with
    | data p =>
      rw [List.mem_singleton.mp h]
      exact ⟨rfl, rfl⟩
    | dupFec p =>
      rw [List.mem_singleton.mp h]
      exact ⟨rfl, rfl⟩
    | fec p => cases h

theorem direct_nodup : ((direct b pkt).map (·.pktIdInGroup)).Nodup := by
  unfold direct
  split
  · exact List.nodup_nil
  · cases pkt with
    | data => exact List.nodup_singleton _
    | dupFec => exact List.nodup_singleton _
    | fec => exact List.nodup_nil

/-- The batch of a packet is the incomplete one of its id or a new one, with the packet in it. -/
theorem batchWith_cases {g : PacketGroup} (h : g.batchWith pkt = some b) :
    ∃ old, b = old.addPacket pkt ∧
      (g.incompleteBatches.lookup pkt.header.batchId = some old ∨
        (g.incompleteBatches.lookup pkt.header.batchId = none ∧
          old = PacketBatch.ofHeader pkt.header ∧ 0 < pkt.header.batchDataNum)) := by
  rw [batchWith] at h
  split at h
  · next hNone =>
    rw [PacketBatch.create] at h
    split at h
    · next hPos =>
      cases h
      exact ⟨_, rfl, .inr ⟨hNone, rfl, hPos⟩⟩
    · cases h
  · next old hOld =>
    cases h
    exact ⟨old, rfl, .inl hOld⟩

end Batch

/-- The packets a batch has decoded were handed over under its id. -/
def Handed (s : Delivery) (batchId : UInt32) (b : PacketBatch) : Prop :=
  b.batchId = batchId ∧ ∀ i ∈ b.decodedPkts, ∃ pkt ∈ s.delivered,
    pkt.batchId = batchId ∧ pkt.pktIdInBatch = i

/-- What every run keeps. -/
structure Delivery.Sound (s : Delivery) : Prop where
  decoded : ∀ id, id ∈ s.group.decodedPkts ↔ id ∈ s.returned.map (·.pktIdInGroup)
  drained : ∀ id b, s.group.incompleteBatches.lookup id = some b → b.undecodedPkts = []
  incomplete : ∀ id b, s.group.incompleteBatches.lookup id = some b → Handed s id b
  complete : ∀ id b, s.group.completeBatches.lookup id = some b → Handed s id b

theorem Handed.mono {s s' : Delivery} (hSub : s.delivered ⊆ s'.delivered) {batchId : UInt32}
    {b : PacketBatch} (h : Handed s batchId b) : Handed s' batchId b := by
  refine ⟨h.1, fun i hMem => ?_⟩
  obtain ⟨pkt, hPkt, hIds⟩ := h.2 i hMem
  exact ⟨pkt, hSub hPkt, hIds⟩

theorem init_sound (groupId : UInt32) (dataNum : UInt16) (encodeTime : Time) :
    (Delivery.init groupId dataNum encodeTime).Sound where
  decoded id := by simp [Delivery.init, create]
  drained id b hB := by cases hB
  incomplete id b hB := by cases hB
  complete id b hB := by cases hB

section Step

variable {begin : FirstEntry} {s s' : Delivery} {pkt : VideoPacket} {now : Time}

theorem deliver_get (begin : FirstEntry) (s : Delivery) : ∃ s', deliver begin s .get = some s' ∧
    s'.delivered = s.delivered ∧ s'.arrived = s.arrived ∧ s'.returned = s.delivered ∧
    s'.group.undecodedPkts = [] ∧
    s'.group.incompleteBatches = s.group.incompleteBatches ∧
    s'.group.completeBatches = s.group.completeBatches ∧
    s'.group.decodedPkts =
      s.group.decodedPkts ∪ (s.group.undecodedPkts.map (·.pktIdInGroup)).toFinset :=
  ⟨_, rfl, List.append_nil _, rfl, rfl, rfl, rfl, rfl, rfl⟩

section Adds

variable {b stored : PacketBatch} {recovered : List DataPacket} {complete : Bool}

theorem Adds.delivered (h : Adds begin s pkt now b stored recovered complete s')
    (hReturned : s'.returned = s.returned) :
    s'.delivered = s.delivered ++ (b.undecodedPkts ++ recovered) := by
  rw [Delivery.delivered, hReturned, h.undecodedPkts, Delivery.delivered, List.append_assoc]

theorem Adds.undecoded_eq (h : Adds begin s pkt now b stored recovered complete s')
    (hSound : s.Sound) : ∃ old, b.undecodedPkts = direct old pkt ∧ b.decodedPkts = old.decodedPkts ∧
      b.batchId = pkt.header.batchId ∧ Handed s pkt.header.batchId old := by
  obtain ⟨old, hB, hOld⟩ := batchWith_cases h.batch
  refine ⟨old, ?_⟩
  rw [hB, addPacket_undecodedPkts, addPacket_decodedPkts, addPacket_batchId]
  rcases hOld with hOld | ⟨-, rfl, -⟩
  · rw [hSound.drained _ _ hOld]
    have hHanded := hSound.incomplete _ _ hOld
    exact ⟨rfl, rfl, hHanded.1, hHanded⟩
  · exact ⟨rfl, rfl, rfl, rfl, fun i hMem => absurd hMem (Finset.notMem_empty i)⟩

/-- Recovered packets carry the id of the batch. -/
theorem Recovers.batchId {g : PacketGroup} (h : Recovers begin b recovered complete g now)
    {data : DataPacket} (hMem : data ∈ recovered) : data.batchId = b.batchId := by
  rcases h with ⟨-, -, rfl⟩ | ⟨-, -, -, rfl⟩ | ⟨-, -, -, fec, -, rfl⟩
  · cases hMem
  · cases hMem
  · obtain ⟨digest, -, rfl⟩ := List.mem_map.mp hMem
    rfl

theorem Adds.handed_stored (h : Adds begin s pkt now b stored recovered complete s')
    (hSound : s.Sound) (hReturned : s'.returned = s.returned) :
    Handed s' pkt.header.batchId stored := by
  obtain ⟨old, hUndecoded, hDecoded, hId, hOld⟩ := h.undecoded_eq hSound
  refine ⟨h.batchId.trans hId, fun i hMem => ?_⟩
  rw [h.delivered hReturned]
  rw [h.handed, hDecoded] at hMem
  rcases Finset.mem_union.mp hMem with hBefore | hNow
  · obtain ⟨data, hData, hIds⟩ := hOld.2 i hBefore
    exact ⟨data, List.mem_append_left _ hData, hIds⟩
  · obtain ⟨data, hData, rfl⟩ := List.mem_map.mp (List.mem_toFinset.mp hNow)
    refine ⟨data, List.mem_append_right _ hData, ?_, rfl⟩
    rcases List.mem_append.mp hData with hDirect | hRecovered
    · rw [hUndecoded] at hDirect
      exact (mem_direct hDirect).1
    · exact (h.recovers.batchId hRecovered).trans hId

theorem Adds.lookup_incomplete (h : Adds begin s pkt now b stored recovered complete s')
    {id : UInt32} {c : PacketBatch} (hC : s'.group.incompleteBatches.lookup id = some c) :
    (id ≠ pkt.header.batchId ∧ s.group.incompleteBatches.lookup id = some c) ∨
      (id = pkt.header.batchId ∧ c = stored ∧ complete = false) := by
  rw [h.incompleteBatches] at hC
  by_cases hId : id = pkt.header.batchId
  · cases complete with
    | true =>
      rw [if_pos rfl, hId, AList.lookup_erase] at hC
      cases hC
    | false =>
      rw [if_neg Bool.false_ne_true, hId, AList.lookup_insert] at hC
      exact .inr ⟨hId, (Option.some.inj hC).symm, rfl⟩
  · cases complete with
    | true =>
      rw [if_pos rfl, AList.lookup_erase_ne hId] at hC
      exact .inl ⟨hId, hC⟩
    | false =>
      rw [if_neg Bool.false_ne_true, AList.lookup_insert_ne hId] at hC
      exact .inl ⟨hId, hC⟩

theorem Adds.lookup_complete (h : Adds begin s pkt now b stored recovered complete s')
    {id : UInt32} {c : PacketBatch} (hC : s'.group.completeBatches.lookup id = some c) :
    s.group.completeBatches.lookup id = some c ∨
      (id = pkt.header.batchId ∧ c = stored ∧ complete = true) := by
  rw [h.completeBatches] at hC
  cases complete with
  | false => exact .inl hC
  | true =>
    rw [if_pos rfl] at hC
    by_cases hId : id = pkt.header.batchId
    · rw [hId, AList.lookup_insert] at hC
      exact .inr ⟨hId, (Option.some.inj hC).symm, rfl⟩
    · rw [AList.lookup_insert_ne hId] at hC
      exact .inl hC

end Adds

theorem deliver_sound (hSound : s.Sound) {op : GroupOp} (h : deliver begin s op = some s') :
    s'.Sound := by
  cases op with
  | get =>
    obtain ⟨t, hGet, hDelivered, -, hReturned, -, hIncomplete, hComplete, hDecoded⟩ :=
      deliver_get begin s
    cases h.symm.trans hGet
    have hSub : s.delivered ⊆ s'.delivered := hDelivered ▸ List.Subset.refl _
    refine ⟨fun id => ?_, fun id b hB => ?_, fun id b hB => ?_, fun id b hB => ?_⟩
    · rw [hDecoded, hReturned, Finset.mem_union, hSound.decoded, List.mem_toFinset,
        Delivery.delivered, List.map_append, List.mem_append]
    · exact hSound.drained id b (hIncomplete ▸ hB)
    · exact (hSound.incomplete id b (hIncomplete ▸ hB)).mono hSub
    · exact (hSound.complete id b (hComplete ▸ hB)).mono hSub
  | add pkt now =>
    obtain ⟨-, hReturned, ⟨-, hSame⟩ | ⟨-, b, stored, recovered, complete, hAdds⟩⟩ :=
      deliver_add_cases h
    · have hSub : s.delivered ⊆ s'.delivered := by
        rw [Delivery.delivered, Delivery.delivered, hReturned, hSame.undecodedPkts]
        exact List.Subset.refl _
      refine ⟨fun id => ?_, fun id b hB => ?_, fun id b hB => ?_, fun id b hB => ?_⟩
      · rw [hSame.decodedPkts, hReturned, hSound.decoded]
      · exact hSound.drained id b (hSame.incompleteBatches ▸ hB)
      · exact (hSound.incomplete id b (hSame.incompleteBatches ▸ hB)).mono hSub
      · exact (hSound.complete id b (hSame.completeBatches ▸ hB)).mono hSub
    · have hSub : s.delivered ⊆ s'.delivered := by
        rw [hAdds.delivered hReturned]
        exact List.subset_append_left _ _
      have hStored := hAdds.handed_stored hSound hReturned
      refine ⟨fun id => ?_, fun id c hC => ?_, fun id c hC => ?_, fun id c hC => ?_⟩
      · rw [hAdds.decodedPkts, hReturned, hSound.decoded]
      · rcases hAdds.lookup_incomplete hC with ⟨-, hOld⟩ | ⟨-, rfl, -⟩
        · exact hSound.drained id c hOld
        · exact hAdds.drained
      · rcases hAdds.lookup_incomplete hC with ⟨-, hOld⟩ | ⟨rfl, rfl, -⟩
        · exact (hSound.incomplete id c hOld).mono hSub
        · exact hStored
      · rcases hAdds.lookup_complete hC with hOld | ⟨rfl, rfl, -⟩
        · exact (hSound.complete id c hOld).mono hSub
        · exact hStored

end Step

/-- The arriving data packet is not the copy of a waiting one, and what its batch recovers is new to
the group. -/
def AddsFresh (begin : FirstEntry) (s : Delivery) : GroupOp → Prop
  | .get => True
  | .add pkt _ => ¬ s.group.Drops pkt → ∀ b ∈ s.group.batchWith pkt,
      (∀ data ∈ b.undecodedPkts,
        data.pktIdInGroup ∉ s.group.undecodedPkts.map (·.pktIdInGroup)) ∧
      (b.Decodable → b.dataPkts.keys.length ≠ b.dataNum.toNat →
        ∀ fec ∈ begin.first b.fecPkts,
          ((b.missing fec.dataPkts).map (·.pktIdInGroup)).Nodup ∧
          ∀ digest ∈ b.missing fec.dataPkts, digest.pktIdInGroup ∉ s.group.decodedPkts ∧
            digest.pktIdInGroup ∉
              (s.group.undecodedPkts ++ b.undecodedPkts).map (·.pktIdInGroup))

instance (begin : FirstEntry) (s : Delivery) : ∀ op, Decidable (AddsFresh begin s op)
  | .get => inferInstanceAs (Decidable True)
  | .add pkt _ => inferInstanceAs (Decidable (¬ s.group.Drops pkt → ∀ b ∈ s.group.batchWith pkt, _))

/-- No id is returned twice, and what is recorded as decoded is returned, or will be by the next
read. -/
structure Delivery.ExactlyOnce (s : Delivery) : Prop where
  once : (s.delivered.map (·.pktIdInGroup)).Nodup
  decoded : ∀ id, id ∈ s.group.decodedPkts ↔ id ∈ s.returned.map (·.pktIdInGroup)
  incomplete : ∀ id b, s.group.incompleteBatches.lookup id = some b → Handed s id b
  complete : ∀ id b, s.group.completeBatches.lookup id = some b → Handed s id b

section Run

variable {begin : FirstEntry} {s s' : Delivery}

theorem recovered_new {b : PacketBatch} {g g' : PacketGroup} {recovered : List DataPacket}
    {complete : Bool} {now : Time} (h : Recovers begin b recovered complete g' now)
    (hFec : b.Decodable → b.dataPkts.keys.length ≠ b.dataNum.toNat →
      ∀ fec ∈ begin.first b.fecPkts,
        ((b.missing fec.dataPkts).map (·.pktIdInGroup)).Nodup ∧
        ∀ digest ∈ b.missing fec.dataPkts, digest.pktIdInGroup ∉ g.decodedPkts ∧
          digest.pktIdInGroup ∉ (g.undecodedPkts ++ b.undecodedPkts).map (·.pktIdInGroup)) :
    (recovered.map (·.pktIdInGroup)).Nodup ∧ ∀ id ∈ recovered.map (·.pktIdInGroup),
      id ∉ g.decodedPkts ∧ id ∉ (g.undecodedPkts ++ b.undecodedPkts).map (·.pktIdInGroup) := by
  rcases h with ⟨-, -, rfl⟩ | ⟨-, -, -, rfl⟩ | ⟨hDecodable, hPartial, -, fec, hFirst, rfl⟩
  · exact ⟨List.nodup_nil, fun id hId => by cases hId⟩
  · exact ⟨List.nodup_nil, fun id hId => by cases hId⟩
  · obtain ⟨hNodup, hNew⟩ := hFec hDecodable hPartial fec hFirst
    rw [List.map_map]
    refine ⟨hNodup, fun id hId => ?_⟩
    obtain ⟨digest, hDigest, rfl⟩ := List.mem_map.mp hId
    exact hNew digest hDigest

theorem deliver_once (hSound : s.Sound) (hOnce : (s.delivered.map (·.pktIdInGroup)).Nodup)
    {op : GroupOp} (hOk : AddsFresh begin s op) (h : deliver begin s op = some s') :
    (s'.delivered.map (·.pktIdInGroup)).Nodup := by
  cases op with
  | get =>
    obtain ⟨t, hGet, hDelivered, -⟩ := deliver_get begin s
    cases h.symm.trans hGet
    rwa [hDelivered]
  | add pkt now =>
    obtain ⟨-, hReturned, ⟨-, hSame⟩ | ⟨hKeep, b, stored, recovered, complete, hAdds⟩⟩ :=
      deliver_add_cases h
    · rwa [Delivery.delivered, hReturned, hSame.undecodedPkts]
    · obtain ⟨hDirect, hFec⟩ := hOk hKeep b hAdds.batch
      obtain ⟨old, hUndecoded, -⟩ := hAdds.undecoded_eq hSound
      have hDirectNodup : (b.undecodedPkts.map (·.pktIdInGroup)).Nodup := by
        rw [hUndecoded]
        exact direct_nodup
      have hDirectNew : ∀ data ∈ b.undecodedPkts,
          data.pktIdInGroup ∉ s.delivered.map (·.pktIdInGroup) := by
        intro data hData hMem
        rw [Delivery.delivered, List.map_append, List.mem_append, ← hSound.decoded] at hMem
        rcases hMem with hDecoded | hWaiting
        · rw [hUndecoded] at hData
          rw [(mem_direct hData).2] at hDecoded
          exact hKeep (.inr hDecoded)
        · exact hDirect data hData hWaiting
      obtain ⟨hRecoveredNodup, hRecoveredNew⟩ := recovered_new hAdds.recovers hFec
      rw [hAdds.delivered hReturned, List.map_append, List.map_append]
      refine hOnce.append (hDirectNodup.append hRecoveredNodup ?_) ?_
      · intro id hDirectId hRecoveredId
        refine (hRecoveredNew id hRecoveredId).2 ?_
        rw [List.map_append]
        exact List.mem_append_right _ hDirectId
      · intro id hOld hNew
        rcases List.mem_append.mp hNew with hDirectId | hRecoveredId
        · obtain ⟨data, hData, rfl⟩ := List.mem_map.mp hDirectId
          exact hDirectNew data hData hOld
        · obtain ⟨hNotDecoded, hNotWaiting⟩ := hRecoveredNew id hRecoveredId
          rw [Delivery.delivered, List.map_append, List.mem_append, ← hSound.decoded] at hOld
          rcases hOld with hDecoded | hWaiting
          · exact hNotDecoded hDecoded
          · rw [List.map_append] at hNotWaiting
            exact hNotWaiting (List.mem_append_left _ hWaiting)

/-- As long as every arrival hands over only packets that are new to the group, each id is returned
at most once over the whole life of the group, whatever batches and retransmissions arrive. -/
theorem exactlyOnce_of_run (begin : FirstEntry) (groupId : UInt32) (dataNum : UInt16)
    (encodeTime : Time) (ops : List GroupOp)
    (hOk : StepsMeet (deliver begin) (AddsFresh begin) (.init groupId dataNum encodeTime) ops)
    (s : Delivery) (hRun : run (deliver begin) (.init groupId dataNum encodeTime) ops = some s) :
    s.ExactlyOnce := by
  have hStep : ∀ (t : Delivery) (op : GroupOp) (t' : Delivery),
      (t.Sound ∧ (t.delivered.map (·.pktIdInGroup)).Nodup) → AddsFresh begin t op →
      deliver begin t op = some t' → t'.Sound ∧ (t'.delivered.map (·.pktIdInGroup)).Nodup :=
    fun t op t' hInv hOp hDeliver =>
      ⟨deliver_sound hInv.1 hDeliver, deliver_once hInv.1 hInv.2 hOp hDeliver⟩
  obtain ⟨hSound, hOnce⟩ := invariant_of_run hStep
    ⟨init_sound groupId dataNum encodeTime, List.nodup_nil⟩ hOk hRun
  exact ⟨hOnce, hSound.decoded, hSound.incomplete, hSound.complete⟩

end Run

/-- One of two data packets is lost and recovered from the FEC packet of its batch. -/
def recoveryOps : List GroupOp :=
  [dataArrival (batchHeader 0 2 1 0 0), .get, fecArrival (batchHeader 0 2 1 2 2) [0, 1], .get]

theorem exactlyOnce_of_run_recovery :
    ∃ s, run (deliver .newest) (.init 0 2 0) recoveryOps = some s ∧ s.ExactlyOnce :=
  ⟨_, rfl, exactlyOnce_of_run .newest 0 2 0 recoveryOps (by decide) _ rfl⟩

/-- Data packet 0 arrives in the first transmission. Of the retransmission of both packets (batch 1)
packet 1 and the FEC packet arrive, and the batch recovers packet 0 again. -/
def retransmissionOps : List GroupOp :=
  [dataArrival (batchHeader 0 2 0 0 0), .get, dataArrival (batchHeader 1 2 1 1 1), .get,
    fecArrival (batchHeader 1 2 1 2 65535) [0, 1], .get]

theorem id_returned_twice :
    ∃ s, run (deliver .newest) (.init 0 2 0) retransmissionOps = some s ∧
      s.returned.map (·.pktIdInGroup) = [0, 1, 0] ∧ ¬ s.ExactlyOnce := by
  refine ⟨_, rfl, rfl, fun h => ?_⟩
  have hOnce := h.once
  revert hOnce
  decide

end Bullet.Stream.PacketGroup
