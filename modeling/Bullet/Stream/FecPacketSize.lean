import Bullet.Stream.SenderGroups
import Bullet.Stream.WireRoundTrip

/-! # The size of a FEC packet

A FEC packet lists the data packets of its batch and is filled up to the largest payload. The list of
a long batch is longer than that, and the 32-bit size of the filling wraps around.
-/

namespace Bullet.Stream

open Lib Lib.PartialRun Lib.Wire NetworkPacket

/-! ## One packet -/

/-- The bytes of the list in the header of a FEC packet. -/
def FecPacket.listLength (pkt : FecPacket) : ℕ :=
  2 + pkt.dataPkts.length * 12

/-- The payload that `FECPacket::ToNetPacket` creates. -/
def FecPacket.payloadSize (pkt : FecPacket) : UInt32 :=
  -fecHeaderLength pkt.dataPkts + videoMaxPayloadSize.toUInt32

/-- The filling is exactly what the list leaves, and the packet fits the MTU payload. -/
structure FecPacket.FitsMtu (pkt : FecPacket) : Prop where
  noWrap : pkt.payloadSize.toNat + pkt.listLength = videoMaxPayloadSize.toNat
  serialised : ∀ video : VideoPacketHeader, ∃ packet,
    (NetworkPacket.fec video pkt.dataPkts).toNetPacket = some packet ∧
      packet.length ≤ maxPacketSize.toNat

section

variable {pkt : FecPacket}

/-- A list that leaves the payload a size fills the packet to the same length always. -/
theorem FecPacket.length_toNetPacket (video : VideoPacketHeader) (h : pkt.dataPkts.length ≤ 118) :
    ∃ packet, (NetworkPacket.fec video pkt.dataPkts).toNetPacket = some packet ∧
      packet.length = 1453 := by
  have hCount : pkt.dataPkts.length < 2 ^ 16 := by omega
  have hFec := fecPacketHeader_readsAs hCount
  have hSize : (fecPacketHeader.serialize pkt.dataPkts).length = pkt.dataPkts.length * 12 + 2 :=
    hFec.size.symm.trans (announced_size (by omega))
  have hPayload := fec_payload_length hCount
  have hVideo : (videoPacketHeader.getSerializedSize video).toNat =
      (videoPacketHeader.serialize video).length := (length_video video).symm
  have hNetwork : (networkPacketHeader.getSerializedSize .fecPkt).toNat =
      (networkPacketHeader.serialize .fecPkt).length := (length_network .fecPkt).symm
  refine ⟨networkPacketHeader.serialize .fecPkt ++ (videoPacketHeader.serialize video ++
    (fecPacketHeader.serialize pkt.dataPkts ++
      create (-fecHeaderLength pkt.dataPkts + videoMaxPayloadSize.toUInt32))), ?_, ?_⟩
  · rw [toNetPacket, addHeader_eq hFec (by omega), Option.bind_eq_bind, Option.bind_some,
      addHeader_of_size hVideo (by rw [length_video, List.length_append]; omega), Option.bind_some]
    apply addHeader_of_size hNetwork
    simp only [List.length_append, length_video, length_network]
    omega
  · simp only [List.length_append, length_video, length_network, hSize, hPayload]
    omega

theorem FecPacket.payloadSize_toNat (h : pkt.dataPkts.length ≤ 118) :
    pkt.payloadSize.toNat + pkt.listLength = videoMaxPayloadSize.toNat := by
  have hCount : pkt.dataPkts.length < 2 ^ 16 := by omega
  have hPayload := fec_payload_length hCount
  have hMax : videoMaxPayloadSize.toNat = 1418 := by decide
  rw [create, List.length_replicate] at hPayload
  rw [payloadSize, listLength, hPayload, hMax]
  omega

theorem FecPacket.fitsMtu_iff : pkt.FitsMtu ↔ pkt.dataPkts.length ≤ 118 := by
  constructor
  · intro hFits
    have hMax : videoMaxPayloadSize.toNat = 1418 := by decide
    have hSum := hFits.noWrap
    rw [hMax, listLength] at hSum
    omega
  · intro hShort
    refine ⟨payloadSize_toNat hShort, ?_⟩
    intro video
    obtain ⟨packet, hPacket, hLength⟩ := length_toNetPacket video hShort
    exact ⟨packet, hPacket, hLength.trans_le (by decide)⟩

end

/-! ## The packets of a batch -/

namespace Sender

theorem length_assignIds {info : BatchInfo} {newGroup : Bool} {pkts data : List SentPacket} :
    ∀ {pktIdInBatch pktIdInGroup next : UInt16},
      assignIds info newGroup pktIdInBatch pktIdInGroup pkts = some (data, next) →
        data.length = pkts.length := by
  induction pkts generalizing data with
  | nil =>
    intro pktIdInBatch pktIdInGroup next h
    rw [assignIds, Option.some.injEq, Prod.mk.injEq] at h
    rw [← h.1]
  | cons pkt pkts ih =>
    intro pktIdInBatch pktIdInGroup next h
    rw [assignIds] at h
    split at h
    · split at h
      · obtain ⟨r, hRest, hEq⟩ := Option.map_eq_some_iff.mp h
        rw [Prod.mk.injEq] at hEq
        rw [← hEq.1, List.length_cons, List.length_cons, ih hRest]
      · cases h
    · obtain ⟨r, hRest, hEq⟩ := Option.map_eq_some_iff.mp h
      rw [Prod.mk.injEq] at hEq
      rw [← hEq.1, List.length_cons, List.length_cons, ih hRest]

variable {s t : Sender} {pktBatch : List SentPacket} {param : FecParam} {newGroup isRtx : Bool}
  {groupId : UInt32} {batch : Batch} {pkt : FecPacket}

/-- A FEC packet lists every data packet of its batch. -/
theorem length_dataPkts
    (h : s.createPacketBatch pktBatch param newGroup groupId isRtx = some (batch, t))
    (hMem : pkt ∈ batch.fec) : pkt.dataPkts.length = pktBatch.length := by
  cases pktBatch with
  | nil => cases h
  | cons front tail =>
    obtain ⟨r, hIds, hEq⟩ := Option.map_eq_some_iff.mp h
    rw [Prod.mk.injEq] at hEq
    rw [← hEq.1] at hMem
    obtain ⟨i, -, rfl⟩ := List.mem_map.mp hMem
    exact (List.length_map _).trans (length_assignIds hIds)

theorem fecPacket_fitsMtu_iff
    (h : s.createPacketBatch pktBatch param newGroup groupId isRtx = some (batch, t))
    (hMem : pkt ∈ batch.fec) : pkt.FitsMtu ↔ pktBatch.length ≤ 118 := by
  rw [FecPacket.fitsMtu_iff, length_dataPkts h hMem]

/-- The FEC packet of a group of one packet. -/
theorem fecPacket_fitsMtu_one_packet :
    (fecPacket ⟨0, 1, 1, 0, 1, 1⟩ 0 0 [⟨0, 0, 0, 1, 0⟩] 1 1).FitsMtu := by
  have hBatch : (create 0 ⟨0, 0, 0, 0⟩).createPacketBatch [dataPacket 0 0 1 0 1406]
      ⟨1, fun _ => 1⟩ true 0 false = some (_, _) := rfl
  apply (fecPacket_fitsMtu_iff hBatch ?_).mpr
  · decide
  · exact List.mem_singleton_self _

/-- The number of data packets that a FEC packet of `pkts` lists is over `bound`. -/
def listsMore (bound : ℕ) (pkts : List VideoPacket) : Bool :=
  pkts.any fun
    | .data _ | .dupFec _ => false
    | .fec pkt => decide (bound < pkt.dataPkts.length)

theorem exists_of_listsMore {bound : ℕ} {pkts : List VideoPacket} (h : listsMore bound pkts = true) :
    ∃ pkt : FecPacket, .fec pkt ∈ pkts ∧ bound < pkt.dataPkts.length := by
  obtain ⟨pkt, hMem, hLong⟩ := List.any_eq_true.mp h
  cases pkt with
  | data pkt | dupFec pkt => cases hLong
  | fec pkt => exact ⟨pkt, hMem, of_decide_eq_true hLong⟩

/-- A frame of 119 full packets that is sent as one group with a FEC packet. -/
theorem long_batch_exceeds_mtu :
    ¬ ∀ (env : SenderEnv) (delayDdl : Time) (netStat : NetStat) (events : List SenderEvent)
      (t : Sender), run (step env) (create delayDdl netStat) events = some t →
        ∀ pkt : FecPacket, InTraffic t (.fec pkt) → pkt.FitsMtu := by
  intro hAll
  have hRun : (run (step (.constant 119 1)) (create 100000000 ⟨0, 0, 0, 0⟩)
      [.sendFrame 167314]).any (fun t => t.traffic.any fun frame => listsMore 118 frame.packets) =
        true := by
    decide +kernel
  obtain ⟨t, hSome, hTraffic⟩ := (Option.any_eq_true _ _).mp hRun
  obtain ⟨frame, hFrame, hLists⟩ := List.any_eq_true.mp hTraffic
  obtain ⟨pkt, hMem, hLong⟩ := exists_of_listsMore hLists
  have hFits := hAll _ _ _ _ t hSome pkt ⟨frame, hFrame, hMem⟩
  have hShort := FecPacket.fitsMtu_iff.mp hFits
  omega

end Sender
end Bullet.Stream
