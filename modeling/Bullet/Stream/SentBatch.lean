import Bullet.Stream.ExactlyOnce

/-! # Batches as sent

A sender numbers the `n` data packets of a batch from 0, its FEC packets from `n`, and lets every FEC
packet describe all data packets. A batch at the receiver holds some of them.
-/

namespace Bullet.Stream.PacketGroup

open Lib.PartialRun

/-- A batch as sent: the ids in the group of its data packets, in the order of their ids in the
batch. -/
structure SentBatch where
  ids : List UInt16
  fecNum : Nat
  pos : 0 < ids.length

abbrev SentBatches := UInt32 → Option SentBatch

/-- The FEC packet describes the data packets of the batch. -/
def Describes (fec : FecPacket) (B : SentBatch) : Prop :=
  ∀ i id, B.ids[i]? = some id ↔
    ∃ digest ∈ fec.dataPkts, digest.pktIdInBatch.toNat = i ∧ digest.pktIdInGroup = id

/-- The packet is one of those sent for its batch. -/
def FromBatch (sent : SentBatches) (pkt : VideoPacket) : Prop :=
  ∃ B, sent pkt.header.batchId = some B ∧ pkt.header.batchDataNum.toNat = B.ids.length ∧
    match pkt with
    | .data data => B.ids[data.pktIdInBatch.toNat]? = some data.pktIdInGroup
    | .dupFec data => B.ids[data.pktIdInBatch.toNat]? = some data.pktIdInGroup
    | .fec fec => B.ids.length ≤ fec.pktIdInBatch.toNat ∧
        fec.pktIdInBatch.toNat < B.ids.length + B.fecNum ∧ Describes fec B

def OpFromBatch (sent : SentBatches) : GroupOp → Prop
  | .add pkt _ => FromBatch sent pkt
  | .get => True

/-- What a batch holds of the sent batch `B`; `known` are the ids handed over. -/
structure BatchOf (B : SentBatch) (known : UInt16 → Prop) (b : PacketBatch) : Prop where
  dataNum : b.dataNum.toNat = B.ids.length
  data : ∀ i ∈ b.dataPkts, ∃ id, B.ids[i.toNat]? = some id ∧ known id
  fec : ∀ i fec, b.fecPkts.lookup i = some fec → Describes fec B

section Batch

variable {B : SentBatch} {known known' : UInt16 → Prop} {b : PacketBatch}

theorem BatchOf.mono (h : BatchOf B known b) (hKnown : ∀ id, known id → known' id) :
    BatchOf B known' b where
  dataNum := h.dataNum
  data i hMem := by
    obtain ⟨id, hId, hIdKnown⟩ := h.data i hMem
    exact ⟨id, hId, hKnown id hIdKnown⟩
  fec := h.fec

/-- The indices of the data packets held, which are distinct and below `n`. -/
theorem BatchOf.indices (h : BatchOf B known b) :
    (b.dataPkts.keys.map UInt16.toNat).Nodup ∧
      b.dataPkts.keys.map UInt16.toNat ⊆ List.range B.ids.length := by
  refine ⟨b.dataPkts.keys_nodup.map (fun _ _ => UInt16.toNat_inj.mp), fun n hMem => ?_⟩
  obtain ⟨i, hKey, rfl⟩ := List.mem_map.mp hMem
  obtain ⟨id, hId, -⟩ := h.data i (AList.mem_keys.mpr hKey)
  exact List.mem_range.mpr (List.getElem?_eq_some_iff.mp hId).1

theorem BatchOf.length_le (h : BatchOf B known b) : b.dataPkts.keys.length ≤ B.ids.length := by
  have hLe := (h.indices.1.subperm h.indices.2).length_le
  rwa [List.length_map, List.length_range] at hLe

/-- A batch that holds `n` data packets holds them all. -/
theorem BatchOf.known_of_full (h : BatchOf B known b)
    (hFull : b.dataPkts.keys.length = B.ids.length) : ∀ id ∈ B.ids, known id := by
  intro id hId
  obtain ⟨n, hLt, hEntry⟩ := List.mem_iff_getElem.mp hId
  have hPerm := (h.indices.1.subperm h.indices.2).perm_of_length_le
    (by rw [List.length_map, List.length_range, hFull])
  obtain ⟨i, hKey, rfl⟩ := List.mem_map.mp (hPerm.mem_iff.mpr (List.mem_range.mpr hLt))
  obtain ⟨other, hOther, hKnown⟩ := h.data i (AList.mem_keys.mpr hKey)
  rw [List.getElem?_eq_getElem hLt, hEntry] at hOther
  exact Option.some.inj hOther ▸ hKnown

/-- With a FEC packet, what the batch holds and what it recovers is the whole batch. -/
theorem BatchOf.known_or_missing (h : BatchOf B known b) {fec : FecPacket}
    (hFec : Describes fec B) {id : UInt16} (hId : id ∈ B.ids) :
    known id ∨ id ∈ (b.missing fec.dataPkts).map (·.pktIdInGroup) := by
  obtain ⟨n, hLt, hEntry⟩ := List.mem_iff_getElem.mp hId
  have hAt : B.ids[n]? = some id := by
    rw [List.getElem?_eq_getElem hLt, hEntry]
  obtain ⟨digest, hDigest, rfl, rfl⟩ := (hFec n id).mp hAt
  by_cases hHeld : digest.pktIdInBatch ∈ b.dataPkts
  · obtain ⟨other, hOther, hKnown⟩ := h.data _ hHeld
    rw [hAt] at hOther
    exact .inl (Option.some.inj hOther ▸ hKnown)
  · refine .inr (List.mem_map.mpr ⟨digest, List.mem_filter.mpr ⟨hDigest, ?_⟩, rfl⟩)
    exact decide_eq_true hHeld

/-- With the packet in it, a batch of sent packets is one again, and is credited with the packet. -/
structure CreditsPacket (B : SentBatch) (known : UInt16 → Prop) (old : PacketBatch)
    (pkt : VideoPacket) : Prop where
  batchOf : BatchOf B (fun id => known id ∨ id ∈ (direct old pkt).map (·.pktIdInGroup))
    (old.addPacket pkt)
  dataPkts : ∀ i, i ∈ (old.addPacket pkt).dataPkts ↔
    i ∈ old.dataPkts ∨ i ∈ (direct old pkt).map (·.pktIdInBatch)
  fecPkts : ∀ i ∈ old.fecPkts, i ∈ (old.addPacket pkt).fecPkts
  credited : pkt.header.pktIdInBatch ∈ (old.addPacket pkt).dataPkts ∨
    pkt.header.pktIdInBatch ∈ (old.addPacket pkt).fecPkts

theorem addPacket_data (B : SentBatch) {known : UInt16 → Prop} {old : PacketBatch}
    (hOld : BatchOf B known old) {data : DataPacket} {pkt : VideoPacket}
    (hAdd : old.addPacket pkt = { old with
      dataPkts := old.dataPkts.insert data.pktIdInBatch data
      undecodedPkts := old.undecodedPkts ++ [data] })
    (hDirect : direct old pkt = [data]) (hId : pkt.header.pktIdInBatch = data.pktIdInBatch)
    (hEntry : B.ids[data.pktIdInBatch.toNat]? = some data.pktIdInGroup) :
    CreditsPacket B known old pkt := by
  refine ⟨⟨?_, fun i hMem => ?_, ?_⟩, fun i => ?_, fun i hMem => ?_, .inl ?_⟩
  · rw [hAdd]
    exact hOld.dataNum
  · rw [hAdd] at hMem
    rw [hDirect]
    rcases (AList.mem_insert _).mp hMem with rfl | hMem
    · exact ⟨_, hEntry, .inr (List.mem_singleton_self _)⟩
    · obtain ⟨id, hIdEntry, hKnown⟩ := hOld.data i hMem
      exact ⟨id, hIdEntry, .inl hKnown⟩
  · rw [hAdd]
    exact hOld.fec
  · rw [hAdd, hDirect]
    change i ∈ old.dataPkts.insert data.pktIdInBatch data ↔ _
    rw [AList.mem_insert, List.map_singleton, List.mem_singleton, or_comm]
  · rw [hAdd]
    exact hMem
  · rw [hAdd, hId]
    exact (AList.mem_insert _).mpr (.inl rfl)

theorem addPacket_credits {sent : SentBatches} (hOld : BatchOf B known b)
    (hDecoded : ∀ i, i ∈ b.decodedPkts ↔ i ∈ b.dataPkts) {pkt : VideoPacket}
    (hFrom : FromBatch sent pkt) (hSent : sent pkt.header.batchId = some B) :
    CreditsPacket B known b pkt := by
  obtain ⟨C, hC, -, hKind⟩ := hFrom
  cases hSent.symm.trans hC
  by_cases hDup : pkt.header.pktIdInBatch ∈ b.decodedPkts
  · have hAdd : b.addPacket pkt = b := by
      unfold PacketBatch.addPacket
      rw [if_pos hDup]
    have hDirect : direct b pkt = [] := if_pos hDup
    refine ⟨?_, fun i => ?_, fun i hMem => ?_, .inl ?_⟩
    · rw [hAdd]
      exact hOld.mono fun id hKnown => .inl hKnown
    · rw [hAdd, hDirect]
      simp
    · rwa [hAdd]
    · rw [hAdd]
      exact (hDecoded _).mp hDup
  · cases pkt with
    | data data => exact addPacket_data B hOld (if_neg hDup) (if_neg hDup) rfl hKind
    | dupFec data => exact addPacket_data B hOld (if_neg hDup) (if_neg hDup) rfl hKind
    | fec fec =>
      have hAdd : b.addPacket (.fec fec) =
          { b with fecPkts := b.fecPkts.insert fec.pktIdInBatch fec } := if_neg hDup
      have hDirect : direct b (.fec fec) = [] := if_neg hDup
      refine ⟨⟨?_, fun i hMem => ?_, fun i other hLookup => ?_⟩, fun i => ?_, fun i hMem => ?_,
        .inr ?_⟩
      · rw [hAdd]
        exact hOld.dataNum
      · rw [hAdd] at hMem
        obtain ⟨id, hEntry, hKnown⟩ := hOld.data i hMem
        exact ⟨id, hEntry, .inl hKnown⟩
      · rw [hAdd] at hLookup
        change (b.fecPkts.insert fec.pktIdInBatch fec).lookup i = _ at hLookup
        by_cases hI : i = fec.pktIdInBatch
        · rw [hI, AList.lookup_insert] at hLookup
          exact Option.some.inj hLookup ▸ hKind.2.2
        · rw [AList.lookup_insert_ne hI] at hLookup
          exact hOld.fec i other hLookup
      · rw [hAdd, hDirect]
        simp
      · rw [hAdd]
        exact (AList.mem_insert _).mpr (.inr hMem)
      · rw [hAdd]
        exact (AList.mem_insert _).mpr (.inl rfl)

theorem ofHeader_batchOf {h : VideoHeader} (hNum : h.batchDataNum.toNat = B.ids.length) :
    BatchOf B known (PacketBatch.ofHeader h) :=
  ⟨hNum, fun i hMem => absurd hMem (AList.notMem_empty i), fun i fec hLookup => by cases hLookup⟩

end Batch

end Bullet.Stream.PacketGroup
