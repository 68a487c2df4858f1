import Mathlib.Data.Finset.Union
import Bullet.Stream.SentBatch

/-! # Completeness of FEC recovery

Once `n` distinct packets of a sent batch have arrived its data packets are known, unless a packet
was dropped before it was credited to its batch.
-/

namespace Bullet.Stream.PacketGroup

open Lib.PartialRun

def Delivery.Delivers (s : Delivery) (id : UInt16) : Prop :=
  id ∈ s.delivered.map (·.pktIdInGroup)

instance (s : Delivery) (id : UInt16) : Decidable (s.Delivers id) :=
  inferInstanceAs (Decidable (_ ∈ _))

/-- The distinct packets of a batch that arrived. -/
def Delivery.arrivedIds (s : Delivery) (batchId : UInt32) : Finset UInt16 :=
  ((s.arrived.filter fun pkt => pkt.header.batchId = batchId).map
    (·.header.pktIdInBatch)).toFinset

/-- The arriving packet is not dropped before its incomplete batch is credited with it, while some
data packet of the batch is still unknown. -/
def CreditsBatch (sent : SentBatches) (s : Delivery) : GroupOp → Prop
  | .get => True
  | .add pkt _ => pkt.header.batchId ∈ s.group.completeBatches ∨
      pkt.header.pktIdInGroup ∉ s.group.decodedPkts ∨
      (∃ b ∈ s.group.incompleteBatches.lookup pkt.header.batchId,
        pkt.header.pktIdInBatch ∈ b.decodedPkts) ∨
      ∀ B ∈ sent pkt.header.batchId, ∀ id ∈ B.ids, s.Delivers id

instance (sent : SentBatches) (s : Delivery) : ∀ op, Decidable (CreditsBatch sent s op)
  | .get => inferInstanceAs (Decidable True)
  | .add pkt _ => inferInstanceAs (Decidable (_ ∨ _ ∨
      (∃ b ∈ s.group.incompleteBatches.lookup pkt.header.batchId, _) ∨
      ∀ B ∈ sent pkt.header.batchId, ∀ id ∈ B.ids, _))

/-- What a run of sent packets keeps: a complete batch is known; an incomplete one holds its packets
and too few of them; and a batch that lacks a data packet is credited with all its arrivals. -/
structure RecoveryInv (sent : SentBatches) (s : Delivery) : Prop where
  sound : s.Sound
  complete : ∀ k B, sent k = some B → k ∈ s.group.completeBatches → ∀ id ∈ B.ids, s.Delivers id
  incomplete : ∀ k B b, sent k = some B → s.group.incompleteBatches.lookup k = some b →
    BatchOf B s.Delivers b ∧ (∀ i, i ∈ b.decodedPkts ↔ i ∈ b.dataPkts) ∧ ¬ b.Decodable
  pending : ∀ k B, sent k = some B → k ∉ s.group.completeBatches →
    (∀ id ∈ B.ids, s.Delivers id) ∨ ∀ i ∈ s.arrivedIds k, ∃ b,
      s.group.incompleteBatches.lookup k = some b ∧ (i ∈ b.dataPkts ∨ i ∈ b.fecPkts)

section Step

variable {begin : FirstEntry} {sent : SentBatches} {s s' : Delivery} {pkt : VideoPacket} {now : Time}

theorem Delivery.Delivers.mono (hSub : s.delivered ⊆ s'.delivered) {id : UInt16}
    (h : s.Delivers id) : s'.Delivers id := by
  obtain ⟨data, hData, hId⟩ := List.mem_map.mp h
  exact List.mem_map.mpr ⟨data, hSub hData, hId⟩

theorem mem_arrivedIds (hArrived : s'.arrived = s.arrived ++ [pkt]) {k : UInt32} {i : UInt16} :
    i ∈ s'.arrivedIds k ↔
      i ∈ s.arrivedIds k ∨ (pkt.header.batchId = k ∧ i = pkt.header.pktIdInBatch) := by
  rw [Delivery.arrivedIds, hArrived, Delivery.arrivedIds]
  by_cases hK : pkt.header.batchId = k
  · simp [hK, eq_comm, or_comm]
  · simp [hK]

/-- The batch of a sent packet with the packet in it. -/
theorem batchWith_credits (hInv : RecoveryInv sent s) (hFrom : FromBatch sent pkt) :
    ∃ B old, sent pkt.header.batchId = some B ∧
      s.group.batchWith pkt = some (old.addPacket pkt) ∧ CreditsPacket B s.Delivers old pkt ∧
      (∀ i, i ∈ old.decodedPkts ↔ i ∈ old.dataPkts) ∧
      ∀ c, s.group.incompleteBatches.lookup pkt.header.batchId = some c → c = old := by
  obtain ⟨B, hSent, hNum, hKind⟩ := hFrom
  refine ⟨B, ?_⟩
  cases hLookup : s.group.incompleteBatches.lookup pkt.header.batchId with
  | some old =>
    obtain ⟨hOld, hDecoded, -⟩ := hInv.incomplete _ B old hSent hLookup
    refine ⟨old, hSent, ?_, addPacket_credits hOld hDecoded ⟨B, hSent, hNum, hKind⟩ hSent, hDecoded,
      fun c hC => (Option.some.inj hC).symm⟩
    rw [batchWith, hLookup]
  | none =>
    have hOld : BatchOf B s.Delivers (PacketBatch.ofHeader pkt.header) := ofHeader_batchOf hNum
    have hDecoded : ∀ i, i ∈ (PacketBatch.ofHeader pkt.header).decodedPkts ↔
        i ∈ (PacketBatch.ofHeader pkt.header).dataPkts := fun i =>
      ⟨fun h => absurd h (Finset.notMem_empty i), fun h => absurd h (AList.notMem_empty i)⟩
    refine ⟨PacketBatch.ofHeader pkt.header, hSent, ?_,
      addPacket_credits hOld hDecoded ⟨B, hSent, hNum, hKind⟩ hSent, hDecoded,
      fun c hC => by cases hC⟩
    have hPos : 0 < pkt.header.batchDataNum := by
      rw [UInt16.lt_iff_toNat_lt, hNum]
      exact B.pos
    rw [batchWith, hLookup]
    exact if_pos hPos

/-- The assertion on the FEC packets of a complete batch holds. -/
theorem checkComplete_isSome {B : SentBatch} {known : UInt16 → Prop} {b : PacketBatch}
    (h : BatchOf B known b) (g : PacketGroup) : (b.checkComplete begin g now).isSome := by
  rw [PacketBatch.checkComplete]
  split
  · next hDecodable =>
    split
    · rfl
    · next hPartial =>
      have hFec : 0 < b.fecPkts.keys.length := by
        have hLe := h.length_le
        rw [PacketBatch.Decodable, h.dataNum] at hDecodable
        rw [h.dataNum] at hPartial
        omega
      obtain ⟨fec, hFirst⟩ := Option.isSome_iff_exists.mp
        (begin.isSome_first b.fecPkts (List.ne_nil_of_length_pos hFec))
      rw [if_pos hFec, hFirst]
      rfl
  · rfl

theorem deliver_add_isSome (hInv : RecoveryInv sent s) (hFrom : FromBatch sent pkt) :
    (deliver begin s (.add pkt now)).isSome := by
  have hSame := recordPacket_same s.group pkt
  have hAdd : (s.group.addPacket begin pkt now).isSome := by
    rw [addPacket]
    dsimp only
    split
    · rfl
    · obtain ⟨B, old, -, hBatch, hCredits, -⟩ := batchWith_credits hInv hFrom
      have hCheckSome :
          ((old.addPacket pkt).checkComplete begin (s.group.recordPacket pkt) now).isSome :=
        checkComplete_isSome hCredits.batchOf _
      obtain ⟨⟨complete, b'⟩, hCheck⟩ := Option.isSome_iff_exists.mp hCheckSome
      rw [hSame.batchWith, hBatch]
      dsimp only [Option.bind_eq_bind, Option.bind_some]
      rw [hCheck]
      rfl
  obtain ⟨group, hGroup⟩ := Option.isSome_iff_exists.mp hAdd
  rw [deliver, hGroup]
  rfl

/-- A completed batch is known. -/
theorem Adds.known_of_complete {B : SentBatch} {old stored : PacketBatch}
    {recovered : List DataPacket}
    (hAdds : Adds begin s pkt now (old.addPacket pkt) stored recovered true s')
    (hReturned : s'.returned = s.returned) (hCredits : CreditsPacket B s.Delivers old pkt)
    (hKnown : ∀ id, (s.Delivers id ∨ id ∈ (direct old pkt).map (·.pktIdInGroup)) →
      s'.Delivers id) :
    ∀ id ∈ B.ids, s'.Delivers id := by
  intro id hId
  have hBatch := hCredits.batchOf
  rcases hAdds.recovers with ⟨-, hFalse, -⟩ | ⟨-, hFull, -⟩ | ⟨-, -, -, fec, hFirst, hRecovered⟩
  · cases hFalse
  · rw [hBatch.dataNum] at hFull
    exact hKnown id (hBatch.known_of_full hFull id hId)
  · obtain ⟨key, hLookup⟩ := begin.mem_of_first _ fec hFirst
    rcases hBatch.known_or_missing (hBatch.fec key fec hLookup) hId with hOld | hMissing
    · exact hKnown id hOld
    · rw [Delivery.Delivers, hAdds.delivered hReturned, hRecovered, List.map_append, List.map_append,
        List.map_map]
      exact List.mem_append_right _ (List.mem_append_right _ hMissing)

theorem RecoveryInv.drop (hInv : RecoveryInv sent s) (hOk : CreditsBatch sent s (.add pkt now))
    (hDrop : s.group.Drops pkt) (hSame : SameBatches s.group s'.group)
    (hArrived : s'.arrived = s.arrived ++ [pkt]) (hReturned : s'.returned = s.returned)
    (hSound : s'.Sound) : RecoveryInv sent s' := by
  have hDelivered : s'.delivered = s.delivered := by
    rw [Delivery.delivered, hReturned, hSame.undecodedPkts, Delivery.delivered]
  have hDelivers : s'.Delivers = s.Delivers := by
    funext id
    rw [Delivery.Delivers, hDelivered, Delivery.Delivers]
  refine ⟨hSound, fun k B hSent hMem => ?_, fun k B b hSent hLookup => ?_,
    fun k B hSent hIncomplete => ?_⟩
  · rw [hDelivers]
    exact hInv.complete k B hSent (hSame.completeBatches ▸ hMem)
  · rw [hDelivers]
    exact hInv.incomplete k B b hSent (hSame.incompleteBatches ▸ hLookup)
  · rw [hSame.completeBatches] at hIncomplete
    rw [hDelivers, hSame.incompleteBatches]
    rcases hInv.pending k B hSent hIncomplete with hKnown | hCredited
    · exact .inl hKnown
    · by_cases hK : pkt.header.batchId = k
      · rcases hOk with hComplete | hNew | ⟨b, hB, hDup⟩ | hAll
        · exact absurd (hK ▸ hComplete) hIncomplete
        · rcases hDrop with hComplete | hDecoded
          · exact absurd (hK ▸ hComplete) hIncomplete
          · exact absurd hDecoded hNew
        · refine .inr fun i hMem => ?_
          rcases (mem_arrivedIds hArrived).mp hMem with hOld | ⟨-, rfl⟩
          · exact hCredited i hOld
          · rw [hK] at hB
            exact ⟨b, hB, .inl (((hInv.incomplete k B b hSent hB).2.1 _).mp hDup)⟩
        · exact .inl (hAll B (hK ▸ hSent))
      · refine .inr fun i hMem => hCredited i ?_
        exact ((mem_arrivedIds hArrived).mp hMem).resolve_right fun h => hK h.1

theorem RecoveryInv.add {b stored : PacketBatch} {recovered : List DataPacket} {complete : Bool}
    (hInv : RecoveryInv sent s) (hFrom : FromBatch sent pkt)
    (hAdds : Adds begin s pkt now b stored recovered complete s')
    (hArrived : s'.arrived = s.arrived ++ [pkt]) (hReturned : s'.returned = s.returned)
    (hSound : s'.Sound) : RecoveryInv sent s' := by
  obtain ⟨B, old, hSent, hBatch, hCredits, hDecoded, hOnly⟩ := batchWith_credits hInv hFrom
  cases hBatch.symm.trans hAdds.batch
  have hDelivered := hAdds.delivered hReturned
  have hSub : s.delivered ⊆ s'.delivered := by
    rw [hDelivered]
    exact List.subset_append_left _ _
  have hUndecoded : (old.addPacket pkt).undecodedPkts = direct old pkt := by
    obtain ⟨other, hDirect, hOther, -⟩ := hAdds.undecoded_eq hInv.sound
    rw [addPacket_decodedPkts] at hOther
    rw [hDirect, direct, direct, hOther]
  have hKnown : ∀ id, (s.Delivers id ∨ id ∈ (direct old pkt).map (·.pktIdInGroup)) →
      s'.Delivers id := by
    rintro id (hOld | hDirect)
    · exact hOld.mono hSub
    · rw [Delivery.Delivers, hDelivered, hUndecoded, List.map_append, List.map_append]
      exact List.mem_append_right _ (List.mem_append_left _ hDirect)
  have hSentEq : ∀ C, sent pkt.header.batchId = some C → C = B := fun C hC =>
    Option.some.inj (hC.symm.trans hSent)
  -- What the incomplete batch holds after a read of its packets.
  have hStored : complete = false → BatchOf B s'.Delivers stored ∧
      (∀ i, i ∈ stored.decodedPkts ↔ i ∈ stored.dataPkts) ∧ ¬ stored.Decodable ∧
      (∀ i, i ∈ old.dataPkts ∨ i ∈ old.fecPkts → i ∈ stored.dataPkts ∨ i ∈ stored.fecPkts) ∧
      (pkt.header.pktIdInBatch ∈ stored.dataPkts ∨ pkt.header.pktIdInBatch ∈ stored.fecPkts) := by
    rintro rfl
    have hHanded := hAdds.handed
    have hNone : recovered = [] := by
      rcases hAdds.recovers with ⟨-, -, hNil⟩ | ⟨-, -, hTrue, -⟩ | ⟨-, -, hTrue, -⟩
      · exact hNil
      · cases hTrue
      · cases hTrue
    have hFew : ¬ (old.addPacket pkt).Decodable := by
      rcases hAdds.recovers with ⟨hFew, -⟩ | ⟨-, -, hTrue, -⟩ | ⟨-, -, hTrue, -⟩
      · exact hFew
      · cases hTrue
      · cases hTrue
    rw [hAdds.kept rfl] at hHanded ⊢
    refine ⟨⟨hCredits.batchOf.dataNum, (hCredits.batchOf.mono hKnown).data, hCredits.batchOf.fec⟩,
      fun i => ?_, hFew, fun i hHeld => ?_, hCredits.credited⟩
    · rw [hHanded, hNone, List.append_nil, hUndecoded, addPacket_decodedPkts, Finset.mem_union,
        List.mem_toFinset, hDecoded]
      exact (hCredits.dataPkts i).symm
    · rcases hHeld with hData | hFec
      · exact .inl ((hCredits.dataPkts i).mpr (.inl hData))
      · exact .inr (hCredits.fecPkts i hFec)
  refine ⟨hSound, fun k C hC hMem => ?_, fun k C c hC hLookup => ?_, fun k C hC hIncomplete => ?_⟩
  · obtain ⟨c, hLookup⟩ := Option.isSome_iff_exists.mp (AList.lookup_isSome.mpr hMem)
    rcases hAdds.lookup_complete hLookup with hOld | ⟨rfl, rfl, rfl⟩
    · have hBefore := hInv.complete k C hC (AList.lookup_isSome.mp (Option.isSome_of_eq_some hOld))
      exact fun id hId => (hBefore id hId).mono hSub
    · rw [hSentEq C hC]
      exact hAdds.known_of_complete hReturned hCredits hKnown
  · rcases hAdds.lookup_incomplete hLookup with ⟨-, hOld⟩ | ⟨rfl, rfl, hFalse⟩
    · obtain ⟨hBatchOf, hRest⟩ := hInv.incomplete k C c hC hOld
      exact ⟨hBatchOf.mono fun id hId => hId.mono hSub, hRest⟩
    · rw [hSentEq C hC]
      exact ⟨(hStored hFalse).1, (hStored hFalse).2.1, (hStored hFalse).2.2.1⟩
  · have hBefore : k ∉ s.group.completeBatches := by
      intro hMem
      apply hIncomplete
      rw [hAdds.completeBatches]
      split
      · exact (AList.mem_insert _).mpr (.inr hMem)
      · exact hMem
    rcases hInv.pending k C hC hBefore with hAll | hCredited
    · exact .inl fun id hId => (hAll id hId).mono hSub
    · refine .inr fun i hMem => ?_
      by_cases hK : pkt.header.batchId = k
      · have hFalse : complete = false := by
          cases complete with
          | false => rfl
          | true =>
            refine absurd ?_ hIncomplete
            rw [hAdds.completeBatches, if_pos rfl, hK]
            exact (AList.mem_insert _).mpr (.inl rfl)
        obtain ⟨-, -, -, hHeld, hPkt⟩ := hStored hFalse
        refine ⟨stored, ?_, ?_⟩
        · rw [hAdds.incompleteBatches, hFalse, if_neg Bool.false_ne_true, hK, AList.lookup_insert]
        · rcases (mem_arrivedIds hArrived).mp hMem with hOld | ⟨-, rfl⟩
          · obtain ⟨c, hLookup, hIn⟩ := hCredited i hOld
            rw [hOnly c (hK ▸ hLookup)] at hIn
            exact hHeld i hIn
          · exact hPkt
      · obtain ⟨c, hLookup, hIn⟩ := hCredited i
          (((mem_arrivedIds hArrived).mp hMem).resolve_right fun h => hK h.1)
        refine ⟨c, ?_, hIn⟩
        rw [hAdds.incompleteBatches, ← hLookup]
        split
        · exact AList.lookup_erase_ne fun h => hK h.symm
        · exact AList.lookup_insert_ne fun h => hK h.symm

theorem deliver_advances (begin : FirstEntry) (sent : SentBatches) :
    Advances (deliver begin) (fun s op => OpFromBatch sent op ∧ CreditsBatch sent s op)
      (RecoveryInv sent) (fun _ _ => True) where
  refl _ := trivial
  trans _ _ _ _ _ := trivial
  advance s op hInv hOp := by
    cases op with
    | get =>
      obtain ⟨s', hGet, hDelivered, hArrived, -, -, hIncomplete, hComplete, -⟩ :=
        deliver_get begin s
      have hDelivers : s'.Delivers = s.Delivers := by
        funext id
        rw [Delivery.Delivers, hDelivered, Delivery.Delivers]
      have hIds : s'.arrivedIds = s.arrivedIds := by
        funext k
        rw [Delivery.arrivedIds, hArrived, Delivery.arrivedIds]
      refine ⟨s', hGet, ⟨deliver_sound hInv.sound hGet, ?_, ?_, ?_⟩, trivial⟩
      · rw [hDelivers, hComplete]
        exact hInv.complete
      · rw [hDelivers, hIncomplete]
        exact hInv.incomplete
      · rw [hDelivers, hIncomplete, hComplete, hIds]
        exact hInv.pending
    | add pkt now =>
      have hSome : (deliver begin s (.add pkt now)).isSome := deliver_add_isSome hInv hOp.1
      obtain ⟨s', hAdd⟩ := Option.isSome_iff_exists.mp hSome
      have hSound := deliver_sound hInv.sound hAdd
      refine ⟨s', hAdd, ?_, trivial⟩
      obtain ⟨hArrived, hReturned, ⟨hDrop, hSame⟩ | ⟨-, b, stored, recovered, complete, hAdds⟩⟩ :=
        deliver_add_cases hAdd
      · exact hInv.drop hOp.2 hDrop hSame hArrived hReturned hSound
      · exact hInv.add hOp.1 hAdds hArrived hReturned hSound

/-- Once `n` distinct packets of a batch have arrived its data packets are known. -/
theorem RecoveryInv.known {B : SentBatch} {k : UInt32} (hInv : RecoveryInv sent s)
    (hSent : sent k = some B) (hEnough : B.ids.length ≤ (s.arrivedIds k).card) :
    ∀ id ∈ B.ids, s.Delivers id := by
  by_cases hComplete : k ∈ s.group.completeBatches
  · exact hInv.complete k B hSent hComplete
  · rcases hInv.pending k B hSent hComplete with hAll | hCredited
    · exact hAll
    · exfalso
      obtain ⟨i, hMem⟩ := Finset.card_pos.mp (B.pos.trans_le hEnough)
      obtain ⟨b, hLookup, -⟩ := hCredited i hMem
      obtain ⟨hBatch, -, hFew⟩ := hInv.incomplete k B b hSent hLookup
      have hSub : s.arrivedIds k ⊆ b.dataPkts.keys.toFinset ∪ b.fecPkts.keys.toFinset := by
        intro j hJ
        obtain ⟨c, hC, hIn⟩ := hCredited j hJ
        cases hLookup.symm.trans hC
        rw [Finset.mem_union, List.mem_toFinset, List.mem_toFinset]
        exact hIn
      have hCard := (Finset.card_le_card hSub).trans (Finset.card_union_le _ _)
      have hData := b.dataPkts.keys.toFinset_card_le
      have hFec := b.fecPkts.keys.toFinset_card_le
      rw [PacketBatch.Decodable, hBatch.dataNum] at hFew
      omega

end Step

/-- For packets of sent batches in any order, with duplicates and losses and reads in between: as
soon as `n` distinct packets of a batch have arrived, the next read has returned all its data
packets, if no packet of an unknown batch was dropped before it was credited. -/
theorem recovered_of_run (begin : FirstEntry) (sent : SentBatches) (groupId : UInt32)
    (dataNum : UInt16) (encodeTime : Time) (ops : List GroupOp)
    (hSent : ∀ op ∈ ops, OpFromBatch sent op)
    (hOk : StepsMeet (deliver begin) (CreditsBatch sent) (.init groupId dataNum encodeTime) ops) :
    ∃ s, run (deliver begin) (.init groupId dataNum encodeTime) (ops ++ [.get]) = some s ∧
      ∀ k B, sent k = some B → B.ids.length ≤ (s.arrivedIds k).card →
        ∀ id ∈ B.ids, id ∈ s.returned.map (·.pktIdInGroup) := by
  have hStart : RecoveryInv sent (.init groupId dataNum encodeTime) :=
    ⟨init_sound groupId dataNum encodeTime,
      fun k B _ hMem => absurd hMem (AList.notMem_empty k), fun k B b _ hLookup => (by cases hLookup),
      fun k B _ _ => .inr fun i hMem => absurd hMem (Finset.notMem_empty i)⟩
  obtain ⟨t, hRun, hInv, -⟩ := (deliver_advances begin sent).run hStart
    ((stepsMeet_of_forall_mem fun op hMem _ => hSent op hMem).and hOk)
  obtain ⟨s, hGet, -, hArrived, hReturned, -⟩ := deliver_get begin t
  refine ⟨s, ?_, fun k B hB hEnough id hId => ?_⟩
  · rw [run_append, hRun]
    exact hGet
  · rw [Delivery.arrivedIds, hArrived] at hEnough
    rw [hReturned]
    exact hInv.known hB hEnough id hId

/-- FEC packets that list the data packets by their position describe the batch. -/
theorem describes_zipIdx (h : VideoHeader) (B : SentBatch) (hLength : B.ids.length ≤ 2 ^ 16) :
    Describes { h with dataPkts := B.ids.zipIdx.map fun (id, i) => ⟨UInt16.ofNat i, id, 0, 2, id⟩ }
      B := by
  intro i id
  constructor
  · intro hEntry
    have hLt := (List.getElem?_eq_some_iff.mp hEntry).1
    refine ⟨⟨UInt16.ofNat i, id, 0, 2, id⟩, List.mem_map.mpr ⟨(id, i), ?_, rfl⟩, ?_, rfl⟩
    · exact List.mem_zipIdx_iff_getElem?.mpr hEntry
    · exact UInt16.toNat_ofNat'.trans (Nat.mod_eq_of_lt (by omega))
  · rintro ⟨digest, hDigest, rfl, rfl⟩
    obtain ⟨⟨id, i⟩, hPair, rfl⟩ := List.mem_map.mp hDigest
    have hEntry := List.mem_zipIdx_iff_getElem?.mp hPair
    have hLt := (List.getElem?_eq_some_iff.mp hEntry).1
    rwa [UInt16.toNat_ofNat', Nat.mod_eq_of_lt (by omega)]

/-- Batch 0 is the first transmission and batch 1 the retransmission of two data packets. -/
def sentPair : SentBatches := fun k => if k ≤ 1 then some ⟨[0, 1], 1, by decide⟩ else none

theorem fecArrival_fromBatch {batchId : UInt32} (hId : batchId ≤ 1) (pktIdInGroup : UInt16) :
    OpFromBatch sentPair (fecArrival (batchHeader batchId 2 1 2 pktIdInGroup) [0, 1]) :=
  ⟨⟨[0, 1], 1, by decide⟩, if_pos hId, rfl, Nat.le_refl 2, Nat.lt_succ_self 2,
    describes_zipIdx _ ⟨[0, 1], 1, by decide⟩ (by decide)⟩

theorem dataArrival_fromBatch {batchId : UInt32} (hId : batchId ≤ 1) {i id : UInt16}
    (hEntry : ([0, 1] : List UInt16)[i.toNat]? = some id) (fecNum : UInt16) :
    OpFromBatch sentPair (dataArrival (batchHeader batchId 2 fecNum i id)) :=
  ⟨⟨[0, 1], 1, by decide⟩, if_pos hId, rfl, hEntry⟩

theorem recovered_of_run_retransmission :
    ∃ s, run (deliver .newest) (.init 0 2 0) (retransmissionOps ++ [.get]) = some s ∧
      ∀ k B, sentPair k = some B → B.ids.length ≤ (s.arrivedIds k).card →
        ∀ id ∈ B.ids, id ∈ s.returned.map (·.pktIdInGroup) := by
  refine recovered_of_run .newest sentPair 0 2 0 retransmissionOps ?_ (by decide)
  simp only [retransmissionOps, List.forall_mem_cons]
  exact ⟨dataArrival_fromBatch (by decide) rfl 0, trivial, dataArrival_fromBatch (by decide) rfl 1,
    trivial, fecArrival_fromBatch (by decide) 65535, trivial, fun _ h => by cases h⟩

/-- Data packet 0 is known when its copy in the retransmission arrives before the FEC packet. -/
def droppedCopyOps : List GroupOp :=
  [dataArrival (batchHeader 0 2 0 0 0), .get, dataArrival (batchHeader 1 2 1 0 0),
    fecArrival (batchHeader 1 2 1 2 65535) [0, 1], .get]

theorem known_packet_not_credited :
    (∀ op ∈ droppedCopyOps, OpFromBatch sentPair op) ∧
      ∃ s, run (deliver .newest) (.init 0 2 0) droppedCopyOps = some s ∧
        ¬ ∀ k B, sentPair k = some B → B.ids.length ≤ (s.arrivedIds k).card →
          ∀ id ∈ B.ids, id ∈ s.returned.map (·.pktIdInGroup) := by
  constructor
  · simp only [droppedCopyOps, List.forall_mem_cons]
    exact ⟨dataArrival_fromBatch (by decide) rfl 0, trivial,
      dataArrival_fromBatch (by decide) rfl 1, fecArrival_fromBatch (by decide) 65535, trivial,
      fun _ h => by cases h⟩
  · refine ⟨_, rfl, fun h => ?_⟩
    have hOne := h 1 ⟨[0, 1], 1, by decide⟩ rfl (by decide) 1 (by decide)
    revert hOne
    decide

end Bullet.Stream.PacketGroup
