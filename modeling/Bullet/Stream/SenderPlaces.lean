import Bullet.Stream.SenderCargo

/-! # The places of a sender's packets

As long as the counters of groups and frames do not wrap, no two packets have the same place in a
group, the packets of a frame agree on its size, and no packet is forgotten that was not acknowledged
before its deadline.
-/

namespace Bullet.Stream

open Lib Lib.PartialRun

namespace QueueSender

variable {env : SenderEnv} {s t u : QueueSender} {pkts : List SentPacket} {batches : List Batch}
  {framePktNum : UInt16} {object : ℕ}

theorem ofNat_inj_of_lt {a b : ℕ} (hA : a < 2 ^ 32) (hB : b < 2 ^ 32)
    (h : UInt32.ofNat a = UInt32.ofNat b) : a = b := by
  have hNat := congrArg UInt32.toNat h
  rwa [UInt32.toNat_ofNat_of_lt' hA, UInt32.toNat_ofNat_of_lt' hB] at hNat

theorem AddsFrame.map_data (h : AddsFrame s t framePktNum pkts batches) {β : Type*}
    {f : SentPacket → β} (hStamp : ∀ info i pkt, f (Sender.stamp info 0 0 i pkt) = f pkt) :
    (batches.flatMap Batch.data).map f = pkts.map f :=
  h.groups.map_data hStamp

theorem AddsFrame.length_data (h : AddsFrame s t framePktNum pkts batches) :
    (batches.flatMap Batch.data).length = pkts.length := by
  have hUnit := congrArg List.length (h.map_data (f := fun _ => ()) fun _ _ _ => rfl)
  rwa [List.length_map, List.length_map] at hUnit

/-- A packet is one of before, or one of the new frame. -/
theorem AddsFrame.cases (h : AddsFrame s t framePktNum pkts batches) (hLt : object < t.objectCount) :
    (object < s.objectCount ∧ t.objects object = s.objects object) ∨
      ∃ i, object = s.objectCount + i ∧ (batches.flatMap Batch.data)[i]? = some (t.objects object) := by
  rcases Nat.lt_or_ge object s.objectCount with hOld | hNew
  · exact .inl ⟨hOld, h.old object hOld⟩
  · refine .inr ⟨object - s.objectCount, by omega, ?_⟩
    rw [h.count, ← h.length_data] at hLt
    have hIndex : object - s.objectCount < (batches.flatMap Batch.data).length := by omega
    have hAt := List.getElem?_eq_getElem hIndex
    have hObject := h.new _ _ hAt
    rw [Nat.add_sub_cancel' hNew] at hObject
    rw [hAt, hObject]

/-- A new packet is of the frame, and its group is one of the new ones. -/
theorem AddsFrame.new_packet (h : AddsFrame s t framePktNum pkts batches) {pkt : SentPacket}
    (hMem : pkt ∈ batches.flatMap Batch.data) :
    pkt.frameId = s.sender.frameId ∧ pkt.framePktNum = framePktNum ∧
      pkt.groupId ∈ Sender.groupIds s.sender.groupId batches.length ∧
      ∃ old ∈ pkts, old.pktIdInFrame = pkt.pktIdInFrame := by
  have hOf : ∀ p : SentPacket → Prop, (∀ info i, ∀ pkt ∈ pkts, p (Sender.stamp info 0 0 i pkt)) →
      p pkt := fun p hStamp => h.groups.forall_data hStamp pkt hMem
  refine ⟨hOf (fun pkt => pkt.frameId = s.sender.frameId) fun info i pkt hPkt => ?_,
    hOf (fun pkt => pkt.framePktNum = framePktNum) fun info i pkt hPkt => ?_,
    h.groups.groupId_mem hMem,
    hOf (fun pkt => ∃ old ∈ pkts, old.pktIdInFrame = pkt.pktIdInFrame) fun info i pkt hPkt =>
      ⟨pkt, hPkt, rfl⟩⟩
  · rw [h.ofFrame pkt hPkt]
    rfl
  · rw [h.ofFrame pkt hPkt]
    rfl

/-! ## Places -/

/-- A counter has given the ids of the packets, fewer of them than there are packets. -/
def CountedBy (s : QueueSender) (counter : UInt32) (id : Cargo → UInt32) : Prop :=
  ∃ n ≤ s.objectCount, counter = UInt32.ofNat n ∧
    ∀ object < s.objectCount, ∃ k < n, id (s.objects object).cargo = UInt32.ofNat k

structure Places (s : QueueSender) : Prop where
  groups : s.CountedBy s.sender.groupId Cargo.groupId
  frames : s.CountedBy s.sender.frameId Cargo.frameId
  distinct : ∀ object < s.objectCount, ∀ other < s.objectCount,
    (s.objects object).cargo.key = (s.objects other).cargo.key → object = other
  sameSize : ∀ object < s.objectCount, ∀ other < s.objectCount,
    (s.objects object).cargo.frameId = (s.objects other).cargo.frameId →
      (s.objects object).cargo.framePktNum = (s.objects other).cargo.framePktNum

theorem places_create (delayDdl : Time) (netStat : NetStat) : Places (create delayDdl netStat) where
  groups := ⟨0, le_refl 0, rfl, fun object hLt => (Nat.not_lt_zero object hLt).elim⟩
  frames := ⟨0, le_refl 0, rfl, fun object hLt => (Nat.not_lt_zero object hLt).elim⟩
  distinct object hLt := (Nat.not_lt_zero object hLt).elim
  sameSize object hLt := (Nat.not_lt_zero object hLt).elim

theorem CountedBy.same {counter : UInt32} {id : Cargo → UInt32} (h : s.CountedBy counter id)
    (hCount : t.objectCount = s.objectCount)
    (hCargo : ∀ object < t.objectCount, (t.objects object).cargo = (s.objects object).cargo) :
    t.CountedBy counter id := by
  obtain ⟨n, hLe, hCounter, hIds⟩ := h
  refine ⟨n, hLe.trans_eq hCount.symm, hCounter, fun object hLt => ?_⟩
  rw [hCargo object hLt]
  exact hIds object (hLt.trans_eq hCount)

theorem Places.same (h : Places s) (hCount : t.objectCount = s.objectCount)
    (hCargo : ∀ object < t.objectCount, (t.objects object).cargo = (s.objects object).cargo)
    (hGroup : t.sender.groupId = s.sender.groupId) (hFrame : t.sender.frameId = s.sender.frameId) :
    Places t where
  groups := hGroup ▸ h.groups.same hCount hCargo
  frames := hFrame ▸ h.frames.same hCount hCargo
  distinct object hLt other hOther hKey := by
    rw [hCargo object hLt, hCargo other hOther] at hKey
    exact h.distinct object (hLt.trans_eq hCount) other (hOther.trans_eq hCount) hKey
  sameSize object hLt other hOther hSame := by
    rw [hCargo object hLt, hCargo other hOther] at hSame ⊢
    exact h.sameSize object (hLt.trans_eq hCount) other (hOther.trans_eq hCount) hSame

theorem Places.rests (h : Places s) (hRests : Rests s t) : Places t :=
  h.same hRests.count (fun object hLt =>
    cargo_of_identity (hRests.identity object (hLt.trans_eq hRests.count))) hRests.groupId hRests.frameId

/-- New ids of a counter that does not wrap are not among those it has given. -/
theorem CountedBy.fresh {id : Cargo → UInt32} {counter : UInt32} (h : s.CountedBy counter id)
    {m : ℕ} (hShort : s.objectCount + m ≤ 2 ^ 32) (hLt : object < s.objectCount) :
    id (s.objects object).cargo ∉ Sender.groupIds counter m := by
  obtain ⟨n, hLe, rfl, hIds⟩ := h
  obtain ⟨k, hK, hId⟩ := hIds object hLt
  rw [hId]
  intro hMem
  obtain ⟨i, hI, hEq⟩ := List.mem_map.mp hMem
  rw [List.mem_range] at hI
  rw [← UInt32.ofNat_add] at hEq
  have hSame := ofNat_inj_of_lt (by omega) (by omega) hEq
  omega

/-- The counter goes on by the ids that it gives to the new packets. -/
theorem CountedBy.adds {counter : UInt32} {id : Cargo → UInt32} (h : s.CountedBy counter id)
    (hAdds : AddsFrame s t framePktNum pkts batches) {m : ℕ} (hCount : s.objectCount + m ≤ t.objectCount)
    (hNew : ∀ pkt ∈ batches.flatMap Batch.data, id pkt.cargo ∈ Sender.groupIds counter m) :
    t.CountedBy (counter + UInt32.ofNat m) id := by
  obtain ⟨n, hLe, rfl, hIds⟩ := h
  refine ⟨n + m, by omega, (UInt32.ofNat_add n m).symm, fun object hLt => ?_⟩
  rcases hAdds.cases hLt with ⟨hOld, hSame⟩ | ⟨i, -, hAt⟩
  · obtain ⟨k, hK, hId⟩ := hIds object hOld
    exact ⟨k, by omega, by rw [hSame, hId]⟩
  · obtain ⟨j, hJ, hEq⟩ := List.mem_map.mp (hNew _ (List.mem_of_getElem? hAt))
    rw [List.mem_range] at hJ
    exact ⟨n + j, by omega, by rw [← hEq, ← UInt32.ofNat_add]⟩

theorem Places.addsFrame (h : Places s) (hAdds : AddsFrame s t framePktNum pkts batches)
    (hShort : t.objectCount ≤ 2 ^ 32) : Places t := by
  have hLength := hAdds.groups.length_le
  have hPos := List.length_pos_of_ne_nil hAdds.nonempty
  have hCount := hAdds.count
  have hFrameIds : ∀ pkt ∈ batches.flatMap Batch.data,
      pkt.cargo.frameId ∈ Sender.groupIds s.sender.frameId 1 := by
    intro pkt hMem
    refine List.mem_map.mpr ⟨0, List.mem_range.mpr Nat.one_pos, ?_⟩
    exact (UInt32.add_zero _).trans (hAdds.new_packet hMem).1.symm
  have hOldGroup : ∀ object < s.objectCount, ∀ pkt ∈ batches.flatMap Batch.data,
      (s.objects object).cargo.groupId ≠ pkt.cargo.groupId := by
    intro object hLt pkt hMem hEq
    have hNew := (hAdds.new_packet hMem).2.2.1
    exact h.groups.fresh (m := batches.length) (by omega) hLt (hEq ▸ hNew)
  have hOldFrame : ∀ object < s.objectCount, ∀ pkt ∈ batches.flatMap Batch.data,
      (s.objects object).cargo.frameId ≠ pkt.cargo.frameId := by
    intro object hLt pkt hMem hEq
    exact h.frames.fresh (m := 1) (by omega) hLt (hEq ▸ hFrameIds pkt hMem)
  refine ⟨?_, ?_, fun object hLt other hOther hKey => ?_, fun object hLt other hOther hFrame => ?_⟩
  · rw [hAdds.groupId]
    exact h.groups.adds hAdds (by omega) fun pkt hMem => (hAdds.new_packet hMem).2.2.1
  · rw [hAdds.frameId]
    exact h.frames.adds (m := 1) hAdds (by omega) hFrameIds
  · rcases hAdds.cases hLt with ⟨hOld, hSame⟩ | ⟨i, rfl, hAt⟩
    · rcases hAdds.cases hOther with ⟨hOld', hSame'⟩ | ⟨j, rfl, hAt'⟩
      · rw [hSame, hSame'] at hKey
        exact h.distinct object hOld other hOld' hKey
      · rw [hSame] at hKey
        exact absurd (congrArg Prod.fst hKey) (hOldGroup object hOld _ (List.mem_of_getElem? hAt'))
    · rcases hAdds.cases hOther with ⟨hOld', hSame'⟩ | ⟨j, rfl, hAt'⟩
      · rw [hSame'] at hKey
        exact absurd (congrArg Prod.fst hKey.symm)
          (hOldGroup other hOld' _ (List.mem_of_getElem? hAt))
      · have hNodup := hAdds.groups.nodup_keys (by omega)
        have hIndex : i = j := by
          obtain ⟨hI, hEqI⟩ := List.getElem?_eq_some_iff.mp hAt
          obtain ⟨hJ, hEqJ⟩ := List.getElem?_eq_some_iff.mp hAt'
          rw [← List.length_map SentPacket.key] at hI hJ
          have hKeys : ((batches.flatMap Batch.data).map SentPacket.key)[i] =
              ((batches.flatMap Batch.data).map SentPacket.key)[j] := by
            rw [List.getElem_map, List.getElem_map, hEqI, hEqJ]
            exact hKey
          exact hNodup.getElem_inj_iff.mp hKeys
        rw [hIndex]
  · rcases hAdds.cases hLt with ⟨hOld, hSame⟩ | ⟨i, -, hAt⟩
    · rcases hAdds.cases hOther with ⟨hOld', hSame'⟩ | ⟨j, -, hAt'⟩
      · rw [hSame, hSame'] at hFrame ⊢
        exact h.sameSize object hOld other hOld' hFrame
      · rw [hSame] at hFrame
        exact absurd hFrame (hOldFrame object hOld _ (List.mem_of_getElem? hAt'))
    · rcases hAdds.cases hOther with ⟨hOld', hSame'⟩ | ⟨j, -, hAt'⟩
      · rw [hSame'] at hFrame
        exact absurd hFrame.symm (hOldFrame other hOld' _ (List.mem_of_getElem? hAt))
      · exact (hAdds.new_packet (List.mem_of_getElem? hAt)).2.1.trans
          (hAdds.new_packet (List.mem_of_getElem? hAt')).2.1.symm

/-- The ids of the packets of a frame are below its size. -/
def Sized (s : QueueSender) : Prop :=
  ∀ object < s.objectCount,
    (s.objects object).cargo.pktIdInFrame.toNat < (s.objects object).cargo.framePktNum.toNat ∧
      (s.objects object).cargo.framePktNum.toNat ≤ 255

theorem Sized.rests (h : Sized s) (hRests : Rests s t) : Sized t := by
  intro object hLt
  rw [hRests.count] at hLt
  rw [cargo_of_identity (hRests.identity object hLt)]
  exact h object hLt

theorem Sized.addsFrame {dataSize : UInt32} {cut : List SentPacket} (h : Sized s)
    (hAdds : AddsFrame s t (Sender.dataPktNum dataSize)
      (cut.map (SentPacket.setEnqueueTime s.sender.now)) batches)
    (hCut : Sender.dataPackets s.sender.now s.sender.frameId dataPktMaxPayload
      (Sender.dataPktNum dataSize) dataSize (dataSize.toNat + 1) 0 0 = some cut)
    (hSize : Sender.packetCount dataSize ≤ 255) : Sized t := by
  have hSizeNat : (Sender.dataPktNum dataSize).toNat = Sender.packetCount dataSize := by
    rw [Sender.dataPktNum_eq, UInt16.toNat_ofNat_of_lt' (by change _ < 2 ^ 16; omega)]
  intro object hLt
  rcases hAdds.cases hLt with ⟨hOld, hSame⟩ | ⟨i, -, hAt⟩
  · rw [hSame]
    exact h object hOld
  · obtain ⟨-, hNum, -, old, hOldMem, hId⟩ := hAdds.new_packet (List.mem_of_getElem? hAt)
    obtain ⟨first, hFirst, rfl⟩ := List.mem_map.mp hOldMem
    have hRange : first.pktIdInFrame.toNat ∈ List.range (Sender.packetCount dataSize) := by
      rw [← (Sender.dataPackets_zero hSize hCut).1]
      exact List.mem_map_of_mem hFirst
    change (t.objects object).pktIdInFrame.toNat < (t.objects object).framePktNum.toNat ∧
      (t.objects object).framePktNum.toNat ≤ 255
    rw [hNum, hSizeNat, ← hId]
    exact ⟨List.mem_range.mp hRange, hSize⟩

/-! ## Packets that are not forgotten -/

/-- Every packet is stored, acknowledged, or past its deadline. -/
def Remembers (s : QueueSender) (acked : GroupPacketInfo → Prop) : Prop :=
  ∀ object < s.objectCount, s.history.get (s.objects object).key = some object ∨
    acked (s.objects object).key ∨ s.sender.missesDdl (s.objects object) = true

variable {acked acked' : GroupPacketInfo → Prop}

theorem Remembers.rests (h : s.Remembers acked) (hRests : Rests s t) : t.Remembers acked := by
  intro object hLt
  have hOld := hLt.trans_eq hRests.count
  have hSame := hRests.identity object hOld
  have hKey : (t.objects object).key = (s.objects object).key :=
    congrArg Cargo.key (cargo_of_identity hSame)
  rw [hKey]
  rcases h object hOld with hStored | hAcked | hMissed
  · exact (hRests.kept _ object hStored).imp_right .inr
  · exact .inr (.inl hAcked)
  · exact .inr (.inr (missesDdl_mono hSame hRests.now hRests.delayDdl hMissed))

theorem Remembers.mono (h : s.Remembers acked) (hMore : ∀ key, acked key → acked' key) :
    s.Remembers acked' :=
  fun object hLt => (h object hLt).imp_right (Or.imp_left (hMore _))

theorem Remembers.rcvAckPacket (h : s.Remembers acked) (pktInfos : List GroupPacketInfo)
    (hAcked : ∀ key ∈ pktInfos, acked key) : (s.rcvAckPacket pktInfos).Remembers acked := by
  intro object hLt
  by_cases hMem : (s.objects object).key ∈ pktInfos
  · exact .inr (.inl (hAcked _ hMem))
  · refine (h object hLt).imp_left fun hStored => ?_
    exact (NestedMap.get_foldl_remove s.history pktInfos _).trans ((if_neg hMem).trans hStored)

theorem Remembers.addsFrame (h : s.Remembers acked)
    (hAdds : AddsFrame s t framePktNum pkts batches) (hPlaces : Places s)
    (hShort : t.objectCount ≤ 2 ^ 32) : t.Remembers acked := by
  intro object hLt
  have hLength := hAdds.groups.length_le
  have hCount := hAdds.count
  rcases hAdds.cases hLt with ⟨hOld, hSame⟩ | ⟨i, rfl, hAt⟩
  · rw [hSame, hAdds.kept]
    · refine (h object hOld).imp_right (Or.imp_right fun hMissed => ?_)
      exact missesDdl_mono rfl hAdds.now.ge hAdds.delayDdl hMissed
    · intro hMem
      obtain ⟨pkt, hPkt, hKey⟩ := List.mem_map.mp hMem
      have hNew := (hAdds.new_packet hPkt).2.2.1
      have hGroup : pkt.groupId = (s.objects object).cargo.groupId := congrArg Prod.fst hKey
      exact hPlaces.groups.fresh (m := batches.length) (by omega) hOld (hGroup ▸ hNew)
  · exact .inl (hAdds.stored i _ hAt)

end QueueSender

end Bullet.Stream
