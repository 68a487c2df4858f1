import Bullet.Stream.SenderBatches

/-! # One retransmission

What `RetransmitGroup` sends of a stored group and what it leaves of the stored packets.
-/

namespace Bullet.Stream

open Lib

/-- The packet without the members that a later transmission sets anew. -/
def DataPacket.identity (pkt : DataPacket) : DataPacket :=
  { pkt with txCount := 0, batchId := 0, batchDataNum := 0, batchFecNum := 0, pktIdInBatch := 0 }

def SentPacket.identity (pkt : SentPacket) : SentPacket :=
  { pkt with toDataPacket := pkt.toDataPacket.identity, enqueueTime := 0, sendTime := 0 }

namespace Sender

variable {env : SenderEnv} {s t u : Sender} {pkts : List SentPacket} {batches : List Batch}
  {batch : Batch} {param : FecParam} {ddlLeft : Time} {frameId groupId : UInt32} {info : BatchInfo}

theorem groupId_of_identity {pkt old : SentPacket} (h : pkt.identity = old.identity) :
    pkt.groupId = old.groupId :=
  congrArg (fun pkt => pkt.groupId) h

theorem pktIdInGroup_of_identity {pkt old : SentPacket} (h : pkt.identity = old.identity) :
    pkt.pktIdInGroup = old.pktIdInGroup :=
  congrArg (fun pkt => pkt.pktIdInGroup) h

theorem encodeTime_of_identity {pkt old : SentPacket} (h : pkt.identity = old.identity) :
    pkt.encodeTime = old.encodeTime :=
  congrArg (fun pkt => pkt.encodeTime) h

/-! ## The batch -/

def restamp (info : BatchInfo) (pktIdInBatch : UInt16) (i : Nat) (pkt : SentPacket) : SentPacket :=
  pkt.setFecBatch info (pktIdInBatch + UInt16.ofNat i)

theorem assignIds_old (pktIdInBatch pktIdInGroup : UInt16)
    (h : ∀ pkt ∈ pkts, pkt.groupInfoSet = true ∧ pkt.groupId = info.groupId) :
    assignIds info false pktIdInBatch pktIdInGroup pkts =
      some (pkts.mapIdx (restamp info pktIdInBatch), pktIdInGroup) := by
  induction pkts generalizing pktIdInBatch with
  | nil => simp [assignIds]
  | cons pkt pkts ih =>
    have hStamp : (fun i => restamp info pktIdInBatch (i + 1)) = restamp info (pktIdInBatch + 1) := by
      funext i pkt
      rw [restamp, restamp, uint16_add_succ]
    obtain ⟨hSet, hGroup⟩ := h pkt List.mem_cons_self
    rw [assignIds, if_pos ⟨rfl, hSet⟩, if_pos hGroup,
      ih (pktIdInBatch + 1) fun pkt hMem => h pkt (List.mem_cons_of_mem _ hMem), Option.map_some, List.mapIdx_cons,
      hStamp]
    simp [restamp]

/-- The batch that the retransmission of `front` and the other packets of its group is. -/
def rtxInfo (s : Sender) (param : FecParam) (front : SentPacket) (n : Nat) : BatchInfo where
  groupId := front.groupId
  groupDataNum := front.groupDataNum
  groupFecNum := front.batchFecNum
  batchId := s.batchId
  batchDataNum := UInt16.ofNat n
  batchFecNum := param.fecNum (UInt16.ofNat n)

theorem createRtxPacketBatch_cases {front : SentPacket} {tail : List SentPacket}
    (hGroup : ∀ pkt ∈ front :: tail, pkt.groupInfoSet = true ∧ pkt.groupId = front.groupId)
    (h : s.createRtxPacketBatch (front :: tail) param = some (batch, t)) :
    batch = batchOf s (s.rtxInfo param front (front :: tail).length) front.txCount
        ((front :: tail).mapIdx (restamp (s.rtxInfo param front (front :: tail).length) 0))
        (fun _ => rtxFecGroupId) ∧
      t = { s with batchId := s.batchId + 1 } := by
  rw [createRtxPacketBatch] at h
  split at h
  · have hOld : ∀ pkt ∈ front :: tail, pkt.groupInfoSet = true ∧
        pkt.groupId = (s.rtxInfo param front (front :: tail).length).groupId := hGroup
    have hIds := assignIds_old 0 0 hOld
    rw [rtxInfo] at hIds
    simp only [createPacketBatch, Bool.false_eq_true, if_false, hIds, Option.map_some,
      Option.some.injEq, Prod.mk.injEq, if_true] at h
    exact ⟨h.1.symm, h.2.symm⟩
  · cases h

/-- The policy's answer about a retransmission of `n` packets. -/
def rtxParam (env : SenderEnv) (s : Sender) (n : Nat) (ddlLeft : Time) (frameSize : UInt8) : FecParam :=
  env.policy s.policyInputs (s.policyInput (UInt16.ofNat n) ddlLeft true true frameSize)

theorem sendPackets_rtx_cases {front : SentPacket} {tail : List SentPacket}
    (hGroup : ∀ pkt ∈ front :: tail, pkt.groupInfoSet = true ∧ pkt.groupId = front.groupId)
    (h : s.sendPackets env (front :: tail) ddlLeft frameId true = some (batches, t)) :
    ∃ frameSize info batch input, s.frameDataPktCnt.find frameId = some frameSize ∧
      info = s.rtxInfo (s.rtxParam env (front :: tail).length ddlLeft frameSize) front
        (front :: tail).length ∧
      batch = (batchOf s info front.txCount ((front :: tail).mapIdx (restamp info 0))
        fun _ => rtxFecGroupId).setEnqueueTime s.now ∧
      batches = [batch] ∧
      t = { s with
        batchId := s.batchId + 1
        policyInputs := s.policyInputs ++ [input]
        traffic := s.traffic ++ [⟨true, batch.packets⟩] } := by
  rw [sendPackets, if_pos rfl] at h
  simp only [bind, Option.bind_some] at h
  obtain ⟨⟨last, mid⟩, hLast, hRest⟩ := Option.bind_eq_some_iff.mp h
  rw [lastGroup, if_neg (List.cons_ne_nil front tail)] at hLast
  obtain ⟨⟨param, called⟩, hParam, hBatch⟩ := Option.bind_eq_some_iff.mp hLast
  obtain ⟨frameSize, hFind, hCalled⟩ := Option.map_eq_some_iff.mp hParam
  obtain ⟨⟨batch, made⟩, hCreate, hMade⟩ := Option.bind_eq_some_iff.mp hBatch
  cases hCalled
  cases hMade
  obtain ⟨rfl, rfl⟩ := createRtxPacketBatch_cases hGroup hCreate
  cases hRest
  refine ⟨frameSize, s.rtxInfo (s.rtxParam env (front :: tail).length ddlLeft frameSize) front
    (front :: tail).length, _,
    s.policyInput (UInt16.ofNat (front :: tail).length) ddlLeft true true frameSize, hFind, rfl, rfl,
    rfl, ?_⟩
  rw [enqueue, if_neg]
  · simp only [List.nil_append, List.map_cons, List.map_nil, List.flatMap_cons, List.flatMap_nil,
      List.append_nil, if_true]
    rfl
  · simp [Batch.packets, Batch.setEnqueueTime, batchOf]

/-! ## The stored packets -/

/-- Every packet is stored under its own ids. -/
def Stored (history : NestedMap UInt32 UInt16 SentPacket) : Prop :=
  ∀ key pkt, history.get key = some pkt → pkt.key = key ∧ pkt.groupInfoSet = true

/-- The same packets are stored, apart from what a later transmission sets anew. -/
def SameStored (history history' : NestedMap UInt32 UInt16 SentPacket) : Prop :=
  ∀ key, (history'.get key).map SentPacket.identity = (history.get key).map SentPacket.identity

theorem SameStored.refl (history : NestedMap UInt32 UInt16 SentPacket) :
    SameStored history history :=
  fun _ => rfl

theorem SameStored.trans {history history' history'' : NestedMap UInt32 UInt16 SentPacket}
    (h : SameStored history history') (h' : SameStored history' history'') :
    SameStored history history'' :=
  fun key => (h' key).trans (h key)

theorem SameStored.symm {history history' : NestedMap UInt32 UInt16 SentPacket}
    (h : SameStored history history') : SameStored history' history :=
  fun key => (h key).symm

theorem SameStored.get_eq_some {history history' : NestedMap UInt32 UInt16 SentPacket}
    (h : SameStored history history') {key : GroupPacketInfo} {pkt : SentPacket}
    (hGet : history'.get key = some pkt) :
    ∃ old, history.get key = some old ∧ pkt.identity = old.identity := by
  have hSame := h key
  rw [hGet, Option.map_some] at hSame
  obtain ⟨old, hOld, hEq⟩ := Option.map_eq_some_iff.mp hSame.symm
  exact ⟨old, hOld, hEq.symm⟩

theorem Stored.of_identity {history history' : NestedMap UInt32 UInt16 SentPacket}
    (hStored : Stored history) (hSame : ∀ key pkt, history'.get key = some pkt →
      ∃ old, history.get key = some old ∧ pkt.identity = old.identity) : Stored history' := by
  intro key pkt hGet
  obtain ⟨old, hOld, hEq⟩ := hSame key pkt hGet
  obtain ⟨hKey, hSet⟩ := hStored key old hOld
  constructor
  · rw [← hKey, SentPacket.key, SentPacket.key, groupId_of_identity hEq,
      pktIdInGroup_of_identity hEq]
  · rw [← hSet]
    exact congrArg (fun pkt => pkt.groupInfoSet) hEq

theorem SameStored.stored {history history' : NestedMap UInt32 UInt16 SentPacket}
    (h : SameStored history history') (hStored : Stored history) : Stored history' :=
  hStored.of_identity fun _ _ => h.get_eq_some

theorem mem_group_iff {history : NestedMap UInt32 UInt16 SentPacket} {group : AssocMap UInt16 SentPacket}
    (h : history.find groupId = some group) {i : UInt16} {pkt : SentPacket} :
    (i, pkt) ∈ group.entries ↔ history.get (groupId, i) = some pkt := by
  rw [AssocMap.mem_entries_iff, NestedMap.get, h]
  rfl

/-- Storing packets anew under the ids of packets with the same identity. -/
theorem sameStored_foldl_put {entries : List (UInt16 × SentPacket)}
    {history : NestedMap UInt32 UInt16 SentPacket}
    (h : ∀ entry ∈ entries, (history.get (groupId, entry.1)).map SentPacket.identity =
      some entry.2.identity) :
    SameStored history (entries.foldl (fun m entry => m.put (groupId, entry.1) entry.2) history) := by
  induction entries generalizing history with
  | nil => exact SameStored.refl history
  | cons entry entries ih =>
    have hFirst : SameStored history (history.put (groupId, entry.1) entry.2) := by
      intro key
      rw [NestedMap.get_put]
      split
      · next hEq => rw [hEq, h entry List.mem_cons_self, Option.map_some]
      · rfl
    rw [List.foldl_cons]
    apply hFirst.trans
    apply ih
    intro other hMem
    rw [hFirst, h other (List.mem_cons_of_mem _ hMem)]

theorem noEmpty_foldl_put {entries : List (UInt16 × SentPacket)}
    {history : NestedMap UInt32 UInt16 SentPacket} (h : history.NoEmpty) :
    (entries.foldl (fun m entry => m.put (groupId, entry.1) entry.2) history).NoEmpty := by
  induction entries generalizing history with
  | nil => exact h
  | cons entry entries ih => exact ih (NestedMap.noEmpty_put h _ _)

/-! ## The retransmission of a group -/

/-- The sender after it has retransmitted `batch`. -/
def afterRtx (s : Sender) (batch : Batch) (input : PolicyInput)
    (history : NestedMap UInt32 UInt16 SentPacket) : Sender :=
  { s with
    batchId := s.batchId + 1
    policyInputs := s.policyInputs ++ [input]
    traffic := s.traffic ++ [⟨true, batch.packets⟩]
    dataPktHistory := history }

/-- `batch` carries the stored packets of group `groupId`, met in the order `entries`, and the FEC
packets that the policy asks for. -/
structure IsRtxBatch (env : SenderEnv) (s : Sender) (groupId : UInt32)
    (entries : List (UInt16 × SentPacket)) (front : SentPacket) (batch : Batch) (info : BatchInfo) :
    Prop where
  walk : ∃ group, s.dataPktHistory.find groupId = some group ∧ env.walk group.entries = entries
  head : ∃ i tail, entries = (i, front) :: tail
  data : ∀ pkt ∈ batch.data, ∃ old, s.dataPktHistory.get (groupId, pkt.pktIdInGroup) = some old ∧
    pkt.identity = old.identity
  infoGroupId : info.groupId = groupId
  infoGroupDataNum : info.groupDataNum = front.groupDataNum
  infoGroupFecNum : info.groupFecNum = front.batchFecNum
  policy : ∃ frameSize, s.frameDataPktCnt.find front.frameId = some frameSize ∧
    info.batchFecNum = (s.rtxParam env entries.length (s.rtxDdlLeft entries) frameSize).fecNum
      (UInt16.ofNat entries.length)
  fecLength : batch.fec.length = info.batchFecNum.toNat
  fec : ∀ pkt ∈ batch.fec, HasInfo info pkt.toVideoHeader

theorem IsRtxBatch.get_front {entries : List (UInt16 × SentPacket)} {front : SentPacket}
    (h : IsRtxBatch env s groupId entries front batch info) :
    ∃ i, s.dataPktHistory.get (groupId, i) = some front := by
  obtain ⟨group, hFind, hWalk⟩ := h.walk
  obtain ⟨i, tail, rfl⟩ := h.head
  have hMem : (i, front) ∈ group.entries := by
    rw [← (env.walk_perm group.entries).mem_iff, hWalk]
    exact List.mem_cons_self
  exact ⟨i, (mem_group_iff hFind).mp hMem⟩

/-- The packets as they are queued again. -/
def requeued (entries : List (UInt16 × SentPacket)) (info : BatchInfo) (txCount : UInt8)
    (now : Time) : List SentPacket :=
  ((entries.map fun entry => { entry.2 with txCount := txCount, enqueueTime := now }).mapIdx
    (restamp info 0)).map (SentPacket.setEnqueueTime now)

theorem mem_zip_requeued {entries : List (UInt16 × SentPacket)} {txCount : UInt8} {now : Time}
    {queued : UInt16 × SentPacket}
    (h : queued ∈ (entries.map Prod.fst).zip (requeued entries info txCount now)) :
    ∃ entry ∈ entries, queued.1 = entry.1 ∧ queued.2.identity = entry.2.identity := by
  obtain ⟨i, hLt, rfl⟩ := List.mem_iff_getElem.mp h
  have hEntry : i < entries.length := by
    simp only [List.length_zip, List.length_map, requeued, List.length_mapIdx] at hLt
    omega
  refine ⟨entries[i], List.getElem_mem hEntry, ?_, ?_⟩
  · simp
  · simp only [List.getElem_zip, requeued, List.getElem_map, List.getElem_mapIdx]
    rfl

theorem mem_requeued {entries : List (UInt16 × SentPacket)} {txCount : UInt8} {now : Time}
    {pkt : SentPacket} (h : pkt ∈ requeued entries info txCount now) :
    ∃ entry ∈ entries, pkt.identity = entry.2.identity := by
  obtain ⟨i, hLt, rfl⟩ := List.mem_iff_getElem.mp h
  have hEntry : i < entries.length := by
    simpa only [requeued, List.length_map, List.length_mapIdx] using hLt
  refine ⟨entries[i], List.getElem_mem hEntry, ?_⟩
  simp only [requeued, List.getElem_map, List.getElem_mapIdx]
  rfl

theorem retransmitGroup_spec (hStored : Stored s.dataPktHistory) {i : UInt16} {pkt : SentPacket}
    (hFound : s.dataPktHistory.get (groupId, i) = some pkt)
    (h : s.retransmitGroup env groupId = some t) :
    ∃ entries front batch info input history,
      IsRtxBatch env s groupId entries front batch info ∧
      t = s.afterRtx batch input history ∧ SameStored s.dataPktHistory history ∧
      (s.dataPktHistory.NoEmpty → history.NoEmpty) := by
  obtain ⟨group, hFind, hPkt⟩ := Option.bind_eq_some_iff.mp hFound
  simp only [retransmitGroup, hFind] at h
  have hPerm := env.walk_perm group.entries
  have hGet : ∀ entry ∈ env.walk group.entries,
      s.dataPktHistory.get (groupId, entry.1) = some entry.2 := by
    intro entry hMem
    exact (mem_group_iff hFind).mp (hPerm.mem_iff.mp hMem)
  cases hWalk : env.walk group.entries with
  | nil =>
    have hMem := hPerm.mem_iff.mpr (AssocMap.mem_entries_of_find hPkt)
    rw [hWalk] at hMem
    cases hMem
  | cons front tail =>
    rw [hWalk] at hGet
    simp only [hWalk] at h
    have hKey : ∀ entry ∈ front :: tail, entry.2.groupInfoSet = true ∧ entry.2.groupId = groupId ∧
        entry.2.pktIdInGroup = entry.1 := by
      intro entry hMem
      obtain ⟨hKey, hSet⟩ := hStored _ _ (hGet entry hMem)
      exact ⟨hSet, congrArg Prod.fst hKey, congrArg Prod.snd hKey⟩
    have hFront := (hKey front List.mem_cons_self).2.1
    obtain ⟨⟨batches, sent⟩, hSend, hRest⟩ := Option.bind_eq_some_iff.mp h
    have hGroup : ∀ pkt ∈ (front :: tail).map fun entry =>
          { entry.2 with txCount := front.2.txCount + 1, enqueueTime := s.now },
        pkt.groupInfoSet = true ∧ pkt.groupId = front.2.groupId := by
      intro pkt hMem
      obtain ⟨entry, hEntry, rfl⟩ := List.mem_map.mp hMem
      exact ⟨(hKey entry hEntry).1, (hKey entry hEntry).2.1.trans hFront.symm⟩
    obtain ⟨frameSize, info, batch, input, hSize, hInfo, hBatch, rfl, rfl⟩ :=
      sendPackets_rtx_cases hGroup hSend
    have hData : batch.data = requeued (front :: tail) info (front.2.txCount + 1) s.now := by
      rw [hBatch]
      rfl
    cases hRest
    refine ⟨front :: tail, front.2, batch, info, input, _, ?_, rfl, ?_, fun hNoEmpty =>
      noEmpty_foldl_put hNoEmpty⟩
    · constructor
      · exact ⟨group, hFind, hWalk⟩
      · exact ⟨front.1, tail, rfl⟩
      · intro pkt hMem
        rw [hData] at hMem
        obtain ⟨entry, hEntry, hSame⟩ := mem_requeued hMem
        refine ⟨entry.2, ?_, hSame⟩
        rw [pktIdInGroup_of_identity hSame, (hKey entry hEntry).2.2]
        exact hGet entry hEntry
      · rw [hInfo]
        exact hFront
      · rw [hInfo]
        rfl
      · rw [hInfo]
        rfl
      · refine ⟨frameSize, hSize, ?_⟩
        rw [hInfo]
        simp only [rtxInfo, List.length_cons, List.length_map]
      · rw [hBatch]
        simp [Batch.setEnqueueTime, batchOf]
      · intro pkt hMem
        rw [hBatch] at hMem
        exact hasInfo_batchOf hMem
    · apply sameStored_foldl_put
      intro queued hMem
      have hSingle : [batch].flatMap Batch.data = batch.data := List.append_nil _
      rw [hSingle, hData] at hMem
      obtain ⟨entry, hEntry, hFst, hSame⟩ := mem_zip_requeued hMem
      change (s.dataPktHistory.get (groupId, queued.1)).map SentPacket.identity = _
      rw [hFst, hGet entry hEntry, Option.map_some, hSame]

end Sender
end Bullet.Stream
