import Bullet.Stream.Cargo
import Bullet.Stream.RtxAfterSend
import Bullet.Stream.SenderHistory

/-! # What a sender puts on the wire

A data packet keeps its place from its first transmission on, and a FEC packet protects packets that
the sender has cut. What a new frame and a retransmission do to the objects of the sender.
-/

namespace Bullet.Stream

open Lib Lib.PartialRun

/-- The FEC packets of a batch protect its data packets. -/
def Batch.Protects (batch : Batch) : Prop :=
  ∀ fec ∈ batch.fec, fec.dataPkts = batch.data.map SentPacket.digest ∧
    ∀ pkt ∈ batch.data, pkt.groupId = fec.groupId

theorem Batch.Protects.setEnqueueTime {batch : Batch} (h : batch.Protects) (time : Time) :
    (batch.setEnqueueTime time).Protects := by
  intro fec hFec
  obtain ⟨hDigests, hGroup⟩ := h fec hFec
  refine ⟨?_, fun pkt hMem => ?_⟩
  · rw [hDigests, Batch.setEnqueueTime, List.map_map]
    rfl
  · obtain ⟨old, hOld, rfl⟩ := List.mem_map.mp hMem
    exact hGroup old hOld

theorem Batch.Protects.exists_cargo {batch : Batch} (h : batch.Protects) {fec : FecPacket}
    (hFec : fec ∈ batch.fec) {digest : DataPktDigest} (hDigest : digest ∈ fec.dataPkts) :
    ∃ pkt ∈ batch.data, digest.cargo fec.groupId = pkt.cargo := by
  obtain ⟨hDigests, hGroup⟩ := h fec hFec
  rw [hDigests] at hDigest
  obtain ⟨pkt, hMem, rfl⟩ := List.mem_map.mp hDigest
  exact ⟨pkt, hMem, by rw [← hGroup pkt hMem]; rfl⟩

namespace Sender

variable {env : SenderEnv} {s t : Sender} {pkts data : List SentPacket} {batches : List Batch}
  {batch : Batch} {param : FecParam} {ddlLeft : Time} {frameId : UInt32} {info : BatchInfo}

theorem groupId_of_assignIds {newGroup : Bool} {pktIdInBatch pktIdInGroup next : UInt16}
    (h : assignIds info newGroup pktIdInBatch pktIdInGroup pkts = some (data, next)) :
    ∀ pkt ∈ data, pkt.groupId = info.groupId := by
  induction pkts generalizing pktIdInBatch pktIdInGroup data with
  | nil =>
    cases h
    exact fun _ hMem => absurd hMem List.not_mem_nil
  | cons front pkts ih =>
    rw [assignIds] at h
    have hCons : ∀ first : SentPacket, first.groupId = info.groupId →
        ∀ r : List SentPacket × UInt16, (∀ pkt ∈ r.1, pkt.groupId = info.groupId) →
          ∀ pkt ∈ first :: r.1, pkt.groupId = info.groupId := by
      intro first hFirst r hRest pkt hMem
      rcases List.mem_cons.mp hMem with rfl | hMem
      · exact hFirst
      · exact hRest pkt hMem
    split at h
    · split at h
      · next hGroup =>
        obtain ⟨r, hRest, hEq⟩ := Option.map_eq_some_iff.mp h
        cases hEq
        exact hCons (front.setFecBatch info pktIdInBatch) hGroup r (ih hRest)
      · cases h
    · obtain ⟨r, hRest, hEq⟩ := Option.map_eq_some_iff.mp h
      cases hEq
      exact hCons _ rfl r (ih hRest)

theorem createPacketBatch_protects {newGroup isRtx : Bool} {groupId : UInt32}
    (h : s.createPacketBatch pkts param newGroup groupId isRtx = some (batch, t)) :
    batch.Protects := by
  cases pkts with
  | nil => cases h
  | cons front pkts =>
    obtain ⟨⟨data, next⟩, hIds, hEq⟩ := Option.map_eq_some_iff.mp h
    cases hEq
    intro fec hFec
    obtain ⟨i, -, rfl⟩ := List.mem_map.mp hFec
    exact ⟨rfl, groupId_of_assignIds hIds⟩

theorem createFirstPacketBatch_protects
    (h : s.createFirstPacketBatch pkts param = some (batch, t)) : batch.Protects := by
  obtain ⟨⟨made, mid⟩, hMade, hEq⟩ := Option.map_eq_some_iff.mp h
  cases hEq
  exact createPacketBatch_protects hMade

theorem createRtxPacketBatch_protects (h : s.createRtxPacketBatch pkts param = some (batch, t)) :
    batch.Protects := by
  cases pkts with
  | nil => cases h
  | cons front pkts =>
    rw [createRtxPacketBatch] at h
    split at h
    · exact createPacketBatch_protects h
    · cases h

theorem fullGroups_protects {fuel : ℕ} {rest : List SentPacket}
    (h : fullGroups param fuel s pkts = some (batches, rest, t)) :
    ∀ batch ∈ batches, batch.Protects := by
  induction fuel generalizing s pkts batches with
  | zero =>
    rw [fullGroups] at h
    split at h
    · cases h
      exact fun _ hMem => absurd hMem List.not_mem_nil
    · cases h
  | succ fuel ih =>
    rw [fullGroups] at h
    split at h
    · cases h
      exact fun _ hMem => absurd hMem List.not_mem_nil
    · obtain ⟨⟨first, mid⟩, hFirst, h⟩ := Option.bind_eq_some_iff.mp h
      obtain ⟨⟨others, left, last⟩, hOthers, h⟩ := Option.bind_eq_some_iff.mp h
      cases h
      intro batch hMem
      rcases List.mem_cons.mp hMem with rfl | hMem
      · exact createFirstPacketBatch_protects hFirst
      · exact ih hOthers batch hMem

theorem lastGroup_protects {isRtx : Bool}
    (h : s.lastGroup env pkts ddlLeft frameId isRtx = some (batches, t)) :
    ∀ batch ∈ batches, batch.Protects := by
  rw [lastGroup] at h
  split at h
  · cases h
    exact fun _ hMem => absurd hMem List.not_mem_nil
  · obtain ⟨⟨param, mid⟩, -, h⟩ := Option.bind_eq_some_iff.mp h
    obtain ⟨⟨made, last⟩, hMade, h⟩ := Option.bind_eq_some_iff.mp h
    cases h
    intro batch hMem
    rw [List.mem_singleton.mp hMem]
    cases isRtx with
    | true => exact createRtxPacketBatch_protects hMade
    | false => exact createFirstPacketBatch_protects hMade

theorem sendPackets_protects {isRtx : Bool}
    (h : s.sendPackets env pkts ddlLeft frameId isRtx = some (batches, t)) :
    ∀ batch ∈ batches, batch.Protects := by
  obtain ⟨⟨full, rest, mid⟩, hFull, h⟩ := Option.bind_eq_some_iff.mp h
  obtain ⟨⟨last, end'⟩, hLast, h⟩ := Option.bind_eq_some_iff.mp h
  cases h
  intro batch hMem
  obtain ⟨made, hMade, rfl⟩ := List.mem_map.mp hMem
  apply Batch.Protects.setEnqueueTime
  rcases List.mem_append.mp hMade with hFirst | hRest
  · cases isRtx with
    | true =>
      cases hFull
      exact absurd hFirst List.not_mem_nil
    | false =>
      obtain ⟨⟨param, called⟩, -, hLoop⟩ := Option.bind_eq_some_iff.mp hFull
      exact fullGroups_protects hLoop made hFirst
  · exact lastGroup_protects hLast made hRest

/-- Queueing packets leaves the counters, the time and the deadline. -/
theorem enqueue_same (s : Sender) (batches : List Batch) (isRtx : Bool) :
    (s.enqueue batches isRtx).groupId = s.groupId ∧ (s.enqueue batches isRtx).frameId = s.frameId ∧
      (s.enqueue batches isRtx).now = s.now ∧ (s.enqueue batches isRtx).delayDdl = s.delayDdl := by
  have hStore : ∀ (pkts : List SentPacket) (u : Sender), (u.storePackets pkts).groupId = u.groupId ∧
      (u.storePackets pkts).frameId = u.frameId ∧ (u.storePackets pkts).now = u.now ∧
      (u.storePackets pkts).delayDdl = u.delayDdl := by
    intro pkts
    induction pkts with
    | nil => exact fun _ => ⟨rfl, rfl, rfl, rfl⟩
    | cons pkt pkts ih =>
      intro u
      have hFirst : (u.storePacket pkt).groupId = u.groupId ∧ (u.storePacket pkt).frameId = u.frameId ∧
          (u.storePacket pkt).now = u.now ∧ (u.storePacket pkt).delayDdl = u.delayDdl := by
        rw [storePacket]
        split <;> exact ⟨rfl, rfl, rfl, rfl⟩
      obtain ⟨hGroup, hFrame, hNow, hDdl⟩ := ih (u.storePacket pkt)
      exact ⟨hGroup.trans hFirst.1, hFrame.trans hFirst.2.1, hNow.trans hFirst.2.2.1,
        hDdl.trans hFirst.2.2.2⟩
  rw [enqueue]
  split
  · exact ⟨rfl, rfl, rfl, rfl⟩
  · dsimp only
    split
    · exact ⟨rfl, rfl, rfl, rfl⟩
    · exact hStore _ _

end Sender

def SentPacket.cargo (pkt : SentPacket) : Cargo := pkt.toDataPacket.cargo

theorem cargo_of_identity {pkt old : SentPacket} (h : pkt.identity = old.identity) :
    pkt.cargo = old.cargo := by
  have hCargo : pkt.identity.cargo = old.identity.cargo := congrArg SentPacket.cargo h
  exact hCargo

theorem groupInfoSet_of_identity {pkt old : SentPacket} (h : pkt.identity = old.identity) :
    pkt.groupInfoSet = old.groupInfoSet :=
  congrArg (fun pkt => pkt.groupInfoSet) h

namespace QueueSender

variable {env : SenderEnv} {s t u : QueueSender} {handles : List ℕ} {batches : List Batch}
  {queued : QueuedPacket} {object : ℕ} {c : Cargo}

/-! ## The packets that are cut -/

/-- The sender has cut such a data packet. -/
def HasCut (s : QueueSender) (c : Cargo) : Prop :=
  ∃ object < s.objectCount, (s.objects object).groupInfoSet = true ∧ (s.objects object).cargo = c

/-- From one state to a later one a data packet keeps all that no transmission sets anew. -/
structure Keeps (s t : QueueSender) : Prop where
  count : s.objectCount ≤ t.objectCount
  identity : ∀ object < s.objectCount, (s.objects object).groupInfoSet = true →
    (t.objects object).identity = (s.objects object).identity

theorem Keeps.refl (s : QueueSender) : Keeps s s := ⟨le_refl _, fun _ _ _ => rfl⟩

theorem Keeps.trans (h : Keeps s t) (h' : Keeps t u) : Keeps s u where
  count := h.count.trans h'.count
  identity object hLt hSet := by
    have hSame := h.identity object hLt hSet
    refine (h'.identity object (hLt.trans_le h.count) ?_).trans hSame
    rw [groupInfoSet_of_identity hSame, hSet]

theorem Keeps.hasCut (h : Keeps s t) (hCut : s.HasCut c) : t.HasCut c := by
  obtain ⟨object, hLt, hSet, hCargo⟩ := hCut
  have hSame := h.identity object hLt hSet
  refine ⟨object, hLt.trans_le h.count, ?_, ?_⟩
  · rw [groupInfoSet_of_identity hSame, hSet]
  · rw [cargo_of_identity hSame, hCargo]

/-- The data packet exists, or the FEC packet protects packets that were cut. -/
def Backed (s : QueueSender) : QueuedPacket → Prop
  | .data object _ => object < s.objectCount
  | .fec pkt => ∀ digest ∈ pkt.dataPkts, s.HasCut (digest.cargo pkt.groupId)

theorem Keeps.backed (h : Keeps s t) (hBacked : s.Backed queued) : t.Backed queued := by
  cases queued with
  | data object made => exact hBacked.trans_le h.count
  | fec pkt => exact fun digest hMem => h.hasCut (hBacked digest hMem)

/-- The state before the packets `handles` are queued. -/
structure CutInv (s : QueueSender) (handles : List ℕ) : Prop where
  stored : ∀ key object, s.history.get key = some object → object < s.objectCount ∧
    (s.objects object).key = key ∧ (s.objects object).groupInfoSet = true
  set : ∀ object < s.objectCount, object ∉ handles → (s.objects object).groupInfoSet = true
  queued : ∀ queued, InQueue s queued → s.Backed queued

theorem fec_mem_queuedPackets {pkt : FecPacket} :
    QueuedPacket.fec pkt ∈ queuedPackets handles batches ↔ ∃ batch ∈ batches, pkt ∈ batch.fec := by
  induction batches generalizing handles with
  | nil => simp [queuedPackets]
  | cons batch batches ih => simp [queuedPackets, ih]

/-- What the packets of a call of `SendPackets` keep of their objects. -/
def KeepsIdentity (s : QueueSender) (handles : List ℕ) (data : List SentPacket) : Prop :=
  ∀ entry ∈ handles.zip data, entry.2.groupInfoSet = true ∧
    ((s.objects entry.1).groupInfoSet = true → entry.2.identity = (s.objects entry.1).identity)

theorem CutInv.handOver (h : CutInv s handles) (hNodup : handles.Nodup)
    (hLt : ∀ object ∈ handles, object < s.objectCount)
    (hLength : (batches.flatMap Batch.data).length = handles.length)
    (hProtects : ∀ batch ∈ batches, batch.Protects)
    (hData : KeepsIdentity s handles (batches.flatMap Batch.data)) (isRtx : Bool) (sender : Sender) :
    CutInv (s.handOver handles isRtx sender batches) [] ∧
      Keeps s (s.handOver handles isRtx sender batches) := by
  have hObject : ∀ object ∈ handles, ∃ pkt ∈ batches.flatMap Batch.data,
      (s.handOver handles isRtx sender batches).objects object = pkt ∧ pkt.groupInfoSet = true ∧
        ((s.objects object).groupInfoSet = true → pkt.identity = (s.objects object).identity) := by
    intro object hMem
    obtain ⟨pkt, hEntry⟩ := exists_entry hLength hMem
    exact ⟨pkt, (List.of_mem_zip hEntry).2,
      objects_handOver s hNodup hLength isRtx sender hEntry, hData _ hEntry⟩
  have hKeeps : Keeps s (s.handOver handles isRtx sender batches) := by
    refine ⟨(objectCount_handOver isRtx sender).ge, fun object _ hSet => ?_⟩
    by_cases hMem : object ∈ handles
    · obtain ⟨pkt, -, hEq, -, hSame⟩ := hObject object hMem
      rw [hEq]
      exact hSame hSet
    · rw [objects_handOver_of_notMem s hLength isRtx sender hMem]
  refine ⟨⟨fun key object hGet => ?_, fun object hCount _ => ?_, fun queued hQueued => ?_⟩, hKeeps⟩
  · rw [history_handOver] at hGet
    obtain ⟨hOld, hKey, hSet⟩ := h.stored key object hGet
    have hSame := hKeeps.identity object hOld hSet
    refine ⟨hOld.trans_le hKeeps.count, ?_, ?_⟩
    · rw [← hKey]
      exact congrArg Cargo.key (cargo_of_identity hSame)
    · rw [groupInfoSet_of_identity hSame, hSet]
  · rw [objectCount_handOver] at hCount
    by_cases hMem : object ∈ handles
    · obtain ⟨pkt, -, hEq, hSet, -⟩ := hObject object hMem
      rw [hEq, hSet]
    · rw [objects_handOver_of_notMem s hLength isRtx sender hMem]
      exact h.set object hCount hMem
  · rcases (inQueue_handOver isRtx sender).mp hQueued with hOld | hNew
    · exact hKeeps.backed (h.queued queued hOld)
    · cases queued with
      | data object made =>
        obtain ⟨pkt, hMem, -⟩ := mem_queuedPackets.mp hNew
        exact (hLt object (List.of_mem_zip hMem).1).trans_le hKeeps.count
      | fec fec =>
        obtain ⟨batch, hBatch, hFec⟩ := fec_mem_queuedPackets.mp hNew
        intro digest hDigest
        obtain ⟨pkt, hPkt, hCargo⟩ := (hProtects batch hBatch).exists_cargo hFec hDigest
        have hPkt : pkt ∈ batches.flatMap Batch.data := List.mem_flatMap.mpr ⟨batch, hBatch, hPkt⟩
        -- The packet is one of the objects that were written.
        rw [← List.map_snd_zip hLength.le] at hPkt
        obtain ⟨entry, hEntry, rfl⟩ := List.mem_map.mp hPkt
        have hHandle := (List.of_mem_zip hEntry).1
        have hWritten := objects_handOver s hNodup hLength isRtx sender hEntry
        refine ⟨entry.1, (hLt _ hHandle).trans_le hKeeps.count, ?_, ?_⟩
        · rw [hWritten]
          exact (hData entry hEntry).1
        · rw [hWritten, hCargo]
          rfl

theorem CutInv.storePackets (h : CutInv s [])
    (hHandles : ∀ object ∈ handles, object < s.objectCount) : CutInv (s.storePackets handles) [] := by
  obtain ⟨keys, history, hEq, hGet⟩ := storePackets_spec s handles
  rw [hEq]
  refine ⟨fun key object hFound => ?_, h.set, h.queued⟩
  rcases hGet key object hFound with hOld | ⟨hMem, hKey⟩
  · exact h.stored key object hOld
  · exact ⟨hHandles object hMem, hKey, h.set object (hHandles object hMem) List.not_mem_nil⟩

theorem keeps_storePackets (s : QueueSender) (handles : List ℕ) :
    Keeps s (s.storePackets handles) := by
  obtain ⟨keys, history, hEq, -⟩ := storePackets_spec s handles
  rw [hEq]
  exact ⟨le_refl _, fun _ _ _ => rfl⟩

theorem CutInv.sendPackets {ddlLeft : Time} {frameId : UInt32} {isRtx : Bool} (h : CutInv s handles)
    (hNodup : handles.Nodup) (hLt : ∀ object ∈ handles, object < s.objectCount)
    (hData : ∀ batches sender,
      s.sender.sendPackets env (handles.map s.objects) ddlLeft frameId isRtx = some (batches, sender) →
      (batches.flatMap Batch.data).length = handles.length ∧
        KeepsIdentity s handles (batches.flatMap Batch.data))
    (hSend : s.sendPackets env handles ddlLeft frameId isRtx = some t) :
    CutInv t [] ∧ Keeps s t := by
  obtain ⟨⟨batches, sender⟩, hSender, rfl⟩ := Option.map_eq_some_iff.mp hSend
  obtain ⟨hLength, hKeeps⟩ := hData batches sender hSender
  obtain ⟨hQueued, hSame⟩ :=
    h.handOver hNodup hLt hLength (Sender.sendPackets_protects hSender) hKeeps isRtx sender
  cases isRtx with
  | true => exact ⟨hQueued, hSame⟩
  | false =>
    refine ⟨hQueued.storePackets fun object hMem => ?_, hSame.trans (keeps_storePackets _ _)⟩
    rw [objectCount_handOver]
    exact hLt object hMem

/-! ## A new frame -/

section Frame

variable {pkts : List SentPacket} {frameId : UInt32} {dataPktNum : UInt16}

theorem objects_allocate_of_lt (hLt : object < s.objectCount) :
    (s.allocate frameId dataPktNum pkts).objects object = s.objects object := by
  apply written_of_notMem
  intro hMem
  obtain ⟨entry, hEntry, rfl⟩ := List.mem_map.mp hMem
  have hGe := (List.mem_range'_1.mp (List.of_mem_zip hEntry).1).1
  omega

theorem objects_allocate {i : ℕ} {pkt : SentPacket} (hPkt : pkts[i]? = some pkt) :
    (s.allocate frameId dataPktNum pkts).objects (s.objectCount + i) = pkt := by
  have hKeys : ((List.range' s.objectCount pkts.length).zip pkts).map Prod.fst =
      List.range' s.objectCount pkts.length := List.map_fst_zip (by rw [List.length_range'])
  apply written_of_mem (hKeys.symm ▸ List.nodup_range')
  obtain ⟨hLt, rfl⟩ := List.getElem?_eq_some_iff.mp hPkt
  apply List.mem_iff_getElem?.mpr
  refine ⟨i, ?_⟩
  rw [List.getElem?_zip_eq_some, List.getElem?_eq_getElem hLt, List.getElem?_range' hLt]
  exact ⟨by rw [Nat.one_mul], rfl⟩

theorem map_objects_allocate :
    (List.range' s.objectCount pkts.length).map (s.allocate frameId dataPktNum pkts).objects = pkts := by
  apply List.ext_getElem
  · rw [List.length_map, List.length_range']
  · intro i hLeft hRight
    rw [List.getElem_map, List.getElem_range', Nat.one_mul]
    exact objects_allocate (List.getElem?_eq_getElem hRight)

theorem keeps_allocate (s : QueueSender) (frameId : UInt32) (dataPktNum : UInt16)
    (pkts : List SentPacket) : Keeps s (s.allocate frameId dataPktNum pkts) where
  count := Nat.le_add_right _ _
  identity _ hLt _ := congrArg SentPacket.identity (objects_allocate_of_lt hLt)

theorem CutInv.allocate (h : CutInv s []) (frameId : UInt32) (dataPktNum : UInt16)
    (pkts : List SentPacket) :
    CutInv (s.allocate frameId dataPktNum pkts) (List.range' s.objectCount pkts.length) where
  stored key object hGet := by
    obtain ⟨hLt, hKey, hSet⟩ := h.stored key object hGet
    rw [objects_allocate_of_lt hLt]
    exact ⟨Nat.lt_add_right _ hLt, hKey, hSet⟩
  set object hCount hNot := by
    have hLt : object < s.objectCount := by
      by_contra hGe
      exact hNot (List.mem_range'_1.mpr ⟨not_lt.mp hGe, hCount⟩)
    rw [objects_allocate_of_lt hLt]
    exact h.set object hLt List.not_mem_nil
  queued queued hQueued := (keeps_allocate s frameId dataPktNum pkts).backed (h.queued queued hQueued)

end Frame

/-- What a new frame adds: `batches` of the packets `pkts`, which are stored. -/
structure AddsFrame (s t : QueueSender) (framePktNum : UInt16) (pkts : List SentPacket)
    (batches : List Batch) : Prop where
  ofFrame : Sender.OfFrame s.sender.now s.sender.frameId framePktNum pkts
  nonempty : pkts ≠ []
  groups : Sender.Groups s.sender.groupId pkts batches
  count : t.objectCount = s.objectCount + pkts.length
  groupId : t.sender.groupId = s.sender.groupId + UInt32.ofNat batches.length
  frameId : t.sender.frameId = s.sender.frameId + 1
  now : t.sender.now = s.sender.now
  delayDdl : t.sender.delayDdl = s.sender.delayDdl
  old : ∀ object < s.objectCount, t.objects object = s.objects object
  new : ∀ i pkt, (batches.flatMap Batch.data)[i]? = some pkt → t.objects (s.objectCount + i) = pkt
  stored : ∀ i pkt, (batches.flatMap Batch.data)[i]? = some pkt →
    t.history.get pkt.key = some (s.objectCount + i)
  kept : ∀ key, key ∉ (batches.flatMap Batch.data).map SentPacket.key →
    t.history.get key = s.history.get key

theorem storePackets_get (hFirst : ∀ object ∈ handles, (s.objects object).txCount = 0)
    (hKeys : (handles.map fun object => (s.objects object).key).Nodup) :
    (∀ object ∈ handles,
        (s.storePackets handles).history.get (s.objects object).key = some object) ∧
      ∀ key, key ∉ handles.map (fun object => (s.objects object).key) →
        (s.storePackets handles).history.get key = s.history.get key := by
  induction handles generalizing s with
  | nil => exact ⟨fun _ hMem => absurd hMem List.not_mem_nil, fun _ _ => rfl⟩
  | cons first handles ih =>
    have hStore : s.storePacket first = { s with
        historyKey := s.historyKey ++ [(s.objects first).key]
        history := s.history.put (s.objects first).key first } :=
      if_pos (hFirst first List.mem_cons_self)
    obtain ⟨hNot, hNodup⟩ := List.nodup_cons.mp hKeys
    have hObjects : (s.storePacket first).objects = s.objects := by rw [hStore]
    have hRest := ih (s := s.storePacket first)
      (by rw [hObjects]; exact fun object hMem => hFirst object (List.mem_cons_of_mem _ hMem))
      (by rw [hObjects]; exact hNodup)
    rw [hObjects] at hRest
    obtain ⟨hStored, hKept⟩ := hRest
    change (∀ object ∈ first :: handles, ((s.storePacket first).storePackets handles).history.get
        (s.objects object).key = some object) ∧ ∀ key, key ∉ (first :: handles).map _ →
          ((s.storePacket first).storePackets handles).history.get key = s.history.get key
    refine ⟨fun object hMem => ?_, fun key hKey => ?_⟩
    · rcases List.mem_cons.mp hMem with rfl | hMem
      · rw [hKept _ hNot, hStore, NestedMap.get_put, if_pos rfl]
      · exact hStored object hMem
    · rw [List.map_cons, List.mem_cons, not_or] at hKey
      rw [hKept key hKey.2, hStore, NestedMap.get_put, if_neg hKey.1]

/-- The objects are the packets of the batches, in this order. -/
theorem map_objects_handOver (s : QueueSender) (hNodup : handles.Nodup)
    (hLength : (batches.flatMap Batch.data).length = handles.length) (isRtx : Bool)
    (sender : Sender) :
    handles.map (s.handOver handles isRtx sender batches).objects = batches.flatMap Batch.data := by
  apply List.ext_getElem
  · rw [List.length_map, hLength]
  · intro i hLeft hRight
    rw [List.getElem_map]
    apply objects_handOver s hNodup hLength
    rw [← List.getElem_zip (h := by rw [List.length_zip, hLength, Nat.min_self]; simpa using hLeft)]
    exact List.getElem_mem _

theorem object_handOver (s : QueueSender) {first n i : ℕ} {pkt : SentPacket}
    (hLength : (batches.flatMap Batch.data).length = n) (isRtx : Bool) (sender : Sender)
    (hPkt : (batches.flatMap Batch.data)[i]? = some pkt) :
    first + i ∈ List.range' first n ∧
      (s.handOver (List.range' first n) isRtx sender batches).objects (first + i) = pkt := by
  obtain ⟨hBound, rfl⟩ := List.getElem?_eq_some_iff.mp hPkt
  have hNodup : (List.range' first n).Nodup := List.nodup_range'
  have hMap := s.map_objects_handOver hNodup (hLength.trans List.length_range'.symm) isRtx sender
  have hAt := List.getElem_of_eq hMap.symm hBound
  rw [List.getElem_map, List.getElem_range', Nat.one_mul] at hAt
  exact ⟨List.mem_range'_1.mpr ⟨Nat.le_add_right _ _, by omega⟩, hAt.symm⟩

/-- `a` is `s` with the packets of its next frame, which are still to be queued. -/
structure Allocated (s a : QueueSender) (framePktNum : UInt16) (pkts : List SentPacket) : Prop where
  inv : CutInv a (List.range' s.objectCount pkts.length)
  keeps : Keeps s a
  new : (List.range' s.objectCount pkts.length).map a.objects = pkts
  old : ∀ object < s.objectCount, a.objects object = s.objects object
  count : a.objectCount = s.objectCount + pkts.length
  history : a.history = s.history
  frameSize : a.sender.frameDataPktCnt.find s.sender.frameId = some framePktNum.toUInt8
  groupId : a.sender.groupId = s.sender.groupId
  frameId : a.sender.frameId = s.sender.frameId + 1
  now : a.sender.now = s.sender.now
  delayDdl : a.sender.delayDdl = s.sender.delayDdl

theorem CutInv.allocated (h : CutInv s []) (framePktNum : UInt16) (pkts : List SentPacket) :
    Allocated s
      (QueueSender.allocate { s with sender := { s.sender with frameId := s.sender.frameId + 1 } }
        s.sender.frameId framePktNum pkts) framePktNum pkts where
  inv := CutInv.allocate (s := { s with sender := { s.sender with frameId := s.sender.frameId + 1 } })
    ⟨h.stored, h.set, h.queued⟩ s.sender.frameId framePktNum pkts
  keeps := ⟨Nat.le_add_right _ _, fun _ hLt _ =>
    congrArg SentPacket.identity (objects_allocate_of_lt hLt)⟩
  new := map_objects_allocate
  old _ hLt := objects_allocate_of_lt hLt
  count := rfl
  history := rfl
  frameSize := by rw [QueueSender.allocate, AssocMap.find_set, if_pos rfl]
  groupId := rfl
  frameId := rfl
  now := rfl
  delayDdl := rfl

section Allocated

variable {a : QueueSender} {framePktNum : UInt16} {pkts : List SentPacket} {ddlLeft : Time}

/-- What `SendPackets` makes of the packets of a new frame. -/
theorem Allocated.made (h : Allocated s a framePktNum pkts) {sender : Sender}
    (hSender : a.sender.sendPackets env pkts ddlLeft s.sender.frameId false = some (batches, sender)) :
    Sender.Groups s.sender.groupId (pkts.map (SentPacket.setEnqueueTime s.sender.now)) batches ∧
      sender.groupId = s.sender.groupId + UInt32.ofNat batches.length ∧
      sender.frameId = s.sender.frameId + 1 ∧ sender.now = s.sender.now ∧
      sender.delayDdl = s.sender.delayDdl := by
  by_cases hSize :
      (a.sender.firstParam env pkts.length ddlLeft framePktNum.toUInt8).fecGroupSize = 0
  · rw [Sender.sendPackets_zero env h.frameSize hSize] at hSender
    cases hSender
  · obtain ⟨made, inputs, hMade, hGroups, -⟩ := Sender.sendPackets_spec env h.frameSize hSize
    rw [hMade] at hSender
    cases hSender
    obtain ⟨hGroup, hFrame, hNow, hDdl⟩ := Sender.enqueue_same (a.sender.advance made.length inputs)
      (made.map (Batch.setEnqueueTime a.sender.now)) false
    have hQueued := hGroups.enqueued a.sender.now
    rw [h.groupId, h.now] at hQueued
    refine ⟨h.now ▸ hQueued, ?_, ?_, ?_, ?_⟩
    · rw [hGroup, List.length_map, ← h.groupId]
      rfl
    · exact hFrame.trans h.frameId
    · exact hNow.trans h.now
    · exact hDdl.trans h.delayDdl

theorem Allocated.sendPackets (h : Allocated s a framePktNum pkts)
    (hOf : Sender.OfFrame s.sender.now s.sender.frameId framePktNum
      (pkts.map (SentPacket.setEnqueueTime s.sender.now)))
    (hNe : pkts ≠ []) (hShort : pkts.length ≤ 2 ^ 32)
    (hSend : a.sendPackets env (List.range' s.objectCount pkts.length) ddlLeft s.sender.frameId false =
      some t) :
    CutInv t [] ∧ Keeps s t ∧ ∃ batches,
      AddsFrame s t framePktNum (pkts.map (SentPacket.setEnqueueTime s.sender.now)) batches := by
  have hUnset : ∀ pkt ∈ pkts, pkt.groupInfoSet = false := by
    intro pkt hMem
    have hFresh := hOf (pkt.setEnqueueTime s.sender.now) (List.mem_map_of_mem hMem)
    exact congrArg (fun pkt => pkt.groupInfoSet) hFresh
  have hLt : ∀ object ∈ List.range' s.objectCount pkts.length, object < a.objectCount := by
    intro object hMem
    rw [h.count]
    exact (List.mem_range'_1.mp hMem).2
  have hMade := hSend
  obtain ⟨⟨batches, sender⟩, hSender, rfl⟩ := Option.map_eq_some_iff.mp hMade
  have hSent := hSender
  rw [h.new] at hSent
  obtain ⟨hGroups, hGroup, hFrame, hNow, hDdl⟩ := h.made hSent
  have hLength : (batches.flatMap Batch.data).length = (List.range' s.objectCount pkts.length).length := by
    have hCount := congrArg List.length (hGroups.map_data (f := fun _ => ()) fun _ _ _ => rfl)
    simpa using hCount
  have hIdentity : KeepsIdentity a (List.range' s.objectCount pkts.length)
      (batches.flatMap Batch.data) := by
    intro entry hEntry
    obtain ⟨hHandle, hPkt⟩ := List.of_mem_zip hEntry
    refine ⟨hGroups.forall_data (p := fun pkt => pkt.groupInfoSet = true) (fun _ _ _ _ => rfl) _ hPkt,
      fun hSet => ?_⟩
    have hObject : a.objects entry.1 ∈ pkts := by
      rw [← h.new]
      exact List.mem_map_of_mem hHandle
    rw [hUnset _ hObject] at hSet
    cases hSet
  obtain ⟨hInv, hKeeps⟩ := h.inv.sendPackets List.nodup_range' hLt (fun other sent hOther => by
    cases hSender.symm.trans hOther
    exact ⟨hLength, hIdentity⟩) hSend
  refine ⟨hInv, h.keeps.trans hKeeps, batches, ?_⟩
  have hMap := a.map_objects_handOver List.nodup_range' hLength false sender
  have hFirst : ∀ object ∈ List.range' s.objectCount pkts.length,
      ((a.handOver (List.range' s.objectCount pkts.length) false sender batches).objects
        object).txCount = 0 := by
    intro object hMem
    have hData := List.mem_map_of_mem
      (f := (a.handOver (List.range' s.objectCount pkts.length) false sender batches).objects) hMem
    rw [hMap] at hData
    refine hGroups.forall_data (p := fun pkt => pkt.txCount = 0) (fun info i pkt hPkt => ?_) _ hData
    rw [hOf pkt hPkt]
    rfl
  have hBatches : batches.length ≤ 2 ^ 32 := by
    have hLe := hGroups.length_le
    rw [List.length_map] at hLe
    exact hLe.trans hShort
  have hKeys : (List.range' s.objectCount pkts.length).map (fun object =>
      ((a.handOver (List.range' s.objectCount pkts.length) false sender batches).objects object).key) =
        (batches.flatMap Batch.data).map SentPacket.key := by
    rw [← hMap, List.map_map]
    rfl
  obtain ⟨hStored, hKept⟩ := storePackets_get hFirst (hKeys ▸ hGroups.nodup_keys hBatches)
  obtain ⟨keys, history, hEq, -⟩ := storePackets_spec
    (a.handOver (List.range' s.objectCount pkts.length) false sender batches)
    (List.range' s.objectCount pkts.length)
  rw [hKeys] at hKept
  dsimp only
  rw [if_neg Bool.false_ne_true]
  have hObjects : ((a.handOver (List.range' s.objectCount pkts.length) false sender batches).storePackets
      (List.range' s.objectCount pkts.length)).objects =
        (a.handOver (List.range' s.objectCount pkts.length) false sender batches).objects := by
    rw [hEq]
  have hSenderSame : ((a.handOver (List.range' s.objectCount pkts.length) false sender
      batches).storePackets (List.range' s.objectCount pkts.length)).sender = sender := by
    rw [hEq, handOver_eq]
  refine ⟨hOf, by simpa using hNe, hGroups, ?_, ?_, ?_, ?_, ?_, fun object hLt => ?_,
    fun i pkt hPkt => ?_, fun i pkt hPkt => ?_, fun key hKey => ?_⟩
  · rw [hEq, List.length_map]
    exact (objectCount_handOver false sender).trans h.count
  · rw [hSenderSame, hGroup]
  · rw [hSenderSame, hFrame]
  · rw [hSenderSame, hNow]
  · rw [hSenderSame, hDdl]
  · rw [hObjects, objects_handOver_of_notMem a hLength false sender, h.old object hLt]
    intro hMem
    have hGe := (List.mem_range'_1.mp hMem).1
    omega
  · rw [hObjects]
    exact (a.object_handOver (hLength.trans List.length_range') false sender hPkt).2
  · obtain ⟨hMem, hObject⟩ :=
      a.object_handOver (hLength.trans List.length_range') false sender hPkt
    rw [← hObject]
    exact hStored _ hMem
  · rw [hKept key hKey, history_handOver, h.history]

end Allocated

/-- `SendFrame` of a frame without bytes does nothing; any other frame is added. -/
theorem CutInv.sendFrame {dataSize : UInt32} (h : CutInv s [])
    (hSend : s.sendFrame env (dataSize.toNat + 1) dataSize = some t) :
    dataSize = 0 ∧ t = s ∨ CutInv t [] ∧ Keeps s t ∧ ∃ pkts batches,
      Sender.dataPackets s.sender.now s.sender.frameId dataPktMaxPayload (Sender.dataPktNum dataSize)
        dataSize (dataSize.toNat + 1) 0 0 = some pkts ∧
      AddsFrame s t (Sender.dataPktNum dataSize)
        (pkts.map (SentPacket.setEnqueueTime s.sender.now)) batches := by
  rw [QueueSender.sendFrame] at hSend
  split at hSend
  · next hZero =>
    cases hSend
    exact .inl ⟨hZero, rfl⟩
  · obtain ⟨pkts, hCut, hRest⟩ := Option.bind_eq_some_iff.mp hSend
    split at hRest
    · cases hRest
    · next hNe =>
      obtain ⟨hOf, hShort⟩ := Sender.dataPackets_ofFrame hCut
      have hBytes := dataSize.toNat_lt
      obtain ⟨hInv, hKeeps, batches, hAdds⟩ :=
        (h.allocated (Sender.dataPktNum dataSize) pkts).sendPackets hOf hNe (by omega) hRest
      exact .inr ⟨hInv, hKeeps, pkts, batches, hCut, hAdds⟩

/-! ## No new frame -/

/-- No packet is cut, and none is forgotten before its deadline. -/
structure Rests (s t : QueueSender) : Prop where
  count : t.objectCount = s.objectCount
  identity : ∀ object < s.objectCount, (t.objects object).identity = (s.objects object).identity
  groupId : t.sender.groupId = s.sender.groupId
  frameId : t.sender.frameId = s.sender.frameId
  now : s.sender.now ≤ t.sender.now
  delayDdl : t.sender.delayDdl = s.sender.delayDdl
  kept : ∀ key object, s.history.get key = some object →
    t.history.get key = some object ∨ t.sender.missesDdl (t.objects object) = true

theorem missesDdl_mono {pkt old : SentPacket} (hIdentity : pkt.identity = old.identity)
    (hNow : s.sender.now ≤ t.sender.now) (hDdl : t.sender.delayDdl = s.sender.delayDdl)
    (h : s.sender.missesDdl old = true) : t.sender.missesDdl pkt = true := by
  have hTime := Sender.encodeTime_of_identity hIdentity
  rw [Sender.missesDdl, decide_eq_true_iff] at h ⊢
  rw [hTime, hDdl]
  exact Int.lt_of_lt_of_le h (Int.sub_le_sub_right hNow _)

theorem Rests.refl (s : QueueSender) : Rests s s where
  count := rfl
  identity _ _ := rfl
  groupId := rfl
  frameId := rfl
  now := le_refl _
  delayDdl := rfl
  kept _ _ h := .inl h

theorem Rests.keeps (h : Rests s t) : Keeps s t :=
  ⟨h.count.ge, fun object hLt _ => h.identity object hLt⟩

theorem Rests.trans (h : Rests s t) (h' : Rests t u) (hStored : CutInv s []) : Rests s u where
  count := h'.count.trans h.count
  identity object hLt := (h'.identity object (hLt.trans_eq h.count.symm)).trans (h.identity object hLt)
  groupId := h'.groupId.trans h.groupId
  frameId := h'.frameId.trans h.frameId
  now := h.now.trans h'.now
  delayDdl := h'.delayDdl.trans h.delayDdl
  kept key object hGet := by
    rcases h.kept key object hGet with hKept | hMissed
    · exact h'.kept key object hKept
    · have hLt := (hStored.stored key object hGet).1
      exact .inr (missesDdl_mono (h'.identity object (hLt.trans_eq h.count.symm)) h'.now h'.delayDdl
        hMissed)

/-- Only what the queue and the history do not read is different. -/
theorem CutInv.same (h : CutInv s []) (hCount : t.objectCount = s.objectCount)
    (hIdentity : ∀ object < s.objectCount, (t.objects object).identity = (s.objects object).identity)
    (hHistory : ∀ key object, t.history.get key = some object → s.history.get key = some object)
    (hQueue : ∀ queued, InQueue t queued → InQueue s queued) : CutInv t [] where
  stored key object hGet := by
    obtain ⟨hLt, hKey, hSet⟩ := h.stored key object (hHistory key object hGet)
    have hSame := hIdentity object hLt
    refine ⟨hLt.trans_eq hCount.symm, ?_, ?_⟩
    · rw [← hKey]
      exact congrArg Cargo.key (cargo_of_identity hSame)
    · rw [groupInfoSet_of_identity hSame, hSet]
  set object hLt hNot := by
    rw [hCount] at hLt
    rw [groupInfoSet_of_identity (hIdentity object hLt), h.set object hLt hNot]
  queued queued hQueued :=
    Keeps.backed ⟨hCount.ge, fun object hLt _ => hIdentity object hLt⟩ (h.queued queued (hQueue _ hQueued))

theorem identity_renew (s : QueueSender) (handles : List ℕ) (txCount : UInt8) (object : ℕ) :
    ((s.renew handles txCount).objects object).identity = (s.objects object).identity := by
  simp only [QueueSender.renew]
  split <;> rfl

theorem identity_of_mem_zip {objects : ℕ → SentPacket} {info : BatchInfo} {time : Time}
    {entry : ℕ × SentPacket}
    (h : entry ∈ handles.zip ((((handles.map objects).mapIdx (Sender.restamp info 0)).map
      (SentPacket.setEnqueueTime time)))) :
    entry.2.identity = (objects entry.1).identity := by
  obtain ⟨i, hLt, rfl⟩ := List.mem_iff_getElem.mp h
  simp only [List.getElem_zip, List.getElem_map, List.getElem_mapIdx]
  rfl

/-- What `SendPackets` makes of stored packets of one group. -/
theorem CutInv.again {groupId frameId : UInt32} {ddlLeft : Time} {sender : Sender}
    (h : CutInv s []) (hStored : ∀ object ∈ handles, ∃ id, s.history.get (groupId, id) = some object)
    (hSend : s.sender.sendPackets env (handles.map s.objects) ddlLeft frameId true =
      some (batches, sender)) :
    (batches.flatMap Batch.data).length = handles.length ∧
      KeepsIdentity s handles (batches.flatMap Batch.data) ∧
      sender.groupId = s.sender.groupId ∧ sender.frameId = s.sender.frameId ∧
      sender.now = s.sender.now ∧ sender.delayDdl = s.sender.delayDdl := by
  have hOld : ∀ object ∈ handles, (s.objects object).groupInfoSet = true ∧
      (s.objects object).groupId = groupId := by
    intro object hMem
    obtain ⟨id, hGet⟩ := hStored object hMem
    obtain ⟨-, hKey, hSet⟩ := h.stored _ object hGet
    exact ⟨hSet, congrArg Prod.fst hKey⟩
  cases handles with
  | nil =>
    cases hSend
    exact ⟨rfl, fun entry hMem => absurd hMem List.not_mem_nil, rfl, rfl, rfl, rfl⟩
  | cons first others =>
    have hGroup : ∀ pkt ∈ (first :: others).map s.objects,
        pkt.groupInfoSet = true ∧ pkt.groupId = (s.objects first).groupId := by
      intro pkt hMem
      obtain ⟨object, hObject, rfl⟩ := List.mem_map.mp hMem
      obtain ⟨hSet, hId⟩ := hOld object hObject
      exact ⟨hSet, hId.trans (hOld first List.mem_cons_self).2.symm⟩
    obtain ⟨frameSize, info, batch, input, -, -, rfl, rfl, rfl⟩ :=
      Sender.sendPackets_rtx_cases hGroup hSend
    rw [List.flatMap_singleton]
    refine ⟨by simp [Batch.setEnqueueTime, Sender.batchOf], fun entry hMem => ?_, rfl, rfl, rfl, rfl⟩
    have hSame := identity_of_mem_zip hMem
    exact ⟨(groupInfoSet_of_identity hSame).trans (hOld entry.1 (List.of_mem_zip hMem).1).1,
      fun _ => hSame⟩

theorem CutInv.weaken (h : CutInv s []) (handles : List ℕ) : CutInv s handles :=
  ⟨h.stored, fun object hLt _ => h.set object hLt List.not_mem_nil, h.queued⟩

theorem CutInv.retransmitGroup {groupId : UInt32} (h : CutInv s [])
    (hRtx : s.retransmitGroup env groupId = some t) : CutInv t [] ∧ Rests s t := by
  rw [QueueSender.retransmitGroup] at hRtx
  split at hRtx
  · cases hRtx
    exact ⟨h, .refl s⟩
  next group hFind =>
  have hPerm := env.walk_perm (group.entries.map fun entry => (entry.1, s.objects entry.2))
  split at hRtx
  · cases hRtx
    exact ⟨h, .refl s⟩
  next front tail hWalk =>
  have hGet : ∀ id object, group.find id = some object → s.history.get (groupId, id) = some object := by
    intro id object hEntry
    rw [NestedMap.get, hFind]
    exact hEntry
  have hIds : ((front :: tail).map Prod.fst).Nodup := by
    rw [← hWalk, (hPerm.map Prod.fst).nodup_iff, List.map_map]
    exact group.nodup
  -- An object is stored under its own ids, so no two ids of the group lead to it.
  have hNodup : (((front :: tail).map Prod.fst).filterMap group.find).Nodup := by
    apply hIds.filterMap
    intro id id' object hId hId'
    have hKey := (h.stored _ _ (hGet id object hId)).2.1
    have hKey' := (h.stored _ _ (hGet id' object hId')).2.1
    exact congrArg Prod.snd (hKey.symm.trans hKey')
  have hStored : ∀ object ∈ ((front :: tail).map Prod.fst).filterMap group.find,
      ∃ id, s.history.get (groupId, id) = some object := by
    intro object hMem
    obtain ⟨id, -, hEntry⟩ := List.mem_filterMap.mp hMem
    exact ⟨id, hGet id object hEntry⟩
  have hRenewed : CutInv (s.renew (((front :: tail).map Prod.fst).filterMap group.find)
      (front.2.txCount + 1)) [] :=
    h.same rfl (fun object _ => identity_renew s _ _ object) (fun _ _ hKeep => hKeep) fun _ hIn => hIn
  have hLt : ∀ object ∈ ((front :: tail).map Prod.fst).filterMap group.find, object < s.objectCount := by
    intro object hMem
    obtain ⟨id, hEntry⟩ := hStored object hMem
    exact (h.stored _ object hEntry).1
  obtain ⟨⟨batches, sender⟩, hSender, hEq⟩ := Option.map_eq_some_iff.mp hRtx
  obtain ⟨hLength, hIdentity, hGroup, hFrame, hNow, hDdl⟩ := hRenewed.again hStored hSender
  obtain ⟨hInv, hKeeps⟩ := (hRenewed.weaken _).handOver hNodup hLt hLength
    (Sender.sendPackets_protects hSender) hIdentity true sender
  cases hEq
  refine ⟨hInv, objectCount_handOver true sender, fun object hObject => ?_, ?_, ?_, ?_, ?_,
    fun key object hKey => .inl ?_⟩
  · exact (hKeeps.identity object hObject (hRenewed.set object hObject List.not_mem_nil)).trans
      (identity_renew s _ _ object)
  · rw [if_pos rfl, handOver_eq]
    exact hGroup
  · rw [if_pos rfl, handOver_eq]
    exact hFrame
  · rw [if_pos rfl, handOver_eq]
    exact hNow.ge
  · rw [if_pos rfl, handOver_eq]
    exact hDdl
  · rw [if_pos rfl, history_handOver]
    exact hKey

theorem removeMissed_kept (s : QueueSender) (keys : List GroupPacketInfo)
    (history : NestedMap UInt32 UInt16 ℕ) {key : GroupPacketInfo} (hGet : history.get key = some object) :
    (s.removeMissed keys history).2.get key = some object ∨
      s.sender.missesDdl (s.objects object) = true := by
  induction keys generalizing history with
  | nil => exact .inl hGet
  | cons info keys ih =>
    rw [removeMissed]
    split
    · exact ih history hGet
    · next other hOther =>
      split
      · next hMisses =>
        by_cases hKey : key = info
        · rw [hKey, hOther] at hGet
          cases hGet
          exact .inr hMisses
        · exact ih _ (by rw [NestedMap.get_remove, if_neg hKey, hGet])
      · exact .inl hGet

theorem CutInv.checkKey {pass next : RtxPass} {info : GroupPacketInfo} (h : CutInv pass.sender [])
    (hTurn : checkKey env pass info = some next) :
    CutInv next.sender [] ∧ Rests pass.sender next.sender := by
  rcases checkKey_cases hTurn with hSame | ⟨object, -, hNext⟩
  · rw [hSame]
    exact ⟨h, .refl _⟩
  · exact h.retransmitGroup hNext

theorem CutInv.checkRetransmission (h : CutInv s []) (hCheck : s.checkRetransmission env = some t) :
    CutInv t [] ∧ Rests s t := by
  obtain ⟨pass, hRun, rfl⟩ := Option.map_eq_some_iff.mp hCheck
  have hStart : CutInv s.rtxPass.sender [] ∧ Rests s s.rtxPass.sender :=
    ⟨h.same rfl (fun _ _ => rfl) (fun _ _ hGet => removeMissed_get s _ _ hGet) fun _ hIn => hIn,
      rfl, fun _ _ => rfl, rfl, rfl, le_refl _, rfl,
      fun _ _ hGet => removeMissed_kept s s.historyKey s.history hGet⟩
  have hTurns : ∀ (pass : RtxPass) (info : GroupPacketInfo) (next : RtxPass),
      CutInv pass.sender [] ∧ Rests s pass.sender → QueueSender.checkKey env pass info = some next →
        CutInv next.sender [] ∧ Rests s next.sender := by
    rintro pass info next ⟨hCut, hRests⟩ hTurn
    obtain ⟨hNext, hKept⟩ := hCut.checkKey hTurn
    exact ⟨hNext, hRests.trans hKept h⟩
  have hPass := invariant_of_step hTurns hStart hRun
  exact ⟨hPass.1.same rfl (fun _ _ => rfl) (fun _ _ hGet => hGet) fun _ hIn => hIn,
    hPass.2.count, hPass.2.identity, hPass.2.groupId, hPass.2.frameId, hPass.2.now, hPass.2.delayDdl,
    hPass.2.kept⟩

/-! ## A packet leaves the queue -/

/-- The packet as it is put on the wire. -/
def onWire (s : QueueSender) : QueuedPacket → VideoPacket
  | .data object _ => .data (s.objects object).toDataPacket
  | .fec pkt => .fec pkt

theorem CutInv.carries (h : CutInv s []) (hBacked : s.Backed queued) :
    (s.onWire queued).Carries s.HasCut := by
  cases queued with
  | data object made => exact ⟨object, hBacked, h.set object hBacked List.not_mem_nil, rfl⟩
  | fec pkt => exact hBacked

theorem markSent_rests (s : QueueSender) (queued : QueuedPacket) (queue : List QueuedFrame) :
    Rests s { s.markSent queued with queue := queue } := by
  have hIdentity : ∀ object,
      ((s.markSent queued).objects object).identity = (s.objects object).identity := by
    intro object
    cases queued with
    | fec pkt => rfl
    | data first made =>
      obtain rfl | hNe := eq_or_ne object first
      · simp only [markSent, Function.update_self]
        rfl
      · simp only [markSent, Function.update_of_ne hNe]
  cases queued with
  | fec pkt => exact ⟨rfl, fun object _ => hIdentity object, rfl, rfl, le_refl _, rfl, fun _ _ => .inl⟩
  | data first made =>
    exact ⟨rfl, fun object _ => hIdentity object, rfl, rfl, le_refl _, rfl, fun _ _ => .inl⟩

theorem CutInv.sendPacket (h : CutInv s []) : CutInv s.sendPacket [] ∧ Rests s s.sendPacket := by
  rw [QueueSender.sendPacket]
  split
  · exact ⟨h, .refl s⟩
  · next frame queue hQueue =>
    have hRests := markSent_rests s frame.first (dropFirst frame queue)
    refine ⟨h.same hRests.count hRests.identity (fun key object hGet => ?_) fun queued hIn => ?_, hRests⟩
    · cases hFirst : frame.first with
      | data first made =>
        rw [hFirst] at hGet
        exact hGet
      | fec pkt =>
        rw [hFirst] at hGet
        exact hGet
    · rw [InQueue, hQueue]
      rcases inQueue_dropFirst.mp hIn with hRest | ⟨other, hOther, hMem⟩
      · exact ⟨frame, List.mem_cons_self, List.mem_cons_of_mem _ hRest⟩
      · exact ⟨other, List.mem_cons_of_mem _ hOther, hMem⟩

/-! ## Acknowledgements -/

theorem CutInv.rcvAckPacket (h : CutInv s []) (pktInfos : List GroupPacketInfo) :
    CutInv (s.rcvAckPacket pktInfos) [] ∧
      ∀ key, key ∉ pktInfos → (s.rcvAckPacket pktInfos).history.get key = s.history.get key := by
  have hGet : ∀ key, (s.rcvAckPacket pktInfos).history.get key =
      if key ∈ pktInfos then none else s.history.get key :=
    NestedMap.get_foldl_remove s.history pktInfos
  refine ⟨h.same rfl (fun _ _ => rfl) (fun key object hFound => ?_) fun _ hIn => hIn,
    fun key hKey => by rw [hGet, if_neg hKey]⟩
  rw [hGet] at hFound
  split at hFound
  · cases hFound
  · exact hFound

theorem cutInv_create (delayDdl : Time) (netStat : NetStat) : CutInv (create delayDdl netStat) [] where
  stored key object hGet := by cases hGet
  set object hLt := (Nat.not_lt_zero object hLt).elim
  queued queued hQueued := by
    obtain ⟨frame, hFrame, -⟩ := hQueued
    exact absurd hFrame List.not_mem_nil

end QueueSender

end Bullet.Stream
