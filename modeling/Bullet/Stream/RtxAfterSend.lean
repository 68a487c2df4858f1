import Bullet.Stream.RetransmissionCheck
import Bullet.Stream.SendQueue

/-! # Retransmission after transmission

The retransmission check reads the send time of a packet that may never have been sent. As long as the
groups it retransmits have left the queue, every packet is sent before it is sent again, and what waits
in the queue is as it was when its FEC packets were made.
-/

namespace Bullet.Stream

open Lib Lib.PartialRun

/-- When the packet was sent last. -/
def lastSent (object : ℕ) : List SendRecord → Option Time
  | [] => none
  | .sent other time :: record => if other = object then some time else lastSent object record
  | .retransmitted _ _ _ :: record => lastSent object record

/-- Every retransmitted packet had been sent before, and its timeout had passed since then. -/
def SentFirst : List SendRecord → Prop
  | [] => True
  | .sent _ _ :: record => SentFirst record
  | .retransmitted object time timeout :: record =>
    (∃ last, lastSent object record = some last ∧ timeout < time - last) ∧ SentFirst record

namespace QueueSender

variable {env : SenderEnv} {s t : QueueSender} {pass next : RtxPass} {handles : List ℕ}
  {batches : List Batch} {packets : List QueuedPacket} {queued : QueuedPacket} {object : ℕ}

def InQueue (s : QueueSender) (queued : QueuedPacket) : Prop :=
  ∃ frame ∈ s.queue, queued ∈ frame.packets

/-- The waiting data packets still have the fields under which their FEC packets were made. -/
def QueueKept (s : QueueSender) : Prop :=
  ∀ object made, InQueue s (.data object made) → (s.objects object).batchFields = made

structure RtxAfterSend (s : QueueSender) : Prop where
  sentFirst : SentFirst s.record
  kept : s.QueueKept

theorem mem_waiting : object ∈ s.waiting ↔ ∃ made, InQueue s (.data object made) := by
  constructor
  · intro hMem
    obtain ⟨frame, hFrame, hObject⟩ := List.mem_flatMap.mp hMem
    obtain ⟨queued, hQueued, hEq⟩ := List.mem_filterMap.mp hObject
    cases queued with
    | data other made =>
      cases hEq
      exact ⟨made, frame, hFrame, hQueued⟩
    | fec pkt => cases hEq
  · rintro ⟨made, frame, hFrame, hQueued⟩
    exact List.mem_flatMap.mpr ⟨frame, hFrame, List.mem_filterMap.mpr ⟨_, hQueued, rfl⟩⟩

/-! ## The packets of a batch -/

theorem written_of_notMem {objects : ℕ → SentPacket} {l : List (ℕ × SentPacket)}
    (h : object ∉ l.map Prod.fst) : written objects l object = objects object := by
  rw [written, AssocMap.lookup_of_notMem h]
  rfl

theorem written_of_mem {objects : ℕ → SentPacket} {l : List (ℕ × SentPacket)} {pkt : SentPacket}
    (hKeys : (l.map Prod.fst).Nodup) (h : (object, pkt) ∈ l) :
    written objects l object = pkt := by
  have hFind : (AssocMap.mk l hKeys).find object = some pkt := AssocMap.find_of_mem_entries h
  rw [AssocMap.find] at hFind
  rw [written, hFind]
  rfl

theorem zip_append_right {α β : Type*} (l : List α) (m n : List β) :
    l.zip (m ++ n) = l.zip m ++ (l.drop m.length).zip n := by
  induction m generalizing l with
  | nil => rw [List.nil_append, List.zip_nil_right, List.length_nil, List.drop_zero, List.nil_append]
  | cons b m ih =>
    cases l with
    | nil => simp
    | cons a l =>
      rw [List.cons_append, List.zip_cons_cons, List.zip_cons_cons, ih, List.length_cons,
        List.drop_succ_cons, List.cons_append]

theorem mem_queuedPackets {made : BatchFields} :
    QueuedPacket.data object made ∈ queuedPackets handles batches ↔
      ∃ pkt, (object, pkt) ∈ handles.zip (batches.flatMap Batch.data) ∧ pkt.batchFields = made := by
  induction batches generalizing handles with
  | nil => simp [queuedPackets]
  | cons batch batches ih =>
    rw [queuedPackets, List.flatMap_cons, zip_append_right]
    simp only [List.mem_append, ih, List.mem_map, reduceCtorEq, and_false, exists_false, or_false,
      or_and_right, exists_or, QueuedPacket.data.injEq, Prod.exists]
    apply or_congr_left
    constructor
    · rintro ⟨other, pkt, hMem, rfl, hFields⟩
      exact ⟨pkt, hMem, hFields⟩
    · rintro ⟨pkt, hMem, hFields⟩
      exact ⟨object, pkt, hMem, rfl, hFields⟩

theorem inQueue_enqueue (isRtx : Bool) :
    InQueue (s.enqueue isRtx packets) queued ↔ InQueue s queued ∨ queued ∈ packets := by
  cases packets with
  | nil => simp [enqueue]
  | cons first rest =>
    cases isRtx with
    | false => simp [enqueue, InQueue, QueuedFrame.packets, or_and_right, exists_or]
    | true => simp [enqueue, InQueue, QueuedFrame.packets, or_comm]

theorem enqueue_eq (s : QueueSender) (isRtx : Bool) (packets : List QueuedPacket) :
    s.enqueue isRtx packets = { s with queue := (s.enqueue isRtx packets).queue } := by
  cases packets with
  | nil => rfl
  | cons first rest => rfl

theorem handOver_eq (s : QueueSender) (handles : List ℕ) (isRtx : Bool) (sender : Sender)
    (batches : List Batch) :
    s.handOver handles isRtx sender batches = { s with
      sender := sender
      objects := written s.objects (handles.zip (batches.flatMap Batch.data))
      queue := (s.handOver handles isRtx sender batches).queue } :=
  enqueue_eq _ isRtx _

@[simp] theorem history_handOver (isRtx : Bool) (sender : Sender) :
    (s.handOver handles isRtx sender batches).history = s.history := by
  rw [handOver_eq]

@[simp] theorem objectCount_handOver (isRtx : Bool) (sender : Sender) :
    (s.handOver handles isRtx sender batches).objectCount = s.objectCount := by
  rw [handOver_eq]

@[simp] theorem record_handOver (isRtx : Bool) (sender : Sender) :
    (s.handOver handles isRtx sender batches).record = s.record := by
  rw [handOver_eq]

theorem inQueue_handOver (isRtx : Bool) (sender : Sender) :
    InQueue (s.handOver handles isRtx sender batches) queued ↔
      InQueue s queued ∨ queued ∈ queuedPackets handles batches :=
  inQueue_enqueue isRtx

theorem storePackets_spec (s : QueueSender) (handles : List ℕ) :
    ∃ keys history, s.storePackets handles = { s with historyKey := keys, history := history } ∧
      ∀ key object, history.get key = some object →
        s.history.get key = some object ∨ object ∈ handles ∧ (s.objects object).key = key := by
  induction handles generalizing s with
  | nil => exact ⟨s.historyKey, s.history, rfl, fun _ _ h => Or.inl h⟩
  | cons first handles ih =>
    obtain ⟨keys, history, hEq, hGet⟩ := ih (s.storePacket first)
    refine ⟨keys, history, ?_, ?_⟩
    · rw [storePackets, List.foldl_cons, ← storePackets, hEq, storePacket]
      split <;> rfl
    · intro key object hFound
      obtain hOld | ⟨hMem, hKey⟩ := hGet key object hFound
      · rw [storePacket] at hOld
        split at hOld
        · rw [NestedMap.get_put] at hOld
          split at hOld
          · next hEq =>
            cases hOld
            exact Or.inr ⟨List.mem_cons_self, hEq.symm⟩
          · exact Or.inl hOld
        · exact Or.inl hOld
      · refine Or.inr ⟨List.mem_cons_of_mem _ hMem, ?_⟩
        rw [← hKey, storePacket]
        split <;> rfl

/-! ## The invariant -/

/-- The state before the packets `handles` are queued. -/
structure Pending (s : QueueSender) (handles : List ℕ) : Prop where
  stored : ∀ key object, s.history.get key = some object → object < s.objectCount ∧
    (s.objects object).key = key ∧ (s.objects object).groupInfoSet = true
  allocated : ∀ object ∈ s.waiting, object < s.objectCount
  kept : s.QueueKept
  sent : ∀ object < s.objectCount, object ∉ s.waiting → object ∉ handles →
    lastSent object s.record = some (s.objects object).sendTime
  sentFirst : SentFirst s.record

/-- A packet that is not waiting was sent when its send time says. -/
abbrev SendInv (s : QueueSender) : Prop := Pending s []

theorem SendInv.rtxAfterSend (h : SendInv s) : RtxAfterSend s := ⟨h.sentFirst, h.kept⟩

theorem sendInv_create (delayDdl : Time) (netStat : NetStat) : SendInv (create delayDdl netStat) where
  stored := by
    intro key object hGet
    cases hGet
  allocated := fun object hMem => (List.not_mem_nil hMem).elim
  kept := by
    rintro object made ⟨frame, hFrame, -⟩
    exact (List.not_mem_nil hFrame).elim
  sent := fun object hLt => (Nat.not_lt_zero object hLt).elim
  sentFirst := trivial

/-- Packets leave the history, and nothing is queued or sent. -/
theorem SendInv.forget (h : SendInv s)
    (hHistory : ∀ key object, t.history.get key = some object → s.history.get key = some object)
    (hObjects : t.objects = s.objects) (hCount : t.objectCount = s.objectCount)
    (hQueue : t.queue = s.queue) (hRecord : t.record = s.record) : SendInv t := by
  obtain ⟨sender, objects, objectCount, history, keys, queue, record⟩ := t
  cases hObjects
  cases hCount
  cases hQueue
  cases hRecord
  exact ⟨fun key object hGet => h.stored key object (hHistory key object hGet), h.allocated, h.kept,
    h.sent, h.sentFirst⟩

/-- What the packets of a call of `SendPackets` keep of the objects they are made of. -/
def KeepsStored (s : QueueSender) (handles : List ℕ) (data : List SentPacket) : Prop :=
  ∀ entry ∈ handles.zip data, entry.2.groupInfoSet = true ∧
    ∀ key, s.history.get key = some entry.1 → entry.2.key = key

section

variable {data : List SentPacket} {object : ℕ}

theorem exists_entry (hLength : data.length = handles.length) (hMem : object ∈ handles) :
    ∃ pkt, (object, pkt) ∈ handles.zip data := by
  rw [← List.map_fst_zip hLength.ge] at hMem
  obtain ⟨entry, hEntry, rfl⟩ := List.mem_map.mp hMem
  exact ⟨entry.2, hEntry⟩

theorem objects_handOver (s : QueueSender) (hNodup : handles.Nodup)
    (hLength : (batches.flatMap Batch.data).length = handles.length) (isRtx : Bool) (sender : Sender)
    {pkt : SentPacket} (hEntry : (object, pkt) ∈ handles.zip (batches.flatMap Batch.data)) :
    (s.handOver handles isRtx sender batches).objects object = pkt := by
  have hKeys : (handles.zip (batches.flatMap Batch.data)).map Prod.fst = handles :=
    List.map_fst_zip hLength.ge
  rw [handOver_eq]
  exact written_of_mem (hKeys.symm ▸ hNodup) hEntry

theorem objects_handOver_of_notMem (s : QueueSender)
    (hLength : (batches.flatMap Batch.data).length = handles.length) (isRtx : Bool) (sender : Sender)
    (hNot : object ∉ handles) :
    (s.handOver handles isRtx sender batches).objects object = s.objects object := by
  have hKeys : (handles.zip (batches.flatMap Batch.data)).map Prod.fst = handles :=
    List.map_fst_zip hLength.ge
  rw [handOver_eq]
  exact written_of_notMem (hKeys.symm ▸ hNot)

end

/-- The packets are queued with the fields that the batches give them. -/
theorem Pending.handOver (h : Pending s handles) (hNodup : handles.Nodup)
    (hFresh : ∀ object ∈ handles, object < s.objectCount ∧ object ∉ s.waiting)
    (hLength : (batches.flatMap Batch.data).length = handles.length)
    (hData : KeepsStored s handles (batches.flatMap Batch.data)) (isRtx : Bool) (sender : Sender) :
    SendInv (s.handOver handles isRtx sender batches) := by
  have hWaiting : ∀ object, object ∈ (s.handOver handles isRtx sender batches).waiting ↔
      object ∈ s.waiting ∨ object ∈ handles := by
    intro object
    simp only [mem_waiting, inQueue_handOver, exists_or, mem_queuedPackets]
    apply or_congr_right
    constructor
    · rintro ⟨made, pkt, hMem, -⟩
      exact (List.of_mem_zip hMem).1
    · intro hMem
      obtain ⟨pkt, hEntry⟩ := exists_entry hLength hMem
      exact ⟨_, pkt, hEntry, rfl⟩
  constructor
  · intro key object hGet
    rw [history_handOver] at hGet
    rw [objectCount_handOver]
    obtain ⟨hLt, hKey, hSet⟩ := h.stored key object hGet
    by_cases hMem : object ∈ handles
    · obtain ⟨pkt, hEntry⟩ := exists_entry hLength hMem
      obtain ⟨hEntrySet, hEntryKey⟩ := hData _ hEntry
      rw [objects_handOver s hNodup hLength isRtx sender hEntry]
      exact ⟨hLt, hEntryKey key hGet, hEntrySet⟩
    · rw [objects_handOver_of_notMem s hLength isRtx sender hMem]
      exact ⟨hLt, hKey, hSet⟩
  · intro object hMem
    rw [objectCount_handOver]
    exact ((hWaiting object).mp hMem).elim (h.allocated object) fun hNew => (hFresh object hNew).1
  · intro object made hQueued
    obtain hOld | hNew := (inQueue_handOver isRtx sender).mp hQueued
    · have hNot : object ∉ handles := fun hMem =>
        (hFresh object hMem).2 (mem_waiting.mpr ⟨made, hOld⟩)
      rw [objects_handOver_of_notMem s hLength isRtx sender hNot]
      exact h.kept object made hOld
    · obtain ⟨pkt, hMem, hFields⟩ := mem_queuedPackets.mp hNew
      rw [objects_handOver s hNodup hLength isRtx sender hMem]
      exact hFields
  · intro object hLt hNot _
    rw [objectCount_handOver] at hLt
    rw [hWaiting, not_or] at hNot
    rw [record_handOver, objects_handOver_of_notMem s hLength isRtx sender hNot.2]
    exact h.sent object hLt hNot.1 hNot.2
  · rw [record_handOver]
    exact h.sentFirst

theorem SendInv.storePackets (h : SendInv s)
    (hHandles : ∀ object ∈ handles, object < s.objectCount ∧ (s.objects object).groupInfoSet = true) :
    SendInv (s.storePackets handles) := by
  obtain ⟨keys, history, hEq, hGet⟩ := storePackets_spec s handles
  rw [hEq]
  refine ⟨?_, h.allocated, h.kept, h.sent, h.sentFirst⟩
  intro key object hFound
  obtain hOld | ⟨hMem, hKey⟩ := hGet key object hFound
  · exact h.stored key object hOld
  · exact ⟨(hHandles object hMem).1, hKey, (hHandles object hMem).2⟩

theorem Pending.sendPackets {ddlLeft : Time} {frameId : UInt32} {isRtx : Bool} (h : Pending s handles)
    (hNodup : handles.Nodup) (hFresh : ∀ object ∈ handles, object < s.objectCount ∧ object ∉ s.waiting)
    (hData : ∀ batches sender,
      s.sender.sendPackets env (handles.map s.objects) ddlLeft frameId isRtx = some (batches, sender) →
      (batches.flatMap Batch.data).length = handles.length ∧
        KeepsStored s handles (batches.flatMap Batch.data))
    (hSend : s.sendPackets env handles ddlLeft frameId isRtx = some t) : SendInv t := by
  obtain ⟨⟨batches, sender⟩, hSender, rfl⟩ := Option.map_eq_some_iff.mp hSend
  obtain ⟨hLength, hKeeps⟩ := hData batches sender hSender
  have hQueued := h.handOver hNodup hFresh hLength hKeeps isRtx sender
  cases isRtx with
  | true => exact hQueued
  | false =>
    apply hQueued.storePackets
    intro object hMem
    rw [objectCount_handOver]
    refine ⟨(hFresh object hMem).1, ?_⟩
    obtain ⟨pkt, hEntry⟩ := exists_entry hLength hMem
    rw [objects_handOver s hNodup hLength false sender hEntry]
    exact (hKeeps _ hEntry).1

/-! ## A new frame -/

theorem Pending.allocate {frameId : UInt32} {dataPktNum : UInt16} (h : SendInv s)
    (pkts : List SentPacket) :
    Pending (s.allocate frameId dataPktNum pkts) (List.range' s.objectCount pkts.length) := by
  have hOld : ∀ object < s.objectCount,
      (s.allocate frameId dataPktNum pkts).objects object = s.objects object := by
    intro object hLt
    apply written_of_notMem
    intro hMem
    obtain ⟨entry, hEntry, rfl⟩ := List.mem_map.mp hMem
    have hGe := (List.mem_range'_1.mp (List.of_mem_zip hEntry).1).1
    omega
  constructor
  · intro key object hGet
    obtain ⟨hLt, hKey, hSet⟩ := h.stored key object hGet
    rw [hOld object hLt]
    exact ⟨Nat.lt_add_right _ hLt, hKey, hSet⟩
  · intro object hMem
    exact Nat.lt_add_right _ (h.allocated object hMem)
  · intro object made hQueued
    rw [hOld object (h.allocated object (mem_waiting.mpr ⟨made, hQueued⟩))]
    exact h.kept object made hQueued
  · intro object hLt hNot hNew
    have hLtOld : object < s.objectCount := by
      by_contra hGe
      exact hNew (List.mem_range'_1.mpr ⟨not_lt.mp hGe, hLt⟩)
    rw [hOld object hLtOld]
    exact h.sent object hLtOld hNot List.not_mem_nil
  · exact h.sentFirst

theorem SendInv.createFrame {fuel : Nat} {frameId : UInt32} {pktId maxPayload dataPktNum : UInt16}
    {dataSize : UInt32} (h : SendInv s)
    (hFrame : s.createFrame env fuel frameId pktId maxPayload dataPktNum dataSize = some t) :
    SendInv t := by
  obtain ⟨pkts, -, hRest⟩ := Option.bind_eq_some_iff.mp hFrame
  split at hRest
  · cases hRest
  · apply (Pending.allocate h pkts).sendPackets List.nodup_range' ?_ ?_ hRest
    · intro object hMem
      obtain ⟨hGe, hLt⟩ := List.mem_range'_1.mp hMem
      exact ⟨hLt, fun hWaits => absurd (h.allocated object hWaits) (not_lt.mpr hGe)⟩
    · intro batches sender hSend
      have hFind : (s.allocate frameId dataPktNum pkts).sender.frameDataPktCnt.find frameId =
          some dataPktNum.toUInt8 := by
        rw [QueueSender.allocate, AssocMap.find_set, if_pos rfl]
      by_cases hSize : ((s.allocate frameId dataPktNum pkts).sender.firstParam env
          ((List.range' s.objectCount pkts.length).map
            (s.allocate frameId dataPktNum pkts).objects).length
          (s.sender.delayDdl - pkts.length * s.sender.netStat.oneWayDispersion)
          dataPktNum.toUInt8).fecGroupSize = 0
      · rw [Sender.sendPackets_zero env hFind hSize] at hSend
        cases hSend
      · obtain ⟨made, inputs, hMade, hGroups, -⟩ := Sender.sendPackets_spec env hFind hSize
        rw [hMade] at hSend
        cases hSend
        have hQueued := hGroups.enqueued (s.allocate frameId dataPktNum pkts).sender.now
        constructor
        · have hCount := congrArg List.length
            (hQueued.map_data (f := fun _ => ()) fun _ _ _ => rfl)
          simpa using hCount
        · intro entry hMem
          refine ⟨hQueued.forall_data (p := fun pkt => pkt.groupInfoSet = true)
            (fun _ _ _ _ => rfl) _ (List.of_mem_zip hMem).2, ?_⟩
          intro key hGet
          have hOld := (h.stored key entry.1 hGet).1
          have hGe := (List.mem_range'_1.mp (List.of_mem_zip hMem).1).1
          omega

/-! ## A retransmission -/

theorem lastSent_append_retransmitted (record : List SendRecord) (now : Time) (timeout : ℕ → Time) :
    lastSent object ((handles.map fun other => .retransmitted other now (timeout other)) ++ record) =
      lastSent object record := by
  induction handles with
  | nil => rfl
  | cons first handles ih => exact ih

theorem sentFirst_append_retransmitted {record : List SendRecord} {now : Time} {timeout : ℕ → Time}
    (hRecord : SentFirst record) (hHandles : ∀ object ∈ handles, ∃ last,
      lastSent object record = some last ∧ timeout object < now - last) :
    SentFirst ((handles.map fun object => .retransmitted object now (timeout object)) ++ record) := by
  induction handles with
  | nil => exact hRecord
  | cons first handles ih =>
    rw [List.map_cons, List.cons_append, SentFirst, lastSent_append_retransmitted]
    exact ⟨hHandles first List.mem_cons_self,
      ih fun object hMem => hHandles object (List.mem_cons_of_mem _ hMem)⟩

/-- The packet has left the queue, and its retransmission timeout has passed since. -/
def SentLongAgo (s : QueueSender) (object : ℕ) : Prop :=
  object ∉ s.waiting ∧ s.sender.isRtxTimeout (s.objects object) = true

instance (object : ℕ) : Decidable (SentLongAgo s object) := by
  unfold SentLongAgo
  infer_instance

theorem Pending.renew (h : SendInv s) (txCount : UInt8)
    (hHandles : ∀ object ∈ handles, object < s.objectCount ∧ SentLongAgo s object) :
    Pending (s.renew handles txCount) handles := by
  constructor
  · intro key object hGet
    obtain ⟨hLt, hKey, hSet⟩ := h.stored key object hGet
    refine ⟨hLt, ?_⟩
    simp only [QueueSender.renew]
    split
    · exact ⟨hKey, hSet⟩
    · exact ⟨hKey, hSet⟩
  · exact h.allocated
  · intro object made hQueued
    have hNot : object ∉ handles := fun hMem =>
      (hHandles object hMem).2.1 (mem_waiting.mpr ⟨made, hQueued⟩)
    simp only [QueueSender.renew, if_neg hNot]
    exact h.kept object made hQueued
  · intro object hLt hNot hNew
    simp only [QueueSender.renew, if_neg hNew, lastSent_append_retransmitted]
    exact h.sent object hLt hNot List.not_mem_nil
  · apply sentFirst_append_retransmitted h.sentFirst
    intro object hMem
    obtain ⟨hLt, hNot, hTimeout⟩ := hHandles object hMem
    exact ⟨_, h.sent object hLt hNot List.not_mem_nil, Sender.lt_of_isRtxTimeout hTimeout⟩

theorem key_of_mem_zip {objects : ℕ → SentPacket} {info : BatchInfo} {time : Time}
    {entry : ℕ × SentPacket}
    (h : entry ∈ handles.zip ((((handles.map objects).mapIdx (Sender.restamp info 0)).map
      (SentPacket.setEnqueueTime time)))) :
    entry.2.key = (objects entry.1).key ∧
      entry.2.groupInfoSet = (objects entry.1).groupInfoSet := by
  obtain ⟨i, hLt, rfl⟩ := List.mem_iff_getElem.mp h
  simp only [List.getElem_zip, List.getElem_map, List.getElem_mapIdx]
  exact ⟨rfl, rfl⟩

/-- The packets of one group, sent again, are stored as before. -/
theorem Pending.keepsStored {groupId frameId : UInt32} {ddlLeft : Time} {sender : Sender}
    (h : Pending s handles)
    (hStored : ∀ object ∈ handles, ∃ id, s.history.get (groupId, id) = some object)
    (hSend : s.sender.sendPackets env (handles.map s.objects) ddlLeft frameId true =
      some (batches, sender)) :
    (batches.flatMap Batch.data).length = handles.length ∧
      KeepsStored s handles (batches.flatMap Batch.data) := by
  have hOld : ∀ object ∈ handles, (s.objects object).groupInfoSet = true ∧
      (s.objects object).groupId = groupId := by
    intro object hMem
    obtain ⟨id, hGet⟩ := hStored object hMem
    obtain ⟨-, hKey, hSet⟩ := h.stored _ object hGet
    exact ⟨hSet, congrArg Prod.fst hKey⟩
  cases handles with
  | nil =>
    cases hSend
    exact ⟨rfl, fun entry hMem => (List.not_mem_nil hMem).elim⟩
  | cons first others =>
    have hGroup : ∀ pkt ∈ (first :: others).map s.objects,
        pkt.groupInfoSet = true ∧ pkt.groupId = (s.objects first).groupId := by
      intro pkt hMem
      obtain ⟨object, hObject, rfl⟩ := List.mem_map.mp hMem
      obtain ⟨hSet, hId⟩ := hOld object hObject
      exact ⟨hSet, hId.trans (hOld first List.mem_cons_self).2.symm⟩
    obtain ⟨frameSize, info, batch, input, -, -, rfl, rfl, -⟩ :=
      Sender.sendPackets_rtx_cases hGroup hSend
    rw [List.flatMap_singleton]
    constructor
    · simp [Batch.setEnqueueTime, Sender.batchOf]
    · intro entry hMem
      obtain ⟨hKey, hSet⟩ := key_of_mem_zip hMem
      refine ⟨hSet.trans (hOld entry.1 (List.of_mem_zip hMem).1).1, ?_⟩
      intro key hGet
      exact hKey.trans (h.stored key entry.1 hGet).2.1

theorem SendInv.retransmitGroup {groupId : UInt32} (h : SendInv s)
    (hSent : ∀ group ∈ s.history.find groupId, ∀ entry ∈ group.entries, SentLongAgo s entry.2)
    (hRtx : s.retransmitGroup env groupId = some t) : SendInv t := by
  rw [QueueSender.retransmitGroup] at hRtx
  split at hRtx
  · cases hRtx
    exact h
  · next group hFind =>
    have hGet : ∀ id object, group.find id = some object →
        s.history.get (groupId, id) = some object := by
      intro id object hEntry
      rw [NestedMap.get, hFind]
      exact hEntry
    have hPerm := env.walk_perm (group.entries.map fun entry => (entry.1, s.objects entry.2))
    split at hRtx
    · cases hRtx
      exact h
    · next front tail hWalk =>
      have hIds : ((front :: tail).map Prod.fst).Nodup := by
        rw [← hWalk, (hPerm.map Prod.fst).nodup_iff, List.map_map]
        exact group.nodup
      -- An object is stored under its own ids, so no two ids of the group lead to it.
      have hNodup : (((front :: tail).map Prod.fst).filterMap group.find).Nodup := by
        apply hIds.filterMap
        intro id id' object hId hId'
        have hKey := (h.stored _ _ (hGet id object hId)).2.1
        have hKey' := (h.stored _ _ (hGet id' object hId')).2.1
        exact congrArg Prod.snd (hKey.symm.trans hKey')
      have hStored : ∀ object ∈ ((front :: tail).map Prod.fst).filterMap group.find,
          ∃ id, s.history.get (groupId, id) = some object ∧ SentLongAgo s object := by
        intro object hMem
        obtain ⟨id, -, hEntry⟩ := List.mem_filterMap.mp hMem
        exact ⟨id, hGet id object hEntry,
          hSent group hFind (id, object) (AssocMap.mem_entries_of_find hEntry)⟩
      have hOld : ∀ object ∈ ((front :: tail).map Prod.fst).filterMap group.find,
          object < s.objectCount ∧ SentLongAgo s object := by
        intro object hMem
        obtain ⟨id, hEntry, hAgo⟩ := hStored object hMem
        exact ⟨(h.stored _ object hEntry).1, hAgo⟩
      have hPending := Pending.renew h (front.2.txCount + 1) hOld
      apply hPending.sendPackets hNodup ?_ ?_ hRtx
      · exact fun object hMem => ⟨(hOld object hMem).1, (hOld object hMem).2.1⟩
      · intro batches sender hSend
        have hGroup : ∀ object ∈ ((front :: tail).map Prod.fst).filterMap group.find,
            ∃ id, s.history.get (groupId, id) = some object := by
          intro object hMem
          obtain ⟨id, hEntry, -⟩ := hStored object hMem
          exact ⟨id, hEntry⟩
        exact hPending.keepsStored hGroup hSend

/-! ## A packet leaves the queue -/

theorem inQueue_dropFirst {frame : QueuedFrame} {queue : List QueuedFrame} :
    (∃ other ∈ dropFirst frame queue, queued ∈ other.packets) ↔
      queued ∈ frame.rest ∨ ∃ other ∈ queue, queued ∈ other.packets := by
  rw [dropFirst]
  cases frame.rest with
  | nil => simp
  | cons next rest => simp [QueuedFrame.packets]

/-- A packet that leaves the queue is sent, and what waits is what waited behind it. -/
theorem SendInv.leave {frame : QueuedFrame} {queue : List QueuedFrame} (h : SendInv s)
    (hQueue : s.queue = frame :: queue) :
    SendInv { s.markSent frame.first with queue := dropFirst frame queue } := by
  have hInQueue : ∀ queued, InQueue s queued ↔ queued = frame.first ∨
      ∃ other ∈ dropFirst frame queue, queued ∈ other.packets := by
    intro queued
    rw [inQueue_dropFirst, InQueue, hQueue]
    simp [QueuedFrame.packets, or_assoc]
  have hWaiting : ∀ object, object ∈ s.waiting ↔ frame.first.object = some object ∨
      object ∈ ({ s.markSent frame.first with queue := dropFirst frame queue } : QueueSender).waiting := by
    intro object
    simp only [mem_waiting, hInQueue, exists_or]
    apply or_congr_left
    cases frame.first with
    | data first made => simp [QueuedPacket.object, eq_comm]
    | fec pkt => simp [QueuedPacket.object]
  cases hFirst : frame.first with
  | fec pkt =>
    rw [hFirst] at hInQueue hWaiting
    refine ⟨h.stored, fun object hMem => h.allocated object ((hWaiting object).mpr (Or.inr hMem)),
      fun object made hLeft => h.kept object made ((hInQueue _).mpr (Or.inr hLeft)), ?_, h.sentFirst⟩
    intro object hLt hNot _
    refine h.sent object hLt (fun hMem => hNot ?_) List.not_mem_nil
    exact ((hWaiting object).mp hMem).resolve_left (by simp [QueuedPacket.object])
  | data first firstMade =>
    rw [hFirst] at hInQueue hWaiting
    have hOther : ∀ object, object ≠ first →
        (s.markSent (.data first firstMade)).objects object = s.objects object :=
      fun object hNe => Function.update_of_ne hNe _ _
    have hThis : (s.markSent (.data first firstMade)).objects first =
        { s.objects first with sendTime := s.sender.now } :=
      Function.update_self first _ _
    constructor
    · intro key object hGet
      obtain ⟨hLt, hKey, hSet⟩ := h.stored key object hGet
      refine ⟨hLt, ?_⟩
      obtain rfl | hNe := eq_or_ne object first
      · simp only [hThis]
        exact ⟨hKey, hSet⟩
      · simp only [hOther object hNe]
        exact ⟨hKey, hSet⟩
    · exact fun object hMem => h.allocated object ((hWaiting object).mpr (Or.inr hMem))
    · intro object made hLeft
      have hKept := h.kept object made ((hInQueue _).mpr (Or.inr hLeft))
      obtain rfl | hNe := eq_or_ne object first
      · simp only [hThis]
        exact hKept
      · simp only [hOther object hNe]
        exact hKept
    · intro object hLt hNot _
      obtain rfl | hNe := eq_or_ne object first
      · simp only [markSent, lastSent, if_true, Function.update_self]
      · have hOld : object ∉ s.waiting := by
          rw [hWaiting, not_or]
          exact ⟨fun hEq => hNe (Option.some.inj hEq).symm, hNot⟩
        simp only [markSent, lastSent, if_neg hNe.symm, Function.update_of_ne hNe]
        exact h.sent object hLt hOld List.not_mem_nil
    · exact h.sentFirst

theorem SendInv.sendPacket (h : SendInv s) : SendInv s.sendPacket := by
  rw [QueueSender.sendPacket]
  split
  · exact h
  · next frame queue hQueue => exact h.leave hQueue

/-! ## The check -/

theorem removeMissed_get (s : QueueSender) (keys : List GroupPacketInfo)
    (history : NestedMap UInt32 UInt16 ℕ) {key : GroupPacketInfo}
    (hGet : (s.removeMissed keys history).2.get key = some object) :
    history.get key = some object := by
  induction keys generalizing history with
  | nil => exact hGet
  | cons info keys ih =>
    rw [removeMissed] at hGet
    split at hGet
    · exact ih history hGet
    · split at hGet
      · have hLeft := ih _ hGet
        rw [NestedMap.get_remove] at hLeft
        split at hLeft
        · cases hLeft
        · exact hLeft
      · exact hGet

/-- The turn of the loop at `info` retransmits the group of `object`. -/
structure Retransmits (pass : RtxPass) (info : GroupPacketInfo) (object : ℕ) : Prop where
  running : pass.stopped = false
  found : pass.sender.history.get info = some object
  reached : pass.sender.sender.netStat.minRtt ≤
    pass.sender.sender.now - (pass.sender.objects object).encodeTime
  fresh : (pass.sender.objects object).groupId ∉ pass.rtxGroupId
  timeout : pass.sender.sender.isRtxTimeout (pass.sender.objects object) = true

instance (info : GroupPacketInfo) : Decidable (Retransmits pass info object) :=
  decidable_of_iff (pass.stopped = false ∧ pass.sender.history.get info = some object ∧
      pass.sender.sender.netStat.minRtt ≤
        pass.sender.sender.now - (pass.sender.objects object).encodeTime ∧
      (pass.sender.objects object).groupId ∉ pass.rtxGroupId ∧
      pass.sender.sender.isRtxTimeout (pass.sender.objects object) = true)
    ⟨fun h => ⟨h.1, h.2.1, h.2.2.1, h.2.2.2.1, h.2.2.2.2⟩,
      fun h => ⟨h.running, h.found, h.reached, h.fresh, h.timeout⟩⟩

theorem checkKey_cases {info : GroupPacketInfo} (h : checkKey env pass info = some next) :
    next.sender = pass.sender ∨
    ∃ object, Retransmits pass info object ∧
      pass.sender.retransmitGroup env (pass.sender.objects object).groupId = some next.sender := by
  rw [checkKey] at h
  cases hStopped : pass.stopped with
  | true =>
    rw [hStopped, if_pos rfl] at h
    cases h
    exact Or.inl rfl
  | false =>
    rw [hStopped, if_neg Bool.false_ne_true] at h
    cases hGet : pass.sender.history.get info with
    | none =>
      simp only [hGet] at h
      cases h
      exact Or.inl rfl
    | some object =>
      simp only [hGet] at h
      split at h
      · cases h
        exact Or.inl rfl
      · next hReached =>
        split at h
        · cases h
          exact Or.inl rfl
        · next hFresh =>
          split at h
          · next hTimeout =>
            obtain ⟨sender, hRtx, rfl⟩ := Option.map_eq_some_iff.mp h
            exact Or.inr ⟨object, ⟨hStopped, hGet, not_lt.mp hReached, hFresh, hTimeout⟩, hRtx⟩
          · cases h
            exact Or.inl rfl

/-- A turn of the loop that retransmits a group finds all its packets sent and timed out. -/
def TurnAfterSend (pass : RtxPass) (info : GroupPacketInfo) : Prop :=
  ∀ object ∈ pass.sender.history.get info, Retransmits pass info object →
    ∀ group ∈ pass.sender.history.find (pass.sender.objects object).groupId,
      ∀ entry ∈ group.entries, SentLongAgo pass.sender entry.2

instance (info : GroupPacketInfo) : Decidable (TurnAfterSend pass info) := by
  unfold TurnAfterSend
  infer_instance

theorem SendInv.checkKey {info : GroupPacketInfo} (h : SendInv pass.sender)
    (hSent : TurnAfterSend pass info) (hTurn : checkKey env pass info = some next) :
    SendInv next.sender := by
  obtain hSame | ⟨object, hRtx, hNext⟩ := checkKey_cases hTurn
  · rw [hSame]
    exact h
  · exact h.retransmitGroup (hSent object hRtx.found hRtx) hNext

theorem SendInv.checkRetransmission (h : SendInv s)
    (hSent : StepsMeet (QueueSender.checkKey env) TurnAfterSend s.rtxPass s.rtxPass.sender.historyKey)
    (hCheck : s.checkRetransmission env = some t) : SendInv t := by
  obtain ⟨pass, hRun, rfl⟩ := Option.map_eq_some_iff.mp hCheck
  have hStart : SendInv s.rtxPass.sender :=
    h.forget (fun _ _ hGet => removeMissed_get s _ _ hGet) rfl rfl rfl rfl
  have hPass : SendInv pass.sender :=
    @invariant_of_run _ _ _ _ _ _ (fun pass => SendInv pass.sender)
      (fun _ _ _ hInv hTurnSent hTurn => hInv.checkKey hTurnSent hTurn) _ hStart hSent hRun
  exact hPass.forget (fun _ _ hGet => hGet) rfl rfl rfl rfl

/-! ## Runs -/

/-- The check retransmits groups whose packets have all been sent and timed out. -/
def AfterSend (env : SenderEnv) (s : QueueSender) : Event → Prop
  | .checkRetransmission =>
    StepsMeet (checkKey env) TurnAfterSend s.rtxPass s.rtxPass.sender.historyKey
  | _ => True

instance : DecidablePred (AfterSend env s)
  | .checkRetransmission => inferInstanceAs (Decidable (StepsMeet (checkKey env) TurnAfterSend
      s.rtxPass s.rtxPass.sender.historyKey))
  | .wait _ => isTrue trivial
  | .sendFrame _ => isTrue trivial
  | .sendPacket => isTrue trivial
  | .rcvAck _ => isTrue trivial
  | .setNetStat _ => isTrue trivial

theorem SendInv.step {event : Event} (h : SendInv s) (hAfter : AfterSend env s event)
    (hStep : s.step env event = some t) : SendInv t := by
  cases event with
  | wait delay =>
    cases hStep
    exact h.forget (fun _ _ hGet => hGet) rfl rfl rfl rfl
  | sendFrame dataSize =>
    simp only [QueueSender.step, sendFrame] at hStep
    split at hStep
    · cases hStep
      exact h
    · exact (h.forget (t := { s with sender := { s.sender with frameId := s.sender.frameId + 1 } })
        (fun _ _ hGet => hGet) rfl rfl rfl rfl).createFrame hStep
  | sendPacket =>
    cases hStep
    exact h.sendPacket
  | rcvAck pktInfos =>
    cases hStep
    refine h.forget (fun key object hGet => ?_) rfl rfl rfl rfl
    have hFound := (NestedMap.get_foldl_remove s.history pktInfos key).symm.trans hGet
    split at hFound
    · cases hFound
    · exact hFound
  | checkRetransmission => exact h.checkRetransmission hAfter hStep
  | setNetStat netStat =>
    cases hStep
    exact h.forget (fun _ _ hGet => hGet) rfl rfl rfl rfl

/-- In a run whose checks retransmit only what has been sent and timed out, no packet is retransmitted
before it is sent or too early, and what waits to be sent stays as it was queued. -/
theorem rtxAfterSend_of_run {delayDdl : Time} {netStat : NetStat} {events : List Event}
    (hAfter : StepsMeet (QueueSender.step env) (AfterSend env) (create delayDdl netStat) events)
    (hRun : run (QueueSender.step env) (create delayDdl netStat) events = some t) :
    RtxAfterSend t := by
  have hInv : SendInv t := invariant_of_run
    (fun _ _ _ (hInv : SendInv _) hOk hStep => hInv.step hOk hStep) (sendInv_create delayDdl netStat) hAfter hRun
  exact hInv.rtxAfterSend

/-- What the sender knows of the network when it starts. -/
def startStat : NetStat := ⟨50000000, 50000000, 12000, 0⟩

/-- A frame of two packets is sent, and sent again after its timeout of 98 ms. -/
theorem rtxAfterSend_two_packets :
    ∃ t, run (QueueSender.step (.constant 2 0)) (create 200000000 startStat)
        [.wait 50000000, .sendFrame 2000, .sendPacket, .sendPacket, .wait 98000001,
          .checkRetransmission] = some t ∧
      t.record ≠ [] ∧ RtxAfterSend t := by
  have hRecord : (run (QueueSender.step (.constant 2 0)) (create 200000000 startStat)
      [.wait 50000000, .sendFrame 2000, .sendPacket, .sendPacket, .wait 98000001,
        .checkRetransmission]).map (fun t => t.record) =
      some [.retransmitted 0 148000001 98000000, .retransmitted 1 148000001 98000000,
        .sent 1 50000000, .sent 0 50000000] := by
    decide +kernel
  obtain ⟨t, hRun, hSent⟩ := Option.map_eq_some_iff.mp hRecord
  refine ⟨t, hRun, ?_, rtxAfterSend_of_run (by decide +kernel) hRun⟩
  rw [hSent]
  exact List.cons_ne_nil _ _

/-- The frame still waits in the queue after 60 ms. Its send times are zero, so the check takes it for
lost, and its packets get another number and another batch where they wait. -/
theorem unsent_packet_retransmitted :
    ∃ t, run (QueueSender.step (.constant 2 1)) (create 200000000 startStat)
        [.wait 50000000, .sendFrame 2000, .wait 60000000, .checkRetransmission] = some t ∧
      ¬SentFirst t.record ∧ ¬t.QueueKept := by
  have hState : (run (QueueSender.step (.constant 2 1)) (create 200000000 startStat)
      [.wait 50000000, .sendFrame 2000, .wait 60000000, .checkRetransmission]).map
        (fun t => (t.record, (t.objects 0).batchFields,
          decide (.data 0 ⟨0, 0, 2, 1, 0⟩ ∈ t.queue.flatMap QueuedFrame.packets))) =
      some ([.retransmitted 0 110000000 98000000, .retransmitted 1 110000000 98000000],
        ⟨1, 1, 2, 1, 0⟩, true) := by
    decide +kernel
  obtain ⟨t, hRun, hEq⟩ := Option.map_eq_some_iff.mp hState
  rw [Prod.mk.injEq, Prod.mk.injEq, decide_eq_true_iff] at hEq
  obtain ⟨hRecord, hFields, hQueued⟩ := hEq
  refine ⟨t, hRun, ?_, ?_⟩
  · rw [hRecord]
    rintro ⟨⟨last, hLast, -⟩, -⟩
    cases hLast
  · intro hKept
    obtain ⟨frame, hFrame, hPacket⟩ := List.mem_flatMap.mp hQueued
    have hMade := hKept 0 ⟨0, 0, 2, 1, 0⟩ ⟨frame, hFrame, hPacket⟩
    rw [hFields] at hMade
    exact absurd hMade (by decide)

end QueueSender
end Bullet.Stream
