import Bullet.Stream.RetransmissionCheck

/-! # The sender's history over whole runs

The packets stored for retransmission are the ones sent and not acknowledged, for as long as they
keep their deadline, as long as no group id is given to a new group while the key queue holds it.
-/

namespace Bullet.Stream

open Lib Lib.PartialRun

namespace Sender

variable {env : SenderEnv} {s t u : Sender} {history : NestedMap UInt32 UInt16 SentPacket}
  {pkts : List SentPacket} {batches : List Batch} {event : SenderEvent}

/-! ## Storing the packets of a frame -/

theorem get_foldl_put_key (history : NestedMap UInt32 UInt16 SentPacket) (pkts : List SentPacket)
    (key : GroupPacketInfo) :
    (∃ pkt ∈ pkts, pkt.key = key ∧
        (pkts.foldl (fun m pkt => m.put pkt.key pkt) history).get key = some pkt) ∨
      key ∉ pkts.map SentPacket.key ∧
        (pkts.foldl (fun m pkt => m.put pkt.key pkt) history).get key = history.get key := by
  induction pkts generalizing history with
  | nil => exact Or.inr ⟨List.not_mem_nil, rfl⟩
  | cons pkt pkts ih =>
    rw [List.foldl_cons]
    obtain ⟨other, hMem, hKey, hGet⟩ | ⟨hNotMem, hGet⟩ := ih (history.put pkt.key pkt)
    · exact Or.inl ⟨other, List.mem_cons_of_mem pkt hMem, hKey, hGet⟩
    · rw [NestedMap.get_put] at hGet
      by_cases hKey : key = pkt.key
      · rw [if_pos hKey] at hGet
        exact Or.inl ⟨pkt, List.mem_cons_self, hKey.symm, hGet⟩
      · rw [if_neg hKey] at hGet
        refine Or.inr ⟨?_, hGet⟩
        rw [List.map_cons, List.mem_cons, not_or]
        exact ⟨hKey, hNotMem⟩

theorem noEmpty_foldl_put_key (h : history.NoEmpty) :
    (pkts.foldl (fun m pkt => m.put pkt.key pkt) history).NoEmpty := by
  induction pkts generalizing history with
  | nil => exact h
  | cons pkt pkts ih => exact ih (NestedMap.noEmpty_put h pkt.key pkt)

theorem Groups.groupId_mem {groupId : UInt32} (h : Groups groupId pkts batches) {pkt : SentPacket}
    (hMem : pkt ∈ batches.flatMap Batch.data) : pkt.groupId ∈ groupIds groupId batches.length := by
  induction batches generalizing groupId pkts with
  | nil => cases hMem
  | cons batch batches ih =>
    obtain ⟨chunk, rest, info, rfl, hFirst, hRest⟩ := h
    rw [List.length_cons, groupIds_succ, List.mem_cons]
    rw [List.flatMap_cons, List.mem_append] at hMem
    obtain hMem | hMem := hMem
    · obtain ⟨i, hLt, rfl⟩ := hFirst.mem_data hMem
      exact Or.inl hFirst.infoGroupId
    · exact Or.inr (ih hRest hMem)

/-- A frame of fewer than 2^32 groups does not use a key twice. -/
theorem Groups.nodup_keys {groupId : UInt32} (h : Groups groupId pkts batches)
    (hLength : batches.length ≤ 2 ^ 32) :
    ((batches.flatMap Batch.data).map SentPacket.key).Nodup := by
  induction batches generalizing groupId pkts with
  | nil => exact List.nodup_nil
  | cons batch batches ih =>
    obtain ⟨chunk, rest, info, rfl, hFirst, hRest⟩ := h
    have hIds := nodup_groupIds groupId hLength
    rw [List.length_cons, groupIds_succ] at hIds
    rw [List.length_cons] at hLength
    rw [List.flatMap_cons, List.map_append, List.nodup_append]
    refine ⟨?_, ih hRest (by omega), ?_⟩
    · -- Within a group the keys differ in the id in the group.
      have hNats : (batch.data.map fun pkt => pkt.pktIdInGroup.toNat).Nodup := by
        rw [hFirst.counted.ids]
        exact List.nodup_range
      apply List.Nodup.of_map (fun key => key.2.toNat)
      rw [List.map_map]
      exact hNats
    · rintro key hKey key' hKey' rfl
      obtain ⟨pkt, hPkt, rfl⟩ := List.mem_map.mp hKey
      obtain ⟨pkt', hPkt', hEq⟩ := List.mem_map.mp hKey'
      obtain ⟨i, hLt, rfl⟩ := hFirst.mem_data hPkt
      have hGroup := hRest.groupId_mem hPkt'
      have hSame : pkt'.groupId = info.groupId := congrArg Prod.fst hEq
      rw [hSame, hFirst.infoGroupId] at hGroup
      exact (List.nodup_cons.mp hIds).1 hGroup

/-! ## One event -/

/-- The ids that the groups of a frame of `dataSize` bytes are given. -/
def newGroupIds (env : SenderEnv) (s : Sender) (dataSize : UInt32) : List UInt32 :=
  match dataPackets s.now s.frameId dataPktMaxPayload (dataPktNum dataSize) dataSize
    (dataSize.toNat + 1) 0 0 with
  | none => []
  | some pkts => groupIds s.groupId (groupCount (s.firstParam env pkts.length
      (s.frameDdlLeft pkts.length) (dataPktNum dataSize).toUInt8) pkts.length)

/-- No group of a new frame is given an id that the key queue still holds. -/
def FreshIds (env : SenderEnv) (s : Sender) : SenderEvent → Prop
  | .sendFrame dataSize => ∀ key ∈ s.dataPktHistoryKey, key.1 ∉ newGroupIds env s dataSize
  | _ => True

instance : DecidablePred (FreshIds env s)
  | .sendFrame dataSize =>
    List.decidableBAll (fun key : GroupPacketInfo => key.1 ∉ newGroupIds env s dataSize)
      s.dataPktHistoryKey
  | .wait _ => isTrue trivial
  | .rcvAck _ => isTrue trivial
  | .checkRetransmission => isTrue trivial
  | .packetSent _ => isTrue trivial
  | .setNetStat _ => isTrue trivial

/-- The event acknowledges `key`. -/
def Acks (event : SenderEvent) (key : GroupPacketInfo) : Prop :=
  ∃ pktInfos, event = .rcvAck pktInfos ∧ key ∈ pktInfos

/-- `pkt` is one of the data packets handed over from `t` to `u`. -/
def Hands (t u : Sender) (pkt : DataPacket) : Prop :=
  ∃ frame ∈ u.traffic.drop t.traffic.length, VideoPacket.data pkt ∈ frame.packets

/-- What an event does to the history: it keeps every packet that is on time and not acknowledged,
and it adds only packets that it hands over for the first time. -/
structure HistoryStep (s : Sender) (event : SenderEvent) (t : Sender) : Prop where
  inv : QueueInv t
  now : s.now ≤ t.now
  delayDdl : t.delayDdl = s.delayDdl
  keeps : ∀ key pkt, s.dataPktHistory.get key = some pkt → ¬Acks event key →
    s.missesDdl pkt = false → ∃ left, t.dataPktHistory.get key = some left ∧
      left.identity = pkt.identity
  source : ∀ key left, t.dataPktHistory.get key = some left →
    (∃ pkt, s.dataPktHistory.get key = some pkt ∧ left.identity = pkt.identity ∧ ¬Acks event key) ∨
    ∃ dataSize, event = .sendFrame dataSize ∧ Hands s t left.toDataPacket

/-- An event that leaves the stored packets and the queue as they are. -/
theorem historyStep_of_sameStored (hInv : QueueInv s)
    (hSame : SameStored s.dataPktHistory t.dataPktHistory) (hNoEmpty : t.dataPktHistory.NoEmpty)
    (hKeys : t.dataPktHistoryKey = s.dataPktHistoryKey) (hNow : s.now ≤ t.now)
    (hDdl : t.delayDdl = s.delayDdl) (hEvent : ∀ key, ¬Acks event key) : HistoryStep s event t where
  inv := hInv.shrinks hSame.shrinks hNoEmpty (hKeys ▸ List.Sublist.refl _)
    (fun _ hMem _ => hKeys ▸ hMem) hNow
  now := hNow
  delayDdl := hDdl
  keeps := by
    intro key pkt hGet _ _
    have hKey := hSame key
    rw [hGet, Option.map_some] at hKey
    exact Option.map_eq_some_iff.mp hKey
  source := by
    intro key left hGet
    obtain ⟨pkt, hPkt, hEq⟩ := hSame.get_eq_some hGet
    exact Or.inl ⟨pkt, hPkt, hEq, hEvent key⟩

theorem historyStep_rcvAck (hInv : QueueInv s) (pktInfos : List GroupPacketInfo) :
    HistoryStep s (.rcvAck pktInfos) (s.rcvAckPacket pktInfos) := by
  have hGet : ∀ key, (s.rcvAckPacket pktInfos).dataPktHistory.get key =
      if key ∈ pktInfos then none else s.dataPktHistory.get key :=
    NestedMap.get_foldl_remove s.dataPktHistory pktInfos
  have hAcks : ∀ key, Acks (.rcvAck pktInfos) key ↔ key ∈ pktInfos := by
    intro key
    constructor
    · rintro ⟨infos, hEq, hMem⟩
      cases hEq
      exact hMem
    · exact fun hMem => ⟨pktInfos, rfl, hMem⟩
  have hSource : ∀ key left, (s.rcvAckPacket pktInfos).dataPktHistory.get key = some left →
      s.dataPktHistory.get key = some left ∧ key ∉ pktInfos := by
    intro key left hLeft
    rw [hGet] at hLeft
    split at hLeft
    · cases hLeft
    · next hNotMem => exact ⟨hLeft, hNotMem⟩
  constructor
  · apply hInv.shrinks
    · intro key left hLeft
      exact ⟨left, (hSource key left hLeft).1, rfl⟩
    · exact NestedMap.noEmpty_foldl_remove hInv.noEmpty pktInfos
    · exact List.Sublist.refl _
    · exact fun key hMem _ => hMem
    · exact le_refl s.now
  · exact le_refl s.now
  · rfl
  · intro key pkt hPkt hNotAcked _
    refine ⟨pkt, ?_, rfl⟩
    rw [hGet, if_neg fun hMem => hNotAcked ((hAcks key).mpr hMem), hPkt]
  · intro key left hLeft
    obtain ⟨hPkt, hNotMem⟩ := hSource key left hLeft
    exact Or.inl ⟨left, hPkt, rfl, fun hAcked => hNotMem ((hAcks key).mp hAcked)⟩

theorem hands_afterFrame {framePktNum : UInt16} {inputs : List PolicyInput} {pkt : SentPacket}
    (hMem : pkt ∈ batches.flatMap Batch.data) :
    Hands s (s.afterFrame framePktNum batches inputs) pkt.toDataPacket := by
  obtain ⟨batch, hBatch, hPkt⟩ := List.mem_flatMap.mp hMem
  refine ⟨⟨false, batches.flatMap Batch.packets⟩, ?_, ?_⟩
  · rw [afterFrame, List.drop_left]
    exact List.mem_singleton_self _
  · apply List.mem_flatMap.mpr
    exact ⟨batch, hBatch, List.mem_append_left _ (List.mem_map.mpr ⟨pkt, hPkt, rfl⟩)⟩

/-- Storing the groups of a frame under ids that the queue does not hold. -/
theorem historyStep_afterFrame {framePktNum : UInt16} {inputs : List PolicyInput} {dataSize : UInt32}
    (hInv : QueueInv s) (hOf : OfFrame s.now s.frameId framePktNum pkts)
    (hGroups : Groups s.groupId pkts batches) (hLength : batches.length ≤ 2 ^ 32)
    (hFresh : ∀ key ∈ s.dataPktHistoryKey, key.1 ∉ groupIds s.groupId batches.length) :
    HistoryStep s (.sendFrame dataSize) (s.afterFrame framePktNum batches inputs) := by
  have hNodup := hGroups.nodup_keys hLength
  have hDisjoint : ∀ key ∈ s.dataPktHistoryKey,
      key ∉ (batches.flatMap Batch.data).map SentPacket.key := by
    intro key hMem hNew
    obtain ⟨pkt, hPkt, rfl⟩ := List.mem_map.mp hNew
    exact hFresh _ hMem (hGroups.groupId_mem hPkt)
  have hEncode : ∀ pkt ∈ batches.flatMap Batch.data, pkt.encodeTime = s.now := by
    apply hGroups.forall_data (p := fun pkt => pkt.encodeTime = s.now)
    intro info i pkt hMem
    rw [hOf pkt hMem]
    rfl
  have hSet : ∀ pkt ∈ batches.flatMap Batch.data, pkt.groupInfoSet = true :=
    hGroups.forall_data (p := fun pkt => pkt.groupInfoSet = true) fun _ _ _ _ => rfl
  have hGet : ∀ key left, (s.afterFrame framePktNum batches inputs).dataPktHistory.get key = some left →
      (left ∈ batches.flatMap Batch.data ∧ left.key = key) ∨ s.dataPktHistory.get key = some left := by
    intro key left hLeft
    obtain ⟨pkt, hPkt, hKey, hFound⟩ | ⟨-, hFound⟩ := get_foldl_put_key s.dataPktHistory
      (batches.flatMap Batch.data) key
    · cases hFound.symm.trans hLeft
      exact Or.inl ⟨hPkt, hKey⟩
    · exact Or.inr (hFound.symm.trans hLeft)
  have hOld : ∀ key ∈ s.dataPktHistoryKey,
      (s.afterFrame framePktNum batches inputs).dataPktHistory.get key = s.dataPktHistory.get key := by
    intro key hMem
    obtain ⟨pkt, hPkt, rfl, -⟩ | ⟨-, hFound⟩ := get_foldl_put_key s.dataPktHistory
      (batches.flatMap Batch.data) key
    · exact (hDisjoint _ hMem (List.mem_map_of_mem hPkt)).elim
    · exact hFound
  have hNew : ∀ key ∈ (batches.flatMap Batch.data).map SentPacket.key, ∀ left,
      (s.afterFrame framePktNum batches inputs).dataPktHistory.get key = some left →
        left.encodeTime = s.now := by
    intro key hMem left hLeft
    obtain ⟨hPkt, -⟩ | hLeft := hGet key left hLeft
    · exact hEncode left hPkt
    · exact (hDisjoint key (hInv.queued key left hLeft) hMem).elim
  constructor
  · constructor
    · exact noEmpty_foldl_put_key hInv.noEmpty
    · intro key left hLeft
      obtain ⟨hPkt, hKey⟩ | hLeft := hGet key left hLeft
      · exact ⟨hKey, hSet left hPkt⟩
      · exact hInv.stored key left hLeft
    · intro key left hLeft
      obtain ⟨hPkt, rfl⟩ | hLeft := hGet key left hLeft
      · exact List.mem_append_right _ (List.mem_map_of_mem hPkt)
      · exact List.mem_append_left _ (hInv.queued key left hLeft)
    · apply List.nodup_append.mpr
      refine ⟨hInv.nodup, hNodup, ?_⟩
      rintro key hMem key' hNew rfl
      exact hDisjoint key hMem hNew
    · apply List.pairwise_append.mpr
      refine ⟨?_, ?_, ?_⟩
      · apply hInv.ordered.imp_of_mem
        intro key key' hMem hMem' hLe pkt pkt' hPkt hPkt'
        rw [hOld key hMem] at hPkt
        rw [hOld key' hMem'] at hPkt'
        exact hLe pkt pkt' hPkt hPkt'
      · apply List.pairwise_of_forall_mem_list
        intro key hMem key' hMem' pkt pkt' hPkt hPkt'
        rw [hNew key hMem pkt hPkt, hNew key' hMem' pkt' hPkt']
      · intro key hMem key' hMem' pkt pkt' hPkt hPkt'
        rw [hOld key hMem] at hPkt
        rw [hNew key' hMem' pkt' hPkt']
        exact hInv.past key pkt hPkt
    · intro key left hLeft
      obtain ⟨hPkt, -⟩ | hLeft := hGet key left hLeft
      · exact (hEncode left hPkt).le
      · exact hInv.past key left hLeft
  · exact le_refl s.now
  · rfl
  · intro key pkt hPkt _ _
    refine ⟨pkt, ?_, rfl⟩
    rw [hOld key (hInv.queued key pkt hPkt), hPkt]
  · intro key left hLeft
    obtain ⟨hPkt, -⟩ | hLeft := hGet key left hLeft
    · exact Or.inr ⟨dataSize, rfl, hands_afterFrame hPkt⟩
    · refine Or.inl ⟨left, hLeft, rfl, ?_⟩
      rintro ⟨pktInfos, hEq, -⟩
      cases hEq

theorem historyStep_sendFrame {dataSize : UInt32} (hInv : QueueInv s)
    (hFresh : FreshIds env s (.sendFrame dataSize))
    (h : s.sendFrame env (dataSize.toNat + 1) dataSize = some t) :
    HistoryStep s (.sendFrame dataSize) t := by
  obtain ⟨-, rfl⟩ | ⟨-, pkts, batches, inputs, hCut, -, -, rfl, hGroups, -, -, hCount⟩ :=
    sendFrame_cases h
  · apply historyStep_of_sameStored hInv (SameStored.refl _) hInv.noEmpty rfl (le_refl _) rfl
    rintro key ⟨pktInfos, hEq, -⟩
    cases hEq
  · apply historyStep_afterFrame hInv (dataPackets_ofFrame hCut).1 hGroups
      (hGroups.length_le_ids hCut)
    rw [FreshIds, newGroupIds, hCut] at hFresh
    rw [hCount]
    exact hFresh

theorem sameStored_packetSent (s : Sender) (info : GroupPacketInfo) :
    SameStored s.dataPktHistory (s.packetSent info).dataPktHistory := by
  rw [packetSent]
  cases hGet : s.dataPktHistory.get info with
  | none => exact SameStored.refl _
  | some pkt =>
    intro key
    change ((s.dataPktHistory.put info { pkt with sendTime := s.now }).get key).map _ = _
    rw [NestedMap.get_put]
    split
    · next hEq =>
      rw [hEq, hGet]
      rfl
    · rfl

theorem historyStep_packetSent (hInv : QueueInv s) (info : GroupPacketInfo) :
    HistoryStep s (.packetSent info) (s.packetSent info) := by
  have hNoEmpty : (s.packetSent info).dataPktHistory.NoEmpty := by
    rw [packetSent]
    split
    · exact hInv.noEmpty
    · exact NestedMap.noEmpty_put hInv.noEmpty info _
  have hRest : (s.packetSent info).dataPktHistoryKey = s.dataPktHistoryKey ∧
      (s.packetSent info).now = s.now ∧ (s.packetSent info).delayDdl = s.delayDdl := by
    rw [packetSent]
    split
    · exact ⟨rfl, rfl, rfl⟩
    · exact ⟨rfl, rfl, rfl⟩
  apply historyStep_of_sameStored hInv (sameStored_packetSent s info) hNoEmpty hRest.1
    hRest.2.1.ge hRest.2.2
  rintro key ⟨pktInfos, hEq, -⟩
  cases hEq

theorem historyStep_checkRetransmission (hInv : QueueInv s)
    (h : s.checkRetransmission env = some t) : HistoryStep s .checkRetransmission t := by
  have hCheck := checkRetransmission_spec hInv h
  constructor
  · exact hCheck.inv
  · exact hCheck.now.ge
  · exact hCheck.delayDdl
  · intro key pkt hGet _ hOnTime
    exact hCheck.keeps key pkt hGet hOnTime
  · intro key left hLeft
    obtain ⟨pkt, hPkt, hSame⟩ := hCheck.shrinks key left hLeft
    refine Or.inl ⟨pkt, hPkt, hSame, ?_⟩
    rintro ⟨pktInfos, hEq, -⟩
    cases hEq

theorem step_history (hInv : QueueInv s) (hFresh : FreshIds env s event)
    (h : s.step env event = some t) : HistoryStep s event t := by
  cases event with
  | wait delay =>
    cases h
    apply historyStep_of_sameStored hInv (t := { s with now := s.now + delay })
      (SameStored.refl _) hInv.noEmpty rfl _ rfl
    · rintro key ⟨pktInfos, hEq, -⟩
      cases hEq
    · exact Int.le_add_of_nonneg_right (Int.natCast_nonneg delay)
  | sendFrame dataSize => exact historyStep_sendFrame hInv hFresh h
  | rcvAck pktInfos =>
    cases h
    exact historyStep_rcvAck hInv pktInfos
  | checkRetransmission => exact historyStep_checkRetransmission hInv h
  | packetSent info =>
    cases h
    exact historyStep_packetSent hInv info
  | setNetStat netStat =>
    cases h
    apply historyStep_of_sameStored hInv (t := { s with netStat := netStat })
      (SameStored.refl _) hInv.noEmpty rfl (le_refl _) rfl
    rintro key ⟨pktInfos, hEq, -⟩
    cases hEq

/-! ## Runs -/

/-- `pkt` was sent for the first time in the run, and no acknowledgement of it has arrived since. -/
def Outstanding (env : SenderEnv) (s : Sender) (events : List SenderEvent) (pkt : DataPacket) : Prop :=
  ∃ before dataSize after t u, events = before ++ .sendFrame dataSize :: after ∧
    run (step env) s before = some t ∧ t.step env (.sendFrame dataSize) = some u ∧
    Hands t u pkt ∧ ∀ event ∈ after, ¬Acks event (pkt.groupId, pkt.pktIdInGroup)

/-- The queue reaches the stored packet. -/
structure Held (s : Sender) (pkt : DataPacket) : Prop where
  queued : (pkt.groupId, pkt.pktIdInGroup) ∈ s.dataPktHistoryKey
  stored : ∃ left, s.dataPktHistory.get (pkt.groupId, pkt.pktIdInGroup) = some left ∧
    left.toDataPacket.identity = pkt.identity

/-- What holds of the retransmissions in the state `t` that the run on `events` leads to. -/
structure RetransmissionSafe (env : SenderEnv) (s : Sender) (events : List SenderEvent) (t : Sender) :
    Prop where
  noEmptyGroup : t.dataPktHistory.NoEmpty
  reachable : ∀ pkt, Outstanding env s events pkt → t.now - pkt.encodeTime ≤ t.delayDdl → Held t pkt
  oncePerCheck : ∀ u, t.checkRetransmission env = some u →
    ∃ frames groups, u.traffic = t.traffic ++ frames ∧ groups.Nodup ∧
      List.Forall₂ (fun frame groupId => frame.retransmission = true ∧
        ∀ pkt ∈ frame.packets, pkt.header.groupId = groupId) frames groups
  neither : ∀ u, t.checkRetransmission env = some u → ∀ pkt, Hands t u pkt →
    t.now - pkt.encodeTime ≤ t.delayDdl ∧
      ∃ first, Outstanding env s events first ∧ first.identity = pkt.identity
  ackOrder : ∀ messages messages' : List (List GroupPacketInfo),
    (∀ key, (∃ pktInfos ∈ messages, key ∈ pktInfos) ↔ ∃ pktInfos ∈ messages', key ∈ pktInfos) →
      run (step env) t (messages.map .rcvAck) = run (step env) t (messages'.map .rcvAck)

theorem Outstanding.snoc {events : List SenderEvent} {pkt : DataPacket}
    (h : Outstanding env s events pkt) (hEvent : ¬Acks event (pkt.groupId, pkt.pktIdInGroup)) :
    Outstanding env s (events ++ [event]) pkt := by
  obtain ⟨before, dataSize, after, t, u, rfl, hRun, hStep, hHands, hAfter⟩ := h
  refine ⟨before, dataSize, after ++ [event], t, u, ?_, hRun, hStep, hHands, ?_⟩
  · rw [List.append_assoc, List.cons_append]
  · intro other hMem
    obtain hMem | hMem := List.mem_append.mp hMem
    · exact hAfter other hMem
    · rw [List.mem_singleton.mp hMem]
      exact hEvent

theorem queueInv_create (delayDdl : Time) (netStat : NetStat) : QueueInv (create delayDdl netStat) where
  noEmpty := NestedMap.noEmpty_empty
  stored := fun _ _ hGet => by cases hGet
  queued := fun _ _ hGet => by cases hGet
  nodup := List.nodup_nil
  ordered := List.Pairwise.nil
  past := fun _ _ hGet => by cases hGet

theorem queueInv_of_run {events : List SenderEvent} (hInv : QueueInv s)
    (hFresh : StepsMeet (step env) (FreshIds env) s events)
    (hRun : run (step env) s events = some t) : QueueInv t :=
  invariant_of_run (fun _ _ _ hInv hFresh hStep => (step_history hInv hFresh hStep).inv) hInv hFresh
    hRun

/-- Every stored packet was sent in the run and not acknowledged since. -/
def Sourced (env : SenderEnv) (s : Sender) (events : List SenderEvent) (t : Sender) : Prop :=
  ∀ key left, t.dataPktHistory.get key = some left →
    ∃ pkt, Outstanding env s events pkt ∧ pkt.identity = left.toDataPacket.identity

theorem Sourced.step {events : List SenderEvent} (h : Sourced env s events t) (hInv : QueueInv t)
    (hRun : run (Sender.step env) s events = some t) (hFresh : FreshIds env t event)
    (hStep : t.step env event = some u) : Sourced env s (events ++ [event]) u := by
  intro key left hLeft
  have hHistory := step_history hInv hFresh hStep
  obtain ⟨pkt, hPkt, hSame, hAcks⟩ | ⟨dataSize, rfl, hHands⟩ := hHistory.source key left hLeft
  · obtain ⟨first, hFirst, hEq⟩ := h key pkt hPkt
    refine ⟨first, hFirst.snoc ?_, hEq.trans (congrArg SentPacket.toDataPacket hSame).symm⟩
    have hKey : (first.groupId, first.pktIdInGroup) = key := by
      rw [← (hInv.stored key pkt hPkt).1]
      exact congrArg (fun pkt => (pkt.groupId, pkt.pktIdInGroup)) hEq
    rw [hKey]
    exact hAcks
  · refine ⟨left.toDataPacket, ⟨events, dataSize, [], t, u, rfl, hRun, hStep, hHands, ?_⟩, rfl⟩
    exact fun _ hMem => (List.not_mem_nil hMem).elim

theorem Sourced.run {events more : List SenderEvent} (h : Sourced env s events t) (hInv : QueueInv t)
    (hRun : PartialRun.run (Sender.step env) s events = some t)
    (hFresh : StepsMeet (Sender.step env) (FreshIds env) t more)
    (hMore : PartialRun.run (Sender.step env) t more = some u) : Sourced env s (events ++ more) u := by
  induction more generalizing events t with
  | nil =>
    cases hMore
    rw [List.append_nil]
    exact h
  | cons event more ih =>
    obtain ⟨v, hStep, hRest⟩ := Option.bind_eq_some_iff.mp hMore
    have hNext : PartialRun.run (Sender.step env) s (events ++ [event]) = some v := by
      rw [run_append, hRun, Option.bind_some, run_cons, hStep]
      rfl
    have hDone := ih (h.step hInv hRun hFresh.1 hStep) (step_history hInv hFresh.1 hStep).inv hNext
      (hFresh.2 v hStep) hRest
    rw [List.append_assoc] at hDone
    exact hDone

/-- The packets of a new frame are stored and queued. -/
theorem held_of_hands {dataSize : UInt32} {pkt : DataPacket}
    (hInv : QueueInv s) (hFresh : FreshIds env s (.sendFrame dataSize))
    (h : s.step env (.sendFrame dataSize) = some t) (hHands : Hands s t pkt) : Held t pkt := by
  have hNext := (step_history hInv hFresh h).inv
  obtain ⟨frame, hFrame, hPkt⟩ := hHands
  obtain ⟨-, rfl⟩ | ⟨-, pkts, batches, inputs, hCut, -, -, rfl, hGroups, -, -, hCount⟩ :=
    sendFrame_cases h
  · rw [List.drop_length] at hFrame
    cases hFrame
  · rw [afterFrame, List.drop_left, List.mem_singleton] at hFrame
    subst hFrame
    obtain ⟨batch, hBatch, hMem⟩ := List.mem_flatMap.mp hPkt
    obtain hData | hFec := List.mem_append.mp hMem
    · obtain ⟨sent, hSent, hEq⟩ := List.mem_map.mp hData
      cases hEq
      have hAll : sent ∈ batches.flatMap Batch.data := List.mem_flatMap.mpr ⟨batch, hBatch, hSent⟩
      have hNodup := hGroups.nodup_keys (hGroups.length_le_ids hCut)
      obtain ⟨other, hOther, hKey, hGet⟩ | ⟨hNotMem, -⟩ := get_foldl_put_key s.dataPktHistory
        (batches.flatMap Batch.data) sent.key
      · rw [List.inj_on_of_nodup_map hNodup hOther hAll hKey] at hGet
        exact ⟨hNext.queued _ sent hGet, sent, hGet, rfl⟩
      · exact (hNotMem (List.mem_map_of_mem hAll)).elim
    · obtain ⟨fec, -, hEq⟩ := List.mem_map.mp hFec
      cases hEq

/-- An event that does not acknowledge a packet leaves it reachable or past its deadline. -/
theorem held_or_missed_step {pkt : DataPacket} (hInv : QueueInv s) (hFresh : FreshIds env s event)
    (hStep : s.step env event = some t) (hAcks : ¬Acks event (pkt.groupId, pkt.pktIdInGroup))
    (h : Held s pkt ∨ s.delayDdl < s.now - pkt.encodeTime) :
    Held t pkt ∨ t.delayDdl < t.now - pkt.encodeTime := by
  have hHistory := step_history hInv hFresh hStep
  have hLater : s.delayDdl < s.now - pkt.encodeTime → t.delayDdl < t.now - pkt.encodeTime := by
    intro hLt
    rw [hHistory.delayDdl]
    exact hLt.trans_le (Int.sub_le_sub_right hHistory.now _)
  obtain hHeld | hMissed := h
  · obtain ⟨left, hLeft, hSame⟩ := hHeld.stored
    cases hMiss : s.missesDdl left with
    | true =>
      have hEncode : left.encodeTime = pkt.encodeTime := congrArg (fun pkt => pkt.encodeTime) hSame
      rw [missesDdl, decide_eq_true_eq, hEncode] at hMiss
      exact Or.inr (hLater hMiss)
    | false =>
      obtain ⟨next, hNext, hEq⟩ := hHistory.keeps _ left hLeft hAcks hMiss
      exact Or.inl ⟨hHistory.inv.queued _ next hNext, next, hNext,
        (congrArg SentPacket.toDataPacket hEq).trans hSame⟩
  · exact Or.inr (hLater hMissed)

theorem held_or_missed_run {pkt : DataPacket} {events : List SenderEvent} (hInv : QueueInv s)
    (hFresh : StepsMeet (step env) (FreshIds env) s events)
    (hRun : run (step env) s events = some t)
    (hAcks : ∀ event ∈ events, ¬Acks event (pkt.groupId, pkt.pktIdInGroup))
    (h : Held s pkt ∨ s.delayDdl < s.now - pkt.encodeTime) :
    Held t pkt ∨ t.delayDdl < t.now - pkt.encodeTime := by
  induction events generalizing s with
  | nil =>
    cases hRun
    exact h
  | cons event events ih =>
    obtain ⟨u, hStep, hRest⟩ := Option.bind_eq_some_iff.mp hRun
    apply ih (step_history hInv hFresh.1 hStep).inv (hFresh.2 u hStep) hRest
    · exact fun other hMem => hAcks other (List.mem_cons_of_mem event hMem)
    · exact held_or_missed_step hInv hFresh.1 hStep (hAcks event List.mem_cons_self) h

/-- An outstanding packet is reachable until it has missed its deadline. -/
theorem held_of_outstanding {pkt : DataPacket} {events : List SenderEvent} (hInv : QueueInv s)
    (hFresh : StepsMeet (step env) (FreshIds env) s events)
    (hRun : run (step env) s events = some t) (h : Outstanding env s events pkt)
    (hOnTime : t.now - pkt.encodeTime ≤ t.delayDdl) : Held t pkt := by
  obtain ⟨before, dataSize, after, v, u, rfl, hBefore, hStep, hHands, hAfter⟩ := h
  obtain ⟨hFreshBefore, hFreshAfter⟩ := stepsMeet_append.mp hFresh
  have hFreshStep := hFreshAfter v hBefore
  have hInvV := queueInv_of_run hInv hFreshBefore hBefore
  rw [run_append, hBefore, Option.bind_some, run_cons, hStep, Option.bind_some] at hRun
  have hStart := held_of_hands hInvV hFreshStep.1 hStep hHands
  obtain hHeld | hMissed := held_or_missed_run (step_history hInvV hFreshStep.1 hStep).inv
    (hFreshStep.2 u hStep) hRun hAfter (Or.inl hStart)
  · exact hHeld
  · exact absurd hOnTime (not_le.mpr hMissed)

theorem run_rcvAck (s : Sender) (messages : List (List GroupPacketInfo)) :
    run (step env) s (messages.map .rcvAck) = some (s.rcvAckPacket messages.flatten) := by
  induction messages generalizing s with
  | nil => rfl
  | cons pktInfos messages ih =>
    rw [List.map_cons, run_cons, step, Option.bind_some, ih, List.flatten_cons]
    simp only [rcvAckPacket, List.foldl_append]

theorem rcvAckPacket_congr (s : Sender) {pktInfos pktInfos' : List GroupPacketInfo}
    (h : ∀ key, key ∈ pktInfos ↔ key ∈ pktInfos') :
    s.rcvAckPacket pktInfos = s.rcvAckPacket pktInfos' := by
  rw [rcvAckPacket, rcvAckPacket, NestedMap.foldl_remove_congr s.dataPktHistory h]

/-- In a run that gives no new group an id that the key queue still holds, retransmission is safe in
every state. -/
theorem retransmissionSafe_of_run {delayDdl : Time} {netStat : NetStat} {events : List SenderEvent}
    (hFresh : StepsMeet (step env) (FreshIds env) (create delayDdl netStat) events)
    (hRun : run (step env) (create delayDdl netStat) events = some t) :
    RetransmissionSafe env (create delayDdl netStat) events t := by
  have hStart := queueInv_create delayDdl netStat
  have hInv := queueInv_of_run hStart hFresh hRun
  have hSourced : Sourced env (create delayDdl netStat) [] (create delayDdl netStat) :=
    fun _ _ hGet => by cases hGet
  have hAll := hSourced.run hStart rfl hFresh hRun
  rw [List.nil_append] at hAll
  constructor
  · exact hInv.noEmpty
  · intro pkt hOut hOnTime
    exact held_of_outstanding hStart hFresh hRun hOut hOnTime
  · intro u hCheck
    obtain ⟨frames, groups, hTraffic, hNodup, hFrames, -⟩ := (checkRetransmission_spec hInv hCheck).rtx
    exact ⟨frames, groups, hTraffic, hNodup,
      hFrames.imp fun frame groupId hFrame => ⟨hFrame.retransmission, hFrame.inGroup⟩⟩
  · intro u hCheck pkt hHands
    obtain ⟨frames, groups, hTraffic, -, hFrames, hOnTime⟩ := (checkRetransmission_spec hInv hCheck).rtx
    obtain ⟨frame, hFrame, hPkt⟩ := hHands
    rw [hTraffic, List.drop_left] at hFrame
    refine ⟨hOnTime frame hFrame pkt hPkt, ?_⟩
    obtain ⟨i, hLt, rfl⟩ := List.mem_iff_getElem.mp hFrame
    obtain ⟨old, hOld, hSame⟩ := (hFrames.get hLt (hFrames.length_eq ▸ hLt)).data pkt hPkt
    obtain ⟨first, hFirst, hEq⟩ := hAll _ old hOld
    exact ⟨first, hFirst, hEq.trans hSame.symm⟩
  · intro messages messages' hSet
    rw [run_rcvAck, run_rcvAck, rcvAckPacket_congr]
    intro key
    rw [List.mem_flatten, List.mem_flatten]
    exact hSet key

/-- Two frames, an acknowledgement, and a check that retransmits the second one. -/
theorem retransmissionSafe_two_frames :
    ∃ t, run (step (.constant 1 0)) (create 100000000 ⟨0, 0, 0, 0⟩)
        [.sendFrame 1000, .sendFrame 1000, .wait 5, .rcvAck [(0, 0)], .checkRetransmission] = some t ∧
      RetransmissionSafe (.constant 1 0) (create 100000000 ⟨0, 0, 0, 0⟩)
        [.sendFrame 1000, .sendFrame 1000, .wait 5, .rcvAck [(0, 0)], .checkRetransmission] t := by
  have hSome : (run (step (.constant 1 0)) (create 100000000 ⟨0, 0, 0, 0⟩)
      [.sendFrame 1000, .sendFrame 1000, .wait 5, .rcvAck [(0, 0)], .checkRetransmission]).isSome =
        true := by
    decide +kernel
  obtain ⟨t, hRun⟩ := Option.isSome_iff_exists.mp hSome
  exact ⟨t, hRun, retransmissionSafe_of_run (by decide +kernel) hRun⟩

/-- A frame of one byte under a policy that asks for groups of one packet. -/
theorem sendFrame_one (s : Sender) :
    ∃ u pkt, s.step (.constant 1 0) (.sendFrame 1) = some u ∧ Hands s u pkt.toDataPacket ∧
      pkt.key = (s.groupId, 0) ∧ pkt.encodeTime = s.now ∧
      u.dataPktHistory.get (s.groupId, 0) = some pkt ∧ u.groupId = s.groupId + 1 ∧ u.now = s.now ∧
      u.delayDdl = s.delayDdl := by
  have hCut : dataPackets s.now s.frameId dataPktMaxPayload (dataPktNum 1) 1 2 0 0 =
      some [dataPacket s.now s.frameId (dataPktNum 1) 0 1] := rfl
  have hSize : (s.firstParam (.constant 1 0) 1 (s.frameDdlLeft 1)
      (dataPktNum 1).toUInt8).fecGroupSize ≠ 0 := by
    change (1 : UInt16) ≠ 0
    decide
  obtain ⟨batches, inputs, hSend, hGroups, -, -, hCount⟩ :=
    createFrame_spec hCut (List.cons_ne_nil _ _) hSize
  have hOne : batches.length = 1 := by
    rw [hCount]
    simp [groupCount, firstParam, SenderEnv.constant]
  obtain ⟨batch, rfl⟩ := List.length_eq_one_iff.mp hOne
  obtain ⟨chunk, rest, info, hPkts, hFirst, hRest⟩ := hGroups
  cases hRest
  rw [List.append_nil] at hPkts
  subst hPkts
  have hData : [batch].flatMap Batch.data =
      [stamp info 0 0 0 (framePacket s.now s.frameId (dataPktNum 1) 0 1)] := by
    rw [List.flatMap_singleton, hFirst.data]
    rfl
  have hKey : (stamp info 0 0 0 (framePacket s.now s.frameId (dataPktNum 1) 0 1)).key =
      (s.groupId, 0) := by
    rw [← hFirst.infoGroupId]
    rfl
  refine ⟨s.afterFrame (dataPktNum 1) [batch] inputs,
    stamp info 0 0 0 (framePacket s.now s.frameId (dataPktNum 1) 0 1), hSend, ?_, hKey, rfl, ?_, rfl,
    rfl, rfl⟩
  · apply hands_afterFrame
    rw [hData]
    exact List.mem_singleton_self _
  · rw [afterFrame, hData, List.foldl_cons, List.foldl_nil, ← hKey, NestedMap.get_put, if_pos rfl]

theorem sendFrame_many (n : Nat) (s : Sender) :
    ∃ u, run (step (.constant 1 0)) s (List.replicate n (.sendFrame 1)) = some u ∧
      u.groupId = s.groupId + UInt32.ofNat n ∧ u.now = s.now ∧ u.delayDdl = s.delayDdl := by
  induction n generalizing s with
  | zero => exact ⟨s, rfl, (UInt32.add_zero _).symm, rfl, rfl⟩
  | succ n ih =>
    obtain ⟨t, -, hStep, -, -, -, -, hGroup, hNow, hDdl⟩ := sendFrame_one s
    obtain ⟨u, hRun, hGroupU, hNowU, hDdlU⟩ := ih t
    refine ⟨u, ?_, ?_, hNowU.trans hNow, hDdlU.trans hDdl⟩
    · rw [List.replicate_succ, run_cons, hStep, Option.bind_some, hRun]
    · rw [hGroupU, hGroup, uint32_add_succ]

/-- After 2^32 more groups the id of the first one comes back, and the packet that was stored under
it, unacknowledged and on time, is overwritten. -/
theorem stored_packet_overwritten :
    ∃ t, run (step (.constant 1 0)) (create 100000000 ⟨0, 0, 0, 0⟩)
        (.sendFrame 1 :: .wait 1 :: List.replicate (4294967295 + 1) (.sendFrame 1)) = some t ∧
      ¬RetransmissionSafe (.constant 1 0) (create 100000000 ⟨0, 0, 0, 0⟩)
        (.sendFrame 1 :: .wait 1 :: List.replicate (4294967295 + 1) (.sendFrame 1)) t := by
  obtain ⟨a, first, hFirst, hHands, hFirstKey, hFirstTime, -, hGroupA, hNowA, hDdlA⟩ :=
    sendFrame_one (create 100000000 ⟨0, 0, 0, 0⟩)
  obtain ⟨b, hMany, hGroupB, hNowB, hDdlB⟩ :=
    sendFrame_many 4294967295 { a with now := a.now + (1 : Nat) }
  obtain ⟨t, last, hLast, -, hLastKey, hLastTime, hGet, -, hNowT, hDdlT⟩ := sendFrame_one b
  have hWrap : b.groupId = 0 := by
    rw [hGroupB, hGroupA]
    rfl
  refine ⟨t, ?_, ?_⟩
  · rw [run_cons, hFirst, Option.bind_some, run_cons, step, Option.bind_some, List.replicate_succ',
      run_append, hMany, Option.bind_some, run_cons, hLast]
    rfl
  · intro hSafe
    have hOut : Outstanding (.constant 1 0) (create 100000000 ⟨0, 0, 0, 0⟩)
        (.sendFrame 1 :: .wait 1 :: List.replicate (4294967295 + 1) (.sendFrame 1))
        first.toDataPacket := by
      refine ⟨[], 1, _, _, a, rfl, rfl, hFirst, hHands, ?_⟩
      rintro event hMem ⟨pktInfos, rfl, -⟩
      obtain hWait | hFrame := List.mem_cons.mp hMem
      · cases hWait
      · cases List.eq_of_mem_replicate hFrame
    have hNow : t.now = 1 := by
      rw [hNowT, hNowB, hNowA]
      rfl
    have hTime : first.encodeTime = 0 := hFirstTime
    have hHeld := hSafe.reachable _ hOut (by
      rw [hNow, hTime, hDdlT, hDdlB, hDdlA]
      decide)
    obtain ⟨left, hLeft, hSame⟩ := hHeld.stored
    have hKey : (first.groupId, first.pktIdInGroup) = ((0 : UInt32), (0 : UInt16)) := hFirstKey
    rw [hWrap] at hGet
    rw [hKey, hGet] at hLeft
    cases hLeft
    have hEncode : last.encodeTime = first.encodeTime := congrArg (fun pkt => pkt.encodeTime) hSame
    rw [hLastTime, hTime, hNowB, hNowA] at hEncode
    have hAbsurd : (1 : Int) = 0 := hEncode
    cases hAbsurd

end Sender
end Bullet.Stream
