import Bullet.Stream.Retransmission

/-! # The retransmission check

The key queue and the stored packets, and what one `CheckRetransmission` does with them.
-/

namespace Bullet.Stream

open Lib Lib.PartialRun

namespace Sender

variable {env : SenderEnv} {s t u : Sender} {history history' : NestedMap UInt32 UInt16 SentPacket}
  {keys : List GroupPacketInfo} {pass next : RtxPass} {key : GroupPacketInfo} {groupId : UInt32}

/-- Only stored packets are still stored, apart from what a later transmission sets anew. -/
def Shrinks (history history' : NestedMap UInt32 UInt16 SentPacket) : Prop :=
  ∀ key pkt, history'.get key = some pkt →
    ∃ old, history.get key = some old ∧ pkt.identity = old.identity

theorem Shrinks.refl (history : NestedMap UInt32 UInt16 SentPacket) : Shrinks history history :=
  fun _ pkt h => ⟨pkt, h, rfl⟩

theorem Shrinks.trans {history'' : NestedMap UInt32 UInt16 SentPacket} (h : Shrinks history history')
    (h' : Shrinks history' history'') : Shrinks history history'' := by
  intro key pkt hGet
  obtain ⟨mid, hMid, hSame⟩ := h' key pkt hGet
  obtain ⟨old, hOld, hEq⟩ := h key mid hMid
  exact ⟨old, hOld, hSame.trans hEq⟩

theorem SameStored.shrinks (h : SameStored history history') : Shrinks history history' :=
  fun _ _ hGet => h.get_eq_some hGet

theorem shrinks_remove (history : NestedMap UInt32 UInt16 SentPacket) (key : GroupPacketInfo) :
    Shrinks history (history.remove key) := by
  intro other pkt hGet
  rw [NestedMap.get_remove] at hGet
  split at hGet
  · cases hGet
  · exact ⟨pkt, hGet, rfl⟩

theorem Shrinks.stored (h : Shrinks history history') (hStored : Stored history) :
    Stored history' :=
  hStored.of_identity h

/-- The stored packets are in the queue in the order of their encode times. -/
def Ordered (history : NestedMap UInt32 UInt16 SentPacket) (keys : List GroupPacketInfo) : Prop :=
  keys.Pairwise fun key key' => ∀ pkt pkt', history.get key = some pkt →
    history.get key' = some pkt' → pkt.encodeTime ≤ pkt'.encodeTime

theorem Ordered.shrinks (h : Ordered history keys) (hShrinks : Shrinks history history') :
    Ordered history' keys := by
  apply h.imp
  intro key key' hLe pkt pkt' hGet hGet'
  obtain ⟨old, hOld, hEq⟩ := hShrinks key pkt hGet
  obtain ⟨old', hOld', hEq'⟩ := hShrinks key' pkt' hGet'
  rw [encodeTime_of_identity hEq, encodeTime_of_identity hEq']
  exact hLe old old' hOld hOld'

/-! ## The first loop -/

/-- What the first loop leaves of the queue and of the stored packets. -/
structure MissedRemoved (s : Sender) (keys : List GroupPacketInfo)
    (history : NestedMap UInt32 UInt16 SentPacket) (left : List GroupPacketInfo)
    (history' : NestedMap UInt32 UInt16 SentPacket) : Prop where
  suffix : left <:+ keys
  get : ∀ key, history'.get key = history.get key ∨
    history'.get key = none ∧ ∃ pkt, history.get key = some pkt ∧ s.missesDdl pkt = true
  keeps : ∀ key ∈ keys, history'.get key ≠ none → key ∈ left
  noEmpty : history.NoEmpty → history'.NoEmpty
  onTime : Ordered history keys → ∀ key ∈ keys, ∀ pkt, history'.get key = some pkt →
    s.missesDdl pkt = false

theorem MissedRemoved.shrinks {left : List GroupPacketInfo}
    (h : MissedRemoved s keys history left history') : Shrinks history history' := by
  intro key pkt hGet
  obtain hSame | hGone := h.get key
  · exact ⟨pkt, hSame ▸ hGet, rfl⟩
  · rw [hGone.1] at hGet
    cases hGet

theorem removeMissed_spec (s : Sender) (keys : List GroupPacketInfo)
    (history : NestedMap UInt32 UInt16 SentPacket) :
    MissedRemoved s keys history (s.removeMissed keys history).1 (s.removeMissed keys history).2 := by
  induction keys generalizing history with
  | nil =>
    constructor
    · exact List.suffix_refl _
    · exact fun key => Or.inl rfl
    · exact fun key hMem => (List.not_mem_nil hMem).elim
    · exact fun h => h
    · exact fun _ key hMem => (List.not_mem_nil hMem).elim
  | cons info keys ih =>
    rw [removeMissed]
    cases hGet : history.get info with
    | none =>
      have hRest := ih history
      constructor
      · exact hRest.suffix.trans (List.suffix_cons info keys)
      · exact hRest.get
      · intro key hMem hFound
        obtain rfl | hMem := List.mem_cons.mp hMem
        · exact absurd ((hRest.get key).elim (fun h => h.trans hGet) And.left) hFound
        · exact hRest.keeps key hMem hFound
      · exact hRest.noEmpty
      · intro hOrdered key hMem pkt hFound
        obtain rfl | hMem := List.mem_cons.mp hMem
        · obtain ⟨old, hOld, -⟩ := hRest.shrinks key pkt hFound
          rw [hGet] at hOld
          cases hOld
        · exact hRest.onTime hOrdered.of_cons key hMem pkt hFound
    | some pkt =>
      simp only
      cases hMiss : s.missesDdl pkt with
      | false =>
        simp only [Bool.false_eq_true, if_false]
        constructor
        · exact List.suffix_refl _
        · exact fun key => Or.inl rfl
        · exact fun key hMem _ => hMem
        · exact fun h => h
        · intro hOrdered key hMem other hFound
          obtain rfl | hMem := List.mem_cons.mp hMem
          · rw [hGet] at hFound
            cases hFound
            exact hMiss
          · -- The queue is ordered, so what is behind a packet on time is on time.
            have hLe := (List.pairwise_cons.mp hOrdered).1 key hMem pkt other hGet hFound
            simp only [missesDdl, decide_eq_false_iff_not, not_lt] at hMiss ⊢
            exact (Int.sub_le_sub_left hLe s.now).trans hMiss
      | true =>
        simp only [if_true]
        have hRest := ih (history.remove info)
        have hGone : (s.removeMissed keys (history.remove info)).2.get info = none := by
          obtain hSame | hNone := hRest.get info
          · rw [hSame, NestedMap.get_remove, if_pos rfl]
          · exact hNone.1
        constructor
        · exact hRest.suffix.trans (List.suffix_cons info keys)
        · intro key
          by_cases hKey : key = info
          · subst hKey
            exact Or.inr ⟨hGone, pkt, hGet, hMiss⟩
          · have hSame : (history.remove info).get key = history.get key := by
              rw [NestedMap.get_remove, if_neg hKey]
            rw [← hSame]
            exact hRest.get key
        · intro key hMem hFound
          obtain rfl | hMem := List.mem_cons.mp hMem
          · exact absurd hGone hFound
          · exact hRest.keeps key hMem hFound
        · exact fun h => hRest.noEmpty (NestedMap.noEmpty_remove h info)
        · intro hOrdered key hMem other hFound
          obtain rfl | hMem := List.mem_cons.mp hMem
          · rw [hGone] at hFound
            cases hFound
          · exact hRest.onTime (Ordered.shrinks hOrdered.of_cons (shrinks_remove history info)) key
              hMem other hFound

/-! ## The second loop -/

/-- The turn of the loop at `info` retransmits the group `groupId`. -/
structure Retransmits (pass : RtxPass) (info : GroupPacketInfo) (groupId : UInt32) : Prop where
  running : pass.stopped = false
  found : ∃ pkt, pass.sender.dataPktHistory.get info = some pkt ∧ pkt.groupId = groupId ∧
    pass.sender.netStat.minRtt ≤ pass.sender.now - pkt.encodeTime ∧
    pass.sender.isRtxTimeout pkt = true
  fresh : groupId ∉ pass.rtxGroupId

instance (info : GroupPacketInfo) (groupId : UInt32) : Decidable (Retransmits pass info groupId) :=
  decidable_of_iff (pass.stopped = false ∧
      (∃ pkt ∈ pass.sender.dataPktHistory.get info, pkt.groupId = groupId ∧
        pass.sender.netStat.minRtt ≤ pass.sender.now - pkt.encodeTime ∧
        pass.sender.isRtxTimeout pkt = true) ∧
      groupId ∉ pass.rtxGroupId)
    ⟨fun h => ⟨h.1, h.2.1, h.2.2⟩, fun h => ⟨h.running, h.found, h.fresh⟩⟩

theorem checkKey_cases {info : GroupPacketInfo} (h : checkKey env pass info = some next) :
    next.sender = pass.sender ∧ next.rtxGroupId = pass.rtxGroupId ∧
      (next.kept = pass.kept ++ [info] ∨
        next.kept = pass.kept ∧ pass.sender.dataPktHistory.get info = none) ∨
    ∃ groupId, Retransmits pass info groupId ∧
      pass.sender.retransmitGroup env groupId = some next.sender ∧
      next.rtxGroupId = groupId :: pass.rtxGroupId ∧ next.kept = pass.kept ++ [info] := by
  rw [checkKey] at h
  cases hStopped : pass.stopped with
  | true =>
    rw [hStopped, if_pos rfl] at h
    cases h
    exact Or.inl ⟨rfl, rfl, Or.inl rfl⟩
  | false =>
    rw [hStopped, if_neg Bool.false_ne_true] at h
    cases hGet : pass.sender.dataPktHistory.get info with
    | none =>
      simp only [hGet] at h
      cases h
      exact Or.inl ⟨rfl, rfl, Or.inr ⟨rfl, rfl⟩⟩
    | some pkt =>
      simp only [hGet] at h
      by_cases hEarly : pass.sender.now - pkt.encodeTime < pass.sender.netStat.minRtt
      · rw [if_pos hEarly] at h
        cases h
        exact Or.inl ⟨rfl, rfl, Or.inl rfl⟩
      · rw [if_neg hEarly] at h
        by_cases hDone : pkt.groupId ∈ pass.rtxGroupId
        · rw [if_pos hDone] at h
          cases h
          exact Or.inl ⟨rfl, rfl, Or.inl rfl⟩
        · rw [if_neg hDone] at h
          by_cases hTimeout : pass.sender.isRtxTimeout pkt = true
          · rw [if_pos hTimeout] at h
            obtain ⟨sender, hSend, rfl⟩ := Option.map_eq_some_iff.mp h
            exact Or.inr ⟨pkt.groupId,
              ⟨hStopped, ⟨pkt, hGet, rfl, not_lt.mp hEarly, hTimeout⟩, hDone⟩, hSend, rfl, rfl⟩
          · rw [if_neg hTimeout] at h
            cases h
            exact Or.inl ⟨rfl, rfl, Or.inl rfl⟩

/-- `frame` retransmits packets of the group `groupId` that are stored in `history`. -/
structure IsRtxFrame (history : NestedMap UInt32 UInt16 SentPacket) (frame : PacketFrame)
    (groupId : UInt32) : Prop where
  retransmission : frame.retransmission = true
  inGroup : ∀ pkt ∈ frame.packets, pkt.header.groupId = groupId
  data : ∀ pkt, VideoPacket.data pkt ∈ frame.packets → ∃ old,
    history.get (groupId, pkt.pktIdInGroup) = some old ∧ pkt.identity = old.toDataPacket.identity

theorem IsRtxBatch.data_groupId {entries : List (UInt16 × SentPacket)} {front pkt : SentPacket}
    {batch : Batch} {info : BatchInfo} (h : IsRtxBatch env s groupId entries front batch info)
    (hStored : Stored s.dataPktHistory) (hMem : pkt ∈ batch.data) : pkt.groupId = groupId := by
  obtain ⟨old, hGet, hSame⟩ := h.data pkt hMem
  rw [groupId_of_identity hSame]
  exact congrArg Prod.fst (hStored _ _ hGet).1

theorem IsRtxBatch.isRtxFrame {entries : List (UInt16 × SentPacket)} {front : SentPacket}
    {batch : Batch} {info : BatchInfo} (h : IsRtxBatch env s groupId entries front batch info)
    (hStored : Stored s.dataPktHistory) (hShrinks : Shrinks history s.dataPktHistory) :
    IsRtxFrame history ⟨true, batch.packets⟩ groupId where
  retransmission := rfl
  inGroup := by
    intro pkt hMem
    obtain hData | hFec := List.mem_append.mp hMem
    · obtain ⟨sent, hSent, rfl⟩ := List.mem_map.mp hData
      exact h.data_groupId hStored hSent
    · obtain ⟨sent, hSent, rfl⟩ := List.mem_map.mp hFec
      exact (h.fec sent hSent).groupId.trans h.infoGroupId
  data := by
    intro pkt hMem
    obtain hData | hFec := List.mem_append.mp hMem
    · obtain ⟨sent, hSent, hEq⟩ := List.mem_map.mp hData
      cases hEq
      obtain ⟨stored, hGet, hSame⟩ := h.data sent hSent
      obtain ⟨old, hOld, hEq⟩ := hShrinks _ _ hGet
      exact ⟨old, hOld, congrArg SentPacket.toDataPacket (hSame.trans hEq)⟩
    · obtain ⟨sent, -, hEq⟩ := List.mem_map.mp hFec
      cases hEq

/-- The loop after it has gone through the keys `done`, from the sender `s` on. -/
structure PassOf (s : Sender) (done : List GroupPacketInfo) (pass : RtxPass) : Prop where
  sender : ∃ batchId inputs frames history,
    pass.sender = { s with
      batchId := batchId
      policyInputs := inputs
      traffic := s.traffic ++ frames
      dataPktHistory := history } ∧
    List.Forall₂ (IsRtxFrame s.dataPktHistory) frames pass.rtxGroupId.reverse
  same : SameStored s.dataPktHistory pass.sender.dataPktHistory
  noEmpty : s.dataPktHistory.NoEmpty → pass.sender.dataPktHistory.NoEmpty
  distinct : pass.rtxGroupId.Nodup
  sublist : pass.kept.Sublist done
  keeps : ∀ key ∈ done, s.dataPktHistory.get key ≠ none → key ∈ pass.kept

theorem passOf_start (s : Sender) : PassOf s [] ⟨s, [], [], false⟩ where
  sender := ⟨s.batchId, s.policyInputs, [], s.dataPktHistory,
    by rw [List.append_nil], List.Forall₂.nil⟩
  same := SameStored.refl _
  noEmpty := fun h => h
  distinct := List.nodup_nil
  sublist := List.Sublist.refl _
  keeps := fun _ hMem => (List.not_mem_nil hMem).elim

/-- One turn of the loop. -/
theorem PassOf.step {done : List GroupPacketInfo} {info : GroupPacketInfo} (hPass : PassOf s done pass)
    (hStored : Stored s.dataPktHistory) (h : checkKey env pass info = some next) :
    PassOf s (done ++ [info]) next := by
  have hPassStored : Stored pass.sender.dataPktHistory := hPass.same.shrinks.stored hStored
  obtain ⟨hSender, hGroups, hKept⟩ | ⟨groupId, hRtx, hSend, hGroups, hKept⟩ := checkKey_cases h
  · constructor
    · rw [hSender, hGroups]
      exact hPass.sender
    · rw [hSender]
      exact hPass.same
    · rw [hSender]
      exact hPass.noEmpty
    · rw [hGroups]
      exact hPass.distinct
    · obtain hKept | ⟨hKept, -⟩ := hKept
      · rw [hKept]
        exact hPass.sublist.append (List.Sublist.refl _)
      · rw [hKept]
        exact hPass.sublist.trans (List.sublist_append_left done [info])
    · intro key hMem hFound
      obtain hKept | ⟨hKept, hNone⟩ := hKept
      · rw [hKept, List.mem_append]
        exact (List.mem_append.mp hMem).imp_left fun hDone => hPass.keeps key hDone hFound
      · rw [hKept]
        obtain hDone | hLast := List.mem_append.mp hMem
        · exact hPass.keeps key hDone hFound
        · have hSame := hPass.same key
          rw [List.mem_singleton.mp hLast] at hSame hFound
          rw [hNone, Option.map_none] at hSame
          exact absurd (Option.map_eq_none_iff.mp hSame.symm) hFound
  · obtain ⟨pkt, hGet, rfl, -, -⟩ := hRtx.found
    have hKey := (hPassStored info pkt hGet).1
    have hFound : pass.sender.dataPktHistory.get (pkt.groupId, info.2) = some pkt := by
      rw [← hGet, ← hKey]
      rfl
    obtain ⟨entries, front, batch, binfo, input, history, hBatch, hNext, hSame, hNoEmpty⟩ :=
      retransmitGroup_spec hPassStored hFound hSend
    obtain ⟨batchId, inputs, frames, old, hSender, hFrames⟩ := hPass.sender
    have hFrame := hBatch.isRtxFrame hPassStored hPass.same.shrinks
    constructor
    · refine ⟨batchId + 1, inputs ++ [input], frames ++ [⟨true, batch.packets⟩], history, ?_, ?_⟩
      · rw [hNext, afterRtx, hSender, List.append_assoc]
      · rw [hGroups, List.reverse_cons]
        exact List.rel_append hFrames (List.Forall₂.cons hFrame List.Forall₂.nil)
    · rw [hNext]
      exact hPass.same.trans hSame
    · rw [hNext]
      exact fun h => hNoEmpty (hPass.noEmpty h)
    · rw [hGroups]
      exact List.nodup_cons.mpr ⟨hRtx.fresh, hPass.distinct⟩
    · rw [hKept]
      exact hPass.sublist.append (List.Sublist.refl _)
    · intro key hMem hFound
      rw [hKept, List.mem_append]
      exact (List.mem_append.mp hMem).imp_left fun hDone => hPass.keeps key hDone hFound

theorem PassOf.run {done : List GroupPacketInfo} (hPass : PassOf s done pass)
    (hStored : Stored s.dataPktHistory) (h : PartialRun.run (checkKey env) pass keys = some next) :
    PassOf s (done ++ keys) next := by
  induction keys generalizing done pass with
  | nil =>
    cases h
    rw [List.append_nil]
    exact hPass
  | cons info keys ih =>
    obtain ⟨mid, hStep, hRest⟩ := Option.bind_eq_some_iff.mp h
    have hDone := ih (hPass.step hStored hStep) hRest
    rw [List.append_assoc] at hDone
    exact hDone

/-! ## The whole check -/

/-- The stored packets are the ones that the queue can reach, oldest first, each under its ids. -/
structure QueueInv (s : Sender) : Prop where
  noEmpty : s.dataPktHistory.NoEmpty
  stored : Stored s.dataPktHistory
  queued : ∀ key pkt, s.dataPktHistory.get key = some pkt → key ∈ s.dataPktHistoryKey
  nodup : s.dataPktHistoryKey.Nodup
  ordered : Ordered s.dataPktHistory s.dataPktHistoryKey
  past : ∀ key pkt, s.dataPktHistory.get key = some pkt → pkt.encodeTime ≤ s.now

/-- Packets may go, and keys that reach nothing. -/
theorem QueueInv.shrinks (h : QueueInv s) (hShrinks : Shrinks s.dataPktHistory t.dataPktHistory)
    (hNoEmpty : t.dataPktHistory.NoEmpty)
    (hSublist : t.dataPktHistoryKey.Sublist s.dataPktHistoryKey)
    (hKeeps : ∀ key ∈ s.dataPktHistoryKey, t.dataPktHistory.get key ≠ none →
      key ∈ t.dataPktHistoryKey)
    (hNow : s.now ≤ t.now) : QueueInv t where
  noEmpty := hNoEmpty
  stored := hShrinks.stored h.stored
  queued := by
    intro key pkt hGet
    obtain ⟨old, hOld, -⟩ := hShrinks key pkt hGet
    apply hKeeps key (h.queued key old hOld)
    rw [hGet]
    exact Option.some_ne_none pkt
  nodup := h.nodup.sublist hSublist
  ordered := Ordered.shrinks (List.Pairwise.sublist hSublist h.ordered) hShrinks
  past := by
    intro key pkt hGet
    obtain ⟨old, hOld, hSame⟩ := hShrinks key pkt hGet
    rw [encodeTime_of_identity hSame]
    exact (h.past key old hOld).trans hNow

/-- What a check does with the stored packets and what it sends of them. -/
structure IsCheck (s t : Sender) : Prop where
  now : t.now = s.now
  delayDdl : t.delayDdl = s.delayDdl
  groupId : t.groupId = s.groupId
  rtx : ∃ frames groups, t.traffic = s.traffic ++ frames ∧ groups.Nodup ∧
    List.Forall₂ (IsRtxFrame s.dataPktHistory) frames groups ∧
    ∀ frame ∈ frames, ∀ pkt, VideoPacket.data pkt ∈ frame.packets →
      s.now - pkt.encodeTime ≤ s.delayDdl
  shrinks : Shrinks s.dataPktHistory t.dataPktHistory
  keeps : ∀ key pkt, s.dataPktHistory.get key = some pkt → s.missesDdl pkt = false →
    ∃ left, t.dataPktHistory.get key = some left ∧ left.identity = pkt.identity
  inv : QueueInv t

theorem checkRetransmission_spec (hInv : QueueInv s) (h : s.checkRetransmission env = some t) :
    IsCheck s t := by
  obtain ⟨pass, hRun, rfl⟩ := Option.map_eq_some_iff.mp h
  have hMissed := removeMissed_spec s s.dataPktHistoryKey s.dataPktHistory
  have hStored : Stored s.rtxPass.sender.dataPktHistory := hMissed.shrinks.stored hInv.stored
  have hPass := (passOf_start s.rtxPass.sender).run hStored hRun
  obtain ⟨batchId, inputs, frames, history, hSender, hFrames⟩ := hPass.sender
  have hShrinks : Shrinks s.dataPktHistory pass.sender.dataPktHistory :=
    hMissed.shrinks.trans hPass.same.shrinks
  have hNow : pass.sender.now = s.now := by
    rw [hSender]
    rfl
  constructor
  · exact hNow
  · change pass.sender.delayDdl = s.delayDdl
    rw [hSender]
    rfl
  · change pass.sender.groupId = s.groupId
    rw [hSender]
    rfl
  · refine ⟨frames, pass.rtxGroupId.reverse, ?_, List.nodup_reverse.mpr hPass.distinct, ?_, ?_⟩
    · change pass.sender.traffic = s.traffic ++ frames
      rw [hSender]
      rfl
    · apply hFrames.imp
      intro frame groupId hFrame
      refine ⟨hFrame.retransmission, hFrame.inGroup, fun pkt hMem => ?_⟩
      obtain ⟨old, hGet, hSame⟩ := hFrame.data pkt hMem
      obtain ⟨first, hFirst, hEq⟩ := hMissed.shrinks _ _ hGet
      exact ⟨first, hFirst, hSame.trans (congrArg SentPacket.toDataPacket hEq)⟩
    · intro frame hMem pkt hPkt
      obtain ⟨groupId, hFrame⟩ : ∃ groupId, IsRtxFrame s.rtxPass.sender.dataPktHistory frame groupId := by
        obtain ⟨i, hLt, rfl⟩ := List.mem_iff_getElem.mp hMem
        exact ⟨_, hFrames.get hLt (hFrames.length_eq ▸ hLt)⟩
      obtain ⟨old, hGet, hSame⟩ := hFrame.data pkt hPkt
      obtain ⟨first, hFirst, -⟩ := hMissed.shrinks _ _ hGet
      have hOnTime := hMissed.onTime hInv.ordered _ (hInv.queued _ first hFirst) old hGet
      have hEncode : pkt.encodeTime = old.encodeTime :=
        congrArg (fun pkt => pkt.encodeTime) hSame
      rw [hEncode]
      simpa [missesDdl] using hOnTime
  · exact hShrinks
  · intro key pkt hGet hOnTime
    obtain hKept | ⟨-, other, hOther, hMiss⟩ := hMissed.get key
    · have hSame := hPass.same key
      change (pass.sender.dataPktHistory.get key).map SentPacket.identity =
        ((s.removeMissed s.dataPktHistoryKey s.dataPktHistory).2.get key).map _ at hSame
      rw [hKept, hGet, Option.map_some] at hSame
      exact Option.map_eq_some_iff.mp hSame
    · rw [hGet] at hOther
      cases hOther
      rw [hOnTime] at hMiss
      cases hMiss
  · have hKeys := hPass.sublist
    rw [List.nil_append] at hKeys
    apply hInv.shrinks (t := { pass.sender with dataPktHistoryKey := pass.kept }) hShrinks
      (hPass.noEmpty (hMissed.noEmpty hInv.noEmpty))
    · exact hKeys.trans hMissed.suffix.sublist
    · intro key hMem hFound
      have hLeft : s.rtxPass.sender.dataPktHistory.get key ≠ none := by
        intro hNone
        have hSame := hPass.same key
        rw [hNone, Option.map_none] at hSame
        exact hFound (Option.map_eq_none_iff.mp hSame)
      exact hPass.keeps key (hMissed.keeps key hMem hLeft) hLeft
    · exact hNow.ge

end Sender
end Bullet.Stream
