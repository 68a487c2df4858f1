import Bullet.Stream.PacketGroup
import Bullet.Stream.SenderHistory
import Mathlib.Data.FinEnum

/-! # The group parameters over whole runs

Every packet of a group carries the same numbers of data and FEC packets of the group, as long as the
FEC packets of a retransmission are as many as before, or none, and no group id comes back.
-/

namespace Bullet.Stream

open Lib Lib.PartialRun

namespace Sender

variable {env : SenderEnv} {s t u : Sender} {history : NestedMap UInt32 UInt16 SentPacket}
  {pkts : List SentPacket} {batches : List Batch} {event : SenderEvent} {pass next : RtxPass}

/-- The packet has been handed over to the send queue. -/
def InTraffic (s : Sender) (pkt : VideoPacket) : Prop :=
  ∃ frame ∈ s.traffic, pkt ∈ frame.packets

/-- The two packets give their group the same parameters. -/
structure SameGroup (header header' : VideoHeader) : Prop where
  groupId : header.groupId = header'.groupId
  groupDataNum : header.groupDataNum = header'.groupDataNum
  groupFecNum : header.groupFecNum = header'.groupFecNum

theorem SameGroup.symm {header header' : VideoHeader} (h : SameGroup header header') :
    SameGroup header' header :=
  ⟨h.groupId.symm, h.groupDataNum.symm, h.groupFecNum.symm⟩

theorem SameGroup.trans {header header' header'' : VideoHeader} (h : SameGroup header header')
    (h' : SameGroup header' header'') : SameGroup header header'' :=
  ⟨h.groupId.trans h'.groupId, h.groupDataNum.trans h'.groupDataNum,
    h.groupFecNum.trans h'.groupFecNum⟩

/-- The packets of a group agree on its parameters, and the stored ones are among them. -/
structure GroupsInv (s : Sender) : Prop where
  agree : ∀ pkt pkt', InTraffic s pkt → InTraffic s pkt' →
    pkt.header.groupId = pkt'.header.groupId → SameGroup pkt.header pkt'.header
  stored : Stored s.dataPktHistory
  sent : ∀ key pkt, s.dataPktHistory.get key = some pkt →
    ∃ first, InTraffic s first ∧ SameGroup pkt.toVideoHeader first.header

theorem sameGroup_of_identity {pkt old : SentPacket} (h : pkt.identity = old.identity) :
    SameGroup pkt.toVideoHeader old.toVideoHeader :=
  ⟨groupId_of_identity h, congrArg (fun pkt => pkt.groupDataNum) h,
    congrArg (fun pkt => pkt.groupFecNum) h⟩

/-- Nothing new is sent, and only what is stored stays stored. -/
theorem GroupsInv.shrinks (h : GroupsInv s) (hShrinks : Shrinks s.dataPktHistory t.dataPktHistory)
    (hTraffic : t.traffic = s.traffic) : GroupsInv t := by
  have hSent : ∀ pkt, InTraffic t pkt ↔ InTraffic s pkt := by
    intro pkt
    rw [InTraffic, hTraffic, InTraffic]
  constructor
  · intro pkt pkt' hPkt hPkt'
    exact h.agree pkt pkt' ((hSent pkt).mp hPkt) ((hSent pkt').mp hPkt')
  · exact hShrinks.stored h.stored
  · intro key pkt hGet
    obtain ⟨old, hOld, hSame⟩ := hShrinks key pkt hGet
    obtain ⟨first, hFirst, hEq⟩ := h.sent key old hOld
    exact ⟨first, (hSent first).mpr hFirst, (sameGroup_of_identity hSame).trans hEq⟩

/-- What is sent anew gives its group the parameters that an earlier packet gave it. -/
theorem GroupsInv.append {frame : PacketFrame} (h : GroupsInv s)
    (hShrinks : Shrinks s.dataPktHistory t.dataPktHistory)
    (hTraffic : t.traffic = s.traffic ++ [frame])
    (hFrame : ∀ pkt ∈ frame.packets, ∃ first, InTraffic s first ∧
      SameGroup pkt.header first.header) : GroupsInv t := by
  have hSource : ∀ pkt, InTraffic t pkt → ∃ first, InTraffic s first ∧
      SameGroup pkt.header first.header := by
    rintro pkt ⟨sent, hSent, hPkt⟩
    rw [hTraffic, List.mem_append] at hSent
    obtain hSent | hSent := hSent
    · exact ⟨pkt, ⟨sent, hSent, hPkt⟩, ⟨rfl, rfl, rfl⟩⟩
    · rw [List.mem_singleton.mp hSent] at hPkt
      exact hFrame pkt hPkt
  constructor
  · intro pkt pkt' hPkt hPkt' hGroup
    obtain ⟨first, hFirst, hSame⟩ := hSource pkt hPkt
    obtain ⟨first', hFirst', hSame'⟩ := hSource pkt' hPkt'
    have hFirsts := h.agree first first' hFirst hFirst'
      (hSame.groupId.symm.trans (hGroup.trans hSame'.groupId))
    exact (hSame.trans hFirsts).trans hSame'.symm
  · exact hShrinks.stored h.stored
  · intro key pkt hGet
    obtain ⟨old, hOld, hSame⟩ := hShrinks key pkt hGet
    obtain ⟨first, ⟨sent, hSent, hPkt⟩, hEq⟩ := h.sent key old hOld
    refine ⟨first, ⟨sent, ?_, hPkt⟩, (sameGroup_of_identity hSame).trans hEq⟩
    rw [hTraffic]
    exact List.mem_append_left _ hSent

/-! ## A new frame -/

theorem Groups.header_groupId_mem {groupId : UInt32} (h : Groups groupId pkts batches)
    {pkt : VideoPacket} (hMem : pkt ∈ batches.flatMap Batch.packets) :
    pkt.header.groupId ∈ groupIds groupId batches.length := by
  induction batches generalizing groupId pkts with
  | nil => cases hMem
  | cons batch batches ih =>
    obtain ⟨chunk, rest, info, rfl, hFirst, hRest⟩ := h
    rw [List.length_cons, groupIds_succ, List.mem_cons]
    rw [List.flatMap_cons, List.mem_append] at hMem
    obtain hMem | hMem := hMem
    · exact Or.inl ((hFirst.hasInfo hMem).groupId.trans hFirst.infoGroupId)
    · exact Or.inr (ih hRest hMem)

theorem HasInfo.sameGroup {info : BatchInfo} {header header' : VideoHeader} (h : HasInfo info header)
    (h' : HasInfo info header') : SameGroup header header' :=
  ⟨h.groupId.trans h'.groupId.symm, h.groupDataNum.trans h'.groupDataNum.symm,
    h.groupFecNum.trans h'.groupFecNum.symm⟩

/-- The packets of one group of a frame agree. -/
theorem Groups.sameGroup {groupId : UInt32} (h : Groups groupId pkts batches)
    (hLength : batches.length ≤ 2 ^ 32) {pkt pkt' : VideoPacket}
    (hMem : pkt ∈ batches.flatMap Batch.packets) (hMem' : pkt' ∈ batches.flatMap Batch.packets)
    (hGroup : pkt.header.groupId = pkt'.header.groupId) : SameGroup pkt.header pkt'.header := by
  induction batches generalizing groupId pkts with
  | nil => cases hMem
  | cons batch batches ih =>
    obtain ⟨chunk, rest, info, rfl, hFirst, hRest⟩ := h
    have hIds := nodup_groupIds groupId hLength
    rw [List.length_cons, groupIds_succ] at hIds
    have hOther : ∀ one two, one ∈ batch.packets → two ∈ batches.flatMap Batch.packets →
        one.header.groupId ≠ two.header.groupId := by
      intro one two hOne hTwo hEq
      have hIn := hRest.header_groupId_mem hTwo
      rw [← hEq, (hFirst.hasInfo hOne).groupId, hFirst.infoGroupId] at hIn
      exact (List.nodup_cons.mp hIds).1 hIn
    rw [List.length_cons] at hLength
    rw [List.flatMap_cons, List.mem_append] at hMem hMem'
    obtain hMem | hMem := hMem
    · obtain hMem' | hMem' := hMem'
      · exact (hFirst.hasInfo hMem).sameGroup (hFirst.hasInfo hMem')
      · exact (hOther pkt pkt' hMem hMem' hGroup).elim
    · obtain hMem' | hMem' := hMem'
      · exact (hOther pkt' pkt hMem' hMem hGroup.symm).elim
      · exact ih hRest (by omega) hMem hMem'

/-- A frame whose groups have ids that no packet has had before. -/
theorem GroupsInv.afterFrame {framePktNum : UInt16} {inputs : List PolicyInput} (h : GroupsInv s)
    (hGroups : Groups s.groupId pkts batches) (hLength : batches.length ≤ 2 ^ 32)
    (hFresh : ∀ pkt, InTraffic s pkt → pkt.header.groupId ∉ groupIds s.groupId batches.length) :
    GroupsInv (s.afterFrame framePktNum batches inputs) := by
  have hTraffic : ∀ pkt, InTraffic (s.afterFrame framePktNum batches inputs) pkt ↔
      InTraffic s pkt ∨ pkt ∈ batches.flatMap Batch.packets := by
    intro pkt
    simp only [InTraffic, Sender.afterFrame, List.mem_append, List.mem_singleton, or_and_right,
      exists_or, exists_eq_left]
  have hNew : ∀ pkt pkt', InTraffic s pkt → pkt' ∈ batches.flatMap Batch.packets →
      pkt.header.groupId ≠ pkt'.header.groupId := by
    intro pkt pkt' hPkt hPkt' hEq
    exact hFresh pkt hPkt (hEq ▸ hGroups.header_groupId_mem hPkt')
  have hSet : ∀ pkt ∈ batches.flatMap Batch.data, pkt.groupInfoSet = true :=
    hGroups.forall_data (p := fun pkt => pkt.groupInfoSet = true) fun _ _ _ _ => rfl
  constructor
  · intro pkt pkt' hPkt hPkt' hGroup
    obtain hPkt | hPkt := (hTraffic pkt).mp hPkt
    · obtain hPkt' | hPkt' := (hTraffic pkt').mp hPkt'
      · exact h.agree pkt pkt' hPkt hPkt' hGroup
      · exact (hNew pkt pkt' hPkt hPkt' hGroup).elim
    · obtain hPkt' | hPkt' := (hTraffic pkt').mp hPkt'
      · exact (hNew pkt' pkt hPkt' hPkt hGroup.symm).elim
      · exact hGroups.sameGroup hLength hPkt hPkt' hGroup
  · intro key left hLeft
    obtain ⟨pkt, hPkt, hKey, hFound⟩ | ⟨-, hFound⟩ := get_foldl_put_key s.dataPktHistory
      (batches.flatMap Batch.data) key
    · cases hFound.symm.trans hLeft
      exact ⟨hKey, hSet left hPkt⟩
    · exact h.stored key left (hFound.symm.trans hLeft)
  · intro key left hLeft
    obtain ⟨pkt, hPkt, hKey, hFound⟩ | ⟨-, hFound⟩ := get_foldl_put_key s.dataPktHistory
      (batches.flatMap Batch.data) key
    · cases hFound.symm.trans hLeft
      obtain ⟨batch, hBatch, hData⟩ := List.mem_flatMap.mp hPkt
      refine ⟨.data left.toDataPacket, (hTraffic _).mpr (Or.inr ?_), ⟨rfl, rfl, rfl⟩⟩
      apply List.mem_flatMap.mpr
      exact ⟨batch, hBatch, List.mem_append_left _ (List.mem_map.mpr ⟨left, hData, rfl⟩)⟩
    · obtain ⟨first, hFirst, hSame⟩ := h.sent key left (hFound.symm.trans hLeft)
      exact ⟨first, (hTraffic first).mpr (Or.inl hFirst), hSame⟩

/-! ## A retransmission -/

/-- The policy asks for no FEC packets when the group is retransmitted, or the last batch of the
packet met first had as many as the group. -/
def KeepsFecNum (env : SenderEnv) (s : Sender) (groupId : UInt32) : Prop :=
  ∀ group ∈ s.dataPktHistory.find groupId, ∀ front ∈ (env.walk group.entries).head?,
    front.2.batchFecNum = front.2.groupFecNum ∨
      ∀ frameSize ∈ s.frameDataPktCnt.find front.2.frameId,
        (s.rtxParam env (env.walk group.entries).length (s.rtxDdlLeft (env.walk group.entries))
          frameSize).fecNum (UInt16.ofNat (env.walk group.entries).length) = 0

instance (groupId : UInt32) : Decidable (KeepsFecNum env s groupId) := by
  unfold KeepsFecNum
  infer_instance

/-- A turn of the check's second loop that retransmits a group keeps its FEC number. -/
def TurnKeepsFecNum (env : SenderEnv) (pass : RtxPass) (info : GroupPacketInfo) : Prop :=
  ∀ pkt ∈ pass.sender.dataPktHistory.get info, Retransmits pass info pkt.groupId →
    KeepsFecNum env pass.sender pkt.groupId

instance (info : GroupPacketInfo) : Decidable (TurnKeepsFecNum env pass info) := by
  unfold TurnKeepsFecNum
  infer_instance

theorem IsRtxBatch.fec_eq {groupId : UInt32} {entries : List (UInt16 × SentPacket)}
    {front : SentPacket} {batch : Batch} {info : BatchInfo} {pkt : FecPacket}
    (h : IsRtxBatch env s groupId entries front batch info) (hKeeps : KeepsFecNum env s groupId)
    (hMem : pkt ∈ batch.fec) : info.groupFecNum = front.groupFecNum := by
  obtain ⟨group, hFind, rfl⟩ := h.walk
  obtain ⟨i, tail, hHead⟩ := h.head
  have hFront : (i, front) ∈ (env.walk group.entries).head? := by
    rw [hHead]
    rfl
  obtain hSame | hNone := hKeeps group hFind (i, front) hFront
  · exact h.infoGroupFecNum.trans hSame
  · obtain ⟨frameSize, hSize, hNum⟩ := h.policy
    have hLength := h.fecLength
    rw [hNum, hNone frameSize hSize] at hLength
    rw [List.eq_nil_of_length_eq_zero hLength] at hMem
    cases hMem

theorem GroupsInv.retransmitGroup {groupId : UInt32} {i : UInt16} {pkt : SentPacket} (h : GroupsInv s)
    (hKeeps : KeepsFecNum env s groupId) (hFound : s.dataPktHistory.get (groupId, i) = some pkt)
    (hSend : s.retransmitGroup env groupId = some t) : GroupsInv t := by
  obtain ⟨entries, front, batch, info, input, history, hBatch, rfl, hSame, -⟩ :=
    retransmitGroup_spec h.stored hFound hSend
  apply h.append (t := s.afterRtx batch input history) hSame.shrinks rfl
  intro pkt hMem
  obtain hData | hFec := List.mem_append.mp hMem
  · obtain ⟨sent, hSent, rfl⟩ := List.mem_map.mp hData
    obtain ⟨old, hOld, hEq⟩ := hBatch.data sent hSent
    obtain ⟨first, hFirst, hFirstSame⟩ := h.sent _ old hOld
    exact ⟨first, hFirst, (sameGroup_of_identity hEq).trans hFirstSame⟩
  · obtain ⟨sent, hSent, rfl⟩ := List.mem_map.mp hFec
    obtain ⟨j, hFront⟩ := hBatch.get_front
    obtain ⟨first, hFirst, hFirstSame⟩ := h.sent _ front hFront
    have hInfo := hBatch.fec sent hSent
    have hFrontGroup : front.groupId = groupId := congrArg Prod.fst (h.stored _ _ hFront).1
    refine ⟨first, hFirst, SameGroup.trans ⟨?_, ?_, ?_⟩ hFirstSame⟩
    · exact hInfo.groupId.trans (hBatch.infoGroupId.trans hFrontGroup.symm)
    · exact hInfo.groupDataNum.trans hBatch.infoGroupDataNum
    · exact hInfo.groupFecNum.trans (hBatch.fec_eq hKeeps hSent)

theorem GroupsInv.checkKey {info : GroupPacketInfo} (h : GroupsInv pass.sender)
    (hKeeps : TurnKeepsFecNum env pass info) (hTurn : checkKey env pass info = some next) :
    GroupsInv next.sender := by
  obtain ⟨hSender, -⟩ | ⟨groupId, hRtx, hSend, -⟩ := checkKey_cases hTurn
  · rw [hSender]
    exact h
  · obtain ⟨pkt, hGet, rfl, -, -⟩ := hRtx.found
    have hFound : pass.sender.dataPktHistory.get (pkt.groupId, info.2) = some pkt := by
      rw [← hGet, ← (h.stored info pkt hGet).1]
      rfl
    exact h.retransmitGroup (hKeeps pkt hGet hRtx) hFound hSend

theorem GroupsInv.checkRetransmission (h : GroupsInv s)
    (hKeeps : StepsMeet (Sender.checkKey env) (TurnKeepsFecNum env) s.rtxPass
      s.rtxPass.sender.dataPktHistoryKey)
    (hCheck : s.checkRetransmission env = some t) : GroupsInv t := by
  obtain ⟨pass, hRun, rfl⟩ := Option.map_eq_some_iff.mp hCheck
  have hStart : GroupsInv s.rtxPass.sender :=
    h.shrinks (removeMissed_spec s s.dataPktHistoryKey s.dataPktHistory).shrinks rfl
  have hPass : GroupsInv pass.sender :=
    @invariant_of_run _ _ _ _ _ _ (fun pass => GroupsInv pass.sender)
      (fun _ _ _ hInv hTurnKeeps hTurn => hInv.checkKey hTurnKeeps hTurn) _ hStart hKeeps hRun
  exact hPass.shrinks (t := { pass.sender with dataPktHistoryKey := pass.kept }) (Shrinks.refl _) rfl

/-! ## Runs -/

/-- New groups have new ids, and retransmissions keep the groups' FEC numbers. -/
def KeepsGroups (env : SenderEnv) (s : Sender) : SenderEvent → Prop
  | .sendFrame dataSize => ∀ frame ∈ s.traffic, ∀ pkt ∈ frame.packets,
      pkt.header.groupId ∉ newGroupIds env s dataSize
  | .checkRetransmission => StepsMeet (checkKey env) (TurnKeepsFecNum env) s.rtxPass
      s.rtxPass.sender.dataPktHistoryKey
  | _ => True

instance : DecidablePred (KeepsGroups env s)
  | .sendFrame dataSize =>
    have (frame : PacketFrame) : Decidable (∀ pkt ∈ frame.packets,
        pkt.header.groupId ∉ newGroupIds env s dataSize) := List.decidableBAll _ frame.packets
    List.decidableBAll (fun frame : PacketFrame => ∀ pkt ∈ frame.packets,
      pkt.header.groupId ∉ newGroupIds env s dataSize) s.traffic
  | .wait _ => isTrue trivial
  | .rcvAck _ => isTrue trivial
  | .checkRetransmission => inferInstanceAs (Decidable (StepsMeet (checkKey env)
      (TurnKeepsFecNum env) s.rtxPass s.rtxPass.sender.dataPktHistoryKey))
  | .packetSent _ => isTrue trivial
  | .setNetStat _ => isTrue trivial

theorem step_groupsInv (h : GroupsInv s) (hKeeps : KeepsGroups env s event)
    (hStep : s.step env event = some t) : GroupsInv t := by
  cases event with
  | wait delay =>
    cases hStep
    exact h.shrinks (t := { s with now := s.now + delay }) (Shrinks.refl _) rfl
  | sendFrame dataSize =>
    obtain ⟨-, rfl⟩ | ⟨-, pkts, batches, inputs, hCut, -, -, rfl, hGroups, -, -, hCount⟩ :=
      sendFrame_cases hStep
    · exact h
    · apply h.afterFrame hGroups (hGroups.length_le_ids hCut)
      rintro pkt ⟨frame, hFrame, hPkt⟩
      have hNew : pkt.header.groupId ∉ newGroupIds env s dataSize := hKeeps frame hFrame pkt hPkt
      rw [newGroupIds, hCut] at hNew
      rw [hCount]
      exact hNew
  | rcvAck pktInfos =>
    cases hStep
    apply h.shrinks (t := s.rcvAckPacket pktInfos) _ rfl
    intro key left hLeft
    rw [rcvAckPacket, NestedMap.get_foldl_remove] at hLeft
    split at hLeft
    · cases hLeft
    · exact ⟨left, hLeft, rfl⟩
  | checkRetransmission => exact h.checkRetransmission hKeeps hStep
  | packetSent info =>
    cases hStep
    apply h.shrinks (t := s.packetSent info)
    · exact (sameStored_packetSent s info).shrinks
    · rw [packetSent]
      split
      · rfl
      · rfl
  | setNetStat netStat =>
    cases hStep
    exact h.shrinks (t := { s with netStat := netStat }) (Shrinks.refl _) rfl

/-- The receiver's group, as its first packet makes it. -/
def receiverGroup (pkt : VideoPacket) : PacketGroup :=
  (PacketGroup.create pkt.header.groupId pkt.header.groupDataNum pkt.header.encodeTime).initGroup pkt

/-- All packets sent for a group carry its parameters, and so does the receiver's group, whichever of
them comes first. -/
structure GroupsStable (s : Sender) : Prop where
  parameters : ∀ pkt pkt', InTraffic s pkt → InTraffic s pkt' →
    pkt.header.groupId = pkt'.header.groupId →
      pkt.header.groupDataNum = pkt'.header.groupDataNum ∧
      pkt.header.groupFecNum = pkt'.header.groupFecNum
  receiver : ∀ pkt pkt', InTraffic s pkt → InTraffic s pkt' →
    pkt.header.groupId = pkt'.header.groupId →
      (receiverGroup pkt).groupId = pkt'.header.groupId ∧
      (receiverGroup pkt).dataNum = pkt'.header.groupDataNum ∧
      (receiverGroup pkt).fecNum = pkt'.header.groupFecNum

theorem groupsInv_create (delayDdl : Time) (netStat : NetStat) :
    GroupsInv (create delayDdl netStat) where
  agree := by
    rintro pkt pkt' ⟨frame, hFrame, -⟩
    cases hFrame
  stored := fun _ _ hGet => by cases hGet
  sent := fun _ _ hGet => by cases hGet

/-- In a run whose new groups have new ids and whose retransmissions keep the FEC numbers, every group
keeps its parameters. -/
theorem groupsStable_of_run {delayDdl : Time} {netStat : NetStat} {events : List SenderEvent}
    (hKeeps : StepsMeet (step env) (KeepsGroups env) (create delayDdl netStat) events)
    (hRun : run (step env) (create delayDdl netStat) events = some t) : GroupsStable t := by
  have hInv : GroupsInv t := invariant_of_run
    (fun _ _ _ hInv hKeeps hStep => step_groupsInv hInv hKeeps hStep)
    (groupsInv_create delayDdl netStat) hKeeps hRun
  constructor
  · intro pkt pkt' hPkt hPkt' hGroup
    have hSame := hInv.agree pkt pkt' hPkt hPkt' hGroup
    exact ⟨hSame.groupDataNum, hSame.groupFecNum⟩
  · intro pkt pkt' hPkt hPkt' hGroup
    have hSame := hInv.agree pkt pkt' hPkt hPkt' hGroup
    exact ⟨hSame.groupId, hSame.groupDataNum, hSame.groupFecNum⟩

/-- A group with one FEC packet, retransmitted twice with one FEC packet. -/
theorem groupsStable_two_rounds :
    ∃ t, run (step (.constant 1 1)) (create 100000000 ⟨0, 0, 0, 0⟩)
        [.sendFrame 1000, .wait 5, .checkRetransmission, .wait 5, .checkRetransmission] = some t ∧
      GroupsStable t := by
  have hSome : (run (step (.constant 1 1)) (create 100000000 ⟨0, 0, 0, 0⟩)
      [.sendFrame 1000, .wait 5, .checkRetransmission, .wait 5, .checkRetransmission]).isSome =
        true := by
    decide +kernel
  obtain ⟨t, hRun⟩ := Option.isSome_iff_exists.mp hSome
  exact ⟨t, hRun, groupsStable_of_run (by decide +kernel) hRun⟩

theorem inOrder_perm (l : List (UInt16 × SentPacket)) : l.Perm l := .refl l

/-- A policy that protects retransmissions only. -/
def protectRtx : SenderEnv where
  policy := fun _ input => ⟨1, fun _ => if input.isRtx then 1 else 0⟩
  walk := id
  walk_perm := inOrder_perm

/-- The FEC packet of the second retransmission carries the first one's FEC number for the group. -/
theorem groups_not_stable :
    ∃ t, run (step protectRtx) (create 100000000 ⟨0, 0, 0, 0⟩)
        [.sendFrame 1000, .wait 5, .checkRetransmission, .wait 5, .checkRetransmission] = some t ∧
      ¬GroupsStable t := by
  have hNums : (run (step protectRtx) (create 100000000 ⟨0, 0, 0, 0⟩)
      [.sendFrame 1000, .wait 5, .checkRetransmission, .wait 5, .checkRetransmission]).map
        (fun t => t.traffic.flatMap fun frame => frame.packets.map fun pkt =>
          (pkt.header.groupId, pkt.header.groupFecNum)) =
      some [(0, 0), (0, 0), (0, 0), (0, 0), (0, 1)] := by
    decide +kernel
  obtain ⟨t, hRun, hTraffic⟩ := Option.map_eq_some_iff.mp hNums
  refine ⟨t, hRun, fun hStable => ?_⟩
  have hSent : ∀ nums ∈ [((0 : UInt32), (0 : UInt16)), (0, 1)],
      ∃ pkt, InTraffic t pkt ∧ (pkt.header.groupId, pkt.header.groupFecNum) = nums := by
    intro nums hMem
    have hNum : nums ∈ t.traffic.flatMap fun frame => frame.packets.map fun pkt =>
        (pkt.header.groupId, pkt.header.groupFecNum) := by
      rw [hTraffic]
      revert hMem
      simp
    obtain ⟨frame, hFrame, hMap⟩ := List.mem_flatMap.mp hNum
    obtain ⟨pkt, hPkt, rfl⟩ := List.mem_map.mp hMap
    exact ⟨pkt, ⟨frame, hFrame, hPkt⟩, rfl⟩
  obtain ⟨pkt, hPkt, hNum⟩ := hSent (0, 0) (by simp)
  obtain ⟨pkt', hPkt', hNum'⟩ := hSent (0, 1) (by simp)
  obtain ⟨hGroup, hFec⟩ := Prod.mk.injEq _ _ _ _ ▸ hNum
  obtain ⟨hGroup', hFec'⟩ := Prod.mk.injEq _ _ _ _ ▸ hNum'
  have hSame := (hStable.parameters pkt pkt' hPkt hPkt' (hGroup.trans hGroup'.symm)).2
  rw [hFec, hFec'] at hSame
  revert hSame
  decide

end Sender
end Bullet.Stream
