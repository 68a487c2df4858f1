import Bullet.Stream.Sender
import Mathlib.Algebra.Group.Nat.Defs
import Mathlib.Algebra.GroupWithZero.Nat
import Mathlib.Data.List.Forall2

/-! # Cutting a frame into groups

What the sender makes of the data packets of a frame: consecutive groups, each with its ids and
counts, and when the cut is right for every packet of the frame.
-/

namespace Bullet.Stream

open Lib

namespace Sender

variable {env : SenderEnv} {s t u : Sender} {pkts rest : List SentPacket} {batches : List Batch}
  {batch : Batch} {param : FecParam} {ddlLeft : Time} {frameId : UInt32}

/-! ## One batch -/

def stamp (info : BatchInfo) (pktIdInBatch pktIdInGroup : UInt16) (i : Nat) (pkt : SentPacket) :
    SentPacket :=
  (pkt.setFecBatch info (pktIdInBatch + UInt16.ofNat i)).setFecGroup info
    (pktIdInGroup + UInt16.ofNat i)

theorem uint16_add_succ (a : UInt16) (i : Nat) :
    a + UInt16.ofNat (i + 1) = a + 1 + UInt16.ofNat i := by
  rw [UInt16.ofNat_add, UInt16.add_comm (UInt16.ofNat i), ← UInt16.add_assoc]
  rfl

theorem assignIds_new (info : BatchInfo) (pktIdInBatch pktIdInGroup : UInt16)
    (pkts : List SentPacket) :
    assignIds info true pktIdInBatch pktIdInGroup pkts =
      some (pkts.mapIdx (stamp info pktIdInBatch pktIdInGroup),
        pktIdInGroup + UInt16.ofNat pkts.length) := by
  induction pkts generalizing pktIdInBatch pktIdInGroup with
  | nil => simp [assignIds]
  | cons pkt pkts ih =>
    have hStamp : (fun i => stamp info pktIdInBatch pktIdInGroup (i + 1)) =
        stamp info (pktIdInBatch + 1) (pktIdInGroup + 1) := by
      funext i pkt
      rw [stamp, stamp, uint16_add_succ, uint16_add_succ]
    rw [assignIds, if_neg (by simp), ih, Option.map_some, List.mapIdx_cons, hStamp,
      List.length_cons, uint16_add_succ]
    simp [stamp]

/-- The batch that a new group is made of. -/
def firstInfo (s : Sender) (param : FecParam) (n : Nat) : BatchInfo where
  groupId := s.groupId
  groupDataNum := UInt16.ofNat n
  groupFecNum := param.fecNum (UInt16.ofNat n)
  batchId := s.batchId
  batchDataNum := UInt16.ofNat n
  batchFecNum := param.fecNum (UInt16.ofNat n)

/-- The sender after it has made `n` groups and called the policy on `inputs`. -/
def advance (s : Sender) (n : Nat) (inputs : List PolicyInput) : Sender :=
  { s with
    groupId := s.groupId + UInt32.ofNat n
    batchId := s.batchId + UInt32.ofNat n
    sendGroupCnt := s.sendGroupCnt + UInt64.ofNat n
    policyInputs := s.policyInputs ++ inputs }

theorem advance_advance (s : Sender) (n m : Nat) (inputs more : List PolicyInput) :
    (s.advance n inputs).advance m more = s.advance (n + m) (inputs ++ more) := by
  simp [advance, UInt32.ofNat_add, UInt64.ofNat_add, UInt32.add_assoc, UInt64.add_assoc]

theorem advance_zero (s : Sender) : s.advance 0 [] = s := by
  simp [advance]

@[simp] theorem groupId_advance_zero (s : Sender) (inputs : List PolicyInput) :
    (s.advance 0 inputs).groupId = s.groupId :=
  UInt32.add_zero s.groupId

/-- The batch of the stamped packets `data`, its FEC packets numbered by `pktIdInGroup`. -/
def batchOf (s : Sender) (info : BatchInfo) (txCount : UInt8) (data : List SentPacket)
    (pktIdInGroup : Nat → UInt16) : Batch where
  data := data
  fec := (List.range info.batchFecNum.toNat).map fun i =>
    fecPacket info txCount s.now (data.map SentPacket.digest) (info.batchDataNum + UInt16.ofNat i)
      (pktIdInGroup i)

/-- The header carries the ids and counts of `info`. -/
structure HasInfo (info : BatchInfo) (header : VideoHeader) : Prop where
  groupId : header.groupId = info.groupId
  groupDataNum : header.groupDataNum = info.groupDataNum
  groupFecNum : header.groupFecNum = info.groupFecNum
  batchDataNum : header.batchDataNum = info.batchDataNum
  batchFecNum : header.batchFecNum = info.batchFecNum

theorem hasInfo_batchOf {info : BatchInfo} {txCount : UInt8} {data : List SentPacket}
    {pktIdInGroup : Nat → UInt16} {pkt : FecPacket}
    (h : pkt ∈ (batchOf s info txCount data pktIdInGroup).fec) : HasInfo info pkt.toVideoHeader := by
  obtain ⟨i, -, rfl⟩ := List.mem_map.mp h
  exact ⟨rfl, rfl, rfl, rfl, rfl⟩

/-- `batch` is the first transmission of the packets `chunk` as group `groupId`. -/
structure IsFirstBatch (groupId : UInt32) (chunk : List SentPacket) (batch : Batch)
    (info : BatchInfo) : Prop where
  nonempty : chunk ≠ []
  short : chunk.length ≤ 65535
  infoGroupId : info.groupId = groupId
  infoGroupDataNum : info.groupDataNum = UInt16.ofNat chunk.length
  infoBatchDataNum : info.batchDataNum = UInt16.ofNat chunk.length
  infoGroupFecNum : info.groupFecNum = info.batchFecNum
  data : batch.data = chunk.mapIdx (stamp info 0 0)
  fecLength : batch.fec.length = info.batchFecNum.toNat
  fec : ∀ pkt ∈ batch.fec, HasInfo info pkt.toVideoHeader

theorem createFirstPacketBatch_nil : s.createFirstPacketBatch [] param = none := rfl

theorem createFirstPacketBatch_eq (s : Sender) (param : FecParam) (front : SentPacket)
    (tail : List SentPacket) :
    s.createFirstPacketBatch (front :: tail) param =
      some (batchOf s (s.firstInfo param (front :: tail).length) front.txCount
        ((front :: tail).mapIdx (stamp (s.firstInfo param (front :: tail).length) 0 0))
        (fun i => 0 + UInt16.ofNat (front :: tail).length + UInt16.ofNat i), s.advance 1 []) := by
  simp only [createFirstPacketBatch, createPacketBatch, assignIds_new, Option.map_some, if_true,
    advance, List.append_nil]
  rfl

theorem createFirstPacketBatch_spec (s : Sender) (param : FecParam) (hNe : pkts ≠ [])
    (hShort : pkts.length ≤ 65535) :
    ∃ batch info, s.createFirstPacketBatch pkts param = some (batch, s.advance 1 []) ∧
      IsFirstBatch s.groupId pkts batch info := by
  obtain ⟨front, tail, rfl⟩ := List.exists_cons_of_ne_nil hNe
  refine ⟨_, s.firstInfo param (front :: tail).length, createFirstPacketBatch_eq s param front tail,
    hNe, hShort, rfl, rfl, rfl, rfl, rfl, ?_, ?_⟩
  · rw [batchOf, List.length_map, List.length_range]
  · intro pkt hMem
    exact hasInfo_batchOf hMem

/-! ## All groups of a frame -/

/-- `batches` are the first transmissions of consecutive groups of `pkts`, numbered from `groupId`
on. -/
def Groups : UInt32 → List SentPacket → List Batch → Prop
  | _, pkts, [] => pkts = []
  | groupId, pkts, batch :: batches =>
    ∃ chunk rest info, pkts = chunk ++ rest ∧ IsFirstBatch groupId chunk batch info ∧
      Groups (groupId + 1) rest batches

theorem uint32_add_succ (a : UInt32) (i : Nat) :
    a + UInt32.ofNat (i + 1) = a + 1 + UInt32.ofNat i := by
  rw [UInt32.ofNat_add, UInt32.add_comm (UInt32.ofNat i), ← UInt32.add_assoc]
  rfl

theorem Groups.append {groupId : UInt32} {pkts more : List SentPacket}
    {batches further : List Batch} (h : Groups groupId pkts batches)
    (h' : Groups (groupId + UInt32.ofNat batches.length) more further) :
    Groups groupId (pkts ++ more) (batches ++ further) := by
  induction batches generalizing groupId pkts with
  | nil =>
    rw [Groups] at h
    rw [h, List.nil_append, List.nil_append]
    simpa using h'
  | cons batch batches ih =>
    obtain ⟨chunk, rest, info, hPkts, hFirst, hRest⟩ := h
    rw [List.length_cons, uint32_add_succ] at h'
    refine ⟨chunk, rest ++ more, info, ?_, hFirst, ih hRest h'⟩
    rw [hPkts, List.append_assoc]

theorem groups_singleton {groupId : UInt32} {info : BatchInfo}
    (h : IsFirstBatch groupId pkts batch info) : Groups groupId pkts [batch] :=
  ⟨pkts, [], info, (List.append_nil pkts).symm, h, rfl⟩

theorem fullGroups_zero {fuel : Nat} (h : param.fecGroupSize = 0) :
    fullGroups param fuel s pkts = none := by
  have hLoop : ¬pkts.length < param.fecGroupSize.toNat := by
    rw [h]
    exact Nat.not_lt_zero _
  cases fuel with
  | zero => rw [fullGroups, if_neg hLoop]
  | succ fuel =>
    have hTake : pkts.take param.fecGroupSize.toNat = [] := by
      rw [h]
      rfl
    rw [fullGroups, if_neg hLoop, hTake, createFirstPacketBatch_nil]
    rfl

theorem fullGroups_spec {fuel : Nat} (hSize : param.fecGroupSize ≠ 0) (hFuel : pkts.length ≤ fuel) :
    ∃ taken rest batches, fullGroups param fuel s pkts =
        some (batches, rest, s.advance batches.length []) ∧
      pkts = taken ++ rest ∧ Groups s.groupId taken batches ∧
      taken.length = batches.length * param.fecGroupSize.toNat ∧
      rest.length < param.fecGroupSize.toNat := by
  have hPos : 0 < param.fecGroupSize.toNat := by
    rw [Nat.pos_iff_ne_zero]
    intro hZero
    exact hSize (UInt16.toNat_inj.mp hZero)
  induction fuel generalizing s pkts with
  | zero =>
    have hStop : pkts.length < param.fecGroupSize.toNat := lt_of_le_of_lt hFuel hPos
    refine ⟨[], pkts, [], ?_, rfl, rfl, (Nat.zero_mul _).symm, hStop⟩
    rw [fullGroups, if_pos hStop, List.length_nil, advance_zero]
  | succ fuel ih =>
    by_cases hStop : pkts.length < param.fecGroupSize.toNat
    · refine ⟨[], pkts, [], ?_, rfl, rfl, (Nat.zero_mul _).symm, hStop⟩
      rw [fullGroups, if_pos hStop, List.length_nil, advance_zero]
    · have hTake : pkts.take param.fecGroupSize.toNat ≠ [] := by
        apply List.ne_nil_of_length_pos
        rw [List.length_take]
        omega
      have hLength : (pkts.take param.fecGroupSize.toNat).length = param.fecGroupSize.toNat := by
        rw [List.length_take]
        omega
      obtain ⟨batch, info, hCreate, hFirst⟩ :=
        createFirstPacketBatch_spec s param hTake
          (hLength.trans_le (Nat.le_of_lt_succ param.fecGroupSize.toNat_lt))
      have hDrop : (pkts.drop param.fecGroupSize.toNat).length ≤ fuel := by
        rw [List.length_drop]
        omega
      obtain ⟨taken, rest, batches, hLoop, hPkts, hGroups, hTaken, hRest⟩ :=
        ih (s := s.advance 1 []) hDrop
      refine ⟨pkts.take param.fecGroupSize.toNat ++ taken, rest, batch :: batches, ?_, ?_,
        ⟨pkts.take param.fecGroupSize.toNat, taken, info, rfl, hFirst, hGroups⟩, ?_, hRest⟩
      · rw [fullGroups, if_neg hStop, hCreate]
        simp only [bind, Option.bind_some, hLoop, advance_advance, List.length_cons,
          List.append_nil, Nat.add_comm 1]
      · rw [List.append_assoc, ← hPkts, List.take_append_drop]
      · rw [List.length_append, hLength, hTaken, List.length_cons, Nat.succ_mul, Nat.add_comm]

/-- Every policy call is about the frame with the recorded size. -/
def CallsFor (s : Sender) (frameId : UInt32) (isRtx : Bool) (inputs : List PolicyInput) : Prop :=
  ∀ input ∈ inputs, s.frameDataPktCnt.find frameId = some input.frameSize ∧ input.isRtx = isRtx

/-- The call of the policy for the packets `pkts` of a frame. -/
theorem getFecParam_spec (env : SenderEnv) (ddlLeft : Time) (fixGroupSize isRtx : Bool) (n : Nat)
    {frameSize : UInt8} (h : s.frameDataPktCnt.find frameId = some frameSize) :
    ∃ input, s.getFecParam env (UInt16.ofNat n) ddlLeft fixGroupSize isRtx frameId =
        some (env.policy s.policyInputs
            (s.policyInput (UInt16.ofNat n) ddlLeft fixGroupSize isRtx frameSize),
          s.advance 0 [input]) ∧
      s.CallsFor frameId isRtx [input] := by
  refine ⟨s.policyInput (UInt16.ofNat n) ddlLeft fixGroupSize isRtx frameSize, ?_, ?_⟩
  · rw [getFecParam, h]
    simp [advance]
  · intro input hMem
    cases List.mem_singleton.mp hMem
    exact ⟨h, rfl⟩

theorem lastGroup_spec (env : SenderEnv) (pkts : List SentPacket) (ddlLeft : Time)
    {frameSize : UInt8} (h : s.frameDataPktCnt.find frameId = some frameSize)
    (hShort : pkts.length ≤ 65535) :
    ∃ batches inputs, s.lastGroup env pkts ddlLeft frameId false =
        some (batches, s.advance batches.length inputs) ∧
      Groups s.groupId pkts batches ∧ s.CallsFor frameId false inputs ∧
      batches.length = if pkts = [] then 0 else 1 := by
  by_cases hNil : pkts = []
  · refine ⟨[], [], ?_, hNil, ?_, (if_pos hNil).symm⟩
    · rw [lastGroup, if_pos hNil, List.length_nil, advance_zero]
    · intro input hMem
      cases hMem
  · obtain ⟨input, hParam, hCalls⟩ := getFecParam_spec env ddlLeft true false pkts.length h
    obtain ⟨batch, info, hCreate, hFirst⟩ := createFirstPacketBatch_spec (s.advance 0 [input])
      (env.policy s.policyInputs
        (s.policyInput (UInt16.ofNat pkts.length) ddlLeft true false frameSize)) hNil hShort
    rw [groupId_advance_zero] at hFirst
    refine ⟨[batch], [input], ?_, groups_singleton hFirst, hCalls, (if_neg hNil).symm⟩
    rw [lastGroup, if_neg hNil, hParam]
    simp only [bind, Option.bind_some, Bool.false_eq_true, if_false, hCreate, advance_advance,
      List.append_nil, List.length_singleton, Nat.zero_add]

/-- The policy's answer for the whole frame. -/
def firstParam (env : SenderEnv) (s : Sender) (n : Nat) (ddlLeft : Time) (frameSize : UInt8) :
    FecParam :=
  env.policy s.policyInputs (s.policyInput (UInt16.ofNat n) ddlLeft false false frameSize)

theorem firstGroups_spec (env : SenderEnv) (pkts : List SentPacket) (ddlLeft : Time)
    {frameSize : UInt8} (h : s.frameDataPktCnt.find frameId = some frameSize) :
    ∃ input, s.firstGroups env pkts ddlLeft frameId =
        fullGroups (s.firstParam env pkts.length ddlLeft frameSize) pkts.length
          (s.advance 0 [input]) pkts ∧
      s.CallsFor frameId false [input] := by
  obtain ⟨input, hParam, hCalls⟩ := getFecParam_spec env ddlLeft false false pkts.length h
  refine ⟨input, ?_, hCalls⟩
  rw [firstGroups, hParam]
  rfl

theorem sendPackets_zero (env : SenderEnv) {frameSize : UInt8} (h : s.frameDataPktCnt.find frameId = some frameSize)
    (hSize : (s.firstParam env pkts.length ddlLeft frameSize).fecGroupSize = 0) :
    s.sendPackets env pkts ddlLeft frameId false = none := by
  obtain ⟨input, hFirst, -⟩ := firstGroups_spec env pkts ddlLeft h
  rw [sendPackets, if_neg Bool.false_ne_true, hFirst, fullGroups_zero hSize]
  rfl

/-- The number of groups that `n` packets make. -/
def groupCount (param : FecParam) (n : Nat) : Nat :=
  (n + param.fecGroupSize.toNat - 1) / param.fecGroupSize.toNat

theorem groupCount_eq {k : Nat} (h : rest.length < param.fecGroupSize.toNat) :
    groupCount param (k * param.fecGroupSize.toNat + rest.length) =
      k + if rest = [] then 0 else 1 := by
  have hPos : 0 < param.fecGroupSize.toNat := Nat.zero_lt_of_lt h
  have hSplit : k * param.fecGroupSize.toNat + rest.length + param.fecGroupSize.toNat - 1 =
      rest.length + param.fecGroupSize.toNat - 1 + k * param.fecGroupSize.toNat := by
    omega
  rw [groupCount, hSplit, Nat.add_mul_div_right _ _ hPos, Nat.add_comm]
  congr 1
  split
  · next hNil =>
    rw [hNil, List.length_nil]
    exact Nat.div_eq_of_lt (by omega)
  · next hNe =>
    have hRest := List.length_pos_of_ne_nil hNe
    apply Nat.div_eq_of_lt_le
    · omega
    · omega

theorem sendPackets_spec (env : SenderEnv) {frameSize : UInt8} (h : s.frameDataPktCnt.find frameId = some frameSize)
    (hSize : (s.firstParam env pkts.length ddlLeft frameSize).fecGroupSize ≠ 0) :
    ∃ batches inputs, s.sendPackets env pkts ddlLeft frameId false =
        some (batches.map (Batch.setEnqueueTime s.now),
          (s.advance batches.length inputs).enqueue
            (batches.map (Batch.setEnqueueTime s.now)) false) ∧
      Groups s.groupId pkts batches ∧ s.CallsFor frameId false inputs ∧ inputs ≠ [] ∧
      batches.length =
        groupCount (s.firstParam env pkts.length ddlLeft frameSize) pkts.length := by
  obtain ⟨input, hFirst, hCall⟩ := firstGroups_spec env pkts ddlLeft h
  obtain ⟨taken, rest, batches, hLoop, hPkts, hGroups, hTaken, hRest⟩ :=
    fullGroups_spec (s := s.advance 0 [input]) hSize (le_refl pkts.length)
  rw [advance_advance, List.append_nil, Nat.zero_add] at hLoop
  rw [groupId_advance_zero] at hGroups
  have hShort : rest.length ≤ 65535 := hRest.le.trans (Nat.le_of_lt_succ (UInt16.toNat_lt _))
  obtain ⟨last, inputs, hLast, hLastGroups, hCalls, hCount⟩ := lastGroup_spec env rest ddlLeft
    (s := s.advance batches.length [input]) h hShort
  rw [advance_advance] at hLast
  refine ⟨batches ++ last, input :: inputs, ?_, ?_, ?_, List.cons_ne_nil _ _, ?_⟩
  · rw [sendPackets, if_neg Bool.false_ne_true, hFirst, hLoop]
    simp only [bind, Option.bind_some, hLast, List.length_append, List.singleton_append]
    rfl
  · rw [hPkts]
    exact hGroups.append hLastGroups
  · intro other hMem
    obtain rfl | hMem := List.mem_cons.mp hMem
    · exact hCall other (List.mem_singleton_self other)
    · exact hCalls other hMem
  · have hLength : pkts.length = batches.length *
        (s.firstParam env pkts.length ddlLeft frameSize).fecGroupSize.toNat + rest.length := by
      rw [← hTaken, ← List.length_append, ← hPkts]
    rw [List.length_append, hCount]
    nth_rewrite 2 [hLength]
    rw [groupCount_eq hRest]

/-! ## One frame -/

theorem IsFirstBatch.enqueued {groupId : UInt32} {info : BatchInfo}
    (h : IsFirstBatch groupId pkts batch info) (time : Time) :
    IsFirstBatch groupId (pkts.map (SentPacket.setEnqueueTime time)) (batch.setEnqueueTime time) info where
  nonempty := by simpa using h.nonempty
  short := by rw [List.length_map]; exact h.short
  infoGroupId := h.infoGroupId
  infoGroupDataNum := by rw [List.length_map, h.infoGroupDataNum]
  infoBatchDataNum := by rw [List.length_map, h.infoBatchDataNum]
  infoGroupFecNum := h.infoGroupFecNum
  data := by
    rw [Batch.setEnqueueTime, h.data]
    apply List.ext_getElem
    · simp
    · intro i hLeft hRight
      simp [stamp, SentPacket.setEnqueueTime, SentPacket.setFecBatch, SentPacket.setFecGroup]
  fecLength := h.fecLength
  fec := h.fec

theorem Groups.enqueued {groupId : UInt32} (h : Groups groupId pkts batches) (time : Time) :
    Groups groupId (pkts.map (SentPacket.setEnqueueTime time)) (batches.map (Batch.setEnqueueTime time)) := by
  induction batches generalizing groupId pkts with
  | nil =>
    rw [Groups] at h
    rw [h]
    rfl
  | cons batch batches ih =>
    obtain ⟨chunk, rest, info, rfl, hFirst, hRest⟩ := h
    exact ⟨chunk.map (SentPacket.setEnqueueTime time), rest.map (SentPacket.setEnqueueTime time), info, List.map_append,
      hFirst.enqueued time, ih hRest⟩

theorem storePackets_eq (h : ∀ pkt ∈ pkts, pkt.txCount = 0) :
    s.storePackets pkts = { s with
      dataPktHistoryKey := s.dataPktHistoryKey ++ pkts.map SentPacket.key
      dataPktHistory := pkts.foldl (fun m pkt => m.put pkt.key pkt) s.dataPktHistory } := by
  induction pkts generalizing s with
  | nil => simp [storePackets]
  | cons pkt pkts ih =>
    have hFirst : s.storePacket pkt = { s with
        dataPktHistoryKey := s.dataPktHistoryKey ++ [pkt.key]
        dataPktHistory := s.dataPktHistory.put pkt.key pkt } :=
      if_pos (h pkt List.mem_cons_self)
    have hRest := ih (s := s.storePacket pkt) fun pkt hMem => h pkt (List.mem_cons_of_mem _ hMem)
    rw [storePackets] at hRest ⊢
    rw [List.foldl_cons, hRest, hFirst]
    simp

/-- A packet of a frame, cut and queued at `now`. -/
def framePacket (now : Time) (frameId : UInt32) (framePktNum pktIdInFrame : UInt16)
    (payloadSize : UInt32) : SentPacket :=
  SentPacket.setEnqueueTime now (dataPacket now frameId framePktNum pktIdInFrame payloadSize)

/-- `pkts` are packets of one frame. -/
def OfFrame (now : Time) (frameId : UInt32) (framePktNum : UInt16) (pkts : List SentPacket) : Prop :=
  ∀ pkt ∈ pkts, pkt = framePacket now frameId framePktNum pkt.pktIdInFrame pkt.payloadSize

theorem dataPackets_ofFrame {now : Time} {maxPayload framePktNum : UInt16} {dataSize : UInt32}
    {fuel : Nat} {dataPtr : UInt32} {pktId : UInt16}
    (h : dataPackets now frameId maxPayload framePktNum dataSize fuel dataPtr pktId = some pkts) :
    OfFrame now frameId framePktNum (pkts.map (SentPacket.setEnqueueTime now)) ∧ pkts.length < fuel := by
  induction fuel generalizing dataPtr pktId pkts with
  | zero => cases h
  | succ fuel ih =>
    rw [dataPackets] at h
    split at h
    · obtain ⟨tail, hTail, rfl⟩ := Option.map_eq_some_iff.mp h
      obtain ⟨hOf, hLength⟩ := ih hTail
      refine ⟨?_, Nat.succ_lt_succ hLength⟩
      intro pkt hMem
      obtain rfl | hMem := List.mem_cons.mp hMem
      · rfl
      · exact hOf pkt hMem
    · cases h
      exact ⟨fun pkt hMem => (List.not_mem_nil hMem).elim, Nat.succ_pos fuel⟩

/-- The sender after it has sent the batches of a frame. -/
def afterFrame (s : Sender) (framePktNum : UInt16) (batches : List Batch)
    (inputs : List PolicyInput) : Sender :=
  { s.advance batches.length inputs with
    frameId := s.frameId + 1
    frameDataPktCnt := s.frameDataPktCnt.set s.frameId framePktNum.toUInt8
    traffic := s.traffic ++ [⟨false, batches.flatMap Batch.packets⟩]
    dataPktHistoryKey := s.dataPktHistoryKey ++ (batches.flatMap Batch.data).map SentPacket.key
    dataPktHistory := (batches.flatMap Batch.data).foldl (fun m pkt => m.put pkt.key pkt)
      s.dataPktHistory }

theorem IsFirstBatch.mem_data {groupId : UInt32} {info : BatchInfo}
    (h : IsFirstBatch groupId pkts batch info) {pkt : SentPacket} (hMem : pkt ∈ batch.data) :
    ∃ i, ∃ hLt : i < pkts.length, pkt = stamp info 0 0 i pkts[i] := by
  rw [h.data] at hMem
  obtain ⟨i, hLt, rfl⟩ := List.mem_iff_getElem.mp hMem
  rw [List.length_mapIdx] at hLt
  exact ⟨i, hLt, List.getElem_mapIdx⟩

/-- What every stamped packet has, every data packet of the groups has. -/
theorem Groups.forall_data {groupId : UInt32} {p : SentPacket → Prop}
    (h : Groups groupId pkts batches) (hStamp : ∀ info i, ∀ pkt ∈ pkts, p (stamp info 0 0 i pkt)) :
    ∀ pkt ∈ batches.flatMap Batch.data, p pkt := by
  induction batches generalizing groupId pkts with
  | nil =>
    intro pkt hMem
    cases hMem
  | cons batch batches ih =>
    obtain ⟨chunk, rest, info, rfl, hFirst, hRest⟩ := h
    intro pkt hMem
    rw [List.flatMap_cons, List.mem_append] at hMem
    obtain hMem | hMem := hMem
    · obtain ⟨i, hLt, rfl⟩ := hFirst.mem_data hMem
      exact hStamp info i _ (List.mem_append_left _ (List.getElem_mem hLt))
    · exact ih hRest (fun info i pkt hPkt => hStamp info i pkt (List.mem_append_right _ hPkt)) pkt hMem

/-- What stamping leaves alone, the data packets of the groups have in the order of the packets. -/
theorem Groups.map_data {β : Type*} {groupId : UInt32} {f : SentPacket → β}
    (h : Groups groupId pkts batches) (hStamp : ∀ info i pkt, f (stamp info 0 0 i pkt) = f pkt) :
    (batches.flatMap Batch.data).map f = pkts.map f := by
  induction batches generalizing groupId pkts with
  | nil =>
    rw [Groups] at h
    rw [h]
    rfl
  | cons batch batches ih =>
    obtain ⟨chunk, rest, info, rfl, hFirst, hRest⟩ := h
    have hChunk : batch.data.map f = chunk.map f := by
      rw [hFirst.data]
      apply List.ext_getElem
      · simp
      · intro i hLeft hRight
        simp [hStamp]
    rw [List.flatMap_cons, List.map_append, hChunk, ih hRest, List.map_append]

theorem Groups.packets_ne_nil {groupId : UInt32} (h : Groups groupId pkts batches)
    (hNe : pkts ≠ []) : batches.flatMap Batch.packets ≠ [] := by
  cases batches with
  | nil => exact (hNe h).elim
  | cons batch batches =>
    obtain ⟨chunk, rest, info, rfl, hFirst, hRest⟩ := h
    obtain ⟨pkt, tail, rfl⟩ := List.exists_cons_of_ne_nil hFirst.nonempty
    rw [List.flatMap_cons, Batch.packets, hFirst.data, List.mapIdx_cons]
    exact List.cons_ne_nil _ _

/-- The deadline left to a frame of `n` packets. -/
def frameDdlLeft (s : Sender) (n : Nat) : Time := s.delayDdl - n * s.netStat.oneWayDispersion

/-- `CreateFrame` on a frame cut into `pkts`. -/
theorem createFrame_spec {fuel : Nat} {maxPayload framePktNum : UInt16} {dataSize : UInt32}
    (hCut : dataPackets s.now s.frameId maxPayload framePktNum dataSize fuel 0 0 = some pkts)
    (hNe : pkts ≠ [])
    (hSize : (s.firstParam env pkts.length (s.frameDdlLeft pkts.length)
      framePktNum.toUInt8).fecGroupSize ≠ 0) :
    ∃ batches inputs, createFrame env fuel { s with frameId := s.frameId + 1 } s.frameId 0 maxPayload
        framePktNum dataSize = some (s.afterFrame framePktNum batches inputs) ∧
      Groups s.groupId (pkts.map (SentPacket.setEnqueueTime s.now)) batches ∧ inputs ≠ [] ∧
      (∀ input ∈ inputs, input.frameSize = framePktNum.toUInt8) ∧
      batches.length = groupCount (s.firstParam env pkts.length (s.frameDdlLeft pkts.length)
        framePktNum.toUInt8) pkts.length := by
  have hFind : (s.frameDataPktCnt.set s.frameId framePktNum.toUInt8).find s.frameId =
      some framePktNum.toUInt8 := by
    rw [AssocMap.find_set, if_pos rfl]
  obtain ⟨batches, inputs, hSend, hGroups, hCalls, hInputs, hCount⟩ := sendPackets_spec env
    (s := { s with
      frameId := s.frameId + 1
      frameDataPktCnt := s.frameDataPktCnt.set s.frameId framePktNum.toUInt8 }) hFind hSize
  have hQueued := hGroups.enqueued s.now
  have hMapNe : pkts.map (SentPacket.setEnqueueTime s.now) ≠ [] := by simpa using hNe
  have hTx : ∀ pkt ∈ (batches.map (Batch.setEnqueueTime s.now)).flatMap Batch.data,
      pkt.txCount = 0 := by
    apply hQueued.forall_data (p := fun pkt => pkt.txCount = 0)
    intro info i pkt hMem
    rw [(dataPackets_ofFrame hCut).1 pkt hMem]
    rfl
  refine ⟨batches.map (Batch.setEnqueueTime s.now), inputs, ?_, hQueued, hInputs, ?_, ?_⟩
  · rw [createFrame, hCut]
    simp only [bind, Option.bind_some, if_neg hNe]
    rw [frameDdlLeft] at hSend
    rw [hSend]
    simp only [Option.bind_some, enqueue, if_neg (hQueued.packets_ne_nil hMapNe),
      Bool.false_eq_true, if_false, storePackets_eq hTx]
    simp [afterFrame, advance]
  · intro input hMem
    have hCall := (hCalls input hMem).1
    rw [hFind] at hCall
    exact (Option.some.inj hCall).symm
  · rw [List.length_map, hCount]
    rfl

theorem createFrame_inv {fuel : Nat} {maxPayload framePktNum : UInt16} {dataSize : UInt32}
    (h : createFrame env fuel { s with frameId := s.frameId + 1 } s.frameId 0 maxPayload framePktNum
      dataSize = some u) :
    ∃ pkts, dataPackets s.now s.frameId maxPayload framePktNum dataSize fuel 0 0 = some pkts ∧
      pkts ≠ [] ∧ (s.firstParam env pkts.length (s.frameDdlLeft pkts.length)
        framePktNum.toUInt8).fecGroupSize ≠ 0 := by
  rw [createFrame] at h
  obtain ⟨pkts, hCut, hRest⟩ := Option.bind_eq_some_iff.mp h
  have hNe : pkts ≠ [] := by
    rintro rfl
    cases hRest
  refine ⟨pkts, hCut, hNe, ?_⟩
  intro hZero
  have hFind : (s.frameDataPktCnt.set s.frameId framePktNum.toUInt8).find s.frameId =
      some framePktNum.toUInt8 := by
    rw [AssocMap.find_set, if_pos rfl]
  have hAbort := sendPackets_zero env (s := { s with
    frameId := s.frameId + 1
    frameDataPktCnt := s.frameDataPktCnt.set s.frameId framePktNum.toUInt8 }) hFind hZero
  rw [frameDdlLeft] at hAbort
  simp only [if_neg hNe, hAbort] at hRest
  cases hRest

/-- What a call of `SendFrame` that returns has done. -/
theorem sendFrame_cases {fuel : Nat} {dataSize : UInt32}
    (h : s.sendFrame env fuel dataSize = some u) :
    dataSize = 0 ∧ u = s ∨
    dataSize ≠ 0 ∧ ∃ pkts batches inputs,
      dataPackets s.now s.frameId dataPktMaxPayload (dataPktNum dataSize) dataSize fuel 0 0 =
        some pkts ∧
      pkts ≠ [] ∧
      (s.firstParam env pkts.length (s.frameDdlLeft pkts.length)
        (dataPktNum dataSize).toUInt8).fecGroupSize ≠ 0 ∧
      u = s.afterFrame (dataPktNum dataSize) batches inputs ∧
      Groups s.groupId (pkts.map (SentPacket.setEnqueueTime s.now)) batches ∧ inputs ≠ [] ∧
      (∀ input ∈ inputs, input.frameSize = (dataPktNum dataSize).toUInt8) ∧
      batches.length = groupCount (s.firstParam env pkts.length (s.frameDdlLeft pkts.length)
        (dataPktNum dataSize).toUInt8) pkts.length := by
  rw [sendFrame] at h
  by_cases hZero : dataSize = 0
  · rw [if_pos hZero] at h
    exact Or.inl ⟨hZero, (Option.some.inj h).symm⟩
  · rw [if_neg hZero] at h
    obtain ⟨pkts, hCut, hNe, hSize⟩ := createFrame_inv h
    obtain ⟨batches, inputs, hSend, hGroups, hInputs, hFrameSize, hCount⟩ :=
      createFrame_spec hCut hNe hSize
    rw [h] at hSend
    exact Or.inr ⟨hZero, pkts, batches, inputs, hCut, hNe, hSize, Option.some.inj hSend, hGroups,
      hInputs, hFrameSize, hCount⟩

/-! ## The cut of a frame -/

/-- The number of data packets that a frame of `dataSize` bytes needs. -/
def packetCount (dataSize : UInt32) : Nat := (dataSize.toNat + 1405) / 1406

theorem dataPktNum_eq (dataSize : UInt32) :
    dataPktNum dataSize = UInt16.ofNat (packetCount dataSize) := by
  have hLt := dataSize.toNat_lt
  have hMax : dataPktMaxPayload.toUInt32.toNat = 1406 := rfl
  have hMod : dataSize % dataPktMaxPayload.toUInt32 = 0 ↔ dataSize.toNat % 1406 = 0 := by
    rw [← UInt32.toNat_inj, UInt32.toNat_mod, hMax]
    rfl
  have hSum : (dataSize / dataPktMaxPayload.toUInt32 +
      if dataSize % dataPktMaxPayload.toUInt32 = 0 then 0 else 1).toNat = packetCount dataSize := by
    rw [UInt32.toNat_add, UInt32.toNat_div, hMax, packetCount]
    by_cases hZero : dataSize % dataPktMaxPayload.toUInt32 = 0
    · have hZeroNat := hMod.mp hZero
      have hAdd : (0 : UInt32).toNat = 0 := rfl
      rw [if_pos hZero, hAdd]
      omega
    · have hNeNat : dataSize.toNat % 1406 ≠ 0 := fun h => hZero (hMod.mpr h)
      have hAdd : (1 : UInt32).toNat = 1 := rfl
      rw [if_neg hZero, hAdd]
      omega
  apply UInt16.toNat_inj.mp
  rw [dataPktNum, UInt32.toNat_toUInt16, hSum, UInt16.toNat_ofNat']

theorem toNat_min (a b : UInt32) : (min a b).toNat = min a.toNat b.toNat := by
  change (if a ≤ b then a else b).toNat = _
  split
  · next h => exact (min_eq_left (UInt32.le_iff_toNat_le.mp h)).symm
  · next h =>
    rw [UInt32.not_le] at h
    exact (min_eq_right (UInt32.lt_iff_toNat_lt.mp h).le).symm

theorem toNat_add_maxPayload {dataPtr : UInt32} (h : dataPtr.toNat ≤ 359935) :
    (dataPtr + dataPktMaxPayload.toUInt32).toNat = dataPtr.toNat + 1406 := by
  have hMax : dataPktMaxPayload.toUInt32.toNat = 1406 := rfl
  rw [UInt32.toNat_add, hMax]
  omega

/-- The loop ends for a frame of up to 255 packets. -/
theorem dataPackets_isSome (now : Time) (frameId : UInt32) (framePktNum : UInt16)
    (dataSize : UInt32) (fuel : Nat) (dataPtr : UInt32) (pktId : UInt16)
    (hSmall : dataSize.toNat ≤ 358530) (hPtr : dataPtr.toNat ≤ dataSize.toNat + 1405)
    (hFuel : (dataSize.toNat - dataPtr.toNat + 1405) / 1406 < fuel) :
    ∃ pkts, dataPackets now frameId dataPktMaxPayload framePktNum dataSize fuel dataPtr pktId =
      some pkts := by
  induction fuel generalizing dataPtr pktId with
  | zero => exact (Nat.not_lt_zero _ hFuel).elim
  | succ fuel ih =>
    by_cases hMore : dataPtr < dataSize
    · have hLt : dataPtr.toNat < dataSize.toNat := UInt32.lt_iff_toNat_lt.mp hMore
      have hNext : (dataPtr + dataPktMaxPayload.toUInt32).toNat = dataPtr.toNat + 1406 :=
        toNat_add_maxPayload (by omega)
      obtain ⟨pkts, hCut⟩ := ih (dataPtr + dataPktMaxPayload.toUInt32) (pktId + 1) (by omega)
        (by omega)
      rw [dataPackets, if_pos hMore, hCut]
      exact ⟨_, rfl⟩
    · exact ⟨[], if_neg hMore⟩

/-- A frame of up to 255 packets is cut into all its bytes, its packets numbered in order. -/
theorem dataPackets_spec {now : Time} {framePktNum : UInt16} {dataSize : UInt32}
    (hSmall : dataSize.toNat ≤ 358530) {fuel : Nat} {dataPtr : UInt32} {pktId : UInt16}
    (hPtr : dataPtr.toNat ≤ dataSize.toNat + 1405)
    (hId : pktId.toNat + (dataSize.toNat - dataPtr.toNat + 1405) / 1406 ≤ 65535)
    (hCut : dataPackets now frameId dataPktMaxPayload framePktNum dataSize fuel dataPtr pktId =
      some pkts) :
    pkts.map (fun pkt => pkt.pktIdInFrame.toNat) =
        List.range' pktId.toNat ((dataSize.toNat - dataPtr.toNat + 1405) / 1406) ∧
      (pkts.map fun pkt => pkt.payloadSize.toNat).sum = dataSize.toNat - dataPtr.toNat := by
  induction fuel generalizing dataPtr pktId pkts with
  | zero => cases hCut
  | succ fuel ih =>
    rw [dataPackets] at hCut
    by_cases hMore : dataPtr < dataSize
    · have hLt : dataPtr.toNat < dataSize.toNat := UInt32.lt_iff_toNat_lt.mp hMore
      have hNext : (dataPtr + dataPktMaxPayload.toUInt32).toNat = dataPtr.toNat + 1406 :=
        toNat_add_maxPayload (by omega)
      have hNextId : (pktId + 1).toNat = pktId.toNat + 1 := by
        have hOne : (1 : UInt16).toNat = 1 := rfl
        rw [UInt16.toNat_add, hOne]
        omega
      have hCount : (dataSize.toNat - dataPtr.toNat + 1405) / 1406 =
          (dataSize.toNat - (dataPtr.toNat + 1406) + 1405) / 1406 + 1 := by
        omega
      have hPayload : (min dataPktMaxPayload.toUInt32 (dataSize - dataPtr)).toNat =
          min 1406 (dataSize.toNat - dataPtr.toNat) := by
        rw [toNat_min, UInt32.toNat_sub_of_le _ _ (UInt32.le_of_lt hMore)]
        rfl
      rw [if_pos hMore] at hCut
      obtain ⟨tail, hTail, rfl⟩ := Option.map_eq_some_iff.mp hCut
      obtain ⟨hIds, hSum⟩ := ih (by omega) (by omega) hTail
      constructor
      · rw [List.map_cons, hIds, hNext, hNextId, hCount, List.range'_succ]
        rfl
      · rw [List.map_cons, List.sum_cons, hSum, hNext, dataPacket, hPayload]
        omega
    · have hGe : dataSize.toNat ≤ dataPtr.toNat := by
        by_contra hLt
        exact hMore (UInt32.lt_iff_toNat_lt.mpr (not_le.mp hLt))
      have hDone : dataSize.toNat - dataPtr.toNat = 0 := Nat.sub_eq_zero_of_le hGe
      rw [if_neg hMore] at hCut
      cases hCut
      rw [hDone]
      exact ⟨rfl, rfl⟩

/-- A whole frame of up to 255 packets. -/
theorem dataPackets_zero {now : Time} {framePktNum : UInt16} {dataSize : UInt32} {fuel : Nat}
    (hCount : packetCount dataSize ≤ 255)
    (hCut : dataPackets now frameId dataPktMaxPayload framePktNum dataSize fuel 0 0 = some pkts) :
    pkts.map (fun pkt => pkt.pktIdInFrame.toNat) = List.range (packetCount dataSize) ∧
      (pkts.map fun pkt => pkt.payloadSize.toNat).sum = dataSize.toNat := by
  have hZero : (0 : UInt32).toNat = 0 := rfl
  have hZeroId : (0 : UInt16).toNat = 0 := rfl
  rw [packetCount] at hCount
  obtain ⟨hIds, hSum⟩ := dataPackets_spec (by omega) (by omega) (by omega) hCut
  rw [hZero, Nat.sub_zero] at hIds hSum
  rw [List.range_eq_range']
  exact ⟨hIds, hSum⟩

theorem length_of_dataPackets {now : Time} {framePktNum : UInt16} {dataSize : UInt32} {fuel : Nat}
    (hCount : packetCount dataSize ≤ 255)
    (hCut : dataPackets now frameId dataPktMaxPayload framePktNum dataSize fuel 0 0 = some pkts) :
    pkts.length = packetCount dataSize := by
  rw [← List.length_map, (dataPackets_zero hCount hCut).1, List.length_range]

/-! ## The groups of a frame -/

/-- The ids of `n` groups numbered from `groupId` on. -/
def groupIds (groupId : UInt32) (n : Nat) : List UInt32 :=
  (List.range n).map fun i => groupId + UInt32.ofNat i

theorem groupIds_succ (groupId : UInt32) (n : Nat) :
    groupIds groupId (n + 1) = groupId :: groupIds (groupId + 1) n := by
  rw [groupIds, List.range_succ_eq_map, List.map_cons, List.map_map, groupIds]
  have hTail : (fun i => groupId + UInt32.ofNat i) ∘ Nat.succ =
      fun i => groupId + 1 + UInt32.ofNat i := by
    funext i
    exact uint32_add_succ groupId i
  rw [hTail]
  exact congrArg (· :: _) (UInt32.add_zero groupId)

theorem nodup_groupIds (groupId : UInt32) {n : Nat} (h : n ≤ 2 ^ 32) :
    (groupIds groupId n).Nodup := by
  apply List.Nodup.map_on _ List.nodup_range
  intro i hI j hJ hEq
  rw [List.mem_range] at hI hJ
  have hNat := congrArg UInt32.toNat ((UInt32.add_right_inj groupId).mp hEq)
  rw [UInt32.toNat_ofNat', UInt32.toNat_ofNat', Nat.mod_eq_of_lt (by omega),
    Nat.mod_eq_of_lt (by omega)] at hNat
  exact hNat

/-- The data packets are numbered from 0 on, and every packet carries the real counts. -/
structure Counted (batch : Batch) (groupId : UInt32) : Prop where
  ids : batch.data.map (fun pkt => pkt.pktIdInGroup.toNat) = List.range batch.data.length
  groupId : ∀ pkt ∈ batch.packets, pkt.header.groupId = groupId
  groupDataNum : ∀ pkt ∈ batch.packets, pkt.header.groupDataNum.toNat = batch.data.length
  groupFecNum : ∀ pkt ∈ batch.packets, pkt.header.groupFecNum.toNat = batch.fec.length
  batchDataNum : ∀ pkt ∈ batch.packets, pkt.header.batchDataNum.toNat = batch.data.length
  batchFecNum : ∀ pkt ∈ batch.packets, pkt.header.batchFecNum.toNat = batch.fec.length

theorem IsFirstBatch.length_data {groupId : UInt32} {info : BatchInfo}
    (h : IsFirstBatch groupId pkts batch info) : batch.data.length = pkts.length := by
  rw [h.data, List.length_mapIdx]

/-- Every packet of a first batch carries the ids and counts of the batch. -/
theorem IsFirstBatch.hasInfo {groupId : UInt32} {info : BatchInfo}
    (h : IsFirstBatch groupId pkts batch info) {pkt : VideoPacket} (hMem : pkt ∈ batch.packets) :
    HasInfo info pkt.header := by
  rw [Batch.packets, List.mem_append] at hMem
  obtain hData | hFec := hMem
  · obtain ⟨pkt, hPkt, rfl⟩ := List.mem_map.mp hData
    obtain ⟨i, hLt, rfl⟩ := h.mem_data hPkt
    exact ⟨rfl, rfl, rfl, rfl, rfl⟩
  · obtain ⟨pkt, hPkt, rfl⟩ := List.mem_map.mp hFec
    exact h.fec pkt hPkt

theorem IsFirstBatch.counted {groupId : UInt32} {info : BatchInfo}
    (h : IsFirstBatch groupId pkts batch info) : Counted batch groupId := by
  have hLength := h.short
  have hNum : (UInt16.ofNat pkts.length).toNat = batch.data.length := by
    rw [UInt16.toNat_ofNat', Nat.mod_eq_of_lt (by omega), h.length_data]
  constructor
  · apply List.ext_getElem
    · simp
    · intro i hLeft hRight
      rw [List.length_range, h.length_data] at hRight
      simp only [h.data, List.getElem_map, List.getElem_mapIdx, List.getElem_range, stamp,
        SentPacket.setFecGroup, UInt16.zero_add, UInt16.toNat_ofNat']
      exact Nat.mod_eq_of_lt (by omega)
  · intro pkt hMem
    rw [(h.hasInfo hMem).groupId, h.infoGroupId]
  · intro pkt hMem
    rw [(h.hasInfo hMem).groupDataNum, h.infoGroupDataNum, hNum]
  · intro pkt hMem
    rw [(h.hasInfo hMem).groupFecNum, h.infoGroupFecNum, h.fecLength]
  · intro pkt hMem
    rw [(h.hasInfo hMem).batchDataNum, h.infoBatchDataNum, hNum]
  · intro pkt hMem
    rw [(h.hasInfo hMem).batchFecNum, h.fecLength]

theorem Groups.counted {groupId : UInt32} (h : Groups groupId pkts batches) :
    List.Forall₂ Counted batches (groupIds groupId batches.length) := by
  induction batches generalizing groupId pkts with
  | nil => exact List.Forall₂.nil
  | cons batch batches ih =>
    obtain ⟨chunk, rest, info, rfl, hFirst, hRest⟩ := h
    rw [List.length_cons, groupIds_succ]
    exact List.Forall₂.cons hFirst.counted (ih hRest)

theorem Groups.length_le {groupId : UInt32} (h : Groups groupId pkts batches) :
    batches.length ≤ pkts.length := by
  induction batches generalizing groupId pkts with
  | nil => exact Nat.zero_le _
  | cons batch batches ih =>
    obtain ⟨chunk, rest, info, rfl, hFirst, hRest⟩ := h
    have hChunk := List.length_pos_of_ne_nil hFirst.nonempty
    have hLe := ih hRest
    rw [List.length_cons, List.length_append]
    omega

/-- A frame has fewer groups than there are group ids. -/
theorem Groups.length_le_ids {now : Time} {groupId : UInt32} {maxPayload framePktNum : UInt16}
    {dataSize dataPtr : UInt32} {pktId : UInt16}
    (hCut : dataPackets now frameId maxPayload framePktNum dataSize (dataSize.toNat + 1) dataPtr
      pktId = some pkts)
    (h : Groups groupId (pkts.map (SentPacket.setEnqueueTime now)) batches) :
    batches.length ≤ 2 ^ 32 := by
  have hLength := h.length_le
  rw [List.length_map] at hLength
  calc
    batches.length ≤ pkts.length := hLength
    _ ≤ dataSize.toNat := Nat.le_of_lt_succ (dataPackets_ofFrame hCut).2
    _ ≤ 2 ^ 32 := Nat.le_of_lt dataSize.toNat_lt

/-- From `s` to `u` the sender has sent one frame of `dataSize` bytes as the groups `batches`. -/
structure PartitionedInto (s u : Sender) (dataSize : UInt32) (batches : List Batch)
    (groupIds : List UInt32) : Prop where
  sent : u.traffic = s.traffic ++
    if dataSize = 0 then [] else [⟨false, batches.flatMap Batch.packets⟩]
  ofFrame : ∀ pkt ∈ batches.flatMap Batch.data,
    pkt.frameId = s.frameId ∧ pkt.framePktNum.toNat = packetCount dataSize
  inOrder : (batches.flatMap Batch.data).map (fun pkt => pkt.pktIdInFrame.toNat) =
    List.range (packetCount dataSize)
  bytes : ((batches.flatMap Batch.data).map fun pkt => pkt.payloadSize.toNat).sum = dataSize.toNat
  distinct : groupIds.Nodup
  counted : List.Forall₂ Counted batches groupIds
  frameSize : ∃ inputs, u.policyInputs = s.policyInputs ++ inputs ∧ (dataSize ≠ 0 → inputs ≠ []) ∧
    ∀ input ∈ inputs, input.frameSize.toNat = packetCount dataSize

theorem partitionedInto_zero (s : Sender) : PartitionedInto s s 0 [] [] where
  sent := (List.append_nil _).symm
  ofFrame := fun _ hMem => (List.not_mem_nil hMem).elim
  inOrder := rfl
  bytes := rfl
  distinct := List.nodup_nil
  counted := List.Forall₂.nil
  frameSize := ⟨[], (List.append_nil _).symm, fun h => (h rfl).elim,
    fun _ hMem => (List.not_mem_nil hMem).elim⟩

/-- The policy's first answer about a frame of `dataSize` bytes. -/
def frameParam (env : SenderEnv) (s : Sender) (dataSize : UInt32) : FecParam :=
  s.firstParam env (packetCount dataSize) (s.frameDdlLeft (packetCount dataSize))
    (UInt8.ofNat (packetCount dataSize))

theorem toUInt8_dataPktNum (dataSize : UInt32) :
    (dataPktNum dataSize).toUInt8 = UInt8.ofNat (packetCount dataSize) := by
  apply UInt8.toNat_inj.mp
  rw [dataPktNum_eq, UInt16.toNat_toUInt8, UInt16.toNat_ofNat', UInt8.toNat_ofNat']
  omega

/-- A frame of up to 255 packets is sent as it should be when the policy answers with groups. -/
theorem sendFrame_partitioned {dataSize : UInt32} (hNe : dataSize ≠ 0)
    (hCount : packetCount dataSize ≤ 255) (hSize : (s.frameParam env dataSize).fecGroupSize ≠ 0) :
    ∃ u batches groupIds, s.sendFrame env (dataSize.toNat + 1) dataSize = some u ∧
      PartitionedInto s u dataSize batches groupIds := by
  have hPos : dataSize.toNat ≠ 0 := fun h => hNe (UInt32.toNat_inj.mp h)
  have hZero : (0 : UInt32).toNat = 0 := rfl
  have hBound : (dataSize.toNat + 1405) / 1406 ≤ 255 := hCount
  obtain ⟨pkts, hCut⟩ := dataPackets_isSome s.now s.frameId (dataPktNum dataSize) dataSize
    (dataSize.toNat + 1) 0 0 (by omega) (by omega) (by omega)
  obtain ⟨hIds, hBytes⟩ := dataPackets_zero hCount hCut
  have hLength := length_of_dataPackets hCount hCut
  have hPkts : pkts ≠ [] := by
    apply List.ne_nil_of_length_pos
    rw [hLength, packetCount]
    omega
  rw [frameParam, ← toUInt8_dataPktNum, ← hLength] at hSize
  obtain ⟨batches, inputs, hSend, hGroups, hInputs, hFrameSize, -⟩ :=
    createFrame_spec hCut hPkts hSize
  have hOf := (dataPackets_ofFrame hCut).1
  have hBatches := hGroups.length_le
  rw [List.length_map, hLength] at hBatches
  refine ⟨s.afterFrame (dataPktNum dataSize) batches inputs, batches,
    groupIds s.groupId batches.length, ?_, ?_⟩
  · rw [sendFrame, if_neg hNe, hSend]
  constructor
  · rw [if_neg hNe]
    rfl
  · apply hGroups.forall_data (p := fun pkt =>
      pkt.frameId = s.frameId ∧ pkt.framePktNum.toNat = packetCount dataSize)
    intro info i pkt hMem
    rw [hOf pkt hMem]
    refine ⟨rfl, ?_⟩
    change (dataPktNum dataSize).toNat = packetCount dataSize
    rw [dataPktNum_eq, UInt16.toNat_ofNat', Nat.mod_eq_of_lt (by omega)]
  · rw [hGroups.map_data fun _ _ _ => rfl, List.map_map]
    exact hIds
  · rw [hGroups.map_data fun _ _ _ => rfl, List.map_map]
    exact hBytes
  · exact nodup_groupIds s.groupId (by omega)
  · exact hGroups.counted
  · refine ⟨inputs, rfl, fun _ => hInputs, ?_⟩
    intro input hMem
    rw [hFrameSize input hMem, toUInt8_dataPktNum, UInt8.toNat_ofNat', Nat.mod_eq_of_lt (by omega)]

theorem frameParam_of_partitioned {fuel : Nat} {dataSize : UInt32} {groupIds : List UInt32}
    (hSend : s.sendFrame env fuel dataSize = some u)
    (hPart : PartitionedInto s u dataSize batches groupIds) :
    dataSize = 0 ∨ packetCount dataSize ≤ 255 ∧ (s.frameParam env dataSize).fecGroupSize ≠ 0 := by
  obtain ⟨hZero, -⟩ | ⟨hNe, pkts, sent, inputs, hCut, hPkts, hSize, rfl, -, hInputs, -⟩ :=
    sendFrame_cases hSend
  · exact Or.inl hZero
  · -- The policy has been called, and an 8-bit frame size that is right is below 256.
    obtain ⟨calls, hCalls, -, hRight⟩ := hPart.frameSize
    cases List.append_cancel_left hCalls
    obtain ⟨input, tail, rfl⟩ := List.exists_cons_of_ne_nil hInputs
    have hTold := hRight input List.mem_cons_self
    have hCount : packetCount dataSize ≤ 255 := by
      rw [← hTold]
      exact Nat.le_of_lt_succ input.frameSize.toNat_lt
    rw [length_of_dataPackets hCount hCut, toUInt8_dataPktNum] at hSize
    exact Or.inr ⟨hCount, hSize⟩

/-- A frame is cut and sent as the policy says, and the policy is told its size, exactly when it has
at most 255 packets and the policy does not ask for groups of size zero. -/
theorem sendFrame_partitioned_iff (env : SenderEnv) (s : Sender) (dataSize : UInt32) :
    (∃ fuel u batches groupIds, s.sendFrame env fuel dataSize = some u ∧
      PartitionedInto s u dataSize batches groupIds) ↔
    dataSize = 0 ∨ packetCount dataSize ≤ 255 ∧ (s.frameParam env dataSize).fecGroupSize ≠ 0 := by
  constructor
  · rintro ⟨fuel, u, batches, groupIds, hSend, hPart⟩
    exact frameParam_of_partitioned hSend hPart
  · intro h
    by_cases hZero : dataSize = 0
    · subst hZero
      exact ⟨0, s, [], [], if_pos rfl, partitionedInto_zero s⟩
    · obtain ⟨hCount, hSize⟩ := h.resolve_left hZero
      exact ⟨dataSize.toNat + 1, sendFrame_partitioned hZero hCount hSize⟩

/-- A frame of 256 packets, and a frame that the policy wants in groups of size zero. -/
theorem frame_not_partitioned :
    (¬∃ fuel u batches groupIds,
      (create 100000000 ⟨0, 0, 0, 0⟩).sendFrame (.constant 5 0) fuel 358531 = some u ∧
        PartitionedInto (create 100000000 ⟨0, 0, 0, 0⟩) u 358531 batches groupIds) ∧
    ¬∃ fuel u batches groupIds,
      (create 100000000 ⟨0, 0, 0, 0⟩).sendFrame (.constant 0 0) fuel 1000 = some u ∧
        PartitionedInto (create 100000000 ⟨0, 0, 0, 0⟩) u 1000 batches groupIds := by
  constructor
  · rintro ⟨fuel, u, batches, groupIds, hSend, hPart⟩
    obtain hZero | hParam := frameParam_of_partitioned hSend hPart
    · exact absurd hZero (by decide)
    · exact absurd hParam.1 (by decide)
  · rintro ⟨fuel, u, batches, groupIds, hSend, hPart⟩
    obtain hZero | hParam := frameParam_of_partitioned hSend hPart
    · exact absurd hZero (by decide)
    · exact hParam.2 rfl

end Sender
end Bullet.Stream
