import Bullet.Stream.HeaderFormat
import Bullet.Stream.Retransmission
import Bullet.Stream.SentBatch

/-! # Fidelity of FEC recovery

A recovered data packet is the lost one as it would have arrived. Its encode time is that of a FEC
packet, which is the time of the transmission round, and its FEC number is that of the receiver's
group.
-/

namespace Bullet.Stream

open Lib Lib.PartialRun Lib.Wire

/-- An encode time as the receiver reads it, in whole milliseconds. -/
@[irreducible] def wireTime (t : Time) : Time := timeOfInteger (toU64 (getMilliSeconds t)) 1000000

def VideoHeader.received (h : VideoHeader) (rcvTime : Time) : VideoHeader :=
  { h with rcvTime := rcvTime, encodeTime := wireTime h.encodeTime }

def DataPacket.received (pkt : DataPacket) (rcvTime : Time) : DataPacket :=
  { pkt with toVideoHeader := pkt.toVideoHeader.received rcvTime }

def FecPacket.received (pkt : FecPacket) (rcvTime : Time) : FecPacket :=
  { pkt with toVideoHeader := pkt.toVideoHeader.received rcvTime }

@[simp] theorem encodeTime_dataReceived (pkt : DataPacket) (rcvTime : Time) :
    (pkt.received rcvTime).encodeTime = wireTime pkt.encodeTime := rfl

@[simp] theorem encodeTime_fecReceived (pkt : FecPacket) (rcvTime : Time) :
    (pkt.received rcvTime).encodeTime = wireTime pkt.encodeTime := rfl

/-- The packet without its receive time and its transmission count. -/
def DataPacket.content (pkt : DataPacket) : DataPacket :=
  { pkt with rcvTime := 0, txCount := 0 }

/-! ## Transmission rounds -/

/-- What the data packets of a group have in common. -/
structure GroupParams where
  groupId : UInt32
  dataNum : UInt16
  fecNum : UInt16
  encodeTime : Time
deriving DecidableEq, Repr

structure InGroup (p : GroupParams) (pkt : SentPacket) : Prop where
  groupId : pkt.groupId = p.groupId
  dataNum : pkt.groupDataNum = p.dataNum
  fecNum : pkt.groupFecNum = p.fecNum
  encodeTime : pkt.encodeTime = p.encodeTime
  infoSet : pkt.groupInfoSet = true

/-- A batch with the time at which it was made: the first transmission of a group, or the
retransmission of some packets of an earlier one. -/
inductive IsRound (p : GroupParams) : Time → Batch → Prop where
  | first {s t : Sender} {pkts : List SentPacket} {param : FecParam} {batch : Batch}
      (hShort : pkts.length ≤ 65535) (hEncoded : ∀ pkt ∈ pkts, pkt.encodeTime = s.now)
      (hMade : s.createFirstPacketBatch pkts param = some (batch, t))
      (hParams : p = ⟨s.groupId, UInt16.ofNat pkts.length, param.fecNum (UInt16.ofNat pkts.length),
        s.now⟩) : IsRound p s.now batch
  | again {s t : Sender} {pkts : List SentPacket} {param : FecParam} {earlier : Time}
      {sent batch : Batch} (hEarlier : IsRound p earlier sent)
      (hSent : ∀ pkt ∈ pkts, ∃ old ∈ sent.data, pkt.identity = old.identity)
      (hMade : s.createRtxPacketBatch pkts param = some (batch, t)) : IsRound p s.now batch

/-- The packets of a round, by their ids in the batch. -/
structure RoundOf (p : GroupParams) (time : Time) (info : BatchInfo) (batch : Batch) : Prop where
  nonempty : batch.data ≠ []
  short : batch.data.length ≤ 65535
  batchDataNum : info.batchDataNum = UInt16.ofNat batch.data.length
  inGroup : ∀ pkt ∈ batch.data, InGroup p pkt
  data : ∀ i pkt, batch.data[i]? = some pkt → pkt.batchId = info.batchId ∧
    pkt.batchDataNum = info.batchDataNum ∧ pkt.batchFecNum = info.batchFecNum ∧
    pkt.pktIdInBatch = UInt16.ofNat i
  fec : ∀ pkt ∈ batch.fec, pkt.batchId = info.batchId ∧ pkt.batchDataNum = info.batchDataNum ∧
    pkt.batchFecNum = info.batchFecNum ∧ pkt.encodeTime = time ∧
    pkt.dataPkts = batch.data.map SentPacket.digest

theorem inGroup_of_identity {p : GroupParams} {pkt old : SentPacket}
    (h : pkt.identity = old.identity) (hOld : InGroup p old) : InGroup p pkt where
  groupId := (congrArg (fun pkt => pkt.groupId) h).trans hOld.groupId
  dataNum := (congrArg (fun pkt => pkt.groupDataNum) h).trans hOld.dataNum
  fecNum := (congrArg (fun pkt => pkt.groupFecNum) h).trans hOld.fecNum
  encodeTime := (congrArg (fun pkt => pkt.encodeTime) h).trans hOld.encodeTime
  infoSet := (congrArg (fun pkt => pkt.groupInfoSet) h).trans hOld.infoSet

theorem roundOf_batchOf {p : GroupParams} {s : Sender} {info : BatchInfo} {txCount : UInt8}
    {pkts : List SentPacket} {f : ℕ → SentPacket → SentPacket} {pktIdInGroup : ℕ → UInt16}
    (hNe : pkts ≠ []) (hShort : pkts.length ≤ 65535)
    (hNum : info.batchDataNum = UInt16.ofNat pkts.length)
    (hStamp : ∀ i, ∀ pkt ∈ pkts, InGroup p (f i pkt) ∧ (f i pkt).batchId = info.batchId ∧
      (f i pkt).batchDataNum = info.batchDataNum ∧ (f i pkt).batchFecNum = info.batchFecNum ∧
      (f i pkt).pktIdInBatch = UInt16.ofNat i) :
    RoundOf p s.now info (s.batchOf info txCount (pkts.mapIdx f) pktIdInGroup) where
  nonempty := by rwa [Sender.batchOf, ne_eq, List.mapIdx_eq_nil_iff]
  short := by rwa [Sender.batchOf, List.length_mapIdx]
  batchDataNum := by rwa [Sender.batchOf, List.length_mapIdx]
  inGroup pkt hMem := by
    obtain ⟨i, hLt, rfl⟩ := List.mem_mapIdx.mp hMem
    exact (hStamp i _ (List.getElem_mem hLt)).1
  data i pkt hEntry := by
    rw [Sender.batchOf, List.getElem?_mapIdx, Option.map_eq_some_iff] at hEntry
    obtain ⟨old, hOld, rfl⟩ := hEntry
    exact (hStamp i old (List.mem_of_getElem? hOld)).2
  fec pkt hMem := by
    obtain ⟨i, -, rfl⟩ := List.mem_map.mp hMem
    exact ⟨rfl, rfl, rfl, rfl, rfl⟩

theorem length_of_createRtxPacketBatch {s t : Sender} {pkts : List SentPacket} {param : FecParam}
    {batch : Batch} (h : s.createRtxPacketBatch pkts param = some (batch, t)) :
    pkts.length ≤ 65535 := by
  have hSize := param.fecGroupSize.toNat_lt
  cases pkts with
  | nil => exact Nat.zero_le _
  | cons front tail =>
    rw [Sender.createRtxPacketBatch] at h
    split at h
    · omega
    · cases h

theorem IsRound.roundOf {p : GroupParams} {time : Time} {batch : Batch} (h : IsRound p time batch) :
    ∃ info, RoundOf p time info batch := by
  induction h with
  | @first s t pkts param batch hShort hEncoded hMade hParams =>
    cases pkts with
    | nil => cases hMade
    | cons front tail =>
      rw [Sender.createFirstPacketBatch_eq] at hMade
      cases hMade
      refine ⟨_, roundOf_batchOf (List.cons_ne_nil front tail) hShort rfl fun i pkt hMem => ?_⟩
      subst hParams
      exact ⟨⟨rfl, rfl, rfl, hEncoded pkt hMem, rfl⟩, rfl, rfl, rfl, UInt16.zero_add _⟩
  | @again s t pkts param earlier sent batch hEarlier hSent hMade ih =>
    obtain ⟨info, hRound⟩ := ih
    have hGroup : ∀ pkt ∈ pkts, InGroup p pkt := by
      intro pkt hMem
      obtain ⟨old, hOld, hSame⟩ := hSent pkt hMem
      exact inGroup_of_identity hSame (hRound.inGroup old hOld)
    have hShort := length_of_createRtxPacketBatch hMade
    cases pkts with
    | nil => cases hMade
    | cons front tail =>
      have hFront := hGroup front List.mem_cons_self
      obtain ⟨rfl, -⟩ := Sender.createRtxPacketBatch_cases (fun pkt hMem =>
        ⟨(hGroup pkt hMem).infoSet, (hGroup pkt hMem).groupId.trans hFront.groupId.symm⟩) hMade
      refine ⟨_, roundOf_batchOf (List.cons_ne_nil front tail) hShort rfl fun i pkt hMem => ?_⟩
      obtain ⟨hId, hNum, hFec, hTime, hSet⟩ := hGroup pkt hMem
      exact ⟨⟨hId, hNum, hFec, hTime, hSet⟩, rfl, rfl, rfl, UInt16.zero_add _⟩

/-! ## What the receiver holds -/

structure Round (p : GroupParams) where
  time : Time
  batch : Batch
  isRound : IsRound p time batch

/-- The rounds of a group by the ids of their batches. -/
structure SentRounds (p : GroupParams) where
  round : UInt32 → Option (Round p)
  batchId : ∀ k r, round k = some r → ∀ pkt ∈ r.batch.data, pkt.batchId = k

namespace PacketGroup

variable {p : GroupParams}

/-- The packet is one of the round, as it arrives. -/
def FromRound (r : Round p) (pkt : VideoPacket) : Prop :=
  (∃ data ∈ r.batch.data, ∃ rcvTime, pkt = .data (data.toDataPacket.received rcvTime)) ∨
    ∃ fec ∈ r.batch.fec, ∃ rcvTime, pkt = .fec (fec.received rcvTime)

def OpFromRound (sent : SentRounds p) : GroupOp → Prop
  | .get => True
  | .add pkt _ => ∃ r, sent.round pkt.header.batchId = some r ∧ FromRound r pkt

/-- A data packet says what the packet that was sent in its place would have said. -/
def AsSent (sent : SentRounds p) (pkt : DataPacket) : Prop :=
  ∃ r, sent.round pkt.batchId = some r ∧
    ∃ lost ∈ r.batch.data, pkt.content = (lost.toDataPacket.received 0).content

/-- The arriving packet makes its batch recover data packets. -/
def RecoversData (s : Delivery) (pkt : VideoPacket) : Prop :=
  ¬ s.group.Drops pkt ∧ ∃ b ∈ s.group.batchWith pkt,
    b.Decodable ∧ b.dataPkts.keys.length ≠ b.dataNum.toNat

/-- The round of a recovery was made in the millisecond in which the frame was encoded, and the
receiver's group has the FEC number of the first transmission. -/
def RecoversInTime (sent : SentRounds p) (s : Delivery) : GroupOp → Prop
  | .get => True
  | .add pkt _ => RecoversData s pkt → ∀ r ∈ sent.round pkt.header.batchId,
      wireTime r.time = wireTime p.encodeTime ∧ (s.group.recordPacket pkt).fecNum = p.fecNum

/-- A batch at the receiver that holds packets of the round. -/
structure HoldsRound (r : Round p) (b : PacketBatch) : Prop where
  data : ∀ pkt ∈ r.batch.data, pkt.batchId = b.batchId ∧ pkt.batchDataNum = b.dataNum ∧
    pkt.batchFecNum = b.fecNum
  dataNum : b.dataNum.toNat = r.batch.data.length
  held : ∀ i ∈ b.dataPkts, i.toNat < r.batch.data.length
  fec : ∀ i pkt, b.fecPkts.lookup i = some pkt →
    pkt.dataPkts = r.batch.data.map SentPacket.digest ∧ pkt.encodeTime = wireTime r.time

section Batch

variable {r : Round p} {b : PacketBatch} {pkt : VideoPacket}

theorem pktIdInBatch_lt {pkt : SentPacket} (hMem : pkt ∈ r.batch.data) :
    pkt.pktIdInBatch.toNat < r.batch.data.length := by
  obtain ⟨info, hRound⟩ := r.isRound.roundOf
  obtain ⟨i, hLt, rfl⟩ := List.mem_iff_getElem.mp hMem
  have hShort := hRound.short
  have hWidth : i < 2 ^ 16 := by omega
  rw [(hRound.data i _ (List.getElem?_eq_getElem hLt)).2.2.2, UInt16.toNat_ofNat_of_lt' hWidth]
  exact hLt

theorem ofHeader_holdsRound (hFrom : FromRound r pkt) :
    HoldsRound r (PacketBatch.ofHeader pkt.header) := by
  obtain ⟨info, hRound⟩ := r.isRound.roundOf
  have hShort := hRound.short
  have hHeader : pkt.header.batchId = info.batchId ∧ pkt.header.batchDataNum = info.batchDataNum ∧
      pkt.header.batchFecNum = info.batchFecNum := by
    rcases hFrom with ⟨data, hMem, rcvTime, rfl⟩ | ⟨fec, hMem, rcvTime, rfl⟩
    · obtain ⟨i, hLt, rfl⟩ := List.mem_iff_getElem.mp hMem
      obtain ⟨hId, hNum, hFec, -⟩ := hRound.data i _ (List.getElem?_eq_getElem hLt)
      exact ⟨hId, hNum, hFec⟩
    · obtain ⟨hId, hNum, hFec, -⟩ := hRound.fec fec hMem
      exact ⟨hId, hNum, hFec⟩
  obtain ⟨hId, hNum, hFec⟩ := hHeader
  refine ⟨fun data hMem => ?_, ?_, fun i hMem => absurd hMem (AList.notMem_empty i),
    fun i fec hLookup => by cases hLookup⟩
  · obtain ⟨i, hLt, rfl⟩ := List.mem_iff_getElem.mp hMem
    obtain ⟨hId', hNum', hFec', -⟩ := hRound.data i _ (List.getElem?_eq_getElem hLt)
    exact ⟨hId'.trans hId.symm, hNum'.trans hNum.symm, hFec'.trans hFec.symm⟩
  · have hWidth : r.batch.data.length < 2 ^ 16 := by omega
    exact (congrArg UInt16.toNat (hNum.trans hRound.batchDataNum)).trans
      (UInt16.toNat_ofNat_of_lt' hWidth)

theorem addPacket_holdsRound (hHolds : HoldsRound r b) (hFrom : FromRound r pkt) :
    HoldsRound r (b.addPacket pkt) := by
  unfold PacketBatch.addPacket
  split
  · exact hHolds
  rcases hFrom with ⟨data, hMem, rcvTime, rfl⟩ | ⟨fec, hMem, rcvTime, rfl⟩
  · refine ⟨hHolds.data, hHolds.dataNum, fun i hI => ?_, hHolds.fec⟩
    rcases (AList.mem_insert _).mp hI with rfl | hOld
    · exact pktIdInBatch_lt hMem
    · exact hHolds.held i hOld
  · refine ⟨hHolds.data, hHolds.dataNum, hHolds.held, fun i other hLookup => ?_⟩
    by_cases hI : i = fec.pktIdInBatch
    · obtain ⟨info, hRound⟩ := r.isRound.roundOf
      obtain ⟨-, -, -, hTime, hDigests⟩ := hRound.fec fec hMem
      subst hI
      obtain rfl : fec.received rcvTime = other :=
        Option.some.inj ((AList.lookup_insert _).symm.trans hLookup)
      refine ⟨hDigests, ?_⟩
      rw [encodeTime_fecReceived, hTime]
    · exact hHolds.fec i other ((AList.lookup_insert_ne hI).symm.trans hLookup)

/-- A batch that lacks data packets finds one in the list of a FEC packet. -/
theorem HoldsRound.exists_missing (hHolds : HoldsRound r b)
    (hPartial : b.dataPkts.keys.length ≠ b.dataNum.toNat) :
    ∃ digest, digest ∈ b.missing (r.batch.data.map SentPacket.digest) := by
  obtain ⟨info, hRound⟩ := r.isRound.roundOf
  have hShort := hRound.short
  by_contra hNone
  have hAll : List.range r.batch.data.length ⊆ b.dataPkts.keys.map UInt16.toNat := by
    intro i hI
    have hLt := List.mem_range.mp hI
    have hWidth : i < 2 ^ 16 := by omega
    have hId := (hRound.data i _ (List.getElem?_eq_getElem hLt)).2.2.2
    refine List.mem_map.mpr ⟨UInt16.ofNat i, ?_, UInt16.toNat_ofNat_of_lt' hWidth⟩
    by_contra hMissing
    refine hNone ⟨r.batch.data[i].digest, List.mem_filter.mpr ⟨?_, decide_eq_true ?_⟩⟩
    · exact List.mem_map_of_mem (List.getElem_mem hLt)
    · rw [SentPacket.digest, hId]
      exact hMissing
  have hHeld : b.dataPkts.keys.map UInt16.toNat ⊆ List.range r.batch.data.length := by
    intro i hI
    obtain ⟨j, hJ, rfl⟩ := List.mem_map.mp hI
    exact List.mem_range.mpr (hHolds.held j hJ)
  have hNodup : (b.dataPkts.keys.map UInt16.toNat).Nodup :=
    b.dataPkts.keys_nodup.map fun _ _ => UInt16.toNat_inj.mp
  have hLow := (List.nodup_range.subperm hAll).length_le
  have hHigh := (hNodup.subperm hHeld).length_le
  rw [List.length_map, List.length_range] at hLow hHigh
  exact hPartial ((hHigh.antisymm hLow).trans hHolds.dataNum.symm)

theorem encodeTime_of_content {a b : DataPacket} (h : a.content = b.content) :
    a.encodeTime = b.encodeTime ∧ a.groupFecNum = b.groupFecNum :=
  ⟨congrArg (fun pkt => pkt.encodeTime) h, congrArg (fun pkt => pkt.groupFecNum) h⟩

theorem AsSent.encodeTime_eq {sent : SentRounds p} {pkt : DataPacket} (h : AsSent sent pkt) :
    pkt.encodeTime = wireTime p.encodeTime := by
  obtain ⟨r, -, lost, hLost, hSame⟩ := h
  obtain ⟨info, hRound⟩ := r.isRound.roundOf
  rw [(encodeTime_of_content hSame).1, encodeTime_dataReceived, (hRound.inGroup lost hLost).encodeTime]

theorem asSent_recover_iff {sent : SentRounds p} {g : PacketGroup} {fec : FecPacket} {now : Time}
    {digest : DataPktDigest} (hHolds : HoldsRound r b) (hSent : sent.round b.batchId = some r)
    (hTime : fec.encodeTime = wireTime r.time) (hGroupId : g.groupId = p.groupId)
    (hDataNum : g.dataNum = p.dataNum)
    (hDigest : digest ∈ r.batch.data.map SentPacket.digest) :
    AsSent sent (b.recover g fec now digest) ↔
      wireTime r.time = wireTime p.encodeTime ∧ g.fecNum = p.fecNum := by
  obtain ⟨info, hRound⟩ := r.isRound.roundOf
  constructor
  · rintro ⟨r', hSent', lost, hLost, hSame⟩
    obtain rfl := Option.some.inj (hSent.symm.trans hSent')
    have hIn := hRound.inGroup lost hLost
    obtain ⟨hEncode, hFecNum⟩ := encodeTime_of_content hSame
    rw [encodeTime_dataReceived, hIn.encodeTime] at hEncode
    rw [PacketBatch.recover, hTime] at hEncode
    exact ⟨hEncode, hFecNum.trans hIn.fecNum⟩
  · rintro ⟨hEncode, hFecNum⟩
    obtain ⟨lost, hLost, rfl⟩ := List.mem_map.mp hDigest
    obtain ⟨hId, hNum, hFec, hEncoded, -⟩ := hRound.inGroup lost hLost
    obtain ⟨hBatchId, hBatchNum, hBatchFec⟩ := hHolds.data lost hLost
    refine ⟨r, hSent, lost, hLost, ?_⟩
    simp only [DataPacket.content, PacketBatch.recover, SentPacket.digest, DataPacket.received,
      VideoHeader.received, hTime, hEncode, hGroupId, hDataNum, hFecNum, hId, hNum, hFec, hEncoded,
      hBatchId, hBatchNum, hBatchFec]

end Batch
/-! ## Runs of the receiver -/

theorem recordPacket_ids (g : PacketGroup) (pkt : VideoPacket) :
    (g.recordPacket pkt).groupId = g.groupId ∧ (g.recordPacket pkt).dataNum = g.dataNum := by
  have hCount : ∀ g : PacketGroup, (g.countPacket pkt).groupId = g.groupId ∧
      (g.countPacket pkt).dataNum = g.dataNum := by
    intro g
    unfold countPacket
    split
    · cases pkt <;> exact ⟨rfl, rfl⟩
    · cases pkt <;> exact ⟨rfl, rfl⟩
  rw [recordPacket]
  split
  · exact hCount (g.initGroup pkt)
  · exact hCount g

theorem deliver_ids {begin : FirstEntry} {s t : Delivery} {op : GroupOp}
    (h : deliver begin s op = some t) :
    t.group.groupId = s.group.groupId ∧ t.group.dataNum = s.group.dataNum := by
  cases op with
  | get =>
    cases h
    exact ⟨rfl, rfl⟩
  | add pkt now =>
    obtain ⟨group, hAdd, h⟩ := Option.bind_eq_some_iff.mp h
    cases h
    have hRecord := recordPacket_ids s.group pkt
    rw [addPacket] at hAdd
    dsimp only at hAdd
    split at hAdd
    · cases hAdd
      exact hRecord
    · obtain ⟨b, -, hAdd⟩ := Option.bind_eq_some_iff.mp hAdd
      obtain ⟨⟨complete, b'⟩, -, hAdd⟩ := Option.bind_eq_some_iff.mp hAdd
      cases hAdd
      cases complete <;> exact hRecord

/-- What the receiver of a group's rounds keeps. -/
structure FidelityInv (sent : SentRounds p) (s : Delivery) : Prop where
  sound : s.Sound
  groupId : s.group.groupId = p.groupId
  dataNum : s.group.dataNum = p.dataNum
  incomplete : ∀ k b, s.group.incompleteBatches.lookup k = some b →
    ∃ r, sent.round k = some r ∧ HoldsRound r b

section Run

variable {begin : FirstEntry} {sent : SentRounds p} {s t : Delivery} {pkt : VideoPacket} {now : Time}

theorem FidelityInv.batchWith (hInv : FidelityInv sent s) {r : Round p}
    (hSent : sent.round pkt.header.batchId = some r) (hFrom : FromRound r pkt) {b : PacketBatch}
    (hBatch : s.group.batchWith pkt = some b) : HoldsRound r b := by
  obtain ⟨old, rfl, hOld | ⟨-, rfl, -⟩⟩ := batchWith_cases hBatch
  · obtain ⟨r', hSent', hHolds⟩ := hInv.incomplete _ old hOld
    obtain rfl := Option.some.inj (hSent.symm.trans hSent')
    exact addPacket_holdsRound hHolds hFrom
  · exact addPacket_holdsRound (ofHeader_holdsRound hFrom) hFrom

theorem asSent_direct {r : Round p} (hSent : sent.round pkt.header.batchId = some r)
    (hFrom : FromRound r pkt) {old : PacketBatch} {data : DataPacket} (hMem : data ∈ direct old pkt) :
    AsSent sent data := by
  rw [direct] at hMem
  split at hMem
  · cases hMem
  rcases hFrom with ⟨lost, hLost, rcvTime, rfl⟩ | ⟨fec, -, rcvTime, rfl⟩
  · obtain rfl := List.mem_singleton.mp hMem
    exact ⟨r, hSent, lost, hLost, rfl⟩
  · cases hMem

theorem deliver_fidelityInv (hInv : FidelityInv sent s) {op : GroupOp} (hOp : OpFromRound sent op)
    (h : deliver begin s op = some t) : FidelityInv sent t := by
  have hIds := deliver_ids h
  refine ⟨deliver_sound hInv.sound h, hIds.1.trans hInv.groupId, hIds.2.trans hInv.dataNum, ?_⟩
  cases op with
  | get =>
    cases h
    exact hInv.incomplete
  | add pkt now =>
    obtain ⟨-, -, ⟨-, hSame⟩ | ⟨-, b, stored, recovered, complete, hAdds⟩⟩ := deliver_add_cases h
    · rw [hSame.incompleteBatches]
      exact hInv.incomplete
    · obtain ⟨r, hSent, hFrom⟩ := hOp
      have hHolds := hInv.batchWith hSent hFrom hAdds.batch
      intro k c hLookup
      rcases hAdds.lookup_incomplete hLookup with ⟨-, hOld⟩ | ⟨rfl, rfl, hFalse⟩
      · exact hInv.incomplete k c hOld
      · refine ⟨r, hSent, ?_⟩
        rw [hAdds.kept hFalse]
        exact ⟨hHolds.data, hHolds.dataNum, hHolds.held, hHolds.fec⟩

theorem recovers_asSent_iff {r : Round p} {b : PacketBatch} {g : PacketGroup}
    {recovered : List DataPacket} {complete : Bool} (hHolds : HoldsRound r b)
    (hSent : sent.round b.batchId = some r) (h : Recovers begin b recovered complete g now)
    (hGroupId : g.groupId = p.groupId) (hDataNum : g.dataNum = p.dataNum) :
    (∀ data ∈ recovered, AsSent sent data) ↔
      (b.Decodable → b.dataPkts.keys.length ≠ b.dataNum.toNat →
        wireTime r.time = wireTime p.encodeTime ∧ g.fecNum = p.fecNum) := by
  rcases h with ⟨hFew, -, rfl⟩ | ⟨-, hFull, -, rfl⟩ | ⟨hDecodable, hPartial, -, fec, hFirst, rfl⟩
  · exact iff_of_true (fun _ hMem => by cases hMem) fun hDecodable => absurd hDecodable hFew
  · exact iff_of_true (fun _ hMem => by cases hMem) fun _ hPartial => absurd hFull hPartial
  · obtain ⟨key, hLookup⟩ := begin.mem_of_first _ fec hFirst
    obtain ⟨hDigests, hTime⟩ := hHolds.fec key fec hLookup
    have hIff : ∀ digest ∈ b.missing fec.dataPkts, AsSent sent (b.recover g fec now digest) ↔
        wireTime r.time = wireTime p.encodeTime ∧ g.fecNum = p.fecNum := fun digest hMem =>
      asSent_recover_iff hHolds hSent hTime hGroupId hDataNum
        (hDigests ▸ List.mem_of_mem_filter hMem)
    constructor
    · intro hAll _ _
      obtain ⟨digest, hMem⟩ := hHolds.exists_missing hPartial
      rw [← hDigests] at hMem
      exact (hIff digest hMem).mp (hAll _ (List.mem_map_of_mem hMem))
    · intro hInTime data hMem
      obtain ⟨digest, hDigest, rfl⟩ := List.mem_map.mp hMem
      exact (hIff digest hDigest).mpr (hInTime hDecodable hPartial)

theorem deliver_asSent_iff (hInv : FidelityInv sent s) {op : GroupOp} (hOp : OpFromRound sent op)
    (h : deliver begin s op = some t) :
    (∀ pkt ∈ t.delivered, AsSent sent pkt) ↔
      (∀ pkt ∈ s.delivered, AsSent sent pkt) ∧ RecoversInTime sent s op := by
  cases op with
  | get =>
    obtain ⟨t', hGet, hDelivered, -⟩ := deliver_get begin s
    cases h.symm.trans hGet
    rw [hDelivered]
    exact ⟨fun h => ⟨h, trivial⟩, fun h => h.1⟩
  | add pkt now =>
    obtain ⟨r, hSent, hFrom⟩ := hOp
    obtain ⟨-, hReturned, ⟨hDrop, hSame⟩ | ⟨hKeep, b, stored, recovered, complete, hAdds⟩⟩ :=
      deliver_add_cases h
    · rw [Delivery.delivered, hReturned, hSame.undecodedPkts]
      exact ⟨fun h => ⟨h, fun hRecovers => absurd hDrop hRecovers.1⟩, fun h => h.1⟩
    · have hHolds := hInv.batchWith hSent hFrom hAdds.batch
      obtain ⟨old, hDirect, -, hId, -⟩ := hAdds.undecoded_eq hInv.sound
      obtain ⟨hGroupId, hDataNum⟩ := recordPacket_ids s.group pkt
      have hRecovered := recovers_asSent_iff hHolds (hId ▸ hSent) hAdds.recovers
        (hGroupId.trans hInv.groupId) (hDataNum.trans hInv.dataNum)
      have hCondition : RecoversInTime sent s (.add pkt now) ↔ ∀ data ∈ recovered, AsSent sent data := by
        rw [hRecovered]
        constructor
        · intro hTime hDecodable hPartial
          exact hTime ⟨hKeep, b, hAdds.batch, hDecodable, hPartial⟩ r hSent
        · rintro hTime ⟨-, b', hBatch', hDecodable, hPartial⟩ r' hSent'
          obtain rfl := Option.some.inj (hAdds.batch.symm.trans hBatch')
          obtain rfl := Option.some.inj (hSent.symm.trans hSent')
          exact hTime hDecodable hPartial
      rw [hAdds.delivered hReturned, hDirect, hCondition]
      constructor
      · intro hAll
        exact ⟨fun data hMem => hAll data (List.mem_append_left _ hMem), fun data hMem =>
          hAll data (List.mem_append_right _ (List.mem_append_right _ hMem))⟩
      · rintro ⟨hOld, hNew⟩ data hMem
        rcases List.mem_append.mp hMem with hMem | hMem
        · exact hOld data hMem
        rcases List.mem_append.mp hMem with hMem | hMem
        · exact asSent_direct hSent hFrom hMem
        · exact hNew data hMem

/-- Every data packet that the receiver hands over says what was sent, if and only if each recovery
is in time. -/
theorem deliver_run_asSent_iff (hInv : FidelityInv sent s) {ops : List GroupOp}
    (hOps : ∀ op ∈ ops, OpFromRound sent op) (hRun : run (deliver begin) s ops = some t) :
    (∀ pkt ∈ t.delivered, AsSent sent pkt) ↔
      (∀ pkt ∈ s.delivered, AsSent sent pkt) ∧
        StepsMeet (deliver begin) (RecoversInTime sent) s ops := by
  induction ops generalizing s with
  | nil =>
    cases hRun
    exact ⟨fun h => ⟨h, trivial⟩, fun h => h.1⟩
  | cons op ops ih =>
    obtain ⟨hOp, hOps⟩ := List.forall_mem_cons.mp hOps
    obtain ⟨u, hStep, hRest⟩ := Option.bind_eq_some_iff.mp hRun
    rw [ih (deliver_fidelityInv hInv hOp hStep) hOps hRest, deliver_asSent_iff hInv hOp hStep,
      and_assoc, StepsMeet]
    have hTail : (∀ v, deliver begin s op = some v →
        StepsMeet (deliver begin) (RecoversInTime sent) v ops) ↔
          StepsMeet (deliver begin) (RecoversInTime sent) u ops := by
      constructor
      · exact fun h => h u hStep
      · intro h v hV
        exact Option.some.inj (hStep.symm.trans hV) ▸ h
    rw [hTail]

end Run

/-- Whichever packets of a group's rounds arrive, in any order, each data packet handed over, and so
each recovered one, is as it was sent if and only if every recovery is in time. -/
theorem recovered_asSent_iff (begin : FirstEntry) (p : GroupParams) (sent : SentRounds p)
    (encodeTime : Time) (ops : List GroupOp) (hOps : ∀ op ∈ ops, OpFromRound sent op) (t : Delivery)
    (hRun : run (deliver begin) (.init p.groupId p.dataNum encodeTime) ops = some t) :
    (∀ pkt ∈ t.delivered, AsSent sent pkt) ↔
      StepsMeet (deliver begin) (RecoversInTime sent) (.init p.groupId p.dataNum encodeTime) ops := by
  have hInit : FidelityInv sent (.init p.groupId p.dataNum encodeTime) :=
    ⟨init_sound _ _ _, rfl, rfl, fun k b hLookup => by cases hLookup⟩
  rw [deliver_run_asSent_iff hInit hOps hRun]
  exact ⟨fun h => h.2, fun h => ⟨fun pkt hMem => (by cases hMem), h⟩⟩

/-! ## Two rounds of a group of two packets -/

def senderAt (now : Time) (batchId : UInt32) : Sender :=
  { Sender.create 0 ⟨0, 0, 0, 0⟩ with now := now, batchId := batchId }

def batchOfCall (result : Option (Batch × Sender)) : Batch :=
  (result.map Prod.fst).getD ⟨[], []⟩

def twoPackets : List SentPacket :=
  [Sender.dataPacket 0 0 2 0 100, Sender.dataPacket 0 0 2 1 100]

def twoAndOne : FecParam := ⟨2, fun _ => 1⟩

def firstBatch : Batch :=
  batchOfCall ((senderAt 0 0).createFirstPacketBatch twoPackets twoAndOne)

theorem firstBatch_made : ∃ t, (senderAt 0 0).createFirstPacketBatch twoPackets twoAndOne =
    some (firstBatch, t) :=
  ⟨_, rfl⟩

def firstRound : Round ⟨0, 2, 1, 0⟩ where
  time := 0
  batch := firstBatch
  isRound := by
    obtain ⟨t, hMade⟩ := firstBatch_made
    exact .first (by decide) (by decide) hMade rfl

def resentPackets : List SentPacket :=
  firstBatch.data.map fun pkt => { pkt with txCount := 1 }

def secondBatch : Batch :=
  batchOfCall ((senderAt 60000000 1).createRtxPacketBatch resentPackets twoAndOne)

theorem resentPackets_identity {pkt : SentPacket} (h : pkt ∈ resentPackets) :
    ∃ old ∈ firstBatch.data, pkt.identity = old.identity := by
  obtain ⟨old, hOld, rfl⟩ := List.mem_map.mp h
  exact ⟨old, hOld, rfl⟩

theorem secondBatch_made : ∃ t, (senderAt 60000000 1).createRtxPacketBatch resentPackets twoAndOne =
    some (secondBatch, t) :=
  ⟨_, rfl⟩

/-- The retransmission 60 ms later. -/
def secondRound : Round ⟨0, 2, 1, 0⟩ where
  time := 60000000
  batch := secondBatch
  isRound := by
    obtain ⟨t, hMade⟩ := secondBatch_made
    exact .again firstRound.isRound (fun _ => resentPackets_identity) hMade

def twoRounds : SentRounds ⟨0, 2, 1, 0⟩ where
  round k := if k = 0 then some firstRound else if k = 1 then some secondRound else none
  batchId k r h := by
    split at h
    · cases h
      subst k
      decide
    split at h
    · cases h
      subst k
      decide
    · cases h

theorem wireTime_eq {t : Time} (h : FitsTime 1000000 t) : wireTime t = t := by
  have hBack : timeOfInteger (toU64 (getMilliSeconds t)) 1000000 = t :=
    timeOfInteger_toU64 (by decide) h
  unfold wireTime
  exact hBack

theorem fromRound_data {r : Round p} {pkt : SentPacket} (hMem : pkt ∈ r.batch.data)
    (h : FitsTime 1000000 pkt.encodeTime) : FromRound r (.data pkt.toDataPacket) := by
  refine .inl ⟨pkt, hMem, pkt.rcvTime, ?_⟩
  rw [DataPacket.received, VideoHeader.received, wireTime_eq h]

theorem fromRound_fec {r : Round p} {pkt : FecPacket} (hMem : pkt ∈ r.batch.fec)
    (h : FitsTime 1000000 pkt.encodeTime) : FromRound r (.fec pkt) := by
  refine .inr ⟨pkt, hMem, pkt.rcvTime, ?_⟩
  rw [FecPacket.received, VideoHeader.received, wireTime_eq h]

theorem fitsTime_zero : FitsTime 1000000 0 := ⟨dvd_zero _, by norm_num, by norm_num⟩

theorem recoveryOps_fromRound : ∀ op ∈ recoveryOps, OpFromRound twoRounds op := by
  have hData : firstBatch.data[0] ∈ firstRound.batch.data := List.getElem_mem (by decide)
  have hFec : firstBatch.fec[0] ∈ firstRound.batch.fec := List.getElem_mem (by decide)
  simp only [recoveryOps, List.forall_mem_cons]
  exact ⟨⟨firstRound, rfl, fromRound_data hData fitsTime_zero⟩, trivial,
    ⟨firstRound, rfl, fromRound_fec hFec fitsTime_zero⟩, trivial, fun _ h => by cases h⟩

/-- One of the two packets of the first transmission is recovered. -/
theorem first_round_recovered :
    ∃ t, run (deliver .newest) (.init 0 2 0) recoveryOps = some t ∧
      ∀ pkt ∈ t.delivered, AsSent twoRounds pkt := by
  refine ⟨_, rfl, (recovered_asSent_iff .newest ⟨0, 2, 1, 0⟩ twoRounds 0 recoveryOps
    recoveryOps_fromRound _ rfl).mpr ?_⟩
  refine ⟨?_, fun s hFirst => ⟨trivial, fun t hGet => ⟨?_, fun _ _ => ⟨trivial, fun _ _ => trivial⟩⟩⟩⟩
  · intro _ r hR
    cases hR
    exact ⟨rfl, rfl⟩
  · intro _ r hR
    cases hR
    cases hFirst
    cases hGet
    exact ⟨rfl, rfl⟩

/-- Of the retransmission one data packet and the FEC packet arrive. -/
def secondRoundOps : List GroupOp :=
  (secondBatch.data.take 1).map (fun pkt => .add (.data pkt.toDataPacket) 0) ++
    secondBatch.fec.map fun pkt => .add (.fec pkt) 0

/-- The recovered packet has the encode time of the retransmission. -/
theorem recovered_with_later_time :
    (∀ op ∈ secondRoundOps, OpFromRound twoRounds op) ∧
      ∃ t, run (deliver .newest) (.init 0 2 0) secondRoundOps = some t ∧
        ¬ ∀ pkt ∈ t.delivered, AsSent twoRounds pkt := by
  constructor
  · have hData : secondBatch.data[0] ∈ secondRound.batch.data := List.getElem_mem (by decide)
    have hFec : secondBatch.fec[0] ∈ secondRound.batch.fec := List.getElem_mem (by decide)
    have hLater : FitsTime 1000000 60000000 := ⟨by norm_num, by norm_num, by norm_num⟩
    exact List.forall_mem_cons.mpr ⟨⟨secondRound, rfl, fromRound_data hData fitsTime_zero⟩,
      List.forall_mem_cons.mpr ⟨⟨secondRound, rfl, fromRound_fec hFec hLater⟩, fun _ h => by cases h⟩⟩
  · refine ⟨_, rfl, fun h => ?_⟩
    have hZero := fun pkt hMem => (h pkt hMem).encodeTime_eq.trans (wireTime_eq fitsTime_zero)
    revert hZero
    decide

end PacketGroup
end Bullet.Stream
