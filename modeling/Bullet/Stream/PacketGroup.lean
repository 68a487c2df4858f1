import Mathlib.Data.Finset.Card
import Mathlib.Data.List.AList
import Bullet.Lib.PartialRun
import Bullet.Stream.Packet

/-! # Packet groups and FEC batches

A packet group collects the batches (first transmission and retransmissions) of one FEC group and
hands out data packets, either received or recovered from a FEC packet. `none` is a failed assertion.
-/

namespace Bullet.Stream

abbrev DataMap := AList (fun _ : UInt16 => DataPacket)

abbrev FecMap := AList (fun _ : UInt16 => FecPacket)

/-- `begin()` of an unordered map: some entry of a non-empty map, the order being unspecified. -/
structure FirstEntry where
  first : FecMap → Option FecPacket
  mem_of_first : ∀ m pkt, first m = some pkt → ∃ id, m.lookup id = some pkt
  isSome_first : ∀ m, m.keys ≠ [] → (first m).isSome

/-- The choice of the most recently inserted entry. -/
def FirstEntry.newest : FirstEntry where
  first m := m.entries.head?.map fun entry => entry.2
  mem_of_first m pkt h := by
    obtain ⟨entry, hHead, rfl⟩ := Option.map_eq_some_iff.mp h
    exact ⟨entry.1, AList.mem_lookup_iff.mpr (List.mem_of_mem_head? hHead)⟩
  isSome_first m h := by
    rw [Option.isSome_map, List.isSome_head?]
    rintro hNil
    apply h
    rw [AList.keys, hNil]
    rfl

structure PacketBatch where
  batchId : UInt32
  dataNum : UInt16
  fecNum : UInt16
  decodedPkts : Finset UInt16
  undecodedPkts : List DataPacket
  dataPkts : DataMap
  fecPkts : FecMap
deriving DecidableEq

structure PacketGroup where
  groupId : UInt32
  dataNum : UInt16
  fecNum : UInt16
  encodeTime : Time
  firstRcvTime : Time
  lastRcvTimeTx0 : Time
  undecodedPkts : List DataPacket
  decodedPkts : Finset UInt16
  incompleteBatches : AList (fun _ : UInt32 => PacketBatch)
  completeBatches : AList (fun _ : UInt32 => PacketBatch)
  lastPktIdTx0 : UInt16
  maxTxCount : UInt8
  firstTxDataCount : UInt16
  firstTxFecCount : UInt16
  rtxDataCount : UInt16
  rtxFecCount : UInt16
  pktArriveDis : AList (fun _ : UInt8 => UInt32)
deriving DecidableEq

namespace PacketBatch

def addPacket (b : PacketBatch) (pkt : VideoPacket) : PacketBatch :=
  if pkt.header.pktIdInBatch ∈ b.decodedPkts then b
  else match pkt with
    | .data data =>
      { b with
        dataPkts := b.dataPkts.insert data.pktIdInBatch data
        undecodedPkts := b.undecodedPkts ++ [data] }
    | .dupFec data =>
      { b with
        dataPkts := b.dataPkts.insert data.pktIdInBatch data
        undecodedPkts := b.undecodedPkts ++ [data] }
    | .fec fec => { b with fecPkts := b.fecPkts.insert fec.pktIdInBatch fec }

def ofHeader (h : VideoHeader) : PacketBatch where
  batchId := h.batchId
  dataNum := h.batchDataNum
  fecNum := h.batchFecNum
  decodedPkts := ∅
  undecodedPkts := []
  dataPkts := ∅
  fecPkts := ∅

/-- The constructor, with its assertion that the batch has data packets. -/
def create (pkt : VideoPacket) : Option PacketBatch :=
  if 0 < pkt.header.batchDataNum then some ((ofHeader pkt.header).addPacket pkt) else none

/-- The data packets of a digest list that the batch does not hold. -/
def missing (b : PacketBatch) (digests : List DataPktDigest) : List DataPktDigest :=
  digests.filter fun digest => decide (digest.pktIdInBatch ∉ b.dataPkts)

/-- The data packet rebuilt from a digest; `fec` gives its encode time. -/
def recover (b : PacketBatch) (g : PacketGroup) (fec : FecPacket) (now : Time)
    (digest : DataPktDigest) : DataPacket where
  rcvTime := now
  encodeTime := fec.encodeTime
  txCount := 0
  groupId := g.groupId
  groupDataNum := g.dataNum
  groupFecNum := g.fecNum
  pktIdInGroup := digest.pktIdInGroup
  batchId := b.batchId
  batchDataNum := b.dataNum
  batchFecNum := b.fecNum
  pktIdInBatch := digest.pktIdInBatch
  frameId := digest.frameId
  framePktNum := digest.framePktNum
  pktIdInFrame := digest.pktIdInFrame

/-- Enough packets of the batch are there to know its data packets. -/
def Decodable (b : PacketBatch) : Prop :=
  b.dataNum.toNat ≤ b.dataPkts.keys.length + b.fecPkts.keys.length

instance (b : PacketBatch) : Decidable b.Decodable :=
  inferInstanceAs (Decidable (_ ≤ _))

def checkComplete (begin : FirstEntry) (b : PacketBatch) (g : PacketGroup) (now : Time) :
    Option (Bool × PacketBatch) :=
  if b.Decodable then
    if b.dataPkts.keys.length = b.dataNum.toNat then some (true, b)
    else if 0 < b.fecPkts.keys.length then do
      let fec ← begin.first b.fecPkts
      some (true, { b with
        undecodedPkts :=
          b.undecodedPkts ++ (b.missing fec.dataPkts).map (b.recover g fec now)
        dataPkts := ∅
        fecPkts := ∅ })
    else none
  else some (false, b)

def getUndecodedPackets (b : PacketBatch) : List DataPacket × PacketBatch :=
  (b.undecodedPkts, { b with
    undecodedPkts := []
    decodedPkts := b.decodedPkts ∪ (b.undecodedPkts.map (·.pktIdInBatch)).toFinset })

end PacketBatch

namespace PacketGroup

/-- The constructor for a group without packets. The members it leaves unset are written by the
first `addPacket` before they are read. -/
def create (groupId : UInt32) (dataNum : UInt16) (encodeTime : Time) : PacketGroup where
  groupId := groupId
  dataNum := dataNum
  fecNum := 0
  encodeTime := encodeTime
  firstRcvTime := 0
  lastRcvTimeTx0 := 0
  undecodedPkts := []
  decodedPkts := ∅
  incompleteBatches := ∅
  completeBatches := ∅
  lastPktIdTx0 := 0
  maxTxCount := 0
  firstTxDataCount := 0
  firstTxFecCount := 0
  rtxDataCount := 0
  rtxFecCount := 0
  pktArriveDis := ∅

def initGroup (g : PacketGroup) (pkt : VideoPacket) : PacketGroup :=
  { g with
    fecNum := pkt.header.groupFecNum
    firstRcvTime := pkt.header.rcvTime
    lastRcvTimeTx0 := pkt.header.rcvTime
    maxTxCount := pkt.header.txCount
    lastPktIdTx0 := pkt.header.pktIdInGroup }

def countPacket (g : PacketGroup) (pkt : VideoPacket) : PacketGroup :=
  if pkt.header.txCount = 0 then
    match pkt with
    | .data _ => { g with firstTxDataCount := g.firstTxDataCount + 1 }
    | .dupFec _ => { g with firstTxFecCount := g.firstTxFecCount + 1 }
    | .fec _ => { g with firstTxFecCount := g.firstTxFecCount + 1 }
  else
    match pkt with
    | .data _ => { g with rtxDataCount := g.rtxDataCount + 1 }
    | .dupFec _ => { g with rtxFecCount := g.rtxFecCount + 1 }
    | .fec _ => { g with rtxFecCount := g.rtxFecCount + 1 }

def updateTimes (g : PacketGroup) (h : VideoHeader) : PacketGroup :=
  { g with
    maxTxCount := if h.txCount > g.maxTxCount then h.txCount else g.maxTxCount
    encodeTime := if h.encodeTime < g.encodeTime then h.encodeTime else g.encodeTime
    lastRcvTimeTx0 :=
      if h.rcvTime > g.lastRcvTimeTx0 ∧ h.txCount = 0 then h.rcvTime else g.lastRcvTimeTx0
    lastPktIdTx0 :=
      if h.pktIdInGroup > g.lastPktIdTx0 ∧
          h.pktIdInGroup.toNat < g.dataNum.toNat + g.fecNum.toNat ∧ h.txCount = 0 then
        h.pktIdInGroup
      else g.lastPktIdTx0 }

/-- The part of `AddPacket` before the batch is touched. -/
def recordPacket (g : PacketGroup) (pkt : VideoPacket) : PacketGroup :=
  let g := if g.decodedPkts.card + g.undecodedPkts.length = 0 then g.initGroup pkt else g
  (g.countPacket pkt).updateTimes pkt.header

/-- The batch of the packet with the packet in it: a new one, or the incomplete one. -/
def batchWith (g : PacketGroup) (pkt : VideoPacket) : Option PacketBatch :=
  match g.incompleteBatches.lookup pkt.header.batchId with
  | none => PacketBatch.create pkt
  | some b => some (b.addPacket pkt)

/-- The batch hands its packets to the group and moves to the complete ones when it is done. -/
def storeBatch (g : PacketGroup) (batchId : UInt32) (complete : Bool) (b : PacketBatch) :
    PacketGroup :=
  let (pkts, b) := b.getUndecodedPackets
  let g := { g with undecodedPkts := g.undecodedPkts ++ pkts }
  if complete then
    { g with
      completeBatches := g.completeBatches.insert batchId b
      incompleteBatches := g.incompleteBatches.erase batchId }
  else { g with incompleteBatches := g.incompleteBatches.insert batchId b }

/-- A packet of a complete batch, or with an id already handed out, is dropped. -/
def Drops (g : PacketGroup) (pkt : VideoPacket) : Prop :=
  pkt.header.batchId ∈ g.completeBatches ∨ pkt.header.pktIdInGroup ∈ g.decodedPkts

instance (g : PacketGroup) (pkt : VideoPacket) : Decidable (g.Drops pkt) :=
  inferInstanceAs (Decidable (_ ∨ _))

def addPacket (begin : FirstEntry) (g : PacketGroup) (pkt : VideoPacket) (now : Time) :
    Option PacketGroup :=
  let g := g.recordPacket pkt
  if g.Drops pkt then some g
  else do
    let b ← g.batchWith pkt
    let (complete, b) ← b.checkComplete begin g now
    some (g.storeBatch pkt.header.batchId complete b)

def countArrival (dis : AList (fun _ : UInt8 => UInt32)) (pkt : DataPacket) :
    AList (fun _ : UInt8 => UInt32) :=
  dis.insert pkt.txCount (((dis.lookup pkt.txCount).getD 0) + 1)

def getUndecodedPackets (g : PacketGroup) : List DataPacket × PacketGroup :=
  (g.undecodedPkts, { g with
    undecodedPkts := []
    decodedPkts := g.decodedPkts ∪ (g.undecodedPkts.map (·.pktIdInGroup)).toFinset
    pktArriveDis := g.undecodedPkts.foldl countArrival g.pktArriveDis })

def checkComplete (g : PacketGroup) : Bool :=
  g.decodedPkts.card = g.dataNum.toNat

end PacketGroup
end Bullet.Stream
