import Bullet.Lib.Binary64
import Bullet.Lib.Wire
import Bullet.Stream.Packet

/-! # Packet headers

The headers of the application's packets: what each one writes, the size it announces and what it
reads back. A packet is the list of its bytes; reading past its end is an assertion that fails.
-/

namespace Bullet.Stream

open Lib Lib.Wire

def microSeconds (us : Int) : Time := us * 1000

/-- `Time::GetMicroSeconds`: integer division toward zero. -/
def getMicroSeconds (t : Time) : Int := t.tdiv 1000

/-- A signed 64-bit number as an unsigned one. -/
def toU64 (i : Int) : UInt64 := UInt64.ofNat (i % 2 ^ 64).toNat

/-- `Time::FromInteger`: the product with the unit in 64 bits, as a signed number. -/
def timeOfInteger (value : UInt64) (unit : ℕ) : Time := Int.bmod (value.toNat * unit) (2 ^ 64)

/-- The virtual functions of a header; reading also returns the number of bytes read. -/
structure Header (α : Type) where
  getSerializedSize : α → UInt32
  serialize : α → List UInt8
  deserialize : Reader (α × UInt32)

inductive PacketType where
  | dataPkt
  | dupFecPkt
  | fecPkt
  | rtxReqPkt
  | ackPkt
  | frameAckPkt
  | netStatePkt
  | other (code : UInt32)
deriving DecidableEq, Repr

namespace PacketType

def code : PacketType → UInt32
  | dataPkt => 0
  | dupFecPkt => 1
  | fecPkt => 2
  | rtxReqPkt => 3
  | ackPkt => 4
  | frameAckPkt => 5
  | netStatePkt => 6
  | other code => code

def ofCode (c : UInt32) : PacketType :=
  if c = 0 then dataPkt
  else if c = 1 then dupFecPkt
  else if c = 2 then fecPkt
  else if c = 3 then rtxReqPkt
  else if c = 4 then ackPkt
  else if c = 5 then frameAckPkt
  else if c = 6 then netStatePkt
  else other c

end PacketType

def networkPacketHeader : Header PacketType where
  getSerializedSize _ := 4
  serialize type := writeU32 type.code
  deserialize := do
    let code ← readU32
    pure (.ofCode code, 4)

structure VideoPacketHeader where
  encodeTime : Time
  globalId : UInt16
  groupId : UInt32
  groupDataNum : UInt16
  groupFecNum : UInt16
  pktIdInGroup : UInt16
  batchId : UInt32
  batchDataNum : UInt16
  batchFecNum : UInt16
  pktIdInBatch : UInt16
  txCount : UInt8
deriving DecidableEq, Repr

def videoPacketHeader : Header VideoPacketHeader where
  getSerializedSize _ := 8 + 2 + 4 + 2 + 2 + 2 + 4 + 2 + 2 + 2 + 1
  serialize h :=
    writeU64 (toU64 (getMilliSeconds h.encodeTime)) ++ (writeU16 h.globalId ++
      (writeU32 h.groupId ++ (writeU16 h.groupDataNum ++ (writeU16 h.groupFecNum ++
        (writeU16 h.pktIdInGroup ++ (writeU32 h.batchId ++ (writeU16 h.batchDataNum ++
          (writeU16 h.batchFecNum ++ (writeU16 h.pktIdInBatch ++ writeU8 h.txCount)))))))))
  deserialize := do
    let encodeTime ← readU64
    let globalId ← readU16
    let groupId ← readU32
    let groupDataNum ← readU16
    let groupFecNum ← readU16
    let pktIdInGroup ← readU16
    let batchId ← readU32
    let batchDataNum ← readU16
    let batchFecNum ← readU16
    let pktIdInBatch ← readU16
    let txCount ← readU8
    pure (⟨timeOfInteger encodeTime 1000000, globalId, groupId, groupDataNum, groupFecNum,
      pktIdInGroup, batchId, batchDataNum, batchFecNum, pktIdInBatch, txCount⟩,
      8 + 2 + 4 + 2 + 2 + 2 + 4 + 2 + 2 + 2 + 1)

structure DataPacketHeader where
  frameId : UInt32
  frameSize : UInt32
  framePktNum : UInt16
  pktIdInFrame : UInt16
deriving DecidableEq, Repr

def dataPacketHeader : Header DataPacketHeader where
  getSerializedSize _ := 4 + 4 + 2 + 2
  serialize h :=
    writeU32 h.frameId ++ (writeU32 h.frameSize ++ (writeU16 h.framePktNum ++
      writeU16 h.pktIdInFrame))
  deserialize := do
    let frameId ← readU32
    let frameSize ← readU32
    let framePktNum ← readU16
    let pktIdInFrame ← readU16
    pure (⟨frameId, frameSize, framePktNum, pktIdInFrame⟩, 4 + 4 + 2 + 2)

def DataPktDigest.write (d : DataPktDigest) : List UInt8 :=
  writeU16 d.pktIdInBatch ++ (writeU16 d.pktIdInGroup ++ (writeU32 d.frameId ++
    (writeU16 d.framePktNum ++ writeU16 d.pktIdInFrame)))

def DataPktDigest.read : Reader DataPktDigest := do
  let pktIdInBatch ← readU16
  let pktIdInGroup ← readU16
  let frameId ← readU32
  let framePktNum ← readU16
  let pktIdInFrame ← readU16
  pure ⟨pktIdInBatch, pktIdInGroup, frameId, framePktNum, pktIdInFrame⟩

/-- The header is the list of its digests, the first of a fresh header empty. -/
def fecPacketHeader : Header (List DataPktDigest) where
  getSerializedSize dataPkts := UInt32.ofNat (dataPkts.length * (2 + 2 + 4 + 2 + 2) + 2)
  serialize dataPkts := writeU16 (UInt16.ofNat dataPkts.length) ++ dataPkts.flatMap DataPktDigest.write
  deserialize := do
    let pktsSize ← readU16
    let dataPkts ← readList DataPktDigest.read pktsSize.toNat
    pure (dataPkts, 2 + UInt32.ofNat (12 * pktsSize.toNat))

structure AckedPkt where
  groupId : UInt32
  pktIdInGroup : UInt16
deriving DecidableEq, Repr

def AckedPkt.write (p : AckedPkt) : List UInt8 :=
  writeU32 p.groupId ++ writeU16 p.pktIdInGroup

def AckedPkt.read : Reader AckedPkt := do
  let groupId ← readU32
  let pktIdInGroup ← readU16
  pure ⟨groupId, pktIdInGroup⟩

structure AckPacketHeader where
  pktInfos : List AckedPkt
  lastPktId : UInt16
deriving DecidableEq, Repr

def ackPacketHeader : Header AckPacketHeader where
  getSerializedSize h := UInt32.ofNat (4 + h.pktInfos.length * 6 + 2)
  serialize h :=
    writeU32 (UInt32.ofNat h.pktInfos.length) ++ (h.pktInfos.flatMap AckedPkt.write ++
      writeU16 h.lastPktId)
  deserialize := do
    let pktInfoCnt ← readU32
    let pktInfos ← readList AckedPkt.read pktInfoCnt.toNat
    let lastPktId ← readU16
    pure (⟨pktInfos, lastPktId⟩, 4 + UInt32.ofNat (6 * pktInfoCnt.toNat) + 2)

structure FrameAckPacketHeader where
  frameId : UInt32
  frameEncodeTime : Time
deriving DecidableEq, Repr

def frameAckPacketHeader : Header FrameAckPacketHeader where
  getSerializedSize _ := 4 + 8
  serialize h := writeU32 h.frameId ++ writeU64 (toU64 (getMicroSeconds h.frameEncodeTime))
  deserialize := do
    let frameId ← readU32
    let frameEncodeTime ← readU64
    pure (⟨frameId, timeOfInteger frameEncodeTime 1000⟩, 4 + 8)

structure RcvTime where
  pktId : UInt32
  rtUs : UInt32
deriving DecidableEq, Repr

def RcvTime.write (t : RcvTime) : List UInt8 :=
  writeU32 t.pktId ++ writeU32 t.rtUs

def RcvTime.read : Reader RcvTime := do
  let pktId ← readU32
  let rtUs ← readU32
  pure ⟨pktId, rtUs⟩

/-- A loss entry goes as its sign and its magnitude. -/
def writeLoss (loss : Int) : List UInt8 :=
  if loss < 0 then writeU16 0 ++ writeU16 (UInt16.ofNat (-loss).toNat)
  else writeU16 1 ++ writeU16 (UInt16.ofNat loss.toNat)

def readLoss : Reader Int := do
  let sig ← readU16
  let value ← readU16
  pure (if 0 < sig then (value.toNat : Int) else -(value.toNat : Int))

/-- The loss rate is the exact value of a double. -/
structure NetStates where
  lossRate : ℚ
  throughputKbps : UInt32
  fecGroupDelayUs : UInt16
  lossSeq : List Int
  recvtimeHist : List RcvTime
deriving DecidableEq, Repr

/-- The double product, truncated to sixteen bits. -/
def wireLossRate (lossRate : ℚ) : UInt16 :=
  UInt16.ofNat (Binary64.truncate (Binary64.mul lossRate 10000) % 2 ^ 16).toNat

def ofWireLossRate (wire : UInt16) : ℚ :=
  Binary64.div wire.toNat 10000

def netStatePacketHeader : Header NetStates where
  getSerializedSize h := UInt32.ofNat (12 + 4 * h.lossSeq.length + 8 * h.recvtimeHist.length)
  serialize h :=
    writeU16 (wireLossRate h.lossRate) ++ (writeU32 h.throughputKbps ++
      (writeU16 h.fecGroupDelayUs ++ (writeU16 (UInt16.ofNat h.lossSeq.length) ++
        (h.lossSeq.flatMap writeLoss ++ (writeU16 (UInt16.ofNat h.recvtimeHist.length) ++
          h.recvtimeHist.flatMap RcvTime.write)))))
  deserialize := do
    let lossRate ← readU16
    let throughputKbps ← readU32
    let fecGroupDelayUs ← readU16
    let lossSize ← readU16
    let lossSeq ← readList readLoss lossSize.toNat
    let histSize ← readU16
    let recvtimeHist ← readList RcvTime.read histSize.toNat
    pure (⟨ofWireLossRate lossRate, throughputKbps, fecGroupDelayUs, lossSeq, recvtimeHist⟩,
      12 + UInt32.ofNat (4 * lossSize.toNat) + UInt32.ofNat (8 * histSize.toNat))

end Bullet.Stream
