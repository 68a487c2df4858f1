import Mathlib.Data.Finset.Basic

/-! # Packets of the video stream

The header fields that the receiver side reads, at the widths of the wire format. Times are
nanoseconds.
-/

namespace Bullet.Stream

abbrev Time := Int

def milliSeconds (ms : Int) : Time := ms * 1000000

/-- `Time::GetMilliSeconds`: integer division toward zero. -/
def getMilliSeconds (t : Time) : Int := t.tdiv 1000000

/-- `VideoPacketHeader`, with the receive time of the packet that carries it. -/
structure VideoHeader where
  rcvTime : Time
  encodeTime : Time
  txCount : UInt8
  groupId : UInt32
  groupDataNum : UInt16
  groupFecNum : UInt16
  pktIdInGroup : UInt16
  batchId : UInt32
  batchDataNum : UInt16
  batchFecNum : UInt16
  pktIdInBatch : UInt16
deriving DecidableEq, Repr

structure DataPacket extends VideoHeader where
  frameId : UInt32
  framePktNum : UInt16
  pktIdInFrame : UInt16
deriving DecidableEq, Repr

/-- A data packet that carries packet `pktIdInFrame` of a frame of `framePktNum` packets. -/
def DataPacket.ofFrame (frameId : UInt32) (framePktNum pktIdInFrame : UInt16) (time : Time) :
    DataPacket where
  rcvTime := time
  encodeTime := time
  txCount := 0
  groupId := 0
  groupDataNum := 1
  groupFecNum := 0
  pktIdInGroup := 0
  batchId := 0
  batchDataNum := 1
  batchFecNum := 0
  pktIdInBatch := 0
  frameId := frameId
  framePktNum := framePktNum
  pktIdInFrame := pktIdInFrame

/-- What a FEC packet stores of each data packet it protects. -/
structure DataPktDigest where
  pktIdInBatch : UInt16
  pktIdInGroup : UInt16
  frameId : UInt32
  framePktNum : UInt16
  pktIdInFrame : UInt16
deriving DecidableEq, Repr

structure FecPacket extends VideoHeader where
  dataPkts : List DataPktDigest
deriving DecidableEq, Repr

/-- The packet types that reach a packet group. -/
inductive VideoPacket where
  | data (pkt : DataPacket)
  | dupFec (pkt : DataPacket)
  | fec (pkt : FecPacket)
deriving DecidableEq, Repr

def VideoPacket.header : VideoPacket → VideoHeader
  | .data pkt => pkt.toVideoHeader
  | .dupFec pkt => pkt.toVideoHeader
  | .fec pkt => pkt.toVideoHeader

/-- The data packet that the packet is, a duplicate included. -/
def VideoPacket.asData : VideoPacket → Option DataPacket
  | .data pkt => some pkt
  | .dupFec pkt => some pkt
  | .fec _ => none

end Bullet.Stream
