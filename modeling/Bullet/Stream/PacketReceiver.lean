import Bullet.Stream.PacketGroup
import Bullet.Stream.VideoDecoder

/-! # The receiver's packet groups

Arrival of a video packet at the receiver: its group takes the packet, the decoder and the sender
get what the group hands out, and the group moves between the incomplete, the complete and the
timed-out groups.
-/

namespace Bullet.Stream

abbrev GroupMap := AList (fun _ : UInt32 => PacketGroup)

abbrev RtxCount := AList (fun _ : UInt8 => UInt64)

/-- A received video packet with the id that the acknowledgement repeats. -/
structure PacketArrival where
  pkt : VideoPacket
  globalId : UInt16
  now : Time
deriving DecidableEq

def PacketArrival.groupId (a : PacketArrival) : UInt32 := a.pkt.header.groupId

structure AckPacket where
  pktInfos : List (UInt32 × UInt16)
  lastPktId : UInt16
deriving DecidableEq, Repr

structure ReceiverStatistics where
  rcvdPktCnt : UInt64
  rcvdDataPktCnt : UInt64
  rcvdFecPktCnt : UInt64
  rcvdPktRtxCount : RtxCount
  rcvdGroupRtxCount : RtxCount
  rcvdDatapktRtxCount : RtxCount
  rcvdFecpktRtxCount : RtxCount
deriving DecidableEq

/-- `acks` records the acknowledgements sent, oldest first. -/
structure PacketReceiverUdp where
  delayDdl : Time
  oneWayDispersion : Time
  decoder : VideoDecoder
  incompleteGroups : GroupMap
  completeGroups : GroupMap
  timeoutGroups : GroupMap
  statistics : ReceiverStatistics
  acks : List AckPacket
deriving DecidableEq

/-- `PacketGroup::GetAvgPktInterval`; `none` is the division by zero. -/
def PacketGroup.getAvgPktInterval (g : PacketGroup) : Option Time :=
  if g.lastPktIdTx0 = 0 then some 0
  else if g.dataNum.toNat + g.fecNum.toNat = 0 then none
  else some ((g.lastRcvTimeTx0 - g.firstRcvTime).tdiv (g.dataNum.toNat + g.fecNum.toNat : Nat))

namespace ReceiverStatistics

def create : ReceiverStatistics where
  rcvdPktCnt := 0
  rcvdDataPktCnt := 0
  rcvdFecPktCnt := 0
  rcvdPktRtxCount := ∅
  rcvdGroupRtxCount := ∅
  rcvdDatapktRtxCount := ∅
  rcvdFecpktRtxCount := ∅

def bump (count : RtxCount) (tx : UInt8) : RtxCount :=
  count.insert tx ((count.lookup tx).getD 0 + 1)

def countPacket (s : ReceiverStatistics) (pkt : VideoPacket) : ReceiverStatistics :=
  let tx := pkt.header.txCount
  let s := { s with
    rcvdPktRtxCount := bump s.rcvdPktRtxCount tx
    rcvdPktCnt := s.rcvdPktCnt + 1 }
  match pkt with
  | .data _ =>
    { s with
      rcvdDataPktCnt := s.rcvdDataPktCnt + 1
      rcvdDatapktRtxCount := bump s.rcvdDatapktRtxCount tx }
  | .dupFec _ | .fec _ =>
    { s with
      rcvdFecPktCnt := s.rcvdFecPktCnt + 1
      rcvdFecpktRtxCount := bump s.rcvdFecpktRtxCount tx }

end ReceiverStatistics

namespace PacketReceiverUdp

/-- The receiver after construction and `StartApplication`. -/
def create (delayDdl : Time) (decoder : VideoDecoder) : PacketReceiverUdp where
  delayDdl := delayDdl
  oneWayDispersion := 180000
  decoder := decoder
  incompleteGroups := ∅
  completeGroups := ∅
  timeoutGroups := ∅
  statistics := .create
  acks := []

/-- The incomplete group of the packet, created when there is none. -/
def groupOf (r : PacketReceiverUdp) (pkt : VideoPacket) : PacketGroup :=
  match r.incompleteGroups.lookup pkt.header.groupId with
  | none => .create pkt.header.groupId pkt.header.groupDataNum pkt.header.encodeTime
  | some group => group

def replyAck (r : PacketReceiverUdp) (pkts : List DataPacket) (lastPktId : UInt16) :
    PacketReceiverUdp :=
  let infos := pkts.map fun pkt => (pkt.groupId, pkt.pktIdInGroup)
  { r with acks := r.acks ++ [⟨infos, lastPktId⟩] }

/-- Steps 2 to 4 of `ReceiveUdpPacket`: the group takes the packet and hands out its packets. -/
def storePacket (begin : FirstEntry) (r : PacketReceiverUdp) (a : PacketArrival) :
    Option (PacketGroup × PacketReceiverUdp) := do
  let group ← (r.groupOf a.pkt).addPacket begin a.pkt a.now
  let (decodePkts, group) := group.getUndecodedPackets
  let decoder ← r.decoder.decodeDataPacket decodePkts
  let r := { r with
    statistics := r.statistics.countPacket a.pkt
    incompleteGroups := r.incompleteGroups.insert a.groupId group
    decoder := decoder }
  some (group, r.replyAck decodePkts a.globalId)

/-- Step 5: a complete group moves to the complete ones. -/
def checkGroup (r : PacketReceiverUdp) (groupId : UInt32) (group : PacketGroup) :
    Option PacketReceiverUdp :=
  if group.checkComplete then do
    let interval ← group.getAvgPktInterval
    some { r with
      statistics := { r.statistics with
        rcvdGroupRtxCount :=
          ReceiverStatistics.bump r.statistics.rcvdGroupRtxCount group.maxTxCount }
      oneWayDispersion := if interval > 0 then interval else r.oneWayDispersion
      completeGroups := r.completeGroups.insert groupId group
      incompleteGroups := r.incompleteGroups.erase groupId }
  else some r

def expireGroup (rcvTime : Time) (r : PacketReceiverUdp) (entry : Σ _ : UInt32, PacketGroup) :
    PacketReceiverUdp :=
  if rcvTime > entry.2.encodeTime + r.delayDdl then
    { r with
      timeoutGroups := r.timeoutGroups.insert entry.2.groupId entry.2
      incompleteGroups := r.incompleteGroups.erase entry.1 }
  else r

/-- Step 6: every incomplete group past its deadline moves to the timed-out ones. -/
def expireGroups (rcvTime : Time) (r : PacketReceiverUdp) : PacketReceiverUdp :=
  r.incompleteGroups.entries.foldl (expireGroup rcvTime) r

/-- The group is complete or timed out. -/
def Finished (r : PacketReceiverUdp) (groupId : UInt32) : Prop :=
  groupId ∈ r.completeGroups ∨ groupId ∈ r.timeoutGroups

instance (r : PacketReceiverUdp) (groupId : UInt32) : Decidable (r.Finished groupId) :=
  inferInstanceAs (Decidable (_ ∨ _))

/-- The necessity check stands between step 4 and step 5. -/
def receiveUdpPacket (begin : FirstEntry) (r : PacketReceiverUdp) (a : PacketArrival) :
    Option PacketReceiverUdp := do
  let (group, r) ← r.storePacket begin a
  if r.Finished a.groupId then some r
  else do
    let r ← r.checkGroup a.groupId group
    some (r.expireGroups a.pkt.header.rcvTime)

end PacketReceiverUdp
end Bullet.Stream
