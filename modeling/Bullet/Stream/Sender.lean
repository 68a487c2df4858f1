import Mathlib.Algebra.Order.Group.Int
import Bullet.Lib.NestedMap
import Bullet.Lib.PartialRun
import Bullet.Stream.Packet

/-! # The video sender

Cutting a frame into packets, packets into groups and batches, the history of unacknowledged
packets and its retransmission. `none` is a failed assertion or a loop that does not end.
-/

namespace Bullet.Stream

open Lib

/-- `(group_id, pkt_id_in_group)` of a `GroupPacketInfo`. -/
abbrev GroupPacketInfo := UInt32 × UInt16

/-- A data packet as the sender keeps it, with the members that are not sent. -/
structure SentPacket extends DataPacket where
  payloadSize : UInt32
  enqueueTime : Time
  sendTime : Time
  groupInfoSet : Bool
deriving DecidableEq, Repr

def SentPacket.key (pkt : SentPacket) : GroupPacketInfo := (pkt.groupId, pkt.pktIdInGroup)

/-- What `CreatePacketBatch` writes into every packet of a batch. -/
structure BatchInfo where
  groupId : UInt32
  groupDataNum : UInt16
  groupFecNum : UInt16
  batchId : UInt32
  batchDataNum : UInt16
  batchFecNum : UInt16
deriving DecidableEq, Repr

namespace SentPacket

def setFecGroup (pkt : SentPacket) (info : BatchInfo) (pktIdInGroup : UInt16) : SentPacket :=
  { pkt with
    groupId := info.groupId
    groupDataNum := info.groupDataNum
    groupFecNum := info.groupFecNum
    pktIdInGroup := pktIdInGroup
    groupInfoSet := true }

def setFecBatch (pkt : SentPacket) (info : BatchInfo) (pktIdInBatch : UInt16) : SentPacket :=
  { pkt with
    batchId := info.batchId
    batchDataNum := info.batchDataNum
    batchFecNum := info.batchFecNum
    pktIdInBatch := pktIdInBatch }

def setEnqueueTime (time : Time) (pkt : SentPacket) : SentPacket := { pkt with enqueueTime := time }

def digest (pkt : SentPacket) : DataPktDigest where
  pktIdInBatch := pkt.pktIdInBatch
  pktIdInGroup := pkt.pktIdInGroup
  frameId := pkt.frameId
  framePktNum := pkt.framePktNum
  pktIdInFrame := pkt.pktIdInFrame

end SentPacket

/-- A batch vector: its data packets, then its FEC packets. -/
structure Batch where
  data : List SentPacket
  fec : List FecPacket
deriving DecidableEq, Repr

def Batch.packets (batch : Batch) : List VideoPacket :=
  (batch.data.map fun pkt => .data pkt.toDataPacket) ++ batch.fec.map .fec

def Batch.setEnqueueTime (time : Time) (batch : Batch) : Batch :=
  { batch with data := batch.data.map (SentPacket.setEnqueueTime time) }

/-- The packets handed to `SendFrame` or to `SendRtx`. -/
structure PacketFrame where
  retransmission : Bool
  packets : List VideoPacket
deriving DecidableEq, Repr

structure NetStat where
  srtt : Time
  minRtt : Time
  /-- `(uint64_t)(rtt_sd * 1000)`, in microseconds -/
  rttSd : Nat
  oneWayDispersion : Time
deriving DecidableEq, Repr

/-- The arguments of a call of the FEC policy. The source narrows `ddlLeft` (milliseconds) to 16
bits, which is undefined outside their range; the policy gets the value before. -/
structure PolicyInput where
  netStat : NetStat
  delayDdl : Int
  ddlLeft : Int
  isRtx : Bool
  frameSize : UInt8
  maxGroupSize : UInt16
  fixGroupSize : Bool
deriving DecidableEq, Repr

/-- A policy's answer; `fecNum n` is `(uint16_t) round(n * fec_rate)`. -/
structure FecParam where
  fecGroupSize : UInt16
  fecNum : UInt16 → UInt16

/-- The FEC policy, whose answers may depend on its earlier calls, and the order in which the loop of
`RetransmitGroup` meets the entries of an unordered map. -/
structure SenderEnv where
  policy : List PolicyInput → PolicyInput → FecParam
  walk : List (UInt16 × SentPacket) → List (UInt16 × SentPacket)
  walk_perm : ∀ l, (walk l).Perm l

/-- A policy that always gives the same answer. -/
def SenderEnv.constant (fecGroupSize fecNum : UInt16) : SenderEnv where
  policy := fun _ _ => ⟨fecGroupSize, fun _ => fecNum⟩
  walk := id
  walk_perm := fun l => List.Perm.refl l

/-- The members of the game server and its sender that the functions below use, with what was handed
to the send queue and the calls of the policy so far. -/
structure Sender where
  now : Time
  delayDdl : Time
  frameId : UInt32
  groupId : UInt32
  batchId : UInt32
  sendGroupCnt : UInt64
  frameDataPktCnt : AssocMap UInt32 UInt8
  dataPktHistory : NestedMap UInt32 UInt16 SentPacket
  dataPktHistoryKey : List GroupPacketInfo
  netStat : NetStat
  policyInputs : List PolicyInput
  traffic : List PacketFrame

def dataPktMaxPayload : UInt16 := 1460 - 42 - 12

namespace Sender

def create (delayDdl : Time) (netStat : NetStat) : Sender where
  now := 0
  delayDdl := delayDdl
  frameId := 0
  groupId := 0
  batchId := 0
  sendGroupCnt := 0
  frameDataPktCnt := AssocMap.empty
  dataPktHistory := AssocMap.empty
  dataPktHistoryKey := []
  netStat := netStat
  policyInputs := []
  traffic := []

def policyInput (s : Sender) (maxGroupSize : UInt16) (ddlLeft : Time) (fixGroupSize isRtx : Bool)
    (frameSize : UInt8) : PolicyInput where
  netStat := s.netStat
  delayDdl := getMilliSeconds s.delayDdl
  ddlLeft := ddlLeft.tdiv 1000 / 1000
  isRtx := isRtx
  frameSize := frameSize
  maxGroupSize := maxGroupSize
  fixGroupSize := fixGroupSize

def getFecParam (env : SenderEnv) (s : Sender) (maxGroupSize : UInt16) (ddlLeft : Time)
    (fixGroupSize isRtx : Bool) (frameId : UInt32) : Option (FecParam × Sender) :=
  (s.frameDataPktCnt.find frameId).map fun frameSize =>
    let input := s.policyInput maxGroupSize ddlLeft fixGroupSize isRtx frameSize
    (env.policy s.policyInputs input, { s with policyInputs := s.policyInputs ++ [input] })

/-- The loop over the data packets of a batch; also the next id in the group. -/
def assignIds (info : BatchInfo) (newGroup : Bool) :
    UInt16 → UInt16 → List SentPacket → Option (List SentPacket × UInt16)
  | _, pktIdInGroup, [] => some ([], pktIdInGroup)
  | pktIdInBatch, pktIdInGroup, pkt :: pkts =>
    if newGroup = false ∧ pkt.groupInfoSet = true then
      if pkt.groupId = info.groupId then
        (assignIds info newGroup (pktIdInBatch + 1) pktIdInGroup pkts).map fun r =>
          (pkt.setFecBatch info pktIdInBatch :: r.1, r.2)
      else none
    else
      (assignIds info newGroup (pktIdInBatch + 1) (pktIdInGroup + 1) pkts).map fun r =>
        ((pkt.setFecBatch info pktIdInBatch).setFecGroup info pktIdInGroup :: r.1, r.2)

/-- `RTX_FEC_GROUP_ID` -/
def rtxFecGroupId : UInt16 := 65535

def fecPacket (info : BatchInfo) (txCount : UInt8) (now : Time) (dataPkts : List DataPktDigest)
    (pktIdInBatch pktIdInGroup : UInt16) : FecPacket where
  rcvTime := 0
  encodeTime := now
  txCount := txCount
  groupId := info.groupId
  groupDataNum := info.groupDataNum
  groupFecNum := info.groupFecNum
  pktIdInGroup := pktIdInGroup
  batchId := info.batchId
  batchDataNum := info.batchDataNum
  batchFecNum := info.batchFecNum
  pktIdInBatch := pktIdInBatch
  dataPkts := dataPkts

def createPacketBatch (s : Sender) (pktBatch : List SentPacket) (param : FecParam)
    (newGroup : Bool) (groupId : UInt32) (isRtx : Bool) : Option (Batch × Sender) :=
  match pktBatch with
  | [] => none
  | front :: _ =>
    let batchDataNum := UInt16.ofNat pktBatch.length
    let batchFecNum := param.fecNum batchDataNum
    let info : BatchInfo :=
      { groupId := if newGroup then s.groupId else groupId
        groupDataNum := if newGroup then batchDataNum else front.groupDataNum
        groupFecNum := if newGroup then batchFecNum else front.batchFecNum
        batchId := s.batchId
        batchDataNum := batchDataNum
        batchFecNum := batchFecNum }
    (assignIds info newGroup 0 0 pktBatch).map fun r =>
      let fec := (List.range batchFecNum.toNat).map fun i =>
        fecPacket info front.txCount s.now (r.1.map SentPacket.digest)
          (batchDataNum + UInt16.ofNat i)
          (if isRtx then rtxFecGroupId else r.2 + UInt16.ofNat i)
      (⟨r.1, fec⟩,
        { s with
          batchId := s.batchId + 1
          groupId := if newGroup then s.groupId + 1 else s.groupId })

def createFirstPacketBatch (s : Sender) (pktBatch : List SentPacket) (param : FecParam) :
    Option (Batch × Sender) :=
  (s.createPacketBatch pktBatch param true 0 false).map fun r =>
    (r.1, { r.2 with sendGroupCnt := r.2.sendGroupCnt + 1 })

def createRtxPacketBatch (s : Sender) (pktBatch : List SentPacket) (param : FecParam) :
    Option (Batch × Sender) :=
  match pktBatch with
  | [] => none
  | front :: _ =>
    if pktBatch.length = param.fecGroupSize.toNat then
      s.createPacketBatch pktBatch param false front.groupId true
    else none

/-- The loop of `SendPackets` over the full groups; a turn that does not abort takes packets. -/
def fullGroups (param : FecParam) :
    Nat → Sender → List SentPacket → Option (List Batch × List SentPacket × Sender)
  | fuel, s, pkts =>
    if pkts.length < param.fecGroupSize.toNat then some ([], pkts, s)
    else
      match fuel with
      | 0 => none
      | fuel + 1 => do
        let (batch, s) ← s.createFirstPacketBatch (pkts.take param.fecGroupSize.toNat) param
        let (batches, rest, s) ← fullGroups param fuel s (pkts.drop param.fecGroupSize.toNat)
        some (batch :: batches, rest, s)

def firstGroups (env : SenderEnv) (s : Sender) (pkts : List SentPacket) (ddlLeft : Time)
    (frameId : UInt32) : Option (List Batch × List SentPacket × Sender) := do
  let (param, s) ← s.getFecParam env (UInt16.ofNat pkts.length) ddlLeft false false frameId
  fullGroups param pkts.length s pkts

def lastGroup (env : SenderEnv) (s : Sender) (pkts : List SentPacket) (ddlLeft : Time)
    (frameId : UInt32) (isRtx : Bool) : Option (List Batch × Sender) :=
  if pkts = [] then some ([], s)
  else do
    let (param, s) ← s.getFecParam env (UInt16.ofNat pkts.length) ddlLeft true isRtx frameId
    let (batch, s) ← (if isRtx then s.createRtxPacketBatch pkts param
      else s.createFirstPacketBatch pkts param)
    some ([batch], s)

def storePacket (s : Sender) (pkt : SentPacket) : Sender :=
  if pkt.txCount = 0 then
    { s with
      dataPktHistoryKey := s.dataPktHistoryKey ++ [pkt.key]
      dataPktHistory := s.dataPktHistory.put pkt.key pkt }
  else s

def storePackets (s : Sender) (pkts : List SentPacket) : Sender := pkts.foldl storePacket s

/-- The end of `SendPackets`: the packets are queued and, the first time, stored. -/
def enqueue (s : Sender) (batches : List Batch) (isRtx : Bool) : Sender :=
  if batches.flatMap Batch.packets = [] then s
  else
    let s := { s with traffic := s.traffic ++ [⟨isRtx, batches.flatMap Batch.packets⟩] }
    if isRtx then s else s.storePackets (batches.flatMap Batch.data)

def sendPackets (env : SenderEnv) (s : Sender) (pkts : List SentPacket) (ddlLeft : Time)
    (frameId : UInt32) (isRtx : Bool) : Option (List Batch × Sender) := do
  let (batches, rest, s) ← (if isRtx then some ([], pkts, s)
    else s.firstGroups env pkts ddlLeft frameId)
  let (last, s) ← s.lastGroup env rest ddlLeft frameId isRtx
  let batches := (batches ++ last).map (Batch.setEnqueueTime s.now)
  some (batches, s.enqueue batches isRtx)

def dataPacket (now : Time) (frameId : UInt32) (framePktNum pktIdInFrame : UInt16)
    (payloadSize : UInt32) : SentPacket where
  toDataPacket := { DataPacket.ofFrame frameId framePktNum pktIdInFrame now with rcvTime := 0 }
  payloadSize := payloadSize
  enqueueTime := 0
  sendTime := 0
  groupInfoSet := false

/-- The loop of `CreateFrame`, whose 32-bit `data_ptr` may wrap around. -/
def dataPackets (now : Time) (frameId : UInt32) (maxPayload framePktNum : UInt16)
    (dataSize : UInt32) : Nat → UInt32 → UInt16 → Option (List SentPacket)
  | 0, _, _ => none
  | fuel + 1, dataPtr, pktId =>
    if dataPtr < dataSize then
      (dataPackets now frameId maxPayload framePktNum dataSize fuel
        (dataPtr + maxPayload.toUInt32) (pktId + 1)).map
          (dataPacket now frameId framePktNum pktId (min maxPayload.toUInt32 (dataSize - dataPtr)) :: ·)
    else some []

def createFrame (env : SenderEnv) (fuel : Nat) (s : Sender) (frameId : UInt32) (pktId : UInt16)
    (maxPayload dataPktNum : UInt16) (dataSize : UInt32) : Option Sender := do
  let pkts ← dataPackets s.now frameId maxPayload dataPktNum dataSize fuel 0 pktId
  if pkts = [] then none
  else
    let s := { s with frameDataPktCnt := s.frameDataPktCnt.set frameId dataPktNum.toUInt8 }
    let (_, s) ← s.sendPackets env pkts
      (s.delayDdl - pkts.length * s.netStat.oneWayDispersion) frameId false
    some s

/-- The ceiling division of `GameServer::SendFrame`. -/
def dataPktNum (dataSize : UInt32) : UInt16 :=
  (dataSize / dataPktMaxPayload.toUInt32 +
    if dataSize % dataPktMaxPayload.toUInt32 = 0 then 0 else 1).toUInt16

/-- `GameServer::SendFrame` -/
def sendFrame (env : SenderEnv) (fuel : Nat) (s : Sender) (dataSize : UInt32) : Option Sender :=
  if dataSize = 0 then some s
  else
    createFrame env fuel { s with frameId := s.frameId + 1 } s.frameId 0 dataPktMaxPayload
      (dataPktNum dataSize) dataSize

def isRtxTimeout (s : Sender) (pkt : SentPacket) : Bool :=
  decide (pkt.enqueueTime < s.now ∧
    s.netStat.srtt + s.netStat.rttSd * 1000 * 4 +
      ((pkt.batchDataNum.toNat + pkt.batchFecNum.toNat : Nat) : Int) * s.netStat.oneWayDispersion <
        s.now - pkt.sendTime)

def missesDdl (s : Sender) (pkt : SentPacket) : Bool :=
  decide (s.delayDdl < s.now - pkt.encodeTime)

/-- Changes the stored packets in place. -/
def writeBack (s : Sender) (groupId : UInt32) (entries : List (UInt16 × SentPacket)) : Sender :=
  { s with
    dataPktHistory := entries.foldl (fun m entry => m.put (groupId, entry.1) entry.2)
      s.dataPktHistory }

/-- The deadline left to a group, by the first encode time in the walk that is not zero. -/
def rtxDdlLeft (s : Sender) (entries : List (UInt16 × SentPacket)) : Time :=
  s.delayDdl -
    (s.now - ((entries.map fun entry => entry.2.encodeTime).find? (· ≠ 0)).getD 0)

def retransmitGroup (env : SenderEnv) (s : Sender) (groupId : UInt32) : Option Sender :=
  match s.dataPktHistory.find groupId with
  | none => some s
  | some group =>
    match env.walk group.entries with
    | [] => some s
    | front :: entries => do
      let pkts := (front :: entries).map fun entry =>
        { entry.2 with txCount := front.2.txCount + 1, enqueueTime := s.now }
      let (batches, s) ← s.sendPackets env pkts (s.rtxDdlLeft (front :: entries)) front.2.frameId true
      some (s.writeBack groupId
        (((front :: entries).map Prod.fst).zip (batches.flatMap Batch.data)))

/-- The first loop of `CheckRetransmission`. -/
def removeMissed (s : Sender) : List GroupPacketInfo → NestedMap UInt32 UInt16 SentPacket →
    List GroupPacketInfo × NestedMap UInt32 UInt16 SentPacket
  | [], history => ([], history)
  | info :: keys, history =>
    match history.get info with
    | none => removeMissed s keys history
    | some pkt =>
      if s.missesDdl pkt then removeMissed s keys (history.remove info)
      else (info :: keys, history)

/-- The second loop of `CheckRetransmission` between two of its turns: the groups it retransmitted,
the keys it kept, and whether it has left the loop. -/
structure RtxPass where
  sender : Sender
  rtxGroupId : List UInt32
  kept : List GroupPacketInfo
  stopped : Bool

def RtxPass.keep (pass : RtxPass) (info : GroupPacketInfo) : RtxPass :=
  { pass with kept := pass.kept ++ [info] }

def checkKey (env : SenderEnv) (pass : RtxPass) (info : GroupPacketInfo) : Option RtxPass :=
  if pass.stopped then some (pass.keep info)
  else
    match pass.sender.dataPktHistory.get info with
    | none => some pass
    | some pkt =>
      if pass.sender.now - pkt.encodeTime < pass.sender.netStat.minRtt then
        some { pass.keep info with stopped := true }
      else if pkt.groupId ∈ pass.rtxGroupId then some (pass.keep info)
      else if pass.sender.isRtxTimeout pkt then
        (pass.sender.retransmitGroup env pkt.groupId).map fun sender =>
          { pass.keep info with sender := sender, rtxGroupId := pkt.groupId :: pass.rtxGroupId }
      else some (pass.keep info)

/-- The second loop's start: what the first loop left. -/
def rtxPass (s : Sender) : RtxPass :=
  let r := s.removeMissed s.dataPktHistoryKey s.dataPktHistory
  { sender := { s with dataPktHistoryKey := r.1, dataPktHistory := r.2 }
    rtxGroupId := []
    kept := []
    stopped := false }

def checkRetransmission (env : SenderEnv) (s : Sender) : Option Sender :=
  (PartialRun.run (checkKey env) s.rtxPass s.rtxPass.sender.dataPktHistoryKey).map fun pass =>
    { pass.sender with dataPktHistoryKey := pass.kept }

/-- The packets stay in the key queue, which the next check cleans. -/
def rcvAckPacket (s : Sender) (pktInfos : List GroupPacketInfo) : Sender :=
  { s with dataPktHistory := pktInfos.foldl NestedMap.remove s.dataPktHistory }

/-- `SendPacket` puts a packet on the wire. -/
def packetSent (s : Sender) (info : GroupPacketInfo) : Sender :=
  match s.dataPktHistory.get info with
  | none => s
  | some pkt =>
    { s with dataPktHistory := s.dataPktHistory.put info { pkt with sendTime := s.now } }

inductive SenderEvent where
  | wait (delay : Nat)
  | sendFrame (dataSize : UInt32)
  | rcvAck (pktInfos : List GroupPacketInfo)
  | checkRetransmission
  | packetSent (info : GroupPacketInfo)
  | setNetStat (netStat : NetStat)
deriving DecidableEq, Repr

/-- A frame of `n` bytes takes at most `n` turns of the loop that cuts it, or never ends. -/
def step (env : SenderEnv) (s : Sender) : SenderEvent → Option Sender
  | .wait delay => some { s with now := s.now + delay }
  | .sendFrame dataSize => s.sendFrame env (dataSize.toNat + 1) dataSize
  | .rcvAck pktInfos => some (s.rcvAckPacket pktInfos)
  | .checkRetransmission => s.checkRetransmission env
  | .packetSent info => some (s.packetSent info)
  | .setNetStat netStat => some { s with netStat := netStat }

end Sender
end Bullet.Stream
