import Bullet.Stream.Sender

/-! # The send queue

A data packet is one object that the history and the send queue share. A retransmission rewrites it
where it is, also while it waits to be sent.
-/

namespace Bullet.Stream

open Lib

/-- What a transmission sets anew in a data packet. -/
structure BatchFields where
  txCount : UInt8
  batchId : UInt32
  batchDataNum : UInt16
  batchFecNum : UInt16
  pktIdInBatch : UInt16
deriving DecidableEq, Repr

def SentPacket.batchFields (pkt : SentPacket) : BatchFields where
  txCount := pkt.txCount
  batchId := pkt.batchId
  batchDataNum := pkt.batchDataNum
  batchFecNum := pkt.batchFecNum
  pktIdInBatch := pkt.pktIdInBatch

/-- A packet in the queue: the number of a data packet, with the fields it had when the FEC packets of
its batch were made, or a FEC packet. -/
inductive QueuedPacket where
  | data (object : ℕ) (made : BatchFields)
  | fec (pkt : FecPacket)
deriving DecidableEq, Repr

def QueuedPacket.object : QueuedPacket → Option ℕ
  | .data object _ => some object
  | .fec _ => none

/-- A frame of the queue, which always has a packet to send. -/
structure QueuedFrame where
  retransmission : Bool
  first : QueuedPacket
  rest : List QueuedPacket
deriving DecidableEq, Repr

def QueuedFrame.packets (frame : QueuedFrame) : List QueuedPacket := frame.first :: frame.rest

/-- What happened to the data packets, with the retransmission timeout at the time. -/
inductive SendRecord where
  | sent (object : ℕ) (time : Time)
  | retransmitted (object : ℕ) (time timeout : Time)
deriving DecidableEq, Repr

/-- The sender with its packets as objects. What `sender` stores and sends itself is not read. -/
structure QueueSender where
  sender : Sender
  objects : ℕ → SentPacket
  objectCount : ℕ
  history : NestedMap UInt32 UInt16 ℕ
  historyKey : List GroupPacketInfo
  queue : List QueuedFrame
  /-- newest first -/
  record : List SendRecord

/-- The time after which a packet counts as lost, in `IsRtxTimeout`. -/
def Sender.rtxTimeout (s : Sender) (pkt : SentPacket) : Time :=
  s.netStat.srtt + s.netStat.rttSd * 1000 * 4 +
    ((pkt.batchDataNum.toNat + pkt.batchFecNum.toNat : ℕ) : ℤ) * s.netStat.oneWayDispersion

theorem Sender.lt_of_isRtxTimeout {s : Sender} {pkt : SentPacket} (h : s.isRtxTimeout pkt = true) :
    s.rtxTimeout pkt < s.now - pkt.sendTime :=
  (of_decide_eq_true h).2

namespace QueueSender

def create (delayDdl : Time) (netStat : NetStat) : QueueSender where
  sender := Sender.create delayDdl netStat
  objects := fun _ => Sender.dataPacket 0 0 0 0 0
  objectCount := 0
  history := AssocMap.empty
  historyKey := []
  queue := []
  record := []

/-- The data packets that are in the queue. -/
def waiting (s : QueueSender) : List ℕ :=
  s.queue.flatMap fun frame => frame.packets.filterMap QueuedPacket.object

/-- The objects after the listed ones have been written. -/
def written (objects : ℕ → SentPacket) (l : List (ℕ × SentPacket)) (object : ℕ) : SentPacket :=
  (l.lookup object).getD (objects object)

/-- The packets of the batches, whose data packets are the listed objects. -/
def queuedPackets : List ℕ → List Batch → List QueuedPacket
  | _, [] => []
  | handles, batch :: batches =>
    (handles.zip batch.data).map (fun entry => .data entry.1 entry.2.batchFields) ++
      batch.fec.map .fec ++ queuedPackets (handles.drop batch.data.length) batches

/-- `SendFrame` queues at the end, `SendRtx` at the front. -/
def enqueue (s : QueueSender) (isRtx : Bool) : List QueuedPacket → QueueSender
  | [] => s
  | first :: rest =>
    { s with queue := if isRtx then ⟨isRtx, first, rest⟩ :: s.queue else s.queue ++ [⟨isRtx, first, rest⟩] }

def storePacket (s : QueueSender) (object : ℕ) : QueueSender :=
  if (s.objects object).txCount = 0 then
    { s with
      historyKey := s.historyKey ++ [(s.objects object).key]
      history := s.history.put (s.objects object).key object }
  else s

def storePackets (s : QueueSender) (handles : List ℕ) : QueueSender := handles.foldl storePacket s

/-- The batches of the listed objects are queued. -/
def handOver (s : QueueSender) (handles : List ℕ) (isRtx : Bool) (sender : Sender)
    (batches : List Batch) : QueueSender :=
  { s with
    sender := sender
    objects := written s.objects (handles.zip (batches.flatMap Batch.data)) }.enqueue isRtx
      (queuedPackets handles batches)

def sendPackets (env : SenderEnv) (s : QueueSender) (handles : List ℕ) (ddlLeft : Time)
    (frameId : UInt32) (isRtx : Bool) : Option QueueSender :=
  (s.sender.sendPackets env (handles.map s.objects) ddlLeft frameId isRtx).map fun r =>
    let s := s.handOver handles isRtx r.2 r.1
    if isRtx then s else s.storePackets handles

/-- `CreateFrame` after it has cut the frame into `pkts`. -/
def allocate (s : QueueSender) (frameId : UInt32) (dataPktNum : UInt16) (pkts : List SentPacket) :
    QueueSender :=
  { s with
    sender := { s.sender with
      frameDataPktCnt := s.sender.frameDataPktCnt.set frameId dataPktNum.toUInt8 }
    objects := written s.objects ((List.range' s.objectCount pkts.length).zip pkts)
    objectCount := s.objectCount + pkts.length }

def createFrame (env : SenderEnv) (fuel : Nat) (s : QueueSender) (frameId : UInt32) (pktId : UInt16)
    (maxPayload dataPktNum : UInt16) (dataSize : UInt32) : Option QueueSender := do
  let pkts ← Sender.dataPackets s.sender.now frameId maxPayload dataPktNum dataSize fuel 0 pktId
  if pkts = [] then none
  else
    (s.allocate frameId dataPktNum pkts).sendPackets env (List.range' s.objectCount pkts.length)
      (s.sender.delayDdl - pkts.length * s.sender.netStat.oneWayDispersion) frameId false

/-- `GameServer::SendFrame` -/
def sendFrame (env : SenderEnv) (fuel : Nat) (s : QueueSender) (dataSize : UInt32) :
    Option QueueSender :=
  if dataSize = 0 then some s
  else
    createFrame env fuel { s with sender := { s.sender with frameId := s.sender.frameId + 1 } }
      s.sender.frameId 0 dataPktMaxPayload (Sender.dataPktNum dataSize) dataSize

/-- The loop of `RetransmitGroup` over the listed objects. -/
def renew (s : QueueSender) (handles : List ℕ) (txCount : UInt8) : QueueSender :=
  { s with
    objects := fun object =>
      if object ∈ handles then
        { s.objects object with txCount := txCount, enqueueTime := s.sender.now }
      else s.objects object
    record := (handles.map fun object =>
        .retransmitted object s.sender.now (s.sender.rtxTimeout (s.objects object))) ++ s.record }

def retransmitGroup (env : SenderEnv) (s : QueueSender) (groupId : UInt32) : Option QueueSender :=
  match s.history.find groupId with
  | none => some s
  | some group =>
    match env.walk (group.entries.map fun entry => (entry.1, s.objects entry.2)) with
    | [] => some s
    | front :: entries =>
      let handles := ((front :: entries).map Prod.fst).filterMap group.find
      (s.renew handles (front.2.txCount + 1)).sendPackets env handles
        (s.sender.rtxDdlLeft (front :: entries)) front.2.frameId true

/-- The first loop of `CheckRetransmission`. -/
def removeMissed (s : QueueSender) : List GroupPacketInfo → NestedMap UInt32 UInt16 ℕ →
    List GroupPacketInfo × NestedMap UInt32 UInt16 ℕ
  | [], history => ([], history)
  | info :: keys, history =>
    match history.get info with
    | none => removeMissed s keys history
    | some object =>
      if s.sender.missesDdl (s.objects object) then removeMissed s keys (history.remove info)
      else (info :: keys, history)

/-- The second loop of `CheckRetransmission` between two of its turns. -/
structure RtxPass where
  sender : QueueSender
  rtxGroupId : List UInt32
  kept : List GroupPacketInfo
  stopped : Bool

def RtxPass.keep (pass : RtxPass) (info : GroupPacketInfo) : RtxPass :=
  { pass with kept := pass.kept ++ [info] }

def checkKey (env : SenderEnv) (pass : RtxPass) (info : GroupPacketInfo) : Option RtxPass :=
  if pass.stopped then some (pass.keep info)
  else
    match pass.sender.history.get info with
    | none => some pass
    | some object =>
      let pkt := pass.sender.objects object
      if pass.sender.sender.now - pkt.encodeTime < pass.sender.sender.netStat.minRtt then
        some { pass.keep info with stopped := true }
      else if pkt.groupId ∈ pass.rtxGroupId then some (pass.keep info)
      else if pass.sender.sender.isRtxTimeout pkt then
        (pass.sender.retransmitGroup env pkt.groupId).map fun sender =>
          { pass.keep info with sender := sender, rtxGroupId := pkt.groupId :: pass.rtxGroupId }
      else some (pass.keep info)

/-- The second loop's start: what the first loop left. -/
def rtxPass (s : QueueSender) : RtxPass :=
  let r := s.removeMissed s.historyKey s.history
  { sender := { s with historyKey := r.1, history := r.2 }
    rtxGroupId := []
    kept := []
    stopped := false }

def checkRetransmission (env : SenderEnv) (s : QueueSender) : Option QueueSender :=
  (PartialRun.run (checkKey env) s.rtxPass s.rtxPass.sender.historyKey).map fun pass =>
    { pass.sender with historyKey := pass.kept }

def rcvAckPacket (s : QueueSender) (pktInfos : List GroupPacketInfo) : QueueSender :=
  { s with history := pktInfos.foldl NestedMap.remove s.history }

/-- `SetSendTime` on the packet that leaves the queue. -/
def markSent (s : QueueSender) : QueuedPacket → QueueSender
  | .data object _ =>
    { s with
      objects := Function.update s.objects object { s.objects object with sendTime := s.sender.now }
      record := .sent object s.sender.now :: s.record }
  | .fec _ => s

/-- The queue after its first packet has left, and the frame with it when that was its last. -/
def dropFirst (frame : QueuedFrame) (queue : List QueuedFrame) : List QueuedFrame :=
  match frame.rest with
  | [] => queue
  | next :: rest => { frame with first := next, rest := rest } :: queue

def sendPacket (s : QueueSender) : QueueSender :=
  match s.queue with
  | [] => s
  | frame :: queue => { s.markSent frame.first with queue := dropFirst frame queue }

/-- `sendPacket` may come at any time, as the pacing interval and `Pause` have it. -/
inductive Event where
  | wait (delay : Nat)
  | sendFrame (dataSize : UInt32)
  | sendPacket
  | rcvAck (pktInfos : List GroupPacketInfo)
  | checkRetransmission
  | setNetStat (netStat : NetStat)
deriving DecidableEq, Repr

def step (env : SenderEnv) (s : QueueSender) : Event → Option QueueSender
  | .wait delay => some { s with sender := { s.sender with now := s.sender.now + delay } }
  | .sendFrame dataSize => s.sendFrame env (dataSize.toNat + 1) dataSize
  | .sendPacket => some s.sendPacket
  | .rcvAck pktInfos => some (s.rcvAckPacket pktInfos)
  | .checkRetransmission => s.checkRetransmission env
  | .setNetStat netStat => some { s with sender := { s.sender with netStat := netStat } }

end QueueSender
end Bullet.Stream
