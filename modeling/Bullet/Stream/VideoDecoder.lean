import Bullet.Lib.PartialRun
import Bullet.Stream.Packet
import Mathlib.Algebra.Group.Nat.Defs
import Mathlib.Data.Finset.Card
import Mathlib.Data.List.AList
import Mathlib.Data.Rat.Defs

/-! # The video decoder

Pointers to frames are options. `none` as the result of a call stands for a null dereference, a
division by zero or a loop that does not end. Frame ids are `uint32_t` counters kept as naturals.
-/

namespace Bullet.Stream

structure VideoFrame where
  dataPktNum : UInt16
  encodeTime : Time
  lastPktRcvTime : Time
  pkts : Finset UInt16
deriving DecidableEq

namespace VideoFrame

def addPacket (frame : VideoFrame) (pkt : DataPacket) : VideoFrame where
  dataPktNum := frame.dataPktNum
  lastPktRcvTime := if pkt.rcvTime > frame.lastPktRcvTime then pkt.rcvTime else frame.lastPktRcvTime
  encodeTime := if pkt.encodeTime < frame.encodeTime then pkt.encodeTime else frame.encodeTime
  pkts := insert pkt.pktIdInFrame frame.pkts

def create (pkt : DataPacket) : VideoFrame :=
  addPacket { dataPktNum := pkt.framePktNum, encodeTime := pkt.encodeTime,
              lastPktRcvTime := pkt.rcvTime, pkts := ∅ } pkt

def getDataPktRcvedNum (frame : VideoFrame) : UInt16 :=
  UInt16.ofNat frame.pkts.card

def getFrameDelay (frame : VideoFrame) : Time :=
  frame.lastPktRcvTime - frame.encodeTime

def Complete (frame : VideoFrame) : Prop :=
  frame.dataPktNum = frame.getDataPktRcvedNum

instance (frame : VideoFrame) : Decidable frame.Complete :=
  inferInstanceAs (Decidable (_ = _))

end VideoFrame

abbrev FrameMap := AList (fun _ : Nat => Option VideoFrame)

/-- `frameAcks` records the calls of `ReplyFrameAck`, oldest first. -/
structure VideoDecoder where
  delayDdl : Time
  frameInterval : Nat
  unplayedFrames : FrameMap
  playedFrames : FrameMap
  minFrameId : Nat
  maxFrameId : Nat
  lastPlayedFrameId : Nat
  excludeTenPlayedFrames : Finset Nat
  frameAcks : List (Nat × Time)
deriving DecidableEq

namespace VideoDecoder

/-- Increment of a `uint32_t` frame id. -/
def nextId (id : Nat) : Nat := (id + 1) % 2 ^ 32

def create (delayDdl : Time) (fps : UInt16) : Option VideoDecoder :=
  if fps = 0 then none
  else some {
    delayDdl := delayDdl
    frameInterval := 1000 / fps.toNat
    unplayedFrames := ∅
    playedFrames := ∅
    minFrameId := 0
    maxFrameId := 0
    lastPlayedFrameId := 2 ^ 32 - 1
    excludeTenPlayedFrames := ∅
    frameAcks := [] }

/-- The frame that follows the last played one. -/
def nextFrameId (d : VideoDecoder) : Nat := nextId d.lastPlayedFrameId

/-- `delay_ddl.GetMilliSeconds() / m_frameInterval`. -/
def frameLag (d : VideoDecoder) : Int :=
  (getMilliSeconds d.delayDdl).tdiv d.frameInterval

def skipLimit (d : VideoDecoder) (frameId : Nat) : Option Int :=
  if d.frameInterval = 0 then none else some (frameId - d.frameLag)

def play (d : VideoDecoder) (idx : Nat) (frame : Option VideoFrame) : VideoDecoder :=
  { d with
    playedFrames := d.playedFrames.insert idx frame
    unplayedFrames := d.unplayedFrames.erase idx
    lastPlayedFrameId := idx }

def replyFrameAck (d : VideoDecoder) (idx : Nat) (frame : VideoFrame) : VideoDecoder :=
  { d with
    excludeTenPlayedFrames :=
      if 10 ≤ idx then insert idx d.excludeTenPlayedFrames else d.excludeTenPlayedFrames
    frameAcks := d.frameAcks ++ [(idx, frame.encodeTime)] }

/-- A complete frame leaves the buffer; only the in-order loop acknowledges it. -/
def playComplete (ack : Bool) (d : VideoDecoder) (idx : Nat) (frame : VideoFrame) : VideoDecoder :=
  match ack with
  | true => (d.play idx (some frame)).replyFrameAck idx frame
  | false => d.play idx (some frame)

/-- The loops that play complete frames from `idx` on. -/
def drainLoop (ack : Bool) : Nat → Nat → VideoDecoder → Option VideoDecoder
  | 0, _, _ => none
  | fuel + 1, idx, d =>
    if idx ≤ d.maxFrameId then
      match d.unplayedFrames.lookup idx with
      | none => some d
      | some none => none
      | some (some frame) =>
        if frame.Complete then drainLoop ack fuel (nextId idx) (playComplete ack d idx frame)
        else some d
    else some d

/-- Each round erases a key, so the number of keys bounds the number of rounds. -/
def drain (ack : Bool) (idx : Nat) (d : VideoDecoder) : Option VideoDecoder :=
  drainLoop ack (d.unplayedFrames.keys.length + 1) idx d

/-- One round of the deadline loop. Reading an absent key stores a null frame. -/
def skipFrame (idx : Nat) (d : VideoDecoder) : Option VideoDecoder :=
  drain false (nextId idx) (d.play idx (d.unplayedFrames.lookup idx).join)

def skipLoop (limit : Int) : Nat → Nat → VideoDecoder → Option VideoDecoder
  | 0, _, _ => none
  | fuel + 1, idx, d =>
    if (idx : Int) ≤ limit then (skipFrame idx d).bind (skipLoop limit fuel (nextId idx)) else some d

/-- After `2 ^ 32` rounds the counter has taken every value and the loop does not end. -/
def skipStale (limit : Int) (d : VideoDecoder) : Option VideoDecoder :=
  skipLoop limit (2 ^ 32) d.nextFrameId d

/-- The frame of `pkt` with `pkt` in it: a new one, or the buffered one. -/
def frameWith (d : VideoDecoder) (frameId : Nat) (pkt : DataPacket) : Option VideoFrame :=
  match d.unplayedFrames.lookup frameId with
  | none => some (VideoFrame.create pkt)
  | some none => none
  | some (some frame) => some (frame.addPacket pkt)

def store (d : VideoDecoder) (frameId : Nat) (frame : VideoFrame) : VideoDecoder :=
  { d with
    maxFrameId := max d.maxFrameId frameId
    minFrameId := min d.minFrameId frameId
    unplayedFrames := d.unplayedFrames.insert frameId (some frame) }

def frameCompleted (d : VideoDecoder) (frameId : Nat) (frame : VideoFrame) : Option VideoDecoder :=
  if frameId = 0 then some (d.play frameId (some frame))
  else if frameId = d.nextFrameId then drain true frameId d
  else some d

/-- The body of the loop of `DecodeDataPacket`. -/
def decodePacket (d : VideoDecoder) (pkt : DataPacket) : Option VideoDecoder :=
  let frameId := pkt.frameId.toNat
  if frameId ∈ d.playedFrames then some d
  else do
    let limit ← d.skipLimit frameId
    let d ← d.skipStale limit
    let frame ← d.frameWith frameId pkt
    let d := d.store frameId frame
    if frame.Complete then d.frameCompleted frameId frame else some d

def decodeDataPacket (d : VideoDecoder) (pkts : List DataPacket) : Option VideoDecoder :=
  Lib.PartialRun.run decodePacket d pkts

/-- One entry of the latency loop: the sums over all frames and over those from frame 10 on. -/
def addLatency (sums : Int × Int) (entry : Σ _ : Nat, Option VideoFrame) : Option (Int × Int) := do
  let frame ← entry.2
  let latency := getMilliSeconds frame.getFrameDelay
  some (sums.1 + latency, if 10 ≤ entry.1 then sums.2 + latency else sums.2)

/-- What `GetDDLMissRate` returns (`ddlMissRate`) and reports. -/
structure DdlStatistics where
  ddlMissRate : Rat
  avgLatency : Rat
  excludeTenAvgLatency : Rat
deriving DecidableEq

def frameTotalCnt (d : VideoDecoder) : Nat :=
  (d.maxFrameId + (2 ^ 32 - d.minFrameId) + 1) % 2 ^ 32

def getDdlMissRate (d : VideoDecoder) : Option DdlStatistics := do
  let frameRcvdCnt := d.playedFrames.keys.length
  if d.frameTotalCnt = 0 then some ⟨0, 0, 0⟩
  else
    let sums ← Lib.PartialRun.run addLatency (0, 0) d.playedFrames.entries
    let exclude := d.excludeTenPlayedFrames.card
    some {
      ddlMissRate := ((d.frameTotalCnt : Rat) - frameRcvdCnt) / d.frameTotalCnt
      avgLatency := sums.1 / (if frameRcvdCnt = 0 then 1 else frameRcvdCnt : Nat)
      excludeTenAvgLatency := sums.2 / (if exclude = 0 then 1 else exclude : Nat) }

end VideoDecoder
end Bullet.Stream
