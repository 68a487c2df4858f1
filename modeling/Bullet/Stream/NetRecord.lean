import Bullet.Lib.PartialRun
import Bullet.Lib.SerialNumber
import Bullet.Lib.SlidingWindow
import Bullet.Lib.SortedInsert
import Bullet.Stream.RttStatistics

/-! # The receiver's record of packets

A received video packet joins a record in the order of the ids, after the packets that are older
than the window have left it. At every feedback the record gives the losses, the rates and the
packets not fed back before. The rates are kept with exact fractions.
-/

namespace Bullet.Stream

open Lib Lib.PartialRun Lib.SlidingWindow

/-- What the socket takes at most: `MAX_IPV4_UDP_DATAGRAM_SIZE`. -/
def maxUdpDatagramSize : ℕ := 65507

/-- A received datagram with a video packet. -/
structure VideoDatagram where
  globalId : UInt16
  size : UInt32
  fits : size.toNat ≤ maxUdpDatagramSize
deriving DecidableEq, Repr

/-- An `RcvTime` of the record, whose id is always one of 16 bits. -/
structure RecordedPkt where
  pktId : UInt16
  rtUs : UInt32
  pktSize : UInt32
deriving DecidableEq, Repr

def RecordedPkt.toRcvTime (p : RecordedPkt) : RcvTime := ⟨p.pktId.toUInt32, p.rtUs⟩

structure NetRecord where
  record : List RecordedPkt
  timeWndSize : UInt32
  lastFeedback : UInt16
  pktsInWnd : UInt16
  bytesInWnd : UInt32
  lossesInWnd : UInt32
  lossRate : ℚ
  throughputKbps : ℚ
  lossSeq : List ℤ
  recvSample : List RecordedPkt
deriving DecidableEq, Repr

/-! ## Reception -/

/-- Whether a loop that erases the entry at an index of a record of some size, and then increments
its iterator, passes over the entry behind the erased one. -/
abbrev SkipsNext := ℕ → ℕ → Bool

/-- The deque of libstdc++ closes a gap from its shorter side. -/
def dequeSkipsNext : SkipsNext := fun index size => decide (size / 2 ≤ index)

/-- The sliding of the window: the entries visited before, those ahead and the bytes. -/
def slideOn (skips : SkipsNext) (expired : RecordedPkt → Bool) (before : List RecordedPkt) :
    List RecordedPkt → UInt32 → List RecordedPkt × UInt32
  | [], bytes => (before, bytes)
  | [p], bytes =>
    if expired p then (before, bytes - p.pktSize) else (before ++ [p], bytes)
  | p :: q :: rest, bytes =>
    if expired p then
      if skips before.length (before.length + (rest.length + 2)) then
        slideOn skips expired (before ++ [q]) rest (bytes - p.pktSize)
      else slideOn skips expired before (q :: rest) (bytes - p.pktSize)
    else slideOn skips expired (before ++ [p]) (q :: rest) bytes

/-- The serial number order of the record. -/
def IdOrder (p q : RecordedPkt) : Prop := lessThanSimple p.pktId q.pktId = true

instance : DecidableRel IdOrder := fun _ _ => inferInstanceAs (Decidable (_ = true))

theorem lessThanSimple_iff {id1 id2 : UInt16} :
    lessThanSimple id1 id2 = true ↔ SerialNumber.Before id1.toBitVec id2.toBitVec := by
  rw [lessThanSimple, decide_eq_true_iff]
  exact Iff.rfl

def insertPkt (p : RecordedPkt) (record : List RecordedPkt) : List RecordedPkt :=
  SortedInsert.insertFromEnd IdOrder p record

namespace NetRecord

def create (wndsize : UInt32) : NetRecord where
  record := []
  timeWndSize := wndsize
  lastFeedback := 65535
  pktsInWnd := 0
  bytesInWnd := 0
  lossesInWnd := 0
  lossRate := 0
  throughputKbps := 30000
  lossSeq := [1000]
  recvSample := []

/-- The test of the sliding window, in unsigned arithmetic. -/
def expired (r : NetRecord) (rxTime : UInt32) (p : RecordedPkt) : Bool :=
  decide (p.rtUs < rxTime - r.timeWndSize)

/-- `OnSocketRecv_receiver`, once the packet has gone to its group. -/
def onSocketRecv (skips : SkipsNext) (r : NetRecord) (rxTime : UInt32) (pkt : VideoDatagram) :
    NetRecord :=
  let rt : RecordedPkt := ⟨pkt.globalId, rxTime, pkt.size⟩
  match r.record with
  | [] => { r with record := [rt], bytesInWnd := r.bytesInWnd + pkt.size }
  | p :: rest =>
    let (record, bytes) := slideOn skips (r.expired rxTime) [] (p :: rest) r.bytesInWnd
    { r with record := insertPkt rt record, bytesInWnd := bytes + pkt.size }

/-- An empty record is no case of its own. -/
theorem onSocketRecv_eq (skips : SkipsNext) (r : NetRecord) (rxTime : UInt32)
    (pkt : VideoDatagram) :
    r.onSocketRecv skips rxTime pkt =
      let slid := slideOn skips (r.expired rxTime) [] r.record r.bytesInWnd
      { r with
        record := insertPkt ⟨pkt.globalId, rxTime, pkt.size⟩ slid.1
        bytesInWnd := slid.2 + pkt.size } := by
  rw [onSocketRecv]
  cases hRecord : r.record with
  | nil => rfl
  | cons p rest => rfl

end NetRecord

/-! ## Feedback -/

/-- The variables of the loop of the feedback. -/
structure FeedbackScan where
  prevId : UInt32
  consecutiveRecv : ℤ
  lossSeq : List ℤ
  lossesInWnd : UInt32
  recvSample : List RecordedPkt
  lastFeedback : UInt16
deriving DecidableEq, Repr

namespace FeedbackScan

def start (prevId : UInt32) (lastFeedback : UInt16) : FeedbackScan where
  prevId := prevId
  consecutiveRecv := 0
  lossSeq := []
  lossesInWnd := 0
  recvSample := []
  lastFeedback := lastFeedback

/-- `id - prev_id` modulo the id space. -/
def gap (s : FeedbackScan) (id : UInt32) : UInt32 := (id - s.prevId + 65536) % 65536

/-- The runs and the losses up to a record. -/
def countLosses (s : FeedbackScan) (id : UInt32) (isLast : Bool) : FeedbackScan :=
  if s.gap id = 1 then
    { s with
      consecutiveRecv := s.consecutiveRecv + 1
      lossSeq := if isLast then s.lossSeq ++ [s.consecutiveRecv + 1] else s.lossSeq }
  else
    { s with
      lossSeq := s.lossSeq ++ [s.consecutiveRecv, (1 - s.gap id).toInt32.toInt]
      consecutiveRecv := 1
      lossesInWnd := s.lossesInWnd + (id - s.prevId - 1) }

/-- A packet behind the cursor is fed back no more. -/
def sample (s : FeedbackScan) (p : RecordedPkt) : FeedbackScan :=
  if lessThanSimple s.lastFeedback p.pktId then
    { s with recvSample := s.recvSample ++ [p], lastFeedback := p.pktId }
  else s

def visit (s : FeedbackScan) (p : RecordedPkt) (isLast : Bool) : FeedbackScan :=
  { (s.countLosses p.pktId.toUInt32 isLast).sample p with prevId := p.pktId.toUInt32 }

/-- The loop after the first record; `none` is the failed assertion that the history is ordered. -/
def scanRest (s : FeedbackScan) : List RecordedPkt → Option FeedbackScan
  | [] => some s
  | p :: rest =>
    if lessThanSimple s.prevId.toUInt16 p.pktId then scanRest (s.visit p rest.isEmpty) rest
    else none

def scan (lastFeedback : UInt16) : List RecordedPkt → Option FeedbackScan
  | [] => some (start 0 lastFeedback)
  | p :: rest =>
    scanRest ((start (p.pktId.toUInt32 - 1) lastFeedback).visit p rest.isEmpty) rest

end FeedbackScan

namespace NetRecord

/-- The ids spanned by the record, zero for less than two records. -/
def countPkts (record : List RecordedPkt) : UInt16 :=
  match record with
  | [] | [_] => 0
  | front :: q :: rest =>
    let recordEnd := (q :: rest).getLast (List.cons_ne_nil q rest)
    ((recordEnd.pktId.toUInt32 - front.pktId.toUInt32 + 65537) % 65536).toUInt16

/-- A rational truncated to 32 bits. -/
def toUInt32 (q : ℚ) : UInt32 := UInt32.ofNat ⌊q⌋.toNat

/-- `Feedback_NetState`: the message and the record afterwards. -/
def feedbackNetState (r : NetRecord) (oneWayDispersion : Time) :
    Option (NetStates × NetRecord) := do
  let pktsInWnd := countPkts r.record
  let throughputKbps : ℚ := r.bytesInWnd.toNat / r.timeWndSize.toNat * 8 * 1000
  let scan ← FeedbackScan.scan r.lastFeedback r.record
  let lossRate : ℚ :=
    if 1 ≤ pktsInWnd then scan.lossesInWnd.toNat / pktsInWnd.toNat else r.lossRate
  let netstate : NetStates :=
    { lossRate := lossRate
      throughputKbps := toUInt32 throughputKbps
      fecGroupDelayUs := UInt16.ofNat (getMicroSeconds oneWayDispersion % 65536).toNat
      lossSeq := scan.lossSeq
      recvtimeHist := scan.recvSample.map RecordedPkt.toRcvTime }
  some (netstate,
    { r with
      lastFeedback := scan.lastFeedback
      pktsInWnd := pktsInWnd
      lossesInWnd := scan.lossesInWnd
      lossRate := lossRate
      throughputKbps := throughputKbps
      lossSeq := scan.lossSeq
      recvSample := scan.recvSample })

/-- A feedback leaves the record as it is. -/
theorem feedbackNetState_frame {r r' : NetRecord} {delay : Time} {netstate : NetStates}
    (hFeedback : r.feedbackNetState delay = some (netstate, r')) :
    r'.record = r.record ∧ r'.timeWndSize = r.timeWndSize ∧ r'.bytesInWnd = r.bytesInWnd := by
  obtain ⟨scan, -, hResult⟩ := Option.bind_eq_some_iff.mp hFeedback
  cases hResult
  exact ⟨rfl, rfl, rfl⟩

end NetRecord

/-! ## Runs -/

/-- A received packet and its time in nanoseconds. -/
structure Arrival where
  pkt : VideoDatagram
  time : ℕ
deriving DecidableEq, Repr

namespace Arrival

/-- The time in microseconds, not yet in 32 bits. -/
def rtUs (a : Arrival) : ℕ := a.time / 1000

def recorded (a : Arrival) : RecordedPkt :=
  ⟨a.pkt.globalId, UInt32.ofNat a.rtUs, a.pkt.size⟩

end Arrival

/-- The record with the clock, the packets received so far and the lists fed back, oldest first. -/
structure NetReceiver where
  net : NetRecord
  now : ℕ
  log : List Arrival
  fedBack : List (List RcvTime)
deriving DecidableEq, Repr

namespace NetReceiver

def create (wndsize : UInt32) : NetReceiver where
  net := .create wndsize
  now := 0
  log := []
  fedBack := []

inductive Event where
  | recv (delay : ℕ) (pkt : VideoDatagram)
  | feedback (delay : ℕ) (oneWayDispersion : Time)
deriving DecidableEq, Repr

/-- A packet that arrives after some delay. -/
def arrivalOf (s : NetReceiver) (delay : ℕ) (pkt : VideoDatagram) : Arrival := ⟨pkt, s.now + delay⟩

def recv (skips : SkipsNext) (s : NetReceiver) (a : Arrival) : NetReceiver where
  net := s.net.onSocketRecv skips (UInt32.ofNat a.rtUs) a.pkt
  now := a.time
  log := s.log ++ [a]
  fedBack := s.fedBack

def step (skips : SkipsNext) (s : NetReceiver) : Event → Option NetReceiver
  | .recv delay pkt => some (s.recv skips (s.arrivalOf delay pkt))
  | .feedback delay oneWayDispersion => do
    let (netstate, net) ← s.net.feedbackNetState oneWayDispersion
    some { s with
      net := net
      now := s.now + delay
      fedBack := s.fedBack ++ [netstate.recvtimeHist] }

end NetReceiver

end Bullet.Stream
