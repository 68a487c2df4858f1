import Bullet.Lib.PartialRun
import Bullet.Stream.Packet

/-! # The bursts of the feedback

For the congestion controller the sender groups the packets of the feedback into bursts by their
departure times. When a burst ends, the controller is given the differences of its mean times and of
its size to those of the burst before.
-/

namespace Bullet.Stream

open Lib

/-- A packet of a feedback, with what the controller answers for its id. -/
structure FedBackPkt where
  nowUs : UInt64
  id : UInt16
  rtUs : UInt32
  txTime : UInt64
  size : UInt64
deriving DecidableEq, Repr

/-- A call of `processFeedback`. -/
structure BurstFeedback where
  nowUs : UInt64
  id : UInt16
  rxTime : UInt64
  interArrival : Int64
  interDeparture : UInt64
  interDelayVar : Int64
  interGroupSize : Int32
  arrivalTime : Int64
deriving DecidableEq

def lessThan64 (id1 id2 : UInt64) : Bool := decide (id2 - id1 < id1 - id2)

/-- `feedbacks` and `pruned` record the calls to the controller; `bursts` and `current` the packets of
the bursts, the first one included. -/
structure BurstGrouping where
  groupId : UInt32
  groupSize : Int32
  groupstartTxTime : UInt64
  prevId : UInt16
  prevRxTime : UInt64
  prevGroupendId : UInt16
  prevGroupendRxTime : UInt64
  prevGroupSize : Int32
  prevPktsInFrame : UInt16
  currPktsInFrame : UInt16
  prevFrameTxTime : UInt64
  currFrameTxTime : UInt64
  prevFrameRxTime : UInt64
  currFrameRxTime : UInt64
  interval : UInt16
  firstFeedback : Bool
  feedbacks : List BurstFeedback
  pruned : List UInt16
  bursts : List (List FedBackPkt)
  current : List FedBackPkt
deriving DecidableEq

namespace BurstGrouping

def create (interval : UInt16) : BurstGrouping where
  groupId := 0
  groupSize := 0
  groupstartTxTime := 0
  prevId := 0
  prevRxTime := 0
  prevGroupendId := 0
  prevGroupendRxTime := 0
  prevGroupSize := 0
  prevPktsInFrame := 0
  currPktsInFrame := 0
  prevFrameTxTime := 0
  currFrameTxTime := 0
  prevFrameRxTime := 0
  currFrameRxTime := 0
  interval := interval
  firstFeedback := true
  feedbacks := []
  pruned := []
  bursts := []
  current := []

/-- The branch of the very first packet. -/
def first (s : BurstGrouping) (p : FedBackPkt) : BurstGrouping :=
  { s with
    prevId := p.id
    prevRxTime := p.rtUs.toUInt64
    groupId := 0
    groupSize := Int32.ofNat p.size.toNat
    groupstartTxTime := p.txTime
    firstFeedback := false
    currPktsInFrame := 1
    current := [p] }

/-- The packet departed with the group or within the longest pause after its start. -/
def accepts (s : BurstGrouping) (p : FedBackPkt) : Bool :=
  lessThan64 s.groupstartTxTime p.txTime &&
      decide (p.txTime - s.groupstartTxTime ≤ UInt64.ofNat (20 * s.interval.toNat * 1000)) ||
    decide (s.groupstartTxTime = p.txTime)

def switches (s : BurstGrouping) (p : FedBackPkt) : Bool :=
  decide (10000 < p.txTime - s.groupstartTxTime)

/-- The differences between the present burst and the one before it. -/
def burstFeedback (s : BurstGrouping) (p : FedBackPkt) : BurstFeedback :=
  let curr := s.currPktsInFrame.toUInt64
  let prev := s.prevPktsInFrame.toUInt64
  let interArrival := (s.currFrameRxTime / curr - s.prevFrameRxTime / prev).toInt64
  let interDeparture := s.currFrameTxTime / curr - s.prevFrameTxTime / prev
  { nowUs := p.nowUs
    id := p.id
    rxTime := p.rtUs.toUInt64
    interArrival := interArrival
    interDeparture := interDeparture
    interDelayVar := (interArrival.toUInt64 - interDeparture).toInt64
    interGroupSize := s.groupSize - s.prevGroupSize
    arrivalTime := s.prevRxTime.toInt64 }

/-- The call of the controller; `none` is the failed assertion or a division by zero. -/
def report (s : BurstGrouping) (p : FedBackPkt) : Option BurstGrouping :=
  if 0 < s.groupId then
    if s.prevPktsInFrame = 0 ∨ s.currPktsInFrame = 0 then none
    else some { s with feedbacks := s.feedbacks ++ [s.burstFeedback p] }
  else some s

def newBurst (s : BurstGrouping) (p : FedBackPkt) : BurstGrouping :=
  { s with
    pruned := s.pruned ++ [s.prevGroupendId]
    prevGroupSize := s.groupSize
    prevGroupendId := s.prevId
    prevGroupendRxTime := s.prevRxTime
    groupId := s.groupId + 1
    groupSize := 0
    groupstartTxTime := p.txTime
    prevFrameTxTime := s.currFrameTxTime
    prevFrameRxTime := s.currFrameRxTime
    prevPktsInFrame := s.currPktsInFrame
    currFrameTxTime := 0
    currFrameRxTime := 0
    currPktsInFrame := 0
    bursts := s.bursts ++ [s.current]
    current := [] }

def addPkt (s : BurstGrouping) (p : FedBackPkt) : BurstGrouping :=
  { s with
    currPktsInFrame := s.currPktsInFrame + 1
    currFrameTxTime := s.currFrameTxTime + p.txTime
    currFrameRxTime := s.currFrameRxTime + p.rtUs.toUInt64
    groupSize := Int32.ofInt (s.groupSize.toInt + p.size.toNat)
    prevId := p.id
    prevRxTime := p.rtUs.toUInt64
    current := s.current ++ [p] }

/-- One turn of the loop over `recvtime_hist` in `OnSocketRecv_sender`. -/
def step (s : BurstGrouping) (p : FedBackPkt) : Option BurstGrouping :=
  if s.firstFeedback then some (s.first p)
  else if s.accepts p then
    if s.switches p then (s.report p).map fun reported => (reported.newBurst p).addPkt p
    else some (s.addPkt p)
  else some s

end BurstGrouping

end Bullet.Stream
