import Bullet.Mac.Dci

/-! # Logical channels

A transport block is split evenly between the logical channels that have something to send, and
each channel accounts for the bytes it is given.
-/

namespace Bullet.Mac

structure NrMacSchedulerLC where
  id : UInt8
  rlcTransmissionQueueSize : UInt32 := 0
  rlcRetransmissionQueueSize : UInt32 := 0
  rlcStatusPduSize : UInt32 := 0
  proactiveQueueSize : UInt32 := 0
deriving DecidableEq, Repr

/-- The channels of a group, in the order in which the map is walked. -/
structure NrMacSchedulerLCG where
  id : UInt8
  lcMap : List NrMacSchedulerLC := []
deriving DecidableEq, Repr

structure Assignation where
  lcg : UInt8
  lcId : UInt8
  bytes : UInt32
deriving DecidableEq, Repr

namespace NrMacSchedulerLC

def totalSize (lc : NrMacSchedulerLC) : UInt32 :=
  lc.rlcTransmissionQueueSize + lc.rlcRetransmissionQueueSize + lc.rlcStatusPduSize +
    lc.proactiveQueueSize

/-- The queues of the channel after it is given `size` bytes: first the status PDU, then the
retransmissions, then new data. -/
def assignedData (format : DciFormat) (size : UInt32) (lc : NrMacSchedulerLC) :
    NrMacSchedulerLC :=
  if 0 < lc.rlcStatusPduSize ∧ lc.rlcStatusPduSize ≤ size then { lc with rlcStatusPduSize := 0 }
  else if 0 < lc.rlcRetransmissionQueueSize ∧ lc.rlcRetransmissionQueueSize ≤ size then
    { lc with rlcRetransmissionQueueSize := 0 }
  else if 0 < lc.rlcTransmissionQueueSize then
    let rlcOverhead := if lc.id = 1 ∧ format = .dl then 4 else 2
    let queue :=
      if lc.rlcTransmissionQueueSize ≤ size - rlcOverhead then 50
      else lc.rlcTransmissionQueueSize - (size - rlcOverhead)
    let queue := if format = .ul ∧ 0 < queue ∧ queue < 12 then 12 else queue
    let queue := if format = .dl ∧ 0 < queue ∧ queue < 10 then 10 else queue
    { lc with rlcTransmissionQueueSize := queue }
  else lc

end NrMacSchedulerLC

/-- `ueLCG.at (lcg)->AssignedData (lcId, size, type)`. -/
def assignedData (format : DciFormat) (ueLCG : List NrMacSchedulerLCG) (lcg lcId : UInt8)
    (size : UInt32) : List NrMacSchedulerLCG :=
  ueLCG.map fun g =>
    if g.id = lcg then
      { g with lcMap := g.lcMap.map fun lc => if lc.id = lcId then lc.assignedData format size else lc }
    else g

/-- The same amount for each channel with something to send. -/
def assignBytesToLC (ueLCG : List NrMacSchedulerLCG) (tbs : UInt32) : List Assignation :=
  let active := ueLCG.flatMap fun g =>
    (g.lcMap.filter fun lc => 0 < lc.totalSize).map fun lc => (g.id, lc.id)
  let amountPerLC := tbs / UInt32.ofNat active.length
  active.map fun lc => ⟨lc.1, lc.2, amountPerLC⟩

end Bullet.Mac
