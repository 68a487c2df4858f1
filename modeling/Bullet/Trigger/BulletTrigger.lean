import Mathlib.Algebra.Order.Field.Rat
import Bullet.Lib.OrderedMap
import Bullet.Lib.PartialRun
import Bullet.Lib.RecentHistory
import Bullet.Mac.ShortBsr

/-! # The BULLET trigger

The trigger of one user: the history queues that it fills in every slot, the detection of arrivals
at a BSR, and the confident demand. `none` is an access outside of a queue. The estimation of the
proactive demand and the slot counter are floating-point computations; their results come with the
slot.
-/

namespace Bullet.Trigger

open Lib Lib.RecentHistory Mac

structure TriggerInput where
  sr : Bool := false
  bsr : UInt8 := 0
  getBsr : Bool := false
  alloc : Int := 0
  ack : Int := 0
deriving DecidableEq, Repr

/-- What the traces of one slot show. -/
structure SlotTrace extends TriggerInput where
  arrival : Int
deriving DecidableEq, Repr

structure DetectionOutput where
  arrival : Int
  arrivalSlot : ℕ
deriving DecidableEq, Repr

/-- `trace` records what `TriggerTracing` emits, oldest slot first. -/
structure BulletTrigger where
  tInput : TriggerInput := {}
  timeQueue : List Int := []
  srQueue : List Bool := []
  bsrQueue : List UInt8 := []
  getBsrQueue : List Bool := []
  allocQueue : List Int := []
  ackQueue : List Int := []
  srSlot : Int
  bsrSlot : Int
  allocSlot : Int
  ackSlot : Int
  proactiveBsr : ℕ := 0
  slotDemandMap : OrderedMap Int Int := .empty
  slotErrorMap : OrderedMap Int Int := .empty
  recentGranted : Int
  confidentBsr : Int
  trace : List SlotTrace := []

/-- `(int)(m_zScore * standardDeviation)`, as a function of the variance. -/
structure ZScore where
  penalty : ℚ → Int
  penalty_zero : penalty 0 = 0

def queueSize : ℕ := 1000

def initialInput : ℕ := 50

def maxSample : ℕ := 300

namespace BulletTrigger

/-- `InputParameterTracer`; `recentGranted` and `confidentBsr` are what lay in the members that no
initialiser sets. -/
def inputParameterTracer (srSlot bsrSlot allocSlot ackSlot recentGranted confidentBsr : Int) :
    BulletTrigger where
  srSlot := srSlot
  bsrSlot := bsrSlot
  allocSlot := allocSlot
  ackSlot := ackSlot
  srQueue := .replicate initialInput false
  bsrQueue := .replicate initialInput 0
  getBsrQueue := .replicate initialInput false
  timeQueue := .replicate initialInput 0
  allocQueue := .replicate initialInput 0
  ackQueue := .replicate initialInput 0
  recentGranted := recentGranted
  confidentBsr := confidentBsr

def inputVariableTracer (s : BulletTrigger) (currentTime : Int) (input : TriggerInput) :
    BulletTrigger :=
  let s := { s with
    timeQueue := s.timeQueue ++ [currentTime]
    srQueue := s.srQueue ++ [input.sr]
    bsrQueue := s.bsrQueue ++ [input.bsr]
    getBsrQueue := s.getBsrQueue ++ [input.getBsr]
    allocQueue := s.allocQueue ++ [input.alloc]
    ackQueue := s.ackQueue ++ [input.ack] }
  if queueSize < s.timeQueue.length then
    { s with
      timeQueue := s.timeQueue.drop 1
      srQueue := s.srQueue.drop 1
      bsrQueue := s.bsrQueue.drop 1
      getBsrQueue := s.getBsrQueue.drop 1
      allocQueue := s.allocQueue.drop 1
      ackQueue := s.ackQueue.drop 1 }
  else s

/-- The test of the look-back at position `i` from the end: a BSR there, or an SR whose report would
be due there. -/
def reportedAt (s : BulletTrigger) (currQueueSize : Int) (i : ℕ) : Option Bool := do
  let getBsr ← readAt s.getBsrQueue (currQueueSize - i)
  if getBsr then some true
  else readAt s.srQueue (currQueueSize - i - s.bsrSlot + s.srSlot)

/-- The look-back for the last report; 1 if there is none. -/
def lastBsrIndex (s : BulletTrigger) : Option ℕ := do
  let queueRange := min 100 s.getBsrQueue.length
  let hit ← firstHit (s.reportedAt s.getBsrQueue.length) (List.range' 2 (queueRange - 2))
  some (hit.getD 1)

/-- The grant at position `i` from the end, with the time that is logged for it. -/
def allocAt (s : BulletTrigger) (currQueueSize : Int) (i : ℕ) : Option Int := do
  let _ ← readAt s.timeQueue (currQueueSize - i - 1)
  readAt s.allocQueue (currQueueSize - i - 1)

/-- `DetectArrival`, with the new `m_recentGranted`. The time of the first grant is read for the
log. -/
def detectArrival (s : BulletTrigger) : Option (DetectionOutput × Int) := do
  let sr ← s.srQueue.getLast?
  let getBsr ← s.getBsrQueue.getLast?
  let arrival := if sr then 50 else 0
  if getBsr = false then some (⟨arrival, 0⟩, s.recentGranted)
  else do
    let currQueueSize : Int := s.getBsrQueue.length
    let last ← s.lastBsrIndex
    let allocs ← (List.range (last - 1)).mapM (s.allocAt currQueueSize)
    let currBsr ← readAt s.bsrQueue (currQueueSize - 1)
    let lastBsr ← readAt s.bsrQueue (currQueueSize - last)
    let _ ← readAt s.timeQueue (currQueueSize - last - s.bsrSlot - s.allocSlot)
    let maxArrival : Int := fromLevelToBytes currBsr - fromLevelToBytes lastBsr + allocs.sum
    some (⟨arrival + maxArrival, last⟩, allocs.sum)

end BulletTrigger

structure SampleStats where
  mean : ℚ
  variance : ℚ
deriving DecidableEq, Repr

/-- The mean and the squared standard deviation of the samples, when there are more than ten. -/
def sampleStats (values : List Int) : SampleStats :=
  if 10 < values.length then
    let mean : ℚ := (values.sum : ℚ) / values.length
    { mean := mean
      variance := (values.map fun value : Int => ((value : ℚ) - mean) ^ 2).sum / values.length }
  else { mean := 0, variance := 0 }

/-- `(int)mean`. -/
def truncate (q : ℚ) : Int := q.num.tdiv q.den

namespace BulletTrigger

/-- The samples that the statistics are taken from. -/
def values (s : BulletTrigger) : List Int := s.slotDemandMap.values.take maxSample

def identifiedDemand (s : BulletTrigger) : Int := fromLevelToBytes s.tInput.bsr

/-- The slot that the reports of the current slot are about, if there are any. -/
def reportedSlot (s : BulletTrigger) (currentSlot : Int) : Option Int :=
  if s.tInput.sr then some (currentSlot - s.srSlot)
  else if s.tInput.getBsr then some (currentSlot - s.bsrSlot)
  else none

def recordDemand (s : BulletTrigger) (currentSlot : Int) : BulletTrigger :=
  { s with
    slotDemandMap := s.slotDemandMap.set currentSlot (s.proactiveBsr + s.identifiedDemand) }

/-- The error of the demand estimated for the reported slot. -/
def recordError (s : BulletTrigger) (reportedSlot demand : Int) : BulletTrigger :=
  { s with
    slotErrorMap := s.slotErrorMap.set reportedSlot
      (demand - max (s.identifiedDemand + s.recentGranted) 0) }

def setConfidentBsr (z : ZScore) (s : BulletTrigger) (stats : SampleStats) : BulletTrigger :=
  { s with
    confidentBsr := max
      (s.proactiveBsr + s.identifiedDemand - truncate stats.mean - z.penalty stats.variance)
      s.identifiedDemand }

/-- The state in which the statistics are taken, if the current slot takes them. -/
def updateError (s : BulletTrigger) (currentSlot : Int) : Option BulletTrigger := do
  let reportedSlot ← s.reportedSlot currentSlot
  let demand ← s.slotDemandMap.find reportedSlot
  some (s.recordError reportedSlot demand)

/-- The last part of `Processor`. -/
def updateDemand (z : ZScore) (s : BulletTrigger) (currentSlot : Int) : BulletTrigger :=
  let s := s.recordDemand currentSlot
  match s.updateError currentSlot with
  | none => s
  | some s => s.setConfidentBsr z (sampleStats s.values)

def resetInput (s : BulletTrigger) : BulletTrigger :=
  { s with tInput := { bsr := s.tInput.bsr } }

/-- The first part of `Processor`, up to the traces. -/
def detect (s : BulletTrigger) (currentSlot : Int) (proactiveBsr : ℕ) : Option BulletTrigger := do
  let s := s.inputVariableTracer currentSlot s.tInput
  let (dOut, recentGranted) ← s.detectArrival
  some { s with
    recentGranted := recentGranted
    proactiveBsr := proactiveBsr
    trace := s.trace ++ [{ s.tInput with arrival := dOut.arrival }] }

def processor (z : ZScore) (s : BulletTrigger) (currentSlot : Int) (proactiveBsr : ℕ) :
    Option BulletTrigger := do
  let s ← s.detect currentSlot proactiveBsr
  some (s.updateDemand z currentSlot).resetInput

/-- What the scheduler and the traces deliver, and the periodic slot updates. -/
inductive Event where
  | bsr (level : UInt8)
  | sr
  | grant (size : UInt32)
  | ack (number : UInt32)
  | slot (currentSlot : Int) (proactiveBsr : ℕ)
deriving DecidableEq, Repr

def step (z : ZScore) (s : BulletTrigger) : Event → Option BulletTrigger
  | .bsr level => some { s with tInput := { s.tInput with bsr := level, getBsr := true } }
  | .sr => some { s with tInput := { s.tInput with sr := true } }
  | .grant size => some { s with tInput := { s.tInput with alloc := s.tInput.alloc + size.toNat } }
  | .ack number => some { s with tInput := { s.tInput with ack := number.toNat } }
  | .slot currentSlot proactiveBsr => s.processor z currentSlot proactiveBsr

/-- The trigger of a user as the scheduler creates it. The constructor runs the first slot update. -/
def create (z : ZScore) (recentGranted confidentBsr currentSlot : Int) (proactiveBsr : ℕ) :
    Option BulletTrigger :=
  (inputParameterTracer 4 8 3 5 recentGranted confidentBsr).processor z currentSlot proactiveBsr

end BulletTrigger
end Bullet.Trigger
