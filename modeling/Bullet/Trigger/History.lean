import Bullet.Trigger.BulletTrigger

/-! # The history behind the queues

The queues of the trigger are the recent part of one history: a record for each slot update, newest
first, after the blank records that the constructor pushes.
-/

namespace Bullet.Trigger

open Lib Lib.RecentHistory Lib.PartialRun

structure SlotRecord extends TriggerInput where
  time : Int := 0
deriving DecidableEq, Repr

/-- The slots so far and the initial blanks behind them. -/
def withBlanks (past : List SlotRecord) : List SlotRecord :=
  past ++ .replicate initialInput {}

variable {z : ZScore} {s s' : BulletTrigger} {past : List SlotRecord} {cur r : SlotRecord}

theorem withBlanks_cons : withBlanks (r :: past) = r :: withBlanks past := rfl

theorem length_withBlanks (past : List SlotRecord) : (withBlanks past).length = past.length + 50 := by
  rw [withBlanks, List.length_append, List.length_replicate]
  rfl

/-- A record that is not blank is one of the slots. -/
theorem lt_of_withBlanks {i : ℕ} (h : (withBlanks past)[i]? = some r) (hNe : r ≠ {}) :
    i < past.length := by
  by_contra hGe
  rw [withBlanks, List.getElem?_append_right (by omega)] at h
  exact hNe (List.eq_of_mem_replicate (List.mem_of_getElem? h))

theorem getElem?_withBlanks {i : ℕ} (h : i < past.length) : (withBlanks past)[i]? = past[i]? :=
  List.getElem?_append_left h

namespace BulletTrigger

/-- The queues of `s` hold the recent part of the history, and the delays are those that the
scheduler passes. -/
structure Holds (s : BulletTrigger) (past : List SlotRecord) : Prop where
  time : s.timeQueue = recent queueSize ((withBlanks past).map (·.time))
  sr : s.srQueue = recent queueSize ((withBlanks past).map (·.sr))
  bsr : s.bsrQueue = recent queueSize ((withBlanks past).map (·.bsr))
  getBsr : s.getBsrQueue = recent queueSize ((withBlanks past).map (·.getBsr))
  alloc : s.allocQueue = recent queueSize ((withBlanks past).map (·.alloc))
  ack : s.ackQueue = recent queueSize ((withBlanks past).map (·.ack))
  srSlot : s.srSlot = 4
  bsrSlot : s.bsrSlot = 8
  allocSlot : s.allocSlot = 3

theorem inputParameterTracer_holds (ackSlot recentGranted confidentBsr : Int) :
    (inputParameterTracer 4 8 3 ackSlot recentGranted confidentBsr).Holds [] := by
  constructor <;> rfl

/-- The two states have the same queues and the same delays. -/
structure SameQueues (s s' : BulletTrigger) : Prop where
  time : s'.timeQueue = s.timeQueue
  sr : s'.srQueue = s.srQueue
  bsr : s'.bsrQueue = s.bsrQueue
  getBsr : s'.getBsrQueue = s.getBsrQueue
  alloc : s'.allocQueue = s.allocQueue
  ack : s'.ackQueue = s.ackQueue
  srSlot : s'.srSlot = s.srSlot
  bsrSlot : s'.bsrSlot = s.bsrSlot
  allocSlot : s'.allocSlot = s.allocSlot

theorem Holds.same (h : s.Holds past) (hSame : SameQueues s s') : s'.Holds past where
  time := hSame.time.trans h.time
  sr := hSame.sr.trans h.sr
  bsr := hSame.bsr.trans h.bsr
  getBsr := hSame.getBsr.trans h.getBsr
  alloc := hSame.alloc.trans h.alloc
  ack := hSame.ack.trans h.ack
  srSlot := hSame.srSlot.trans h.srSlot
  bsrSlot := hSame.bsrSlot.trans h.bsrSlot
  allocSlot := hSame.allocSlot.trans h.allocSlot

theorem recent_map_cons {α : Type*} (f : SlotRecord → α) :
    recent queueSize ((withBlanks (r :: past)).map f) =
      if queueSize < (recent queueSize ((withBlanks past).map (·.time)) ++ [r.time]).length then
        (recent queueSize ((withBlanks past).map f) ++ [f r]).drop 1
      else recent queueSize ((withBlanks past).map f) ++ [f r] := by
  rw [withBlanks_cons, List.map_cons, recent_push]
  simp only [List.length_append, length_recent, List.length_map, List.length_singleton]

theorem Holds.push (h : s.Holds past) (currentTime : Int) (input : TriggerInput) :
    (s.inputVariableTracer currentTime input).Holds (⟨input, currentTime⟩ :: past) := by
  rw [inputVariableTracer]
  dsimp only
  split
  · next hFull =>
    rw [h.time] at hFull
    constructor
    · rw [recent_map_cons, if_pos hFull, h.time]
    · rw [recent_map_cons, if_pos hFull, h.sr]
    · rw [recent_map_cons, if_pos hFull, h.bsr]
    · rw [recent_map_cons, if_pos hFull, h.getBsr]
    · rw [recent_map_cons, if_pos hFull, h.alloc]
    · rw [recent_map_cons, if_pos hFull, h.ack]
    · exact h.srSlot
    · exact h.bsrSlot
    · exact h.allocSlot
  · next hRoom =>
    rw [h.time] at hRoom
    constructor
    · rw [recent_map_cons, if_neg hRoom, h.time]
    · rw [recent_map_cons, if_neg hRoom, h.sr]
    · rw [recent_map_cons, if_neg hRoom, h.bsr]
    · rw [recent_map_cons, if_neg hRoom, h.getBsr]
    · rw [recent_map_cons, if_neg hRoom, h.alloc]
    · rw [recent_map_cons, if_neg hRoom, h.ack]
    · exact h.srSlot
    · exact h.bsrSlot
    · exact h.allocSlot

/-- The queues have the same length. -/
structure EqualLengths (s : BulletTrigger) : Prop where
  sr : s.srQueue.length = s.timeQueue.length
  bsr : s.bsrQueue.length = s.timeQueue.length
  getBsr : s.getBsrQueue.length = s.timeQueue.length
  alloc : s.allocQueue.length = s.timeQueue.length
  ack : s.ackQueue.length = s.timeQueue.length

theorem Holds.equalLengths (h : s.Holds past) : s.EqualLengths := by
  constructor <;> simp [h.time, h.sr, h.bsr, h.getBsr, h.alloc, h.ack]

theorem Holds.length (h : s.Holds past) :
    s.getBsrQueue.length = min queueSize (past.length + 50) := by
  rw [h.getBsr, length_recent, List.length_map, length_withBlanks]

/-- Reading position `j` from the end of a queue. -/
theorem Holds.readAt (h : s.Holds past) {α : Type*} (f : SlotRecord → α) {j : ℕ} (hPos : 1 ≤ j)
    (hSize : j ≤ queueSize) :
    RecentHistory.readAt (recent queueSize ((withBlanks past).map f))
      (s.getBsrQueue.length - (j : ℤ)) = ((withBlanks past)[j - 1]?).map f := by
  have hLength : s.getBsrQueue.length =
      (recent queueSize ((withBlanks past).map f)).length := by
    rw [h.length, length_recent, List.length_map, length_withBlanks]
  rw [hLength, readAt_recent (by omega), if_pos (by omega), List.getElem?_map]
  congr 2
  omega

end BulletTrigger
end Bullet.Trigger
