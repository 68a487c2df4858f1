import Bullet.Trigger.DemandBound

/-! # Slot updates with their demand

The whole of `Processor`: the arrivals that the trigger detects drive the estimation, and its result
enters the confident demand. Each part runs as it does on its own.
-/

namespace Bullet.Trigger

open Lib.PartialRun

structure TriggerState where
  trigger : BulletTrigger
  demand : ProactiveDemand

def getCurrentSlot (time : ℚ) : ℤ := truncate (time / slotUnit)

namespace TriggerState

def processor (z : ZScore) (d : Distributions) (s : TriggerState) : Option TriggerState := do
  let currentSlot := getCurrentSlot s.demand.now
  let (dOut, _) ← (s.trigger.inputVariableTracer currentSlot s.trigger.tInput).detectArrival
  let demand ← s.demand.slot d ⟨dOut.arrival, s.trigger.tInput.getBsr⟩
  let trigger ← s.trigger.processor z currentSlot demand.proactiveBsr.toNat
  some ⟨trigger, demand⟩

/-- A slot update finds its number and its demand in the state. -/
def step (z : ZScore) (d : Distributions) (s : TriggerState) : BulletTrigger.Event →
    Option TriggerState
  | .slot _ _ => s.processor z d
  | event => (s.trigger.step z event).map fun trigger => { s with trigger := trigger }

variable {z : ZScore} {d : Distributions} {s t : TriggerState} {events : List BulletTrigger.Event}

/-- A slot update is one of the estimation and one of the trigger. -/
theorem processor_cases (h : s.processor z d = some t) :
    (∃ i, s.demand.slot d i = some t.demand) ∧
      s.trigger.processor z (getCurrentSlot s.demand.now) t.demand.proactiveBsr.toNat =
        some t.trigger := by
  obtain ⟨⟨dOut, granted⟩, -, h⟩ := Option.bind_eq_some_iff.mp h
  obtain ⟨demand, hDemand, h⟩ := Option.bind_eq_some_iff.mp h
  obtain ⟨trigger, hTrigger, h⟩ := Option.bind_eq_some_iff.mp h
  cases h
  exact ⟨⟨_, hDemand⟩, hTrigger⟩

theorem step_refines {event : BulletTrigger.Event} (h : s.step z d event = some t) :
    ∃ inputs event', run (ProactiveDemand.slot d) s.demand inputs = some t.demand ∧
      s.trigger.step z event' = some t.trigger := by
  cases event with
  | slot currentSlot proactiveBsr =>
    obtain ⟨⟨i, hDemand⟩, hTrigger⟩ := processor_cases h
    refine ⟨[i], .slot (getCurrentSlot s.demand.now) t.demand.proactiveBsr.toNat, ?_, hTrigger⟩
    rw [run_cons, hDemand]
    rfl
  | bsr level => cases h; exact ⟨[], .bsr level, rfl, rfl⟩
  | sr => cases h; exact ⟨[], .sr, rfl, rfl⟩
  | grant size => cases h; exact ⟨[], .grant size, rfl, rfl⟩
  | ack number => cases h; exact ⟨[], .ack number, rfl, rfl⟩

/-- A run of the whole is a run of the estimation and a run of the trigger. -/
theorem run_refines (h : run (step z d) s events = some t) :
    ∃ inputs events', run (ProactiveDemand.slot d) s.demand inputs = some t.demand ∧
      run (BulletTrigger.step z) s.trigger events' = some t.trigger := by
  induction events generalizing s with
  | nil =>
    cases h
    exact ⟨[], [], rfl, rfl⟩
  | cons event events ih =>
    obtain ⟨u, hStep, hRest⟩ := Option.bind_eq_some_iff.mp h
    obtain ⟨first, event', hDemand, hTrigger⟩ := step_refines hStep
    obtain ⟨inputs, events', hDemands, hTriggers⟩ := ih hRest
    refine ⟨first ++ inputs, event' :: events', ?_, ?_⟩
    · rw [run_append, hDemand]
      exact hDemands
    · rw [run_cons, hTrigger]
      exact hTriggers

/-- The trigger plans with the estimated demand. -/
structure Linked (s : TriggerState) : Prop where
  proactiveBsr : (s.trigger.proactiveBsr : ℤ) = s.demand.proactiveBsr
  sane : s.demand.Sane

theorem processor_proactiveBsr {b b' : BulletTrigger} {currentSlot : ℤ} {proactiveBsr : ℕ}
    (h : b.processor z currentSlot proactiveBsr = some b') : b'.proactiveBsr = proactiveBsr := by
  obtain ⟨u, hDetect, h⟩ := Option.bind_eq_some_iff.mp h
  obtain ⟨out, -, hDetect⟩ := Option.bind_eq_some_iff.mp hDetect
  cases hDetect
  cases h
  unfold BulletTrigger.updateDemand BulletTrigger.updateError
  dsimp only
  split
  · rfl
  · next v hUpdate =>
    obtain ⟨slot, -, hUpdate⟩ := Option.bind_eq_some_iff.mp hUpdate
    obtain ⟨demand, -, hUpdate⟩ := Option.bind_eq_some_iff.mp hUpdate
    cases hUpdate
    rfl

theorem step_linked {event : BulletTrigger.Event} (hLinked : s.Linked)
    (h : s.step z d event = some t) : t.Linked := by
  cases event with
  | slot currentSlot proactiveBsr =>
    obtain ⟨⟨i, hDemand⟩, hTrigger⟩ := processor_cases h
    have hSane := ProactiveDemand.slot_sane hLinked.sane hDemand
    refine ⟨?_, hSane⟩
    rw [processor_proactiveBsr hTrigger, Int.toNat_of_nonneg hSane.proactiveBsr]
  | bsr level => cases h; exact ⟨hLinked.proactiveBsr, hLinked.sane⟩
  | sr => cases h; exact ⟨hLinked.proactiveBsr, hLinked.sane⟩
  | grant size => cases h; exact ⟨hLinked.proactiveBsr, hLinked.sane⟩
  | ack number => cases h; exact ⟨hLinked.proactiveBsr, hLinked.sane⟩

/-- Before the first slot update. -/
def init (recentGranted confidentBsr scheduleMode : ℤ) (now : ℚ) : TriggerState where
  trigger := .inputParameterTracer 4 8 3 5 recentGranted confidentBsr
  demand := .init ProactiveDemand.schedulerDelays scheduleMode now

theorem run_linked {recentGranted confidentBsr scheduleMode : ℤ} {now : ℚ}
    (h : run (step z d) (init recentGranted confidentBsr scheduleMode now) events = some t) :
    t.Linked :=
  invariant_of_step (fun _ _ _ hLinked hStep => step_linked hLinked hStep)
    ⟨rfl, ProactiveDemand.init_sane _ scheduleMode now⟩ h

end TriggerState
end Bullet.Trigger
