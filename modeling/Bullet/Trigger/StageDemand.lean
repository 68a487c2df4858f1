import Bullet.Lib.LastOutput
import Bullet.Mac.UlQueues
import Bullet.Trigger.BulletTrigger

/-! # The demand of the two stages

The first stage of the uplink allocation asks for the confident demand, the second for the total of
the user's queues. The trigger and the queues run side by side; the confident demand is that of the
last slot that found an old estimate for its report, and the queues move on without it.
-/

namespace Bullet.Trigger

open Lib Lib.PartialRun Mac

/-- What the confident demand of a slot is computed from. -/
structure Estimate where
  identified : Int
  total : Int
  cut : Int
deriving DecidableEq, Repr

def Estimate.confident (e : Estimate) : Int := max (e.total - e.cut) e.identified

/-- The estimate is between the demand identified now and the total now. -/
structure Estimate.Fits (e : Estimate) (identified total : Int) : Prop where
  identified : identified ≤ e.identified ∨ identified + e.cut ≤ e.total
  floor : e.identified ≤ total
  ceiling : e.total ≤ total + e.cut

instance (e : Estimate) (identified total : Int) : Decidable (e.Fits identified total) :=
  decidable_of_iff ((identified ≤ e.identified ∨ identified + e.cut ≤ e.total) ∧
    e.identified ≤ total ∧ e.total ≤ total + e.cut)
    ⟨fun ⟨h, h', h''⟩ => ⟨h, h', h''⟩, fun ⟨h, h', h''⟩ => ⟨h, h', h''⟩⟩

theorem Estimate.fits_iff {e : Estimate} {identified total : Int} :
    e.Fits identified total ↔ identified ≤ e.confident ∧ e.confident ≤ total := by
  rw [Estimate.confident, le_max_iff, max_le_iff]
  constructor
  · rintro ⟨hIdentified, hFloor, hCeiling⟩
    exact ⟨by omega, by omega, hFloor⟩
  · rintro ⟨hIdentified, hCeiling, hFloor⟩
    exact ⟨by omega, hFloor, by omega⟩

namespace BulletTrigger

variable {z : ZScore} {s s' t : BulletTrigger}

def getConfidentBsr (s : BulletTrigger) : Int := s.confidentBsr

/-- The estimate of the current slot, if it finds an old one. -/
def estimate (z : ZScore) (s : BulletTrigger) (currentSlot : Int) (proactiveBsr : ℕ) :
    Option Estimate := do
  let s ← s.detect currentSlot proactiveBsr
  let s ← (s.recordDemand currentSlot).updateError currentSlot
  let stats := sampleStats s.values
  some {
    identified := s.identifiedDemand
    total := s.proactiveBsr + s.identifiedDemand
    cut := truncate stats.mean + z.penalty stats.variance }

theorem detect_confidentBsr {currentSlot : Int} {proactiveBsr : ℕ}
    (h : s.detect currentSlot proactiveBsr = some t) : t.confidentBsr = s.confidentBsr := by
  obtain ⟨result, -, h⟩ := Option.bind_eq_some_iff.mp h
  cases h
  rw [inputVariableTracer]
  dsimp only
  split <;> rfl

theorem updateDemand_confidentBsr (currentSlot : Int) :
    (s.updateDemand z currentSlot).confidentBsr =
      match (s.recordDemand currentSlot).updateError currentSlot with
      | none => s.confidentBsr
      | some t => max (t.proactiveBsr + t.identifiedDemand -
          (truncate (sampleStats t.values).mean + z.penalty (sampleStats t.values).variance))
          t.identifiedDemand := by
  rw [updateDemand]
  cases (s.recordDemand currentSlot).updateError currentSlot with
  | none => rfl
  | some t =>
    dsimp only [setConfidentBsr]
    rw [sub_sub]

/-- A slot that makes an estimate sets the confident demand, and no other slot does. -/
theorem processor_confidentBsr {currentSlot : Int} {proactiveBsr : ℕ}
    (h : s.processor z currentSlot proactiveBsr = some t) :
    t.confidentBsr =
      ((s.estimate z currentSlot proactiveBsr).map Estimate.confident).getD s.confidentBsr := by
  obtain ⟨d, hDetect, h⟩ := Option.bind_eq_some_iff.mp h
  cases h
  have hValue : ((d.updateDemand z currentSlot).resetInput).confidentBsr =
      (d.updateDemand z currentSlot).confidentBsr := rfl
  rw [hValue, updateDemand_confidentBsr, estimate, hDetect, ← detect_confidentBsr hDetect]
  cases hError : (d.recordDemand currentSlot).updateError currentSlot with
  | none =>
    dsimp only [Option.bind_eq_bind, Option.bind_some]
    rw [hError]
    rfl
  | some u =>
    dsimp only [Option.bind_eq_bind, Option.bind_some]
    rw [hError]
    rfl

/-! ## What lay in the uninitialised members -/

/-- The states differ in no more than what the members that no initialiser sets lead to. -/
def Alike (s s' : BulletTrigger) : Prop :=
  ∃ recentGranted slotErrorMap confidentBsr, s' = { s with
    recentGranted := recentGranted, slotErrorMap := slotErrorMap, confidentBsr := confidentBsr }

theorem Alike.symm (h : Alike s s') : Alike s' s := by
  obtain ⟨g, m, c, rfl⟩ := h
  exact ⟨s.recentGranted, s.slotErrorMap, s.confidentBsr, rfl⟩

theorem Alike.inputVariableTracer (h : Alike s s') (currentTime : Int) (input : TriggerInput) :
    Alike (s.inputVariableTracer currentTime input) (s'.inputVariableTracer currentTime input) := by
  obtain ⟨g, m, c, rfl⟩ := h
  refine ⟨g, m, c, ?_⟩
  rw [BulletTrigger.inputVariableTracer, BulletTrigger.inputVariableTracer]
  dsimp only
  split <;> rfl

theorem Alike.detectArrival (h : Alike s s') {dOut : DetectionOutput} {recentGranted : Int}
    (hDetect : s.detectArrival = some (dOut, recentGranted)) :
    ∃ recentGranted', s'.detectArrival = some (dOut, recentGranted') := by
  obtain ⟨g, m, c, rfl⟩ := h
  obtain ⟨sr, hSr, hDetect⟩ := Option.bind_eq_some_iff.mp hDetect
  obtain ⟨getBsr, hGetBsr, hDetect⟩ := Option.bind_eq_some_iff.mp hDetect
  dsimp only at hDetect
  split at hDetect
  · next hUnreported =>
    cases hDetect
    refine ⟨g, ?_⟩
    rw [BulletTrigger.detectArrival, hSr, hGetBsr]
    dsimp only [Option.bind_eq_bind, Option.bind_some]
    rw [if_pos hUnreported]
  · next hReported =>
    refine ⟨recentGranted, ?_⟩
    rw [BulletTrigger.detectArrival, hSr, hGetBsr]
    dsimp only [Option.bind_eq_bind, Option.bind_some]
    rw [if_neg hReported]
    exact hDetect

theorem Alike.detect (h : Alike s s') {currentSlot : Int} {proactiveBsr : ℕ}
    (hDetect : s.detect currentSlot proactiveBsr = some t) :
    ∃ t', s'.detect currentSlot proactiveBsr = some t' ∧ Alike t t' := by
  obtain ⟨⟨dOut, recentGranted⟩, hArrival, hDetect⟩ := Option.bind_eq_some_iff.mp hDetect
  cases hDetect
  have hTraced := h.inputVariableTracer currentSlot s.tInput
  obtain ⟨recentGranted', hArrival'⟩ := hTraced.detectArrival hArrival
  obtain ⟨g, m, c, hEq⟩ := hTraced
  obtain ⟨g', m', c', rfl⟩ := h
  refine ⟨_, ?_, recentGranted', m, c, rfl⟩
  rw [BulletTrigger.detect, hArrival']
  dsimp only [Option.bind_eq_bind, Option.bind_some]
  rw [hEq]

theorem Alike.recordDemand (h : Alike s s') (currentSlot : Int) :
    Alike (s.recordDemand currentSlot) (s'.recordDemand currentSlot) := by
  obtain ⟨g, m, c, rfl⟩ := h
  exact ⟨g, m, c, rfl⟩

theorem Alike.updateError (h : Alike s s') {currentSlot : Int}
    (hError : s.updateError currentSlot = some t) :
    ∃ t', s'.updateError currentSlot = some t' ∧ Alike t t' := by
  obtain ⟨g, m, c, rfl⟩ := h
  obtain ⟨slot, hSlot, hError⟩ := Option.bind_eq_some_iff.mp hError
  obtain ⟨demand, hFind, hError⟩ := Option.bind_eq_some_iff.mp hError
  cases hError
  refine ⟨_, ?_, g, m.set slot (demand - max (s.identifiedDemand + g) 0), c, rfl⟩
  refine Option.bind_eq_some_iff.mpr ⟨slot, hSlot, ?_⟩
  exact Option.bind_eq_some_iff.mpr ⟨demand, hFind, rfl⟩

theorem Alike.updateError_eq_none (h : Alike s s') {currentSlot : Int}
    (hError : s.updateError currentSlot = none) : s'.updateError currentSlot = none := by
  cases hOther : s'.updateError currentSlot with
  | none => rfl
  | some t =>
    obtain ⟨t', hSome, -⟩ := h.symm.updateError hOther
    rw [hError] at hSome
    cases hSome

theorem Alike.updateDemand (h : Alike s s') (currentSlot : Int) :
    Alike (s.updateDemand z currentSlot) (s'.updateDemand z currentSlot) := by
  have hRecorded := h.recordDemand currentSlot
  rw [BulletTrigger.updateDemand, BulletTrigger.updateDemand]
  cases hError : (s.recordDemand currentSlot).updateError currentSlot with
  | none =>
    rw [hRecorded.updateError_eq_none hError]
    exact hRecorded
  | some t =>
    obtain ⟨t', hError', g, m, c, rfl⟩ := hRecorded.updateError hError
    rw [hError']
    exact ⟨g, m, _, rfl⟩

theorem Alike.processor (h : Alike s s') {currentSlot : Int} {proactiveBsr : ℕ}
    (hStep : s.processor z currentSlot proactiveBsr = some t) :
    ∃ t', s'.processor z currentSlot proactiveBsr = some t' ∧ Alike t t' := by
  obtain ⟨d, hDetect, hStep⟩ := Option.bind_eq_some_iff.mp hStep
  cases hStep
  obtain ⟨d', hDetect', hAlike⟩ := h.detect hDetect
  obtain ⟨g, m, c, hEq⟩ := hAlike.updateDemand (z := z) currentSlot
  refine ⟨_, Option.bind_eq_some_iff.mpr ⟨d', hDetect', rfl⟩, g, m, c, ?_⟩
  rw [hEq]
  rfl

theorem Alike.estimate_of_some (h : Alike s s') {currentSlot : Int} {proactiveBsr : ℕ} {e : Estimate}
    (hEstimate : s.estimate z currentSlot proactiveBsr = some e) :
    s'.estimate z currentSlot proactiveBsr = some e := by
  obtain ⟨d, hDetect, hEstimate⟩ := Option.bind_eq_some_iff.mp hEstimate
  obtain ⟨t, hError, hEstimate⟩ := Option.bind_eq_some_iff.mp hEstimate
  obtain ⟨d', hDetect', hAlike⟩ := h.detect hDetect
  obtain ⟨t', hError', g, m, c, rfl⟩ := (hAlike.recordDemand currentSlot).updateError hError
  refine Option.bind_eq_some_iff.mpr ⟨d', hDetect', ?_⟩
  exact Option.bind_eq_some_iff.mpr ⟨_, hError', hEstimate⟩

theorem Alike.estimate (h : Alike s s') (currentSlot : Int) (proactiveBsr : ℕ) :
    s.estimate z currentSlot proactiveBsr = s'.estimate z currentSlot proactiveBsr := by
  apply Option.ext
  intro e
  constructor
  · exact h.estimate_of_some
  · exact h.symm.estimate_of_some

theorem Alike.step (h : Alike s s') {e : Event} (hStep : BulletTrigger.step z s e = some t) :
    ∃ t', BulletTrigger.step z s' e = some t' ∧ Alike t t' := by
  cases e with
  | slot currentSlot proactiveBsr => exact h.processor hStep
  | bsr _ | sr | grant _ | ack _ =>
    obtain ⟨g, m, c, rfl⟩ := h
    cases hStep
    exact ⟨_, rfl, g, m, c, rfl⟩

theorem create_alike {recentGranted confidentBsr currentSlot : Int} {proactiveBsr : ℕ}
    (h : create z recentGranted confidentBsr currentSlot proactiveBsr = some s)
    (recentGranted' confidentBsr' : Int) :
    ∃ s', create z recentGranted' confidentBsr' currentSlot proactiveBsr = some s' ∧ Alike s s' := by
  have hBlank : Alike (inputParameterTracer 4 8 3 5 recentGranted confidentBsr)
      (inputParameterTracer 4 8 3 5 recentGranted' confidentBsr') :=
    ⟨recentGranted', .empty, confidentBsr', rfl⟩
  exact hBlank.processor h

theorem detect_tInput {currentSlot : Int} {proactiveBsr : ℕ}
    (h : s.detect currentSlot proactiveBsr = some t) : t.tInput = s.tInput := by
  obtain ⟨result, -, h⟩ := Option.bind_eq_some_iff.mp h
  cases h
  rw [inputVariableTracer]
  dsimp only
  split <;> rfl

theorem estimate_of_unreported (hSr : s.tInput.sr = false) (hGet : s.tInput.getBsr = false)
    (currentSlot : Int) (proactiveBsr : ℕ) : s.estimate z currentSlot proactiveBsr = none := by
  rw [estimate]
  cases hDetect : s.detect currentSlot proactiveBsr with
  | none => rfl
  | some d =>
    have hInput := detect_tInput hDetect
    have hSlot : (d.recordDemand currentSlot).reportedSlot currentSlot = none := by
      dsimp only [reportedSlot, recordDemand]
      rw [hInput, hSr, hGet]
      rfl
    have hError : (d.recordDemand currentSlot).updateError currentSlot = none := by
      rw [updateError, hSlot]
      rfl
    dsimp only [Option.bind_eq_bind, Option.bind_some]
    rw [hError]
    rfl

/-- The constructor leaves the confident demand as it was. -/
theorem create_confidentBsr {recentGranted confidentBsr currentSlot : Int} {proactiveBsr : ℕ}
    (h : create z recentGranted confidentBsr currentSlot proactiveBsr = some s) :
    s.confidentBsr = confidentBsr := by
  have hValue := processor_confidentBsr h
  rw [estimate_of_unreported rfl rfl] at hValue
  exact hValue

end BulletTrigger

/-! ## The trigger and the queues -/

/-- A user at the scheduler: its trigger, its groups, and whether it waits in the SR list. -/
structure StagedUe where
  trigger : BulletTrigger
  ulLCG : List NrMacSchedulerLCG := []
  srListed : Bool := false

/-- What the scheduler does for the user, and what reaches its trigger from elsewhere. -/
inductive StageEvent where
  | lcConfig (lcg lcId : UInt8)
  | bsr (bufferStatus : List UInt8)
  | sr
  | scheduleUlSr
  | computeActiveUe
  | assignedData (lcg lcId : UInt8) (size : UInt32)
  | grant (size : UInt32)
  | ack (number : UInt32)
  | slot (currentSlot : Int) (proactiveBsr : ℕ)
deriving DecidableEq, Repr

namespace StagedUe

variable {z : ZScore} {u v w : StagedUe}

def onTrigger (z : ZScore) (u : StagedUe) (e : BulletTrigger.Event) : Option StagedUe := do
  let trigger ← u.trigger.step z e
  some { u with trigger := trigger }

def proactiveBSR (u : StagedUe) : UInt32 := UInt32.ofNat u.trigger.proactiveBsr

def step (z : ZScore) (u : StagedUe) : StageEvent → Option StagedUe
  | .lcConfig lcg lcId => some { u with ulLCG := configureUlLc u.ulLCG lcg lcId }
  | .bsr bufferStatus => do
    let level ← bufferStatus[2]?
    let ulLCG ← bsrReceivedFromUe u.ulLCG bufferStatus
    { u with ulLCG := ulLCG }.onTrigger z (.bsr level)
  | .sr => if u.srListed then some u else { u with srListed := true }.onTrigger z .sr
  | .scheduleUlSr =>
    if u.srListed then do
      let ulLCG ← Mac.scheduleUlSr u.ulLCG
      some { u with ulLCG := ulLCG, srListed := false }
    else some u
  | .computeActiveUe => do
    let ulLCG ← Mac.computeActiveUe u.proactiveBSR u.ulLCG
    some { u with ulLCG := ulLCG }
  | .assignedData lcg lcId size =>
    some { u with ulLCG := Mac.assignedData .ul u.ulLCG lcg lcId size }
  | .grant size => u.onTrigger z (.grant size)
  | .ack number => u.onTrigger z (.ack number)
  | .slot currentSlot proactiveBsr => u.onTrigger z (.slot currentSlot proactiveBsr)

/-- The demand that the second stage takes for the user when it is scheduled now. -/
def estimatedDemand (u : StagedUe) : Option UInt32 :=
  (Mac.computeActiveUe u.proactiveBSR u.ulLCG).map totBuffer

/-- `DoCschedUeConfigReq`: the user has no channel yet. -/
def create (z : ZScore) (recentGranted confidentBsr currentSlot : Int) (proactiveBsr : ℕ) :
    Option StagedUe :=
  (BulletTrigger.create z recentGranted confidentBsr currentSlot proactiveBsr).map
    fun trigger => { trigger := trigger }

/-- The state after the events. -/
def reach (z : ZScore) (recentGranted confidentBsr currentSlot : Int) (proactiveBsr : ℕ)
    (events : List StageEvent) : Option StagedUe :=
  (create z recentGranted confidentBsr currentSlot proactiveBsr).bind (run (step z) · events)

/-- The estimate that a step makes. -/
def estimate (z : ZScore) (u : StagedUe) : StageEvent → Option Estimate
  | .slot currentSlot proactiveBsr => u.trigger.estimate z currentSlot proactiveBsr
  | _ => none

/-- The last estimate that is made on the way. -/
def estimateInForce (z : ZScore) (recentGranted confidentBsr currentSlot : Int) (proactiveBsr : ℕ)
    (events : List StageEvent) : Option Estimate :=
  (create z recentGranted confidentBsr currentSlot proactiveBsr).bind
    (lastOutput (step z) (estimate z) · events)

/-- After the events the confident demand is one value, whatever lay in the uninitialised members,
and it is between the demand identified by the latest BSR and the total of the second stage. -/
def ConfidentDemandBounded (z : ZScore) (currentSlot : Int) (proactiveBsr : ℕ)
    (events : List StageEvent) : Prop :=
  ∃ confident, ∀ recentGranted confidentBsr, ∃ u,
    reach z recentGranted confidentBsr currentSlot proactiveBsr events = some u ∧
    u.trigger.getConfidentBsr = confident ∧ 0 ≤ confident ∧
    u.trigger.identifiedDemand ≤ confident ∧
    ∃ total, u.estimatedDemand = some total ∧ confident ≤ total.toNat

theorem onTrigger_eq_some {e : BulletTrigger.Event} (h : u.onTrigger z e = some v) :
    ∃ trigger, u.trigger.step z e = some trigger ∧ v = { u with trigger := trigger } := by
  obtain ⟨trigger, hStep, h⟩ := Option.bind_eq_some_iff.mp h
  exact ⟨trigger, hStep, (Option.some.inj h).symm⟩

theorem onTrigger_confidentBsr {e : BulletTrigger.Event} (hNotSlot : ∀ n p, .slot n p ≠ e)
    (h : u.onTrigger z e = some v) : v.trigger.confidentBsr = u.trigger.confidentBsr := by
  obtain ⟨trigger, hStep, rfl⟩ := onTrigger_eq_some h
  cases e with
  | slot n p => exact absurd rfl (hNotSlot n p)
  | bsr _ | sr | grant _ | ack _ =>
    cases hStep
    rfl

/-- A step that makes an estimate sets the confident demand, and no other step does. -/
theorem step_confidentBsr (e : StageEvent) (h : step z u e = some v) :
    v.trigger.confidentBsr =
      ((u.estimate z e).map Estimate.confident).getD u.trigger.confidentBsr := by
  cases e with
  | slot currentSlot proactiveBsr =>
    obtain ⟨trigger, hStep, rfl⟩ := onTrigger_eq_some h
    exact BulletTrigger.processor_confidentBsr hStep
  | bsr bufferStatus =>
    obtain ⟨level, -, h⟩ := Option.bind_eq_some_iff.mp h
    obtain ⟨ulLCG, -, h⟩ := Option.bind_eq_some_iff.mp h
    exact onTrigger_confidentBsr (u := { u with ulLCG := ulLCG }) (fun _ _ h => by cases h) h
  | sr =>
    dsimp only [step] at h
    split at h
    · cases h
      rfl
    · exact onTrigger_confidentBsr (u := { u with srListed := true }) (fun _ _ h => by cases h) h
  | scheduleUlSr =>
    dsimp only [step] at h
    split at h
    · obtain ⟨ulLCG, -, h⟩ := Option.bind_eq_some_iff.mp h
      cases h
      rfl
    · cases h
      rfl
  | computeActiveUe =>
    obtain ⟨ulLCG, -, h⟩ := Option.bind_eq_some_iff.mp h
    cases h
    rfl
  | grant size => exact onTrigger_confidentBsr (fun _ _ h => by cases h) h
  | ack number => exact onTrigger_confidentBsr (fun _ _ h => by cases h) h
  | lcConfig _ _ | assignedData _ _ _ =>
    cases h
    rfl

/-- The triggers are alike and the queues are the same. -/
structure Alike (u w : StagedUe) : Prop where
  trigger : u.trigger.Alike w.trigger
  ulLCG : w.ulLCG = u.ulLCG
  srListed : w.srListed = u.srListed

theorem Alike.onTrigger (h : Alike u w) {e : BulletTrigger.Event} (hNext : u.onTrigger z e = some v) :
    ∃ v', w.onTrigger z e = some v' ∧ Alike v v' := by
  obtain ⟨trigger, hStep, rfl⟩ := onTrigger_eq_some hNext
  obtain ⟨trigger', hStep', hAlike⟩ := h.trigger.step hStep
  refine ⟨{ w with trigger := trigger' }, ?_, hAlike, h.ulLCG, h.srListed⟩
  rw [StagedUe.onTrigger, hStep']
  rfl

theorem Alike.proactiveBSR (h : Alike u w) : w.proactiveBSR = u.proactiveBSR := by
  obtain ⟨⟨g, m, c, hEq⟩, -, -⟩ := h
  rw [StagedUe.proactiveBSR, StagedUe.proactiveBSR, hEq]

theorem Alike.step (h : Alike u w) (e : StageEvent) (hStep : StagedUe.step z u e = some v) :
    ∃ v', StagedUe.step z w e = some v' ∧ Alike v v' := by
  cases e with
  | slot currentSlot proactiveBsr => exact h.onTrigger hStep
  | bsr bufferStatus =>
    obtain ⟨level, hLevel, hStep⟩ := Option.bind_eq_some_iff.mp hStep
    obtain ⟨ulLCG, hReported, hStep⟩ := Option.bind_eq_some_iff.mp hStep
    have hQueues : Alike { u with ulLCG := ulLCG } { w with ulLCG := ulLCG } :=
      ⟨h.trigger, rfl, h.srListed⟩
    obtain ⟨v', hStep', hAlike⟩ := hQueues.onTrigger hStep
    refine ⟨v', ?_, hAlike⟩
    refine Option.bind_eq_some_iff.mpr ⟨level, hLevel, ?_⟩
    rw [h.ulLCG]
    exact Option.bind_eq_some_iff.mpr ⟨ulLCG, hReported, hStep'⟩
  | sr =>
    dsimp only [StagedUe.step] at hStep ⊢
    rw [h.srListed]
    split at hStep
    · next hListed =>
      cases hStep
      exact ⟨w, if_pos hListed, h⟩
    · next hListed =>
      have hQueues : Alike { u with srListed := true } { w with srListed := true } :=
        ⟨h.trigger, h.ulLCG, rfl⟩
      obtain ⟨v', hStep', hAlike⟩ := hQueues.onTrigger hStep
      exact ⟨v', (if_neg hListed).trans hStep', hAlike⟩
  | scheduleUlSr =>
    dsimp only [StagedUe.step] at hStep ⊢
    rw [h.srListed, h.ulLCG]
    split at hStep
    · next hListed =>
      obtain ⟨ulLCG, hServed, hStep⟩ := Option.bind_eq_some_iff.mp hStep
      cases hStep
      refine ⟨{ w with ulLCG := ulLCG, srListed := false }, ?_, h.trigger, rfl, rfl⟩
      rw [if_pos hListed, hServed]
      rfl
    · next hListed =>
      cases hStep
      exact ⟨w, if_neg hListed, h⟩
  | computeActiveUe =>
    obtain ⟨ulLCG, hActive, hStep⟩ := Option.bind_eq_some_iff.mp hStep
    cases hStep
    refine ⟨{ w with ulLCG := ulLCG }, ?_, h.trigger, rfl, h.srListed⟩
    rw [StagedUe.step, h.ulLCG, h.proactiveBSR, hActive]
    rfl
  | grant size => exact h.onTrigger hStep
  | ack number => exact h.onTrigger hStep
  | lcConfig lcg lcId =>
    cases hStep
    exact ⟨_, rfl, h.trigger, congrArg (configureUlLc · lcg lcId) h.ulLCG, h.srListed⟩
  | assignedData lcg lcId size =>
    cases hStep
    exact ⟨_, rfl, h.trigger, congrArg (Mac.assignedData .ul · lcg lcId size) h.ulLCG, h.srListed⟩

theorem Alike.estimate (h : Alike u w) (e : StageEvent) : u.estimate z e = w.estimate z e := by
  cases e with
  | slot currentSlot proactiveBsr => exact h.trigger.estimate currentSlot proactiveBsr
  | _ => rfl

section

variable {recentGranted confidentBsr currentSlot : Int} {proactiveBsr : ℕ} {events : List StageEvent}

theorem create_alike (h : create z recentGranted confidentBsr currentSlot proactiveBsr = some u)
    (recentGranted' confidentBsr' : Int) :
    ∃ w, create z recentGranted' confidentBsr' currentSlot proactiveBsr = some w ∧ Alike u w := by
  obtain ⟨trigger, hCreate, rfl⟩ := Option.map_eq_some_iff.mp h
  obtain ⟨trigger', hCreate', hAlike⟩ :=
    BulletTrigger.create_alike hCreate recentGranted' confidentBsr'
  exact ⟨{ trigger := trigger' }, Option.map_eq_some_iff.mpr ⟨trigger', hCreate', rfl⟩, hAlike,
    rfl, rfl⟩

theorem create_confidentBsr
    (h : create z recentGranted confidentBsr currentSlot proactiveBsr = some u) :
    u.trigger.confidentBsr = confidentBsr := by
  obtain ⟨trigger, hCreate, rfl⟩ := Option.map_eq_some_iff.mp h
  exact BulletTrigger.create_confidentBsr hCreate

/-- The confident demand in a reached state: that of the last estimate, or what lay in the member. -/
theorem reach_confidentBsr
    (h : reach z recentGranted confidentBsr currentSlot proactiveBsr events = some u) :
    u.trigger.getConfidentBsr =
      ((estimateInForce z recentGranted confidentBsr currentSlot proactiveBsr events).map
        Estimate.confident).getD confidentBsr := by
  obtain ⟨start, hCreate, hRun⟩ := Option.bind_eq_some_iff.mp h
  have hValue := observe_of_lastOutput (fun s i t => step_confidentBsr i) hRun
  rw [create_confidentBsr hCreate] at hValue
  rw [estimateInForce, hCreate]
  exact hValue

/-- Other contents of the members lead to an alike state, with the same last estimate. -/
theorem reach_alike
    (h : reach z recentGranted confidentBsr currentSlot proactiveBsr events = some u)
    (recentGranted' confidentBsr' : Int) :
    ∃ w, reach z recentGranted' confidentBsr' currentSlot proactiveBsr events = some w ∧
      Alike u w ∧
      estimateInForce z recentGranted' confidentBsr' currentSlot proactiveBsr events =
        estimateInForce z recentGranted confidentBsr currentSlot proactiveBsr events := by
  obtain ⟨start, hCreate, hRun⟩ := Option.bind_eq_some_iff.mp h
  obtain ⟨start', hCreate', hAlike⟩ := create_alike hCreate recentGranted' confidentBsr'
  have hStep : ∀ s t i s', Alike s t → StagedUe.step z s i = some s' →
      ∃ t', StagedUe.step z t i = some t' ∧ Alike s' t' :=
    fun s t i s' hRel hNext => hRel.step i hNext
  obtain ⟨w, hRun', hEnd⟩ := run_of_related hStep hAlike hRun
  refine ⟨w, Option.bind_eq_some_iff.mpr ⟨start', hCreate', hRun'⟩, hEnd, ?_⟩
  rw [estimateInForce, estimateInForce, hCreate, hCreate', Option.bind_some, Option.bind_some]
  exact (lastOutput_of_related hStep (fun s t i hRel => hRel.estimate i) hAlike hRun).symm

theorem Alike.estimatedDemand (h : Alike u w) : w.estimatedDemand = u.estimatedDemand := by
  rw [StagedUe.estimatedDemand, StagedUe.estimatedDemand, h.ulLCG, h.proactiveBSR]

theorem Alike.identifiedDemand (h : Alike u w) :
    w.trigger.identifiedDemand = u.trigger.identifiedDemand := by
  obtain ⟨⟨g, m, c, hEq⟩, -, -⟩ := h
  rw [hEq]
  rfl

theorem onTrigger_ulLCG {e : BulletTrigger.Event} (h : u.onTrigger z e = some v) :
    v.ulLCG = u.ulLCG := by
  obtain ⟨trigger, -, rfl⟩ := onTrigger_eq_some h
  rfl

theorem step_oneChannel (hOne : OneChannel u.ulLCG) (e : StageEvent) (h : step z u e = some v) :
    OneChannel v.ulLCG := by
  cases e with
  | lcConfig lcg lcId =>
    cases h
    exact hOne.configureUlLc lcg lcId
  | bsr bufferStatus =>
    obtain ⟨level, -, h⟩ := Option.bind_eq_some_iff.mp h
    obtain ⟨ulLCG, hReported, h⟩ := Option.bind_eq_some_iff.mp h
    rw [onTrigger_ulLCG h]
    exact hOne.bsrReceivedFromUe hReported
  | sr =>
    dsimp only [step] at h
    split at h
    · cases h
      exact hOne
    · rw [onTrigger_ulLCG h]
      exact hOne
  | scheduleUlSr =>
    dsimp only [step] at h
    split at h
    · obtain ⟨ulLCG, hServed, h⟩ := Option.bind_eq_some_iff.mp h
      obtain ⟨ulLCG', hServed', hOne'⟩ := hOne.scheduleUlSr
      cases hServed.symm.trans hServed'
      cases h
      exact hOne'
    · cases h
      exact hOne
  | computeActiveUe =>
    obtain ⟨ulLCG, hActive, h⟩ := Option.bind_eq_some_iff.mp h
    obtain ⟨ulLCG', hActive', hOne'⟩ := hOne.computeActiveUe u.proactiveBSR
    cases hActive.symm.trans hActive'
    cases h
    exact hOne'
  | assignedData lcg lcId size =>
    cases h
    exact hOne.assignedData .ul lcg lcId size
  | grant _ | ack _ | slot _ _ =>
    rw [onTrigger_ulLCG h]
    exact hOne

/-- The second stage always finds a total for the user. -/
theorem estimatedDemand_ne_none
    (h : reach z recentGranted confidentBsr currentSlot proactiveBsr events = some u) :
    u.estimatedDemand ≠ none := by
  obtain ⟨start, hCreate, hRun⟩ := Option.bind_eq_some_iff.mp h
  obtain ⟨trigger, -, rfl⟩ := Option.map_eq_some_iff.mp hCreate
  have hStart : OneChannel ({ trigger := trigger } : StagedUe).ulLCG := nofun
  have hSteps : ∀ v e w, OneChannel v.ulLCG → step z v e = some w → OneChannel w.ulLCG :=
    fun v e w hInv hStep => step_oneChannel hInv e hStep
  have hOne := invariant_of_step hSteps hStart hRun
  obtain ⟨ulLCG, hActive, -⟩ := hOne.computeActiveUe u.proactiveBSR
  rw [estimatedDemand, hActive]
  exact Option.some_ne_none _

/-- The members of a reached state that contradict the bounds. -/
theorem not_bounded_of_fields {confident identified : Int} {total : UInt32}
    (h : (reach z recentGranted confidentBsr currentSlot proactiveBsr events).map (fun u =>
      (u.trigger.getConfidentBsr, u.trigger.identifiedDemand, u.estimatedDemand)) =
        some (confident, identified, some total))
    (hOut : confident < identified ∨ (total.toNat : Int) < confident) :
    ¬ ConfidentDemandBounded z currentSlot proactiveBsr events := by
  rintro ⟨value, hBounded⟩
  obtain ⟨u, hReach, rfl, -, hIdentified, total', hTotal, hLe⟩ := hBounded recentGranted confidentBsr
  rw [hReach, Option.map_some, Option.some_inj, Prod.mk.injEq, Prod.mk.injEq, hTotal] at h
  obtain ⟨rfl, rfl, hSame⟩ := h
  cases hSame
  omega

end

end StagedUe
end Bullet.Trigger
