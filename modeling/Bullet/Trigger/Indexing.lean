import Bullet.Trigger.Detection

/-! # Indices into the queues

The queues always have the same length. The look-back for an SR runs off the queue when the first
BSR comes early in the run and no SR came early enough before it.
-/

namespace Bullet.Trigger.BulletTrigger

open Lib Lib.RecentHistory Lib.PartialRun

variable {z : ZScore} {s s' t : BulletTrigger} {past : List SlotRecord} {cur : SlotRecord}

/-- The look-back stays inside of the queues once they are long enough, or when it ends at a report
of the history. -/
theorem Holds.lastBsrIndex_isSome_iff (h : t.Holds (cur :: past)) :
    t.lastBsrIndex ≠ none ↔
      52 ≤ past.length ∨
        ∃ i, 2 ≤ i ∧ i ≤ 99 ∧ i + 3 < past.length + 51 ∧ Reported (cur :: past) i := by
  have hBound : min 100 ((cur :: past).length + 50) = min 100 (past.length + 51) := rfl
  rw [h.lastBsrIndex_eq, hBound]
  constructor
  · intro hSome
    by_contra hNot
    rw [not_or, not_le] at hNot
    obtain ⟨hShort, hNone⟩ := hNot
    -- Nothing is reported, and the first index below zero is still in the range of the loop.
    obtain ⟨l, m, hSplit, hRange⟩ := range'_split 2 (min 100 (past.length + 51) - 2)
      (show 2 ≤ past.length + 48 by omega) (by omega)
    have hMiss : ∀ j ∈ l, t.reportedAt t.getBsrQueue.length j = some false := by
      intro j hMem
      obtain ⟨hTwo, hLt⟩ := hRange j hMem
      apply h.reportedAt_miss (by omega) (by omega)
      · rw [List.length_cons]
        omega
      · exact fun hReported => hNone ⟨j, hTwo, by omega, by omega, hReported⟩
    have hLength := length_withBlanks (cur :: past)
    rw [List.length_cons] at hLength
    have hProbe : t.reportedAt t.getBsrQueue.length (past.length + 48) = none := by
      rw [h.reportedAt (by omega) (by omega), List.getElem?_eq_getElem (by omega), Option.bind_some,
        if_neg, List.getElem?_eq_none (by omega)]
      · rfl
      · intro hGet
        have hLt := lt_of_withBlanks (List.getElem?_eq_getElem (l := withBlanks (cur :: past))
          (i := past.length + 48 - 1) (by omega)) fun hEq => by rw [hEq] at hGet; cases hGet
        rw [List.length_cons] at hLt
        omega
    rw [hSplit, firstHit_append_of_miss hMiss, firstHit, hProbe] at hSome
    exact hSome rfl
  · have hDefined : ∀ i, 2 ≤ i → i ≤ 99 → i + 3 < past.length + 51 →
        t.reportedAt t.getBsrQueue.length i ≠ none := by
      intro i hLow hHigh hIn
      apply h.reportedAt_ne_none (by omega) hHigh
      rw [List.length_cons]
      omega
    rintro (hLong | ⟨i, hLow, hHigh, hIn, hReported⟩)
    · obtain ⟨hit, hHit⟩ := firstHit_isSome (t.reportedAt t.getBsrQueue.length)
        (List.range' 2 (min 100 (past.length + 51) - 2)) fun i hMem => by
          rw [List.mem_range'_1] at hMem
          exact hDefined i hMem.1 (by omega) (by omega)
      rw [hHit]
      exact Option.some_ne_none _
    · obtain ⟨l, m, hSplit, hRange⟩ := range'_split 2 (min 100 (past.length + 51) - 2) hLow (by omega)
      have hTrue := h.reportedAt_of_reported (by omega) hHigh
        (by rw [List.length_cons]; omega) hReported
      obtain ⟨j, hHit⟩ := firstHit_isSome_of_hit (m := m) (fun j hMem => by
        obtain ⟨hTwo, hLt⟩ := hRange j hMem
        exact hDefined j hTwo (by omega) (by omega)) hTrue
      rw [hSplit, hHit]
      exact Option.some_ne_none _

/-- A BSR finds the queues long enough for the whole look-back, or an earlier BSR in them, or an SR
that came at least five slots earlier. -/
def Indexed (s : BulletTrigger) : Event → Prop
  | .slot _ _ => s.tInput.getBsr = true →
      102 ≤ s.getBsrQueue.length ∨ true ∈ s.getBsrQueue ∨
        true ∈ s.srQueue.take (s.srQueue.length - 4)
  | _ => True

instance (s : BulletTrigger) : DecidablePred s.Indexed
  | .slot _ _ => inferInstanceAs (Decidable (_ → _))
  | .bsr _ | .sr | .grant _ | .ack _ => inferInstanceAs (Decidable True)

theorem Holds.reported_iff (h : s.Holds past) (hShort : past.length < 52) :
    (∃ i, 2 ≤ i ∧ i ≤ 99 ∧ i + 3 < past.length + 51 ∧ Reported (cur :: past) i) ↔
      true ∈ s.getBsrQueue ∨ true ∈ s.srQueue.take (s.srQueue.length - 4) := by
  have hGet : true ∈ s.getBsrQueue ↔ ∃ i, i < queueSize ∧
      ((withBlanks past).map (·.getBsr))[i]? = some true := by
    have hAll := mem_take_recent (x := true) queueSize 0 ((withBlanks past).map (·.getBsr))
    rw [Nat.sub_zero, List.take_length, ← h.getBsr] at hAll
    rw [hAll]
    simp
  rw [hGet, h.sr, mem_take_recent]
  constructor
  · rintro ⟨i, hLow, hHigh, hIn, ⟨r, hr, hTrue⟩ | ⟨r, hr, hTrue⟩⟩
    · obtain ⟨k, rfl⟩ := Nat.exists_eq_add_of_le hLow
      have hIndex : 2 + k - 1 = k + 1 := by omega
      rw [hIndex, withBlanks_cons, List.getElem?_cons_succ] at hr
      exact Or.inl ⟨k, by rw [queueSize]; omega, by rw [List.getElem?_map, hr, Option.map_some, hTrue]⟩
    · have hIndex : i + 3 = i + 2 + 1 := rfl
      rw [hIndex, withBlanks_cons, List.getElem?_cons_succ] at hr
      exact Or.inr ⟨i + 2, by omega, by rw [queueSize]; omega,
        by rw [List.getElem?_map, hr, Option.map_some, hTrue]⟩
  · rintro (⟨k, hSize, hTrue⟩ | ⟨k, hFour, hSize, hTrue⟩)
    · rw [List.getElem?_map] at hTrue
      obtain ⟨r, hr, hTrue⟩ := Option.map_eq_some_iff.mp hTrue
      have hLt := lt_of_withBlanks hr fun hEq => by rw [hEq] at hTrue; cases hTrue
      refine ⟨k + 2, by omega, by omega, by omega, Or.inl ⟨r, ?_, hTrue⟩⟩
      rw [withBlanks_cons]
      exact hr
    · rw [List.getElem?_map] at hTrue
      obtain ⟨r, hr, hSr⟩ := Option.map_eq_some_iff.mp hTrue
      have hLt := lt_of_withBlanks hr fun hEq => by rw [hEq] at hSr; cases hSr
      refine ⟨k - 2, by omega, by omega, by omega, Or.inr ⟨r, ?_, hSr⟩⟩
      have hIndex : k - 2 + 3 = k + 1 := by omega
      rw [hIndex, withBlanks_cons, List.getElem?_cons_succ]
      exact hr

/-- The record of the slot that is being updated. -/
def currentRecord (s : BulletTrigger) (currentSlot : Int) : SlotRecord := ⟨s.tInput, currentSlot⟩

theorem Holds.detectArrival_isSome_iff (h : s.Holds past) (currentSlot : Int) (proactiveBsr : ℕ) :
    (s.inputVariableTracer currentSlot s.tInput).detectArrival ≠ none ↔
      s.Indexed (.slot currentSlot proactiveBsr) := by
  have hPush := h.push currentSlot s.tInput
  have hLength := h.length
  rw [queueSize] at hLength
  cases hGet : s.tInput.getBsr with
  | false =>
    rw [hPush.detect_unreported hGet]
    constructor
    · intro _ hTrue
      rw [hGet] at hTrue
      cases hTrue
    · intro _
      exact Option.some_ne_none _
  | true =>
    have hLast : (s.inputVariableTracer currentSlot s.tInput).detectArrival ≠ none ↔
        (s.inputVariableTracer currentSlot s.tInput).lastBsrIndex ≠ none := by
      constructor
      · intro hSome hNone
        exact hSome (hPush.detect_eq_none hGet hNone)
      · intro hSome
        obtain ⟨last, hLast⟩ := Option.ne_none_iff_exists'.mp hSome
        obtain ⟨b, -, hDetect⟩ := hPush.detect_of_last hGet hLast
        rw [hDetect]
        exact Option.some_ne_none _
    rw [hLast, hPush.lastBsrIndex_isSome_iff, Indexed, hGet]
    by_cases hShort : past.length < 52
    · rw [h.reported_iff hShort]
      constructor
      · rintro (hLong | hReported) -
        · omega
        · exact Or.inr hReported
      · intro hIndexed
        obtain hLong | hReported := hIndexed rfl
        · omega
        · exact Or.inr hReported
    · constructor
      · rintro - -
        exact Or.inl (by omega)
      · intro _
        exact Or.inl (by omega)

theorem inputVariableTracer_frame (s : BulletTrigger) (currentTime : Int) (input : TriggerInput) :
    (s.inputVariableTracer currentTime input).tInput = s.tInput ∧
      (s.inputVariableTracer currentTime input).trace = s.trace := by
  rw [inputVariableTracer]
  dsimp only
  split
  · exact ⟨rfl, rfl⟩
  · exact ⟨rfl, rfl⟩

/-- What `updateDemand` leaves alone. -/
structure SameInput (s s' : BulletTrigger) : Prop extends SameQueues s s' where
  tInput : s'.tInput = s.tInput
  trace : s'.trace = s.trace

theorem updateDemand_same (z : ZScore) (s : BulletTrigger) (currentSlot : Int) :
    SameInput s (s.updateDemand z currentSlot) := by
  rw [updateDemand]
  split
  · exact ⟨⟨rfl, rfl, rfl, rfl, rfl, rfl, rfl, rfl, rfl⟩, rfl, rfl⟩
  · next t hError =>
    obtain ⟨reportedSlot, -, hError⟩ := Option.bind_eq_some_iff.mp hError
    obtain ⟨demand, -, hError⟩ := Option.bind_eq_some_iff.mp hError
    cases hError
    exact ⟨⟨rfl, rfl, rfl, rfl, rfl, rfl, rfl, rfl, rfl⟩, rfl, rfl⟩

/-- A slot update records the slot in the history and in the trace, and resets the input. -/
structure Updates (s : BulletTrigger) (past : List SlotRecord) (currentSlot arrival : Int)
    (s' : BulletTrigger) : Prop where
  holds : s'.Holds (s.currentRecord currentSlot :: past)
  tInput : s'.tInput = { bsr := s.tInput.bsr }
  trace : s'.trace = s.trace ++ [{ s.tInput with arrival := arrival }]

/-- The state after the detection. -/
def detected (s : BulletTrigger) (currentSlot arrival recentGranted : Int) (proactiveBsr : ℕ) :
    BulletTrigger :=
  { s.inputVariableTracer currentSlot s.tInput with
    recentGranted := recentGranted
    proactiveBsr := proactiveBsr
    trace := s.trace ++ [{ s.tInput with arrival := arrival }] }

theorem detect_eq {currentSlot recentGranted : Int} (proactiveBsr : ℕ) {dOut : DetectionOutput}
    (hDetect : (s.inputVariableTracer currentSlot s.tInput).detectArrival =
      some (dOut, recentGranted)) :
    s.detect currentSlot proactiveBsr =
      some (s.detected currentSlot dOut.arrival recentGranted proactiveBsr) := by
  obtain ⟨hInput, hTrace⟩ := inputVariableTracer_frame s currentSlot s.tInput
  rw [detect, hDetect, detected, ← hTrace]
  dsimp only [Option.bind_eq_bind, Option.bind_some]
  rw [hInput]

theorem Holds.processor (h : s.Holds past) {currentSlot : Int} (proactiveBsr : ℕ)
    {dOut : DetectionOutput} {recentGranted : Int}
    (hDetect : (s.inputVariableTracer currentSlot s.tInput).detectArrival =
      some (dOut, recentGranted)) :
    ∃ s', s.processor z currentSlot proactiveBsr = some s' ∧
      Updates s past currentSlot dOut.arrival s' := by
  obtain ⟨hInput, -⟩ := inputVariableTracer_frame s currentSlot s.tInput
  rw [BulletTrigger.processor, detect_eq proactiveBsr hDetect, Option.bind_eq_bind,
    Option.bind_some]
  have hSame := updateDemand_same z
    (s.detected currentSlot dOut.arrival recentGranted proactiveBsr) currentSlot
  refine ⟨_, rfl, ?_, ?_, hSame.trace⟩
  · have hDetected : (s.detected currentSlot dOut.arrival recentGranted proactiveBsr).Holds
        (s.currentRecord currentSlot :: past) :=
      (h.push currentSlot s.tInput).same ⟨rfl, rfl, rfl, rfl, rfl, rfl, rfl, rfl, rfl⟩
    exact (hDetected.same hSame.toSameQueues).same ⟨rfl, rfl, rfl, rfl, rfl, rfl, rfl, rfl, rfl⟩
  · have hBsr := congrArg TriggerInput.bsr (hSame.tInput.trans hInput)
    exact congrArg (fun level => ({ bsr := level } : TriggerInput)) hBsr

theorem processor_eq_none {currentSlot : Int} {proactiveBsr : ℕ}
    (hDetect : (s.inputVariableTracer currentSlot s.tInput).detectArrival = none) :
    s.processor z currentSlot proactiveBsr = none := by
  rw [BulletTrigger.processor, detect, hDetect]
  rfl

/-- The queues of `s` are the recent part of some history. -/
def Recorded (s : BulletTrigger) : Prop := ∃ past, s.Holds past

theorem step_recorded {e : Event} (h : s.Recorded) (hStep : step z s e = some t) :
    t.Recorded := by
  obtain ⟨past, hHolds⟩ := h
  cases e with
  | slot currentSlot proactiveBsr =>
    rw [step] at hStep
    cases hDetect : (s.inputVariableTracer currentSlot s.tInput).detectArrival with
    | none =>
      rw [processor_eq_none hDetect] at hStep
      cases hStep
    | some result =>
      obtain ⟨s', hProcessor, hUpdates⟩ := hHolds.processor (z := z) proactiveBsr hDetect
      rw [hProcessor] at hStep
      cases hStep
      exact ⟨_, hUpdates.holds⟩
  | bsr _ | sr | grant _ | ack _ =>
    cases hStep
    exact ⟨past, hHolds.same ⟨rfl, rfl, rfl, rfl, rfl, rfl, rfl, rfl, rfl⟩⟩

theorem step_ne_none_iff {e : Event} (h : s.Recorded) : step z s e ≠ none ↔ s.Indexed e := by
  obtain ⟨past, hHolds⟩ := h
  cases e with
  | slot currentSlot proactiveBsr =>
    rw [← hHolds.detectArrival_isSome_iff currentSlot proactiveBsr, step]
    cases hDetect : (s.inputVariableTracer currentSlot s.tInput).detectArrival with
    | none =>
      rw [processor_eq_none hDetect]
      exact iff_of_false (fun hNone => hNone rfl) (fun hNone => hNone rfl)
    | some result =>
      obtain ⟨s', hProcessor, -⟩ := hHolds.processor (z := z) proactiveBsr hDetect
      rw [hProcessor]
      exact iff_of_true (Option.some_ne_none s') (Option.some_ne_none result)
  | bsr _ | sr | grant _ | ack _ => exact iff_of_true (Option.some_ne_none _) trivial

/-- The constructor's own slot update has no BSR. -/
theorem create_recorded (z : ZScore) (recentGranted confidentBsr currentSlot : Int)
    (proactiveBsr : ℕ) :
    ∃ s, create z recentGranted confidentBsr currentSlot proactiveBsr = some s ∧ s.Recorded := by
  have hBlank := inputParameterTracer_holds 5 recentGranted confidentBsr
  obtain ⟨s, hProcessor, hUpdates⟩ := hBlank.processor (z := z) proactiveBsr
    ((hBlank.push currentSlot {}).detect_unreported rfl)
  exact ⟨s, hProcessor, _, hUpdates.holds⟩

theorem run_recorded {l : List Event} (h : s.Recorded) (hRun : run (step z) s l = some t) :
    t.Recorded :=
  invariant_of_step (fun _ _ _ hInv hStep => step_recorded hInv hStep) h hRun

/-- The run accesses the queues inside of their bounds, and they have equal lengths in every state
that it passes through. -/
structure InBounds (z : ZScore) (s : BulletTrigger) (l : List Event) : Prop where
  succeeds : run (step z) s l ≠ none
  equalLengths : ∀ p, p <+: l → ∀ t, run (step z) s p = some t → t.EqualLengths

theorem create_inBounds_iff (z : ZScore) (recentGranted confidentBsr currentSlot : Int)
    (proactiveBsr : ℕ) (l : List Event) :
    ∃ s, create z recentGranted confidentBsr currentSlot proactiveBsr = some s ∧
      (InBounds z s l ↔ StepsMeet (step z) Indexed s l) := by
  obtain ⟨s, hCreate, hRecorded⟩ := create_recorded z recentGranted confidentBsr currentSlot
    proactiveBsr
  refine ⟨s, hCreate, ?_⟩
  rw [← run_ne_none_iff (fun _ _ _ hInv hStep => step_recorded hInv hStep)
    (fun _ _ hInv => step_ne_none_iff hInv) hRecorded]
  constructor
  · intro h
    exact h.succeeds
  · intro hRun
    refine ⟨hRun, fun p _ t hPrefix => ?_⟩
    obtain ⟨past, hHolds⟩ := run_recorded hRecorded hPrefix
    exact hHolds.equalLengths

/-- A BSR in the second slot reads before the queue of the SRs. -/
theorem early_bsr_out_of_bounds :
    ∃ s, create ⟨fun _ => 0, rfl⟩ 0 0 0 0 = some s ∧
      run (step ⟨fun _ => 0, rfl⟩) s [.bsr 5, .slot 1 0] = none :=
  ⟨_, rfl, rfl⟩

end Bullet.Trigger.BulletTrigger
