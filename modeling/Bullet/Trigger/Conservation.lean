import Bullet.Trigger.Indexing
import Mathlib.Data.List.DropRight

/-! # Bytes between the reports

The arrivals detected at successive BSRs account for the bytes granted between them. This needs
every BSR to be within the look-back of the next one, and no SR that the look-back takes for a
report.
-/

namespace Bullet.Trigger

open Mac Lib Lib.RecentHistory Lib.PartialRun

variable {z : ZScore} {s t u : BulletTrigger} {past older between : List SlotRecord}
  {cur r report : SlotRecord}

def bytes (input : TriggerInput) : Int := fromLevelToBytes input.bsr

/-- The slots since the last report, and the report itself, are not taken for later reports. -/
structure Since (between : List SlotRecord) (report : SlotRecord) (older : List SlotRecord) :
    Prop where
  reported : report.getBsr = true
  unreported : ∀ r ∈ between, r.getBsr = false
  near : between.length ≤ 97
  noSr : ∀ r ∈ between ++ report :: older.take 3, r.sr = false

theorem Since.not_reported (h : Since between report older) {j : ℕ} (hLow : 2 ≤ j)
    (hHigh : j < between.length + 2) :
    ¬ BulletTrigger.Reported (cur :: (between ++ report :: older)) j := by
  obtain ⟨i, rfl⟩ := Nat.exists_eq_add_of_le' hLow
  rintro (⟨r, hr, hTrue⟩ | ⟨r, hr, hTrue⟩)
  · have hIndex : i + 2 - 1 = i + 1 := rfl
    rw [hIndex, withBlanks_cons, List.getElem?_cons_succ,
      getElem?_withBlanks (by rw [List.length_append]; omega),
      List.getElem?_append_left (by omega)] at hr
    rw [h.unreported r (List.mem_of_getElem? hr)] at hTrue
    cases hTrue
  · have hLt := lt_of_withBlanks hr fun hEq => by rw [hEq] at hTrue; cases hTrue
    rw [getElem?_withBlanks hLt] at hr
    have hIndex : i + 2 + 3 = i + 4 + 1 := rfl
    rw [hIndex, List.getElem?_cons_succ] at hr
    have hTake : (between ++ report :: older.take 3)[i + 4]? = some r := by
      rw [← hr]
      by_cases hIn : i + 4 < between.length
      · rw [List.getElem?_append_left hIn, List.getElem?_append_left hIn]
      · rw [List.getElem?_append_right (by omega), List.getElem?_append_right (by omega),
          ← List.take_succ_cons, List.getElem?_take_of_lt (by omega)]
    rw [h.noSr r (List.mem_of_getElem? hTake)] at hTrue
    cases hTrue

/-- The arrival at a BSR, from the last report before it. -/
theorem Since.detectArrival (h : Since between report older)
    (hHolds : s.Holds (cur :: (between ++ report :: older))) (hGet : cur.getBsr = true)
    (hSr : cur.sr = false) :
    ∃ dOut granted, s.detectArrival = some (dOut, granted) ∧
      dOut.arrival = bytes cur.toTriggerInput - bytes report.toTriggerInput +
        (cur.alloc + (between.map (·.alloc)).sum) := by
  have hNear := h.near
  have hLength : (cur :: (between ++ report :: older)).length =
      between.length + older.length + 2 := by
    rw [List.length_cons, List.length_append, List.length_cons]
    omega
  have hReport : (withBlanks (cur :: (between ++ report :: older)))[between.length + 1]? =
      some report := by
    rw [withBlanks_cons, List.getElem?_cons_succ,
      getElem?_withBlanks (by rw [List.length_append, List.length_cons]; omega),
      List.getElem?_append_right (Nat.le_refl _), Nat.sub_self]
    rfl
  have hLast : s.lastBsrIndex = some (between.length + 2) :=
    hHolds.lastBsrIndex_of_reported (by omega) (by omega) (by omega)
      (Or.inl ⟨report, hReport, h.reported⟩) fun j hLow hLt => h.not_reported hLow hLt
  obtain ⟨b, hb, hDetect⟩ := hHolds.detect_of_last hGet hLast
  cases hReport.symm.trans hb
  have hWindow : ((withBlanks (cur :: (between ++ report :: older))).map (·.alloc)).take
      (between.length + 2 - 1) = cur.alloc :: between.map (·.alloc) := by
    have hIndex : between.length + 2 - 1 = between.length + 1 := rfl
    rw [hIndex, withBlanks, List.cons_append, List.append_assoc, List.map_cons, List.map_append,
      List.take_succ_cons, List.take_left' (List.length_map _)]
  rw [hWindow, List.sum_cons, BulletTrigger.srArrival, hSr] at hDetect
  refine ⟨_, _, hDetect, ?_⟩
  exact zero_add _

/-- The arrival of `cur` in a trace, when the trace before it ends with a report and slots that are
not reports. -/
def AccountedFor (before : List SlotTrace) (cur : SlotTrace) : Prop :=
  ∀ pre first between, before = pre ++ first :: between → first.getBsr = true →
    (∀ t ∈ between, t.getBsr = false) → between.length ≤ 97 →
    (∀ t ∈ pre.rtake 3 ++ first :: between, t.sr = false) →
    cur.getBsr = true → cur.sr = false →
    cur.arrival = bytes cur.toTriggerInput - bytes first.toTriggerInput +
      (cur.alloc + (between.map (·.alloc)).sum)

/-- The trace shows the history, and accounts for every arrival. -/
structure Traces (trace : List SlotTrace) (past : List SlotRecord) : Prop where
  inputs : trace.map (·.toTriggerInput) = (past.map (·.toTriggerInput)).reverse
  accounted : ∀ before cur after, trace = before ++ cur :: after → AccountedFor before cur

/-- A split of the trace is a split of the history. -/
theorem Traces.split {trace pre between : List SlotTrace} {first : SlotTrace}
    (h : Traces trace past) (hEq : trace = pre ++ first :: between) :
    ∃ between' report older, past = between' ++ report :: older ∧
      between'.map (·.toTriggerInput) = (between.map (·.toTriggerInput)).reverse ∧
      report.toTriggerInput = first.toTriggerInput ∧
      older.map (·.toTriggerInput) = (pre.map (·.toTriggerInput)).reverse := by
  have hInputs := congrArg List.reverse h.inputs
  rw [List.reverse_reverse, hEq, List.map_append, List.map_cons, List.reverse_append,
    List.reverse_cons, List.append_assoc, List.singleton_append] at hInputs
  obtain ⟨between', rest, rfl, hBetween, hRest⟩ := List.map_eq_append_iff.mp hInputs.symm
  obtain ⟨report, older, rfl, hReport, hOlder⟩ := List.map_eq_cons_iff.mp hRest
  exact ⟨between', report, older, rfl, hBetween, hReport, hOlder⟩

/-- A property of the inputs carries over between lists with the same inputs. -/
theorem forall_of_inputs {α β : Type*} {f : α → TriggerInput} {g : β → TriggerInput}
    {p : TriggerInput → Prop} {l : List α} {m : List β} (h : l.map f = (m.map g).reverse)
    (hAll : ∀ x ∈ m, p (g x)) : ∀ x ∈ l, p (f x) := by
  intro x hx
  have hMem : f x ∈ (m.map g).reverse := by
    rw [← h]
    exact List.mem_map_of_mem hx
  obtain ⟨y, hy, hEq⟩ := List.mem_map.mp (List.mem_reverse.mp hMem)
  rw [← hEq]
  exact hAll y hy

theorem sum_alloc_of_inputs {l : List SlotRecord} {m : List SlotTrace}
    (h : l.map (·.toTriggerInput) = (m.map (·.toTriggerInput)).reverse) :
    (l.map (·.alloc)).sum = (m.map (·.alloc)).sum := by
  have hAlloc := congrArg (fun inputs => (inputs.map (·.alloc)).sum) h
  simp only [List.map_map, List.map_reverse, List.sum_reverse] at hAlloc
  exact hAlloc

/-- The detection accounts for the arrival it returns. -/
theorem Traces.accountedFor {trace : List SlotTrace} (h : Traces trace past) {time : Int}
    {input : TriggerInput} (hHolds : s.Holds (⟨input, time⟩ :: past)) {dOut : DetectionOutput}
    {granted : Int} (hDetect : s.detectArrival = some (dOut, granted)) :
    AccountedFor trace ⟨input, dOut.arrival⟩ := by
  rintro pre first between hEq hFirst hBetween hNear hSr hGet hCur
  obtain ⟨between', report, older, rfl, hInputs, hReport, hOlder⟩ := h.split hEq
  have hLength := congrArg List.length hInputs
  rw [List.length_reverse, List.length_map, List.length_map] at hLength
  have hSince : Since between' report older := by
    constructor
    · rw [hReport]
      exact hFirst
    · exact forall_of_inputs (p := fun input => input.getBsr = false) hInputs hBetween
    · omega
    · refine forall_of_inputs (p := fun input => input.sr = false) ?_ hSr
      rw [List.map_append, List.map_cons, hInputs, hReport, List.map_take, hOlder,
        List.rtake_eq_reverse_take_reverse, List.map_append, List.map_cons, List.map_reverse,
        List.reverse_append, List.reverse_cons, List.append_assoc, List.reverse_reverse,
        List.map_take, List.map_reverse]
      rfl
  obtain ⟨dOut', granted', hDetect', hArrival⟩ := hSince.detectArrival hHolds hGet hCur
  cases hDetect.symm.trans hDetect'
  rw [sum_alloc_of_inputs hInputs, hReport] at hArrival
  exact hArrival

theorem Traces.push {trace : List SlotTrace} (h : Traces trace past) (time : Int)
    {input : TriggerInput} {arrival : Int} (hNew : AccountedFor trace ⟨input, arrival⟩) :
    Traces (trace ++ [⟨input, arrival⟩]) (⟨input, time⟩ :: past) where
  inputs := by
    rw [List.map_append, h.inputs]
    exact List.reverse_cons.symm
  accounted := by
    intro before cur after hEq
    obtain rfl | ⟨after', last, rfl⟩ := List.eq_nil_or_concat after
    · obtain ⟨rfl, hCur⟩ := List.append_inj' hEq rfl
      cases hCur
      exact hNew
    · rw [List.concat_eq_append, ← List.cons_append, ← List.append_assoc] at hEq
      obtain ⟨hEq, -⟩ := List.append_inj' hEq rfl
      exact h.accounted before cur after' hEq

/-- The bytes that the detections at the BSRs of some slots derive. -/
def arrivals (slots : List SlotTrace) : Int := ((slots.filter (·.getBsr)).map (·.arrival)).sum

/-- The bytes granted in some slots. -/
def granted (slots : List SlotTrace) : Int := (slots.map (·.alloc)).sum

theorem arrivals_cons_of_reported {slot : SlotTrace} {slots : List SlotTrace}
    (h : slot.getBsr = true) : arrivals (slot :: slots) = slot.arrival + arrivals slots := by
  rw [arrivals, List.filter_cons, if_pos h, List.map_cons, List.sum_cons]
  rfl

theorem arrivals_cons_of_unreported {slot : SlotTrace} {slots : List SlotTrace}
    (h : slot.getBsr = false) : arrivals (slot :: slots) = arrivals slots := by
  rw [arrivals, List.filter_cons, if_neg (by rw [h]; exact Bool.noConfusion)]
  rfl

theorem granted_append (l m : List SlotTrace) : granted (l ++ m) = granted l + granted m := by
  rw [granted, List.map_append, List.sum_append]
  rfl

theorem granted_cons (slot : SlotTrace) (slots : List SlotTrace) :
    granted (slot :: slots) = slot.alloc + granted slots := by
  rw [granted, List.map_cons, List.sum_cons]
  rfl

theorem mem_rtake_append {α : Type*} {n : ℕ} {l m : List α} {x : α}
    (h : x ∈ (l ++ m).rtake n) : x ∈ l.rtake n ++ m := by
  rw [List.rtake_eq_reverse_take_reverse, List.reverse_append, List.take_append, List.mem_reverse,
    List.mem_append] at h
  rw [List.mem_append, List.rtake_eq_reverse_take_reverse, List.mem_reverse]
  obtain hRight | hLeft := h
  · exact Or.inr (List.mem_reverse.mp (List.mem_of_mem_take hRight))
  · exact Or.inl (List.take_subset_take_left _ (Nat.sub_le _ _) hLeft)

/-- Slots that begin with a BSR, with BSRs at most `gap` slots apart and no SR from `lead` slots
before them. -/
structure Reporting (gap lead : ℕ) (pre : List SlotTrace) (first : SlotTrace)
    (slots : List SlotTrace) : Prop where
  reported : first.getBsr = true
  spaced : ∀ window, window <:+: slots → gap ≤ window.length → ∃ t ∈ window, t.getBsr = true
  noSr : ∀ t ∈ pre.rtake lead ++ first :: slots, t.sr = false

theorem Reporting.near {pre between slots : List SlotTrace} {first : SlotTrace}
    (h : Reporting 98 3 pre first (between ++ slots)) (hBetween : ∀ t ∈ between, t.getBsr = false) :
    between.length ≤ 97 := by
  by_contra hFar
  obtain ⟨t, ht, hTrue⟩ := h.spaced between (List.prefix_append between slots).isInfix (by omega)
  rw [hBetween t ht] at hTrue
  cases hTrue

/-- The next report starts over. -/
theorem Reporting.next {pre between slots : List SlotTrace} {first cur : SlotTrace}
    (h : Reporting 98 3 pre first (between ++ cur :: slots)) (hGet : cur.getBsr = true) :
    Reporting 98 3 (pre ++ first :: between) cur slots where
  reported := hGet
  spaced window hWindow hLong := by
    apply h.spaced window _ hLong
    have hSuffix : slots <:+ between ++ cur :: slots :=
      ⟨between ++ [cur], by rw [List.append_assoc]; rfl⟩
    exact hWindow.trans hSuffix.isInfix
  noSr t ht := by
    apply h.noSr
    rw [List.mem_append] at ht
    obtain hBefore | hAfter := ht
    · have hMem := mem_rtake_append hBefore
      rw [List.mem_append, List.mem_cons] at hMem ⊢
      rw [List.mem_append]
      exact hMem.imp_right fun hMem => hMem.imp_right Or.inl
    · rw [List.mem_append, List.mem_cons, List.mem_append]
      exact Or.inr (Or.inr (Or.inr hAfter))

theorem telescopes {trace pre between slots post : List SlotTrace} {first last : SlotTrace}
    (hAll : ∀ before cur after, trace = before ++ cur :: after → AccountedFor before cur)
    (hTrace : trace = pre ++ first :: (between ++ (slots ++ post)))
    (h : Reporting 98 3 pre first (between ++ slots))
    (hBetween : ∀ t ∈ between, t.getBsr = false)
    (hLast : (first :: (between ++ slots)).getLast? = some last) (hGet : last.getBsr = true) :
    arrivals slots =
      bytes last.toTriggerInput - bytes first.toTriggerInput + granted (between ++ slots) := by
  induction slots generalizing pre first between with
  | nil =>
    obtain rfl | ⟨between, t, rfl⟩ := List.eq_nil_or_concat between
    · have hEq : first = last := Option.some.inj hLast
      rw [hEq, sub_self]
      rfl
    · rw [List.append_nil, List.concat_eq_append, ← List.cons_append,
        List.getLast?_concat] at hLast
      cases hLast
      rw [hBetween last (by simp)] at hGet
      cases hGet
  | cons cur slots ih =>
    cases hCur : cur.getBsr with
    | true =>
      have hLast' : (cur :: slots).getLast? = some last := by
        rw [← hLast, ← List.cons_append, List.getLast?_append]
        rfl
      have hNext : Reporting 98 3 (pre ++ first :: between) cur ([] ++ slots) := h.next hCur
      have hRest := ih (by rw [hTrace]; simp) hNext (fun _ ht => by cases ht) hLast'
      have hArrival := hAll (pre ++ first :: between) cur (slots ++ post) (by rw [hTrace]; simp)
        pre first between rfl h.reported hBetween (h.near hBetween)
        (fun t ht => h.noSr t (by
          rw [← List.cons_append, ← List.append_assoc]
          exact List.mem_append_left _ ht)) hCur (h.noSr cur (by simp))
      rw [List.nil_append] at hRest
      rw [arrivals_cons_of_reported hCur, hRest, hArrival, ← granted, granted_append between,
        granted_cons cur]
      omega
    | false =>
      have hStep : between ++ cur :: slots = between ++ [cur] ++ slots := by
        rw [List.append_assoc]
        rfl
      rw [hStep] at h hLast ⊢
      rw [arrivals_cons_of_unreported hCur]
      apply ih _ h _ hLast
      · rw [hTrace]
        simp
      · intro t ht
        rw [List.mem_append, List.mem_singleton] at ht
        obtain hOld | rfl := ht
        · exact hBetween t hOld
        · exact hCur

namespace BulletTrigger

/-- The state has a history that its trace shows. -/
def Traced (s : BulletTrigger) : Prop := ∃ past, s.Holds past ∧ Traces s.trace past

theorem processor_traced {currentSlot : Int} {proactiveBsr : ℕ} (h : s.Traced)
    (hStep : s.processor z currentSlot proactiveBsr = some t) : t.Traced := by
  obtain ⟨past, hHolds, hTraces⟩ := h
  cases hDetect : (s.inputVariableTracer currentSlot s.tInput).detectArrival with
  | none =>
    rw [processor_eq_none hDetect] at hStep
    cases hStep
  | some result =>
    obtain ⟨t', hProcessor, hUpdates⟩ := hHolds.processor (z := z) proactiveBsr hDetect
    rw [hProcessor] at hStep
    cases hStep
    refine ⟨_, hUpdates.holds, ?_⟩
    rw [hUpdates.trace]
    exact hTraces.push currentSlot
      (hTraces.accountedFor (hHolds.push currentSlot s.tInput) hDetect)

theorem step_traced {e : Event} (h : s.Traced) (hStep : step z s e = some t) : t.Traced := by
  cases e with
  | slot currentSlot proactiveBsr => exact processor_traced h hStep
  | bsr _ | sr | grant _ | ack _ =>
    obtain ⟨past, hHolds, hTraces⟩ := h
    cases hStep
    exact ⟨past, hHolds.same ⟨rfl, rfl, rfl, rfl, rfl, rfl, rfl, rfl, rfl⟩, hTraces⟩

theorem create_traced {recentGranted confidentBsr currentSlot : Int} {proactiveBsr : ℕ}
    (h : create z recentGranted confidentBsr currentSlot proactiveBsr = some s) : s.Traced := by
  refine processor_traced ⟨[], inputParameterTracer_holds 5 recentGranted confidentBsr, rfl, ?_⟩ h
  intro before cur after hEq
  cases (List.append_eq_nil_iff.mp hEq.symm).2

/-- The whole run of a trigger, from its construction on. -/
def history (z : ZScore) (recentGranted confidentBsr currentSlot : Int) (proactiveBsr : ℕ)
    (events : List Event) : Option BulletTrigger :=
  (create z recentGranted confidentBsr currentSlot proactiveBsr).bind (run (step z) · events)

theorem arrivals_conserved {recentGranted confidentBsr currentSlot : Int} {proactiveBsr : ℕ}
    {events : List Event} {pre slots post : List SlotTrace} {first last : SlotTrace}
    (hRun : history z recentGranted confidentBsr currentSlot proactiveBsr events = some u)
    (hTrace : u.trace = pre ++ first :: (slots ++ post)) (h : Reporting 98 3 pre first slots)
    (hLast : (first :: slots).getLast? = some last) (hGet : last.getBsr = true) :
    arrivals slots =
      bytes last.toTriggerInput - bytes first.toTriggerInput + granted slots := by
  obtain ⟨s, hCreate, hRest⟩ := Option.bind_eq_some_iff.mp hRun
  obtain ⟨past, -, hTraces⟩ :=
    invariant_of_step (fun _ _ _ hInv hStep => step_traced hInv hStep) (create_traced hCreate) hRest
  have hStart : Reporting 98 3 pre first ([] ++ slots) := h
  exact telescopes hTraces.accounted hTrace hStart (fun _ ht => by cases ht) hLast hGet

/-- Two reports, with grants in the slot between them and in the slot of the second. -/
theorem arrivals_conserved_two_reports :
    ∃ u, history ⟨fun _ => 0, rfl⟩ 0 0 0 0
        [.sr, .slot 1 0, .slot 2 0, .slot 3 0, .slot 4 0, .slot 5 0, .bsr 5, .slot 6 0,
          .grant 1000, .slot 7 0, .bsr 9, .grant 500, .slot 8 0] = some u ∧
      arrivals (u.trace.drop 7) = 142 - 38 + 1500 := by
  have hRun : (history ⟨fun _ => 0, rfl⟩ 0 0 0 0
      [.sr, .slot 1 0, .slot 2 0, .slot 3 0, .slot 4 0, .slot 5 0, .bsr 5, .slot 6 0, .grant 1000,
        .slot 7 0, .bsr 9, .grant 500, .slot 8 0]).map (·.trace) =
      some ([{ arrival := 0 }, { sr := true, arrival := 50 }, { arrival := 0 }, { arrival := 0 },
        { arrival := 0 }, { arrival := 0 }] ++ { bsr := 5, getBsr := true, arrival := 38 } ::
          ([{ bsr := 5, alloc := 1000, arrival := 0 },
            { bsr := 9, getBsr := true, alloc := 500, arrival := 1604 }] ++ [])) := by
    decide +kernel
  obtain ⟨u, hRun, hTrace⟩ := Option.map_eq_some_iff.mp hRun
  refine ⟨u, hRun, ?_⟩
  rw [hTrace]
  refine arrivals_conserved hRun hTrace ⟨rfl, fun window hWindow hLong => ?_, by decide⟩ rfl rfl
  have hLe := hWindow.length_le
  rw [List.length_cons, List.length_singleton] at hLe
  omega

/-- A report 99 slots after the last one does not find it, and a report that an SR came shortly
before is not found. -/
theorem arrivals_not_conserved :
    (∃ u pre first slots last, history ⟨fun _ => 0, rfl⟩ 0 0 0 0
        ([.sr, .slot 1 0, .slot 2 0, .slot 3 0, .slot 4 0, .slot 5 0, .bsr 5, .slot 6 0] ++
          (List.range 98).map (fun i => .slot (7 + i) 0) ++
          [.grant 1000, .bsr 5, .slot 105 0]) = some u ∧
      u.trace = pre ++ first :: slots ∧ Reporting 99 3 pre first slots ∧
      (first :: slots).getLast? = some last ∧ last.getBsr = true ∧
      arrivals slots ≠
        bytes last.toTriggerInput - bytes first.toTriggerInput + granted slots) ∧
    (∃ u pre first slots last, history ⟨fun _ => 0, rfl⟩ 0 0 0 0
        [.sr, .slot 1 0, .slot 2 0, .slot 3 0, .slot 4 0, .sr, .slot 5 0, .bsr 5, .slot 6 0,
          .grant 1000, .slot 7 0, .slot 8 0, .slot 9 0, .bsr 5, .slot 10 0] = some u ∧
      u.trace = pre ++ first :: slots ∧ Reporting 98 0 pre first slots ∧
      (first :: slots).getLast? = some last ∧ last.getBsr = true ∧
      arrivals slots ≠
        bytes last.toTriggerInput - bytes first.toTriggerInput + granted slots) := by
  constructor
  · have hRun : (history ⟨fun _ => 0, rfl⟩ 0 0 0 0
        ([.sr, .slot 1 0, .slot 2 0, .slot 3 0, .slot 4 0, .slot 5 0, .bsr 5, .slot 6 0] ++
          (List.range 98).map (fun i => .slot (7 + i) 0) ++
          [.grant 1000, .bsr 5, .slot 105 0])).map (·.trace) =
        some ([{ arrival := 0 }, { sr := true, arrival := 50 }, { arrival := 0 }, { arrival := 0 },
          { arrival := 0 }, { arrival := 0 }] ++ { bsr := 5, getBsr := true, arrival := 38 } ::
            (List.replicate 98 { bsr := 5, arrival := 0 } ++
              [{ bsr := 5, getBsr := true, alloc := 1000, arrival := 0 }])) := by
      decide +kernel
    obtain ⟨u, hRun, hTrace⟩ := Option.map_eq_some_iff.mp hRun
    refine ⟨u, _, _, _, { bsr := 5, getBsr := true, alloc := 1000, arrival := 0 }, hRun, hTrace,
      ⟨rfl, fun window hWindow hLong => ?_, by decide +kernel⟩, by decide +kernel, rfl,
      by decide +kernel⟩
    have hAll := hWindow.eq_of_length_le hLong
    rw [hAll]
    exact ⟨_, List.mem_concat_self, rfl⟩
  · have hRun : (history ⟨fun _ => 0, rfl⟩ 0 0 0 0
        [.sr, .slot 1 0, .slot 2 0, .slot 3 0, .slot 4 0, .sr, .slot 5 0, .bsr 5, .slot 6 0,
          .grant 1000, .slot 7 0, .slot 8 0, .slot 9 0, .bsr 5, .slot 10 0]).map (·.trace) =
        some ([{ arrival := 0 }, { sr := true, arrival := 50 }, { arrival := 0 }, { arrival := 0 },
          { arrival := 0 }, { sr := true, arrival := 50 }] ++
            { bsr := 5, getBsr := true, arrival := 38 } ::
              [{ bsr := 5, alloc := 1000, arrival := 0 }, { bsr := 5, arrival := 0 },
                { bsr := 5, arrival := 0 }, { bsr := 5, getBsr := true, arrival := 0 }]) := by
      decide +kernel
    obtain ⟨u, hRun, hTrace⟩ := Option.map_eq_some_iff.mp hRun
    refine ⟨u, _, _, _, _, hRun, hTrace, ⟨rfl, fun window hWindow hLong => ?_, by decide⟩, rfl, rfl,
      by decide⟩
    have hLe := hWindow.length_le
    rw [List.length_cons, List.length_cons, List.length_cons, List.length_singleton] at hLe
    omega

end BulletTrigger
end Bullet.Trigger
