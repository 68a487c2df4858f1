import Bullet.Mac.LifecycleRuns
import Bullet.Phy.TddPattern
import Mathlib.Algebra.Order.BigOperators.Group.List

/-! # UL grants that wait for a CQI

The UL trigger of a slot records the data grants of the slot, and each CQI takes those that start at
its symbol; the slot is forgotten with the last of them. A slot without data grants is forgotten
only when its DL part is scheduled after its UL part, and only if it has no SRS.
-/

namespace Bullet.Mac

open Lib Lib.PartialRun Phy Trigger

/-- A scheduler with the data grants of the slots whose UL part has been scheduled, the slots whose
DL part has been, the CQIs that have come, and the grants that they were computed for. -/
structure UlAllocations where
  scheduler : NrMacSchedulerNs3 := {}
  granted : UInt64 → Option (List AllocElem) := fun _ => none
  dlScheduled : List UInt64 := []
  reported : List (UInt64 × UInt8) := []
  computed : List (UInt64 × AllocElem) := []

/-- The grants that a CQI is computed for. -/
def NrMacSchedulerNs3.cqiGrants (s : NrMacSchedulerNs3) (sfn : UInt64) (symStart : UInt8) :
    List AllocElem :=
  (s.ulAllocationMap.lookup sfn).elim [] (·.ulAllocations.filter (·.symStart = symStart))

namespace UlAllocations

def step (cfg : LifecycleConfig) (s : UlAllocations) (e : SchedulerEvent) :
    Option UlAllocations := do
  let scheduler ← s.scheduler.step cfg e
  let s' := { s with scheduler := scheduler }
  match e with
  | .ulTriggerReq sfn _ choices _ _ => do
    let allocations ← (choices.filterMap SlotChoice.grant).mapM AllocElem.ofDci
    some { s' with granted := Function.update s.granted sfn (some allocations) }
  | .dlTriggerReq sfn _ _ _ => some { s' with dlScheduled := s.dlScheduled ++ [sfn] }
  | .ulCqiInfoReq sfn symStart => some { s' with
      reported := s.reported ++ [(sfn, symStart)]
      computed := s.computed ++ (s.scheduler.cqiGrants sfn symStart).map (sfn, ·) }
  | _ => some s'

def grantsOf (s : UlAllocations) (sfn : UInt64) : List AllocElem := (s.granted sfn).getD []

/-- The symbols of a UL slot: one for control, as the trigger asserts, and before it those of SRS and
data. A data grant is not empty. -/
structure UlSymbols (cfg : LifecycleConfig) (choices : List SlotChoice)
    (srs : List DciInfoElementTdma) (ctrl : DciInfoElementTdma) : Prop where
  ulCtrlSymbols : cfg.ulCtrlSymbols = 1
  numSym : ctrl.numSym = 1
  before : ∀ dci ∈ srs ++ choices.filterMap SlotChoice.grant,
    dci.symStart < ctrl.symStart ∧ 0 < dci.numSym ∧ dci.numSym ≤ 14
  tbs : ∀ dci ∈ choices.filterMap SlotChoice.grant, ∀ tbs ∈ dci.tbSize[0]?, 0 < tbs

theorem ulSymbols_iff (cfg : LifecycleConfig) (choices : List SlotChoice)
    (srs : List DciInfoElementTdma) (ctrl : DciInfoElementTdma) : UlSymbols cfg choices srs ctrl ↔
      cfg.ulCtrlSymbols = 1 ∧ ctrl.numSym = 1 ∧
        (∀ dci ∈ srs ++ choices.filterMap SlotChoice.grant,
          dci.symStart < ctrl.symStart ∧ 0 < dci.numSym ∧ dci.numSym ≤ 14) ∧
        ∀ dci ∈ choices.filterMap SlotChoice.grant, dci.tbSize[0]?.all (0 < ·) = true := by
  simp only [Option.all_eq_true, decide_eq_true_eq]
  exact ⟨fun h => ⟨h.1, h.2, h.3, h.4⟩, fun h => ⟨h.1, h.2.1, h.2.2.1, h.2.2.2⟩⟩

instance (cfg : LifecycleConfig) (choices : List SlotChoice) (srs : List DciInfoElementTdma)
    (ctrl : DciInfoElementTdma) : Decidable (UlSymbols cfg choices srs ctrl) :=
  decidable_of_iff _ (ulSymbols_iff cfg choices srs ctrl).symm

/-- The UL part of a slot is scheduled once, in a slot that has one, as is its DL part; a CQI comes
once for each symbol at which data grants of the slot start; users stay. -/
def Met (cfg : LifecycleConfig) (slotType : UInt64 → LteNrTddSlotType) (s : UlAllocations) :
    SchedulerEvent → Prop
  | .ueReleaseReq _ => False
  | .ulTriggerReq sfn _ choices _ dcis =>
    (slotType sfn = .ul ∨ slotType sfn = .f) ∧ s.granted sfn = none ∧
      ∃ ctrl ∈ dcis.getLast?, UlSymbols cfg choices dcis.dropLast ctrl
  | .dlTriggerReq sfn special _ _ =>
    slotType sfn ≠ .ul ∧ special = decide (slotType sfn = .s)
  | .ulCqiInfoReq sfn symStart =>
    (∃ a ∈ s.grantsOf sfn, a.symStart = symStart) ∧ (sfn, symStart) ∉ s.reported
  | _ => True

instance (cfg : LifecycleConfig) (slotType : UInt64 → LteNrTddSlotType) (s : UlAllocations) :
    ∀ e, Decidable (s.Met cfg slotType e)
  | .ueReleaseReq _ => inferInstanceAs (Decidable False)
  | .ulTriggerReq sfn _ choices _ dcis =>
    inferInstanceAs (Decidable ((slotType sfn = .ul ∨ slotType sfn = .f) ∧ s.granted sfn = none ∧
      ∃ ctrl ∈ dcis.getLast?, UlSymbols cfg choices dcis.dropLast ctrl))
  | .dlTriggerReq sfn special _ _ =>
    inferInstanceAs (Decidable (slotType sfn ≠ .ul ∧ special = decide (slotType sfn = .s)))
  | .ulCqiInfoReq sfn symStart =>
    inferInstanceAs (Decidable ((∃ a ∈ s.grantsOf sfn, a.symStart = symStart) ∧
      (sfn, symStart) ∉ s.reported))
  | .ueConfigReq _ _ _ => inferInstanceAs (Decidable True)
  | .ulSrInfoReq _ => inferInstanceAs (Decidable True)
  | .triggerSlot _ _ => inferInstanceAs (Decidable True)

/-- A slot without data grants has a DL part that is still to be scheduled, and no SRS. -/
def Collected (slotType : UInt64 → LteNrTddSlotType) (s : UlAllocations) : SchedulerEvent → Prop
  | .ulTriggerReq sfn _ choices _ dcis => choices.filterMap SlotChoice.grant ≠ [] ∨
      slotType sfn = .f ∧ sfn ∉ s.dlScheduled ∧ dcis.length = 1
  | _ => True

instance (slotType : UInt64 → LteNrTddSlotType) (s : UlAllocations) :
    ∀ e, Decidable (s.Collected slotType e)
  | .ulTriggerReq sfn _ choices _ dcis =>
    inferInstanceAs (Decidable (choices.filterMap SlotChoice.grant ≠ [] ∨
      slotType sfn = .f ∧ sfn ∉ s.dlScheduled ∧ dcis.length = 1))
  | .ueReleaseReq _ => inferInstanceAs (Decidable True)
  | .dlTriggerReq _ _ _ _ => inferInstanceAs (Decidable True)
  | .ulCqiInfoReq _ _ => inferInstanceAs (Decidable True)
  | .ueConfigReq _ _ _ => inferInstanceAs (Decidable True)
  | .ulSrInfoReq _ => inferInstanceAs (Decidable True)
  | .triggerSlot _ _ => inferInstanceAs (Decidable True)

/-- A CQI that is still to come finds grants; the CQIs that have come were computed for their
grants, once for each; a slot whose grants have all got their CQI, and whose DL part has been
scheduled, is forgotten. -/
structure Right (slotType : UInt64 → LteNrTddSlotType) (s : UlAllocations) : Prop where
  finds : ∀ sfn, ∀ a ∈ s.grantsOf sfn, (sfn, a.symStart) ∉ s.reported →
    (s.scheduler.doSchedUlCqiInfoReq sfn a.symStart).isSome
  once : ∀ sfn, ((s.computed.filter (·.1 = sfn)).map Prod.snd).Perm
    ((s.grantsOf sfn).filter fun a => (sfn, a.symStart) ∈ s.reported)
  forgotten : ∀ sfn, (∀ a ∈ s.grantsOf sfn, (sfn, a.symStart) ∈ s.reported) →
    (slotType sfn ≠ .ul → sfn ∈ s.dlScheduled) → s.scheduler.ulAllocationMap.lookup sfn = none

/-! ## The symbols of a slot -/

theorem foldl_add_toNat {l : List UInt8} {start : UInt8}
    (hFit : start.toNat + (l.map UInt8.toNat).sum < 256) :
    (l.foldl (· + ·) start).toNat = start.toNat + (l.map UInt8.toNat).sum := by
  induction l generalizing start with
  | nil => rfl
  | cons x l ih =>
    rw [List.map_cons, List.sum_cons] at hFit ⊢
    have hAdd : (start + x).toNat = start.toNat + x.toNat := by
      rw [UInt8.toNat_add]
      omega
    rw [List.foldl_cons, ih (by omega), hAdd]
    omega

/-- Two entries that are not 0 count for two at least. -/
theorem two_le_sum {l : List ℕ} {i j : ℕ} (hLt : i < j) {x y : ℕ} (hI : l[i]? = some x)
    (hJ : l[j]? = some y) (hX : 0 < x) (hY : 0 < y) : 2 ≤ l.sum := by
  have hTake : (l.take j)[i]? = some x := by rw [List.getElem?_take_of_lt hLt, hI]
  have hDrop : (l.drop j)[0]? = some y := by rw [List.getElem?_drop, Nat.add_zero, hJ]
  have hLeft := List.le_sum_of_mem (List.mem_of_getElem? hTake)
  have hRight := List.le_sum_of_mem (List.mem_of_getElem? hDrop)
  have hSum := List.sum_take_add_sum_drop l j
  omega

/-- The symbols of a slot are not too many for their count, and each grant has its own. -/
theorem symToAl_spec {dcis : List DciInfoElementTdma} {symbols : List UInt8}
    (h : NrMacSchedulerNs3.symToAl dcis = some symbols)
    (hSize : ∀ dci ∈ dcis, 0 < dci.numSym ∧ dci.numSym ≤ 14) :
    symbols.length = 15 ∧ (∀ x ∈ symbols, x ≤ 14) ∧
      ∀ dci ∈ dcis, ∃ x, symbols[dci.symStart.toNat]? = some x ∧ 0 < x := by
  suffices hFold : ∀ (acc : List UInt8), acc.length = 15 → (∀ x ∈ acc, x ≤ 14) →
      dcis.foldlM (fun symbols dci => if dci.symStart.toNat < 15 then
        some (symbols.set dci.symStart.toNat dci.numSym) else none) acc = some symbols →
      symbols.length = 15 ∧ (∀ x ∈ symbols, x ≤ 14) ∧
        ∀ i, (∃ x, acc[i]? = some x ∧ 0 < x) ∨ (∃ dci ∈ dcis, dci.symStart.toNat = i) →
          ∃ x, symbols[i]? = some x ∧ 0 < x by
    obtain ⟨hLength, hSmall, hMarked⟩ := hFold _ (List.length_replicate ..)
      (fun x hMem => by rw [List.eq_of_mem_replicate hMem]; decide) h
    exact ⟨hLength, hSmall, fun dci hMem => hMarked _ (Or.inr ⟨dci, hMem, rfl⟩)⟩
  clear h
  induction dcis with
  | nil =>
    intro acc hLength hSmall hFold
    cases hFold
    exact ⟨hLength, hSmall, fun i hMarked => hMarked.resolve_right (by simp)⟩
  | cons dci dcis ih =>
    intro acc hLength hSmall hFold
    obtain ⟨next, hNext, hFold⟩ := Option.bind_eq_some_iff.mp hFold
    obtain ⟨hLt, hNext⟩ := Option.ite_none_right_eq_some.mp hNext
    cases hNext
    obtain ⟨hPos, hLe⟩ := hSize dci List.mem_cons_self
    obtain ⟨hLength', hSmall', hMarked⟩ := ih
      (fun d hMem => hSize d (List.mem_cons_of_mem _ hMem)) _ (by rw [List.length_set, hLength])
      (fun x hMem => (List.mem_or_eq_of_mem_set hMem).elim (hSmall x) fun hEq => hEq ▸ hLe) hFold
    refine ⟨hLength', hSmall', fun i hI => hMarked i ?_⟩
    by_cases hOwn : dci.symStart.toNat = i
    · left
      rw [hOwn, List.getElem?_set_self (by omega)]
      exact ⟨_, rfl, hPos⟩
    · obtain ⟨x, hX, hXPos⟩ | ⟨d, hMem, hD⟩ := hI
      · left
        rw [List.getElem?_set_ne hOwn]
        exact ⟨x, hX, hXPos⟩
      · right
        obtain rfl | hMem := List.mem_cons.mp hMem
        · exact absurd hD hOwn
        · exact ⟨d, hMem, hD⟩

/-- A grant before the control symbol makes the slot have more symbols than the one for control. -/
theorem one_lt_totUlSym {dcis : List DciInfoElementTdma} {symbols : List UInt8}
    (h : NrMacSchedulerNs3.symToAl dcis = some symbols)
    (hSize : ∀ dci ∈ dcis, 0 < dci.numSym ∧ dci.numSym ≤ 14) {ctrl dci : DciInfoElementTdma}
    (hCtrl : ctrl ∈ dcis) (hDci : dci ∈ dcis) (hBefore : dci.symStart < ctrl.symStart) :
    1 < symbols.foldl (· + ·) 0 := by
  obtain ⟨hLength, hSmall, hMarked⟩ := symToAl_spec h hSize
  obtain ⟨x, hX, hXPos⟩ := hMarked dci hDci
  obtain ⟨y, hY, hYPos⟩ := hMarked ctrl hCtrl
  have hSum := List.sum_le_card_nsmul (symbols.map UInt8.toNat) 14 fun n hMem => by
    obtain ⟨z, hZ, rfl⟩ := List.mem_map.mp hMem
    exact hSmall z hZ
  rw [List.length_map, hLength] at hSum
  change _ ≤ 15 * 14 at hSum
  have hEntry : (symbols.map UInt8.toNat)[dci.symStart.toNat]? = some x.toNat := by
    rw [List.getElem?_map, hX]
    rfl
  have hLast : (symbols.map UInt8.toNat)[ctrl.symStart.toNat]? = some y.toNat := by
    rw [List.getElem?_map, hY]
    rfl
  have hTwo := two_le_sum hBefore hEntry hLast hXPos hYPos
  have hTotal : (symbols.foldl (· + ·) 0).toNat = 0 + (symbols.map UInt8.toNat).sum :=
    foldl_add_toNat (by change 0 + _ < 256; omega)
  rw [UInt8.lt_iff_toNat_lt, hTotal]
  change 1 < 0 + _
  omega

theorem totUlSym_ctrl {ctrl : DciInfoElementTdma} {symbols : List UInt8} (hOne : ctrl.numSym = 1)
    (h : NrMacSchedulerNs3.symToAl [ctrl] = some symbols) : symbols.foldl (· + ·) 0 = 1 := by
  obtain ⟨next, hNext, hEnd⟩ := Option.bind_eq_some_iff.mp h
  obtain ⟨hLt, hNext⟩ := Option.ite_none_right_eq_some.mp hNext
  cases hNext
  cases hEnd
  have hAll : ∀ i : Fin 15, ((List.replicate 15 (0 : UInt8)).set i 1).foldl (· + ·) 0 = 1 := by
    decide
  rw [hOne]
  exact hAll ⟨_, hLt⟩

/-! ## What every request keeps -/

/-- The grants of a slot whose CQI is still to come. -/
def pending (s : UlAllocations) (sfn : UInt64) : List AllocElem :=
  (s.grantsOf sfn).filter fun a => (sfn, a.symStart) ∉ s.reported

variable {cfg : LifecycleConfig} {slotType : UInt64 → LteNrTddSlotType} {s t : UlAllocations}
  {sfn : UInt64}

theorem mem_pending {a : AllocElem} :
    a ∈ s.pending sfn ↔ a ∈ s.grantsOf sfn ∧ (sfn, a.symStart) ∉ s.reported := by
  rw [pending, List.mem_filter, decide_eq_true_iff]

/-- What the scheduler keeps for a slot: the grants whose CQI is still to come, or nothing, or,
until the DL part is scheduled, the symbol for control. -/
inductive Kept (cfg : LifecycleConfig) (slotType : UInt64 → LteNrTddSlotType) (s : UlAllocations)
    (sfn : UInt64) : Prop
  | waits (totUlSym : UInt8) (hPending : s.pending sfn ≠ [])
      (hLookup : s.scheduler.ulAllocationMap.lookup sfn = some ⟨totUlSym, s.pending sfn⟩)
      (hMore : cfg.ulCtrlSymbols < totUlSym)
  | forgotten (hPending : s.pending sfn = [])
      (hLookup : s.scheduler.ulAllocationMap.lookup sfn = none)
  | control (totUlSym : UInt8) (hType : slotType sfn = .f) (hDl : sfn ∉ s.dlScheduled)
      (hGranted : s.granted sfn = some [])
      (hLookup : s.scheduler.ulAllocationMap.lookup sfn = some ⟨totUlSym, []⟩)
      (hNoMore : totUlSym ≤ cfg.ulCtrlSymbols)

structure TracksSlot (cfg : LifecycleConfig) (slotType : UInt64 → LteNrTddSlotType)
    (s : UlAllocations) (sfn : UInt64) : Prop where
  sized : ∀ a ∈ s.grantsOf sfn, 0 < a.numSym ∧ 0 < a.tbs
  hasUl : s.granted sfn ≠ none → slotType sfn = .ul ∨ slotType sfn = .f
  asked : ∀ symStart, (sfn, symStart) ∈ s.reported → s.granted sfn ≠ none
  kept : s.Kept cfg slotType sfn
  computed : ((s.computed.filter (·.1 = sfn)).map Prod.snd).Perm
    ((s.grantsOf sfn).filter fun a => (sfn, a.symStart) ∈ s.reported)

structure Tracks (cfg : LifecycleConfig) (slotType : UInt64 → LteNrTddSlotType)
    (s : UlAllocations) : Prop where
  known : s.scheduler.Known
  slot : ∀ sfn, s.TracksSlot cfg slotType sfn

theorem tracks_init : Tracks cfg slotType {} where
  known := NrMacSchedulerNs3.known_init
  slot _ :=
    { sized := nofun
      hasUl := fun hGranted => absurd rfl hGranted
      asked := nofun
      kept := .forgotten rfl rfl
      computed := .refl _ }

/-- A request that is not about the slot leaves what is tracked of it. -/
theorem TracksSlot.frame (h : s.TracksSlot cfg slotType sfn)
    (hGranted : t.granted sfn = s.granted sfn)
    (hReported : ∀ symStart, (sfn, symStart) ∈ t.reported ↔ (sfn, symStart) ∈ s.reported)
    (hDl : sfn ∈ t.dlScheduled ↔ sfn ∈ s.dlScheduled)
    (hLookup : t.scheduler.ulAllocationMap.lookup sfn = s.scheduler.ulAllocationMap.lookup sfn)
    (hComputed : t.computed.filter (·.1 = sfn) = s.computed.filter (·.1 = sfn)) :
    t.TracksSlot cfg slotType sfn := by
  have hGrants : t.grantsOf sfn = s.grantsOf sfn := by rw [grantsOf, hGranted, grantsOf]
  have hPending : t.pending sfn = s.pending sfn := by
    rw [pending, pending, hGrants]
    simp only [hReported]
  constructor
  · rw [hGrants]
    exact h.sized
  · rw [hGranted]
    exact h.hasUl
  · intro symStart hMem
    rw [hGranted]
    exact h.asked symStart ((hReported symStart).mp hMem)
  · cases h.kept with
    | waits totUlSym hSome hKept hMore =>
      exact .waits totUlSym (hPending ▸ hSome) (by rw [hLookup, hKept, hPending]) hMore
    | forgotten hNone hKept => exact .forgotten (hPending.trans hNone) (hLookup.trans hKept)
    | control totUlSym hType hNotDl hEmpty hKept hNoMore =>
      exact .control totUlSym hType (mt hDl.mp hNotDl) (hGranted.trans hEmpty)
        (hLookup.trans hKept) hNoMore
  · rw [hComputed, hGrants]
    simp only [hReported]
    exact h.computed

/-! ## The DL part of a slot -/

theorem lookup_putUlAllocation (m : AList fun _ : UInt64 => SlotElem) (sfn' : UInt64)
    (elem : SlotElem) :
    (NrMacSchedulerNs3.putUlAllocation cfg m sfn elem).lookup sfn' =
      if sfn' = sfn then (if elem.totUlSym ≤ cfg.ulCtrlSymbols then none else some elem)
      else m.lookup sfn' := by
  unfold NrMacSchedulerNs3.putUlAllocation
  by_cases hSame : sfn' = sfn
  · rw [if_pos hSame, hSame]
    split
    · exact AList.lookup_erase ..
    · exact AList.lookup_insert ..
  · rw [if_neg hSame]
    split
    · exact AList.lookup_erase_ne hSame
    · exact AList.lookup_insert_ne hSame

theorem Tracks.dlTriggerReq (h : s.Tracks cfg slotType) {special : Bool}
    {received : List HarqFeedback} {choices : List SlotChoice}
    (hMet : s.Met cfg slotType (.dlTriggerReq sfn special received choices))
    (hStep : s.step cfg (.dlTriggerReq sfn special received choices) = some t) :
    t.Tracks cfg slotType := by
  obtain ⟨scheduler, hSched, hStep⟩ := Option.bind_eq_some_iff.mp hStep
  have hKnown := h.known.dlTriggerReq hSched
  obtain ⟨⟨ueMap, kept⟩, -, hSched⟩ := Option.bind_eq_some_iff.mp hSched
  cases hSched
  cases hStep
  obtain ⟨hDlPart, hSpecial⟩ := hMet
  refine ⟨hKnown, fun sfn' => ?_⟩
  by_cases hSame : sfn' = sfn
  · subst hSame
    have hSlot := h.slot sfn'
    refine ⟨hSlot.sized, hSlot.hasUl, hSlot.asked, ?_, hSlot.computed⟩
    cases hSlot.kept with
    | waits totUlSym hSome hLookup hMore =>
      have hGranted : s.granted sfn' ≠ none := by
        intro hNone
        rw [pending, grantsOf, hNone] at hSome
        exact hSome rfl
      have hPlain : special = false := by
        rw [hSpecial, decide_eq_false_iff_not]
        intro hS
        obtain hUl | hF := hSlot.hasUl hGranted
        · exact hDlPart hUl
        · rw [hF] at hS
          cases hS
      refine .waits totUlSym hSome ?_ hMore
      rw [lookup_putUlAllocation, if_pos rfl, hLookup, hPlain]
      exact if_neg (UInt8.not_le.mpr hMore)
    | forgotten hNone hLookup =>
      refine .forgotten hNone ?_
      rw [lookup_putUlAllocation, if_pos rfl, hLookup]
      refine if_pos ?_
      cases special with
      | false => exact UInt8.zero_le
      | true => simp
    | control totUlSym hType hNotDl hGranted hLookup hNoMore =>
      refine .forgotten ?_ ?_
      · change (s.grantsOf sfn').filter _ = []
        rw [grantsOf, hGranted]
        rfl
      · have hPlain : special = false := by
          rw [hSpecial, hType]
          rfl
        rw [lookup_putUlAllocation, if_pos rfl, hLookup, hPlain]
        exact if_pos hNoMore
  · refine (h.slot sfn').frame rfl (fun _ => Iff.rfl) ?_ ?_ rfl
    · simp [hSame]
    · rw [lookup_putUlAllocation, if_neg hSame]

/-! ## The UL part of a slot -/

/-- What the UL trigger records. -/
theorem doSchedUlTriggerReq_records {s t : NrMacSchedulerNs3} {received : List HarqFeedback}
    {choices : List SlotChoice} {srServed : Bool} {dcis : List DciInfoElementTdma}
    (h : s.doSchedUlTriggerReq cfg sfn received choices srServed dcis = some t)
    (hNew : s.ulAllocationMap.lookup sfn = none) {allocations : List AllocElem}
    (hAllocations : (choices.filterMap SlotChoice.grant).mapM AllocElem.ofDci = some allocations) :
    ∃ symbols,
      NrMacSchedulerNs3.symToAl (dcis ++ choices.filterMap SlotChoice.grant) = some symbols ∧
        t.ulAllocationMap =
          s.ulAllocationMap.insert sfn ⟨symbols.foldl (· + ·) 0, allocations⟩ := by
  obtain ⟨⟨ueMap, kept⟩, -, h⟩ := Option.bind_eq_some_iff.mp h
  dsimp only at h
  split at h
  · cases h
  obtain ⟨allocations', hAgain, h⟩ := Option.bind_eq_some_iff.mp h
  obtain ⟨symbols, hSymbols, h⟩ := Option.bind_eq_some_iff.mp h
  cases hAllocations.symm.trans hAgain
  cases h
  refine ⟨symbols, hSymbols, ?_⟩
  rw [hNew]
  rfl

namespace UlSymbols

variable {choices : List SlotChoice} {srs : List DciInfoElementTdma} {ctrl : DciInfoElementTdma}
  {symbols : List UInt8}

theorem lt_totUlSym (h : UlSymbols cfg choices srs ctrl)
    (hSymbols : NrMacSchedulerNs3.symToAl (srs ++ [ctrl] ++ choices.filterMap SlotChoice.grant) =
      some symbols)
    (hData : choices.filterMap SlotChoice.grant ≠ []) :
    cfg.ulCtrlSymbols < symbols.foldl (· + ·) 0 := by
  obtain ⟨dci, hDci⟩ := List.exists_mem_of_ne_nil _ hData
  have hSize : ∀ d ∈ srs ++ [ctrl] ++ choices.filterMap SlotChoice.grant,
      0 < d.numSym ∧ d.numSym ≤ 14 := by
    intro d hMem
    by_cases hCtrl : d = ctrl
    · rw [hCtrl, h.numSym]
      decide
    · exact (h.before d (by simpa [hCtrl] using hMem)).2
  rw [h.ulCtrlSymbols]
  exact one_lt_totUlSym hSymbols hSize (by simp) (List.mem_append_right _ hDci)
    (h.before dci (List.mem_append_right _ hDci)).1

/-- The control symbol alone is no more than itself. -/
theorem totUlSym_le (h : UlSymbols cfg choices [] ctrl)
    (hSymbols : NrMacSchedulerNs3.symToAl ([] ++ [ctrl] ++ choices.filterMap SlotChoice.grant) =
      some symbols)
    (hNone : choices.filterMap SlotChoice.grant = []) :
    symbols.foldl (· + ·) 0 ≤ cfg.ulCtrlSymbols := by
  rw [hNone] at hSymbols
  rw [totUlSym_ctrl h.numSym hSymbols, h.ulCtrlSymbols]
  exact UInt8.le_refl 1

end UlSymbols

theorem Tracks.ulTriggerReq (h : s.Tracks cfg slotType) {received : List HarqFeedback}
    {choices : List SlotChoice} {srServed : Bool} {dcis : List DciInfoElementTdma}
    (hMet : s.Met cfg slotType (.ulTriggerReq sfn received choices srServed dcis))
    (hCollected : s.Collected slotType (.ulTriggerReq sfn received choices srServed dcis))
    (hStep : s.step cfg (.ulTriggerReq sfn received choices srServed dcis) = some t) :
    t.Tracks cfg slotType := by
  obtain ⟨scheduler, hSched, hStep⟩ := Option.bind_eq_some_iff.mp hStep
  obtain ⟨allocations, hAllocations, hStep⟩ := Option.bind_eq_some_iff.mp hStep
  cases hStep
  obtain ⟨hType, hFirst, ctrl, hCtrl, hLayout⟩ := hMet
  have hDcis := List.dropLast_append_getLast? ctrl hCtrl
  generalize dcis.dropLast = srs at hDcis hLayout
  subst hDcis
  have hOld : s.scheduler.ulAllocationMap.lookup sfn = none := by
    cases (h.slot sfn).kept with
    | waits totUlSym hSome hLookup hMore =>
      rw [pending, grantsOf, hFirst] at hSome
      exact absurd rfl hSome
    | forgotten hNone hLookup => exact hLookup
    | control totUlSym hF hNotDl hGranted hLookup hNoMore =>
      rw [hFirst] at hGranted
      cases hGranted
  obtain ⟨symbols, hSymbols, hMap⟩ := doSchedUlTriggerReq_records hSched hOld hAllocations
  refine ⟨h.known.ulTriggerReq hSched, fun sfn' => ?_⟩
  by_cases hSame : sfn' = sfn
  · subst hSame
    have hNotAsked : ∀ symStart, (sfn', symStart) ∉ s.reported := fun symStart hMem =>
      (h.slot sfn').asked symStart hMem hFirst
    have hNew : Function.update s.granted sfn' (some allocations) sfn' = some allocations :=
      Function.update_self ..
    have hGrants : grantsOf { s with
        scheduler := scheduler
        granted := Function.update s.granted sfn' (some allocations) } sfn' = allocations :=
      congrArg (Option.getD · []) hNew
    have hPending : pending { s with
        scheduler := scheduler
        granted := Function.update s.granted sfn' (some allocations) } sfn' = allocations := by
      rw [pending, hGrants]
      exact List.filter_eq_self.mpr fun a _ => decide_eq_true (hNotAsked a.symStart)
    refine ⟨?_, fun _ => hType, fun symStart hMem => absurd hMem (hNotAsked symStart), ?_, ?_⟩
    · intro a hMem
      rw [hGrants] at hMem
      obtain ⟨dci, hDci, hAlloc⟩ := mem_of_mapM hAllocations hMem
      obtain ⟨-, hNumSym, hTbs⟩ := NrMacSchedulerNs3.ofDci_spec hAlloc
      refine ⟨?_, hLayout.tbs dci hDci _ hTbs⟩
      rw [hNumSym]
      exact (hLayout.before dci (List.mem_append_right _ hDci)).2.1
    · have hLookup : scheduler.ulAllocationMap.lookup sfn' =
          some ⟨symbols.foldl (· + ·) 0, allocations⟩ := by
        rw [hMap, AList.lookup_insert]
      by_cases hData : choices.filterMap SlotChoice.grant = []
      · obtain hSome | ⟨hF, hNotDl, hAlone⟩ := hCollected
        · exact absurd hData hSome
        cases List.length_eq_zero_iff.mp (by simpa using hAlone : srs.length = 0)
        have hEmpty : allocations = [] := by
          rw [hData] at hAllocations
          cases hAllocations
          rfl
        subst hEmpty
        exact .control _ hF hNotDl hNew hLookup (hLayout.totUlSym_le hSymbols hData)
      · obtain ⟨dci, hDci⟩ := List.exists_mem_of_ne_nil _ hData
        obtain ⟨a, hMem, -⟩ := exists_of_mapM hAllocations hDci
        refine .waits _ ?_ (by rw [hPending]; exact hLookup) (hLayout.lt_totUlSym hSymbols hData)
        rw [hPending]
        exact List.ne_nil_of_mem hMem
    · have hComputed := (h.slot sfn').computed
      rw [grantsOf, hFirst] at hComputed
      have hNothing : (allocations.filter fun a => (sfn', a.symStart) ∈ s.reported) = [] :=
        List.filter_eq_nil_iff.mpr fun a _ => by simpa using hNotAsked a.symStart
      rw [hGrants, hNothing]
      exact hComputed
  · refine (h.slot sfn').frame (Function.update_of_ne hSame ..) (fun _ => Iff.rfl) Iff.rfl ?_ rfl
    change scheduler.ulAllocationMap.lookup sfn' = _
    rw [hMap, AList.lookup_insert_ne hSame]

/-! ## A CQI -/

/-- A CQI for grants that wait is computed, and takes them out. -/
theorem doSchedUlCqiInfoReq_eq {s : NrMacSchedulerNs3} {symStart totUlSym : UInt8}
    {grants : List AllocElem} (hKnown : s.Known)
    (hLookup : s.ulAllocationMap.lookup sfn = some ⟨totUlSym, grants⟩)
    (hSized : ∀ a ∈ grants, 0 < a.numSym ∧ 0 < a.tbs)
    (hFound : ∃ a ∈ grants, a.symStart = symStart) :
    s.doSchedUlCqiInfoReq sfn symStart = some { s with
      ulAllocationMap :=
        if grants.filter (·.symStart ≠ symStart) = [] then s.ulAllocationMap.erase sfn
        else s.ulAllocationMap.insert sfn ⟨totUlSym, grants.filter (·.symStart ≠ symStart)⟩ } := by
  obtain ⟨a, hMem, hStart⟩ := hFound
  have hAsserts : grants.filter (·.symStart = symStart) ≠ [] ∧
      ∀ a ∈ grants.filter (·.symStart = symStart), a.rnti ∈ s.ueMap ∧ 0 < a.numSym ∧ 0 < a.tbs := by
    refine ⟨List.ne_nil_of_mem (List.mem_filter.mpr ⟨hMem, decide_eq_true hStart⟩), fun b hB => ?_⟩
    have hB := List.mem_of_mem_filter hB
    exact ⟨hKnown.ulAllocation sfn _ hLookup b hB, hSized b hB⟩
  unfold NrMacSchedulerNs3.doSchedUlCqiInfoReq
  rw [hLookup, Option.bind_eq_bind, Option.bind_some]
  exact if_pos hAsserts

/-- A grant that waits finds its slot. -/
theorem TracksSlot.waits (h : s.TracksSlot cfg slotType sfn) {a : AllocElem}
    (hMem : a ∈ s.pending sfn) : ∃ totUlSym, cfg.ulCtrlSymbols < totUlSym ∧
      s.scheduler.ulAllocationMap.lookup sfn = some ⟨totUlSym, s.pending sfn⟩ := by
  cases h.kept with
  | waits totUlSym hSome hLookup hMore => exact ⟨totUlSym, hMore, hLookup⟩
  | forgotten hNone hLookup =>
    rw [hNone] at hMem
    cases hMem
  | control totUlSym hType hNotDl hGranted hLookup hNoMore =>
    rw [mem_pending, grantsOf, hGranted] at hMem
    cases hMem.1

/-- A CQI divides the grants that wait. -/
theorem pending_reported {symStart : UInt8} (hGranted : t.granted = s.granted)
    (hReported : t.reported = s.reported ++ [(sfn, symStart)]) :
    t.pending sfn = (s.pending sfn).filter (·.symStart ≠ symStart) := by
  rw [pending, pending, grantsOf, grantsOf, hGranted, hReported, List.filter_filter]
  refine List.filter_congr fun a _ => ?_
  simp [not_or, and_comm]

theorem reported_perm {symStart : UInt8} (hGranted : t.granted = s.granted)
    (hReported : t.reported = s.reported ++ [(sfn, symStart)]) :
    ((s.grantsOf sfn).filter (fun a => (sfn, a.symStart) ∈ s.reported) ++
      (s.pending sfn).filter (·.symStart = symStart)).Perm
        ((t.grantsOf sfn).filter fun a => (sfn, a.symStart) ∈ t.reported) := by
  have hOld : (s.grantsOf sfn).filter (fun a => (sfn, a.symStart) ∈ s.reported) =
      ((t.grantsOf sfn).filter fun a => (sfn, a.symStart) ∈ t.reported).filter
        fun a => (sfn, a.symStart) ∈ s.reported := by
    rw [grantsOf, grantsOf, hGranted, hReported, List.filter_filter]
    refine List.filter_congr fun a _ => ?_
    rw [Bool.eq_iff_iff]
    simp
    tauto
  have hNew : (s.pending sfn).filter (·.symStart = symStart) =
      ((t.grantsOf sfn).filter fun a => (sfn, a.symStart) ∈ t.reported).filter
        fun a => ! decide ((sfn, a.symStart) ∈ s.reported) := by
    rw [pending, grantsOf, grantsOf, hGranted, hReported, List.filter_filter, List.filter_filter]
    refine List.filter_congr fun a _ => ?_
    rw [Bool.eq_iff_iff]
    simp
    tauto
  rw [hOld, hNew]
  exact List.filter_append_perm _ _

theorem Tracks.ulCqiInfoReq (h : s.Tracks cfg slotType) {symStart : UInt8}
    (hMet : s.Met cfg slotType (.ulCqiInfoReq sfn symStart))
    (hStep : s.step cfg (.ulCqiInfoReq sfn symStart) = some t) : t.Tracks cfg slotType := by
  obtain ⟨scheduler, hSched, hStep⟩ := Option.bind_eq_some_iff.mp hStep
  obtain ⟨hScheduler, hGranted, hDl, hReported, hComputed⟩ :
      t.scheduler = scheduler ∧ t.granted = s.granted ∧ t.dlScheduled = s.dlScheduled ∧
        t.reported = s.reported ++ [(sfn, symStart)] ∧
        t.computed = s.computed ++ (s.scheduler.cqiGrants sfn symStart).map (sfn, ·) := by
    cases hStep
    exact ⟨rfl, rfl, rfl, rfl, rfl⟩
  have hKnown := h.known.ulCqiInfoReq hSched
  obtain ⟨⟨a, hGrant, hStart⟩, hNotAsked⟩ := hMet
  have hSlot := h.slot sfn
  have hWaits : a ∈ s.pending sfn := mem_pending.mpr ⟨hGrant, hStart ▸ hNotAsked⟩
  obtain ⟨totUlSym, hMore, hLookup⟩ := hSlot.waits hWaits
  rw [NrMacSchedulerNs3.step, doSchedUlCqiInfoReq_eq h.known hLookup
    (fun b hB => hSlot.sized b (mem_pending.mp hB).1) ⟨a, hWaits, hStart⟩] at hSched
  have hMap : t.scheduler.ulAllocationMap =
      if (s.pending sfn).filter (·.symStart ≠ symStart) = [] then
        s.scheduler.ulAllocationMap.erase sfn
      else s.scheduler.ulAllocationMap.insert sfn
        ⟨totUlSym, (s.pending sfn).filter (·.symStart ≠ symStart)⟩ := by
    cases hSched
    rw [hScheduler]
  refine ⟨hScheduler ▸ hKnown, fun sfn' => ?_⟩
  by_cases hSame : sfn' = sfn
  · subst hSame
    have hGrants : t.grantsOf sfn' = s.grantsOf sfn' := by rw [grantsOf, hGranted, grantsOf]
    have hPending := pending_reported hGranted hReported
    constructor
    · rw [hGrants]
      exact hSlot.sized
    · rw [hGranted]
      exact hSlot.hasUl
    · intro _ _ hNone
      rw [grantsOf, ← hGranted, hNone] at hGrant
      cases hGrant
    · by_cases hRest : (s.pending sfn').filter (·.symStart ≠ symStart) = []
      · refine .forgotten (hPending.trans hRest) ?_
        rw [hMap, if_pos hRest, AList.lookup_erase]
      · refine .waits totUlSym (hPending ▸ hRest) ?_ hMore
        rw [hMap, if_neg hRest, AList.lookup_insert, hPending]
    · have hTaken : s.scheduler.cqiGrants sfn' symStart =
          (s.pending sfn').filter (·.symStart = symStart) := by
        rw [NrMacSchedulerNs3.cqiGrants, hLookup]
        rfl
      have hSplit : (t.computed.filter (·.1 = sfn')).map Prod.snd =
          (s.computed.filter (·.1 = sfn')).map Prod.snd ++
            (s.pending sfn').filter (·.symStart = symStart) := by
        rw [hComputed, List.filter_append, List.map_append, hTaken]
        congr 1
        simp [List.filter_map, Function.comp_def]
      rw [hSplit]
      exact (hSlot.computed.append_right _).trans (reported_perm hGranted hReported)
  · refine (h.slot sfn').frame (by rw [hGranted]) (fun _ => ?_) (by rw [hDl]) ?_ ?_
    · simp [hReported, hSame]
    · rw [hMap]
      split
      · exact AList.lookup_erase_ne hSame
      · exact AList.lookup_insert_ne hSame
    · simp [hComputed, List.filter_append, Ne.symm hSame]

/-! ## Whole runs -/

/-- The other requests keep the grants. -/
theorem Tracks.same_grants (h : s.Tracks cfg slotType) {scheduler : NrMacSchedulerNs3}
    (hKnown : scheduler.Known) (hSame : scheduler.ulAllocationMap = s.scheduler.ulAllocationMap) :
    Tracks cfg slotType { s with scheduler := scheduler } where
  known := hKnown
  slot sfn := (h.slot sfn).frame rfl (fun _ => Iff.rfl) Iff.rfl (by rw [hSame]) rfl

theorem doCschedUeConfigReq_ulAllocationMap (s : NrMacSchedulerNs3) (rnti beamConfId : UInt16)
    (bt : BulletTrigger) :
    (s.doCschedUeConfigReq cfg rnti beamConfId bt).ulAllocationMap = s.ulAllocationMap := by
  unfold NrMacSchedulerNs3.doCschedUeConfigReq
  split <;> rfl

theorem addSr_ulAllocationMap {s t : NrMacSchedulerNs3} {srList : List UInt16}
    (h : srList.foldlM NrMacSchedulerNs3.addSr s = some t) :
    t.ulAllocationMap = s.ulAllocationMap := by
  induction srList generalizing s with
  | nil =>
    cases h
    rfl
  | cons rnti srList ih =>
    obtain ⟨u, hFirst, hRest⟩ := Option.bind_eq_some_iff.mp h
    obtain ⟨-, -, -, hMap, -, -⟩ := NrMacSchedulerNs3.addSr_spec hFirst
    exact (ih hRest).trans hMap

theorem doSchedUlSrInfoReq_ulAllocationMap {s t : NrMacSchedulerNs3} {srList : List UInt16}
    (h : s.doSchedUlSrInfoReq srList = some t) : t.ulAllocationMap = s.ulAllocationMap := by
  obtain ⟨u, hFold, h⟩ := Option.bind_eq_some_iff.mp h
  split at h
  · cases h
    exact addSr_ulAllocationMap hFold
  · cases h

theorem processTrigger_ulAllocationMap (s : NrMacSchedulerNs3) (rnti : UInt16)
    (state : BulletTrigger) :
    (s.processTrigger rnti state).ulAllocationMap = s.ulAllocationMap := by
  unfold NrMacSchedulerNs3.processTrigger
  split <;> rfl

theorem Tracks.step (h : s.Tracks cfg slotType) {e : SchedulerEvent}
    (hMet : s.Met cfg slotType e) (hCollected : s.Collected slotType e)
    (hStep : s.step cfg e = some t) : t.Tracks cfg slotType := by
  cases e with
  | ueConfigReq rnti beamConfId bt =>
    cases hStep
    exact h.same_grants (h.known.ueConfigReq rnti beamConfId bt)
      (doCschedUeConfigReq_ulAllocationMap ..)
  | ueReleaseReq rnti => exact hMet.elim
  | ulSrInfoReq srList =>
    obtain ⟨scheduler, hSched, hStep⟩ := Option.bind_eq_some_iff.mp hStep
    cases hStep
    exact h.same_grants (h.known.step (e := .ulSrInfoReq srList) nofun hSched)
      (doSchedUlSrInfoReq_ulAllocationMap hSched)
  | dlTriggerReq sfn special received choices => exact h.dlTriggerReq hMet hStep
  | ulTriggerReq sfn received choices srServed dcis => exact h.ulTriggerReq hMet hCollected hStep
  | ulCqiInfoReq sfn symStart => exact h.ulCqiInfoReq hMet hStep
  | triggerSlot rnti state =>
    cases hStep
    exact h.same_grants (h.known.triggerSlot rnti state) (processTrigger_ulAllocationMap ..)

theorem Tracks.right (h : s.Tracks cfg slotType) : s.Right slotType where
  finds sfn a hGrant hNotAsked := by
    have hWaits := mem_pending.mpr ⟨hGrant, hNotAsked⟩
    obtain ⟨totUlSym, -, hLookup⟩ := (h.slot sfn).waits hWaits
    rw [doSchedUlCqiInfoReq_eq h.known hLookup
      (fun b hB => (h.slot sfn).sized b (mem_pending.mp hB).1) ⟨a, hWaits, rfl⟩]
    rfl
  once sfn := (h.slot sfn).computed
  forgotten sfn hAll hDl := by
    cases (h.slot sfn).kept with
    | waits totUlSym hSome hLookup hMore =>
      obtain ⟨a, hWaits⟩ := List.exists_mem_of_ne_nil _ hSome
      obtain ⟨hGrant, hNotAsked⟩ := mem_pending.mp hWaits
      exact absurd (hAll a hGrant) hNotAsked
    | forgotten hNone hLookup => exact hLookup
    | control totUlSym hType hNotDl hGranted hLookup hNoMore =>
      refine absurd (hDl ?_) hNotDl
      rw [hType]
      decide

/-- In every run in which no slot without data grants is left to a CQI, each CQI finds its grants,
each grant is used once, and no slot is kept for nothing. -/
theorem grants_collected {events : List SchedulerEvent}
    (hMet : StepsMeet (step cfg) (Met cfg slotType) {} events)
    (hCollected : StepsMeet (step cfg) (Collected slotType) {} events)
    (hRun : run (step cfg) {} events = some t) : t.Right slotType := by
  have hStep : ∀ (s : UlAllocations) e t, s.Tracks cfg slotType →
      s.Met cfg slotType e ∧ s.Collected slotType e → s.step cfg e = some t →
        t.Tracks cfg slotType :=
    fun s e t hTracks hGuard hNext => hTracks.step hGuard.1 hGuard.2 hNext
  exact (invariant_of_run hStep tracks_init (hMet.and hCollected) hRun).right

/-- The symbol for control at the end of a slot of 14 symbols. -/
def lastSymbol : DciInfoElementTdma :=
  { format := .ul, symStart := 13, numSym := 1, type := .ctrl }

def firstGrant : DciInfoElementTdma :=
  { rnti := 1, format := .ul, symStart := 11, numSym := 2, mcs := [4], tbSize := [60], ndi := [1]
    rv := [0], type := .data }

/-- Slot 5 has a grant, slot 6 has none. -/
def twoSlots : List SchedulerEvent :=
  [.ueConfigReq 1 0 NrMacSchedulerNs3.quietTrigger,
    .ulTriggerReq 5 [] [.newData 1 firstGrant []] false [lastSymbol],
    .ulTriggerReq 6 [] [] false [lastSymbol],
    .dlTriggerReq 5 false [] [], .dlTriggerReq 6 false [] [], .ulCqiInfoReq 5 11]

theorem grants_collected_twoSlots :
    ∃ t, run (step NrMacSchedulerNs3.lifecycleConfig) {} twoSlots = some t ∧
      t.Right (fun _ => .f) := by
  have hRuns : (run (step NrMacSchedulerNs3.lifecycleConfig) {} twoSlots).isSome := by
    decide +kernel
  obtain ⟨t, hRun⟩ := Option.isSome_iff_exists.mp hRuns
  exact ⟨t, hRun, grants_collected (by decide +kernel) (by decide +kernel) hRun⟩

/-- A UL slot without data grants is kept, although no CQI comes for it. -/
theorem ul_slot_kept :
    StepsMeet (step NrMacSchedulerNs3.lifecycleConfig)
      (Met NrMacSchedulerNs3.lifecycleConfig fun _ => .ul) {}
      [.ulTriggerReq 5 [] [] false [lastSymbol]] ∧
    ∃ t, run (step NrMacSchedulerNs3.lifecycleConfig) {}
      [.ulTriggerReq 5 [] [] false [lastSymbol]] = some t ∧ ¬ t.Right fun _ => .ul := by
  have hKept : (run (step NrMacSchedulerNs3.lifecycleConfig) {}
      [.ulTriggerReq 5 [] [] false [lastSymbol]]).map (fun t =>
        (t.grantsOf 5, t.scheduler.ulAllocationMap.lookup 5)) = some ([], some ⟨1, []⟩) := by
    decide +kernel
  obtain ⟨t, hRun, hEnd⟩ := Option.map_eq_some_iff.mp hKept
  obtain ⟨hGrants, hLookup⟩ := Prod.mk.inj hEnd
  refine ⟨by decide +kernel, t, hRun, fun hRight => ?_⟩
  have hForgotten := hRight.forgotten 5 (by rw [hGrants]; exact nofun) fun hNe => absurd rfl hNe
  rw [hForgotten] at hLookup
  cases hLookup

end UlAllocations

end Bullet.Mac
