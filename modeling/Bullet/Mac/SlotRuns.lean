import Bullet.Lib.PartialRun
import Bullet.Mac.SlotLayout

/-! # Runs over slots

The triggers of many slots come one after the other, the UL part of a slot before its DL part, and
between them the messages that change the users. UL registers its symbols for the DL part, and the
PHY merges the two parts.
-/

namespace Bullet.Mac

open Lib.PartialRun Phy

variable {μ : Type}

/-- The scheduler with the symbols that UL has registered, the slots of the PHY, and the slots whose
parts have been scheduled. -/
structure GnbSlots (μ : Type) where
  mac : MacState μ
  ulAllocationMap : UInt64 → Option SlotElem := fun _ => none
  slotAllocInfo : UInt64 → Option SlotAllocInfo := fun _ => none
  ulScheduled : List UInt64 := []
  dlScheduled : List UInt64 := []

/-- The triggers and the CQIs, and the messages after which the scheduler is in the given state. -/
inductive SlotEvent (μ : Type) where
  | ulTriggerReq (sfn : UInt64) (e : UlTrigger)
  | dlTriggerReq (sfn : UInt64) (e : DlTrigger)
  | ulCqiInfoReq (sfn : UInt64) (elem : Option SlotElem)
  | message (mac : MacState μ)

instance (cfg : CellConfig μ) (type : LteNrTddSlotType) (s : SlotScheduling μ) (elem : SlotElem) :
    Decidable (cfg.UlRegistered type s elem) := inferInstanceAs (Decidable (_ = _))

/-- A message gives a user neither RBGs nor a UL grant. -/
structure MacState.Receives (mac mac' : MacState μ) : Prop where
  rbgs : ∀ fmt rnti, mac'.ues.rbgs fmt rnti = 0 ∨ mac'.ues.rbgs fmt rnti = mac.ues.rbgs fmt rnti
  grants : ∀ key p dci, mac'.ues.harq.ulProcess key = some p → p.dciElement = some dci →
    ∃ q, mac.ues.harq.ulProcess key = some q ∧ q.dciElement = some dci

namespace SlotEvent

def ulSlots : SlotEvent μ → List UInt64
  | .ulTriggerReq sfn _ => [sfn]
  | _ => []

def dlSlots : SlotEvent μ → List UInt64
  | .dlTriggerReq sfn _ => [sfn]
  | _ => []

end SlotEvent

namespace GnbSlots

/-- `m_ulAllocationMap` at a slot, with the entry that is made if there is none. -/
def slotElem (s : GnbSlots μ) (sfn : UInt64) : SlotElem :=
  (s.ulAllocationMap sfn).getD { totUlSym := 0 }

/-- `PushBackSlotAllocInfo`: the slot as it is after a part of it was pushed. -/
def pushed (order : StartSort) (s : GnbSlots μ) (sfn : UInt64) (allocInfo : SlotAllocInfo) :
    SlotAllocInfo :=
  (s.slotAllocInfo sfn).elim allocInfo fun old => old.merge order allocInfo

/-- The entry for UL after the DL part, which is erased if it holds no more than control. -/
def keptElem (cfg : CellConfig μ) (type : LteNrTddSlotType) (elem : SlotElem) : Option SlotElem :=
  if elem.totUlSym + cfg.specialCtrl type ≤ cfg.ulCtrlSymbols then none
  else some { elem with totUlSym := elem.totUlSym + cfg.specialCtrl type }

def step (cfg : CellConfig μ) (order : StartSort) (s : GnbSlots μ) :
    SlotEvent μ → Option (GnbSlots μ)
  | .ulTriggerReq sfn e => do
    let t ← cfg.scheduleUl e s.mac
    let elem ← CellConfig.registerUl (s.slotElem sfn) t.allocInfo
    if ¬ cfg.UlRegistered e.type t elem then none
    else return { s with
      mac := t.mac
      ulAllocationMap := Function.update s.ulAllocationMap sfn (some elem)
      slotAllocInfo := Function.update s.slotAllocInfo sfn (some (s.pushed order sfn t.allocInfo))
      ulScheduled := s.ulScheduled ++ [sfn] }
  | .dlTriggerReq sfn e => do
    let t ← cfg.scheduleDl e (s.slotElem sfn).totUlSym s.mac
    return { s with
      mac := t.mac
      ulAllocationMap :=
        Function.update s.ulAllocationMap sfn (keptElem cfg e.type (s.slotElem sfn))
      slotAllocInfo := Function.update s.slotAllocInfo sfn (some (s.pushed order sfn t.allocInfo))
      dlScheduled := s.dlScheduled ++ [sfn] }
  | .ulCqiInfoReq sfn elem =>
    some { s with ulAllocationMap := Function.update s.ulAllocationMap sfn elem }
  | .message mac => some { s with mac := mac }

/-- Each part of a slot is scheduled once. A slot of type F has a UL part before its DL part, the
others have one of the two; the CQIs of a slot come when both its parts are scheduled. -/
def Met (slotType : UInt64 → LteNrTddSlotType) (s : GnbSlots μ) : SlotEvent μ → Prop
  | .ulTriggerReq sfn e => e.type = slotType sfn ∧ sfn ∉ s.ulScheduled ∧ sfn ∉ s.dlScheduled ∧
      e.activeUl.Distinct
  | .dlTriggerReq sfn e => e.type = slotType sfn ∧ sfn ∉ s.dlScheduled ∧
      (slotType sfn = .f ↔ sfn ∈ s.ulScheduled) ∧ e.activeDl.Distinct
  | .ulCqiInfoReq sfn _ => sfn ∈ s.ulScheduled ∧ (slotType sfn = .f → sfn ∈ s.dlScheduled)
  | .message mac => s.mac.Receives mac

/-- The UL part of a slot is registered and waits for the DL part. -/
structure Waits (cfg : CellConfig μ) (s : GnbSlots μ) (sfn : UInt64) (elem : SlotElem)
    (slot : SlotAllocInfo) (first : ℕ) (l : List VarTtiAllocInfo) : Prop where
  registered : s.ulAllocationMap sfn = some elem
  pushed : s.slotAllocInfo sfn = some slot
  adds : Adds .ul {} slot cfg.symbolsPerSlot.toNat first l
  totUlSym : elem.totUlSym.toNat + first = cfg.symbolsPerSlot.toNat
  front : cfg.dlCtrlSymbols.toNat ≤ first

structure Sound (cfg : CellConfig μ) (slotType : UInt64 → LteNrTddSlotType) (s : GnbSlots μ) :
    Prop where
  cleared : s.mac.ues.Cleared
  filled : s.mac.ues.harq.UlGrantsFilled
  fresh : ∀ sfn ∉ s.ulScheduled, sfn ∉ s.dlScheduled →
    s.ulAllocationMap sfn = none ∧ s.slotAllocInfo sfn = none
  waits : ∀ sfn ∈ s.ulScheduled, slotType sfn = .f → sfn ∉ s.dlScheduled →
    ∃ elem slot first l, Waits cfg s sfn elem slot first l
  merged : ∀ sfn ∈ s.dlScheduled, slotType sfn = .f →
    ∃ slot, s.slotAllocInfo sfn = some slot ∧ slot.Laid cfg.symbolsPerSlot.toNat

variable {cfg : CellConfig μ} {order : StartSort} {slotType : UInt64 → LteNrTddSlotType}
  {s t : GnbSlots μ} {sfn : UInt64}

theorem Waits.congr {elem : SlotElem} {slot : SlotAllocInfo} {first : ℕ}
    {l : List VarTtiAllocInfo} (h : Waits cfg s sfn elem slot first l)
    (hMap : t.ulAllocationMap sfn = s.ulAllocationMap sfn)
    (hSlot : t.slotAllocInfo sfn = s.slotAllocInfo sfn) : Waits cfg t sfn elem slot first l :=
  ⟨hMap.trans h.registered, hSlot.trans h.pushed, h.adds, h.totUlSym, h.front⟩

/-- The step left the slot as it was. -/
structure Keeps (s t : GnbSlots μ) (sfn : UInt64) : Prop where
  registered : t.ulAllocationMap sfn = s.ulAllocationMap sfn
  pushed : t.slotAllocInfo sfn = s.slotAllocInfo sfn
  ulScheduled : sfn ∈ t.ulScheduled ↔ sfn ∈ s.ulScheduled
  dlScheduled : sfn ∈ t.dlScheduled ↔ sfn ∈ s.dlScheduled

/-- A step that is about one slot leaves the others as they were. -/
theorem Sound.of_keeps (sfn : UInt64) (h : Sound cfg slotType s)
    (hOthers : ∀ sfn' ≠ sfn, Keeps s t sfn') (hCleared : t.mac.ues.Cleared)
    (hFilled : t.mac.ues.harq.UlGrantsFilled)
    (hScheduled : sfn ∈ t.ulScheduled ∨ sfn ∈ t.dlScheduled)
    (hWaits : sfn ∈ t.ulScheduled → slotType sfn = .f → sfn ∉ t.dlScheduled →
      ∃ elem slot first l, Waits cfg t sfn elem slot first l)
    (hMerged : sfn ∈ t.dlScheduled → slotType sfn = .f →
      ∃ slot, t.slotAllocInfo sfn = some slot ∧ slot.Laid cfg.symbolsPerSlot.toNat) :
    Sound cfg slotType t where
  cleared := hCleared
  filled := hFilled
  fresh sfn' hNoUl hNoDl := by
    have hNe : sfn' ≠ sfn := by
      rintro rfl
      exact hScheduled.elim hNoUl hNoDl
    have hKeeps := hOthers sfn' hNe
    rw [hKeeps.registered, hKeeps.pushed]
    exact h.fresh sfn' (mt hKeeps.ulScheduled.mpr hNoUl) (mt hKeeps.dlScheduled.mpr hNoDl)
  waits sfn' hUl hType hNoDl := by
    rcases eq_or_ne sfn' sfn with rfl | hNe
    · exact hWaits hUl hType hNoDl
    · have hKeeps := hOthers sfn' hNe
      obtain ⟨elem, slot, first, l, hOld⟩ := h.waits sfn' (hKeeps.ulScheduled.mp hUl) hType
        (mt hKeeps.dlScheduled.mpr hNoDl)
      exact ⟨elem, slot, first, l, hOld.congr hKeeps.registered hKeeps.pushed⟩
  merged sfn' hDl hType := by
    rcases eq_or_ne sfn' sfn with rfl | hNe
    · exact hMerged hDl hType
    · have hKeeps := hOthers sfn' hNe
      rw [hKeeps.pushed]
      exact h.merged sfn' (hKeeps.dlScheduled.mp hDl) hType

theorem Sound.slotElem_eq (h : Sound cfg slotType s) (hUl : sfn ∉ s.ulScheduled)
    (hDl : sfn ∉ s.dlScheduled) : s.slotElem sfn = { totUlSym := 0 } := by
  rw [slotElem, (h.fresh sfn hUl hDl).1]
  rfl

theorem Sound.message {mac : MacState μ} (h : Sound cfg slotType s) (hMac : s.mac.Receives mac) :
    Sound cfg slotType { s with mac := mac } where
  cleared fmt rnti := (hMac.rbgs fmt rnti).elim id fun hSame => hSame.trans (h.cleared fmt rnti)
  filled key p dci hProcess hDci := by
    obtain ⟨q, hOld, hOldDci⟩ := hMac.grants key p dci hProcess hDci
    exact h.filled key q dci hOld hOldDci
  fresh := h.fresh
  waits sfn hUl hType hDl := by
    obtain ⟨elem, slot, first, l, hWaits⟩ := h.waits sfn hUl hType hDl
    exact ⟨elem, slot, first, l, hWaits.congr rfl rfl⟩
  merged := h.merged

theorem Sound.ulCqiInfoReq {elem : Option SlotElem} (h : Sound cfg slotType s)
    (hUl : sfn ∈ s.ulScheduled) (hDl : slotType sfn = .f → sfn ∈ s.dlScheduled) :
    Sound cfg slotType
      { s with ulAllocationMap := Function.update s.ulAllocationMap sfn elem } :=
  h.of_keeps sfn (fun _ hNe => ⟨Function.update_of_ne hNe _ _, rfl, Iff.rfl, Iff.rfl⟩)
    h.cleared h.filled (Or.inl hUl) (fun _ hType hNoDl => absurd (hDl hType) hNoDl)
    (h.merged sfn)

/-- The UL part of a slot passes its last assertion. -/
theorem Sound.ulRegistered (hFits : cfg.Fits) (h : Sound cfg slotType s) {e : UlTrigger}
    (hMet : Met slotType s (.ulTriggerReq sfn e)) {u : SlotScheduling μ} {elem : SlotElem}
    (hUl : cfg.scheduleUl e s.mac = some u)
    (hRegister : CellConfig.registerUl (s.slotElem sfn) u.allocInfo = some elem) :
    cfg.UlRegistered e.type u elem := by
  obtain ⟨-, hNoUl, hNoDl, hActive⟩ := hMet
  obtain ⟨l, hPart⟩ := CellConfig.scheduleUl_part hFits hActive h.cleared h.filled hUl
  exact hPart.registered hFits (by rw [h.slotElem_eq hNoUl hNoDl]) hRegister

theorem Sound.ulTriggerReq (hFits : cfg.Fits) (h : Sound cfg slotType s) {e : UlTrigger}
    (hMet : Met slotType s (.ulTriggerReq sfn e))
    (hStep : step cfg order s (.ulTriggerReq sfn e) = some t) : Sound cfg slotType t := by
  obtain ⟨hType, hNoUl, hNoDl, hActive⟩ := hMet
  obtain ⟨u, hUl, hStep⟩ := Option.bind_eq_some_iff.mp hStep
  obtain ⟨elem, hRegister, hStep⟩ := Option.bind_eq_some_iff.mp hStep
  obtain ⟨-, hStep⟩ := Option.ite_none_left_eq_some.mp hStep
  cases hStep
  obtain ⟨l, hPart⟩ := CellConfig.scheduleUl_part hFits hActive h.cleared h.filled hUl
  have hTotal := CellConfig.registerUl_totUlSym hPart.adds hFits.slot
    (by rw [h.slotElem_eq hNoUl hNoDl]) hRegister
  have hPushed : s.pushed order sfn u.allocInfo = u.allocInfo := by
    rw [pushed, (h.fresh sfn hNoUl hNoDl).2]
    rfl
  have hScheduled : sfn ∈ s.ulScheduled ++ [sfn] :=
    List.mem_append_right _ (List.mem_singleton_self sfn)
  refine h.of_keeps sfn (fun sfn' hNe => ⟨Function.update_of_ne hNe _ _,
    Function.update_of_ne hNe _ _, by simp [hNe], Iff.rfl⟩) hPart.cleared hPart.filled
    (Or.inl hScheduled) (fun _ hF _ => ?_) (fun hDl => absurd hDl hNoDl)
  have hFront := hPart.avail
  rw [CellConfig.front, if_pos (hType.trans hF)] at hFront
  exact ⟨elem, u.allocInfo, u.spoint.sym.toNat, l, Function.update_self _ _ _,
    (Function.update_self _ _ _).trans (congrArg some hPushed), hPart.adds, hTotal, by omega⟩

theorem special_of_ne {type : LteNrTddSlotType} (cfg : CellConfig μ) (hType : type ≠ .s) :
    cfg.special type = {} := by
  rw [CellConfig.special, CellConfig.specialCtrl, if_neg hType]
  rfl

theorem Sound.dlTriggerReq (hFits : cfg.Fits) (h : Sound cfg slotType s) {e : DlTrigger}
    (hMet : Met slotType s (.dlTriggerReq sfn e))
    (hStep : step cfg order s (.dlTriggerReq sfn e) = some t) : Sound cfg slotType t := by
  obtain ⟨hType, hNoDl, hF, hActive⟩ := hMet
  obtain ⟨u, hDl, hStep⟩ := Option.bind_eq_some_iff.mp hStep
  cases hStep
  have hCtrl := hFits.ctrl
  -- UL has left room for the control symbols of DL
  have hRoom : cfg.dlCtrlSymbols.toNat + (s.slotElem sfn).totUlSym.toNat +
      (cfg.specialCtrl e.type).toNat ≤ cfg.symbolsPerSlot.toNat := by
    rw [hType, CellConfig.specialCtrl]
    by_cases hSlot : slotType sfn = .f
    · obtain ⟨elem, slot, first, l, hWaits⟩ := h.waits sfn (hF.mp hSlot) hSlot hNoDl
      have hTotal := hWaits.totUlSym
      have hFront := hWaits.front
      rw [slotElem, hWaits.registered, hSlot, if_neg (by decide), Option.getD_some,
        UInt8.toNat_zero]
      omega
    · rw [h.slotElem_eq (fun hMem => hSlot (hF.mpr hMem)) hNoDl]
      change cfg.dlCtrlSymbols.toNat + 0 + _ ≤ _
      split
      · omega
      · rw [UInt8.toNat_zero]
        omega
  obtain ⟨⟨l, hAdds⟩, hEnd, hCleared, hFilled⟩ :=
    CellConfig.scheduleDl_part hFits.mask hActive h.cleared hRoom hDl
  have hScheduled : sfn ∈ s.dlScheduled ++ [sfn] :=
    List.mem_append_right _ (List.mem_singleton_self sfn)
  refine h.of_keeps sfn (fun sfn' hNe => ⟨Function.update_of_ne hNe _ _,
    Function.update_of_ne hNe _ _, Iff.rfl, by simp [hNe]⟩) hCleared (hFilled h.filled)
    (Or.inr hScheduled) (fun _ _ hNone => absurd hScheduled hNone) (fun _ hSlot => ?_)
  obtain ⟨elem, slot, first, l', hWaits⟩ := h.waits sfn (hF.mp hSlot) hSlot hNoDl
  have hTotal := hWaits.totUlSym
  have hElem : s.slotElem sfn = elem := by
    rw [slotElem, hWaits.registered]
    rfl
  have hPushed : s.pushed order sfn u.allocInfo = slot.merge order u.allocInfo := by
    rw [pushed, hWaits.pushed]
    rfl
  rw [hElem] at hEnd
  rw [special_of_ne cfg (by rw [hType, hSlot]; decide)] at hAdds
  exact ⟨_, (Function.update_self _ _ _).trans (congrArg some hPushed),
    SlotAllocInfo.Laid.merge order hWaits.adds hAdds (by omega)⟩

theorem Sound.step (hFits : cfg.Fits) (h : Sound cfg slotType s) {e : SlotEvent μ}
    (hMet : Met slotType s e) (hStep : step cfg order s e = some t) : Sound cfg slotType t := by
  cases e with
  | ulTriggerReq sfn e => exact h.ulTriggerReq hFits hMet hStep
  | dlTriggerReq sfn e => exact h.dlTriggerReq hFits hMet hStep
  | ulCqiInfoReq sfn elem =>
    cases hStep
    exact h.ulCqiInfoReq hMet.1 hMet.2
  | message mac =>
    cases hStep
    exact h.message hMet

theorem Sound.start {mac : MacState μ} (hCleared : mac.ues.Cleared)
    (hFilled : mac.ues.harq.UlGrantsFilled) : Sound cfg slotType { mac := mac } where
  cleared := hCleared
  filled := hFilled
  fresh _ _ _ := ⟨rfl, rfl⟩
  waits := by simp
  merged := by simp

theorem sound_of_run {mac : MacState μ} {events : List (SlotEvent μ)} (hFits : cfg.Fits)
    (hCleared : mac.ues.Cleared) (hFilled : mac.ues.harq.UlGrantsFilled)
    (hMet : StepsMeet (step cfg order) (Met slotType) { mac := mac } events)
    (hRun : run (step cfg order) { mac := mac } events = some s) : Sound cfg slotType s :=
  invariant_of_run (fun _ _ _ hSound hEvent hStep => hSound.step hFits hEvent hStep)
    (Sound.start hCleared hFilled) hMet hRun

/-- A trigger adds its slot to those that are scheduled. -/
theorem scheduled_of_step {e : SlotEvent μ} (h : step cfg order s e = some t) :
    t.ulScheduled = s.ulScheduled ++ e.ulSlots ∧ t.dlScheduled = s.dlScheduled ++ e.dlSlots := by
  cases e with
  | ulTriggerReq sfn e =>
    obtain ⟨u, -, h⟩ := Option.bind_eq_some_iff.mp h
    obtain ⟨elem, -, h⟩ := Option.bind_eq_some_iff.mp h
    obtain ⟨-, h⟩ := Option.ite_none_left_eq_some.mp h
    cases h
    exact ⟨rfl, (List.append_nil _).symm⟩
  | dlTriggerReq sfn e =>
    obtain ⟨u, -, h⟩ := Option.bind_eq_some_iff.mp h
    cases h
    exact ⟨(List.append_nil _).symm, rfl⟩
  | ulCqiInfoReq sfn elem =>
    cases h
    exact ⟨(List.append_nil _).symm, (List.append_nil _).symm⟩
  | message mac =>
    cases h
    exact ⟨(List.append_nil _).symm, (List.append_nil _).symm⟩

theorem scheduled_of_run {events : List (SlotEvent μ)}
    (h : run (step cfg order) s events = some t) :
    t.ulScheduled = s.ulScheduled ++ events.flatMap SlotEvent.ulSlots ∧
      t.dlScheduled = s.dlScheduled ++ events.flatMap SlotEvent.dlSlots := by
  induction events generalizing s with
  | nil =>
    cases h
    exact ⟨(List.append_nil _).symm, (List.append_nil _).symm⟩
  | cons e events ih =>
    rw [run_cons] at h
    obtain ⟨u, hStep, hRest⟩ := Option.bind_eq_some_iff.mp h
    obtain ⟨hUl, hDl⟩ := scheduled_of_step hStep
    obtain ⟨hUlRest, hDlRest⟩ := ih hRest
    rw [List.flatMap_cons, List.flatMap_cons, ← List.append_assoc, ← List.append_assoc, ← hUl,
      ← hDl]
    exact ⟨hUlRest, hDlRest⟩

/-- Round robin with OFDMA over ten RBGs, with an SRS symbol in each slot of type F that a user has
turn in. -/
def tenRbgs : CellConfig Unit where
  symbolsPerSlot := 14
  dlCtrlSymbols := 1
  ulCtrlSymbols := 1
  srsCtrlSymbols := 1
  enableSrsInUlSlots := false
  enableSrsInFSlots := true
  bandwidthInRbg := 10
  bwpId := 0
  tpc := 1
  scheduler := .ofdma { UlScheduler.ofdmaRoundRobin with dlPolicy := OfdmaNewData.dlRoundRobin }
  bandwidth := rfl
  scheduleMode := 1
  harqIds := [0, 1]

/-- Two users that have sent nothing yet. -/
def twoUsers : MacState Unit where
  ues :=
    { UlScheduler.idleUsers with
      harq := fun rnti =>
        if rnti = 1 ∨ rnti = 2 then
          some { rnti := rnti, dlHarq := fun _ => some {}, ulHarq := fun _ => some {} }
        else none
      dlLCG := fun _ => [⟨0, [{ id := 3, rlcTransmissionQueueSize := 2000 }]⟩]
      ulLCG := fun _ => [⟨0, [{ id := 3, rlcTransmissionQueueSize := 2000 }]⟩] }

def byStart : StartSort where
  sort l := l.insertionSort fun a b => a.dci.symStart ≤ b.dci.symStart
  perm l := List.perm_insertionSort _ l
  sorted l := by
    have : Std.Total fun a b : VarTtiAllocInfo => a.dci.symStart ≤ b.dci.symStart :=
      ⟨fun _ _ => UInt8.le_total _ _⟩
    have : IsTrans VarTtiAllocInfo fun a b => a.dci.symStart ≤ b.dci.symStart :=
      ⟨fun _ _ _ => UInt8.le_trans⟩
    exact List.pairwise_insertionSort _ l

/-- A UL trigger; user 1 has the SRS of the second slot. -/
def ulTrigger (activeUl : ActiveUeMap) : UlTrigger where
  type := .f
  srsUes := (∅ : SrsUeMap).insert 1 ⟨20, 2⟩
  walk := ⟨id, fun _ => List.Perm.refl _⟩
  ulHarqFeedback := []
  idealBsrMap _ := 0
  activeUl := activeUl

def dlTrigger : DlTrigger where
  type := .f
  activeDlHarq := []
  dlHarqFeedback := []
  activeDl := [(3, [(1, 2000), (2, 2000)])]

/-- UL of the first slot takes all its data symbols, that of the second one has the SRS only. -/
def twoSlots : List (SlotEvent Unit) :=
  [.ulTriggerReq 7 (ulTrigger [(3, [(1, 20), (2, 20)])]), .ulTriggerReq 8 (ulTrigger []),
    .dlTriggerReq 7 dlTrigger, .dlTriggerReq 8 dlTrigger]

theorem tenRbgs_fits : tenRbgs.Fits := ⟨by decide, by decide, trivial⟩

theorem twoUsers_cleared : twoUsers.ues.Cleared := by
  intro fmt rnti
  cases fmt <;> rfl

theorem twoUsers_filled : twoUsers.ues.harq.UlGrantsFilled := by
  intro key p dci hProcess hDci
  obtain ⟨ue, hUe, hP⟩ := Option.bind_eq_some_iff.mp hProcess
  obtain ⟨-, hUe⟩ := Option.ite_none_right_eq_some.mp hUe
  cases hUe
  cases hP
  cases hDci

theorem twoSlots_met :
    StepsMeet (step tenRbgs byStart) (Met fun _ => .f) { mac := twoUsers } twoSlots := by
  refine ⟨⟨rfl, by decide, by decide, by decide, by decide⟩, fun s₁ h₁ => ?_⟩
  obtain ⟨hUl₁, hDl₁⟩ := scheduled_of_step h₁
  refine ⟨⟨rfl, by rw [hUl₁]; decide, by rw [hDl₁]; decide, by decide, by decide⟩, fun s₂ h₂ => ?_⟩
  obtain ⟨hUl₂, hDl₂⟩ := scheduled_of_step h₂
  rw [hUl₁] at hUl₂
  rw [hDl₁] at hDl₂
  refine ⟨⟨rfl, by rw [hDl₂]; decide, by rw [hUl₂]; decide, by decide, by decide⟩, fun s₃ h₃ => ?_⟩
  obtain ⟨hUl₃, hDl₃⟩ := scheduled_of_step h₃
  rw [hUl₂] at hUl₃
  rw [hDl₂] at hDl₃
  exact ⟨⟨rfl, by rw [hDl₃]; decide, by rw [hUl₃]; decide, by decide, by decide⟩,
    fun _ _ => trivial⟩

end GnbSlots

end Bullet.Mac
