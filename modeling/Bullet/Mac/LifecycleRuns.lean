import Bullet.Mac.UeLifecycle

/-! # Which users the containers hold

Every request but a release keeps the users in the containers among the configured ones. A release
leaves the trigger of the user behind, and with it all that it will start from again.
-/

namespace Bullet.Mac

open Lib Lib.PartialRun Trigger

/-! ## The HARQ tables keep their users -/

namespace HarqTables

variable {cfg : HarqConfig} {tables tables' : HarqTables}

theorem resetUe_users {rnti : UInt16} (h : tables.resetUe cfg rnti = some tables') (r : UInt16) :
    r ∈ tables' ↔ r ∈ tables := by
  obtain ⟨t, hLookup, h⟩ := Option.bind_eq_some_iff.mp h
  obtain ⟨t', -, h⟩ := Option.bind_eq_some_iff.mp h
  cases h
  exact mem_insert_of_mem (mem_of_lookup hLookup)

theorem processFeedback_users {f : HarqFeedback} {kept : Bool}
    (h : processFeedback cfg tables f = some (kept, tables')) (r : UInt16) :
    r ∈ tables' ↔ r ∈ tables := by
  obtain ⟨t, hLookup, h⟩ := Option.bind_eq_some_iff.mp h
  obtain ⟨p, -, h⟩ := Option.bind_eq_some_iff.mp h
  have hMem := mem_of_lookup hLookup
  split at h
  · cases h
  · obtain ⟨dci, -, h⟩ := Option.bind_eq_some_iff.mp h
    obtain ⟨rv, -, h⟩ := Option.bind_eq_some_iff.mp h
    obtain ⟨ok, -, h⟩ := Option.bind_eq_some_iff.mp h
    split at h
    · cases h
    · split at h
      · obtain ⟨t', -, h⟩ := Option.bind_eq_some_iff.mp h
        cases h
        exact mem_insert_of_mem hMem
      · cases h
        exact mem_insert_of_mem hMem

theorem processHARQFeedbacks_users {l : List HarqFeedback} {nacked : List HarqKey}
    (h : processHARQFeedbacks cfg tables l = some (tables', nacked)) (r : UInt16) :
    r ∈ tables' ↔ r ∈ tables := by
  induction l generalizing tables tables' nacked with
  | nil =>
    cases h
    exact Iff.rfl
  | cons f l ih =>
    obtain ⟨⟨kept, next⟩, hFirst, h⟩ := Option.bind_eq_some_iff.mp h
    obtain ⟨⟨last, keys⟩, hRest, h⟩ := Option.bind_eq_some_iff.mp h
    cases h
    exact (ih hRest).trans (processFeedback_users hFirst r)

end HarqTables

namespace HarqScheduler

variable {cfg : HarqConfig} {s s' : HarqScheduler}

theorem trigger_users {feedbacks : List HarqFeedback} (h : s.trigger cfg feedbacks = some s')
    (r : UInt16) : r ∈ s'.tables ↔ r ∈ s.tables := by
  obtain ⟨tables, hReset, h⟩ := Option.bind_eq_some_iff.mp h
  obtain ⟨pending, -, h⟩ := Option.bind_eq_some_iff.mp h
  obtain ⟨⟨tables', nacked⟩, hProcess, h⟩ := Option.bind_eq_some_iff.mp h
  cases h
  have hSteps : ∀ (t : HarqTables) i t', (∀ r, r ∈ t ↔ r ∈ s.tables) → t.resetUe cfg i = some t' →
      ∀ r, r ∈ t' ↔ r ∈ s.tables :=
    fun t i t' hInv hStep r => (HarqTables.resetUe_users hStep r).trans (hInv r)
  have hSame : ∀ r, r ∈ tables ↔ r ∈ s.tables :=
    invariant_of_step hSteps (fun r => Iff.rfl) hReset
  exact (HarqTables.processHARQFeedbacks_users hProcess r).trans (hSame r)

theorem mark_users {key : HarqKey} {dci : Option DciInfoElementTdma}
    (h : s.mark key dci = some s') :
    key.rnti ∈ s.tables ∧ ∀ r, r ∈ s'.tables ↔ r ∈ s.tables := by
  rw [mark] at h
  split at h
  · cases h
  · obtain ⟨t, hLookup, h⟩ := Option.bind_eq_some_iff.mp h
    obtain ⟨p, -, h⟩ := Option.bind_eq_some_iff.mp h
    split at h
    · cases h
    · cases h
      exact ⟨mem_of_lookup hLookup, fun r => mem_insert_of_mem (mem_of_lookup hLookup)⟩

theorem newData_users {rnti : UInt16} {dci : DciInfoElementTdma}
    {rlcPduInfo : List (List RlcPduInfo)} (h : s.newData cfg rnti dci rlcPduInfo = some s') :
    rnti ∈ s.tables ∧ ∀ r, r ∈ s'.tables ↔ r ∈ s.tables := by
  obtain ⟨t, hLookup, h⟩ := Option.bind_eq_some_iff.mp h
  split at h
  · cases h
  · obtain ⟨⟨id, t'⟩, -, h⟩ := Option.bind_eq_some_iff.mp h
    obtain ⟨id', -, h⟩ := Option.bind_eq_some_iff.mp h
    cases h
    exact ⟨mem_of_lookup hLookup, fun r => mem_insert_of_mem (mem_of_lookup hLookup)⟩

/-- A choice is about a user of the tables. -/
theorem choice_users {c : SlotChoice} (h : step cfg s c.event = some s') :
    c.rnti ∈ s.tables ∧ ∀ r, r ∈ s'.tables ↔ r ∈ s.tables := by
  cases c with
  | retransmit key dci => exact mark_users h
  | buffer key => exact mark_users h
  | newData rnti dci rlcPduInfo => exact newData_users h

theorem choices_users {choices : List SlotChoice}
    (h : run (step cfg) s (choices.map SlotChoice.event) = some s') :
    (∀ c ∈ choices, c.rnti ∈ s.tables) ∧ ∀ r, r ∈ s'.tables ↔ r ∈ s.tables := by
  induction choices generalizing s with
  | nil =>
    cases h
    exact ⟨fun c hc => (List.not_mem_nil hc).elim, fun r => Iff.rfl⟩
  | cons c choices ih =>
    rw [List.map_cons, run_cons] at h
    obtain ⟨next, hFirst, hRest⟩ := Option.bind_eq_some_iff.mp h
    obtain ⟨hKnown, hSame⟩ := choice_users hFirst
    obtain ⟨hKnownRest, hSameRest⟩ := ih hRest
    refine ⟨?_, fun r => (hSameRest r).trans (hSame r)⟩
    intro c' hc'
    rcases List.mem_cons.mp hc' with rfl | hc'
    · exact hKnown
    · exact (hSame _).mp (hKnownRest c' hc')

end HarqScheduler

namespace NrMacSchedulerNs3

/-- A slot keeps the users, and its choices and what it buffers are about users. -/
theorem scheduleHarq_users {cfg : HarqConfig} {direction : DciFormat}
    {ueMap ueMap' : UeRepresentations} {toRetransmit received kept : List HarqFeedback}
    {choices : List SlotChoice}
    (h : scheduleHarq cfg direction ueMap toRetransmit received choices = some (ueMap', kept)) :
    (∀ r, r ∈ ueMap' ↔ r ∈ ueMap) ∧ (∀ f ∈ kept, f.key.rnti ∈ ueMap) ∧
      ∀ c ∈ choices, c.rnti ∈ ueMap := by
  obtain ⟨s, hRun, h⟩ := Option.bind_eq_some_iff.mp h
  cases h
  rw [run_cons] at hRun
  obtain ⟨next, hTrigger, hChoices⟩ := Option.bind_eq_some_iff.mp hRun
  obtain ⟨hKnown, -⟩ := HarqScheduler.choices_users hChoices
  have hUsers : ∀ c ∈ choices, c.rnti ∈ ueMap := by
    intro c hc
    have hTables := (HarqScheduler.trigger_users hTrigger c.rnti).mp (hKnown c hc)
    exact mem_mapValues.mp hTables
  refine ⟨fun r => mem_mapValues, ?_, hUsers⟩
  intro f hf
  obtain ⟨key, hKey, hFind⟩ := List.mem_filterMap.mp hf
  obtain ⟨c, hc, hBuffered⟩ := List.mem_filterMap.mp hKey
  have hOwn : f.key = key := by simpa using List.find?_some hFind
  cases c with
  | buffer k =>
    cases hBuffered
    rw [hOwn]
    exact hUsers _ hc
  | retransmit => cases hBuffered
  | newData => cases hBuffered

theorem grant_rnti {c : SlotChoice} {dci : DciInfoElementTdma} (h : c.grant = some dci) :
    dci.rnti = c.rnti := by
  cases c <;> cases h <;> rfl

theorem ofDci_spec {dci : DciInfoElementTdma} {a : AllocElem} (h : AllocElem.ofDci dci = some a) :
    a.rnti = dci.rnti ∧ a.numSym = dci.numSym ∧ dci.tbSize[0]? = some a.tbs := by
  obtain ⟨tbs, hTbs, h⟩ := Option.bind_eq_some_iff.mp h
  obtain ⟨mcs, -, h⟩ := Option.bind_eq_some_iff.mp h
  cases h
  exact ⟨rfl, rfl, hTbs⟩

/-! ## One request -/

/-- Every user in a container is a configured one. -/
structure Known (s : NrMacSchedulerNs3) : Prop where
  sr : ∀ rnti ∈ s.srList, rnti ∈ s.ueMap
  dlHarq : ∀ f ∈ s.dlHarqToRetransmit, f.key.rnti ∈ s.ueMap
  ulHarq : ∀ f ∈ s.ulHarqToRetransmit, f.key.rnti ∈ s.ueMap
  ulAllocation : ∀ sfn elem, s.ulAllocationMap.lookup sfn = some elem →
    ∀ a ∈ elem.ulAllocations, a.rnti ∈ s.ueMap
  trigger : ∀ rnti ∈ s.triggerMap, rnti ∈ s.ueMap

/-- Every configured user has a trigger. -/
def Triggered (s : NrMacSchedulerNs3) : Prop :=
  ∀ rnti ∈ s.ueMap, rnti ∈ s.triggerMap

/-- The request releases no configured user. -/
def KeepsUsers (s : NrMacSchedulerNs3) (e : SchedulerEvent) : Prop :=
  ∀ rnti, e = .ueReleaseReq rnti → rnti ∉ s.ueMap

variable {cfg : LifecycleConfig} {s t : NrMacSchedulerNs3}

theorem known_init : Known {} := by
  constructor
  case ulAllocation =>
    intro sfn elem h
    cases h
  all_goals
    intro x hx
    cases hx

theorem triggered_init : Triggered {} := by
  intro rnti h
  cases h

/-- What a request about scheduling requests leaves. -/
theorem addSr_spec {rnti : UInt16} (h : s.addSr rnti = some t) :
    t.ueMap = s.ueMap ∧ t.dlHarqToRetransmit = s.dlHarqToRetransmit ∧
      t.ulHarqToRetransmit = s.ulHarqToRetransmit ∧ t.ulAllocationMap = s.ulAllocationMap ∧
      (∀ r, r ∈ t.triggerMap ↔ r ∈ s.triggerMap) ∧
      ∀ r ∈ t.srList, r ∈ s.srList ∨ r ∈ s.triggerMap := by
  rw [addSr] at h
  split at h
  · cases h
    exact ⟨rfl, rfl, rfl, rfl, fun r => Iff.rfl, fun r => Or.inl⟩
  · obtain ⟨trigger, hLookup, h⟩ := Option.bind_eq_some_iff.mp h
    cases h
    refine ⟨rfl, rfl, rfl, rfl, fun r => mem_insert_of_mem (mem_of_lookup hLookup), ?_⟩
    intro r hr
    rcases List.mem_append.mp hr with hr | hr
    · exact Or.inl hr
    · rw [List.mem_singleton.mp hr]
      exact Or.inr (mem_of_lookup hLookup)

theorem Known.addSr (h : Known s) {rnti : UInt16} (hStep : s.addSr rnti = some t) : Known t := by
  obtain ⟨hUe, hDl, hUl, hAllocation, hTrigger, hSr⟩ := addSr_spec hStep
  constructor
  · intro r hr
    rw [hUe]
    exact (hSr r hr).elim (h.sr r) (h.trigger r)
  · rw [hUe, hDl]
    exact h.dlHarq
  · rw [hUe, hUl]
    exact h.ulHarq
  · rw [hUe, hAllocation]
    exact h.ulAllocation
  · intro r hr
    rw [hUe]
    exact h.trigger r ((hTrigger r).mp hr)

theorem Triggered.addSr (h : Triggered s) {rnti : UInt16} (hStep : s.addSr rnti = some t) :
    Triggered t := by
  obtain ⟨hUe, -, -, -, hTrigger, -⟩ := addSr_spec hStep
  intro r hr
  rw [hUe] at hr
  exact (hTrigger r).mpr (h r hr)

theorem lookup_insert_cases {α : Type} {m : AList fun _ : UInt64 => α} {sfn sfn' : UInt64} {a b : α}
    (h : (m.insert sfn a).lookup sfn' = some b) : b = a ∨ m.lookup sfn' = some b := by
  rcases eq_or_ne sfn' sfn with rfl | hNe
  · rw [AList.lookup_insert, Option.some.injEq] at h
    exact Or.inl h.symm
  · rw [AList.lookup_insert_ne hNe] at h
    exact Or.inr h

theorem lookup_of_erase {α : Type} {m : AList fun _ : UInt64 => α} {sfn sfn' : UInt64} {b : α}
    (h : (m.erase sfn).lookup sfn' = some b) : m.lookup sfn' = some b := by
  rcases eq_or_ne sfn' sfn with rfl | hNe
  · rw [AList.lookup_erase] at h
    cases h
  · rwa [AList.lookup_erase_ne hNe] at h

theorem putUlAllocation_cases {m : AList fun _ : UInt64 => SlotElem} {sfn sfn' : UInt64}
    {elem elem' : SlotElem} (h : (putUlAllocation cfg m sfn elem).lookup sfn' = some elem') :
    elem' = elem ∨ m.lookup sfn' = some elem' := by
  rw [putUlAllocation] at h
  split at h
  · exact Or.inr (lookup_of_erase h)
  · exact lookup_insert_cases h

/-- The grants that a slot already has are of configured users. -/
theorem Known.old_allocations (h : Known s) {sfn : UInt64} {a : AllocElem}
    (ha : a ∈ ((s.ulAllocationMap.lookup sfn).getD { totUlSym := 0 }).ulAllocations) :
    a.rnti ∈ s.ueMap := by
  cases hLookup : s.ulAllocationMap.lookup sfn with
  | none =>
    rw [hLookup] at ha
    cases ha
  | some elem =>
    rw [hLookup] at ha
    exact h.ulAllocation sfn elem hLookup a ha

theorem Known.ueConfigReq (h : Known s) (rnti beamConfId : UInt16) (bt : BulletTrigger) :
    Known (s.doCschedUeConfigReq cfg rnti beamConfId bt) := by
  rw [doCschedUeConfigReq]
  cases hLookup : s.ueMap.lookup rnti with
  | some ue =>
    have hSame : ∀ r, r ∈ s.ueMap.insert rnti { ue with beamConfId := beamConfId } ↔ r ∈ s.ueMap :=
      fun r => mem_insert_of_mem (mem_of_lookup hLookup)
    exact ⟨fun r hr => (hSame r).mpr (h.sr r hr), fun f hf => (hSame _).mpr (h.dlHarq f hf),
      fun f hf => (hSame _).mpr (h.ulHarq f hf),
      fun sfn elem hElem a ha => (hSame _).mpr (h.ulAllocation sfn elem hElem a ha),
      fun r hr => (hSame r).mpr (h.trigger r hr)⟩
  | none =>
    have hOld : ∀ r ∈ s.ueMap, ∀ ue, r ∈ s.ueMap.insert rnti ue :=
      fun r hr ue => (AList.mem_insert _).mpr (Or.inr hr)
    refine ⟨fun r hr => hOld r (h.sr r hr) _, fun f hf => hOld _ (h.dlHarq f hf) _,
      fun f hf => hOld _ (h.ulHarq f hf) _,
      fun sfn elem hElem a ha => hOld _ (h.ulAllocation sfn elem hElem a ha) _, fun r hr => ?_⟩
    apply (AList.mem_insert _).mpr
    dsimp only at hr
    split at hr
    · exact Or.inr (h.trigger r hr)
    · exact ((AList.mem_insert _).mp hr).imp_right (h.trigger r)

theorem Triggered.ueConfigReq (h : Triggered s) (rnti beamConfId : UInt16) (bt : BulletTrigger) :
    Triggered (s.doCschedUeConfigReq cfg rnti beamConfId bt) := by
  rw [doCschedUeConfigReq]
  intro r hr
  cases hLookup : s.ueMap.lookup rnti with
  | some ue =>
    rw [hLookup] at hr
    exact h r ((mem_insert_of_mem (mem_of_lookup hLookup)).mp hr)
  | none =>
    rw [hLookup] at hr
    have hOld := (AList.mem_insert _).mp hr
    dsimp only
    split
    · next hMem =>
      rcases hOld with rfl | hOld
      · exact hMem
      · exact h r hOld
    · exact (AList.mem_insert _).mpr (hOld.imp_right (h r))

theorem Known.dlTriggerReq (h : Known s) {sfn : UInt64} {special : Bool}
    {received : List HarqFeedback} {choices : List SlotChoice}
    (hStep : s.doSchedDlTriggerReq cfg sfn special received choices = some t) : Known t := by
  obtain ⟨⟨ueMap, kept⟩, hHarq, hStep⟩ := Option.bind_eq_some_iff.mp hStep
  obtain ⟨hSame, hKept, -⟩ := scheduleHarq_users hHarq
  cases hStep
  refine ⟨fun r hr => (hSame r).mpr (h.sr r hr), fun f hf => (hSame _).mpr (hKept f hf),
    fun f hf => (hSame _).mpr (h.ulHarq f hf), fun sfn' elem hElem a ha => (hSame _).mpr ?_,
    fun r hr => (hSame r).mpr (h.trigger r hr)⟩
  rcases putUlAllocation_cases hElem with rfl | hElem
  · exact h.old_allocations ha
  · exact h.ulAllocation sfn' elem hElem a ha

theorem Known.ulTriggerReq (h : Known s) {sfn : UInt64} {received : List HarqFeedback}
    {choices : List SlotChoice} {srServed : Bool} {ctrl : List DciInfoElementTdma}
    (hStep : s.doSchedUlTriggerReq cfg sfn received choices srServed ctrl = some t) : Known t := by
  obtain ⟨⟨ueMap, kept⟩, hHarq, hStep⟩ := Option.bind_eq_some_iff.mp hStep
  obtain ⟨hSame, hKept, hChoices⟩ := scheduleHarq_users hHarq
  dsimp only at hStep
  split at hStep
  · cases hStep
  obtain ⟨allocations, hAllocations, hStep⟩ := Option.bind_eq_some_iff.mp hStep
  obtain ⟨symbols, -, hStep⟩ := Option.bind_eq_some_iff.mp hStep
  cases hStep
  refine ⟨fun r hr => (hSame r).mpr ?_, fun f hf => (hSame _).mpr (h.dlHarq f hf),
    fun f hf => (hSame _).mpr (hKept f hf), fun sfn' elem hElem a ha => (hSame _).mpr ?_,
    fun r hr => (hSame r).mpr (h.trigger r hr)⟩
  · dsimp only at hr
    split at hr
    · cases hr
    · exact h.sr r hr
  · rcases lookup_insert_cases hElem with rfl | hElem
    · rcases List.mem_append.mp ha with ha | ha
      · exact h.old_allocations ha
      · obtain ⟨dci, hDci, hAlloc⟩ := mem_of_mapM hAllocations ha
        obtain ⟨c, hc, hGrant⟩ := List.mem_filterMap.mp hDci
        rw [(ofDci_spec hAlloc).1, grant_rnti hGrant]
        exact hChoices c hc
    · exact h.ulAllocation sfn' elem hElem a ha

theorem Known.ulCqiInfoReq (h : Known s) {sfn : UInt64} {symStart : UInt8}
    (hStep : s.doSchedUlCqiInfoReq sfn symStart = some t) : Known t := by
  obtain ⟨elem, hLookup, hStep⟩ := Option.bind_eq_some_iff.mp hStep
  dsimp only at hStep
  split at hStep
  · cases hStep
    refine ⟨h.sr, h.dlHarq, h.ulHarq, fun sfn' elem' hElem a ha => ?_, h.trigger⟩
    dsimp only at hElem
    split at hElem
    · exact h.ulAllocation sfn' elem' (lookup_of_erase hElem) a ha
    · rcases lookup_insert_cases hElem with rfl | hElem
      · exact h.ulAllocation sfn elem hLookup a (List.mem_of_mem_filter ha)
      · exact h.ulAllocation sfn' elem' hElem a ha
  · cases hStep

theorem processTrigger_triggers (rnti : UInt16) (state : BulletTrigger) (r : UInt16) :
    r ∈ (s.processTrigger rnti state).triggerMap ↔ r ∈ s.triggerMap := by
  rw [processTrigger]
  cases hLookup : s.triggerMap.lookup rnti with
  | none => exact Iff.rfl
  | some trigger => exact mem_insert_of_mem (mem_of_lookup hLookup)

theorem Known.triggerSlot (h : Known s) (rnti : UInt16) (state : BulletTrigger) :
    Known (s.processTrigger rnti state) := by
  have hTrigger : ∀ r ∈ (s.processTrigger rnti state).triggerMap, r ∈ s.ueMap :=
    fun r hr => h.trigger r ((processTrigger_triggers rnti state r).mp hr)
  rw [processTrigger] at hTrigger ⊢
  cases hLookup : s.triggerMap.lookup rnti with
  | none => exact h
  | some trigger =>
    rw [hLookup] at hTrigger
    exact ⟨h.sr, h.dlHarq, h.ulHarq, h.ulAllocation, hTrigger⟩

theorem Known.step (h : Known s) {e : SchedulerEvent} (hKeeps : KeepsUsers s e)
    (hStep : step cfg s e = some t) : Known t := by
  cases e with
  | ueConfigReq rnti beamConfId bt =>
    cases hStep
    exact h.ueConfigReq rnti beamConfId bt
  | ueReleaseReq rnti =>
    rw [NrMacSchedulerNs3.step, doCschedUeReleaseReq, if_neg (hKeeps rnti rfl)] at hStep
    cases hStep
  | ulSrInfoReq srList =>
    obtain ⟨u, hFold, hStep⟩ := Option.bind_eq_some_iff.mp hStep
    split at hStep
    · cases hStep
      exact invariant_of_step (fun s i t hInv hNext => hInv.addSr hNext) h hFold
    · cases hStep
  | dlTriggerReq sfn special received choices => exact h.dlTriggerReq hStep
  | ulTriggerReq sfn received choices srServed ctrl => exact h.ulTriggerReq hStep
  | ulCqiInfoReq sfn symStart => exact h.ulCqiInfoReq hStep
  | triggerSlot rnti state =>
    cases hStep
    exact h.triggerSlot rnti state

theorem Triggered.step (h : Triggered s) {e : SchedulerEvent} (hStep : step cfg s e = some t) :
    Triggered t := by
  cases e with
  | ueConfigReq rnti beamConfId bt =>
    cases hStep
    exact h.ueConfigReq rnti beamConfId bt
  | ueReleaseReq rnti =>
    rw [NrMacSchedulerNs3.step, doCschedUeReleaseReq] at hStep
    split at hStep
    · cases hStep
      exact fun r hr => h r (AList.mem_erase.mp hr).2
    · cases hStep
  | ulSrInfoReq srList =>
    obtain ⟨u, hFold, hStep⟩ := Option.bind_eq_some_iff.mp hStep
    split at hStep
    · cases hStep
      exact invariant_of_step (fun s i t hInv hNext => hInv.addSr hNext) h hFold
    · cases hStep
  | dlTriggerReq sfn special received choices =>
    obtain ⟨⟨ueMap, kept⟩, hHarq, hStep⟩ := Option.bind_eq_some_iff.mp hStep
    cases hStep
    exact fun r hr => h r (((scheduleHarq_users hHarq).1 r).mp hr)
  | ulTriggerReq sfn received choices srServed ctrl =>
    obtain ⟨⟨ueMap, kept⟩, hHarq, hStep⟩ := Option.bind_eq_some_iff.mp hStep
    dsimp only at hStep
    split at hStep
    · cases hStep
    obtain ⟨allocations, -, hStep⟩ := Option.bind_eq_some_iff.mp hStep
    obtain ⟨symbols, -, hStep⟩ := Option.bind_eq_some_iff.mp hStep
    cases hStep
    exact fun r hr => h r (((scheduleHarq_users hHarq).1 r).mp hr)
  | ulCqiInfoReq sfn symStart =>
    obtain ⟨elem, -, hStep⟩ := Option.bind_eq_some_iff.mp hStep
    dsimp only at hStep
    split at hStep
    · cases hStep
      exact h
    · cases hStep
  | triggerSlot rnti state =>
    cases hStep
    intro r hr
    rw [processTrigger_triggers]
    apply h r
    rw [processTrigger] at hr
    cases hLookup : s.triggerMap.lookup rnti with
    | none =>
      rw [hLookup] at hr
      exact hr
    | some trigger =>
      rw [hLookup] at hr
      exact hr

/-! ## Runs -/

/-- After every part of the run the containers hold configured users only, and a user that is
configured anew gets the trigger created for it. -/
structure LifecycleHolds (cfg : LifecycleConfig) (events : List SchedulerEvent) : Prop where
  known : ∀ p q, events = p ++ q → ∀ t, run (step cfg) {} p = some t → Known t
  fresh : ∀ p rnti beamConfId bt q, events = p ++ .ueConfigReq rnti beamConfId bt :: q →
    ∀ t, run (step cfg) {} p = some t → rnti ∉ t.ueMap →
      (t.doCschedUeConfigReq cfg rnti beamConfId bt).triggerMap.lookup rnti = some ⟨t.created, bt⟩

theorem triggered_of_run {events : List SchedulerEvent} (hRun : run (step cfg) {} events = some t) :
    Triggered t :=
  invariant_of_step (fun _ _ _ hInv hStep => hInv.step hStep) triggered_init hRun

/-- A release of a configured user leaves its trigger. -/
theorem not_known_of_release (h : Triggered s) {rnti : UInt16} (hMem : rnti ∈ s.ueMap)
    (hStep : step cfg s (.ueReleaseReq rnti) = some t) : ¬ Known t := by
  rw [step, doCschedUeReleaseReq, if_pos hMem] at hStep
  cases hStep
  intro hKnown
  exact (AList.mem_erase.mp (hKnown.trigger rnti (h rnti hMem))).1 rfl

theorem fresh_of_known (h : Known s) {rnti : UInt16} (hNew : rnti ∉ s.ueMap) (beamConfId : UInt16)
    (bt : BulletTrigger) :
    (s.doCschedUeConfigReq cfg rnti beamConfId bt).triggerMap.lookup rnti = some ⟨s.created, bt⟩ := by
  have hNoTrigger : rnti ∉ s.triggerMap := fun hMem => hNew (h.trigger rnti hMem)
  rw [doCschedUeConfigReq, AList.lookup_eq_none.mpr hNew]
  dsimp only
  rw [if_neg hNoTrigger, AList.lookup_insert]

/-- The containers hold configured users, and users start afresh, exactly in the runs that release
no configured user. -/
theorem lifecycleHolds_iff (cfg : LifecycleConfig) (events : List SchedulerEvent) :
    LifecycleHolds cfg events ↔ StepsMeet (step cfg) KeepsUsers {} events := by
  constructor
  · intro h
    rw [stepsMeet_iff_forall_append]
    rintro p e q rfl t hRun rnti rfl hMem
    have hStep : step cfg t (.ueReleaseReq rnti) = some { t with ueMap := t.ueMap.erase rnti } :=
      if_pos hMem
    apply not_known_of_release (triggered_of_run hRun) hMem hStep
    apply h.known (p ++ [.ueReleaseReq rnti]) q (List.append_cons ..)
    rw [run_append, hRun, Option.bind_some, run_cons, hStep]
    rfl
  · intro h
    have hKnown : ∀ p q, events = p ++ q → ∀ t, run (step cfg) {} p = some t → Known t := by
      rintro p q rfl t hRun
      exact invariant_of_run (fun s e t hInv hKeeps hStep => hInv.step hKeeps hStep) known_init
        (stepsMeet_append.mp h).1 hRun
    refine ⟨hKnown, ?_⟩
    intro p rnti beamConfId bt q hEvents t hRun hNew
    exact fresh_of_known (hKnown p _ hEvents t hRun) hNew beamConfId bt

def quietTrigger : BulletTrigger :=
  .inputParameterTracer 4 8 3 5 0 0

def lifecycleConfig : LifecycleConfig where
  dl := { direction := .dl, walk := .increasing, numHarqProcess := 20 }
  ul := { direction := .ul, walk := .increasing, numHarqProcess := 20 }
  ulCtrlSymbols := 1

/-- User 1 asks for a grant and is released. -/
def askAndLeave : List SchedulerEvent :=
  [.ueConfigReq 1 0 quietTrigger, .ulSrInfoReq [1], .ueReleaseReq 1]

/-- The request and the trigger of the released user stay: the UL slot that serves the request
throws, and the user that is configured again gets its old trigger, with the request. -/
theorem released_user_stays :
    (∃ t, run (step lifecycleConfig) {} askAndLeave = some t ∧ t.srList = [1] ∧ 1 ∉ t.ueMap ∧
      step lifecycleConfig t (.ulTriggerReq 0 [] [] true []) = none ∧
      ((t.doCschedUeConfigReq lifecycleConfig 1 0 quietTrigger).triggerMap.lookup 1).map
        (fun trigger => (trigger.created, trigger.state.tInput.sr)) = some (0, true)) ∧
    ¬ LifecycleHolds lifecycleConfig askAndLeave := by
  constructor
  · exact ⟨_, rfl, rfl, by decide, rfl, rfl⟩
  · intro h
    have hKnown := h.known askAndLeave [] (List.append_nil _).symm _ rfl
    have hMem := hKnown.sr 1 List.mem_cons_self
    revert hMem
    decide

end NrMacSchedulerNs3

end Bullet.Mac
