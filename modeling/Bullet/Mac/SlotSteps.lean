import Bullet.Lib.PointUpdates
import Bullet.Mac.Policies

/-! # What a slot of new data does to the users

After the assignment a user changes in two places: when its DCI is created or discarded, and when the
slot is reset for the next one.
-/

namespace Bullet.Mac

open Lib.PointUpdates NewDataState

variable {μ α : Type}

/-- The records that `view` shows change by `step` at the user that is scheduled, and by `close` at
the user that is reset. -/
structure SlotSteps (v : NewDataScheduler μ) (d : Direction μ) (view : SchedUes μ → UInt16 → α)
    (step close : α → α) : Prop where
  schedule : ∀ {maxSym s rnti t}, scheduleUe v d maxSym s rnti = some t →
    view t.ues = modifyAt step (view s.ues) rnti
  reset : ∀ rnti ues, view (v.resetSchedInfo rnti ues) = modifyAt close (view ues) rnti

namespace SlotSteps

variable {v : NewDataScheduler μ} {d : Direction μ} {view : SchedUes μ → UInt16 → α}
  {step close : α → α} {maxSym : UInt32} {symPerBeam : UInt16 → UInt32} {active : ActiveUeMap}
  {s t u : NewDataState μ}

theorem beamLoop_view (hSteps : SlotSteps v d view step close) {beam : List UePtrAndBufferReq}
    (h : beamLoop v d maxSym s (beam.map Prod.fst) = some t) :
    view t.ues = modifyAll step (view s.ues) beam := by
  induction beam generalizing s with
  | nil =>
    cases h
    rfl
  | cons ue beam ih =>
    obtain ⟨s', hUe, hRest⟩ := Option.bind_eq_some_iff.mp h
    rw [ih hRest, hSteps.schedule hUe]
    rfl

theorem endBeam_ues (maxSym : UInt32) (s : NewDataState μ) : (s.endBeam v maxSym).ues = s.ues := by
  rw [endBeam]
  split <;> rfl

/-- The loop steps once over each user in a beam with symbols. -/
theorem loop_view (hSteps : SlotSteps v d view step close)
    (hKeys : ((active.flatMap Prod.snd).map Prod.fst).Nodup)
    (h : loop v d symPerBeam s active = some t) :
    (∀ rnti ∉ (active.flatMap Prod.snd).map Prod.fst, view t.ues rnti = view s.ues rnti) ∧
    ∀ beam ∈ active, symPerBeam beam.1 ≠ 0 → ∀ ue ∈ beam.2,
      view t.ues ue.1 = step (view s.ues ue.1) := by
  induction active generalizing s with
  | nil =>
    cases h
    exact ⟨fun _ _ => rfl, nofun⟩
  | cons beam active ih =>
    rw [List.flatMap_cons, List.map_append] at hKeys ⊢
    obtain ⟨hBeamKeys, hRestKeys, hApart⟩ := List.nodup_append'.mp hKeys
    have hIn : ∀ el ∈ active, ∀ ue ∈ el.2, ue.1 ∈ (active.flatMap Prod.snd).map Prod.fst :=
      fun el hEl ue hUe => List.mem_map_of_mem (List.mem_flatMap.mpr ⟨el, hEl, hUe⟩)
    rw [loop] at h
    split at h
    · next hNone =>
      obtain ⟨hFrame, hBeams⟩ := ih hRestKeys h
      refine ⟨fun rnti hNot => hFrame rnti ?_, ?_⟩
      · exact fun hRest => hNot (List.mem_append_right _ hRest)
      · exact List.forall_mem_cons.mpr ⟨fun hSome => absurd hNone hSome, hBeams⟩
    · obtain ⟨s', hBeam, hRest⟩ := Option.bind_eq_some_iff.mp h
      have hView := hSteps.beamLoop_view hBeam
      obtain ⟨hFrame, hBeams⟩ := ih hRestKeys hRest
      rw [endBeam_ues, hView] at hFrame hBeams
      constructor
      · intro rnti hNot
        rw [List.mem_append, not_or] at hNot
        rw [hFrame rnti hNot.2, modifyAll_of_notMem hNot.1]
      · refine List.forall_mem_cons.mpr ⟨fun _ ue hUe => ?_, fun el hEl hSome ue hUe => ?_⟩
        · have hMem := List.mem_map_of_mem (f := Prod.fst) hUe
          rw [hFrame ue.1 fun hRestMem => hApart hMem hRestMem, modifyAll_of_mem hBeamKeys hMem]
        · rw [hBeams el hEl hSome ue hUe,
            modifyAll_of_notMem fun hOwn => hApart hOwn (hIn el hEl ue hUe)]

/-- At the end of the slot all users of the map are reset. -/
theorem finish_view (hSteps : SlotSteps v d view step close) (h : finish v active t = some u) :
    view u.ues = modifyAll close (view t.ues) (active.flatMap Prod.snd) := by
  have hUsers : active.flatMap (fun beam => beam.2.map Prod.fst) =
      (active.flatMap Prod.snd).map Prod.fst := by
    rw [List.map_flatMap]
  have hFold : ∀ (l : List UePtrAndBufferReq) (ues : SchedUes μ),
      view ((l.map Prod.fst).foldl (fun ues rnti => v.resetSchedInfo rnti ues) ues) =
        modifyAll close (view ues) l := by
    intro l
    induction l with
    | nil => exact fun _ => rfl
    | cons ue l ih =>
      intro ues
      rw [List.map_cons, List.foldl_cons, ih, hSteps.reset]
      rfl
  rw [finish] at h
  split at h
  · cases h
    dsimp only
    rw [hUsers]
    exact hFold _ _
  · cases h

theorem finish_of_mem (hSteps : SlotSteps v d view step close)
    (hKeys : ((active.flatMap Prod.snd).map Prod.fst).Nodup) (h : finish v active t = some u)
    {rnti : UInt16} (hMem : rnti ∈ (active.flatMap Prod.snd).map Prod.fst) :
    view u.ues rnti = close (view t.ues rnti) := by
  rw [hSteps.finish_view h, modifyAll_of_mem hKeys hMem]

/-- A user of a beam with symbols is stepped over and reset, and one outside the map stays. -/
theorem slot_view (hSteps : SlotSteps v d view step close)
    (hKeys : ((active.flatMap Prod.snd).map Prod.fst).Nodup)
    (hLoop : loop v d symPerBeam s active = some t) (hFinish : finish v active t = some u) :
    (∀ rnti ∉ (active.flatMap Prod.snd).map Prod.fst, view u.ues rnti = view s.ues rnti) ∧
    ∀ beam ∈ active, symPerBeam beam.1 ≠ 0 → ∀ ue ∈ beam.2,
      view u.ues ue.1 = close (step (view s.ues ue.1)) := by
  obtain ⟨hFrame, hBeams⟩ := hSteps.loop_view hKeys hLoop
  constructor
  · intro rnti hNot
    rw [hSteps.finish_view hFinish, modifyAll_of_notMem hNot, hFrame rnti hNot]
  · intro beam hBeam hSome ue hUe
    have hMem : ue.1 ∈ (active.flatMap Prod.snd).map Prod.fst :=
      List.mem_map_of_mem (List.mem_flatMap.mpr ⟨beam, hBeam, hUe⟩)
    rw [hSteps.finish_of_mem hKeys hFinish hMem, hBeams beam hBeam hSome ue hUe]

end SlotSteps

/-! ## The steps of the schedulers -/

/-- The user has RBGs, but too few for a DCI. -/
def UlUeInfo.Discarded (amc : NrAmc) (ue : UlUeInfo μ) : Prop :=
  ue.ulRBG ≠ 0 ∧ amc.updateUlMetric ue < 12

instance (amc : NrAmc) (ue : UlUeInfo μ) : Decidable (ue.Discarded amc) :=
  inferInstanceAs (Decidable (_ ∧ _))

/-- The user after its DCI: one whose DCI was discarded has its metric reset. -/
def UlUeInfo.scheduled (resets : MetricResets μ) (amc : NrAmc) (ue : UlUeInfo μ) : UlUeInfo μ :=
  if ue.Discarded amc then
    { ue with metric := { ulTbSize := 0, other := resets.ulMetric ue.metric.other } }
  else ue

/-- The user after the slot. -/
def UlUeInfo.closed (resets : MetricResets μ) (ue : UlUeInfo μ) : UlUeInfo μ :=
  { ue with
    ulRBG := 0
    ulSym := 0
    metric := { ulTbSize := 0, other := resets.ulSchedInfo ue.metric.other } }

/-- The user has RBGs, but too few for a DCI. -/
def DlUeInfo.Discarded (ue : DlUeInfo μ) : Prop :=
  ue.dlRBG ≠ 0 ∧ ue.metric.dlTbSize.all (· < 10) = true

instance (ue : DlUeInfo μ) : Decidable ue.Discarded := inferInstanceAs (Decidable (_ ∧ _))

/-- What is sent of the streams: those with fewer than 10 bytes are dropped. -/
def sentStreams (l : List UInt32) : List UInt32 := l.map fun tbs => if tbs < 10 then 0 else tbs

def DlUeInfo.dropSmall (ue : DlUeInfo μ) : DlUeInfo μ :=
  { ue with metric.dlTbSize := sentStreams ue.metric.dlTbSize }

def DlUeInfo.reset (resets : MetricResets μ) (ue : DlUeInfo μ) : DlUeInfo μ :=
  { ue with
    metric.dlTbSize := ue.metric.dlTbSize.map fun _ => 0
    metric.other := resets.dlMetric ue.metric.other }

/-- The user after its DCI: one whose DCI was discarded has its metric reset. -/
def DlUeInfo.scheduled (resets : MetricResets μ) (ue : DlUeInfo μ) : DlUeInfo μ :=
  if ue.dlRBG = 0 then ue
  else if ue.Discarded then ue.dropSmall.reset resets
  else ue.dropSmall

/-- The user after the slot. -/
def DlUeInfo.closed (resets : MetricResets μ) (ue : DlUeInfo μ) : DlUeInfo μ :=
  { ue with
    dlRBG := 0
    dlSym := 0
    metric.dlTbSize := ue.metric.dlTbSize.map fun _ => 0
    metric.other := resets.dlSchedInfo ue.metric.other }

theorem transportUl_ul {ids : List UInt8} {ues : SchedUes μ} {rnti : UInt16}
    {dci : DciInfoElementTdma} {r : VarTtiAllocInfo × SchedUes μ}
    (h : transportUl ids ues rnti dci = some r) : r.2.ul = ues.ul := by
  obtain ⟨ue, hUe, h⟩ := Option.bind_eq_some_iff.mp h
  obtain ⟨id, hId, h⟩ := Option.bind_eq_some_iff.mp h
  obtain ⟨tbs, hTbs, h⟩ := Option.bind_eq_some_iff.mp h
  dsimp only at h
  split at h
  · cases h
  · cases h
    rfl

theorem transportDl_dl {ids : List UInt8} {ues : SchedUes μ} {rnti : UInt16}
    {dci : DciInfoElementTdma} {r : VarTtiAllocInfo × SchedUes μ}
    (h : transportDl ids ues rnti dci = some r) : r.2.dl = ues.dl := by
  obtain ⟨ue, hUe, h⟩ := Option.bind_eq_some_iff.mp h
  obtain ⟨id, hId, h⟩ := Option.bind_eq_some_iff.mp h
  obtain ⟨pdus, hPdus, h⟩ := Option.bind_eq_some_iff.mp h
  dsimp only at h
  split at h
  · cases h
  · cases h
    rfl

/-- A scheduler makes the DCI of a user with RBGs out of its TB size, unless that is too small. -/
structure CreatesUlDcis (v : NewDataScheduler μ) (amc : NrAmc) (resets : MetricResets μ) : Prop where
  createDci : ∀ {spoint rnti maxSym ues r}, (ues.ul rnti).ulRBG ≠ 0 →
    v.createDci spoint rnti maxSym ues = some r →
      r.2.2 = ues ∧ r.1.map (·.tbSize) =
        if (ues.ul rnti).Discarded amc then none else some [amc.updateUlMetric (ues.ul rnti)]
  resetMetric : v.resetMetric = resets.resetUlMetric
  resetSchedInfo : v.resetSchedInfo = resets.resetUlSchedInfo

theorem CreatesUlDcis.slotSteps {v : NewDataScheduler μ} {amc : NrAmc} {resets : MetricResets μ}
    (h : CreatesUlDcis v amc resets) (ids : List UInt8) :
    SlotSteps v (ulDirection ids) SchedUes.ul (UlUeInfo.scheduled resets amc)
      (UlUeInfo.closed resets) where
  schedule {maxSym s rnti t} hUe := by
    rw [scheduleUe] at hUe
    split at hUe
    · next hNone =>
      cases hUe
      have hSame : (s.ues.ul rnti).scheduled resets amc = s.ues.ul rnti :=
        if_neg fun hDiscarded => hDiscarded.1 hNone
      exact (modifyAt_eq_self hSame).symm
    · next hSome =>
      obtain ⟨⟨dci, spoint, ues⟩, hCreate, hUe⟩ := Option.bind_eq_some_iff.mp hUe
      obtain ⟨hUes, hDci⟩ := h.createDci hSome hCreate
      cases hUes
      cases dci with
      | none =>
        have hDiscarded : (s.ues.ul rnti).Discarded amc := by
          by_contra hNot
          rw [if_neg hNot] at hDci
          cases hDci
        cases hUe
        dsimp only
        rw [h.resetMetric, modifyAt, UlUeInfo.scheduled, if_pos hDiscarded]
        rfl
      | some dci =>
        have hKept : ¬ (s.ues.ul rnti).Discarded amc := by
          intro hDiscarded
          rw [if_pos hDiscarded] at hDci
          cases hDci
        obtain ⟨r, hTransport, hUe⟩ := Option.bind_eq_some_iff.mp hUe
        cases hUe
        exact (transportUl_ul hTransport).trans (modifyAt_eq_self (if_neg hKept)).symm
  reset rnti ues := by
    rw [h.resetSchedInfo]
    rfl

/-- A scheduler makes the DCI of a user with RBGs out of its streams, unless all are too small. -/
structure CreatesDlDcis (v : NewDataScheduler μ) (resets : MetricResets μ) : Prop where
  createDci : ∀ {spoint rnti maxSym ues r},
    v.createDci spoint rnti maxSym ues = some r →
      r.2.2.dl = modifyAt DlUeInfo.dropSmall ues.dl rnti ∧ r.1.map (·.tbSize) =
        if (ues.dl rnti).metric.dlTbSize.all (· < 10) then none
        else some (sentStreams (ues.dl rnti).metric.dlTbSize)
  resetMetric : v.resetMetric = resets.resetDlMetric
  resetSchedInfo : v.resetSchedInfo = resets.resetDlSchedInfo

theorem CreatesDlDcis.slotSteps {v : NewDataScheduler μ} {resets : MetricResets μ}
    (h : CreatesDlDcis v resets) (symbolsPerSlot : UInt32) (ids : List UInt8) :
    SlotSteps v (dlDirection symbolsPerSlot ids) SchedUes.dl (DlUeInfo.scheduled resets)
      (DlUeInfo.closed resets) where
  schedule {maxSym s rnti t} hUe := by
    rw [scheduleUe] at hUe
    split at hUe
    · next hNone =>
      cases hUe
      have hSame : (s.ues.dl rnti).scheduled resets = s.ues.dl rnti := if_pos hNone
      exact (modifyAt_eq_self hSame).symm
    · next hSome =>
      obtain ⟨⟨dci, spoint, ues⟩, hCreate, hUe⟩ := Option.bind_eq_some_iff.mp hUe
      obtain ⟨hUes, hDci⟩ := h.createDci hCreate
      have hStep : ∀ {f : DlUeInfo μ}, (s.ues.dl rnti).scheduled resets = f →
          modifyAt (DlUeInfo.scheduled resets) s.ues.dl rnti = Function.update s.ues.dl rnti f :=
        fun hEq => congrArg (Function.update s.ues.dl rnti) hEq
      cases dci with
      | none =>
        have hSmall : (s.ues.dl rnti).metric.dlTbSize.all (· < 10) = true := by
          by_contra hNot
          rw [if_neg hNot] at hDci
          cases hDci
        have hDiscarded : (s.ues.dl rnti).Discarded := ⟨hSome, hSmall⟩
        cases hUe
        rw [hStep ((if_neg hSome).trans (if_pos hDiscarded)), h.resetMetric]
        have hReset : (resets.resetDlMetric rnti ues).dl =
            Function.update ues.dl rnti ((ues.dl rnti).reset resets) := rfl
        rw [hReset, hUes, modifyAt_self, modifyAt, Function.update_idem]
      | some dci =>
        have hKept : ¬ (s.ues.dl rnti).Discarded := by
          rintro ⟨-, hSmall⟩
          rw [if_pos hSmall] at hDci
          cases hDci
        obtain ⟨r, hTransport, hUe⟩ := Option.bind_eq_some_iff.mp hUe
        have hDl : r.2.dl = ues.dl := by
          change (if _ then none else _) = _ at hTransport
          split at hTransport
          · cases hTransport
          · exact transportDl_dl hTransport
        cases hUe
        rw [hStep ((if_neg hSome).trans (if_neg hKept))]
        exact hDl.trans hUes
  reset rnti ues := by
    rw [h.resetSchedInfo]
    rfl

namespace OfdmaNewData

variable (sch : OfdmaNewData μ)

theorem createsUlDcis : CreatesUlDcis sch.ulNewData sch.ulAmc sch.resets where
  createDci {spoint rnti maxSym ues r} hSome hCreate := by
    obtain ⟨⟨dci, q⟩, hDci, hCreate⟩ := Option.bind_eq_some_iff.mp hCreate
    cases hCreate
    have hTbs : sch.ulAmc.updateUlMetric (ues.ul rnti) = sch.tbs (ues.ul rnti) := if_neg hSome
    refine ⟨rfl, ?_⟩
    rw [OfdmaScheduler.createUlDci] at hDci
    split at hDci
    · next hSmall =>
      cases hDci
      rw [if_pos ⟨hSome, hTbs ▸ hSmall⟩]
      rfl
    · next hLarge =>
      have hKept : ¬ (ues.ul rnti).Discarded sch.ulAmc := fun h => hLarge (hTbs ▸ h.2)
      rw [if_neg hKept, hTbs]
      split at hDci
      · cases hDci
      · dsimp only at hDci
        split at hDci
        · cases hDci
        · cases hDci
          rfl
  resetMetric := rfl
  resetSchedInfo := rfl

theorem createsDlDcis : CreatesDlDcis sch.dlNewData sch.resets where
  createDci {spoint rnti maxSym ues r} hCreate := by
    obtain ⟨⟨dci, q, dl⟩, hDci, hCreate⟩ := Option.bind_eq_some_iff.mp hCreate
    cases hCreate
    rw [createDlDci] at hDci
    dsimp only at hDci
    split at hDci
    · cases hDci
    · split at hDci
      · cases hDci
      · split at hDci
        · next hSmall =>
          cases hDci
          rw [if_pos hSmall]
          exact ⟨rfl, rfl⟩
        · next hLarge =>
          rw [if_neg hLarge]
          split at hDci
          · cases hDci
          · split at hDci
            · cases hDci
            · cases hDci
              exact ⟨rfl, rfl⟩
  resetMetric := rfl
  resetSchedInfo := rfl

end OfdmaNewData

namespace TdmaScheduler

variable (sch : TdmaScheduler μ)

theorem createDci_tbSize {mask : List UInt8} {spoint : PointInFTPlane} {rnti : UInt16}
    {tbs : List UInt32} {fmt : DciFormat} {mcs ndi rv : List UInt8} {numSym : UInt8}
    {dci : DciInfoElementTdma}
    (h : sch.createDci mask spoint rnti tbs fmt mcs ndi rv numSym = some dci) : dci.tbSize = tbs := by
  rw [createDci] at h
  generalize (if mask.length = 0 then List.replicate sch.bandwidthInRbg.toNat 1 else mask) =
    rbgAssigned at h
  split at h
  · cases h
  · cases h
    rfl

theorem createsUlDcis : CreatesUlDcis sch.ulNewData sch.ulAmc sch.resets where
  createDci {spoint rnti maxSym ues r} hSome hCreate := by
    obtain ⟨⟨dci, q⟩, hDci, hCreate⟩ := Option.bind_eq_some_iff.mp hCreate
    cases hCreate
    have hTbs : sch.ulAmc.updateUlMetric (ues.ul rnti) = sch.calculateTbSize (ues.ul rnti).ulMcs
        ((ues.ul rnti).ulRBG * sch.numRbPerRbg) := if_neg hSome
    refine ⟨rfl, ?_⟩
    rw [createUlDci] at hDci
    dsimp only at hDci
    split at hDci
    · next hSmall =>
      cases hDci
      rw [if_pos ⟨hSome, hTbs ▸ hSmall⟩]
      rfl
    · next hLarge =>
      have hKept : ¬ (ues.ul rnti).Discarded sch.ulAmc := fun h => hLarge (hTbs ▸ h.2)
      rw [if_neg hKept, hTbs]
      split at hDci
      · cases hDci
      · split at hDci
        · cases hDci
        · obtain ⟨dci, hMade, hDci⟩ := Option.bind_eq_some_iff.mp hDci
          cases hDci
          exact congrArg some (sch.createDci_tbSize hMade)
  resetMetric := rfl
  resetSchedInfo := rfl

theorem createsDlDcis : CreatesDlDcis sch.dlNewData sch.resets where
  createDci {spoint rnti maxSym ues r} hCreate := by
    obtain ⟨⟨dci, q, dl⟩, hDci, hCreate⟩ := Option.bind_eq_some_iff.mp hCreate
    cases hCreate
    rw [createDlDci] at hDci
    dsimp only at hDci
    split at hDci
    · next hSmall =>
      cases hDci
      rw [if_pos hSmall]
      exact ⟨rfl, rfl⟩
    · next hLarge =>
      rw [if_neg hLarge]
      split at hDci
      · cases hDci
      · obtain ⟨dci, hMade, hDci⟩ := Option.bind_eq_some_iff.mp hDci
        cases hDci
        exact ⟨rfl, congrArg some (sch.createDci_tbSize hMade)⟩
  resetMetric := rfl
  resetSchedInfo := rfl

end TdmaScheduler

end Bullet.Mac
