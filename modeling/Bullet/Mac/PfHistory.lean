import Bullet.Mac.PfTdma
import Bullet.Mac.UlDataDivisions

/-! # The history of PF

At the end of a slot the average throughput of a user becomes its last one. It is the average with what
the user was assigned, if the last update of the user saw that, or the last one again, if its DCI was
discarded.
-/

namespace Bullet.Mac

open Lib.PointUpdates Lib.Shares NewDataState

/-- The last average throughput for the next slot. -/
def PfTput.next (timeWindow prev : ℚ) (tbSize : UInt32) (symbols : ℕ) (Discarded : Prop)
    [Decidable Discarded] : ℚ :=
  if Discarded then prev else average timeWindow prev (tbSize.toNat / symbols)

section Users

variable {amc : NrAmc} {timeWindow prev : ℚ} {sym : UInt8}

theorem UlUeInfo.closed_next_iff {ue : UlUeInfo NrMacSchedulerUeInfoPF}
    (hLast : ue.metric.other.ul.lastAvgTput = prev) :
    ((ue.scheduled pfResets amc).closed pfResets).metric.other.ul.lastAvgTput =
        PfTput.next timeWindow prev (amc.updateUlMetric ue) sym.toNat (ue.Discarded amc) ↔
      ue.KeepsHistory amc timeWindow prev sym := by
  rw [UlUeInfo.KeepsHistory, PfTput.next, UlUeInfo.scheduled]
  by_cases hDiscarded : ue.Discarded amc
  · rw [if_pos hDiscarded, if_pos hDiscarded]
    exact iff_of_true hLast (Or.inl hDiscarded)
  · rw [if_neg hDiscarded, if_neg hDiscarded, or_iff_right hDiscarded]
    rfl

theorem DlUeInfo.closed_next_iff {ue : DlUeInfo NrMacSchedulerUeInfoPF}
    (hLast : ue.metric.other.dl.lastAvgTput = prev) :
    ((ue.scheduled pfResets).closed pfResets).metric.other.dl.lastAvgTput =
        PfTput.next timeWindow prev (streamBytes (sentStreams ue.metric.dlTbSize)) sym.toNat
          ue.Discarded ↔
      ue.KeepsHistory timeWindow prev sym := by
  rw [DlUeInfo.KeepsHistory, PfTput.next, DlUeInfo.scheduled]
  rcases eq_or_ne ue.dlRBG 0 with hNone | hSome
  · have hKept : ¬ ue.Discarded := fun hDiscarded => hDiscarded.1 hNone
    rw [if_pos hNone, if_neg hKept, or_iff_right hKept]
    rfl
  · rw [if_neg hSome]
    by_cases hDiscarded : ue.Discarded
    · rw [if_pos hDiscarded, if_pos hDiscarded]
      exact iff_of_true hLast (Or.inl hDiscarded)
    · rw [if_neg hDiscarded, if_neg hDiscarded, or_iff_right hDiscarded]
      rfl

end Users

/-! ## TDMA -/

namespace TdmaScheduler

variable {sch : TdmaScheduler NrMacSchedulerUeInfoPF} {amc : NrAmc} {timeWindow : ℚ}

theorem ulCallbacks_averages (prev : UInt16 → ℚ)
    (hPf : sch.ulPolicy = sch.ulAmc.pfUlPolicy timeWindow sch.ulPolicy) :
    sch.ulCallbacks.Averages (fun rnti ue => ue.metric.other.ul.lastAvgTput = prev rnti)
      (fun sym rnti ue => ue.Averaged sch.ulAmc timeWindow (prev rnti) sym) := by
  have hBefore : ∀ p ue, sch.ulCallbacks.beforeSched p ue =
      { ue with metric := sch.ulAmc.calculatePotentialTPutUl p ue } := by
    intro p ue
    change { ue with metric := sch.ulPolicy.beforeUlSched p ue } = _
    rw [hPf]
    rfl
  have hSuccess : ∀ p q ue, sch.ulCallbacks.successfullAssignment p q ue =
      { ue with metric := sch.ulAmc.updateUlPFMetric timeWindow q ue } := by
    intro p q ue
    change { ue with metric := sch.ulPolicy.assignedUlResources p q ue } = _
    rw [hPf]
    rfl
  have hUnSuccess : ∀ p q ue, sch.ulCallbacks.unSuccessfullAssignment p q ue =
      { ue with metric := sch.ulAmc.updateUlPFMetric timeWindow q ue } := by
    intro p q ue
    change { ue with metric := sch.ulPolicy.notAssignedUlResources p q ue } = _
    rw [hPf]
    rfl
  constructor
  · intro rnti p ue h
    rw [hBefore]
    exact h
  · intro p ue
    rw [hBefore]
    rfl
  · exact fun _ _ _ h => h
  · rintro rnti p q ue h
    rw [hSuccess, ← h]
    exact ⟨rfl, rfl⟩
  · intro p q ue
    rw [hUnSuccess, hSuccess]
  · exact fun _ _ _ _ h => h
  · exact fun _ _ _ h => h.lastAvg

theorem dlCallbacks_averages (prev : UInt16 → ℚ)
    (hPf : sch.dlPolicy = amc.pfDlPolicy timeWindow sch.dlPolicy) :
    sch.dlCallbacks.Averages (fun rnti ue => ue.Pending (prev rnti))
      (fun sym rnti ue => ue.Averaged amc timeWindow (prev rnti) sym) := by
  have hBefore : ∀ p ue, sch.dlCallbacks.beforeSched p ue =
      { ue with metric := amc.calculatePotentialTPutDl p ue } := by
    intro p ue
    change { ue with metric := sch.dlPolicy.beforeDlSched p ue } = _
    rw [hPf]
    rfl
  have hSuccess : ∀ p q ue,
      sch.dlCallbacks.successfullAssignment p q ue = ue.pfUpdate amc timeWindow q := by
    intro p q ue
    change { ue with metric := sch.dlPolicy.assignedDlResources p q ue } = _
    rw [hPf]
    rfl
  have hUnSuccess : ∀ p q ue,
      sch.dlCallbacks.unSuccessfullAssignment p q ue = ue.pfUpdate amc timeWindow q := by
    intro p q ue
    change { ue with metric := sch.dlPolicy.notAssignedDlResources p q ue } = _
    rw [hPf]
    rfl
  constructor
  · intro rnti p ue h
    rw [hBefore]
    exact pending_potential h p
  · intro p ue
    rw [hBefore]
    rfl
  · exact fun _ _ _ h => ⟨h.lastAvg, h.twoStreams, h.unwritten⟩
  · intro rnti p q ue h
    rw [hSuccess]
    exact averaged_pfUpdate h q
  · intro p q ue
    rw [hUnSuccess, hSuccess]
  · exact fun _ _ buf _ h => h.pass buf
  · exact fun _ _ _ h => h.toPending

end TdmaScheduler

/-- A PF scheduler with its time window and the AMC of DL. A user without RBGs has not reached its buffer
penalty. -/
inductive PfScheduler (timeWindow : ℚ) (dlAmc : NrAmc) where
  | ofdma (sch : OfdmaNewData NrMacSchedulerUeInfoPF)
      (dlPf : sch.dlPolicy = dlAmc.pfDlPolicy timeWindow sch.dlPolicy)
      (ulPf : sch.policy = sch.ulAmc.pfUlPolicy timeWindow sch.policy)
      (resets : sch.resets = pfResets)
      (penalty : ∀ maxBuffer, sch.bufferPenalty.reached 0 sch.assignableRbgs maxBuffer = false)
  | tdma (sch : TdmaScheduler NrMacSchedulerUeInfoPF)
      (dlPf : sch.dlPolicy = dlAmc.pfDlPolicy timeWindow sch.dlPolicy)
      (ulPf : sch.ulPolicy = sch.ulAmc.pfUlPolicy timeWindow sch.ulPolicy)
      (resets : sch.resets = pfResets)

namespace PfScheduler

variable {timeWindow : ℚ} {dlAmc : NrAmc}

def newData (m : PfScheduler timeWindow dlAmc) (format : DciFormat) :
    NewDataScheduler NrMacSchedulerUeInfoPF :=
  match m, format with
  | ofdma sch .., .dl => sch.dlNewData
  | ofdma sch .., .ul => sch.ulNewData
  | tdma sch .., .dl => sch.dlNewData
  | tdma sch .., .ul => sch.ulNewData

def ulAmc : PfScheduler timeWindow dlAmc → NrAmc
  | ofdma sch .. => sch.ulAmc
  | tdma sch .. => sch.ulAmc

/-- `DoScheduleDlData` and `DoScheduleUlData`. -/
def doScheduleData (m : PfScheduler timeWindow dlAmc) (format : DciFormat) (symbolsPerSlot : UInt32)
    (ids : List UInt8) (spoint : PointInFTPlane) (symAvail : UInt32) (active : ActiveUeMap)
    (ues : SchedUes NrMacSchedulerUeInfoPF) (slotAlloc : SlotAllocInfo) :
    Option (NewDataState NrMacSchedulerUeInfoPF) :=
  match format with
  | .dl =>
    doScheduleDlData (m.newData .dl) symbolsPerSlot ids spoint symAvail active ues slotAlloc
  | .ul => doScheduleUlData (m.newData .ul) ids spoint symAvail active ues slotAlloc

def tput (format : DciFormat) (ues : SchedUes NrMacSchedulerUeInfoPF) (rnti : UInt16) : PfTput :=
  match format with
  | .dl => (ues.dl rnti).metric.other.dl
  | .ul => (ues.ul rnti).metric.other.ul

/-- The bytes of the DCI of the user. -/
def tbSize (m : PfScheduler timeWindow dlAmc) (format : DciFormat)
    (ues : SchedUes NrMacSchedulerUeInfoPF) (rnti : UInt16) : UInt32 :=
  match format with
  | .dl => streamBytes (sentStreams (ues.dl rnti).metric.dlTbSize)
  | .ul => m.ulAmc.updateUlMetric (ues.ul rnti)

/-- The DCI of the user is too small to be sent. -/
def Discarded (m : PfScheduler timeWindow dlAmc) (format : DciFormat)
    (ues : SchedUes NrMacSchedulerUeInfoPF) (rnti : UInt16) : Prop :=
  match format with
  | .dl => (ues.dl rnti).Discarded
  | .ul => (ues.ul rnti).Discarded m.ulAmc

instance (m : PfScheduler timeWindow dlAmc) (format : DciFormat)
    (ues : SchedUes NrMacSchedulerUeInfoPF) (rnti : UInt16) :
    Decidable (m.Discarded format ues rnti) :=
  match format with
  | .dl => inferInstanceAs (Decidable (ues.dl rnti).Discarded)
  | .ul => inferInstanceAs (Decidable ((ues.ul rnti).Discarded m.ulAmc))

/-- The symbols over which the users of the beam are assigned RBGs: those of the beam with OFDMA, all of
the slot with TDMA. -/
def symbolsAssigned (m : PfScheduler timeWindow dlAmc) (active : ActiveUeMap)
    (symPerBeam : UInt16 → UInt32) (beam : UInt16) : ℕ :=
  match m with
  | ofdma .. => (symPerBeam beam).toNat
  | tdma .. => total active fun beam => (symPerBeam beam.1).toNat

/-- What the slot that has assigned `assigned` and ended with `final` carries into the next one. -/
structure KeepsHistory (m : PfScheduler timeWindow dlAmc) (format : DciFormat) (active : ActiveUeMap)
    (symPerBeam : UInt16 → UInt32) (ues assigned final : SchedUes NrMacSchedulerUeInfoPF) : Prop where
  outside : ∀ rnti ∉ (active.flatMap Prod.snd).map Prod.fst, tput format final rnti = tput format ues rnti
  carried : ∀ beam ∈ active, symPerBeam beam.1 ≠ 0 → ∀ ue ∈ beam.2,
    (tput format final ue.1).lastAvgTput =
      PfTput.next timeWindow (tput format ues ue.1).lastAvgTput (m.tbSize format assigned ue.1)
        (m.symbolsAssigned active symPerBeam beam.1) (m.Discarded format assigned ue.1)

/-- The last update of the users sees what they are assigned: in UL with OFDMA the grant-free RBGs of a
beam are followed by an update, and in DL no stream with bytes is cleared or dropped. -/
def SeesAssigned (m : PfScheduler timeWindow dlAmc) (format : DciFormat) (active : ActiveUeMap)
    (symPerBeam : UInt16 → UInt32) (ues assigned : SchedUes NrMacSchedulerUeInfoPF) : Prop :=
  match m, format with
  | ofdma sch .., .ul => sch.KeepsHistory timeWindow symPerBeam ues.ul ues.maxBuffer active
  | tdma .., .ul => True
  | _, .dl => ∀ beam ∈ active, symPerBeam beam.1 ≠ 0 → ∀ ue ∈ beam.2,
      (assigned.dl ue.1).SendsAll dlAmc

/-- A user at the start of a slot: the slot before has taken its RBGs and its bytes. -/
def Fresh (format : DciFormat) (ues : SchedUes NrMacSchedulerUeInfoPF) (rnti : UInt16) : Prop :=
  match format with
  | .dl => (ues.dl rnti).dlRBG = 0 ∧ (∀ tbs ∈ (ues.dl rnti).metric.dlTbSize, tbs = 0) ∧
      (ues.dl rnti).metric.dlTbSize.length ≤ 2
  | .ul => (ues.ul rnti).ulRBG = 0 ∧ (ues.ul rnti).metric.ulTbSize = 0 ∧
      (ues.ul rnti).metric.other.ul.avgTput = 0

def MaskFits (m : PfScheduler timeWindow dlAmc) (format : DciFormat) : Prop :=
  match m, format with
  | tdma sch .., .dl =>
    sch.dlNotchedRbgsMask = [] ∨ sch.dlNotchedRbgsMask.length = sch.bandwidthInRbg.toNat
  | tdma sch .., .ul =>
    sch.ulNotchedRbgsMask = [] ∨ sch.ulNotchedRbgsMask.length = sch.bandwidthInRbg.toNat
  | ofdma .., _ => True

/-- What the scheduler is called with: symbols of 8 bits, a mask of the bandwidth, and beams and users
that are listed once. -/
structure Call (m : PfScheduler timeWindow dlAmc) (format : DciFormat) (symAvail : UInt32)
    (active : ActiveUeMap) (ues : SchedUes NrMacSchedulerUeInfoPF) : Prop where
  symbols : symAvail.toNat < 2 ^ 8
  mask : m.MaskFits format
  beams : (active.map Prod.fst).Nodup
  users : ((active.flatMap Prod.snd).map Prod.fst).Nodup
  fresh : ∀ rnti ∈ (active.flatMap Prod.snd).map Prod.fst, Fresh format ues rnti

/-! ## What a slot carries -/

variable {m : PfScheduler timeWindow dlAmc} {symbolsPerSlot : UInt32} {ids : List UInt8}
  {spoint : PointInFTPlane} {symAvail : UInt32} {active : ActiveUeMap}
  {ues assigned : SchedUes NrMacSchedulerUeInfoPF} {slotAlloc : SlotAllocInfo}
  {symPerBeam : UInt16 → UInt32} {s : NewDataState NrMacSchedulerUeInfoPF}

theorem createsUlDcis : (m : PfScheduler timeWindow dlAmc) →
    CreatesUlDcis (m.newData .ul) m.ulAmc pfResets
  | ofdma sch _ _ hResets _ => hResets ▸ sch.createsUlDcis
  | tdma sch _ _ hResets => hResets ▸ sch.createsUlDcis

theorem createsDlDcis : (m : PfScheduler timeWindow dlAmc) →
    CreatesDlDcis (m.newData .dl) pfResets
  | ofdma sch _ _ hResets _ => hResets ▸ sch.createsDlDcis
  | tdma sch _ _ hResets => hResets ▸ sch.createsDlDcis

/-- A slot that leaves the users outside alone is judged user by user. -/
theorem keepsHistory_iff_users {format : DciFormat} {final : SchedUes NrMacSchedulerUeInfoPF}
    (Keeps : UInt16 → UInt16 → Prop)
    (hOutside : ∀ rnti ∉ (active.flatMap Prod.snd).map Prod.fst,
      tput format final rnti = tput format ues rnti)
    (hUsers : ∀ beam ∈ active, symPerBeam beam.1 ≠ 0 → ∀ ue ∈ beam.2,
      ((tput format final ue.1).lastAvgTput = PfTput.next timeWindow
          (tput format ues ue.1).lastAvgTput (m.tbSize format assigned ue.1)
          (m.symbolsAssigned active symPerBeam beam.1) (m.Discarded format assigned ue.1) ↔
        Keeps beam.1 ue.1)) :
    m.KeepsHistory format active symPerBeam ues assigned final ↔
      ∀ beam ∈ active, symPerBeam beam.1 ≠ 0 → ∀ ue ∈ beam.2, Keeps beam.1 ue.1 := by
  constructor
  · intro h beam hBeam hSome ue hUe
    exact (hUsers beam hBeam hSome ue hUe).mp (h.carried beam hBeam hSome ue hUe)
  · intro h
    refine ⟨hOutside, fun beam hBeam hSome ue hUe => ?_⟩
    exact (hUsers beam hBeam hSome ue hUe).mpr (h beam hBeam hSome ue hUe)

theorem keepsHistory_ul_iff (sym : UInt16 → UInt8)
    (hKeys : ((active.flatMap Prod.snd).map Prod.fst).Nodup)
    (hAssign : (m.newData .ul).assignRBG symAvail active ues = some (assigned, symPerBeam))
    (h : m.doScheduleData .ul symbolsPerSlot ids spoint symAvail active ues slotAlloc = some s)
    (hOutside : ∀ rnti ∉ (active.flatMap Prod.snd).map Prod.fst, assigned.ul rnti = ues.ul rnti)
    (hLast : ∀ beam ∈ active, symPerBeam beam.1 ≠ 0 → ∀ ue ∈ beam.2,
      (tput .ul assigned ue.1).lastAvgTput = (tput .ul ues ue.1).lastAvgTput)
    (hSym : ∀ beam ∈ active, symPerBeam beam.1 ≠ 0 →
      (sym beam.1).toNat = m.symbolsAssigned active symPerBeam beam.1) :
    m.KeepsHistory .ul active symPerBeam ues assigned s.ues ↔
      ∀ beam ∈ active, symPerBeam beam.1 ≠ 0 → ∀ ue ∈ beam.2,
        (assigned.ul ue.1).KeepsHistory m.ulAmc timeWindow (tput .ul ues ue.1).lastAvgTput
          (sym beam.1) := by
  change doScheduleUlData _ _ _ _ _ _ _ = _ at h
  rw [doScheduleUlData] at h
  split at h
  · cases h
  · obtain ⟨r, hR, h⟩ := Option.bind_eq_some_iff.mp h
    cases hR.symm.trans hAssign
    dsimp only at h
    split at h
    · cases h
    · obtain ⟨t, hLoop, hFinish⟩ := Option.bind_eq_some_iff.mp h
      obtain ⟨hFrame, hBeams⟩ :=
        (m.createsUlDcis.slotSteps ids).slot_view hKeys hLoop hFinish
      refine keepsHistory_iff_users (fun beam rnti => (assigned.ul rnti).KeepsHistory m.ulAmc
        timeWindow (tput .ul ues rnti).lastAvgTput (sym beam)) ?_ ?_
      · intro rnti hNot
        exact congrArg (fun ue : UlUeInfo NrMacSchedulerUeInfoPF => ue.metric.other.ul)
          ((hFrame rnti hNot).trans (hOutside rnti hNot))
      · intro beam hBeam hSome ue hUe
        have hNext : tput .ul s.ues ue.1 = (((assigned.ul ue.1).scheduled pfResets m.ulAmc).closed
            pfResets).metric.other.ul :=
          congrArg (fun ue : UlUeInfo NrMacSchedulerUeInfoPF => ue.metric.other.ul)
            (hBeams beam hBeam hSome ue hUe)
        rw [hNext, ← hSym beam hBeam hSome]
        exact UlUeInfo.closed_next_iff (hLast beam hBeam hSome ue hUe)

theorem keepsHistory_dl_iff (sym : UInt16 → UInt8)
    (hKeys : ((active.flatMap Prod.snd).map Prod.fst).Nodup)
    (hAssign : (m.newData .dl).assignRBG symAvail active ues = some (assigned, symPerBeam))
    (h : m.doScheduleData .dl symbolsPerSlot ids spoint symAvail active ues slotAlloc = some s)
    (hOutside : ∀ rnti ∉ (active.flatMap Prod.snd).map Prod.fst, assigned.dl rnti = ues.dl rnti)
    (hLast : ∀ beam ∈ active, symPerBeam beam.1 ≠ 0 → ∀ ue ∈ beam.2,
      (tput .dl assigned ue.1).lastAvgTput = (tput .dl ues ue.1).lastAvgTput)
    (hSym : ∀ beam ∈ active, symPerBeam beam.1 ≠ 0 →
      (sym beam.1).toNat = m.symbolsAssigned active symPerBeam beam.1) :
    m.KeepsHistory .dl active symPerBeam ues assigned s.ues ↔
      ∀ beam ∈ active, symPerBeam beam.1 ≠ 0 → ∀ ue ∈ beam.2,
        (assigned.dl ue.1).KeepsHistory timeWindow (tput .dl ues ue.1).lastAvgTput
          (sym beam.1) := by
  change doScheduleDlData _ _ _ _ _ _ _ _ = _ at h
  rw [doScheduleDlData] at h
  split at h
  · cases h
  · obtain ⟨r, hR, h⟩ := Option.bind_eq_some_iff.mp h
    cases hR.symm.trans hAssign
    obtain ⟨t, hLoop, hFinish⟩ := Option.bind_eq_some_iff.mp h
    obtain ⟨hFrame, hBeams⟩ :=
      (m.createsDlDcis.slotSteps symbolsPerSlot ids).slot_view hKeys hLoop hFinish
    refine keepsHistory_iff_users (fun beam rnti => (assigned.dl rnti).KeepsHistory
      timeWindow (tput .dl ues rnti).lastAvgTput (sym beam)) ?_ ?_
    · intro rnti hNot
      exact congrArg (fun ue : DlUeInfo NrMacSchedulerUeInfoPF => ue.metric.other.dl)
        ((hFrame rnti hNot).trans (hOutside rnti hNot))
    · intro beam hBeam hSome ue hUe
      have hNext : tput .dl s.ues ue.1 = (((assigned.dl ue.1).scheduled pfResets).closed
          pfResets).metric.other.dl :=
        congrArg (fun ue : DlUeInfo NrMacSchedulerUeInfoPF => ue.metric.other.dl)
          (hBeams beam hBeam hSome ue hUe)
      rw [hNext, ← hSym beam hBeam hSome]
      exact DlUeInfo.closed_next_iff (hLast beam hBeam hSome ue hUe)

/-- The symbols of a beam fit into 8 bits. -/
theorem toUInt8_toNat {n : UInt32} (h : n.toNat ≤ symAvail.toNat) (hAvail : symAvail.toNat < 2 ^ 8) :
    n.toUInt8.toNat = n.toNat := by
  rw [UInt32.toNat_toUInt8]
  exact Nat.mod_eq_of_lt (by omega)

theorem toUInt8_ne_zero {n : UInt32} (h : n.toNat ≤ symAvail.toNat) (hAvail : symAvail.toNat < 2 ^ 8)
    (hSome : n ≠ 0) : n.toUInt8 ≠ 0 := by
  intro hZero
  have hNat := toUInt8_toNat h hAvail
  rw [hZero] at hNat
  exact hSome (UInt32.toNat_inj.mp hNat.symm)

/-- A slot ends with its users ready for the next one. -/
theorem doScheduleData_ends {format : DciFormat}
    (hKeys : ((active.flatMap Prod.snd).map Prod.fst).Nodup)
    (h : m.doScheduleData format symbolsPerSlot ids spoint symAvail active ues slotAlloc = some s)
    {rnti : UInt16} (hMem : rnti ∈ (active.flatMap Prod.snd).map Prod.fst) :
    match format with
    | .dl => (s.ues.dl rnti).dlRBG = 0 ∧ ∀ tbs ∈ (s.ues.dl rnti).metric.dlTbSize, tbs = 0
    | .ul => Fresh .ul s.ues rnti := by
  cases format with
  | dl =>
    change doScheduleDlData _ _ _ _ _ _ _ _ = _ at h
    rw [doScheduleDlData] at h
    split at h
    · cases h
    · obtain ⟨r, -, h⟩ := Option.bind_eq_some_iff.mp h
      obtain ⟨t, -, hFinish⟩ := Option.bind_eq_some_iff.mp h
      have hClosed := (m.createsDlDcis.slotSteps symbolsPerSlot ids).finish_of_mem hKeys hFinish hMem
      dsimp only
      rw [hClosed]
      refine ⟨rfl, fun tbs hTbs => ?_⟩
      obtain ⟨-, -, rfl⟩ := List.mem_map.mp hTbs
      rfl
  | ul =>
    change doScheduleUlData _ _ _ _ _ _ _ = _ at h
    rw [doScheduleUlData] at h
    split at h
    · cases h
    · obtain ⟨r, -, h⟩ := Option.bind_eq_some_iff.mp h
      dsimp only at h
      split at h
      · cases h
      · obtain ⟨t, -, hFinish⟩ := Option.bind_eq_some_iff.mp h
        have hClosed := (m.createsUlDcis.slotSteps ids).finish_of_mem hKeys hFinish hMem
        dsimp only [Fresh]
        rw [hClosed]
        exact ⟨rfl, rfl, rfl⟩

/-- In DL the users that were updated keep their history exactly if all that was found is sent. -/
theorem keepsHistory_dl_of_averaged (sym : UInt16 → UInt8) (hWindow : timeWindow ≠ 0)
    (hKeys : ((active.flatMap Prod.snd).map Prod.fst).Nodup)
    (hAssign : (m.newData .dl).assignRBG symAvail active ues = some (assigned, symPerBeam))
    (h : m.doScheduleData .dl symbolsPerSlot ids spoint symAvail active ues slotAlloc = some s)
    (hOutside : ∀ rnti ∉ (active.flatMap Prod.snd).map Prod.fst, assigned.dl rnti = ues.dl rnti)
    (hAveraged : ∀ beam ∈ active, symPerBeam beam.1 ≠ 0 → ∀ ue ∈ beam.2,
      (assigned.dl ue.1).Averaged dlAmc timeWindow (tput .dl ues ue.1).lastAvgTput (sym beam.1))
    (hSym : ∀ beam ∈ active, symPerBeam beam.1 ≠ 0 → sym beam.1 ≠ 0 ∧
      (sym beam.1).toNat = m.symbolsAssigned active symPerBeam beam.1) :
    m.KeepsHistory .dl active symPerBeam ues assigned s.ues ↔
      ∀ beam ∈ active, symPerBeam beam.1 ≠ 0 → ∀ ue ∈ beam.2,
        (assigned.dl ue.1).SendsAll dlAmc := by
  rw [keepsHistory_dl_iff sym hKeys hAssign h hOutside
    (fun beam hBeam hSome ue hUe => (hAveraged beam hBeam hSome ue hUe).lastAvg)
    fun beam hBeam hSome => (hSym beam hBeam hSome).2]
  refine forall₂_congr fun beam hBeam => forall_congr' fun hSome => forall₂_congr fun ue hUe => ?_
  exact (hAveraged beam hBeam hSome ue hUe).keepsHistory_iff hWindow (hSym beam hBeam hSome).1

/-- In UL a beam with users has symbols, as the traces divide by them. -/
theorem symbols_of_doScheduleUlData
    (hAssign : (m.newData .ul).assignRBG symAvail active ues = some (assigned, symPerBeam))
    (h : m.doScheduleData .ul symbolsPerSlot ids spoint symAvail active ues slotAlloc = some s) :
    active ≠ [] ∧ ∀ beam ∈ active, beam.2 ≠ [] → symPerBeam beam.1 ≠ 0 := by
  change doScheduleUlData _ _ _ _ _ _ _ = _ at h
  rw [doScheduleUlData] at h
  split at h
  · cases h
  · next hStart =>
    refine ⟨fun hNone => hStart (Or.inr (Or.inl hNone)), fun beam hBeam hUsers hNone => ?_⟩
    obtain ⟨r, hR, h⟩ := Option.bind_eq_some_iff.mp h
    cases hR.symm.trans hAssign
    dsimp only at h
    rw [if_pos] at h
    · cases h
    · exact List.any_eq_true.mpr ⟨beam, hBeam, decide_eq_true ⟨hNone, hUsers⟩⟩

theorem tdma_sym {sch : TdmaScheduler NrMacSchedulerUeInfoPF} {α : Type} {cb : TdmaCallbacks α}
    {mask : List UInt8} {records : UInt16 → α} {r : (UInt16 → α) × List (UInt16 × UInt32)}
    (hMask : mask = [] ∨ mask.length = sch.bandwidthInRbg.toNat) (hAvail : symAvail.toNat < 2 ^ 8)
    (hBeams : (active.map Prod.fst).Nodup)
    (hKeys : ((active.flatMap Prod.snd).map Prod.fst).Nodup)
    (hFresh : ∀ rnti ∈ (active.flatMap Prod.snd).map Prod.fst, cb.getRBG (records rnti) = 0)
    (h : cb.assignRBGTDMA (sch.numOfAssignableRbgs mask) symAvail active records = some r)
    {beam : UInt16 × List UePtrAndBufferReq} (hBeam : beam ∈ active)
    (hSome : symbolsOf r.2 beam.1 ≠ 0) :
    UInt8.ofNat (total active fun beam => (symbolsOf r.2 beam.1).toNat) ≠ 0 ∧
      (UInt8.ofNat (total active fun beam => (symbolsOf r.2 beam.1).toNat)).toNat =
        total active fun beam => (symbolsOf r.2 beam.1).toNat := by
  have hAll := TdmaCallbacks.total_symbols_le (UlScheduler.numOfAssignableRbgs_lt hMask) hAvail hBeams
    hKeys hFresh h
  have hNat : (UInt8.ofNat (total active fun beam => (symbolsOf r.2 beam.1).toNat)).toNat =
      total active fun beam => (symbolsOf r.2 beam.1).toNat := by
    rw [UInt8.toNat_ofNat']
    exact Nat.mod_eq_of_lt (by omega)
  refine ⟨fun hZero => hSome ?_, hNat⟩
  have hLe := le_total (fun beam => (symbolsOf r.2 beam.1).toNat) hBeam
  rw [hZero] at hNat
  exact UInt32.toNat_inj.mp (Nat.le_zero.mp (hLe.trans_eq hNat.symm))

theorem mapOrder_perm (l : List (UInt16 × UInt32)) : l.Perm l := .refl l

/-- OFDMA over 15 RBGs with the sort in the order of the map. -/
def fifteenRbgs (scheduleMode : Int) : OfdmaNewData NrMacSchedulerUeInfoPF where
  scheduleMode := scheduleMode
  enableBbr := false
  windowPassed := false
  bandwidthInRbg := 15
  numRbPerRbg := 1
  bwpId := 0
  ulNotchedRbgsMask := []
  proactiveBSR _ := 1000
  confidentBSR _ := 0
  policy := NrAmc.pfUlPolicy ⟨fun _ => OfdmaScheduler.tbSizeMcs9, 1⟩ 99
    { beforeUlSched := fun _ ue => ue.metric
      assignedUlResources := fun _ _ ue => ue.metric
      notAssignedUlResources := fun _ _ ue => ue.metric
      sort := fun _ l => l
      sort_perm := fun _ => List.Perm.refl }
  bufferPenalty := (OfdmaScheduler.grantFree 15).bufferPenalty
  calculateTbSize _ := OfdmaScheduler.tbSizeMcs9
  dlNotchedRbgsMask := []
  dlPolicy := NrAmc.pfDlPolicy ⟨fun _ => OfdmaScheduler.tbSizeMcs9, 1⟩ 99
    { beforeDlSched := fun _ ue => ue.metric
      assignedDlResources := fun _ _ ue => ue.metric
      notAssignedDlResources := fun _ _ ue => ue.metric
      sort := fun _ l => l
      sort_perm := fun _ => List.Perm.refl }
  resets := pfResets
  symForBeam := UlScheduler.exactShare
  symForBeam_le := UlScheduler.exactShare_le
  walkOrder l := l
  walkOrder_perm := mapOrder_perm

def dlAmc9 : NrAmc := ⟨fun _ => OfdmaScheduler.tbSizeMcs9, 1⟩

/-- The scheduler as one of PF. -/
def pfFifteenRbgs (scheduleMode : Int) : PfScheduler 99 dlAmc9 :=
  .ofdma (fifteenRbgs scheduleMode) rfl rfl rfl fun maxBuffer => by
    have hPos : ¬ 15 * max maxBuffer.toNat 60000 ≤ 150000 * 0 := by omega
    exact decide_eq_false hPos

/-- User 1 has had 100 bytes for each symbol, and reports two streams. -/
def twoStreamUsers : SchedUes NrMacSchedulerUeInfoPF where
  harq rnti := some
    { rnti := rnti
      dlHarq := fun _ => some {}
      ulHarq := fun _ => some {} }
  dl _ :=
    { dlMcs := [9, 9]
      metric :=
        { dlTbSize := [0, 0]
          other := { dlCqi := { ri := 2, wbCqi := [9, 9] }, dl := { lastAvgTput := 100 } } } }
  ul _ := { ulMcs := 9, metric := { other := { ul := { lastAvgTput := 100 } } } }
  dlLCG _ := [⟨0, [{ id := 3, rlcTransmissionQueueSize := 20 }]⟩]
  ulLCG _ := [⟨0, [{ id := 3, rlcTransmissionQueueSize := 2000 }]⟩]


theorem fresh_twoStreamUsers (format : DciFormat) (rnti : UInt16) :
    Fresh format twoStreamUsers rnti := by
  cases format
  · have hEmpty : ∀ tbs ∈ (twoStreamUsers.dl rnti).metric.dlTbSize, tbs = 0 :=
      List.forall_mem_cons.mpr ⟨rfl, List.forall_mem_singleton.mpr rfl⟩
    exact ⟨rfl, hEmpty, Nat.le_refl 2⟩
  · exact ⟨rfl, rfl, rfl⟩

/-- A user on one beam is a call. -/
theorem call_one (scheduleMode : Int) (format : DciFormat) (bytes : UInt32) :
    (pfFifteenRbgs scheduleMode).Call format 6 [(3, [(1, bytes)])] twoStreamUsers where
  symbols := by decide
  mask := by cases format <;> trivial
  beams := List.nodup_singleton _
  users := List.nodup_singleton _
  fresh rnti _ := fresh_twoStreamUsers format rnti

end PfScheduler

end Bullet.Mac
