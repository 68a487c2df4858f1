import Mathlib.Algebra.Order.Field.Rat
import Bullet.Mac.BeamSymbols
import Bullet.Mac.UlConservation
import Bullet.Mac.UlDivisions

/-! # The divisions of `DoScheduleUlData`

The scheduling of UL data with the divisions of the assignment, of the split and of the traces where
the source makes them, for OFDMA and TDMA. A division by zero is one by integers or one in `double`.
-/

namespace Bullet.Mac

open Lib.Faults Lib.Shares

variable {μ α : Type}

namespace TdmaCallbacks

variable (cb : TdmaCallbacks α)

def symOfBeamChecked (rbgs : UInt32) (ues : UInt16 → α) (beam : List UePtrAndBufferReq) :
    Except Fault UInt32 :=
  beam.foldlM (fun sym ue => do
    let symOfUe ← divide (cb.getRBG (ues ue.1)) rbgs
    .ok (sym + symOfUe)) 0

def symPerBeamChecked (rbgs : UInt32) (ues : UInt16 → α) :
    ActiveUeMap → Except Fault (List (UInt16 × UInt32))
  | [] => .ok []
  | el :: activeUe => do
    let symOfBeam ← cb.symOfBeamChecked rbgs ues el.2
    let ret ← symPerBeamChecked rbgs ues activeUe
    .ok ((el.1, symOfBeam) :: ret)

def assignRBGTDMAChecked (rbgs symAvail : UInt32) (activeUe : ActiveUeMap) (ues : UInt16 → α) :
    Except Fault ((UInt16 → α) × List (UInt16 × UInt32)) :=
  if rbgs = 0 then .error .assertion
  else do
    let s := cb.assignLoop rbgs symAvail.toNat (cb.start rbgs activeUe ues)
    let ret ← cb.symPerBeamChecked rbgs s.ues activeUe
    .ok (s.ues, ret)

variable {rbgs : UInt32}

theorem symOfBeamChecked_eq (hRbgs : rbgs ≠ 0) (ues : UInt16 → α) (beam : List UePtrAndBufferReq) :
    cb.symOfBeamChecked rbgs ues beam = .ok (cb.symOfBeam rbgs ues beam) := by
  refine foldlM_ok (fun sym ue _ => ?_) 0
  rw [divide_of_ne hRbgs, bind_ok]

theorem symPerBeamChecked_eq (hRbgs : rbgs ≠ 0) (ues : UInt16 → α) (activeUe : ActiveUeMap) :
    cb.symPerBeamChecked rbgs ues activeUe =
      .ok (activeUe.map fun el => (el.1, cb.symOfBeam rbgs ues el.2)) := by
  induction activeUe with
  | nil => rfl
  | cons el activeUe ih =>
    rw [symPerBeamChecked, cb.symOfBeamChecked_eq hRbgs, bind_ok, ih, bind_ok, List.map_cons]

theorem assignRBGTDMAChecked_eq (hRbgs : rbgs ≠ 0) (symAvail : UInt32) (activeUe : ActiveUeMap)
    (ues : UInt16 → α) :
    ∃ r, cb.assignRBGTDMA rbgs symAvail activeUe ues = some r ∧
      cb.assignRBGTDMAChecked rbgs symAvail activeUe ues = .ok r := by
  refine ⟨_, if_neg hRbgs, ?_⟩
  rw [assignRBGTDMAChecked, if_neg hRbgs]
  dsimp only
  rw [cb.symPerBeamChecked_eq hRbgs, bind_ok]
  rfl

end TdmaCallbacks

/-- Either scheduler, with what it reads for UL data. -/
inductive UlScheduler (μ : Type) where
  | ofdma (sch : OfdmaNewData μ)
  | tdma (sch : TdmaScheduler μ)

/-- What the traces read besides the users: the proactive demands, and what lay in
`spectral_efficiency` before a user. -/
structure UlTrace where
  proactiveBSR : UInt16 → UInt32
  spectralEfficiency : UInt16 → ℚ

namespace UlTrace

variable (tr : UlTrace)

/-- The traces of one user. -/
def traceUe (beamSym : UInt32) (ues : UlUes μ) (ue : UePtrAndBufferReq) : Except Fault Unit := do
  let reactiveBuffer := ue.2 - tr.proactiveBSR ue.1
  let allocRb ← divide (ues ue.1).ulRBG beamSym
  let spectralEfficiency : ℚ ←
    if allocRb = 0 then .ok (tr.spectralEfficiency ue.1)
    else do
      let quotient ← divide (ues ue.1).metric.ulTbSize allocRb
      .ok (quotient.toNat : ℚ)
  let proactiveAlloc := ((ues ue.1).metric.ulTbSize - reactiveBuffer).toInt32
  if 0 < proactiveAlloc ∧ spectralEfficiency = 0 then .error .division else .ok ()

def traceUes (symPerBeam : UInt16 → UInt32) (ues : UlUes μ) (activeUl : ActiveUeMap) :
    Except Fault Unit :=
  activeUl.forM fun el => el.2.forM fun ue => tr.traceUe (symPerBeam el.1) ues ue

/-- The TBS of a user that goes beyond its reactive demand has a byte for each of its RBGs. -/
def Efficient (beamSym : UInt32) (ues : UlUes μ) (ue : UePtrAndBufferReq) : Prop :=
  0 < ((ues ue.1).metric.ulTbSize - (ue.2 - tr.proactiveBSR ue.1)).toInt32 →
    if (ues ue.1).ulRBG / beamSym = 0 then tr.spectralEfficiency ue.1 ≠ 0
    else (ues ue.1).ulRBG / beamSym ≤ (ues ue.1).metric.ulTbSize

instance (beamSym : UInt32) (ues : UlUes μ) (ue : UePtrAndBufferReq) :
    Decidable (tr.Efficient beamSym ues ue) :=
  inferInstanceAs (Decidable (_ → _))

theorem traceUe_zero (ues : UlUes μ) (ue : UePtrAndBufferReq) :
    tr.traceUe 0 ues ue = .error .division := rfl

variable {tr}

/-- The efficiency that the traces compute. -/
def efficiency (tr : UlTrace) (beamSym : UInt32) (ues : UlUes μ) (ue : UePtrAndBufferReq) : ℚ :=
  if (ues ue.1).ulRBG / beamSym = 0 then tr.spectralEfficiency ue.1
  else (((ues ue.1).metric.ulTbSize / ((ues ue.1).ulRBG / beamSym)).toNat : ℚ)

theorem efficiency_ne_zero_iff {beamSym : UInt32} (ues : UlUes μ) (ue : UePtrAndBufferReq) :
    tr.efficiency beamSym ues ue ≠ 0 ↔
      if (ues ue.1).ulRBG / beamSym = 0 then tr.spectralEfficiency ue.1 ≠ 0
      else (ues ue.1).ulRBG / beamSym ≤ (ues ue.1).metric.ulTbSize := by
  rw [efficiency]
  split
  · exact Iff.rfl
  · next hSome =>
    have hPos : 0 < ((ues ue.1).ulRBG / beamSym).toNat := by
      rw [Nat.pos_iff_ne_zero]
      exact fun hZero => hSome (UInt32.toNat_inj.mp hZero)
    rw [Nat.cast_ne_zero, UInt32.toNat_div, UInt32.le_iff_toNat_le]
    exact Nat.div_ne_zero_iff.trans (and_iff_right hPos.ne')

theorem traceUe_eq {beamSym : UInt32} (hSym : beamSym ≠ 0) (ues : UlUes μ)
    (ue : UePtrAndBufferReq) :
    tr.traceUe beamSym ues ue =
      if 0 < ((ues ue.1).metric.ulTbSize - (ue.2 - tr.proactiveBSR ue.1)).toInt32 ∧
        tr.efficiency beamSym ues ue = 0 then .error .division else .ok () := by
  rw [traceUe, divide_of_ne hSym, bind_ok, efficiency]
  by_cases hNone : (ues ue.1).ulRBG / beamSym = 0
  · rw [if_pos hNone, if_pos hNone, bind_ok]
  · rw [if_neg hNone, if_neg hNone, divide_of_ne hNone, bind_ok, bind_ok]

theorem traceUe_ne_assertion (beamSym : UInt32) (ues : UlUes μ) (ue : UePtrAndBufferReq) :
    tr.traceUe beamSym ues ue ≠ .error .assertion := by
  by_cases hSym : beamSym = 0
  · rw [hSym, traceUe_zero]
    nofun
  · rw [traceUe_eq hSym]
    split <;> nofun

theorem traceUe_ne_division_iff {beamSym : UInt32} (ues : UlUes μ) (ue : UePtrAndBufferReq) :
    tr.traceUe beamSym ues ue ≠ .error .division ↔ beamSym ≠ 0 ∧ tr.Efficient beamSym ues ue := by
  by_cases hSym : beamSym = 0
  · rw [hSym, traceUe_zero]
    exact iff_of_false (fun h => h rfl) (fun h => h.1 rfl)
  · rw [traceUe_eq hSym, and_iff_right hSym, Efficient, ← efficiency_ne_zero_iff]
    split
    · next hDivides => exact iff_of_false (fun h => h rfl) fun h => h hDivides.1 hDivides.2
    · next hFits => exact iff_of_true nofun fun hBeyond hZero => hFits ⟨hBeyond, hZero⟩

theorem traceUes_ne_division_iff (symPerBeam : UInt16 → UInt32) (ues : UlUes μ)
    (activeUl : ActiveUeMap) :
    tr.traceUes symPerBeam ues activeUl ≠ .error .division ↔
      ∀ el ∈ activeUl, ∀ ue ∈ el.2, symPerBeam el.1 ≠ 0 ∧ tr.Efficient (symPerBeam el.1) ues ue := by
  rw [traceUes, forM_ne_division_iff fun el _ => forM_ne_assertion fun ue _ =>
    traceUe_ne_assertion (symPerBeam el.1) ues ue]
  refine forall₂_congr fun el _ => ?_
  rw [forM_ne_division_iff fun ue _ => traceUe_ne_assertion (symPerBeam el.1) ues ue]
  exact forall₂_congr fun ue _ => traceUe_ne_division_iff ues ue

end UlTrace

namespace UlScheduler

/-- The virtual functions of the scheduler, as they are without faults. -/
def newData : UlScheduler μ → NewDataScheduler μ
  | ofdma sch => sch.ulNewData
  | tdma sch => sch.ulNewData

/-- `AssignULRBG`. The split of OFDMA divides by the sum of all requests. -/
def assignULRBG (m : UlScheduler μ) (symAvail : UInt32) (activeUl : ActiveUeMap) (ues : SchedUes μ) :
    Except Fault (SchedUes μ × (UInt16 → UInt32)) :=
  match m with
  | ofdma sch =>
    if bufTotal activeUl = 0 then .error .division
    else
      match sch.getSymPerBeam symAvail activeUl with
      | none => .error .assertion
      | some symPerBeam => do
        let (ul, maxBuffer) ←
          sch.assignULRBGChecked (symbolsOf symPerBeam) ues.ul ues.maxBuffer activeUl
        .ok ({ ues with ul := ul, maxBuffer := maxBuffer }, symbolsOf symPerBeam)
  | tdma sch => do
    let (ul, symPerBeam) ← sch.ulCallbacks.assignRBGTDMAChecked
      (sch.numOfAssignableRbgs sch.ulNotchedRbgsMask) symAvail activeUl ues.ul
    .ok ({ ues with ul := ul }, symbolsOf symPerBeam)

/-- `DoScheduleUlData`. Its loop over the beams creates DCIs for beams with symbols only, and so
stops at assertions at most. -/
def scheduleUlData (m : UlScheduler μ) (tr : UlTrace) (ids : List UInt8) (spoint : PointInFTPlane)
    (symAvail : UInt32) (activeUl : ActiveUeMap) (ues : SchedUes μ) (slotAlloc : SlotAllocInfo) :
    Except Fault (NewDataState μ) :=
  if symAvail = 0 ∨ activeUl = [] ∨ spoint.rbg ≠ 0 then .error .assertion
  else do
    let (ues, symPerBeam) ← m.assignULRBG symAvail activeUl ues
    tr.traceUes symPerBeam ues.ul activeUl
    match (NewDataState.loop m.newData (ulDirection ids) symPerBeam
        ⟨spoint, ues, slotAlloc, 0, false, [], 0⟩ activeUl).bind
          (NewDataState.finish m.newData activeUl) with
    | none => .error .assertion
    | some s => .ok s

variable {m : UlScheduler μ} {tr : UlTrace} {ids : List UInt8} {spoint : PointInFTPlane}
  {symAvail : UInt32} {activeUl : ActiveUeMap} {ues : SchedUes μ} {slotAlloc : SlotAllocInfo}

/-- There is an RBG for UL, as the assignments assert. -/
def Usable : UlScheduler μ → Prop
  | ofdma sch => sch.assignableRbgs ≠ 0
  | tdma sch => sch.numOfAssignableRbgs sch.ulNotchedRbgsMask ≠ 0 ∧
      (sch.ulNotchedRbgsMask = [] ∨ sch.ulNotchedRbgsMask.length = sch.bandwidthInRbg.toNat)

/-- What `DoScheduleUl` calls with: there are symbols, counted in 8 bits, and active beams, the beams
and the users of a beam are distinct, and the users have no RBGs from the slot before. -/
structure Call (m : UlScheduler μ) (spoint : PointInFTPlane) (symAvail : UInt32)
    (activeUl : ActiveUeMap) (ues : SchedUes μ) : Prop where
  symbols : symAvail ≠ 0
  symbolsFit : symAvail.toNat < 2 ^ 8
  active : activeUl ≠ []
  start : spoint.rbg = 0
  beams : (activeUl.map Prod.fst).Nodup
  users : ∀ beam ∈ activeUl, (beam.2.map Prod.fst).Nodup
  fresh : ∀ beam ∈ activeUl, ∀ ue ∈ beam.2, (ues.ul ue.1).ulRBG = 0
  usable : m.Usable

/-- Every beam with a user gets a symbol; with OFDMA, some user asks for something. -/
def Served (m : UlScheduler μ) (symAvail : UInt32) (activeUl : ActiveUeMap) (ues : SchedUes μ) :
    Prop :=
  match m with
  | ofdma sch => bufTotal activeUl ≠ 0 ∧
      ∀ beam ∈ activeUl, beam.2 ≠ [] → sch.GetsSymbol symAvail activeUl beam.1
  | tdma sch => ∀ beam ∈ activeUl, beam.2 ≠ [] →
      sch.ulCallbacks.GetsSymbol (sch.numOfAssignableRbgs sch.ulNotchedRbgsMask) symAvail activeUl
        ues.ul beam.2

/-- The call divides by zero nowhere, and a beam without symbols gets no DCI and changes nothing. -/
structure DividesSafely (m : UlScheduler μ) (tr : UlTrace) (ids : List UInt8)
    (spoint : PointInFTPlane) (symAvail : UInt32) (activeUl : ActiveUeMap) (ues : SchedUes μ)
    (slotAlloc : SlotAllocInfo) : Prop where
  divides : m.scheduleUlData tr ids spoint symAvail activeUl ues slotAlloc ≠ .error .division
  skips : ∀ ues' symPerBeam, m.assignULRBG symAvail activeUl ues = .ok (ues', symPerBeam) → ∀ s,
    NewDataState.loop m.newData (ulDirection ids) symPerBeam s activeUl =
      NewDataState.loop m.newData (ulDirection ids) symPerBeam s
        (activeUl.filter fun beam => symPerBeam beam.1 ≠ 0)

theorem loop_filter (v : NewDataScheduler μ) (d : Direction μ) (symPerBeam : UInt16 → UInt32)
    (s : NewDataState μ) (active : ActiveUeMap) :
    NewDataState.loop v d symPerBeam s active =
      NewDataState.loop v d symPerBeam s (active.filter fun beam => symPerBeam beam.1 ≠ 0) := by
  induction active generalizing s with
  | nil => rfl
  | cons beam active ih =>
    by_cases hNone : symPerBeam beam.1 = 0
    · rw [NewDataState.loop, if_pos hNone, List.filter_cons_of_neg (by simpa using hNone), ih]
    · rw [NewDataState.loop, if_neg hNone, List.filter_cons_of_pos (by simpa using hNone),
        NewDataState.loop, if_neg hNone]
      exact congrArg _ (funext fun t => ih _)

/-- What a call divides by, part by part. -/
theorem scheduleUlData_ne_division_iff (hCall : m.Call spoint symAvail activeUl ues) :
    m.scheduleUlData tr ids spoint symAvail activeUl ues slotAlloc ≠ .error .division ↔
      m.assignULRBG symAvail activeUl ues ≠ .error .division ∧
        ∀ r, m.assignULRBG symAvail activeUl ues = .ok r →
          tr.traceUes r.2 r.1.ul activeUl ≠ .error .division := by
  have hAsserted : ¬ (symAvail = 0 ∨ activeUl = [] ∨ spoint.rbg ≠ 0) := by
    rintro (hZero | hNone | hStart)
    · exact hCall.symbols hZero
    · exact hCall.active hNone
    · exact hStart hCall.start
  rw [scheduleUlData, if_neg hAsserted]
  cases hAssign : m.assignULRBG symAvail activeUl ues with
  | error fault =>
    rw [bind_error]
    exact ⟨fun h => ⟨fun hEq => h (congrArg _ (Except.error.inj hEq)), nofun⟩,
      fun h hEq => h.1 (congrArg _ (Except.error.inj hEq))⟩
  | ok r =>
    rw [bind_ok]
    dsimp only
    cases hTrace : tr.traceUes r.2 r.1.ul activeUl with
    | error fault =>
      rw [bind_error]
      constructor
      · intro h
        refine ⟨nofun, fun r' hr => ?_⟩
        cases hr
        rw [hTrace]
        exact fun hEq => h (congrArg _ (Except.error.inj hEq))
      · intro h hEq
        exact h.2 r rfl (hTrace.trans (congrArg _ (Except.error.inj hEq)))
    | ok u =>
      rw [bind_ok]
      constructor
      · intro _
        refine ⟨nofun, fun r' hr => ?_⟩
        cases hr
        rw [hTrace]
        nofun
      · intro _
        split <;> nofun

theorem numOfAssignableRbgs_lt {sch : TdmaScheduler μ} {mask : List UInt8}
    (h : mask = [] ∨ mask.length = sch.bandwidthInRbg.toNat) :
    (sch.numOfAssignableRbgs mask).toNat < 2 ^ 17 := by
  have hBandwidth : sch.bandwidthInRbg.toNat < 2 ^ 16 := sch.bandwidthInRbg.toNat_lt
  have hCount : mask.count 0 ≤ sch.bandwidthInRbg.toNat := by
    rcases h with rfl | hLength
    · exact Nat.zero_le _
    · exact hLength ▸ List.count_le_length
  have hZeroes : (UInt32.ofNat (mask.count 0)).toNat = mask.count 0 := by
    rw [UInt32.toNat_ofNat']
    exact Nat.mod_eq_of_lt (by omega)
  have hLe : UInt32.ofNat (mask.count 0) ≤ sch.bandwidthInRbg.toUInt32 := by
    rw [UInt32.le_iff_toNat_le, hZeroes, UInt16.toNat_toUInt32]
    exact hCount
  rw [TdmaScheduler.numOfAssignableRbgs, UInt32.toNat_sub_of_le _ _ hLe, UInt16.toNat_toUInt32]
  omega

/-- In what the assignment returns, a beam with users has symbols exactly when it is served. -/
theorem symbols_iff_served (hCall : m.Call spoint symAvail activeUl ues)
    {r : SchedUes μ × (UInt16 → UInt32)} (h : m.assignULRBG symAvail activeUl ues = .ok r) :
    (∀ beam ∈ activeUl, beam.2 ≠ [] → r.2 beam.1 ≠ 0) ↔ m.Served symAvail activeUl ues := by
  cases m with
  | ofdma sch =>
    rw [assignULRBG] at h
    dsimp only at h
    split at h
    · cases h
    · next hTotal =>
      cases hSplit : sch.getSymPerBeam symAvail activeUl with
      | none =>
        rw [hSplit] at h
        cases h
      | some l =>
        rw [hSplit] at h
        dsimp only at h
        cases hChecked : sch.assignULRBGChecked (symbolsOf l) ues.ul ues.maxBuffer activeUl with
        | error fault =>
          rw [hChecked] at h
          cases h
        | ok q =>
          rw [hChecked] at h
          cases h
          rw [Served]
          dsimp only
          rw [and_iff_right hTotal]
          refine forall₃_congr fun beam hMem hUsers => ?_
          exact sch.symbolsOf_getSymPerBeam hCall.symbolsFit hCall.beams hSplit
            (List.mem_map_of_mem hMem)
  | tdma sch =>
    obtain ⟨hRbgs, hMask⟩ := hCall.usable
    obtain ⟨q, hAssign, hChecked⟩ := sch.ulCallbacks.assignRBGTDMAChecked_eq hRbgs symAvail
      activeUl ues.ul
    rw [assignULRBG] at h
    dsimp only at h
    rw [hChecked] at h
    cases h
    refine forall₃_congr fun beam hMem hUsers => ?_
    exact sch.ulCallbacks.symbolsOf_assignRBGTDMA (numOfAssignableRbgs_lt hMask) hCall.symbolsFit
      hCall.beams hCall.users hCall.fresh hAssign hMem

theorem assignULRBG_ne_assertion (hCall : m.Call spoint symAvail activeUl ues) :
    m.assignULRBG symAvail activeUl ues ≠ .error .assertion := by
  cases m with
  | ofdma sch =>
    rw [assignULRBG]
    dsimp only
    split
    · nofun
    · rw [sch.getSymPerBeam_eq hCall.symbolsFit]
      exact bind_ne (OfdmaScheduler.assignULRBGChecked_ne hCall.usable _ _) fun r _ => nofun
  | tdma sch =>
    obtain ⟨q, -, hChecked⟩ := sch.ulCallbacks.assignRBGTDMAChecked_eq hCall.usable.1 symAvail
      activeUl ues.ul
    rw [assignULRBG]
    dsimp only
    rw [hChecked]
    nofun

theorem assignULRBG_of_served (hCall : m.Call spoint symAvail activeUl ues)
    (hServed : m.Served symAvail activeUl ues) :
    m.assignULRBG symAvail activeUl ues ≠ .error .division := by
  cases m with
  | ofdma sch =>
    obtain ⟨hTotal, hBeams⟩ := hServed
    have hSplit : sch.getSymPerBeam symAvail activeUl = some _ := sch.getSymPerBeam_eq hCall.symbolsFit
    have hSymbols : ∀ beam ∈ activeUl, beam.2 ≠ [] → symbolsOf _ beam.1 ≠ 0 :=
      fun beam hMem hUsers => (sch.symbolsOf_getSymPerBeam hCall.symbolsFit hCall.beams hSplit
        (List.mem_map_of_mem hMem)).mpr (hBeams beam hMem hUsers)
    obtain ⟨r, hAssign⟩ := Option.ne_none_iff_exists'.mp
      (OfdmaScheduler.assignULRBG_ne_none hCall.usable hSymbols ues.ul ues.maxBuffer)
    rw [assignULRBG]
    dsimp only
    rw [if_neg hTotal, hSplit]
    dsimp only
    rw [OfdmaScheduler.assignULRBGChecked_of_some hAssign]
    nofun
  | tdma sch =>
    obtain ⟨q, -, hChecked⟩ := sch.ulCallbacks.assignRBGTDMAChecked_eq hCall.usable.1 symAvail
      activeUl ues.ul
    rw [assignULRBG]
    dsimp only
    rw [hChecked]
    nofun

/-- The assignment without faults is the one of the slot scheduler. -/
theorem assignRBG_of_ok (hCall : m.Call spoint symAvail activeUl ues)
    {r : SchedUes μ × (UInt16 → UInt32)} (h : m.assignULRBG symAvail activeUl ues = .ok r)
    (hSymbols : ∀ beam ∈ activeUl, beam.2 ≠ [] → r.2 beam.1 ≠ 0) :
    m.newData.assignRBG symAvail activeUl ues = some r := by
  cases m with
  | ofdma sch =>
    have hSplit : sch.getSymPerBeam symAvail activeUl = some _ := sch.getSymPerBeam_eq hCall.symbolsFit
    rw [assignULRBG] at h
    dsimp only at h
    split at h
    · cases h
    · rw [hSplit] at h
      dsimp only at h
      cases hChecked : sch.assignULRBGChecked (symbolsOf (redistribute (sch.leftover symAvail activeUl)
          (sch.walkOrder (sch.shares symAvail activeUl)))) ues.ul ues.maxBuffer activeUl with
      | error fault =>
        rw [hChecked] at h
        cases h
      | ok q =>
        rw [hChecked] at h
        cases h
        obtain ⟨r, hAssign⟩ := Option.ne_none_iff_exists'.mp
          (OfdmaScheduler.assignULRBG_ne_none hCall.usable hSymbols ues.ul ues.maxBuffer)
        cases hChecked.symm.trans (OfdmaScheduler.assignULRBGChecked_of_some hAssign)
        dsimp only [newData, OfdmaNewData.ulNewData, Option.bind_eq_bind, Option.pure_def]
        rw [hSplit, Option.bind_some, hAssign, Option.bind_some]
  | tdma sch =>
    obtain ⟨q, hAssign, hChecked⟩ := sch.ulCallbacks.assignRBGTDMAChecked_eq hCall.usable.1 symAvail
      activeUl ues.ul
    rw [assignULRBG] at h
    dsimp only at h
    rw [hChecked] at h
    cases h
    dsimp only [newData, TdmaScheduler.ulNewData, Option.bind_eq_bind, Option.pure_def]
    rw [hAssign, Option.bind_some]

/-- A call without faults is one of the slot scheduler. -/
theorem doScheduleUlData_of_ok (hCall : m.Call spoint symAvail activeUl ues) {s : NewDataState μ}
    (h : m.scheduleUlData tr ids spoint symAvail activeUl ues slotAlloc = .ok s) :
    doScheduleUlData m.newData ids spoint symAvail activeUl ues slotAlloc = some s := by
  have hNoDivision : m.scheduleUlData tr ids spoint symAvail activeUl ues slotAlloc ≠
      .error .division := by
    rw [h]
    nofun
  obtain ⟨-, hTraces⟩ := (scheduleUlData_ne_division_iff hCall).mp hNoDivision
  rw [scheduleUlData] at h
  rw [doScheduleUlData]
  split at h
  · cases h
  · next hAsserted =>
    cases hAssign : m.assignULRBG symAvail activeUl ues with
    | error fault =>
      rw [hAssign] at h
      cases h
    | ok r =>
      have hTrace := (UlTrace.traceUes_ne_division_iff r.2 r.1.ul activeUl).mp (hTraces r hAssign)
      have hSymbols : ∀ beam ∈ activeUl, beam.2 ≠ [] → r.2 beam.1 ≠ 0 := by
        intro beam hMem hUsers
        obtain ⟨ue, hUe⟩ := List.exists_mem_of_ne_nil _ hUsers
        exact (hTrace beam hMem ue hUe).1
      have hGuard : ¬ (activeUl.any fun beam => r.2 beam.1 = 0 ∧ beam.2 ≠ []) = true := by
        rw [List.any_eq_true]
        rintro ⟨beam, hMem, hOut⟩
        exact hSymbols beam hMem (of_decide_eq_true hOut).2 (of_decide_eq_true hOut).1
      rw [hAssign, bind_ok] at h
      dsimp only at h
      cases hTraced : tr.traceUes r.2 r.1.ul activeUl with
      | error fault =>
        rw [hTraced] at h
        cases h
      | ok u =>
        rw [hTraced, bind_ok] at h
        split at h
        · cases h
        · next hLoop =>
          cases h
          rw [if_neg hAsserted, assignRBG_of_ok hCall hAssign hSymbols]
          dsimp only [Option.bind_eq_bind, Option.bind_some]
          rw [if_neg hGuard]
          exact hLoop

theorem bufSizeBeam_le (beam : List UePtrAndBufferReq) :
    (bufSizeBeam beam).toNat ≤ total beam fun ue => ue.2.toNat := by
  have hFold : ∀ (l : List UePtrAndBufferReq) (start : UInt32),
      ((l.map Prod.snd).foldl (· + ·) start).toNat ≤
        start.toNat + total l fun ue => ue.2.toNat := by
    intro l
    induction l with
    | nil => exact fun start => Nat.le_refl _
    | cons ue l ih =>
      intro start
      have hRest := ih (start + ue.2)
      have hSum : (start + ue.2).toNat ≤ start.toNat + ue.2.toNat := by
        rw [UInt32.toNat_add]
        exact Nat.mod_le _ _
      rw [List.map_cons, List.foldl_cons, total_cons]
      omega
  exact le_trans (hFold beam 0) (le_of_eq (Nat.zero_add _))

theorem total_bufSizeBeam_le (active : ActiveUeMap) :
    total active (fun beam => (bufSizeBeam beam.2).toNat) ≤ bufTotal active := by
  induction active with
  | nil => exact Nat.le_refl 0
  | cons beam active ih =>
    have hSplit : bufTotal (beam :: active) =
        total beam.2 (fun ue => ue.2.toNat) + bufTotal active := by
      rw [bufTotal, List.flatMap_cons, total, List.map_append, List.sum_append]
      rfl
    rw [total_cons, hSplit]
    exact Nat.add_le_add (bufSizeBeam_le beam.2) ih

/-- The share of a beam, rounded down. -/
def exactShare (symAvail bufSizeBeam : UInt32) (bufTotal : ℕ) : UInt32 :=
  UInt32.ofNat (bufSizeBeam.toNat * symAvail.toNat / bufTotal)

theorem exactShare_le (symAvail : UInt32) (active : ActiveUeMap) :
    total active (fun beam => (exactShare symAvail (bufSizeBeam beam.2) (bufTotal active)).toNat) ≤
      symAvail.toNat := by
  have hEach : total active
      (fun beam => (exactShare symAvail (bufSizeBeam beam.2) (bufTotal active)).toNat) ≤
        total active (fun beam =>
          (bufSizeBeam beam.2).toNat * symAvail.toNat / bufTotal active) := by
    refine total_le_total fun beam _ => ?_
    rw [exactShare, UInt32.toNat_ofNat']
    exact Nat.mod_le _ _
  have hAll := total_div_le active (fun beam => (bufSizeBeam beam.2).toNat) symAvail.toNat
    (bufTotal active)
  have hBound : total active (fun beam => (bufSizeBeam beam.2).toNat) * symAvail.toNat /
      bufTotal active ≤ symAvail.toNat := by
    refine Nat.div_le_of_le_mul ?_
    exact Nat.mul_le_mul_right _ (total_bufSizeBeam_le active)
  exact hEach.trans (hAll.trans hBound)

def keepDlMetric : DlPolicy Unit where
  beforeDlSched _ ue := ue.metric
  assignedDlResources _ _ ue := ue.metric
  notAssignedDlResources _ _ ue := ue.metric
  sort _ l := l
  sort_perm _ l := List.Perm.refl l

def keepMetrics : MetricResets Unit where
  dlMetric u := u
  ulMetric u := u
  dlSchedInfo u := u
  ulSchedInfo u := u

/-- Round robin with OFDMA, over ten RBGs, reactive. -/
def ofdmaRoundRobin : OfdmaNewData Unit where
  toOfdmaScheduler := { OfdmaScheduler.grantFree 10 with scheduleMode := 0 }
  dlNotchedRbgsMask := []
  dlPolicy := keepDlMetric
  resets := keepMetrics
  symForBeam := exactShare
  symForBeam_le := exactShare_le
  walkOrder l := l
  walkOrder_perm := List.Perm.refl

/-- Round robin with TDMA, over ten RBGs. -/
def tdmaRoundRobin : TdmaScheduler Unit where
  bandwidthInRbg := 10
  numRbPerRbg := 1
  bwpId := 0
  dlNotchedRbgsMask := []
  ulNotchedRbgsMask := []
  dlPolicy := keepDlMetric
  ulPolicy := OfdmaScheduler.roundRobin 1
  resets := keepMetrics
  calculateTbSize _ nprb := OfdmaScheduler.tbSizeMcs9 nprb

def idleUsers : SchedUes Unit where
  harq _ := none
  dl _ := { metric := { other := () } }
  ul := OfdmaScheduler.idleUes
  dlLCG _ := []
  ulLCG _ := []

def noProactive : UlTrace where
  proactiveBSR _ := 0
  spectralEfficiency _ := 0

/-- Two users on beams of their own, with a symbol each. -/
theorem twoBeams_call (symAvail : UInt32) (hSymbols : symAvail ≠ 0) (hFit : symAvail.toNat < 2 ^ 8) :
    (ofdma ofdmaRoundRobin).Call ⟨0, 13⟩ symAvail OfdmaScheduler.twoBeams idleUsers where
  symbols := hSymbols
  symbolsFit := hFit
  active := nofun
  start := rfl
  beams := by decide
  users := by decide
  fresh _ _ _ _ := rfl
  usable := (by decide : ofdmaRoundRobin.assignableRbgs ≠ 0)

end UlScheduler

end Bullet.Mac
