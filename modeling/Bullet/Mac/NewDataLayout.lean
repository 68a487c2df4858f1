import Mathlib.Data.List.Perm.Subperm
import Mathlib.Data.UInt
import Bullet.Lib.Tiles
import Bullet.Mac.BeamSymbols
import Bullet.Mac.SlotSteps
import Bullet.Mac.UlHarqKept

/-! # Where new data lies in a slot

DL goes on towards the end of the slot and UL towards its start. The DCIs of a beam lie side by side
with OFDMA and one after the other with TDMA.
-/

namespace Bullet.Mac

open Lib.Blocks (Block)
open Lib.Bitmask Lib.Shares Lib.Tiles NewDataState

variable {μ : Type}

/-- DL goes on upwards. -/
def DciFormat.up : DciFormat → Bool
  | .dl => true
  | .ul => false

/-- The cells of the slot that an allocation takes. -/
def VarTtiAllocInfo.tile (a : VarTtiAllocInfo) : Tile ℕ where
  rows := a.dci.symbols
  cols := {i | a.dci.rbgBitmask[i]? = some 1}

/-- The allocation sends a new transport block, of one stream at least. -/
def VarTtiAllocInfo.NewData (a : VarTtiAllocInfo) : Prop := a.dci.type = .data ∧ 1 ∈ a.dci.ndi

instance : DecidablePred VarTtiAllocInfo.NewData := fun _ => inferInstanceAs (Decidable (_ ∧ _))

/-- From `old` to `new` the slot got the allocations `l`, from symbol `i` to symbol `j`. -/
structure Adds (fmt : DciFormat) (old new : SlotAllocInfo) (i j : ℕ) (l : List VarTtiAllocInfo) :
    Prop where
  allocs : new.varTtiAllocInfo.Perm (l ++ old.varTtiAllocInfo)
  numSym : new.numSymAlloc = old.numSymAlloc + UInt32.ofNat (Nat.dist i j)
  swept : Swept fmt.up i j (l.map VarTtiAllocInfo.tile)
  format : ∀ a ∈ l, a.dci.format = fmt

theorem Adds.refl (fmt : DciFormat) (slot : SlotAllocInfo) (i : ℕ) : Adds fmt slot slot i i [] where
  allocs := List.Perm.refl _
  numSym := by rw [Nat.dist_self]; exact (UInt32.add_zero _).symm
  swept := Swept.nil
  format := by simp

theorem Adds.trans {fmt : DciFormat} {old mid new : SlotAllocInfo} {i j k : ℕ}
    {l m : List VarTtiAllocInfo} (h : Adds fmt old mid i j l) (h' : Adds fmt mid new j k m) :
    Adds fmt old new i k (m ++ l) where
  allocs := by
    rw [List.append_assoc]
    exact h'.allocs.trans (h.allocs.append_left m)
  numSym := by
    rw [h'.numSym, h.numSym, ← h.swept.dist_append h'.swept, UInt32.ofNat_add, UInt32.add_assoc]
  swept := by
    refine (h.swept.append h'.swept).perm ?_
    rw [List.map_append]
    exact List.perm_append_comm
  format a ha := (List.mem_append.mp ha).elim (h'.format a) (h.format a)

/-! ## The grants that UL processes keep -/

/-- No UL process keeps an empty grant. -/
def UeMap.UlGrantsFilled (ueMap : UeMap) : Prop :=
  ∀ key p dci, ueMap.ulProcess key = some p → p.dciElement = some dci → dci.numSym ≠ 0

theorem ulProcess_congr {m m' : UeMap} {key : HarqKey}
    (h : (m' key.rnti).map NrMacSchedulerUeInfo.ulHarq =
      (m key.rnti).map NrMacSchedulerUeInfo.ulHarq) : m'.ulProcess key = m.ulProcess key := by
  have hProcess : ∀ m : UeMap, m.ulProcess key =
      ((m key.rnti).map NrMacSchedulerUeInfo.ulHarq).bind (· key.harqProcessId) := by
    intro m
    rw [UeMap.ulProcess, Option.bind_map]
    rfl
  rw [hProcess, hProcess, h]

theorem UeMap.UlGrantsFilled.congr {m m' : UeMap} (hFilled : m.UlGrantsFilled)
    (h : ∀ key, m'.ulProcess key = m.ulProcess key) : m'.UlGrantsFilled :=
  fun key p dci hProcess => hFilled key p dci ((h key).symm.trans hProcess)

theorem UeMap.UlGrantsFilled.putUlHarq {m : UeMap} (hFilled : m.UlGrantsFilled) {key : HarqKey}
    {ue ue' : NrMacSchedulerUeInfo} (hUe : m key.rnti = some ue) (hHarq : ue'.ulHarq = ue.ulHarq)
    {p : HarqProcess} (hGrant : ∀ dci, p.dciElement = some dci → dci.numSym ≠ 0) :
    (m.putUlHarq key ue' p).UlGrantsFilled := by
  intro key' p' dci hProcess hDci
  rcases eq_or_ne key' key with rfl | hNe
  · rw [ulProcess_putUlHarq, Option.some_inj] at hProcess
    exact hGrant dci (hProcess ▸ hDci)
  · rw [ulProcess_putUlHarq_of_ne p hUe hHarq hNe] at hProcess
    exact hFilled key' p' dci hProcess hDci

theorem ulProcess_putDlHarq (m : UeMap) (key key' : HarqKey) (p : HarqProcess) :
    (m.putDlHarq key p).ulProcess key' = m.ulProcess key' := by
  refine ulProcess_congr ?_
  rw [UeMap.putDlHarq]
  rcases eq_or_ne key'.rnti key.rnti with hEq | hNe
  · rw [hEq, Function.update_self, Option.map_map]
    rfl
  · rw [Function.update_of_ne hNe]

/-! ## One DCI -/

/-- The RBGs that a user was assigned in each direction. -/
def SchedUes.rbgs (ues : SchedUes μ) : DciFormat → UInt16 → UInt32
  | .dl, rnti => (ues.dl rnti).dlRBG
  | .ul, rnti => (ues.ul rnti).ulRBG

/-- What happens to a DCI of the direction. -/
structure Direction.Transports (d : Direction μ) (fmt : DciFormat) : Prop where
  rbg : ∀ ues, d.rbg ues = ues.rbgs fmt
  push : ∀ alloc l, (d.push alloc l).Perm (alloc :: l)
  dci : ∀ {ues ues' rnti dci alloc}, d.transport ues rnti dci = some (alloc, ues') →
    ∃ id, alloc.dci = { dci with harqProcess := id }
  rbgs : ∀ {ues ues' rnti dci alloc}, d.transport ues rnti dci = some (alloc, ues') →
    ues'.rbgs = ues.rbgs
  filled : ∀ {ues ues' rnti dci alloc}, d.transport ues rnti dci = some (alloc, ues') →
    dci.numSym ≠ 0 → ues.harq.UlGrantsFilled → ues'.harq.UlGrantsFilled

theorem transportUl_spec {ids : List UInt8} {ues ues' : SchedUes μ} {rnti : UInt16}
    {dci : DciInfoElementTdma} {alloc : VarTtiAllocInfo}
    (h : transportUl ids ues rnti dci = some (alloc, ues')) :
    ∃ ue id, ues.harq rnti = some ue ∧ alloc.dci = { dci with harqProcess := id } ∧
      ues'.rbgs = ues.rbgs ∧
      ues'.harq = ues.harq.putUlHarq ⟨rnti, id⟩ ue (.sent { dci with harqProcess := id } []) := by
  obtain ⟨ue, hUe, h⟩ := Option.bind_eq_some_iff.mp h
  obtain ⟨id, -, h⟩ := Option.bind_eq_some_iff.mp h
  obtain ⟨tbs, -, h⟩ := Option.bind_eq_some_iff.mp h
  dsimp only at h
  split at h
  · cases h
  · cases h
    exact ⟨ue, id, hUe, rfl, rfl, rfl⟩

theorem transportDl_spec {ids : List UInt8} {ues ues' : SchedUes μ} {rnti : UInt16}
    {dci : DciInfoElementTdma} {alloc : VarTtiAllocInfo}
    (h : transportDl ids ues rnti dci = some (alloc, ues')) :
    ∃ id p, alloc.dci = { dci with harqProcess := id } ∧ ues'.rbgs = ues.rbgs ∧
      ues'.harq = ues.harq.putDlHarq ⟨rnti, id⟩ p := by
  obtain ⟨ue, -, h⟩ := Option.bind_eq_some_iff.mp h
  obtain ⟨id, -, h⟩ := Option.bind_eq_some_iff.mp h
  obtain ⟨pdus, -, h⟩ := Option.bind_eq_some_iff.mp h
  dsimp only at h
  split at h
  · cases h
  · cases h
    exact ⟨id, _, rfl, rfl, rfl⟩

theorem ulDirection_transports (ids : List UInt8) :
    (@ulDirection μ ids).Transports .ul where
  rbg _ := rfl
  push _ _ := List.Perm.refl _
  dci h := by
    obtain ⟨ue, id, -, hDci, -⟩ := transportUl_spec h
    exact ⟨id, hDci⟩
  rbgs h := by
    obtain ⟨ue, id, -, -, hRbgs, -⟩ := transportUl_spec h
    exact hRbgs
  filled {ues ues' rnti dci alloc} h hNumSym hFilled := by
    obtain ⟨ue, id, hUe, -, -, hHarq⟩ := transportUl_spec h
    rw [hHarq]
    refine hFilled.putUlHarq hUe rfl fun dci' hDci => ?_
    cases hDci
    exact hNumSym

theorem dlDirection_transport {symbolsPerSlot : UInt32} {ids : List UInt8} {ues ues' : SchedUes μ}
    {rnti : UInt16} {dci : DciInfoElementTdma} {alloc : VarTtiAllocInfo}
    (h : (dlDirection symbolsPerSlot ids).transport ues rnti dci = some (alloc, ues')) :
    dci.symbols.stop ≤ symbolsPerSlot.toNat ∧ transportDl ids ues rnti dci = some (alloc, ues') := by
  change (if _ then _ else _) = _ at h
  split at h
  · cases h
  · next hRoom => exact ⟨Nat.not_lt.mp hRoom, h⟩

theorem dlDirection_transports (symbolsPerSlot : UInt32) (ids : List UInt8) :
    (@dlDirection μ symbolsPerSlot ids).Transports .dl where
  rbg _ := rfl
  push alloc l := List.perm_append_singleton alloc l
  dci h := by
    obtain ⟨id, p, hDci, -⟩ := transportDl_spec (dlDirection_transport h).2
    exact ⟨id, hDci⟩
  rbgs h := by
    obtain ⟨id, p, -, hRbgs, -⟩ := transportDl_spec (dlDirection_transport h).2
    exact hRbgs
  filled h _ hFilled := by
    obtain ⟨id, p, -, -, hHarq⟩ := transportDl_spec (dlDirection_transport h).2
    rw [hHarq]
    exact hFilled.congr fun key => ulProcess_putDlHarq _ _ _ _

/-- What the virtual functions for the direction do to the RBGs of the users, and what they leave as
it is. -/
structure NewDataScheduler.Frames (v : NewDataScheduler μ) (fmt : DciFormat) : Prop where
  assign : ∀ {symAvail active ues ues' symPerBeam},
    v.assignRBG symAvail active ues = some (ues', symPerBeam) → ues'.harq = ues.harq ∧
      ∀ fmt' rnti, (fmt' = fmt → rnti ∉ active.flatMap fun beam => beam.2.map Prod.fst) →
        ues'.rbgs fmt' rnti = ues.rbgs fmt' rnti
  create : ∀ {spoint rnti maxSym ues dci spoint' ues'},
    v.createDci spoint rnti maxSym ues = some (dci, spoint', ues') →
      ues'.rbgs = ues.rbgs ∧ ues'.harq = ues.harq ∧ (dci = none → spoint' = spoint)
  reset : ∀ rnti ues, (v.resetMetric rnti ues).rbgs = ues.rbgs ∧
    (v.resetMetric rnti ues).harq = ues.harq
  close : ∀ rnti ues, (ues.harq.UlGrantsFilled → (v.resetSchedInfo rnti ues).harq.UlGrantsFilled) ∧
    ∀ fmt' rnti', (v.resetSchedInfo rnti ues).rbgs fmt' rnti' =
      if fmt' = fmt ∧ rnti' = rnti then 0 else ues.rbgs fmt' rnti'

/-- The DCI sends new data to or from the user. -/
structure DataDci (fmt : DciFormat) (rnti : UInt16) (dci : DciInfoElementTdma) : Prop where
  rnti : dci.rnti = rnti
  format : dci.format = fmt
  type : dci.type = .data
  ndi : 1 ∈ dci.ndi
  numSym : dci.numSym ≠ 0

/-- A user gets a DCI, or nothing but its metrics changes. -/
theorem scheduleUe_cases {fmt : DciFormat} {v : NewDataScheduler μ} {d : Direction μ}
    {maxSym : UInt32} {s t : NewDataState μ} {rnti : UInt16} (hFrames : v.Frames fmt)
    (h : scheduleUe v d maxSym s rnti = some t) :
    (∃ ues, t = { s with ues := ues } ∧ ues.rbgs = s.ues.rbgs ∧ ues.harq = s.ues.harq) ∨
    d.rbg s.ues rnti ≠ 0 ∧ ∃ dci spoint ues alloc ues',
      v.createDci s.spoint rnti maxSym s.ues = some (some dci, spoint, ues) ∧
      d.transport ues rnti dci = some (alloc, ues') ∧ t = s.placed d spoint ues' dci alloc := by
  rw [scheduleUe] at h
  split at h
  · cases h
    exact Or.inl ⟨s.ues, rfl, rfl, rfl⟩
  · next hSome =>
    obtain ⟨⟨dci, spoint, ues⟩, hCreate, h⟩ := Option.bind_eq_some_iff.mp h
    cases dci with
    | none =>
      cases h
      obtain ⟨hRbg, hHarq, hPoint⟩ := hFrames.create hCreate
      obtain ⟨hRbgReset, hHarqReset⟩ := hFrames.reset rnti ues
      cases hPoint rfl
      exact Or.inl ⟨_, rfl, hRbgReset.trans hRbg, hHarqReset.trans hHarq⟩
    | some dci =>
      obtain ⟨⟨alloc, ues'⟩, hTransport, h⟩ := Option.bind_eq_some_iff.mp h
      cases h
      exact Or.inr ⟨hSome, dci, spoint, ues, alloc, ues', hCreate, hTransport, rfl⟩

/-- From `s` to `t` some of the users got the allocations `l`. -/
structure Granted (fmt : DciFormat) (users : List UInt16) (s t : NewDataState μ)
    (l : List VarTtiAllocInfo) : Prop where
  allocs : t.slotAlloc.varTtiAllocInfo.Perm (l ++ s.slotAlloc.varTtiAllocInfo)
  rbgs : t.ues.rbgs = s.ues.rbgs
  users : (l.map fun a => a.dci.rnti).Subperm users
  dcis : ∀ a ∈ l, DataDci fmt a.dci.rnti a.dci
  filled : s.ues.harq.UlGrantsFilled → t.ues.harq.UlGrantsFilled

section Granted

variable {fmt : DciFormat} {v : NewDataScheduler μ} {d : Direction μ} {users users' : List UInt16}
  {s t u : NewDataState μ} {l m : List VarTtiAllocInfo} {maxSym : UInt32} {rnti : UInt16}

theorem Granted.refl (fmt : DciFormat) (s : NewDataState μ) :
    Granted fmt [] s s [] where
  allocs := List.Perm.refl _
  rbgs := rfl
  users := List.Subperm.refl _
  dcis := by simp
  filled := id

theorem Granted.trans (h : Granted fmt users s t l) (h' : Granted fmt users' t u m) :
    Granted fmt (users' ++ users) s u (m ++ l) where
  allocs := by
    rw [List.append_assoc]
    exact h'.allocs.trans (h.allocs.append_left m)
  rbgs := h'.rbgs.trans h.rbgs
  users := by
    rw [List.map_append]
    exact h'.users.append h.users
  dcis a ha := (List.mem_append.mp ha).elim (h'.dcis a) (h.dcis a)
  filled hFilled := h'.filled (h.filled hFilled)

/-- A user that gets nothing. -/
theorem Granted.skip {ues : SchedUes μ} (rnti : UInt16) (hRbg : ues.rbgs = s.ues.rbgs)
    (hHarq : ues.harq = s.ues.harq) : Granted fmt [rnti] s { s with ues := ues } [] where
  allocs := List.Perm.refl _
  rbgs := hRbg
  users := List.nil_subperm
  dcis := by simp
  filled hFilled := by rwa [hHarq]

/-- A user that gets its DCI. -/
theorem Granted.one {spoint : PointInFTPlane} {ues ues' : SchedUes μ} {dci : DciInfoElementTdma}
    {alloc : VarTtiAllocInfo} (hTransports : d.Transports fmt) (hFrames : v.Frames fmt)
    (hCreate : v.createDci s.spoint rnti maxSym s.ues = some (some dci, spoint, ues))
    (hTransport : d.transport ues rnti dci = some (alloc, ues')) (hDci : DataDci fmt rnti dci) :
    Granted fmt [rnti] s (s.placed d spoint ues' dci alloc) [alloc] := by
  obtain ⟨hRbg, hHarq, -⟩ := hFrames.create hCreate
  obtain ⟨id, hAlloc⟩ := hTransports.dci hTransport
  have hData : DataDci fmt rnti alloc.dci := by
    rw [hAlloc]
    exact ⟨hDci.rnti, hDci.format, hDci.type, hDci.ndi, hDci.numSym⟩
  refine ⟨hTransports.push _ _, (hTransports.rbgs hTransport).trans hRbg, ?_, ?_, fun hFilled => ?_⟩
  · rw [List.map_singleton, hData.rnti]
  · intro a ha
    rw [List.mem_singleton.mp ha, hData.rnti]
    exact hData
  · exact hTransports.filled hTransport hDci.numSym (hHarq ▸ hFilled)

end Granted

/-- From `s` to `t` the allocations `l` were made for the users, one behind the other in the
direction, in at most `bound` symbols. -/
structure Lays (fmt : DciFormat) (users : List UInt16) (bound : ℕ)
    (s t : NewDataState μ) (l : List VarTtiAllocInfo) : Prop extends Granted fmt users s t l where
  swept : Swept fmt.up s.spoint.sym.toNat t.spoint.sym.toNat (l.map VarTtiAllocInfo.tile)
  numSym : t.slotAlloc.numSymAlloc = s.slotAlloc.numSymAlloc +
    UInt32.ofNat (Nat.dist s.spoint.sym.toNat t.spoint.sym.toNat)
  usedSym : t.usedSym = s.usedSym +
    UInt8.ofNat (Nat.dist s.spoint.sym.toNat t.spoint.sym.toNat)
  within : Nat.dist s.spoint.sym.toNat t.spoint.sym.toNat ≤ bound
  rbg : t.spoint.rbg = 0

/-! ## Side by side -/

/-- The DCIs of a beam take the symbols from the starting point to the one of the next beam, each on
RBGs behind those of the one before. -/
structure Shelves (v : NewDataScheduler μ) (d : Direction μ) (fmt : DciFormat)
    (after : UInt8 → UInt32 → UInt8) : Prop where
  frames : v.Frames fmt
  changeBeam : ∀ spoint n, v.changeBeam spoint n = ⟨0, after spoint.sym n⟩
  grant : ∀ {spoint spoint' rnti maxSym ues ues' ues'' dci alloc}, maxSym ≠ 0 →
    v.createDci spoint rnti maxSym ues = some (some dci, spoint', ues') →
    d.transport ues' rnti dci = some (alloc, ues'') →
      DataDci fmt rnti dci ∧ dci.numSym.toUInt32 = maxSym ∧
      Spans fmt.up spoint.sym.toNat (after spoint.sym maxSym).toNat dci.symbols ∧
      spoint'.sym = spoint.sym ∧ spoint.rbg.toNat ≤ spoint'.rbg.toNat ∧
      ∀ i : ℕ, dci.rbgBitmask[i]? = some 1 → spoint.rbg.toNat ≤ i ∧ i < spoint'.rbg.toNat

/-- From `s` to `t` the allocations `l` of one beam were put side by side. -/
structure Shelf (fmt : DciFormat) (after : UInt8 → UInt32 → UInt8) (maxSym : UInt32)
    (s t : NewDataState μ) (l : List VarTtiAllocInfo) : Prop where
  numSym : t.slotAlloc.numSymAlloc = s.slotAlloc.numSymAlloc
  usedSym : t.usedSym = s.usedSym
  sym : t.spoint.sym = s.spoint.sym
  rows : ∀ a ∈ l,
    Spans fmt.up s.spoint.sym.toNat (after s.spoint.sym maxSym).toNat a.dci.symbols
  cols : ∀ a ∈ l, ∀ i ∈ a.tile.cols, i < t.spoint.rbg.toNat
  apart : l.Pairwise fun a b => Disjoint a.tile.cols b.tile.cols
  started : ∀ a ∈ l, a.dci.symStart ∈ t.symbStartDci
  height : ∀ a ∈ l, a.dci.numSym.toUInt32 = maxSym
  unassigned : l = [] → t.assigned = false ∧ t.symbStartDci = [] ∧ t.allocSym = 0 ∧
    t.spoint.rbg = s.spoint.rbg
  assigned : l ≠ [] → t.assigned = true ∧ t.allocSym = maxSym

section Shelf

variable {fmt : DciFormat} {v : NewDataScheduler μ} {d : Direction μ}
  {after : UInt8 → UInt32 → UInt8} {users rntis : List UInt16} {s t u : NewDataState μ}
  {l : List VarTtiAllocInfo} {maxSym : UInt32} {rnti : UInt16}

theorem Shelf.step (hShelves : Shelves v d fmt after) (hTransports : d.Transports fmt)
    (hMax : maxSym ≠ 0) (hGranted : Granted fmt users s t l)
    (hShelf : Shelf fmt after maxSym s t l) (h : scheduleUe v d maxSym t rnti = some u) :
    ∃ l', Granted fmt (rnti :: users) s u l' ∧ Shelf fmt after maxSym s u l' := by
  rcases scheduleUe_cases hShelves.frames h with ⟨ues, rfl, hRbg, hHarq⟩ |
    ⟨-, dci, spoint, ues, alloc, ues', hCreate, hTransport, rfl⟩
  · exact ⟨l, hGranted.trans (Granted.skip rnti hRbg hHarq), ⟨hShelf.numSym, hShelf.usedSym,
      hShelf.sym, hShelf.rows, hShelf.cols, hShelf.apart, hShelf.started, hShelf.height,
      hShelf.unassigned, hShelf.assigned⟩⟩
  · obtain ⟨hDci, hNumSym, hSpans, hSym, hLe, hCols⟩ := hShelves.grant hMax hCreate hTransport
    obtain ⟨id, hAlloc⟩ := hTransports.dci hTransport
    have hSymbols : alloc.dci.symbols = dci.symbols := by rw [hAlloc]; rfl
    have hStart : alloc.dci.symStart = dci.symStart := by rw [hAlloc]
    have hMask : alloc.tile.cols = {i | dci.rbgBitmask[i]? = some 1} := by
      rw [VarTtiAllocInfo.tile, hAlloc]
    rw [hShelf.sym] at hSpans
    -- All DCIs of the beam start at the same symbol.
    have hSame : ∀ a ∈ l, a.dci.symStart = dci.symStart := fun a ha =>
      UInt8.toNat_inj.mp (congrArg Block.start ((hShelf.rows a ha).unique hSpans))
    refine ⟨alloc :: l, hGranted.trans (.one hTransports hShelves.frames hCreate hTransport hDci),
      hShelf.numSym, hShelf.usedSym, hSym.trans hShelf.sym, ?_, ?_, ?_, ?_, ?_, nofun, fun _ => ⟨rfl, ?_⟩⟩
    · exact List.forall_mem_cons.mpr ⟨hSymbols ▸ hSpans, hShelf.rows⟩
    · refine List.forall_mem_cons.mpr ⟨fun i hi => ?_, fun a ha i hi => ?_⟩
      · rw [hMask] at hi
        exact (hCols i hi).2
      · exact (hShelf.cols a ha i hi).trans_le hLe
    · refine List.pairwise_cons.mpr ⟨fun a ha => ?_, hShelf.apart⟩
      rw [Set.disjoint_left, hMask]
      intro i hi hi'
      exact Nat.not_lt.mpr (hCols i hi).1 (hShelf.cols a ha i hi')
    · have hStarts : ∀ i ∈ t.symbStartDci, i ∈ (t.placed d spoint ues' dci alloc).symbStartDci := by
        intro i hi
        rw [placed]
        dsimp only
        split
        · exact hi
        · exact List.mem_cons_of_mem _ hi
      refine List.forall_mem_cons.mpr ⟨?_, fun a ha => hStarts _ (hShelf.started a ha)⟩
      rw [hStart, placed]
      dsimp only
      split
      · next hMem => exact hMem
      · exact List.mem_cons_self
    · refine List.forall_mem_cons.mpr ⟨?_, hShelf.height⟩
      rw [hAlloc]
      exact hNumSym
    · rw [placed]
      dsimp only
      cases l with
      | nil =>
        obtain ⟨-, hStarted, hAllocSym, -⟩ := hShelf.unassigned rfl
        rw [hStarted, hAllocSym, if_neg List.not_mem_nil, hNumSym, UInt32.zero_add]
      | cons a l =>
        have hMem := hShelf.started a List.mem_cons_self
        rw [hSame a List.mem_cons_self] at hMem
        rw [if_pos hMem, (hShelf.assigned (List.cons_ne_nil a l)).2]

theorem Shelf.run (hShelves : Shelves v d fmt after) (hTransports : d.Transports fmt)
    (hMax : maxSym ≠ 0) (hGranted : Granted fmt users s t l)
    (hShelf : Shelf fmt after maxSym s t l) (h : beamLoop v d maxSym t rntis = some u) :
    ∃ l', Granted fmt (rntis ++ users) s u l' ∧ Shelf fmt after maxSym s u l' := by
  induction rntis generalizing t l users with
  | nil =>
    cases h
    exact ⟨l, hGranted, hShelf⟩
  | cons rnti rntis ih =>
    obtain ⟨t', hUe, hRest⟩ := Option.bind_eq_some_iff.mp h
    obtain ⟨l', hGranted', hShelf'⟩ := hShelf.step hShelves hTransports hMax hGranted hUe
    obtain ⟨m, hGrantedAll, hAll⟩ := ih hGranted' hShelf' hRest
    refine ⟨m, ?_, hAll⟩
    exact { hGrantedAll with users := hGrantedAll.users.trans List.perm_middle.subperm }

/-- A beam with OFDMA. -/
theorem Shelves.beam (hShelves : Shelves v d fmt after) (hTransports : d.Transports fmt)
    (hMax : maxSym ≠ 0) (hRbg : s.spoint.rbg = 0)
    (h : beamLoop v d maxSym { s with assigned := false, symbStartDci := [], allocSym := 0 } rntis =
      some u) : ∃ l, Lays fmt rntis maxSym.toNat s (u.endBeam v maxSym) l := by
  have hStart : Shelf fmt after maxSym s
      { s with assigned := false, symbStartDci := [], allocSym := 0 } [] :=
    ⟨rfl, rfl, rfl, by simp, by simp, List.Pairwise.nil, by simp, by simp, fun _ => ⟨rfl, rfl, rfl, rfl⟩,
      fun hNe => absurd rfl hNe⟩
  have hNone : Granted fmt [] s
      { s with assigned := false, symbStartDci := [], allocSym := 0 } [] :=
    ⟨List.Perm.refl _, rfl, List.Subperm.refl _, by simp, id⟩
  obtain ⟨l, hGranted, hShelf⟩ := hStart.run hShelves hTransports hMax hNone h
  rw [List.append_nil] at hGranted
  refine ⟨l, ?_⟩
  rw [endBeam]
  cases l with
  | nil =>
    obtain ⟨hAssigned, -, -, hPoint⟩ := hShelf.unassigned rfl
    rw [hAssigned, if_neg Bool.false_ne_true]
    refine ⟨hGranted, ?_, ?_, ?_, ?_, hPoint.trans hRbg⟩
    · rw [hShelf.sym]
      exact Swept.nil
    · rw [hShelf.numSym, hShelf.sym, Nat.dist_self]
      exact (UInt32.add_zero _).symm
    · rw [hShelf.usedSym, hShelf.sym, Nat.dist_self]
      exact (UInt8.add_zero _).symm
    · rw [hShelf.sym, Nat.dist_self]
      exact Nat.zero_le _
  | cons a l =>
    obtain ⟨hAssigned, hAllocSym⟩ := hShelf.assigned (List.cons_ne_nil a l)
    have hSpans := hShelf.rows a List.mem_cons_self
    have hPoint : v.changeBeam u.spoint maxSym = ⟨0, after s.spoint.sym maxSym⟩ := by
      rw [hShelves.changeBeam, hShelf.sym]
    have hSym := hShelf.height a List.mem_cons_self
    have hDist : Nat.dist s.spoint.sym.toNat (after s.spoint.sym maxSym).toNat = maxSym.toNat := by
      rw [hSpans.dist_eq, ← hSym, UInt8.toNat_toUInt32]
      rfl
    have hLen : 0 < a.dci.symbols.len := by
      rw [← hSpans.dist_eq, hDist]
      exact Nat.pos_of_ne_zero fun hZero => hMax (UInt32.toNat_inj.mp hZero)
    rw [hAssigned, if_pos rfl, hAllocSym, hPoint, hShelf.numSym, hShelf.usedSym]
    refine ⟨⟨hGranted.allocs, hGranted.rbgs, hGranted.users, hGranted.dcis, hGranted.filled⟩,
      ?_, ?_, ?_, hDist.le, rfl⟩
    · refine Swept.shelf hSpans hLen (List.cons_ne_nil _ _) ?_ ?_
      · intro b hb
        obtain ⟨c, hc, rfl⟩ := List.mem_map.mp hb
        exact (hShelf.rows c hc).unique hSpans
      · exact List.pairwise_map.mpr hShelf.apart
    · rw [hDist, UInt32.ofNat_toNat]
    · rw [hDist]
      refine UInt8.toNat_inj.mp ?_
      rw [UInt32.toNat_toUInt8, UInt32.toNat_add, UInt8.toNat_toUInt32, UInt8.toNat_add,
        UInt8.toNat_ofNat']
      omega

end Shelf

/-! ## One after the other -/

/-- Each DCI goes on where the one before ends, for at most the rounds that its user won. -/
structure Stacks (v : NewDataScheduler μ) (d : Direction μ) (fmt : DciFormat) (rbgs : UInt32) :
    Prop where
  frames : v.Frames fmt
  changeBeam : ∀ spoint n, v.changeBeam spoint n = spoint
  grant : ∀ {spoint spoint' rnti maxSym ues ues' ues'' dci alloc} {rounds : ℕ},
    (ues.rbgs fmt rnti).toNat = rbgs.toNat * rounds → rounds < 2 ^ 8 → ues.rbgs fmt rnti ≠ 0 →
    v.createDci spoint rnti maxSym ues = some (some dci, spoint', ues') →
    d.transport ues' rnti dci = some (alloc, ues'') →
      DataDci fmt rnti dci ∧ Spans fmt.up spoint.sym.toNat spoint'.sym.toNat dci.symbols ∧
      dci.numSym.toNat ≤ rounds ∧ spoint'.rbg = 0

/-- From `s` to `t` the allocations `l` of one beam were put one after the other. -/
structure Stack (fmt : DciFormat) (rounds : List UInt16) (users : List UInt16)
    (s t : NewDataState μ) (l : List VarTtiAllocInfo) : Prop where
  numSym : t.slotAlloc.numSymAlloc = s.slotAlloc.numSymAlloc
  usedSym : t.usedSym = s.usedSym
  rbg : t.spoint.rbg = 0
  swept : Swept fmt.up s.spoint.sym.toNat t.spoint.sym.toNat (l.map VarTtiAllocInfo.tile)
  within : Nat.dist s.spoint.sym.toNat t.spoint.sym.toNat ≤ total users (rounds.count ·)
  allocSym : t.allocSym = UInt32.ofNat (Nat.dist s.spoint.sym.toNat t.spoint.sym.toNat)
  started : ∀ i ∈ t.symbStartDci, ∃ a ∈ l, a.dci.symStart = i
  assigned : t.assigned = true ↔ l ≠ []

section Stack

variable {fmt : DciFormat} {v : NewDataScheduler μ} {d : Direction μ} {rbgs : UInt32}
  {users rntis rounds : List UInt16} {s t u : NewDataState μ} {l : List VarTtiAllocInfo}
  {maxSym : UInt32} {rnti : UInt16}

theorem Stack.step (hStacks : Stacks v d fmt rbgs) (hTransports : d.Transports fmt)
    (hRounds : (s.ues.rbgs fmt rnti).toNat = rbgs.toNat * rounds.count rnti)
    (hFew : rounds.count rnti < 2 ^ 8) (hGranted : Granted fmt users s t l)
    (hStack : Stack fmt rounds users s t l) (h : scheduleUe v d maxSym t rnti = some u) :
    ∃ l', Granted fmt (rnti :: users) s u l' ∧ Stack fmt rounds (rnti :: users) s u l' := by
  rw [← hGranted.rbgs] at hRounds
  rcases scheduleUe_cases hStacks.frames h with ⟨ues, rfl, hRbg, hHarq⟩ |
    ⟨hSome, dci, spoint, ues, alloc, ues', hCreate, hTransport, rfl⟩
  · exact ⟨l, hGranted.trans (Granted.skip rnti hRbg hHarq), ⟨hStack.numSym, hStack.usedSym,
      hStack.rbg, hStack.swept, hStack.within.trans (by rw [total_cons]; omega), hStack.allocSym,
      hStack.started, hStack.assigned⟩⟩
  · rw [hTransports.rbg] at hSome
    obtain ⟨hDci, hSpans, hNumSym, hRbg⟩ := hStacks.grant hRounds hFew hSome hCreate hTransport
    obtain ⟨id, hAlloc⟩ := hTransports.dci hTransport
    have hSymbols : alloc.dci.symbols = dci.symbols := by rw [hAlloc]; rfl
    have hStart : alloc.dci.symStart = dci.symStart := by rw [hAlloc]
    have hLen : 0 < dci.symbols.len :=
      Nat.pos_of_ne_zero fun hZero => hDci.numSym (UInt8.toNat_inj.mp hZero)
    have hDist : Nat.dist t.spoint.sym.toNat spoint.sym.toNat = dci.numSym.toNat := hSpans.dist_eq
    have hOne : Swept fmt.up t.spoint.sym.toNat spoint.sym.toNat [alloc.tile] :=
      Swept.shelf hSpans hLen (List.cons_ne_nil _ _) (fun a ha => List.mem_singleton.mp ha ▸ hSymbols)
        (List.pairwise_singleton _ _)
    have hSwept := hStack.swept.append hOne
    have hAdd := hStack.swept.dist_append hOne
    have hNew : dci.symStart ∉ t.symbStartDci := by
      intro hMem
      obtain ⟨a, ha, hEq⟩ := hStack.started _ hMem
      exact hStack.swept.start_ne hSpans hLen (List.mem_map_of_mem ha) (congrArg UInt8.toNat hEq)
    refine ⟨alloc :: l, hGranted.trans (.one hTransports hStacks.frames hCreate hTransport hDci),
      hStack.numSym, hStack.usedSym, hRbg, ?_, ?_, ?_, ?_, ?_⟩
    · exact hSwept.perm (List.perm_append_singleton _ _).symm
    · have hWithin := hStack.within
      rw [total_cons]
      change Nat.dist s.spoint.sym.toNat spoint.sym.toNat ≤ _
      omega
    · change (if _ then _ else _) = UInt32.ofNat (Nat.dist _ spoint.sym.toNat)
      rw [if_neg hNew, hStack.allocSym, ← hAdd, hDist, UInt32.ofNat_add]
      exact congrArg (_ + ·) (UInt32.toNat_inj.mp (by simp))
    · rw [placed]
      dsimp only
      rw [if_neg hNew]
      refine List.forall_mem_cons.mpr ⟨⟨alloc, List.mem_cons_self, hStart⟩, fun i hi => ?_⟩
      obtain ⟨a, ha, hEq⟩ := hStack.started i hi
      exact ⟨a, List.mem_cons_of_mem _ ha, hEq⟩
    · exact iff_of_true rfl (List.cons_ne_nil _ _)

theorem Stack.run (hStacks : Stacks v d fmt rbgs) (hTransports : d.Transports fmt)
    (hRounds : ∀ rnti ∈ rntis, (s.ues.rbgs fmt rnti).toNat = rbgs.toNat * rounds.count rnti)
    (hFew : rounds.length < 2 ^ 8) (hGranted : Granted fmt users s t l)
    (hStack : Stack fmt rounds users s t l) (h : beamLoop v d maxSym t rntis = some u) :
    ∃ l', Granted fmt (rntis ++ users) s u l' ∧ Stack fmt rounds (rntis ++ users) s u l' := by
  induction rntis generalizing t l users with
  | nil =>
    cases h
    exact ⟨l, hGranted, hStack⟩
  | cons rnti rntis ih =>
    obtain ⟨hHead, hTail⟩ := List.forall_mem_cons.mp hRounds
    obtain ⟨t', hUe, hRest⟩ := Option.bind_eq_some_iff.mp h
    obtain ⟨l', hGranted', hStack'⟩ := hStack.step hStacks hTransports hHead
      (List.count_le_length.trans_lt hFew) hGranted hUe
    obtain ⟨m, hGrantedAll, hAll⟩ := ih hTail hGranted' hStack' hRest
    refine ⟨m, ?_, ?_⟩
    · exact { hGrantedAll with users := hGrantedAll.users.trans List.perm_middle.subperm }
    · exact { hAll with within := hAll.within.trans_eq (total_perm _ List.perm_middle) }

/-- A beam with TDMA. -/
theorem Stacks.beam (hStacks : Stacks v d fmt rbgs) (hTransports : d.Transports fmt)
    (hRounds : ∀ rnti ∈ rntis, (s.ues.rbgs fmt rnti).toNat = rbgs.toNat * rounds.count rnti)
    (hFew : rounds.length < 2 ^ 8) (hRbg : s.spoint.rbg = 0)
    (h : beamLoop v d maxSym { s with assigned := false, symbStartDci := [], allocSym := 0 } rntis =
      some u) :
    ∃ l, Lays fmt rntis (total rntis (rounds.count ·)) s (u.endBeam v maxSym) l := by
  have hStart : Stack fmt rounds [] s
      { s with assigned := false, symbStartDci := [], allocSym := 0 } [] := by
    refine ⟨rfl, rfl, hRbg, Swept.nil, ?_, ?_, by simp, by simp⟩
    · exact (Nat.dist_self _).le
    · exact congrArg UInt32.ofNat (Nat.dist_self _).symm
  have hNone : Granted fmt [] s
      { s with assigned := false, symbStartDci := [], allocSym := 0 } [] :=
    ⟨List.Perm.refl _, rfl, List.Subperm.refl _, by simp, id⟩
  obtain ⟨l, hGranted, hStack⟩ := hStart.run hStacks hTransports hRounds hFew hNone h
  rw [List.append_nil] at hGranted hStack
  refine ⟨l, ?_⟩
  rw [endBeam]
  split
  · rw [hStacks.changeBeam, hStack.numSym, hStack.usedSym, hStack.allocSym]
    refine ⟨⟨hGranted.allocs, hGranted.rbgs, hGranted.users, hGranted.dcis, hGranted.filled⟩,
      hStack.swept, rfl, ?_, hStack.within, hStack.rbg⟩
    refine UInt8.toNat_inj.mp ?_
    dsimp only
    rw [UInt32.toNat_toUInt8, UInt32.toNat_add, UInt8.toNat_toUInt32, UInt8.toNat_add,
      UInt8.toNat_ofNat', UInt32.toNat_ofNat']
    omega
  · next hAssigned =>
    have hNil : l = [] := of_not_not fun hNe => hAssigned (hStack.assigned.mpr hNe)
    have hDist : Nat.dist s.spoint.sym.toNat u.spoint.sym.toNat = 0 := by
      rw [hStack.swept.dist_eq, hNil]
      rfl
    refine ⟨hGranted, hStack.swept, ?_, ?_, hStack.within, hStack.rbg⟩
    · rw [hDist, hStack.numSym]
      exact (UInt32.add_zero _).symm
    · rw [hDist, hStack.usedSym]
      exact (UInt8.add_zero _).symm

end Stack

/-! ## All beams -/

section Loop

variable {fmt : DciFormat} {v : NewDataScheduler μ} {d : Direction μ} {users users' : List UInt16}
  {b b' : ℕ} {s t u : NewDataState μ} {l m : List VarTtiAllocInfo} {active : ActiveUeMap}
  {symPerBeam : UInt16 → UInt32} {bound : UInt16 × List UePtrAndBufferReq → ℕ}

theorem Lays.refl (hRbg : s.spoint.rbg = 0) : Lays fmt [] 0 s s [] where
  toGranted := Granted.refl fmt s
  swept := Swept.nil
  numSym := by rw [Nat.dist_self]; exact (UInt32.add_zero _).symm
  usedSym := by rw [Nat.dist_self]; exact (UInt8.add_zero _).symm
  within := (Nat.dist_self _).le
  rbg := hRbg

theorem Lays.mono (h : Lays fmt users b s t l) (hUsers : users.Subperm users') (hBound : b ≤ b') :
    Lays fmt users' b' s t l :=
  { h with users := h.users.trans hUsers, within := h.within.trans hBound }

theorem Lays.trans (h : Lays fmt users b s t l) (h' : Lays fmt users' b' t u m) :
    Lays fmt (users' ++ users) (b + b') s u (m ++ l) := by
  have hDist := h.swept.dist_append h'.swept
  refine ⟨h.toGranted.trans h'.toGranted, ?_, ?_, ?_, ?_, h'.rbg⟩
  · refine (h.swept.append h'.swept).perm ?_
    rw [List.map_append]
    exact List.perm_append_comm
  · rw [h'.numSym, h.numSym, ← hDist, UInt32.ofNat_add, UInt32.add_assoc]
  · rw [h'.usedSym, h.usedSym, ← hDist, UInt8.ofNat_add, UInt8.add_assoc]
  · rw [← hDist]
    exact Nat.add_le_add h.within h'.within

theorem loop_lays {rbgs : DciFormat → UInt16 → UInt32}
    (hBeam : ∀ beam ∈ active, symPerBeam beam.1 ≠ 0 → ∀ s u : NewDataState μ, s.spoint.rbg = 0 →
      s.ues.rbgs = rbgs → beamLoop v d (symPerBeam beam.1)
          { s with assigned := false, symbStartDci := [], allocSym := 0 } (beam.2.map Prod.fst) =
        some u →
      ∃ l, Lays fmt (beam.2.map Prod.fst) (bound beam) s (u.endBeam v (symPerBeam beam.1)) l)
    (hRbg : s.spoint.rbg = 0) (hRbgs : s.ues.rbgs = rbgs)
    (h : loop v d symPerBeam s active = some t) :
    ∃ l, Lays fmt (active.flatMap fun beam => beam.2.map Prod.fst) (total active bound) s t l := by
  induction active generalizing s with
  | nil =>
    cases h
    exact ⟨[], Lays.refl hRbg⟩
  | cons beam active ih =>
    obtain ⟨hHead, hTail⟩ := List.forall_mem_cons.mp hBeam
    rw [List.flatMap_cons, total_cons]
    rw [loop] at h
    split at h
    · obtain ⟨l, hLays⟩ := ih hTail hRbg hRbgs h
      exact ⟨l, hLays.mono (List.sublist_append_right _ _).subperm (Nat.le_add_left _ _)⟩
    · next hSome =>
      obtain ⟨u, hUes, hRest⟩ := Option.bind_eq_some_iff.mp h
      obtain ⟨l, hLays⟩ := hHead hSome s u hRbg hRbgs hUes
      obtain ⟨m, hLaysRest⟩ := ih hTail hLays.rbg (hLays.rbgs.trans hRbgs) hRest
      exact ⟨m ++ l, (hLays.trans hLaysRest).mono List.perm_append_comm.subperm le_rfl⟩

/-- No user holds RBGs, as it is between the slots. -/
def SchedUes.Cleared (ues : SchedUes μ) : Prop := ∀ fmt rnti, ues.rbgs fmt rnti = 0

/-- The users of the map got the allocations `l`, in at most `symAvail` symbols, and hold no RBGs any
more. -/
structure DataLaid (fmt : DciFormat) (active : ActiveUeMap) (symAvail : ℕ)
    (spoint : PointInFTPlane) (ues : SchedUes μ) (slotAlloc : SlotAllocInfo) (t : NewDataState μ)
    (l : List VarTtiAllocInfo) : Prop where
  adds : Adds fmt slotAlloc t.slotAlloc spoint.sym.toNat t.spoint.sym.toNat l
  usedSym : t.usedSym.toNat = Nat.dist spoint.sym.toNat t.spoint.sym.toNat
  within : t.usedSym.toNat ≤ symAvail
  users : (l.map fun a => a.dci.rnti).Subperm (active.flatMap fun beam => beam.2.map Prod.fst)
  dcis : ∀ a ∈ l, DataDci fmt a.dci.rnti a.dci
  filled : ues.harq.UlGrantsFilled → t.ues.harq.UlGrantsFilled
  cleared : ues.Cleared → t.ues.Cleared

theorem NewDataScheduler.Frames.closeAll (hFrames : v.Frames fmt) (rntis : List UInt16)
    (ues : SchedUes μ) :
    (ues.harq.UlGrantsFilled →
      (rntis.foldl (fun ues rnti => v.resetSchedInfo rnti ues) ues).harq.UlGrantsFilled) ∧
    ∀ fmt' rnti, (rntis.foldl (fun ues rnti => v.resetSchedInfo rnti ues) ues).rbgs fmt' rnti =
      if fmt' = fmt ∧ rnti ∈ rntis then 0 else ues.rbgs fmt' rnti := by
  induction rntis generalizing ues with
  | nil => exact ⟨id, fun fmt' rnti => (if_neg fun h => List.not_mem_nil h.2).symm⟩
  | cons rnti rntis ih =>
    obtain ⟨hFilled, hRbgs⟩ := hFrames.close rnti ues
    obtain ⟨hFilledAll, hRbgsAll⟩ := ih (v.resetSchedInfo rnti ues)
    refine ⟨hFilledAll ∘ hFilled, fun fmt' rnti' => ?_⟩
    rw [List.foldl_cons, hRbgsAll, hRbgs]
    by_cases hIn : fmt' = fmt ∧ rnti' ∈ rntis
    · rw [if_pos hIn, if_pos ⟨hIn.1, List.mem_cons_of_mem _ hIn.2⟩]
    · rw [if_neg hIn]
      refine if_congr ⟨fun h => ⟨h.1, h.2 ▸ List.mem_cons_self⟩, fun h => ⟨h.1, ?_⟩⟩ rfl rfl
      exact (List.mem_cons.mp h.2).resolve_right fun hMem => hIn ⟨h.1, hMem⟩

theorem dataLaid {symAvail : UInt32} {spoint : PointInFTPlane} {ues ues' : SchedUes μ}
    {slotAlloc : SlotAllocInfo} (hFrames : v.Frames fmt) (hAvail : symAvail.toNat < 2 ^ 8)
    (hRbg : spoint.rbg = 0)
    (hAssign : v.assignRBG symAvail active ues = some (ues', symPerBeam))
    (hBeam : ∀ beam ∈ active, symPerBeam beam.1 ≠ 0 → ∀ s u : NewDataState μ, s.spoint.rbg = 0 →
      s.ues.rbgs = ues'.rbgs → beamLoop v d (symPerBeam beam.1)
          { s with assigned := false, symbStartDci := [], allocSym := 0 } (beam.2.map Prod.fst) =
        some u →
      ∃ l, Lays fmt (beam.2.map Prod.fst) (bound beam) s (u.endBeam v (symPerBeam beam.1)) l)
    (hBound : total active bound ≤ symAvail.toNat)
    (hLoop : loop v d symPerBeam ⟨spoint, ues', slotAlloc, 0, false, [], 0⟩ active = some s)
    (hFinish : finish v active s = some t) :
    ∃ l, DataLaid fmt active symAvail.toNat spoint ues slotAlloc t l := by
  obtain ⟨l, hLays⟩ := loop_lays hBeam hRbg rfl hLoop
  obtain ⟨hHarq, hOthers⟩ := hFrames.assign hAssign
  obtain ⟨hFilled, hRbgs⟩ := hFrames.closeAll
    (active.flatMap fun beam => beam.2.map Prod.fst) s.ues
  rw [finish] at hFinish
  split at hFinish
  · cases hFinish
    have hWithin := hLays.within.trans hBound
    have hUsed : s.usedSym.toNat = Nat.dist spoint.sym.toNat s.spoint.sym.toNat := by
      rw [hLays.usedSym, UInt8.zero_add, UInt8.toNat_ofNat']
      exact Nat.mod_eq_of_lt (hWithin.trans_lt hAvail)
    refine ⟨l, ⟨hLays.allocs, hLays.numSym, hLays.swept, fun a ha => (hLays.dcis a ha).format⟩, hUsed,
      hUsed.le.trans hWithin, hLays.users, hLays.dcis, fun hStart => hFilled (hLays.filled ?_), ?_⟩
    · exact hHarq ▸ hStart
    · intro hCleared fmt' rnti
      refine (hRbgs fmt' rnti).trans ?_
      split
      · rfl
      · next hNot =>
        rw [hLays.rbgs]
        exact (hOthers fmt' rnti fun hFmt hMem => hNot ⟨hFmt, hMem⟩).trans (hCleared fmt' rnti)
  · cases hFinish

end Loop

end Bullet.Mac
