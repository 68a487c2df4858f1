import Bullet.Lib.CyclicTable
import Bullet.Mac.Dci
import Bullet.Mac.SrsOffsets
import Bullet.Phy.TddPattern

/-! # SRS turns

In every SRS slot the counter of these slots selects the user whose offset it meets, modulo the
periodicity of the first user. The counter has 32 bits.
-/

namespace Bullet.Mac

open Lib.CyclicTable Lib.PartialRun Phy

structure SrsConfig where
  symbolsPerSlot : UInt8
  dlCtrlSymbols : UInt8
  ulCtrlSymbols : UInt8
  srsCtrlSymbols : UInt8
  enableSrsInUlSlots : Bool
  enableSrsInFSlots : Bool
  bandwidthInRbg : ℕ
  bwpId : UInt8
  tpc : UInt8
deriving Repr

/-- What a UL trigger finds: the users, in the order in which the map of users is walked. -/
structure UlSlot where
  type : LteNrTddSlotType
  ueMap : SrsUeMap
  walk : UeWalk
  allocInfo : SlotAllocInfo

/-- What an SRS slot does: the user that was found, 0 if there is none, and the allocation. -/
structure SrsAllocation where
  rnti : UInt16
  used : UInt8
  spoint : PointInFTPlane
  allocInfo : SlotAllocInfo
deriving Repr

structure SrsTurns where
  srsSlotCounter : UInt32
  allocations : List SrsAllocation := []

namespace SrsConfig

variable (cfg : SrsConfig)

def isSrsSlot (type : LteNrTddSlotType) : Bool :=
  (cfg.enableSrsInFSlots && type == .f) || (cfg.enableSrsInUlSlots && type == .ul)

/-- The last data symbol and the data symbols of a slot, which need not leave room for DL CTRL unless
the slot is of type F. -/
def lastSym : UInt8 :=
  cfg.symbolsPerSlot - cfg.ulCtrlSymbols

def dataSymPerSlot (type : LteNrTddSlotType) : UInt8 :=
  if type = .f then cfg.lastSym - cfg.dlCtrlSymbols else cfg.lastSym

def srsDci (rnti : UInt16) (sym : UInt8) : DciInfoElementTdma where
  rnti := rnti
  format := .ul
  symStart := sym
  numSym := 1
  mcs := [0]
  tbSize := [0]
  ndi := [1]
  rv := [0]
  type := .srs
  bwpIndex := cfg.bwpId
  rbgBitmask := List.replicate cfg.bandwidthInRbg 1
  tpc := cfg.tpc

end SrsConfig

/-- The last user of the walk that has the offset. -/
def findUe (ueMap : SrsUeMap) (offset : ℕ) (order : List UInt16) : UInt16 :=
  order.foldl
    (fun rnti ue => if (ueMap.lookup ue).any (·.offset = offset) then ue else rnti) 0

/-- The user that the counter selects. A periodicity of 0 divides by 0. -/
def srsUe (ueMap : SrsUeMap) (walk : UeWalk) (srsSlotCounter : UInt32) : Option UInt16 :=
  match walk.order ueMap.keys with
  | [] => some 0
  | first :: others => do
    let srs ← ueMap.lookup first
    if srs.periodicity = 0 then none
    else some (findUe ueMap (srsSlotCounter.toNat % srs.periodicity) (first :: others))

/-- The loop that takes one symbol after another from the end of the slot. -/
def allocateSrs (cfg : SrsConfig) (rnti : UInt16) : ℕ → SrsAllocation → SrsAllocation
  | 0, a => a
  | i + 1, a =>
    let spoint := { a.spoint with sym := a.spoint.sym - 1 }
    let dci := cfg.srsDci rnti spoint.sym
    allocateSrs cfg rnti i
      { rnti := rnti
        used := a.used + 1
        spoint := spoint
        allocInfo :=
          { numSymAlloc := a.allocInfo.numSymAlloc + 1
            varTtiAllocInfo := VarTtiAllocInfo.ofDci dci :: a.allocInfo.varTtiAllocInfo } }

def doScheduleSrs (cfg : SrsConfig) (slot : UlSlot) (srsSlotCounter : UInt32)
    (spoint : PointInFTPlane) : Option SrsAllocation := do
  let rnti ← srsUe slot.ueMap slot.walk srsSlotCounter
  let allocation : SrsAllocation := ⟨rnti, 0, spoint, slot.allocInfo⟩
  some (if rnti = 0 then allocation
    else allocateSrs cfg rnti cfg.srsCtrlSymbols.toNat allocation)

namespace SrsTurns

/-- The start of `DoScheduleUl`, up to the SRS. -/
def doScheduleUl (cfg : SrsConfig) (s : SrsTurns) (slot : UlSlot) : Option SrsTurns :=
  if slot.allocInfo.varTtiAllocInfo.length ≠ 1 then none
  else if cfg.isSrsSlot slot.type = false then some s
  else
    let srsSlotCounter := s.srsSlotCounter + 1
    if cfg.dataSymPerSlot slot.type < cfg.srsCtrlSymbols then none
    else do
      let allocation ← doScheduleSrs cfg slot srsSlotCounter ⟨0, cfg.lastSym⟩
      some ⟨srsSlotCounter, s.allocations ++ [allocation]⟩

/-- How often a user was found. -/
def turns (s : SrsTurns) (rnti : UInt16) : ℕ :=
  (s.allocations.map SrsAllocation.rnti).count rnti

end SrsTurns

/-- All users share the periodicity and have distinct offsets below it. -/
structure SharePeriodicity (periodicity : ℕ) (ueMap : SrsUeMap) : Prop where
  common : ∀ rnti srs, ueMap.lookup rnti = some srs → srs.periodicity = periodicity
  below : ∀ rnti srs, ueMap.lookup rnti = some srs → srs.offset < periodicity
  distinct : ∀ rnti rnti' srs srs', ueMap.lookup rnti = some srs → ueMap.lookup rnti' = some srs' →
    srs.offset = srs'.offset → rnti = rnti'

/-- The state of the offset allocator is always of this kind. -/
theorem SrsScheduler.Partitioned.sharePeriodicity {s : SrsScheduler} (h : s.Partitioned) :
    SharePeriodicity s.schedulerSrs.periodicity s.ueMap :=
  ⟨h.common, h.offsetsAllocated.below, h.offsetsAllocated.distinct⟩

/-- How many of the next `periodicity` counter values lie past the end of the counter's range. -/
def wrappedTurns (srsSlotCounter : UInt32) (periodicity : ℕ) : ℕ :=
  srsSlotCounter.toNat + 1 + periodicity - 2 ^ 32

/-- The turn of the offset that the end of the counter's range leaves out and the one that it adds
are both there, or neither is. -/
def KeepsTurn (srsSlotCounter : UInt32) (periodicity offset : ℕ) : Prop :=
  offset < wrappedTurns srsSlotCounter periodicity ↔
    back periodicity offset (2 ^ 32) < wrappedTurns srsSlotCounter periodicity

instance (srsSlotCounter : UInt32) (periodicity offset : ℕ) :
    Decidable (KeepsTurn srsSlotCounter periodicity offset) :=
  inferInstanceAs (Decidable (_ ↔ _))

/-! ## One slot -/

section Slot

variable {cfg : SrsConfig} {m : SrsUeMap} {walk : UeWalk} {P o offset : ℕ} {rnti : UInt16}
  {counter : UInt32}

theorem findUe_append_singleton {l : List UInt16} {ue : UInt16} :
    findUe m offset (l ++ [ue]) =
      if (m.lookup ue).any (·.offset = offset) then ue else findUe m offset l := by
  rw [findUe, List.foldl_append]
  rfl

theorem any_offset {ue : UInt16} : (m.lookup ue).any (·.offset = offset) = true ↔
    ∃ srs, m.lookup ue = some srs ∧ srs.offset = offset := by
  rw [Option.any_eq_true]
  simp only [decide_eq_true_eq]

/-- A user that is found has the offset. -/
theorem findUe_spec (l : List UInt16) : findUe m offset l = 0 ∨
    ∃ srs, m.lookup (findUe m offset l) = some srs ∧ srs.offset = offset := by
  induction l using List.reverseRecOn with
  | nil => exact Or.inl rfl
  | append_singleton l ue ih =>
    rw [findUe_append_singleton]
    by_cases h : (m.lookup ue).any (·.offset = offset) = true
    · rw [if_pos h]
      exact Or.inr (any_offset.mp h)
    · rw [if_neg h]
      exact ih

/-- The only user with the offset is found. -/
theorem findUe_eq_of_only {l : List UInt16} {srs : SrsPeriodicityAndOffset} (hMem : rnti ∈ l)
    (hLookup : m.lookup rnti = some srs) (hOffset : srs.offset = offset)
    (hOnly : ∀ ue srs', m.lookup ue = some srs' → srs'.offset = offset → ue = rnti) :
    findUe m offset l = rnti := by
  induction l using List.reverseRecOn with
  | nil => cases hMem
  | append_singleton l ue ih =>
    rw [findUe_append_singleton]
    split
    · next h =>
      obtain ⟨srs', hOther, hSame⟩ := any_offset.mp h
      exact hOnly ue srs' hOther hSame
    · next h =>
      rcases List.mem_append.mp hMem with hMem | hLast
      · exact ih hMem
      · obtain rfl := List.mem_singleton.mp hLast
        exact absurd (any_offset.mpr ⟨srs, hLookup, hOffset⟩) h

theorem SharePeriodicity.exists_srsUe (h : SharePeriodicity P m) (hP : P ≠ 0) (walk : UeWalk)
    (counter : UInt32) : ∃ ue, srsUe m walk counter = some ue := by
  rw [srsUe]
  split
  · exact ⟨0, rfl⟩
  · next first others hOrder =>
    have hFirst : first ∈ m := by
      rw [AList.mem_keys, ← (walk.perm m.keys).mem_iff, hOrder]
      exact List.mem_cons_self
    obtain ⟨srs, hSrs⟩ := Option.isSome_iff_exists.mp (AList.lookup_isSome.mpr hFirst)
    rw [hSrs, Option.bind_eq_bind, Option.bind_some, h.common first srs hSrs, if_neg hP]
    exact ⟨_, rfl⟩

/-- A user is found when the counter meets its offset. -/
theorem SharePeriodicity.srsUe_eq_iff (h : SharePeriodicity P m) (hNonzero : rnti ≠ 0)
    (hLookup : m.lookup rnti = some ⟨P, o⟩) {ue : UInt16} (hUe : srsUe m walk counter = some ue) :
    ue = rnti ↔ counter.toNat % P = o := by
  have hMem : rnti ∈ walk.order m.keys := by
    rw [(walk.perm m.keys).mem_iff, ← AList.mem_keys, ← AList.lookup_isSome, hLookup]
    rfl
  rw [srsUe] at hUe
  split at hUe
  · next hNil =>
    rw [hNil] at hMem
    cases hMem
  · next first others hOrder =>
    obtain ⟨srs, hSrs, hUe⟩ := Option.bind_eq_some_iff.mp hUe
    rw [h.common first srs hSrs] at hUe
    split at hUe
    · cases hUe
    · cases hUe
      constructor
      · intro hFound
        rcases findUe_spec (m := m) (first :: others) with
          hZero | ⟨srs', hOwn, hOffset⟩
        · exact absurd (hFound.symm.trans hZero) hNonzero
        · rw [hFound, hLookup] at hOwn
          cases hOwn
          exact hOffset.symm
      · intro hTurn
        refine findUe_eq_of_only (hOrder ▸ hMem) hLookup hTurn.symm ?_
        intro ue srs' hOther hOffset
        exact h.distinct ue rnti srs' _ hOther hLookup (hOffset.trans hTurn)

/-- The symbols end at the point, one for each DCI. -/
theorem allocateSrs_spec {n : ℕ} {a : SrsAllocation} (h : n ≤ a.spoint.sym.toNat) :
    (allocateSrs cfg rnti n a).allocInfo.varTtiAllocInfo =
      (List.range' (a.spoint.sym.toNat - n) n).map (fun sym =>
        VarTtiAllocInfo.ofDci (cfg.srsDci rnti (UInt8.ofNat sym))) ++
        a.allocInfo.varTtiAllocInfo := by
  induction n generalizing a with
  | zero => rfl
  | succ n ih =>
    have hPos : 1 ≤ a.spoint.sym := UInt8.le_iff_toNat_le.mpr (by
      have hOne : (1 : UInt8).toNat = 1 := rfl
      omega)
    have hSym : (a.spoint.sym - 1).toNat = a.spoint.sym.toNat - 1 := UInt8.toNat_sub_of_le _ _ hPos
    rw [allocateSrs, ih]
    · simp only [hSym]
      have hStart : a.spoint.sym.toNat - 1 - n = a.spoint.sym.toNat - (n + 1) := by omega
      have hLast : a.spoint.sym.toNat - (n + 1) + n = a.spoint.sym.toNat - 1 := by omega
      rw [hStart, List.range'_1_concat, List.map_append, List.append_assoc, hLast]
      congr 1
      rw [List.map_singleton, List.singleton_append, ← hSym, UInt8.ofNat_toNat]
    · simp only [hSym]
      omega

end Slot

/-! ## Runs -/

namespace SrsTurns

variable {cfg : SrsConfig} {s t : SrsTurns} {slot : UlSlot} {slots : List UlSlot} {P o a : ℕ}
  {rnti : UInt16} {counter : UInt32}

theorem doScheduleUl_of_other (hType : cfg.isSrsSlot slot.type = false)
    (h : doScheduleUl cfg s slot = some t) : t = s := by
  rw [doScheduleUl, if_pos hType] at h
  split at h
  · cases h
  · exact (Option.some.inj h).symm

theorem doScheduleUl_of_srs (hType : cfg.isSrsSlot slot.type = true)
    (h : doScheduleUl cfg s slot = some t) :
    cfg.srsCtrlSymbols ≤ cfg.dataSymPerSlot slot.type ∧
      ∃ allocation, doScheduleSrs cfg slot (s.srsSlotCounter + 1) ⟨0, cfg.lastSym⟩ = some allocation ∧
        t = ⟨s.srsSlotCounter + 1, s.allocations ++ [allocation]⟩ := by
  rw [doScheduleUl, if_neg (ne_false_of_eq_true hType)] at h
  split at h
  · cases h
  · dsimp only at h
    split at h
    · cases h
    · next hRoom =>
      obtain ⟨allocation, hAllocation, h⟩ := Option.bind_eq_some_iff.mp h
      cases h
      exact ⟨UInt8.not_lt.mp hRoom, allocation, hAllocation, rfl⟩

/-- The user of an allocation is the one that was found, and it has the SRS symbols. -/
theorem doScheduleSrs_spec {spoint : PointInFTPlane} {allocation : SrsAllocation}
    (h : doScheduleSrs cfg slot counter spoint = some allocation) :
    srsUe slot.ueMap slot.walk counter = some allocation.rnti ∧
      (allocation.rnti = 0 → allocation.allocInfo = slot.allocInfo) ∧
      (allocation.rnti ≠ 0 → cfg.srsCtrlSymbols ≤ spoint.sym →
        allocation.allocInfo.varTtiAllocInfo =
          (List.range' (spoint.sym.toNat - cfg.srsCtrlSymbols.toNat) cfg.srsCtrlSymbols.toNat).map
            (fun sym => VarTtiAllocInfo.ofDci (cfg.srsDci allocation.rnti (UInt8.ofNat sym))) ++
          slot.allocInfo.varTtiAllocInfo) := by
  obtain ⟨rnti, hFound, h⟩ := Option.bind_eq_some_iff.mp h
  have hRnti : ∀ n (b : SrsAllocation), b.rnti = rnti → (allocateSrs cfg rnti n b).rnti = rnti := by
    intro n
    induction n with
    | zero => exact fun b hb => hb
    | succ n ih => exact fun b _ => ih _ rfl
  split at h
  · next hZero =>
    cases h
    exact ⟨hFound, fun _ => rfl, fun hNonzero => absurd hZero hNonzero⟩
  · next hNonzero =>
    cases h
    rw [hRnti _ _ rfl]
    refine ⟨hFound, fun hZero => absurd hZero hNonzero, fun _ hRoom => ?_⟩
    exact allocateSrs_spec (UInt8.le_iff_toNat_le.mp hRoom)

theorem turns_concat {allocation : SrsAllocation} :
    (SrsTurns.mk counter (s.allocations ++ [allocation])).turns rnti =
      s.turns rnti + if allocation.rnti = rnti then 1 else 0 := by
  rw [turns, List.map_append, List.count_append, List.map_singleton, List.count_singleton, turns]
  simp only [beq_iff_eq]

/-- The number of SRS slots. -/
def srsSlots (cfg : SrsConfig) (slots : List UlSlot) : ℕ :=
  slots.countP fun slot => cfg.isSrsSlot slot.type

theorem srsSlots_cons : srsSlots cfg (slot :: slots) =
    srsSlots cfg slots + if cfg.isSrsSlot slot.type = true then 1 else 0 :=
  List.countP_cons

/-- The turns of a user in the slots of a run: the counter values that meet its offset. -/
theorem turns_run (hNonzero : rnti ≠ 0)
    (hSlots : ∀ slot ∈ slots, SharePeriodicity P slot.ueMap ∧
      slot.ueMap.lookup rnti = some ⟨P, o⟩)
    (hRun : run (doScheduleUl cfg) s slots = some t) (hCounter : s.srsSlotCounter.toNat = a % 2 ^ 32) :
    t.turns rnti = s.turns rnti +
      ((List.range' (a + 1) (srsSlots cfg slots)).map (· % 2 ^ 32 % P)).count o := by
  induction slots generalizing s a with
  | nil =>
    cases hRun
    rfl
  | cons slot slots ih =>
    obtain ⟨u, hStep, hRest⟩ := Option.bind_eq_some_iff.mp hRun
    obtain ⟨⟨hShare, hLookup⟩, hSlots⟩ := List.forall_mem_cons.mp hSlots
    cases hType : cfg.isSrsSlot slot.type with
    | false =>
      obtain rfl := doScheduleUl_of_other hType hStep
      simp only [srsSlots_cons, hType, Bool.false_eq_true, if_false, Nat.add_zero]
      exact ih hSlots hRest hCounter
    | true =>
      obtain ⟨-, allocation, hAllocation, rfl⟩ := doScheduleUl_of_srs hType hStep
      have hNext : (s.srsSlotCounter + 1).toNat = (a + 1) % 2 ^ 32 := by
        rw [UInt32.toNat_add, hCounter]
        exact Nat.mod_add_mod ..
      have hTurn := hShare.srsUe_eq_iff hNonzero hLookup (doScheduleSrs_spec hAllocation).1
      rw [hNext] at hTurn
      rw [ih hSlots hRest hNext, turns_concat, srsSlots_cons, if_pos hType, List.range'_succ,
        List.map_cons, List.count_cons, if_congr hTurn rfl rfl]
      simp only [beq_iff_eq]
      omega

theorem srsCtrlSymbols_le_lastSym {type : LteNrTddSlotType} (hCtrl : cfg.dlCtrlSymbols ≤ cfg.lastSym)
    (h : cfg.srsCtrlSymbols ≤ cfg.dataSymPerSlot type) : cfg.srsCtrlSymbols ≤ cfg.lastSym := by
  rw [SrsConfig.dataSymPerSlot] at h
  split at h
  · have hSub := UInt8.toNat_sub_of_le _ _ hCtrl
    rw [UInt8.le_iff_toNat_le] at h ⊢
    omega
  · exact h

/-- In every SRS slot of a run the user that was found has the SRS symbols at the end of the slot, one
DCI for each. -/
theorem run_allocated (hCtrl : cfg.dlCtrlSymbols ≤ cfg.lastSym)
    (hRun : run (doScheduleUl cfg) s slots = some t) :
    ∀ allocation ∈ t.allocations, allocation ∈ s.allocations ∨ ∃ slot ∈ slots,
      cfg.isSrsSlot slot.type = true ∧ (allocation.rnti ≠ 0 →
        allocation.allocInfo.varTtiAllocInfo =
          (List.range' (cfg.lastSym.toNat - cfg.srsCtrlSymbols.toNat) cfg.srsCtrlSymbols.toNat).map
            (fun sym => VarTtiAllocInfo.ofDci (cfg.srsDci allocation.rnti (UInt8.ofNat sym))) ++
          slot.allocInfo.varTtiAllocInfo) := by
  induction slots generalizing s with
  | nil =>
    cases hRun
    exact fun allocation hMem => Or.inl hMem
  | cons slot slots ih =>
    obtain ⟨u, hStep, hRest⟩ := Option.bind_eq_some_iff.mp hRun
    intro allocation hMem
    rcases ih hRest allocation hMem with hOld | ⟨slot', hLater, hSpec⟩
    · cases hType : cfg.isSrsSlot slot.type with
      | false =>
        rw [doScheduleUl_of_other hType hStep] at hOld
        exact Or.inl hOld
      | true =>
        obtain ⟨hRoom, allocation', hAllocation, rfl⟩ := doScheduleUl_of_srs hType hStep
        rcases List.mem_append.mp hOld with hOld | hNew
        · exact Or.inl hOld
        · rw [List.mem_singleton.mp hNew]
          refine Or.inr ⟨slot, List.mem_cons_self, hType, fun hNonzero => ?_⟩
          exact (doScheduleSrs_spec hAllocation).2.2 hNonzero
            (srsCtrlSymbols_le_lastSym hCtrl hRoom)
    · exact Or.inr ⟨slot', List.mem_cons_of_mem slot hLater, hSpec⟩

/-- A slot with room for the SRS symbols does not fail. -/
theorem exists_run (hP : P ≠ 0) (hSlots : ∀ slot ∈ slots, SharePeriodicity P slot.ueMap ∧
    slot.allocInfo.varTtiAllocInfo.length = 1 ∧
      cfg.srsCtrlSymbols ≤ cfg.dataSymPerSlot slot.type) :
    ∃ t, run (doScheduleUl cfg) s slots = some t := by
  induction slots generalizing s with
  | nil => exact ⟨s, rfl⟩
  | cons slot slots ih =>
    obtain ⟨⟨hShare, hUlCtrl, hRoom⟩, hSlots⟩ := List.forall_mem_cons.mp hSlots
    have hStep : ∃ u, doScheduleUl cfg s slot = some u := by
      rw [doScheduleUl, if_neg (not_not.mpr hUlCtrl)]
      split
      · exact ⟨s, rfl⟩
      · obtain ⟨ue, hUe⟩ := hShare.exists_srsUe hP slot.walk (s.srsSlotCounter + 1)
        dsimp only
        rw [if_neg (UInt8.not_lt.mpr hRoom), doScheduleSrs, hUe]
        exact ⟨_, rfl⟩
    obtain ⟨u, hStep⟩ := hStep
    rw [run_cons, hStep]
    exact ih hSlots

theorem le_of_standard (hP : P ∈ standardPeriodicity) : P ≤ 2560 := by
  have hAll : ∀ P ∈ standardPeriodicity, P ≤ 2560 := by decide
  exact hAll P hP

/-- A periodicity that divides the range of the counter keeps every turn, and so does a period without
a wrap. -/
theorem keepsTurn_of_dvd (ho : o < P) (h : P ∣ 2 ^ 32) : KeepsTurn counter P o := by
  have hBack : back P o (2 ^ 32) = o := by
    obtain ⟨k, hk⟩ := h
    rw [back_eq_iff ho ho, hk, Nat.add_mul_mod_self_left, Nat.mod_eq_of_lt ho]
  rw [KeepsTurn, hBack]

theorem keepsTurn_of_noWrap (h : counter.toNat + 1 + P ≤ 2 ^ 32) : KeepsTurn counter P o := by
  have hNone : wrappedTurns counter P = 0 := Nat.sub_eq_zero_of_le h
  have hNot : ∀ n, ¬ n < wrappedTurns counter P := by
    intro n
    rw [hNone]
    exact Nat.not_lt_zero n
  exact iff_of_false (hNot _) (hNot _)

/-- Any other wrap costs or doubles the turn of the first or of the last offset. -/
theorem not_keepsTurn_of_wrap (hNot : ¬ P ∣ 2 ^ 32) (hWrap : 2 ^ 32 < counter.toNat + 1 + P)
    (hInside : counter.toNat + 1 < 2 ^ 32) (hP : 0 < P) :
    ¬ KeepsTurn counter P 0 ∨ ¬ KeepsTurn counter P (P - 1) := by
  have hRest : 0 < 2 ^ 32 % P := Nat.pos_of_ne_zero fun h => hNot (Nat.dvd_of_mod_eq_zero h)
  have hRestLt := Nat.mod_lt (2 ^ 32) hP
  have hFirst : back P 0 (2 ^ 32) = P - 2 ^ 32 % P := by
    rw [back_eq_iff (by omega) hP, ← Nat.add_mod_mod, Nat.sub_add_cancel hRestLt.le, Nat.mod_self]
  have hLast : back P (P - 1) (2 ^ 32) = P - 1 - 2 ^ 32 % P := by
    rw [back_eq_iff (by omega) (by omega), ← Nat.add_mod_mod, Nat.sub_add_cancel (by omega),
      Nat.mod_eq_of_lt (by omega)]
  have hWrapped : wrappedTurns counter P = counter.toNat + 1 + P - 2 ^ 32 := rfl
  unfold KeepsTurn
  rw [hFirst, hLast]
  omega

/-- Over a period of SRS slots, in which users may come and go, a user has exactly one turn when the
wrap of the counter keeps it. -/
theorem turns_eq_one_iff (hP : P ∈ standardPeriodicity) (hNonzero : rnti ≠ 0)
    (hSlots : ∀ slot ∈ slots, SharePeriodicity P slot.ueMap ∧
      slot.ueMap.lookup rnti = some ⟨P, o⟩)
    (hPeriod : srsSlots cfg slots = P) (hRun : run (doScheduleUl cfg) ⟨counter, []⟩ slots = some t) :
    t.turns rnti = 1 ↔ KeepsTurn counter P o := by
  have hPos : P ≠ 0 := (NrMacSchedulerSrsDefault.standardPeriodicity_pos hP).ne'
  have hLt := counter.toNat_lt
  have ho : o < P := by
    obtain ⟨slot, hMem⟩ : ∃ slot, slot ∈ slots := by
      apply List.exists_mem_of_ne_nil
      rintro rfl
      exact hPos hPeriod.symm
    obtain ⟨hShare, hLookup⟩ := hSlots slot hMem
    exact hShare.below rnti _ hLookup
  have hTurns := turns_run hNonzero hSlots hRun (Nat.mod_eq_of_lt hLt).symm
  have hRing : P ≤ 2 ^ 32 := by
    have hLe := le_of_standard hP
    omega
  have hCount := count_range'_ring ho hRing hLt
  rw [hPeriod, turns, turns, List.map_nil, List.count_nil, Nat.zero_add, hCount] at hTurns
  split_ifs at hTurns with hBack hOwn hOwn
  · exact iff_of_true hTurns (iff_of_true hOwn hBack)
  · exact iff_of_false (hTurns.trans_ne Nat.zero_ne_one) fun h => hOwn (h.mpr hBack)
  · exact iff_of_false (hTurns.trans_ne (by decide)) fun h => hBack (h.mp hOwn)
  · exact iff_of_true hTurns (iff_of_false hOwn hBack)

/-- Two users that share the periodicity 5, and five slots of type UL. -/
def twoUes : SrsUeMap :=
  (AList.insert 1 ⟨5, 0⟩ ∅).insert 2 ⟨5, 3⟩

def fiveSlots : List UlSlot :=
  List.replicate 5 ⟨.ul, twoUes, ⟨id, List.Perm.refl⟩, ⟨1, [.ofDci {}]⟩⟩

def oneSymbolSrs : SrsConfig := ⟨14, 1, 1, 1, true, true, 4, 0, 1⟩

theorem twoUes_sharePeriodicity : SharePeriodicity 5 twoUes := by
  have hLookup : ∀ rnti srs, twoUes.lookup rnti = some srs →
      (rnti = 1 ∧ srs = ⟨5, 0⟩) ∨ (rnti = 2 ∧ srs = ⟨5, 3⟩) := by
    intro rnti srs h
    rcases eq_or_ne rnti 2 with rfl | hTwo
    · rw [twoUes, AList.lookup_insert] at h
      exact Or.inr ⟨rfl, (Option.some.inj h).symm⟩
    · rw [twoUes, AList.lookup_insert_ne hTwo] at h
      rcases eq_or_ne rnti 1 with rfl | hOne
      · rw [AList.lookup_insert] at h
        exact Or.inl ⟨rfl, (Option.some.inj h).symm⟩
      · rw [AList.lookup_insert_ne hOne] at h
        cases h
  refine ⟨?_, ?_, ?_⟩
  · intro rnti srs h
    rcases hLookup rnti srs h with ⟨-, rfl⟩ | ⟨-, rfl⟩
    · rfl
    · rfl
  · intro rnti srs h
    rcases hLookup rnti srs h with ⟨-, rfl⟩ | ⟨-, rfl⟩
    · decide
    · decide
  · intro rnti rnti' srs srs' h h'
    rcases hLookup rnti srs h with ⟨rfl, rfl⟩ | ⟨rfl, rfl⟩ <;>
      rcases hLookup rnti' srs' h' with ⟨rfl, rfl⟩ | ⟨rfl, rfl⟩ <;> decide

theorem fiveSlots_shared {slot : UlSlot} (h : slot ∈ fiveSlots) :
    SharePeriodicity 5 slot.ueMap ∧ slot.ueMap.lookup 1 = some ⟨5, 0⟩ ∧
      slot.ueMap.lookup 2 = some ⟨5, 3⟩ := by
  rw [List.eq_of_mem_replicate h]
  exact ⟨twoUes_sharePeriodicity, rfl, rfl⟩

/-- Five slots from the start of the counter on. -/
theorem turns_eq_one_iff_start :
    ∃ t, run (doScheduleUl oneSymbolSrs) ⟨0, []⟩ fiveSlots = some t ∧ t.turns 1 = 1 := by
  have hRoom : ∀ slot ∈ fiveSlots, SharePeriodicity 5 slot.ueMap ∧
      slot.allocInfo.varTtiAllocInfo.length = 1 ∧
        oneSymbolSrs.srsCtrlSymbols ≤ oneSymbolSrs.dataSymPerSlot slot.type := by
    intro slot h
    refine ⟨(fiveSlots_shared h).1, ?_⟩
    rw [List.eq_of_mem_replicate h]
    decide
  obtain ⟨t, hRun⟩ := exists_run (s := ⟨0, []⟩) (Nat.succ_ne_zero 4) hRoom
  refine ⟨t, hRun, ?_⟩
  refine (turns_eq_one_iff (by decide : 5 ∈ standardPeriodicity) (by decide)
    (fun slot h => ⟨(fiveSlots_shared h).1, (fiveSlots_shared h).2.1⟩) rfl hRun).mpr ?_
  exact keepsTurn_of_noWrap (by decide)

/-- Across the wrap of the counter the first user has two turns and the second has none. -/
theorem turns_across_wrap :
    (∀ slot ∈ fiveSlots, SharePeriodicity 5 slot.ueMap ∧ slot.ueMap.lookup 1 = some ⟨5, 0⟩ ∧
      slot.ueMap.lookup 2 = some ⟨5, 3⟩) ∧ srsSlots oneSymbolSrs fiveSlots = 5 ∧
    ∃ t, run (doScheduleUl oneSymbolSrs) ⟨4294967293, []⟩ fiveSlots = some t ∧
      t.turns 1 = 2 ∧ t.turns 2 = 0 :=
  ⟨fun _ h => fiveSlots_shared h, rfl, _, rfl, rfl, rfl⟩

end SrsTurns
end Bullet.Mac
