import Bullet.Lib.HeldValues
import Bullet.Lib.PartialRun

/-! # SRS offsets

The scheduler gives every user an offset within a periodicity that all users share. When the offsets
run out the periodicity grows and all users get a new one. `none` is an assertion that fails or an
abort.
-/

namespace Bullet.Mac

open Lib.HeldValues Lib.PartialRun

def standardPeriodicity : List ℕ :=
  [2, 4, 5, 8, 10, 16, 20, 32, 40, 64, 80, 160, 320, 640, 1280, 2560]

structure SrsPeriodicityAndOffset where
  periodicity : ℕ
  offset : ℕ
deriving DecidableEq, Repr

/-- `UniformRandomVariable::GetInteger (0, i)`, by `i`. -/
structure RandomIndex where
  getInteger : ℕ → ℕ
  le : ∀ i, getInteger i ≤ i

/-- The order in which the unordered map of the users is walked. -/
structure UeWalk where
  order : List UInt16 → List UInt16
  perm : ∀ l, (order l).Perm l

structure NrMacSchedulerSrsDefault where
  periodicity : ℕ := 0
  availableOffsetValues : List ℕ := []
deriving DecidableEq, Repr

/-- The users, with what they were given. -/
abbrev SrsUeMap := AList fun _ : UInt16 => SrsPeriodicityAndOffset

namespace NrMacSchedulerSrsDefault

/-- The offset is taken from the back. Without one the answer is invalid. -/
def addUe (a : NrMacSchedulerSrsDefault) :
    Option SrsPeriodicityAndOffset × NrMacSchedulerSrsDefault :=
  match a.availableOffsetValues.getLast? with
  | none => (none, a)
  | some offset => (some ⟨a.periodicity, offset⟩,
      { a with availableOffsetValues := a.availableOffsetValues.dropLast })

def removeUe (a : NrMacSchedulerSrsDefault) (offset : ℕ) : NrMacSchedulerSrsDefault :=
  { a with availableOffsetValues := a.availableOffsetValues ++ [offset] }

def swap (l : List ℕ) (i j : ℕ) : List ℕ :=
  (l.set i (l.getD j 0)).set j (l.getD i 0)

/-- The loop of the shuffle, from index `i` down to 1. -/
def shuffle (random : RandomIndex) : ℕ → List ℕ → List ℕ
  | 0, l => l
  | i + 1, l => shuffle random i (swap l (i + 1) (random.getInteger (i + 1)))

def setStartingPeriodicity (random : RandomIndex) (a : NrMacSchedulerSrsDefault) (start : ℕ) :
    Option NrMacSchedulerSrsDefault :=
  if a.availableOffsetValues ≠ [] ∨ start ∉ standardPeriodicity then none
  else some
    { periodicity := start
      availableOffsetValues := shuffle random (start - 1) (List.range start) }

/-- The loop of `ReassignSrsValue` over the users that are left. -/
def reassignSrsValue (a : NrMacSchedulerSrsDefault) (ueMap : SrsUeMap) :
    List UInt16 → Option (NrMacSchedulerSrsDefault × SrsUeMap)
  | [] => some (a, ueMap)
  | rnti :: l =>
    match a.addUe with
    | (none, _) => none
    | (some srs, a) => reassignSrsValue a (ueMap.insert rnti srs) l

/-- Both changes of the periodicity look the new one up in the table, and reassign all users. -/
def changePeriodicity (random : RandomIndex) (walk : UeWalk) (next : Option ℕ)
    (a : NrMacSchedulerSrsDefault) (ueMap : SrsUeMap) :
    Option (Bool × NrMacSchedulerSrsDefault × SrsUeMap) :=
  let a := { a with availableOffsetValues := [] }
  match next with
  | none => some (false, a, ueMap)
  | some start => do
    let a ← setStartingPeriodicity random a start
    let (a, ueMap) ← reassignSrsValue a ueMap (walk.order ueMap.keys)
    some (true, a, ueMap)

/-- `std::upper_bound`: the first value above the periodicity. -/
def increasePeriodicity (random : RandomIndex) (walk : UeWalk) (a : NrMacSchedulerSrsDefault) :
    SrsUeMap → Option (Bool × NrMacSchedulerSrsDefault × SrsUeMap) :=
  changePeriodicity random walk (standardPeriodicity.find? (a.periodicity < ·)) a

/-- `std::lower_bound`: the first value that is not below the periodicity, which is the periodicity
itself. -/
def decreasePeriodicity (random : RandomIndex) (walk : UeWalk) (a : NrMacSchedulerSrsDefault) :
    SrsUeMap → Option (Bool × NrMacSchedulerSrsDefault × SrsUeMap) :=
  changePeriodicity random walk (standardPeriodicity.find? (a.periodicity ≤ ·)) a

end NrMacSchedulerSrsDefault

/-- The scheduler's users and its SRS algorithm. -/
structure SrsScheduler where
  schedulerSrs : NrMacSchedulerSrsDefault
  ueMap : SrsUeMap := ∅

/-- The calls of the scheduler. A new user makes it increase the periodicity by itself. -/
inductive SrsCall where
  | configUe (rnti : UInt16) (random : RandomIndex) (walk : UeWalk)
  | releaseUe (rnti : UInt16)
  | increase (random : RandomIndex) (walk : UeWalk)
  | decrease (random : RandomIndex) (walk : UeWalk)

/-- The calls that change the periodicity. -/
def SrsCall.changesPeriodicity : SrsCall → Bool
  | .increase _ _ | .decrease _ _ => true
  | _ => false

namespace SrsScheduler

/-- What the algorithm hands back, and the assertion that it succeeded. -/
def changed : Bool × NrMacSchedulerSrsDefault × SrsUeMap → Option SrsScheduler
  | (ret, schedulerSrs, ueMap) => if ret then some ⟨schedulerSrs, ueMap⟩ else none

/-- `DoCschedUeConfigReq`: a user that is not new keeps its values. -/
def doCschedUeConfigReq (s : SrsScheduler) (rnti : UInt16) (random : RandomIndex) (walk : UeWalk) :
    Option SrsScheduler :=
  if rnti ∈ s.ueMap then some s
  else
    match s.schedulerSrs.addUe with
    | (some srs, schedulerSrs) => some ⟨schedulerSrs, s.ueMap.insert rnti srs⟩
    | (none, schedulerSrs) =>
      (schedulerSrs.increasePeriodicity random walk (s.ueMap.insert rnti ⟨0, 0⟩)).bind changed

def doCschedUeReleaseReq (s : SrsScheduler) (rnti : UInt16) : Option SrsScheduler := do
  let srs ← s.ueMap.lookup rnti
  some ⟨s.schedulerSrs.removeUe srs.offset, s.ueMap.erase rnti⟩

def step (s : SrsScheduler) : SrsCall → Option SrsScheduler
  | .configUe rnti random walk => s.doCschedUeConfigReq rnti random walk
  | .releaseUe rnti => s.doCschedUeReleaseReq rnti
  | .increase random walk => (s.schedulerSrs.increasePeriodicity random walk s.ueMap).bind changed
  | .decrease random walk => (s.schedulerSrs.decreasePeriodicity random walk s.ueMap).bind changed

/-- The scheduler after it was configured with a periodicity. -/
def init (random : RandomIndex) (start : ℕ) : Option SrsScheduler :=
  (NrMacSchedulerSrsDefault.setStartingPeriodicity random {} start).map (SrsScheduler.mk · ∅)

/-- The offsets in use. -/
def usedOffsets (s : SrsScheduler) : List ℕ :=
  held SrsPeriodicityAndOffset.offset s.ueMap

/-- Available and used offsets are together the numbers below the periodicity, each once, and all
users have that periodicity. -/
structure Partitioned (s : SrsScheduler) : Prop where
  standard : s.schedulerSrs.periodicity ∈ standardPeriodicity
  perm : (s.schedulerSrs.availableOffsetValues ++ s.usedOffsets).Perm
    (List.range s.schedulerSrs.periodicity)
  common : ∀ rnti srs, s.ueMap.lookup rnti = some srs →
    srs.periodicity = s.schedulerSrs.periodicity

end SrsScheduler

/-! ## The algorithm -/

namespace NrMacSchedulerSrsDefault

variable {random : RandomIndex} {walk : UeWalk} {a a' : NrMacSchedulerSrsDefault}
  {m m' : SrsUeMap} {start : ℕ}

theorem swap_perm {l : List ℕ} {i j : ℕ} (hi : i < l.length) (hj : j < l.length) :
    (swap l i j).Perm l := by
  rw [swap, List.getD_eq_getElem?_getD, List.getD_eq_getElem?_getD, List.getElem?_eq_getElem hi,
    List.getElem?_eq_getElem hj]
  exact List.set_set_perm hi hj

theorem shuffle_perm {l : List ℕ} {i : ℕ} (hi : i < l.length) : (shuffle random i l).Perm l := by
  induction i generalizing l with
  | zero => exact List.Perm.refl l
  | succ i ih =>
    have hSwap := swap_perm hi (Nat.lt_of_le_of_lt (random.le (i + 1)) hi)
    rw [shuffle]
    exact (ih (by rw [hSwap.length_eq]; omega)).trans hSwap

theorem standardPeriodicity_pos {p : ℕ} (h : p ∈ standardPeriodicity) : 0 < p := by
  have hAll : ∀ p ∈ standardPeriodicity, 0 < p := by decide
  exact hAll p h

theorem setStartingPeriodicity_spec (h : setStartingPeriodicity random a start = some a') :
    start ∈ standardPeriodicity ∧ a'.periodicity = start ∧
      a'.availableOffsetValues.Perm (List.range start) := by
  rw [setStartingPeriodicity] at h
  split at h
  · cases h
  · next hNot =>
    cases h
    have hStandard : start ∈ standardPeriodicity := by
      by_contra hOut
      exact hNot (Or.inr hOut)
    have hPos := standardPeriodicity_pos hStandard
    refine ⟨hStandard, rfl, shuffle_perm ?_⟩
    rw [List.length_range]
    omega

theorem addUe_some {srs : SrsPeriodicityAndOffset} (h : a.addUe = (some srs, a')) :
    a'.periodicity = a.periodicity ∧ srs.periodicity = a.periodicity ∧
      a.availableOffsetValues = a'.availableOffsetValues ++ [srs.offset] := by
  rw [addUe] at h
  split at h
  · cases h
  · next offset hLast =>
    cases h
    refine ⟨rfl, rfl, ?_⟩
    exact (List.dropLast_append_getLast? offset hLast).symm

theorem addUe_none (h : a.addUe = (none, a')) : a' = a ∧ a.availableOffsetValues = [] := by
  rw [addUe] at h
  split at h
  · next hLast =>
    cases h
    exact ⟨rfl, List.getLast?_eq_none_iff.mp hLast⟩
  · cases h

/-- The users of the walk get the offsets from the back on, the others keep theirs. -/
theorem reassignSrsValue_spec {l : List UInt16} (hNodup : l.Nodup)
    (h : reassignSrsValue a m l = some (a', m')) :
    a'.periodicity = a.periodicity ∧ (∀ rnti ∉ l, m'.lookup rnti = m.lookup rnti) ∧
      ∃ os, a.availableOffsetValues = a'.availableOffsetValues ++ os.reverse ∧
        List.Forall₂ (fun rnti o => m'.lookup rnti = some ⟨a.periodicity, o⟩) l os := by
  induction l generalizing a m with
  | nil =>
    cases h
    exact ⟨rfl, fun _ _ => rfl, [], (List.append_nil _).symm, .nil⟩
  | cons rnti l ih =>
    rw [reassignSrsValue] at h
    split at h
    · cases h
    · next srs b hAdd =>
      obtain ⟨hPeriod, hOwn, hTaken⟩ := addUe_some hAdd
      obtain ⟨hFresh, hNodup⟩ := List.nodup_cons.mp hNodup
      obtain ⟨hPeriod', hOther, os, hLeft, hGiven⟩ := ih hNodup h
      refine ⟨hPeriod'.trans hPeriod, ?_, srs.offset :: os, ?_, .cons ?_ ?_⟩
      · intro rnti' hNot
        obtain ⟨hNe, hNot⟩ := not_or.mp (mt List.mem_cons.mpr hNot)
        rw [hOther rnti' hNot, AList.lookup_insert_ne hNe]
      · rw [hTaken, hLeft, List.reverse_cons, List.append_assoc]
      · rw [hOther rnti hFresh, AList.lookup_insert, ← hOwn]
      · rw [← hPeriod]
        exact hGiven

/-- The loop does not abort while there are offsets for all. -/
theorem exists_reassignSrsValue {l : List UInt16} (hRoom : l.length ≤ a.availableOffsetValues.length) :
    ∃ r, reassignSrsValue a m l = some r := by
  induction l generalizing a m with
  | nil => exact ⟨_, rfl⟩
  | cons rnti l ih =>
    rw [reassignSrsValue]
    split
    · next hNone =>
      rw [(addUe_none hNone).2] at hRoom
      cases hRoom
    · next srs b hAdd =>
      apply ih
      rw [(addUe_some hAdd).2.2, List.length_append] at hRoom
      exact Nat.le_of_succ_le_succ hRoom

/-- A change of the periodicity serves the same users. -/
theorem changePeriodicity_spec {next : Option ℕ}
    (h : changePeriodicity random walk next a m = some (true, a', m')) :
    SrsScheduler.Partitioned ⟨a', m'⟩ ∧ ∀ rnti, rnti ∈ m' ↔ rnti ∈ m := by
  cases next with
  | none => cases h
  | some start =>
    obtain ⟨b, hStart, h⟩ := Option.bind_eq_some_iff.mp h
    obtain ⟨⟨c, n⟩, hReassign, h⟩ := Option.bind_eq_some_iff.mp h
    cases h
    obtain ⟨hStandard, rfl, hPerm⟩ := setStartingPeriodicity_spec hStart
    have hWalk := walk.perm m.keys
    obtain ⟨hPeriod, hOther, os, hLeft, hGiven⟩ :=
      reassignSrsValue_spec (hWalk.nodup_iff.mpr m.keys_nodup) hReassign
    have hServed : ∀ rnti ∈ m, ∃ o, m'.lookup rnti = some ⟨b.periodicity, o⟩ := by
      intro rnti hMem
      obtain ⟨o, -, ho⟩ := exists_of_forall₂ hGiven (hWalk.mem_iff.mpr (AList.mem_keys.mp hMem))
      exact ⟨o, ho⟩
    have hOther : ∀ rnti ∉ m, m'.lookup rnti = none := by
      intro rnti hNot
      rw [hOther rnti fun hMem => hNot (AList.mem_keys.mpr (hWalk.mem_iff.mp hMem))]
      exact AList.lookup_eq_none.mpr hNot
    have hSame : ∀ rnti, rnti ∈ m' ↔ rnti ∈ m := by
      intro rnti
      constructor
      · intro hMem
        by_contra hNot
        exact AList.lookup_eq_none.mp (hOther rnti hNot) hMem
      · intro hMem
        obtain ⟨o, ho⟩ := hServed rnti hMem
        rw [← AList.lookup_isSome, ho]
        rfl
    refine ⟨⟨?_, ?_, ?_⟩, hSame⟩
    · rw [hPeriod]
      exact hStandard
    · have hKeys : (walk.order m.keys).Perm m'.keys := by
        apply hWalk.trans
        apply (List.perm_ext_iff_of_nodup m.keys_nodup m'.keys_nodup).mpr
        intro rnti
        exact (hSame rnti).symm
      have hUsed : (held SrsPeriodicityAndOffset.offset m').Perm os := by
        apply held_perm_of_forall₂ hKeys
        exact hGiven.imp fun rnti o ho => by rw [ho, Option.map_some]
      rw [hPeriod]
      calc
        (a'.availableOffsetValues ++ held SrsPeriodicityAndOffset.offset m').Perm
            (a'.availableOffsetValues ++ os.reverse) :=
          (hUsed.trans os.reverse_perm.symm).append_left _
        _ = b.availableOffsetValues := hLeft.symm
        List.Perm _ (List.range b.periodicity) := hPerm
    · intro rnti srs hLookup
      have hMem : rnti ∈ m := by
        rw [← hSame, ← AList.lookup_isSome, hLookup]
        rfl
      obtain ⟨o, ho⟩ := hServed rnti hMem
      obtain rfl := Option.some.inj (hLookup.symm.trans ho)
      exact hPeriod.symm

end NrMacSchedulerSrsDefault

/-! ## The scheduler -/

namespace SrsScheduler

open NrMacSchedulerSrsDefault

variable {s s' : SrsScheduler} {random : RandomIndex} {walk : UeWalk} {rnti : UInt16} {start : ℕ}

theorem init_partitioned (h : init random start = some s) : s.Partitioned := by
  obtain ⟨a, hStart, rfl⟩ := Option.map_eq_some_iff.mp h
  obtain ⟨hStandard, hPeriod, hPerm⟩ := setStartingPeriodicity_spec hStart
  refine ⟨hPeriod.symm ▸ hStandard, ?_, ?_⟩
  · rw [usedOffsets, held_empty, List.append_nil, hPeriod]
    exact hPerm
  · intro rnti srs hLookup
    cases hLookup

theorem changed_spec {r : Bool × NrMacSchedulerSrsDefault × SrsUeMap} (h : changed r = some s) :
    r = (true, s.schedulerSrs, s.ueMap) := by
  obtain ⟨ret, a, m⟩ := r
  cases ret with
  | false => cases h
  | true =>
    cases h
    rfl

theorem change_spec {next : Option ℕ} {m : SrsUeMap}
    (h : (changePeriodicity random walk next s.schedulerSrs m).bind changed = some s') :
    s'.Partitioned ∧ ∀ rnti, rnti ∈ s'.ueMap ↔ rnti ∈ m := by
  obtain ⟨r, hChange, h⟩ := Option.bind_eq_some_iff.mp h
  rw [changed_spec h] at hChange
  exact changePeriodicity_spec hChange

theorem Partitioned.configUe (h : s.Partitioned)
    (hStep : s.doCschedUeConfigReq rnti random walk = some s') :
    s'.Partitioned ∧ ∀ rnti', rnti' ∈ s'.ueMap ↔ rnti' = rnti ∨ rnti' ∈ s.ueMap := by
  rw [doCschedUeConfigReq] at hStep
  split at hStep
  · next hOld =>
    cases hStep
    refine ⟨h, fun rnti' => ⟨Or.inr, ?_⟩⟩
    rintro (rfl | hMem)
    · exact hOld
    · exact hMem
  · next hNew =>
    split at hStep
    · next srs a hAdd =>
      cases hStep
      obtain ⟨hPeriod, hOwn, hTaken⟩ := addUe_some hAdd
      refine ⟨⟨?_, ?_, ?_⟩, fun rnti' => AList.mem_insert _⟩
      · exact hPeriod.symm ▸ h.standard
      · rw [usedOffsets, held_insert_of_notMem hNew, hPeriod]
        have hPerm := h.perm
        rw [hTaken, List.append_assoc] at hPerm
        exact hPerm
      · intro rnti' srs' hLookup
        rcases eq_or_ne rnti' rnti with rfl | hNe
        · rw [AList.lookup_insert] at hLookup
          cases hLookup
          exact hOwn.trans hPeriod.symm
        · rw [AList.lookup_insert_ne hNe] at hLookup
          exact (h.common rnti' srs' hLookup).trans hPeriod.symm
    · next a hAdd =>
      obtain ⟨rfl, -⟩ := addUe_none hAdd
      obtain ⟨hPartitioned, hSame⟩ := change_spec hStep
      exact ⟨hPartitioned, fun rnti' => (hSame rnti').trans (AList.mem_insert _)⟩

theorem Partitioned.releaseUe (h : s.Partitioned) (hStep : s.doCschedUeReleaseReq rnti = some s') :
    s'.Partitioned := by
  obtain ⟨srs, hLookup, hStep⟩ := Option.bind_eq_some_iff.mp hStep
  cases hStep
  refine ⟨h.standard, ?_, ?_⟩
  · refine List.Perm.trans ?_ h.perm
    change (s.schedulerSrs.availableOffsetValues ++ [srs.offset] ++
      held SrsPeriodicityAndOffset.offset (s.ueMap.erase rnti)).Perm _
    rw [List.append_assoc]
    exact (held_perm_erase hLookup).symm.append_left _
  · intro rnti' srs' hOld
    rcases eq_or_ne rnti' rnti with rfl | hNe
    · rw [AList.lookup_erase] at hOld
      cases hOld
    · rw [AList.lookup_erase_ne hNe] at hOld
      exact h.common rnti' srs' hOld

theorem Partitioned.step {call : SrsCall} (h : s.Partitioned) (hStep : s.step call = some s') :
    s'.Partitioned := by
  cases call with
  | configUe rnti random walk => exact (h.configUe hStep).1
  | releaseUe rnti => exact h.releaseUe hStep
  | increase random walk => exact (change_spec hStep).1
  | decrease random walk => exact (change_spec hStep).1

/-! ### When a call aborts -/

theorem exists_change {next : ℕ} {m : SrsUeMap} (hNext : next ∈ standardPeriodicity)
    (hRoom : m.keys.length ≤ next) :
    ∃ s', (changePeriodicity random walk (some next) s.schedulerSrs m).bind changed = some s' := by
  have hStart : ∃ a, setStartingPeriodicity random { s.schedulerSrs with availableOffsetValues := [] }
      next = some a := by
    rw [setStartingPeriodicity, if_neg]
    · exact ⟨_, rfl⟩
    · rintro (hNe | hOut)
      · exact hNe rfl
      · exact hOut hNext
  obtain ⟨a, ha⟩ := hStart
  obtain ⟨-, -, hPerm⟩ := setStartingPeriodicity_spec ha
  obtain ⟨⟨b, m'⟩, hReassign⟩ := exists_reassignSrsValue (a := a) (m := m)
    (l := walk.order m.keys) (by
      rw [(walk.perm m.keys).length_eq, hPerm.length_eq, List.length_range]
      exact hRoom)
  refine ⟨⟨b, m'⟩, ?_⟩
  rw [changePeriodicity]
  simp only [ha, hReassign, Option.bind_eq_bind, Option.bind_some]
  rfl

theorem Partitioned.length_keys (h : s.Partitioned) :
    s.schedulerSrs.availableOffsetValues.length + s.ueMap.keys.length =
      s.schedulerSrs.periodicity := by
  have hLength := h.perm.length_eq
  rw [List.length_append, usedOffsets, length_held, List.length_range] at hLength
  exact hLength

/-- The calls that the scheduler cannot make: the release of a user that is not there, and an increase
of the largest periodicity. -/
def Aborts (s : SrsScheduler) : SrsCall → Prop
  | .configUe rnti _ _ =>
    rnti ∉ s.ueMap ∧ s.schedulerSrs.availableOffsetValues = [] ∧ s.schedulerSrs.periodicity = 2560
  | .releaseUe rnti => rnti ∉ s.ueMap
  | .increase _ _ => s.schedulerSrs.periodicity = 2560
  | .decrease _ _ => False

theorem find?_larger {p : ℕ} (h : p ∈ standardPeriodicity) (hNe : p ≠ 2560) :
    ∃ q ∈ standardPeriodicity, standardPeriodicity.find? (p < ·) = some q ∧ p < q := by
  revert h hNe
  revert p
  decide

theorem find?_same {p : ℕ} (h : p ∈ standardPeriodicity) :
    standardPeriodicity.find? (p ≤ ·) = some p := by
  revert h
  revert p
  decide

/-- Every other call succeeds. -/
theorem Partitioned.exists_step {call : SrsCall} (h : s.Partitioned) (hNot : ¬ s.Aborts call) :
    ∃ s', s.step call = some s' := by
  have hLength := h.length_keys
  cases call with
  | configUe rnti random walk =>
    rw [SrsScheduler.step, doCschedUeConfigReq]
    split
    · exact ⟨_, rfl⟩
    · next hNew =>
      split
      · exact ⟨_, rfl⟩
      · next a hAdd =>
        obtain ⟨rfl, hEmpty⟩ := addUe_none hAdd
        obtain ⟨q, hq, hFind, hLt⟩ :=
          find?_larger h.standard fun hTop => hNot ⟨hNew, hEmpty, hTop⟩
        rw [increasePeriodicity, hFind]
        apply exists_change hq
        rw [hEmpty, List.length_nil, Nat.zero_add] at hLength
        rw [AList.keys_insert, List.erase_of_not_mem fun hk => hNew (AList.mem_keys.mpr hk),
          List.length_cons, hLength]
        exact hLt
  | releaseUe rnti =>
    have hMem : rnti ∈ s.ueMap := Decidable.not_not.mp hNot
    obtain ⟨srs, hLookup⟩ := Option.isSome_iff_exists.mp (AList.lookup_isSome.mpr hMem)
    rw [SrsScheduler.step, doCschedUeReleaseReq, hLookup]
    exact ⟨_, rfl⟩
  | increase random walk =>
    obtain ⟨q, hq, hFind, hLt⟩ := find?_larger h.standard hNot
    rw [SrsScheduler.step, increasePeriodicity, hFind]
    exact exists_change hq (by omega)
  | decrease random walk =>
    rw [SrsScheduler.step, decreasePeriodicity, find?_same h.standard]
    exact exists_change h.standard (by omega)

/-! ### Runs -/

/-- Distinct users have distinct offsets below the periodicity that they share, and the offsets that
are not used are available. -/
structure OffsetsAllocated (s : SrsScheduler) : Prop where
  distinct : ∀ rnti rnti' srs srs', s.ueMap.lookup rnti = some srs →
    s.ueMap.lookup rnti' = some srs' → srs.offset = srs'.offset → rnti = rnti'
  below : ∀ rnti srs, s.ueMap.lookup rnti = some srs → srs.offset < s.schedulerSrs.periodicity
  common : ∀ rnti srs, s.ueMap.lookup rnti = some srs →
    srs.periodicity = s.schedulerSrs.periodicity
  nodup : s.schedulerSrs.availableOffsetValues.Nodup
  disjoint : s.schedulerSrs.availableOffsetValues.Disjoint s.usedOffsets
  exhaustive : ∀ o, o ∈ s.schedulerSrs.availableOffsetValues ∨ o ∈ s.usedOffsets ↔
    o < s.schedulerSrs.periodicity

theorem Partitioned.offsetsAllocated (h : s.Partitioned) : s.OffsetsAllocated := by
  have hNodup := h.perm.nodup_iff.mpr List.nodup_range
  have hMem : ∀ o, o ∈ s.schedulerSrs.availableOffsetValues ∨ o ∈ s.usedOffsets ↔
      o < s.schedulerSrs.periodicity := by
    intro o
    rw [← List.mem_append, h.perm.mem_iff, List.mem_range]
  obtain ⟨hAvailable, hUsed, hDisjoint⟩ := List.nodup_append'.mp hNodup
  refine ⟨?_, ?_, h.common, hAvailable, hDisjoint, hMem⟩
  · intro rnti rnti' srs srs' hLookup hLookup' hSame
    exact key_eq_of_held_nodup hUsed hLookup hLookup' hSame
  · intro rnti srs hLookup
    exact (hMem srs.offset).mp (Or.inr (mem_held.mpr ⟨rnti, srs, hLookup, rfl⟩))

/-- After any calls the offsets are allocated, and a change of the periodicity serves the users that
were served before. -/
theorem run_offsetsAllocated {s₀ : SrsScheduler} {calls : List SrsCall}
    (hInit : init random start = some s₀) (hRun : run SrsScheduler.step s₀ calls = some s) :
    s.OffsetsAllocated ∧ ∀ call s', call.changesPeriodicity = true → s.step call = some s' →
      s'.OffsetsAllocated ∧ ∀ rnti, rnti ∈ s'.ueMap ↔ rnti ∈ s.ueMap := by
  have hPartitioned : s.Partitioned :=
    invariant_of_step (fun _ _ _ hInv hStep => Partitioned.step hInv hStep)
      (init_partitioned hInit) hRun
  refine ⟨hPartitioned.offsetsAllocated, fun call s' hChanges hStep => ?_⟩
  have hPartitioned' := hPartitioned.step hStep
  refine ⟨hPartitioned'.offsetsAllocated, ?_⟩
  cases call with
  | configUe rnti random walk => cases hChanges
  | releaseUe rnti => cases hChanges
  | increase random walk => exact (change_spec hStep).2
  | decrease random walk => exact (change_spec hStep).2

/-- The third user of a scheduler with two offsets makes the periodicity grow. -/
theorem run_offsetsAllocated_third_user :
    ∃ s : SrsScheduler, s.OffsetsAllocated ∧ s.schedulerSrs.periodicity = 4 := by
  let random : RandomIndex := ⟨fun _ => 0, Nat.zero_le⟩
  let walk : UeWalk := ⟨id, List.Perm.refl⟩
  let calls : List SrsCall :=
    [.configUe 1 random walk, .configUe 2 random walk, .configUe 3 random walk]
  have hInit : init random 2 = some ⟨⟨2, [1, 0]⟩, ∅⟩ := rfl
  have hRun : ∃ s, run SrsScheduler.step ⟨⟨2, [1, 0]⟩, ∅⟩ calls = some s ∧
      s.schedulerSrs.periodicity = 4 := ⟨_, rfl, rfl⟩
  obtain ⟨s, hRun, hPeriod⟩ := hRun
  exact ⟨s, (run_offsetsAllocated hInit hRun).1, hPeriod⟩

end SrsScheduler
end Bullet.Mac
