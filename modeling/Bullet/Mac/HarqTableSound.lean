import Bullet.Mac.HarqTable

/-! # Soundness of the HARQ process table

The counter of a table is the number of its active processes and the flag of a process goes with its
status, whatever the scheduler does. A process that is neither fed back nor retransmitted is active
for at most as many resets as there are processes.
-/

namespace Bullet.Mac

open Lib.PartialRun Lib.Occupancy

variable {size : UInt8} {t t' : HarqTable} {id : UInt8} {p p' : HarqProcess}

@[simp] theorem mem_harqIds : id ∈ harqIds size ↔ id < size := by
  rw [harqIds, List.mem_map, UInt8.lt_iff_toNat_lt]
  constructor
  · rintro ⟨i, hMem, rfl⟩
    have hLt := List.mem_range.mp hMem
    rw [UInt8.toNat_ofNat_of_lt' (hLt.trans size.toNat_lt)]
    exact hLt
  · intro hLt
    exact ⟨id.toNat, List.mem_range.mpr hLt, UInt8.ofNat_toNat⟩

theorem harqIds_nodup : (harqIds size).Nodup := by
  apply List.Nodup.map_on _ List.nodup_range
  intro i hI j hJ hEq
  have hLtI := (List.mem_range.mp hI).trans size.toNat_lt
  have hLtJ := (List.mem_range.mp hJ).trans size.toNat_lt
  have hNat := congrArg UInt8.toNat hEq
  rwa [UInt8.toNat_ofNat_of_lt' hLtI, UInt8.toNat_ofNat_of_lt' hLtJ] at hNat

theorem length_harqIds (size : UInt8) : (harqIds size).length = size.toNat := by
  rw [harqIds, List.length_map, List.length_range]

namespace HarqTable

structure WellFormed (size : UInt8) (t : HarqTable) : Prop where
  maxSize : t.maxSize = size
  keys : ∀ id, (t.processes id).isSome ↔ id < t.maxSize
  used : t.usedSize.toNat = t.activeSize
  paired : ∀ id p, t.processes id = some p → (p.active = true ↔ p.status ≠ .inactive)
  timer : ∀ id p, t.processes id = some p → p.timer ≤ size

theorem WellFormed.lt (h : WellFormed size t) (hp : t.processes id = some p) : id < t.maxSize :=
  (h.keys id).mp (Option.isSome_iff_exists.mpr ⟨p, hp⟩)

theorem create_wellFormed : WellFormed size (create size) where
  maxSize := rfl
  keys := by
    intro id
    rw [create]
    dsimp only
    split
    · next hLt => exact ⟨fun _ => hLt, fun _ => rfl⟩
    · next hLt => exact ⟨fun h => (Bool.false_ne_true h).elim, fun h => (hLt h).elim⟩
  used := by
    apply Eq.symm
    apply List.countP_eq_zero.mpr
    intro id _
    rw [create]
    dsimp only
    split
    · exact Bool.false_ne_true
    · exact Bool.false_ne_true
  paired := by
    intro id p hp
    rw [create] at hp
    dsimp only at hp
    split at hp
    · cases hp
      exact ⟨fun h => (Bool.false_ne_true h).elim, fun h => (h rfl).elim⟩
    · cases hp
  timer := by
    intro id p hp
    rw [create] at hp
    dsimp only at hp
    split at hp
    · cases hp
      exact UInt8.zero_le
    · cases hp

/-- A write to a process keeps the table well formed when the counter goes along. -/
theorem WellFormed.put (h : WellFormed size t) (hp : t.processes id = some p)
    (hPaired : p'.active = true ↔ p'.status ≠ .inactive) (hTimer : p'.timer ≤ size)
    {used : UInt8} (hUsed : used.toNat + p.active.toNat = t.usedSize.toNat + p'.active.toNat) :
    WellFormed size { t.put id p' with usedSize := used } where
  maxSize := h.maxSize
  keys := by
    intro id'
    by_cases hEq : id' = id
    · subst hEq
      change (Function.update t.processes id' (some p') id').isSome ↔ _
      rw [Function.update_self]
      exact ⟨fun _ => h.lt hp, fun _ => rfl⟩
    · change (Function.update t.processes id (some p') id').isSome ↔ _
      rw [Function.update_of_ne hEq]
      exact h.keys id'
  used := by
    have hCount := occupied_update HarqProcess.active t.processes p' harqIds_nodup
      (mem_harqIds.mpr (h.lt hp))
    rw [hp, Option.any_some] at hCount
    have hOld : t.usedSize.toNat = occupied HarqProcess.active (harqIds t.maxSize) t.processes :=
      h.used
    change used.toNat = occupied HarqProcess.active (harqIds t.maxSize)
      (Function.update t.processes id (some p'))
    omega
  paired := by
    intro id' q hq
    by_cases hEq : id' = id
    · subst hEq
      change Function.update t.processes id' (some p') id' = some q at hq
      rw [Function.update_self] at hq
      cases hq
      exact hPaired
    · change Function.update t.processes id (some p') id' = some q at hq
      rw [Function.update_of_ne hEq] at hq
      exact h.paired id' q hq
  timer := by
    intro id' q hq
    by_cases hEq : id' = id
    · subst hEq
      change Function.update t.processes id' (some p') id' = some q at hq
      rw [Function.update_self] at hq
      cases hq
      exact hTimer
    · change Function.update t.processes id (some p') id' = some q at hq
      rw [Function.update_of_ne hEq] at hq
      exact h.timer id' q hq

/-- A write that keeps the flag of the process. -/
theorem WellFormed.put_same (h : WellFormed size t) (hp : t.processes id = some p)
    (hPaired : p'.active = true ↔ p'.status ≠ .inactive) (hTimer : p'.timer ≤ size)
    (hActive : p'.active = p.active) : WellFormed size (t.put id p') :=
  h.put hp hPaired hTimer (by rw [hActive])

theorem WellFormed.active_pos (h : WellFormed size t) (hp : t.processes id = some p)
    (hActive : p.active = true) : 0 < t.usedSize.toNat := by
  rw [h.used]
  apply List.countP_pos_iff.mpr
  exact ⟨id, mem_harqIds.mpr (h.lt hp), by rw [hp]; exact hActive⟩

theorem WellFormed.erase (walk : WalkOrder) (h : WellFormed size t) (hp : t.processes id = some p)
    (hActive : p.active = true) :
    t.erase walk id = some { t.put id p.erased with usedSize := t.usedSize - 1 } ∧
      WellFormed size { t.put id p.erased with usedSize := t.usedSize - 1 } := by
  have hPos := h.active_pos hp hActive
  have hSub : (t.usedSize - 1).toNat = t.usedSize.toNat - 1 :=
    UInt8.toNat_sub_of_le _ _ (UInt8.le_iff_toNat_le.mpr hPos)
  have hErased : WellFormed size { t.put id p.erased with usedSize := t.usedSize - 1 } := by
    apply h.put hp
    · exact ⟨fun h => (Bool.false_ne_true h).elim, fun h => (h rfl).elim⟩
    · exact UInt8.zero_le
    · rw [hActive, hSub, HarqProcess.erased]
      exact Nat.sub_add_cancel hPos
  refine ⟨?_, hErased⟩
  rw [HarqTable.erase, hp]
  apply if_pos
  rw [occupied_perm (walk.perm _)]
  exact hErased.used.symm

/-- A process that is not in use. -/
def Free (t : HarqTable) (id : UInt8) : Prop :=
  ∃ p, t.processes id = some p ∧ p.active = false

theorem WellFormed.canInsert_iff (h : WellFormed size t) :
    t.CanInsert ↔ ∃ id, id < t.maxSize ∧ t.Free id := by
  rw [CanInsert, UInt8.lt_iff_toNat_lt, h.used, ← length_harqIds t.maxSize, activeSize,
    occupied_lt_iff]
  constructor
  · rintro ⟨id, hMem, hFree⟩
    have hLt := mem_harqIds.mp hMem
    obtain ⟨p, hp⟩ := Option.isSome_iff_exists.mp ((h.keys id).mpr hLt)
    rw [hp] at hFree
    exact ⟨id, hLt, p, hp, hFree⟩
  · rintro ⟨id, hLt, p, hp, hFree⟩
    exact ⟨id, mem_harqIds.mpr hLt, by rw [hp]; exact hFree⟩

/-- An insertion with room writes the element to a free process. -/
structure Inserts (t : HarqTable) (element : HarqProcess) (id : UInt8) (t' : HarqTable) : Prop where
  room : t.CanInsert
  free : t.Free id
  eq : t' = { t.put id element with usedSize := t.usedSize + 1 }

theorem Inserts.processes {element : HarqProcess} (h : Inserts t element id t') :
    t'.processes = Function.update t.processes id (some element) := by
  rw [h.eq]
  rfl

theorem WellFormed.insert (walk : WalkOrder) (h : WellFormed size t) (hRoom : t.CanInsert)
    {element : HarqProcess} (hActive : element.active = true) :
    ∃ id t', t.insert walk element = some (some id, t') ∧ Inserts t element id t' := by
  obtain ⟨free, hLt, q, hq, hFree⟩ := h.canInsert_iff.mp hRoom
  have hFind : (firstAvailableId (walk.ids t.maxSize) t.processes).isSome := by
    apply List.find?_isSome.mpr
    refine ⟨free, (walk.perm _).mem_iff.mpr (mem_harqIds.mpr hLt), ?_⟩
    rw [hq, Option.any_some, hFree]
    rfl
  obtain ⟨id, hFirst⟩ := Option.isSome_iff_exists.mp hFind
  have hAvail := List.find?_some hFirst
  have hMem := List.mem_of_find?_eq_some hFirst
  have hId : id < t.maxSize := mem_harqIds.mp ((walk.perm _).mem_iff.mp hMem)
  obtain ⟨p, hp⟩ := Option.isSome_iff_exists.mp ((h.keys id).mpr hId)
  rw [hp, Option.any_some, Bool.not_eq_true'] at hAvail
  have hSame : ¬ firstAvailableId (walk.ids t.maxSize) (t.put id element).processes = some id := by
    intro hAgain
    have hFound := List.find?_some hAgain
    simp [hActive] at hFound
  refine ⟨id, { t.put id element with usedSize := t.usedSize + 1 }, ?_, hRoom, ⟨p, hp, hAvail⟩, rfl⟩
  rw [HarqTable.insert, if_neg (not_not.mpr hRoom), if_neg (by rw [hActive]; exact Bool.noConfusion),
    hFirst]
  dsimp only
  rw [hp, Option.any_some, if_neg (by rw [hAvail]; exact Bool.false_ne_true), if_neg hSame]

theorem WellFormed.of_inserts (h : WellFormed size t) {element : HarqProcess}
    (hInserts : Inserts t element id t') (hActive : element.active = true)
    (hStatus : element.status ≠ .inactive) (hTimer : element.timer ≤ size) :
    WellFormed size t' := by
  obtain ⟨p, hp, hFree⟩ := hInserts.free
  have hUsed : (t.usedSize + 1).toNat = t.usedSize.toNat + 1 := by
    have hLt := UInt8.lt_iff_toNat_lt.mp hInserts.room
    have hMax := t.maxSize.toNat_lt
    rw [UInt8.toNat_add, UInt8.toNat_one, Nat.mod_eq_of_lt (by omega)]
  rw [hInserts.eq]
  apply h.put hp ⟨fun _ => hStatus, fun _ => hActive⟩ hTimer
  rw [hFree, hActive, hUsed]
  rfl

/-- One process of `ResetExpiredHARQ`; it does not abort. -/
theorem resetProcess_sweeps (walk : WalkOrder) :
    Sweeps (resetProcess walk size) HarqTable.processes (HarqProcess.aged size)
      (WellFormed size) := by
  intro t id p h hp
  have hPaired := h.paired id p hp
  rw [resetProcess, hp, Option.bind_eq_bind, Option.bind_some, HarqProcess.aged]
  by_cases hStatus : p.status = .inactive
  · rw [if_pos hStatus, if_pos hStatus]
    exact ⟨t, rfl, h, by rw [← hp, Function.update_eq_self]⟩
  · rw [if_neg hStatus, if_neg hStatus]
    have hActive : p.active = true := hPaired.mpr hStatus
    by_cases hTimer : p.timer < size
    · rw [if_pos hTimer, if_pos hTimer]
      refine ⟨_, rfl, h.put_same hp hPaired ?_ rfl, rfl⟩
      rw [UInt8.le_iff_toNat_le]
      have hLt := UInt8.lt_iff_toNat_lt.mp hTimer
      have hMax := size.toNat_lt
      rw [UInt8.toNat_add, UInt8.toNat_one, Nat.mod_eq_of_lt (by omega)]
      exact hLt
    · rw [if_neg hTimer, if_neg hTimer]
      obtain ⟨hErase, hErased⟩ := h.erase walk hp hActive
      exact ⟨_, hErase, hErased, rfl⟩

theorem WellFormed.resetExpired (walk : WalkOrder) (h : WellFormed size t) :
    ∃ t', t.resetExpiredHARQ walk size = some t' ∧ WellFormed size t' ∧
      ∀ id, t'.processes id = (t.processes id).map (HarqProcess.aged size) := by
  have hPerm := walk.perm t.maxSize
  obtain ⟨t', hRun, hForm, hAged⟩ := (resetProcess_sweeps walk).run h
    (hPerm.nodup_iff.mpr harqIds_nodup) fun id hMem =>
      (h.keys id).mpr (mem_harqIds.mp (hPerm.mem_iff.mp hMem))
  refine ⟨t', hRun, hForm, fun id => ?_⟩
  rw [hAged]
  split
  · rfl
  · next hMem =>
    have hNone : t.processes id = none := by
      rw [← Option.not_isSome_iff_eq_none, h.keys id, ← mem_harqIds, ← hPerm.mem_iff]
      exact hMem
    rw [hNone]
    rfl

end HarqTable
end Bullet.Mac
