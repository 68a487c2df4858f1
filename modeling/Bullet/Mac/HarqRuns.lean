import Bullet.Mac.DlHarqBeam
import Bullet.Mac.HarqTableSound
import Bullet.Mac.UlHarqKept

/-! # Runs of the scheduler on the HARQ process tables

Every event of the scheduler keeps the tables well formed. Between two feedbacks or retransmissions
of a process its timer counts the resets.
-/

namespace Bullet.Mac

open Lib.PartialRun Lib.Occupancy

variable {cfg : HarqConfig} {s s' u : HarqScheduler} {tables tables' : HarqTables}
  {rnti : UInt16} {key : HarqKey} {t : HarqTable} {p : HarqProcess}

namespace HarqTables

def Sound (cfg : HarqConfig) (tables : HarqTables) : Prop :=
  ∀ rnti t, tables.lookup rnti = some t → t.WellFormed cfg.numHarqProcess

theorem Sound.insert (h : Sound cfg tables) (hForm : t.WellFormed cfg.numHarqProcess) :
    Sound cfg (tables.insert rnti t) := by
  intro rnti' t' hLookup
  by_cases hEq : rnti' = rnti
  · subst hEq
    rw [AList.lookup_insert] at hLookup
    cases hLookup
    exact hForm
  · rw [AList.lookup_insert_ne hEq] at hLookup
    exact h rnti' t' hLookup

theorem process_eq_some :
    process tables key = some p ↔
      ∃ t, tables.lookup key.rnti = some t ∧ t.processes key.harqProcessId = some p :=
  Option.bind_eq_some_iff

/-- A table in which only one process changes leaves the other processes alone. -/
theorem process_insert_of_ne {key' : HarqKey} (hNe : key' ≠ key)
    (hOld : tables.lookup key.rnti = some t) {t' : HarqTable}
    (hSame : ∀ id ≠ key.harqProcessId, t'.processes id = t.processes id) :
    process (tables.insert key.rnti t') key' = process tables key' := by
  rw [process, process]
  by_cases hEq : key'.rnti = key.rnti
  · rw [hEq, AList.lookup_insert, hOld, Option.bind_some, Option.bind_some]
    apply hSame
    intro hId
    apply hNe
    cases key
    cases key'
    cases hEq
    cases hId
    rfl
  · rw [AList.lookup_insert_ne hEq]

theorem process_insert_put (tables : HarqTables) (key : HarqKey) (t : HarqTable) (p : HarqProcess) :
    process (tables.insert key.rnti (t.put key.harqProcessId p)) key = some p := by
  rw [process, AList.lookup_insert, Option.bind_some, HarqTable.put_processes, Function.update_self]

theorem resetUe_sweeps :
    Sweeps (resetUe cfg) (fun tables rnti => (tables.lookup rnti).map HarqTable.processes)
      (fun processes id => (processes id).map (HarqProcess.aged cfg.numHarqProcess))
      (Sound cfg) := by
  intro tables rnti processes hSound hView
  obtain ⟨t, hLookup, rfl⟩ := Option.map_eq_some_iff.mp hView
  obtain ⟨t', hReset, hForm, hAged⟩ := (hSound rnti t hLookup).resetExpired cfg.walk
  refine ⟨tables.insert rnti t', ?_, hSound.insert hForm, ?_⟩
  · rw [resetUe, hLookup, Option.bind_eq_bind, Option.bind_some, hReset]
    rfl
  · funext rnti'
    by_cases hEq : rnti' = rnti
    · subst hEq
      dsimp only
      rw [Function.update_self, AList.lookup_insert, Option.map_some, funext hAged]
    · dsimp only
      rw [Function.update_of_ne hEq, AList.lookup_insert_ne hEq]

/-- The resets at the start of a slot do not abort, and every process ages. -/
theorem Sound.resetAll (h : Sound cfg tables) :
    ∃ tables', run (resetUe cfg) tables tables.keys = some tables' ∧ Sound cfg tables' ∧
      ∀ key, process tables' key =
        (process tables key).map (HarqProcess.aged cfg.numHarqProcess) := by
  obtain ⟨tables', hRun, hSound, hView⟩ := resetUe_sweeps.run h tables.keys_nodup
    fun rnti hMem => by
      rw [Option.isSome_map, AList.lookup_isSome]
      exact hMem
  refine ⟨tables', hRun, hSound, fun key => ?_⟩
  have hProcess : ∀ tables : HarqTables, process tables key =
      ((tables.lookup key.rnti).map HarqTable.processes).bind (· key.harqProcessId) := by
    intro tables
    rw [process, Option.bind_map]
    rfl
  rw [hProcess, hProcess, hView key.rnti]
  split
  · cases tables.lookup key.rnti with
    | none => rfl
    | some t => rfl
  · next hMem =>
    rw [AList.lookup_eq_none.mpr hMem]
    rfl

theorem processFeedback_spec {f : HarqFeedback} {kept : Bool} (hSound : Sound cfg tables)
    (h : processFeedback cfg tables f = some (kept, tables')) :
    Sound cfg tables' ∧ ∀ key ≠ f.key, process tables' key = process tables key := by
  obtain ⟨t, hLookup, h⟩ := Option.bind_eq_some_iff.mp h
  obtain ⟨p, hp, h⟩ := Option.bind_eq_some_iff.mp h
  have hForm := hSound _ t hLookup
  split at h
  · cases h
  · next hFlag =>
    have hActive : p.active = true := by simpa using hFlag
    obtain ⟨dci, -, h⟩ := Option.bind_eq_some_iff.mp h
    obtain ⟨rv, -, h⟩ := Option.bind_eq_some_iff.mp h
    obtain ⟨ok, -, h⟩ := Option.bind_eq_some_iff.mp h
    split at h
    · cases h
    · split at h
      · obtain ⟨hErase, hErased⟩ := hForm.erase cfg.walk hp hActive
        rw [hErase, Option.bind_eq_bind, Option.bind_some] at h
        cases h
        refine ⟨hSound.insert hErased, fun key hNe => process_insert_of_ne hNe hLookup ?_⟩
        intro id hId
        exact Function.update_of_ne hId _ _
      · cases h
        refine ⟨hSound.insert (hForm.put_same hp ?_ (hForm.timer _ p hp) rfl), ?_⟩
        · exact ⟨fun _ => HarqStatus.noConfusion, fun _ => hActive⟩
        · intro key hNe
          exact process_insert_of_ne hNe hLookup fun id hId => Function.update_of_ne hId _ _

theorem processHARQFeedbacks_spec {l : List HarqFeedback} {nacked : List HarqKey}
    (hSound : Sound cfg tables)
    (h : processHARQFeedbacks cfg tables l = some (tables', nacked)) :
    Sound cfg tables' ∧ ∀ key ∉ l.map HarqFeedback.key,
      process tables' key = process tables key ∧ key ∉ nacked := by
  induction l generalizing tables tables' nacked with
  | nil =>
    cases h
    exact ⟨hSound, fun key _ => ⟨rfl, List.not_mem_nil⟩⟩
  | cons f l ih =>
    obtain ⟨⟨kept, next⟩, hFirst, h⟩ := Option.bind_eq_some_iff.mp h
    obtain ⟨⟨last, keys⟩, hRest, h⟩ := Option.bind_eq_some_iff.mp h
    obtain ⟨hSoundNext, hSame⟩ := processFeedback_spec hSound hFirst
    obtain ⟨hSoundLast, hOther⟩ := ih hSoundNext hRest
    cases h
    refine ⟨hSoundLast, fun key hNot => ?_⟩
    rw [List.map_cons, List.mem_cons, not_or] at hNot
    obtain ⟨hProcess, hKeys⟩ := hOther key hNot.2
    refine ⟨hProcess.trans (hSame key hNot.1), ?_⟩
    cases kept with
    | false => exact hKeys
    | true => exact fun hMem => (List.mem_cons.mp hMem).elim hNot.1 hKeys

theorem pendingFeedbacks_subset {seen : List HarqKey} {l pending : List HarqFeedback}
    (h : pendingFeedbacks cfg tables seen l = some pending) : pending ⊆ l := by
  induction l generalizing seen pending with
  | nil =>
    cases h
    exact List.Subset.refl _
  | cons f l ih =>
    obtain ⟨p, -, h⟩ := Option.bind_eq_some_iff.mp h
    split at h
    · exact List.Subset.trans (ih h) (List.subset_cons_self f l)
    · obtain ⟨rest, hRest, h⟩ := Option.bind_eq_some_iff.mp h
      cases h
      exact List.cons_subset_cons f (ih hRest)

end HarqTables

def HarqEvent.isTrigger : HarqEvent → Bool
  | .trigger _ => true
  | _ => false

/-- The event processes a feedback for the process or retransmits it. -/
def HarqEvent.Serves (key : HarqKey) : HarqEvent → Prop
  | .trigger feedbacks => key ∈ feedbacks.map HarqFeedback.key
  | .retransmit key' _ => key' = key
  | _ => False

instance (key : HarqKey) : DecidablePred (HarqEvent.Serves key)
  | .configUe _ | .releaseUe _ | .buffer _ | .newData _ _ _ => inferInstanceAs (Decidable False)
  | .trigger feedbacks => inferInstanceAs (Decidable (key ∈ feedbacks.map HarqFeedback.key))
  | .retransmit key' _ => inferInstanceAs (Decidable (key' = key))

namespace HarqScheduler

open HarqTables

def process (s : HarqScheduler) (key : HarqKey) : Option HarqProcess :=
  HarqTables.process s.tables key

def Active (s : HarqScheduler) (key : HarqKey) : Prop :=
  (s.process key).any (·.active) = true

theorem active_iff : s.Active key ↔ ∃ p, s.process key = some p ∧ p.active = true := by
  rw [Active]
  cases s.process key with
  | none => simp
  | some p => simp

theorem trigger_spec {feedbacks : List HarqFeedback} (hSound : Sound cfg s.tables)
    (h : s.trigger cfg feedbacks = some s') :
    Sound cfg s'.tables ∧ ∀ key ∉ feedbacks.map HarqFeedback.key,
      s'.process key = (s.process key).map (HarqProcess.aged cfg.numHarqProcess) ∧
        key ∉ s'.nacked := by
  obtain ⟨reset, hReset, hSoundReset, hAged⟩ := hSound.resetAll
  rw [trigger, hReset, Option.bind_eq_bind, Option.bind_some] at h
  obtain ⟨pending, hPending, h⟩ := Option.bind_eq_some_iff.mp h
  obtain ⟨⟨last, nacked⟩, hProcess, h⟩ := Option.bind_eq_some_iff.mp h
  cases h
  obtain ⟨hSoundLast, hOther⟩ := processHARQFeedbacks_spec hSoundReset hProcess
  refine ⟨hSoundLast, fun key hNot => ?_⟩
  obtain ⟨hSame, hNacked⟩ := hOther key fun hMem =>
    hNot (List.map_subset _ (pendingFeedbacks_subset hPending) hMem)
  exact ⟨hSame.trans (hAged key), hNacked⟩

theorem mark_spec {dci : Option DciInfoElementTdma} (hSound : Sound cfg s.tables)
    (h : s.mark key dci = some s') :
    Sound cfg s'.tables ∧ s'.nacked = s.nacked ∧ key ∈ s.nacked ∧
      (∃ p, s.process key = some p ∧ p.status = .receivedFeedback ∧
        s'.process key = some (p.marked dci)) ∧
      ∀ key' ≠ key, s'.process key' = s.process key' := by
  rw [mark] at h
  split at h
  · cases h
  · next hNacked =>
    obtain ⟨t, hLookup, h⟩ := Option.bind_eq_some_iff.mp h
    obtain ⟨p, hp, h⟩ := Option.bind_eq_some_iff.mp h
    split at h
    · cases h
    · next hStatus =>
      cases h
      rw [ne_eq, not_not] at hStatus
      have hForm := hSound _ t hLookup
      have hActive : p.active = true := by
        apply (hForm.paired _ p hp).mpr
        rw [hStatus]
        exact HarqStatus.noConfusion
      refine ⟨hSound.insert (hForm.put_same hp ?_ UInt8.zero_le rfl), rfl, not_not.mp hNacked,
        ⟨p, process_eq_some.mpr ⟨t, hLookup, hp⟩, hStatus, process_insert_put _ key t _⟩, ?_⟩
      · exact ⟨fun _ => HarqStatus.noConfusion, fun _ => hActive⟩
      · intro key' hNe
        exact process_insert_of_ne hNe hLookup fun id hId => Function.update_of_ne hId _ _

theorem newData_spec {dci : DciInfoElementTdma} {rlcPduInfo : List (List RlcPduInfo)}
    (hSound : Sound cfg s.tables) (h : s.newData cfg rnti dci rlcPduInfo = some s') :
    Sound cfg s'.tables ∧ s'.nacked = s.nacked ∧
      ∃ id, ¬ s.Active ⟨rnti, id⟩ ∧ ∀ key ≠ ⟨rnti, id⟩, s'.process key = s.process key := by
  obtain ⟨t, hLookup, h⟩ := Option.bind_eq_some_iff.mp h
  have hForm := hSound rnti t hLookup
  split at h
  · cases h
  · next hRoom =>
    have hFlag : (HarqProcess.sent dci []).active = true := rfl
    obtain ⟨id, t', hInsert, hInserts⟩ := hForm.insert cfg.walk (not_not.mp hRoom) hFlag
    have hFormed := hForm.of_inserts hInserts hFlag HarqStatus.noConfusion UInt8.zero_le
    rw [hInsert, Option.bind_eq_bind, Option.bind_some] at h
    cases h
    have hNew : t'.processes id = some (.sent dci []) := by
      rw [hInserts.processes, Function.update_self]
    refine ⟨hSound.insert (hFormed.put_same hNew ?_ UInt8.zero_le rfl), rfl, id, ?_, ?_⟩
    · exact ⟨fun _ => HarqStatus.noConfusion, fun _ => rfl⟩
    · intro hActive
      obtain ⟨p, hp, hOld⟩ := active_iff.mp hActive
      obtain ⟨q, hq, hFree⟩ := hInserts.free
      obtain ⟨t'', hLookup', hp⟩ := process_eq_some.mp hp
      cases hLookup.symm.trans hLookup'
      cases hq.symm.trans hp
      rw [hFree] at hOld
      cases hOld
    · intro key hNe
      have hKey : key ≠ (⟨rnti, id⟩ : HarqKey) := hNe
      refine process_insert_of_ne hKey hLookup fun id' hId => ?_
      rw [HarqTable.put_processes, Function.update_of_ne hId, hInserts.processes,
        Function.update_of_ne hId]

theorem step_sound {e : HarqEvent} (hSound : Sound cfg s.tables) (h : step cfg s e = some s') :
    Sound cfg s'.tables := by
  cases e with
  | configUe rnti =>
    rw [step] at h
    split at h
    · cases h
      exact hSound
    · cases h
      exact hSound.insert HarqTable.create_wellFormed
  | releaseUe rnti =>
    rw [step] at h
    split at h
    · cases h
      intro rnti' t hLookup
      by_cases hEq : rnti' = rnti
      · rw [hEq, AList.lookup_erase] at hLookup
        cases hLookup
      · rw [AList.lookup_erase_ne hEq] at hLookup
        exact hSound rnti' t hLookup
    · cases h
  | trigger feedbacks => exact (trigger_spec hSound h).1
  | retransmit key dci => exact (mark_spec hSound h).1
  | buffer key => exact (mark_spec hSound h).1
  | newData rnti dci rlcPduInfo => exact (newData_spec hSound h).1

instance (s : HarqScheduler) (key : HarqKey) : Decidable (s.Active key) :=
  inferInstanceAs (Decidable (_ = true))

/-- What an event does to an active process that stays active and that it does not serve. A process
may still be buffered by the slot that took its feedback. -/
theorem step_timer {e : HarqEvent} {p : HarqProcess} (hSound : Sound cfg s.tables)
    (hp : s.process key = some p) (hOld : p.active = true) (h : step cfg s e = some s')
    (hActive : s'.Active key) (hServes : ¬ e.Serves key) :
    ∃ p', s'.process key = some p' ∧ p'.active = true ∧
      ((e.isTrigger = true ∧ key ∉ s'.nacked ∧ p'.timer.toNat = p.timer.toNat + 1) ∨
        (e.isTrigger = false ∧ s'.nacked = s.nacked ∧ (key ∉ s.nacked → p'.timer = p.timer))) := by
  obtain ⟨p', hp', hNew⟩ := active_iff.mp hActive
  refine ⟨p', hp', hNew, ?_⟩
  have hSame : s'.process key = s.process key → p'.timer = p.timer := by
    intro hEq
    rw [hEq, hp] at hp'
    cases hp'
    rfl
  obtain ⟨t, hLookup, -⟩ := process_eq_some.mp hp
  cases e with
  | configUe rnti =>
    refine Or.inr ⟨rfl, ?_⟩
    rw [step] at h
    split at h
    · cases h
      exact ⟨rfl, fun _ => hSame rfl⟩
    · next hNew =>
      cases h
      refine ⟨rfl, fun _ => hSame ?_⟩
      have hNe : key.rnti ≠ rnti := by
        rintro rfl
        exact hNew (AList.lookup_isSome.mp (by rw [hLookup]; rfl))
      rw [process, HarqTables.process, AList.lookup_insert_ne hNe]
      rfl
  | releaseUe rnti =>
    refine Or.inr ⟨rfl, ?_⟩
    rw [step] at h
    split at h
    · cases h
      refine ⟨rfl, fun _ => hSame ?_⟩
      have hNe : key.rnti ≠ rnti := by
        rintro rfl
        rw [process, HarqTables.process, AList.lookup_erase] at hp'
        cases hp'
      rw [process, HarqTables.process, AList.lookup_erase_ne hNe]
      rfl
    · cases h
  | trigger feedbacks =>
    obtain ⟨hAged, hNacked⟩ := (trigger_spec hSound h).2 key hServes
    refine Or.inl ⟨rfl, hNacked, ?_⟩
    rw [hp, Option.map_some, hp', Option.some.injEq, HarqProcess.aged] at hAged
    split at hAged
    · next hStatus =>
      obtain ⟨t, hLookup, hp⟩ := process_eq_some.mp hp
      exact absurd hStatus (((hSound _ t hLookup).paired _ p hp).mp hOld)
    · split at hAged
      · next hLt =>
        have hMax := cfg.numHarqProcess.toNat_lt
        have hLtNat := UInt8.lt_iff_toNat_lt.mp hLt
        rw [hAged, UInt8.toNat_add, UInt8.toNat_one, Nat.mod_eq_of_lt (by omega)]
      · rw [hAged] at hNew
        cases hNew
  | retransmit key' dci =>
    obtain ⟨-, hNacked, -, -, hOther⟩ := mark_spec hSound h
    exact Or.inr ⟨rfl, hNacked, fun _ => hSame (hOther key (Ne.symm hServes))⟩
  | buffer key' =>
    obtain ⟨-, hNacked, hMem, -, hOther⟩ := mark_spec hSound h
    refine Or.inr ⟨rfl, hNacked, fun hNot => hSame (hOther key ?_)⟩
    rintro rfl
    exact hNot hMem
  | newData rnti dci rlcPduInfo =>
    obtain ⟨-, hNacked, id, hFree, hOther⟩ := newData_spec hSound h
    refine Or.inr ⟨rfl, hNacked, fun _ => hSame (hOther key ?_)⟩
    rintro rfl
    exact hFree (active_iff.mpr ⟨p, hp, hOld⟩)

theorem active_of_stays {l : List HarqEvent}
    (hStays : StepsMeet (step cfg) (fun v _ => v.Active key) s l)
    (hRun : run (step cfg) s l = some u) (hLast : u.Active key) : s.Active key := by
  cases l with
  | nil =>
    cases hRun
    exact hLast
  | cons e l => exact hStays.1

/-- The timer bound, with the resets that the timer has already counted. -/
theorem resets_le {l : List HarqEvent} {p : HarqProcess} (hSound : Sound cfg s.tables)
    (hp : s.process key = some p) (hOld : p.active = true)
    (hRun : run (step cfg) s l = some u)
    (hStays : StepsMeet (step cfg) (fun v _ => v.Active key) s l) (hLast : u.Active key)
    (hServes : ∀ e ∈ l, ¬ e.Serves key) :
    l.countP HarqEvent.isTrigger + (if key ∈ s.nacked then 0 else p.timer.toNat) ≤
      cfg.numHarqProcess.toNat := by
  induction l generalizing s p with
  | nil =>
    obtain ⟨t, hLookup, hp⟩ := process_eq_some.mp hp
    have hTimer := UInt8.le_iff_toNat_le.mp ((hSound _ t hLookup).timer _ p hp)
    rw [List.countP_nil]
    split
    · exact Nat.zero_le _
    · rw [Nat.zero_add]
      exact hTimer
  | cons e l ih =>
    obtain ⟨s', hStep, hRest⟩ := Option.bind_eq_some_iff.mp hRun
    have hActive := active_of_stays (hStays.2 s' hStep) hRest hLast
    obtain ⟨p', hp', hNew, hCase⟩ :=
      step_timer hSound hp hOld hStep hActive (hServes e List.mem_cons_self)
    have hTail := ih (step_sound hSound hStep) hp' hNew hRest (hStays.2 s' hStep)
      fun e' hMem => hServes e' (List.mem_cons_of_mem e hMem)
    rw [List.countP_cons]
    obtain ⟨hTrigger, hNacked, hTimer⟩ | ⟨hTrigger, hNacked, hTimer⟩ := hCase
    · rw [if_neg hNacked] at hTail
      rw [if_pos hTrigger]
      split
      · omega
      · omega
    · rw [hNacked] at hTail
      rw [if_neg (by rw [hTrigger]; exact Bool.false_ne_true)]
      by_cases hMem : key ∈ s.nacked
      · rw [if_pos hMem] at hTail
        rw [if_pos hMem]
        exact hTail
      · rw [if_neg hMem, hTimer hMem] at hTail
        rw [if_neg hMem]
        exact hTail

/-- What the operations promise of a table with `size` processes. -/
structure TableSound (walk : WalkOrder) (size : UInt8) (t : HarqTable) : Prop where
  maxSize : t.maxSize = size
  usedSize : t.usedSize.toNat = t.activeSize
  active_iff : ∀ id p, t.processes id = some p → (p.active = true ↔ p.status ≠ .inactive)
  canInsert_iff : t.CanInsert ↔ ∃ id, id < size ∧ t.Free id
  insert : ∀ element : HarqProcess, element.active = true →
    ∃ id? t', t.insert walk element = some (id?, t') ∧ (id?.isSome ↔ t.CanInsert) ∧
      ∀ id, id? = some id → t.Free id ∧ t'.processes id = some element

theorem tableSound (walk : WalkOrder) {size : UInt8} (h : t.WellFormed size) :
    TableSound walk size t where
  maxSize := h.maxSize
  usedSize := h.used
  active_iff := h.paired
  canInsert_iff := by
    rw [h.canInsert_iff, h.maxSize]
  insert := by
    intro element hActive
    by_cases hRoom : t.CanInsert
    · obtain ⟨id, t', hInsert, hInserts⟩ := h.insert walk hRoom hActive
      refine ⟨some id, t', hInsert, ⟨fun _ => hRoom, fun _ => rfl⟩, fun id' hId => ?_⟩
      cases hId
      rw [hInserts.processes, Function.update_self]
      exact ⟨hInserts.free, rfl⟩
    · refine ⟨none, t, if_pos hRoom, ⟨fun h => (Bool.false_ne_true h).elim, fun h => (hRoom h).elim⟩,
        fun id h => by cases h⟩

/-- In every state of a run the tables are sound, and from there on no process stays active for more
resets than there are processes unless it is fed back or retransmitted. -/
theorem processTable_of_run (cfg : HarqConfig) (before : List HarqEvent)
    (hRun : run (step cfg) {} before = some s) :
    (∀ rnti t, s.tables.lookup rnti = some t → TableSound cfg.walk cfg.numHarqProcess t) ∧
      ∀ key after u, run (step cfg) s after = some u →
        StepsMeet (step cfg) (fun v _ => v.Active key) s after → u.Active key →
        (∀ e ∈ after, ¬ e.Serves key) →
        after.countP HarqEvent.isTrigger ≤ cfg.numHarqProcess.toNat := by
  have hSound : Sound cfg s.tables := by
    apply @invariant_of_step _ _ _ _ _ (fun s => Sound cfg s.tables) _ _ _ hRun
    · intro _ _ _ hInv hStep
      exact step_sound hInv hStep
    · intro rnti t hLookup
      cases hLookup
  refine ⟨fun rnti t hLookup => tableSound cfg.walk (hSound rnti t hLookup), ?_⟩
  intro key after u hAfter hStays hLast hServes
  obtain ⟨p, hp, hActive⟩ := active_iff.mp (active_of_stays hStays hAfter hLast)
  exact le_trans (Nat.le_add_right _ _) (resets_le hSound hp hActive hAfter hStays hLast hServes)

/-- A process of two is retransmitted after a NACK and survives two more resets. -/
theorem processTable_of_run_retransmitted :
    ∃ s u, run (step ⟨.dl, .increasing, 2, true⟩) {}
        [.configUe 1, .newData 1 { rnti := 1, rv := [0] } [], .trigger [⟨⟨1, 0⟩, some false, [0]⟩],
          .retransmit ⟨1, 0⟩ { rnti := 1, rv := [1] }] = some s ∧
      (∀ rnti t, s.tables.lookup rnti = some t → TableSound .increasing 2 t) ∧
      run (step ⟨.dl, .increasing, 2, true⟩) s [.trigger [], .trigger []] = some u ∧
      u.Active ⟨1, 0⟩ ∧
      [HarqEvent.trigger [], .trigger []].countP HarqEvent.isTrigger ≤ UInt8.toNat 2 := by
  obtain ⟨hTables, hTimer⟩ := processTable_of_run ⟨.dl, .increasing, 2, true⟩
    [.configUe 1, .newData 1 { rnti := 1, rv := [0] } [], .trigger [⟨⟨1, 0⟩, some false, [0]⟩],
      .retransmit ⟨1, 0⟩ { rnti := 1, rv := [1] }] rfl
  exact ⟨_, _, rfl, hTables, rfl, by decide,
    hTimer ⟨1, 0⟩ [.trigger [], .trigger []] _ rfl (by decide) (by decide) (by decide)⟩

end HarqScheduler

/-- Between the two maps the process of `key` was picked for a retransmission, and no other one. -/
def Marks (key : HarqKey) (old new : HarqKey → Option HarqProcess) : Prop :=
  (∃ p dci, old key = some p ∧ p.status = .receivedFeedback ∧ new key = some (p.marked dci)) ∧
    ∀ key' ≠ key, new key' = old key'

/-- A round of `ScheduleUlHarq` acts on the processes as `HarqScheduler.mark` does. -/
theorem ulStep_marks {bw : UInt16} {s s' : UlHarqState} {h : UlHarqInfo}
    (hStep : s.step bw h = some s') : Marks h.key s.ueMap.ulProcess s'.ueMap.ulProcess := by
  rw [UlHarqState.step] at hStep
  split at hStep
  · cases hStep
  · obtain ⟨ue, hUe, hStep⟩ := Option.bind_eq_some_iff.mp hStep
    obtain ⟨p, hp, hStep⟩ := Option.bind_eq_some_iff.mp hStep
    have hProcess : s.ueMap.ulProcess h.key = some p := Option.bind_eq_some_iff.mpr ⟨ue, hUe, hp⟩
    split at hStep
    · cases hStep
    · next hStatus =>
      obtain ⟨dci, hDci, hStep⟩ := Option.bind_eq_some_iff.mp hStep
      rw [ne_eq, not_not] at hStatus
      split at hStep
      · split at hStep
        · cases hStep
        · obtain ⟨rv, -, hStep⟩ := Option.bind_eq_some_iff.mp hStep
          cases hStep
          refine ⟨⟨p, some (s.retxDci h.harqProcessId dci rv), hProcess, hStatus, ?_⟩, ?_⟩
          · exact ulProcess_putUlHarq _ _ _ _
          · exact fun key' hNe => ulProcess_putUlHarq_of_ne _ hUe rfl hNe
      · cases hStep
        refine ⟨⟨p, none, hProcess, hStatus, ?_⟩, ?_⟩
        · exact ulProcess_putUlHarq _ _ _ _
        · exact fun key' hNe => ulProcess_putUlHarq_of_ne _ hUe rfl hNe

theorem dlProcess_putDlHarq_self {ueMap : UeMap} {p : HarqProcess} (q : HarqProcess)
    (hProcess : ueMap.dlProcess key = some p) :
    (ueMap.putDlHarq key q).dlProcess key = some q := by
  obtain ⟨ue, hUe, -⟩ := Option.bind_eq_some_iff.mp hProcess
  rw [UeMap.dlProcess, UeMap.putDlHarq, Function.update_self, hUe, Option.map_some,
    Option.bind_some]
  exact Function.update_self _ _ _

/-- A round of `ScheduleDlHarq` acts on the processes as `HarqScheduler.mark` does. -/
theorem dlStep_marks {bw : UInt16} {sym : UInt8} {feedback : List DlHarqInfo}
    {s s' : DlHarqState × List UInt16} (hStep : DlHarqState.step bw sym feedback s key = some s') :
    Marks key s.1.ueMap.dlProcess s'.1.ueMap.dlProcess := by
  obtain ⟨p, hProcess, hStep⟩ := Option.bind_eq_some_iff.mp hStep
  split at hStep
  · cases hStep
  · next hStatus =>
    obtain ⟨dci, -, hStep⟩ := Option.bind_eq_some_iff.mp hStep
    rw [ne_eq, not_not] at hStatus
    dsimp only at hStep
    split at hStep
    · obtain ⟨buffered, -, hStep⟩ := Option.bind_eq_some_iff.mp hStep
      cases hStep
      exact ⟨⟨p, none, hProcess, hStatus, dlProcess_putDlHarq_self _ hProcess⟩,
        fun key' hNe => dlProcess_putDlHarq _ hProcess hNe⟩
    · obtain ⟨t, hRetransmit, hStep⟩ := Option.bind_eq_some_iff.mp hStep
      cases hStep
      rw [DlHarqState.retransmit] at hRetransmit
      split at hRetransmit
      · cases hRetransmit
      · split at hRetransmit
        · cases hRetransmit
        · extract_lets units rbgAssigned at hRetransmit
          split at hRetransmit
          · cases hRetransmit
          · obtain ⟨ueMap, hSet, hRetransmit⟩ := Option.bind_eq_some_iff.mp hRetransmit
            cases hRetransmit
            refine ⟨⟨p, some (s.1.retxDci sym p.nackStreamIndexes dci rbgAssigned), hProcess, hStatus, ?_⟩, ?_⟩
            · exact (dlProcess_setDlMRBRetx hSet key).trans (dlProcess_putDlHarq_self _ hProcess)
            · exact fun key' hNe =>
                (dlProcess_setDlMRBRetx hSet key').trans (dlProcess_putDlHarq _ hProcess hNe)

end Bullet.Mac
