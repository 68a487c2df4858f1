import Bullet.Lib.FirstOfEach
import Bullet.Mac.HarqRuns

/-! # Repeated feedbacks

Two feedbacks of one trigger may be for the same process. The DL trigger keeps the first of them. The
UL trigger processes both.
-/

namespace Bullet.Mac

open Lib.FirstOfEach Lib.PartialRun

variable {cfg : HarqConfig} {s s' : HarqScheduler} {tables tables' other other' : HarqTables}
  {seen : List HarqKey} {f : HarqFeedback} {l fs : List HarqFeedback} {key : HarqKey}

/-- The first feedback of each process. -/
def firstFeedbacks (fs : List HarqFeedback) : List HarqFeedback :=
  firsts HarqFeedback.key [] fs

/-- What a feedback does to its process; `false` says that the feedback is erased. -/
def HarqProcess.fedBack (cfg : HarqConfig) (f : HarqFeedback) (p : HarqProcess) :
    Option (Bool × HarqProcess) :=
  if p.active = false then none
  else do
    let dci ← p.dciElement
    let rv ← dci.rv.max?
    let ok ← f.receivedOk
    if 4 ≤ rv then none
    else if ok ∨ rv = cfg.maxHarqReTx then some (false, p.erased)
    else some (true, p.nacked f.nackStreamIndexes)

theorem HarqProcess.active_of_fedBack {p q : HarqProcess} {kept : Bool}
    (h : p.fedBack cfg f = some (kept, q)) : p.active = true ∧ q.active = kept := by
  rw [fedBack] at h
  split at h
  · cases h
  · next hFlag =>
    have hActive : p.active = true := Bool.eq_true_of_not_eq_false hFlag
    obtain ⟨dci, -, h⟩ := Option.bind_eq_some_iff.mp h
    obtain ⟨rv, -, h⟩ := Option.bind_eq_some_iff.mp h
    obtain ⟨ok, -, h⟩ := Option.bind_eq_some_iff.mp h
    split at h
    · cases h
    · split at h
      · cases h
        exact ⟨hActive, rfl⟩
      · cases h
        exact ⟨hActive, hActive⟩

namespace HarqTables

def active (tables : HarqTables) (key : HarqKey) : Bool :=
  (tables.process key).any (·.active)

def activeFeedbacks (tables : HarqTables) (fs : List HarqFeedback) : List HarqFeedback :=
  fs.filter fun f => tables.active f.key

/-! ## The feedbacks that are left -/

theorem pendingFeedbacks_skip {p : HarqProcess} (hp : tables.process f.key = some p)
    (h : p.active = false ∨ (cfg.direction = .dl ∧ f.key ∈ seen)) :
    pendingFeedbacks cfg tables seen (f :: l) = pendingFeedbacks cfg tables seen l := by
  rw [pendingFeedbacks, hp, Option.bind_eq_bind, Option.bind_some, if_pos h]

theorem pendingFeedbacks_keep {p : HarqProcess} (hp : tables.process f.key = some p)
    (h : ¬ (p.active = false ∨ (cfg.direction = .dl ∧ f.key ∈ seen))) :
    pendingFeedbacks cfg tables seen (f :: l) =
      (pendingFeedbacks cfg tables (f.key :: seen) l).map (f :: ·) := by
  rw [pendingFeedbacks, hp, Option.bind_eq_bind, Option.bind_some, if_neg h, Option.map_eq_bind]
  rfl

theorem activeFeedbacks_cons {p : HarqProcess} (hp : tables.process f.key = some p) :
    tables.activeFeedbacks (f :: l) =
      if p.active = true then f :: tables.activeFeedbacks l else tables.activeFeedbacks l := by
  rw [activeFeedbacks, List.filter_cons, active, hp, Option.any_some]
  rfl

/-- A feedback for a process that does not exist is a null access. -/
theorem known_of_pendingFeedbacks {pending : List HarqFeedback}
    (h : pendingFeedbacks cfg tables seen l = some pending) {f : HarqFeedback} (hMem : f ∈ l) :
    ∃ p, tables.process f.key = some p := by
  induction l generalizing seen pending with
  | nil => cases hMem
  | cons g l ih =>
    obtain ⟨p, hp, h⟩ := Option.bind_eq_some_iff.mp h
    rcases List.mem_cons.mp hMem with rfl | hMem
    · exact ⟨p, hp⟩
    · split at h
      · exact ih h hMem
      · obtain ⟨rest, hRest, -⟩ := Option.bind_eq_some_iff.mp h
        exact ih hRest hMem

theorem pendingFeedbacks_ul (hUl : cfg.direction = .ul)
    (hKnown : ∀ f ∈ l, ∃ p, tables.process f.key = some p) :
    pendingFeedbacks cfg tables seen l = some (tables.activeFeedbacks l) := by
  have hNotDl : ¬ cfg.direction = .dl := by
    rw [hUl]
    exact DciFormat.noConfusion
  induction l generalizing seen with
  | nil => rfl
  | cons f l ih =>
    obtain ⟨⟨p, hp⟩, hKnown⟩ := List.forall_mem_cons.mp hKnown
    rw [activeFeedbacks_cons hp]
    split
    · next hActive =>
      rw [pendingFeedbacks_keep hp, ih hKnown, Option.map_some]
      rintro (hFlag | ⟨hDl, -⟩)
      · exact Bool.false_ne_true (hFlag.symm.trans hActive)
      · exact hNotDl hDl
    · next hFlag =>
      rw [pendingFeedbacks_skip hp (Or.inl (Bool.eq_false_of_not_eq_true hFlag)), ih hKnown]

theorem pendingFeedbacks_dl (hDl : cfg.direction = .dl)
    (hKnown : ∀ f ∈ l, ∃ p, tables.process f.key = some p) :
    pendingFeedbacks cfg tables seen l =
      some (firsts HarqFeedback.key seen (tables.activeFeedbacks l)) := by
  induction l generalizing seen with
  | nil => rfl
  | cons f l ih =>
    obtain ⟨⟨p, hp⟩, hKnown⟩ := List.forall_mem_cons.mp hKnown
    rw [activeFeedbacks_cons hp]
    split
    · next hActive =>
      rcases Decidable.em (f.key ∈ seen) with hSeen | hNew
      · rw [pendingFeedbacks_skip hp (Or.inr ⟨hDl, hSeen⟩), ih hKnown, firsts_cons_of_mem hSeen]
      · rw [pendingFeedbacks_keep hp, ih hKnown, firsts_cons_of_notMem hNew, Option.map_some]
        rintro (hFlag | ⟨-, hSeen⟩)
        · exact Bool.false_ne_true (hFlag.symm.trans hActive)
        · exact hNew hSeen
    · next hFlag =>
      rw [pendingFeedbacks_skip hp (Or.inl (Bool.eq_false_of_not_eq_true hFlag)), ih hKnown]

/-- The first feedbacks name the processes that all of them name. -/
theorem known_firstFeedbacks :
    (∀ f ∈ firstFeedbacks fs, ∃ p, tables.process f.key = some p) ↔
      ∀ f ∈ fs, ∃ p, tables.process f.key = some p := by
  have hKeys : ∀ l : List HarqFeedback, (∀ f ∈ l, ∃ p, tables.process f.key = some p) ↔
      ∀ key ∈ l.map HarqFeedback.key, ∃ p, tables.process key = some p := by
    intro l
    rw [List.forall_mem_map]
  rw [hKeys, hKeys]
  simp only [firstFeedbacks, mem_map_firsts, List.not_mem_nil, not_false_eq_true, and_true]

theorem activeFeedbacks_firstFeedbacks :
    tables.activeFeedbacks (firstFeedbacks fs) = firstFeedbacks (tables.activeFeedbacks fs) :=
  (firsts_filter _).symm

theorem firsts_firstFeedbacks :
    firsts HarqFeedback.key [] (firstFeedbacks fs) = firstFeedbacks fs :=
  firsts_firsts

/-! ## Processing them -/

theorem processFeedback_eq_none (h : tables.process f.key = none) :
    processFeedback cfg tables f = none := by
  rw [process] at h
  rw [processFeedback]
  cases hLookup : tables.lookup f.key.rnti with
  | none => rfl
  | some t =>
    rw [hLookup, Option.bind_some] at h
    rw [Option.bind_eq_bind, Option.bind_some, h]
    rfl

/-- A feedback acts on its process and on nothing else. -/
theorem processFeedback_acts {p : HarqProcess} (hSound : Sound cfg tables)
    (hp : tables.process f.key = some p) :
    (p.fedBack cfg f = none ∧ processFeedback cfg tables f = none) ∨
      ∃ kept q tables', p.fedBack cfg f = some (kept, q) ∧
        processFeedback cfg tables f = some (kept, tables') ∧ Sound cfg tables' ∧
        tables'.process f.key = some q ∧
        ∀ key ≠ f.key, tables'.process key = tables.process key := by
  obtain ⟨t, hLookup, hProcess⟩ := process_eq_some.mp hp
  rw [processFeedback, hLookup, Option.bind_eq_bind, Option.bind_some, hProcess, Option.bind_eq_bind,
    Option.bind_some, HarqProcess.fedBack]
  cases hActive : p.active with
  | false => exact Or.inl ⟨rfl, rfl⟩
  | true =>
    cases p.dciElement with
    | none => exact Or.inl ⟨rfl, rfl⟩
    | some dci =>
      simp only [Bool.true_eq_false, if_false, Option.bind_eq_bind, Option.bind_some]
      cases dci.rv.max? with
      | none => exact Or.inl ⟨rfl, rfl⟩
      | some rv =>
        simp only [Option.bind_some]
        cases f.receivedOk with
        | none => exact Or.inl ⟨rfl, rfl⟩
        | some ok =>
          simp only [Option.bind_some]
          split
          · exact Or.inl ⟨rfl, rfl⟩
          · split
            · obtain ⟨hErase, hErased⟩ := (hSound _ t hLookup).erase cfg.walk hProcess hActive
              rw [hErase]
              refine Or.inr ⟨_, _, _, rfl, rfl, hSound.insert hErased, ?_, ?_⟩
              · exact process_eq_some.mpr ⟨_, AList.lookup_insert _, Function.update_self ..⟩
              · intro key hNe
                exact process_insert_of_ne hNe hLookup fun id hId => Function.update_of_ne hId _ _
            · have hForm := hSound _ t hLookup
              refine Or.inr ⟨_, _, _, rfl, rfl, hSound.insert (hForm.put_same hProcess ?_
                (hForm.timer _ p hProcess) rfl), process_insert_put _ _ _ _, ?_⟩
              · exact ⟨fun _ => HarqStatus.noConfusion, fun _ => hActive⟩
              · intro key hNe
                exact process_insert_of_ne hNe hLookup fun id hId => Function.update_of_ne hId _ _

theorem active_of_processFeedback {kept : Bool} (hSound : Sound cfg tables)
    (h : processFeedback cfg tables f = some (kept, tables')) :
    tables.active f.key = true ∧ tables'.active f.key = kept := by
  cases hp : tables.process f.key with
  | none =>
    rw [processFeedback_eq_none hp] at h
    cases h
  | some p =>
    rcases processFeedback_acts hSound hp with ⟨-, hNone⟩ | ⟨_, q, _, hActs, hEq, -, hq, -⟩
    · rw [hNone] at h
      cases h
    · rw [hEq] at h
      cases h
      rw [active, active, hp, hq, Option.any_some, Option.any_some]
      exact HarqProcess.active_of_fedBack hActs

/-- A feedback for a process that is not active is fatal, so a process that was erased stays so. -/
theorem inactive_after {nacked : List HarqKey} (hSound : Sound cfg tables)
    (hInactive : tables.active key = false)
    (h : processHARQFeedbacks cfg tables l = some (tables', nacked)) :
    tables'.active key = false := by
  induction l generalizing tables tables' nacked with
  | nil =>
    cases h
    exact hInactive
  | cons f l ih =>
    obtain ⟨⟨kept, next⟩, hFirst, h⟩ := Option.bind_eq_some_iff.mp h
    obtain ⟨⟨last, keys⟩, hRest, h⟩ := Option.bind_eq_some_iff.mp h
    cases h
    obtain ⟨hSoundNext, hOther⟩ := processFeedback_spec hSound hFirst
    have hNe : key ≠ f.key := by
      rintro rfl
      rw [(active_of_processFeedback hSound hFirst).1] at hInactive
      cases hInactive
    refine ih hSoundNext ?_ hRest
    rw [active, hOther key hNe]
    exact hInactive

/-- If all feedbacks lead to what the first ones lead to, then no process is named twice. -/
theorem distinct_of_processHARQFeedbacks {nacked : List HarqKey} (hSound : Sound cfg tables)
    (hFirsts : processHARQFeedbacks cfg tables (firsts HarqFeedback.key seen l) =
      some (tables', nacked))
    (hAll : processHARQFeedbacks cfg tables l = some (tables', nacked)) :
    (l.map HarqFeedback.key).Nodup ∧ ∀ key ∈ seen, key ∉ l.map HarqFeedback.key := by
  induction l generalizing tables tables' nacked seen with
  | nil => exact ⟨List.nodup_nil, fun key _ => List.not_mem_nil⟩
  | cons f l ih =>
    obtain ⟨⟨kept, next⟩, hFirst, hAll⟩ := Option.bind_eq_some_iff.mp hAll
    obtain ⟨⟨last, keys⟩, hRest, hAll⟩ := Option.bind_eq_some_iff.mp hAll
    obtain ⟨hActive, hKept⟩ := active_of_processFeedback hSound hFirst
    have hSoundNext := (processFeedback_spec hSound hFirst).1
    rcases Decidable.em (f.key ∈ seen) with hSeen | hNew
    · -- The process of a repeated feedback is left alone by the first ones.
      rw [firsts_cons_of_mem hSeen] at hFirsts
      have hNot : f.key ∉ (firsts HarqFeedback.key seen l).map HarqFeedback.key :=
        fun hMem => (mem_map_firsts.mp hMem).2 hSeen
      obtain ⟨hSame, hUnNacked⟩ := (processHARQFeedbacks_spec hSound hFirsts).2 f.key hNot
      cases hAll
      cases kept with
      | true => exact absurd List.mem_cons_self hUnNacked
      | false =>
        have hInactive := inactive_after hSoundNext hKept hRest
        rw [active, hSame] at hInactive
        exact absurd (hInactive.symm.trans hActive) Bool.false_ne_true
    · rw [firsts_cons_of_notMem hNew] at hFirsts
      obtain ⟨⟨kept', next'⟩, hFirst', hFirsts⟩ := Option.bind_eq_some_iff.mp hFirsts
      obtain ⟨⟨last', keys'⟩, hRest', hEnd⟩ := Option.bind_eq_some_iff.mp hFirsts
      rw [hFirst] at hFirst'
      cases hFirst'
      have hSameKeys : last' = last ∧ keys' = keys := by
        cases kept with
        | true =>
          cases hAll
          cases hEnd
          exact ⟨rfl, rfl⟩
        | false =>
          cases hAll
          cases hEnd
          exact ⟨rfl, rfl⟩
      obtain ⟨rfl, rfl⟩ := hSameKeys
      obtain ⟨hNodup, hDisjoint⟩ := ih hSoundNext hRest' hRest
      rw [List.map_cons]
      refine ⟨List.nodup_cons.mpr ⟨hDisjoint _ List.mem_cons_self, hNodup⟩, fun key hk hMem => ?_⟩
      rcases List.mem_cons.mp hMem with rfl | hMem
      · exact hNew hk
      · exact hDisjoint key (List.mem_cons_of_mem _ hk) hMem

theorem processHARQFeedbacks_cons_eq_none {kept : Bool} {next : HarqTables}
    (h : processFeedback cfg tables f = some (kept, next)) :
    processHARQFeedbacks cfg tables (f :: l) = none ↔ processHARQFeedbacks cfg next l = none := by
  rw [processHARQFeedbacks, h, Option.bind_eq_bind, Option.bind_some]
  dsimp only
  cases processHARQFeedbacks cfg next l with
  | none => exact iff_of_true rfl rfl
  | some r => exact iff_of_false (Option.some_ne_none _) (Option.some_ne_none _)

theorem processHARQFeedbacks_cons_of_none (h : processFeedback cfg tables f = none) :
    processHARQFeedbacks cfg tables (f :: l) = none := by
  rw [processHARQFeedbacks, h]
  rfl

/-- Where the first feedbacks abort, all of them do. -/
theorem processHARQFeedbacks_eq_none (hSound : Sound cfg tables) (hSound' : Sound cfg other)
    (hSame : ∀ key ∉ seen, other.process key = tables.process key)
    (hFirsts : processHARQFeedbacks cfg tables (firsts HarqFeedback.key seen l) = none) :
    processHARQFeedbacks cfg other l = none := by
  induction l generalizing tables other seen with
  | nil => cases hFirsts
  | cons f l ih =>
    cases hOther : processFeedback cfg other f with
    | none => exact processHARQFeedbacks_cons_of_none hOther
    | some r =>
      obtain ⟨kept, other'⟩ := r
      obtain ⟨hSoundOther, hFrame⟩ := processFeedback_spec hSound' hOther
      rw [processHARQFeedbacks_cons_eq_none hOther]
      rcases Decidable.em (f.key ∈ seen) with hSeen | hNew
      · rw [firsts_cons_of_mem hSeen] at hFirsts
        refine ih hSound hSoundOther (fun key hNot => ?_) hFirsts
        rw [hFrame key fun hEq => hNot (hEq ▸ hSeen), hSame key hNot]
      · rw [firsts_cons_of_notMem hNew] at hFirsts
        cases hp : tables.process f.key with
        | none =>
          rw [processFeedback_eq_none ((hSame f.key hNew).trans hp)] at hOther
          cases hOther
        | some p =>
          rcases processFeedback_acts hSound' ((hSame f.key hNew).trans hp) with
            ⟨-, hNone⟩ | ⟨kept₁, q, _, hActs, hEq, -, hq, -⟩
          · rw [hNone] at hOther
            cases hOther
          · rw [hOther] at hEq
            cases hEq
            rcases processFeedback_acts hSound hp with
              ⟨hNone, -⟩ | ⟨kept₂, q', tables', hActs', hEq', hSoundNext, hq', hFrame'⟩
            · rw [hNone] at hActs
              cases hActs
            · rw [hActs'] at hActs
              cases hActs
              rw [processHARQFeedbacks_cons_eq_none hEq'] at hFirsts
              refine ih hSoundNext hSoundOther (fun key hNot => ?_) hFirsts
              obtain ⟨hNe, hNot⟩ := not_or.mp (mt List.mem_cons.mpr hNot)
              rw [hFrame key hNe, hFrame' key hNe, hSame key hNot]

end HarqTables

namespace HarqScheduler

open HarqTables

/-- The feedbacks of a list whose process is active after the resets of a trigger. -/
def activeFeedbacks (cfg : HarqConfig) (s : HarqScheduler) (fs : List HarqFeedback) :
    List HarqFeedback :=
  match run (resetUe cfg) s.tables s.tables.keys with
  | none => []
  | some tables => tables.activeFeedbacks fs

theorem sound_of_run {before : List HarqEvent} (hRun : run (step cfg) {} before = some s) :
    Sound cfg s.tables := by
  apply @invariant_of_step _ _ _ _ _ (fun s => Sound cfg s.tables) _ _ _ hRun
  · intro _ _ _ hInv hStep
    exact step_sound hInv hStep
  · intro rnti t hLookup
    cases hLookup

theorem trigger_of_pending (hReset : run (resetUe cfg) s.tables s.tables.keys = some tables)
    {pending : List HarqFeedback} (h : tables.pendingFeedbacks cfg [] fs = some pending) :
    s.trigger cfg fs =
      (tables.processHARQFeedbacks cfg pending).map fun (tables, nacked) => ⟨tables, nacked⟩ := by
  rw [trigger, hReset, Option.bind_eq_bind, Option.bind_some, h, Option.map_eq_bind]
  rfl

theorem trigger_of_unknown (hReset : run (resetUe cfg) s.tables s.tables.keys = some tables)
    (h : ¬ ∀ f ∈ fs, ∃ p, tables.process f.key = some p) : s.trigger cfg fs = none := by
  rw [trigger, hReset, Option.bind_eq_bind, Option.bind_some]
  cases hPending : tables.pendingFeedbacks cfg [] fs with
  | none => rfl
  | some pending => exact absurd (fun f hMem => known_of_pendingFeedbacks hPending hMem) h

/-- The DL trigger acts on the first feedbacks only. -/
theorem trigger_dl (hDl : cfg.direction = .dl) (fs : List HarqFeedback) :
    s.trigger cfg fs = s.trigger cfg (firstFeedbacks fs) := by
  cases hReset : run (resetUe cfg) s.tables s.tables.keys with
  | none =>
    rw [trigger, trigger, hReset]
    rfl
  | some tables =>
    by_cases hKnown : ∀ f ∈ fs, ∃ p, tables.process f.key = some p
    · have hFirsts := @pendingFeedbacks_dl _ _ [] _ hDl (known_firstFeedbacks.mpr hKnown)
      rw [activeFeedbacks_firstFeedbacks, firsts_firstFeedbacks] at hFirsts
      rw [trigger_of_pending hReset (pendingFeedbacks_dl hDl hKnown),
        trigger_of_pending hReset hFirsts]
      rfl
    · rw [trigger_of_unknown hReset hKnown,
        trigger_of_unknown hReset (mt known_firstFeedbacks.mp hKnown)]

/-- One user with one UL transmission that was NACKed and buffered. -/
def bufferedNack : List HarqEvent :=
  [.configUe 1, .newData 1 { rnti := 1, format := .ul, rv := [0] } [],
    .trigger [⟨⟨1, 0⟩, some false, [0]⟩], .buffer ⟨1, 0⟩]

end HarqScheduler
end Bullet.Mac
