import Bullet.Lib.FairRounds

/-! # Members that are updated after the last pass over them

A round of a loop passes over the members that are covered, and updates some members if it finds one
that is not. What a pass settles may be undone by an update, so that the members that are updated and
not passed over again are left as the update made them.
-/

namespace Bullet.Lib.StaleMembers

open FairRounds

variable {σ ι β α : Type*} [DecidableEq ι]

/-- A loop of rounds: the members in the order of the pass, their values, and what the pass and the
update for the member that was found make of the state. -/
structure PassLoop (σ ι β α : Type*) [DecidableEq ι] where
  rules : Rules β α
  vector : σ → List (ι × β)
  values : σ → ι → α
  passed : σ → σ
  award : ι × β → σ → σ
  updates : ι × β → σ → List ι
  values_passed : ∀ s, values (passed s) = (passOver rules (values s) (vector s)).1

namespace PassLoop

variable (L : PassLoop σ ι β α)

def found (s : σ) : Option (ι × β) := (passOver L.rules (L.values s) (L.vector s)).2

/-- The members that the round passes over. -/
def passes (s : σ) : List ι :=
  ((L.vector s).takeWhile fun m => L.rules.covered m.2 (L.values s m.1)).map Prod.fst

def run : ℕ → σ → σ
  | 0, s => s
  | n + 1, s =>
    match L.found s with
    | none => L.passed s
    | some w => run n (L.award w (L.passed s))

/-- The members of `l`, and those that are updated, as far as they are not passed over afterwards. -/
def stale : ℕ → σ → List ι → List ι
  | 0, _, l => l
  | n + 1, s, l =>
    match L.found s with
    | none => l.filter (· ∉ L.passes s)
    | some w => stale n (L.award w (L.passed s)) (L.updates w s ++ l.filter (· ∉ L.passes s))

/-- The loop ends with a pass that finds nobody. -/
def Ends : ℕ → σ → Prop
  | 0, _ => False
  | n + 1, s =>
    match L.found s with
    | none => True
    | some w => Ends n (L.award w (L.passed s))

instance decidableEnds : (n : ℕ) → (s : σ) → Decidable (L.Ends n s)
  | 0, _ => isFalse id
  | n + 1, s =>
    match hFound : L.found s with
    | none => isTrue (by rw [Ends, hFound]; trivial)
    | some w =>
      have := decidableEnds n (L.award w (L.passed s))
      decidable_of_iff (L.Ends n (L.award w (L.passed s))) (by rw [Ends, hFound])

/-- What the passes and the updates make of the members. -/
structure Settles (members : List (ι × β)) (Valid : σ → Prop) (Settled : ι × β → α → Prop)
    (Updated : α → Prop) : Prop where
  perm : ∀ s, Valid s → (L.vector s).Perm members
  award : ∀ w s, Valid s → w ∈ members → Valid (L.award w (L.passed s))
  settled : ∀ m a, L.rules.covered m.2 a = true → Settled m (L.rules.trim m.2 a)
  updated : ∀ w s, Valid s → w ∈ members → ∀ m ∈ members, m.1 ∈ L.updates w s →
    Updated (L.values (L.award w (L.passed s)) m.1)
  kept : ∀ w s, Valid s → w ∈ members → ∀ m ∈ members, m.1 ∉ L.updates w s →
    L.values (L.award w (L.passed s)) m.1 = L.values (L.passed s) m.1

variable {L} {members : List (ι × β)} {Valid : σ → Prop} {Settled : ι × β → α → Prop}
  {Updated : α → Prop} {s : σ} {l : List ι}

/-- What the ledger says of the members. -/
structure Ledger (L : PassLoop σ ι β α) (members : List (ι × β)) (Settled : ι × β → α → Prop)
    (Updated : α → Prop) (l : List ι) (s : σ) : Prop where
  stale : ∀ m ∈ members, m.1 ∈ l → Updated (L.values s m.1)
  settled : ∀ m ∈ members, m.1 ∉ l → Settled m (L.values s m.1)

/-- A pass changes the values of the members that it passes over, and of no others. -/
theorem values_passed_spec (hKeys : (members.map Prod.fst).Nodup)
    (hPerm : (L.vector s).Perm members) :
    (∀ m ∈ members, m.1 ∈ L.passes s → L.rules.covered m.2 (L.values s m.1) = true ∧
      L.values (L.passed s) m.1 = L.rules.trim m.2 (L.values s m.1)) ∧
    (∀ m ∈ members, m.1 ∉ L.passes s → L.values (L.passed s) m.1 = L.values s m.1) ∧
    (L.found s = none → ∀ m ∈ members, m.1 ∈ L.passes s) := by
  have hKeys' : ((L.vector s).map Prod.fst).Nodup := (hPerm.map _).nodup_iff.mpr hKeys
  obtain ⟨before, after, hSplit, hHead, hUncovered, hBefore, hSame⟩ :=
    passOver_spec L.rules (L.values s) hKeys'
  have hPasses : L.passes s = before.map Prod.fst := by
    have hAfter : after.takeWhile (fun m => L.rules.covered m.2 (L.values s m.1)) = [] := by
      cases after with
      | nil => rfl
      | cons m after =>
        have hNot := hUncovered m rfl
        simp [hNot]
    rw [passes, hSplit, List.takeWhile_append_of_pos fun m hM => (hBefore m hM).1, hAfter,
      List.append_nil]
  rw [hPasses, L.values_passed]
  refine ⟨fun m hM hIn => ?_, fun m _ hNot => hSame m.1 hNot, fun hNone m hM => ?_⟩
  · obtain ⟨m', hM', hEq⟩ := List.mem_map.mp hIn
    have hMem : m' ∈ members := hPerm.subset (hSplit ▸ List.mem_append_left after hM')
    cases List.inj_on_of_nodup_map hKeys hMem hM hEq
    exact hBefore m hM'
  · have hNone' : after = [] := List.head?_eq_none_iff.mp (hHead.symm.trans hNone)
    rw [hNone', List.append_nil] at hSplit
    exact List.mem_map_of_mem (hSplit ▸ hPerm.mem_iff.mpr hM)

theorem mem_of_found (hPerm : (L.vector s).Perm members) {w : ι × β} (h : L.found s = some w) :
    w ∈ members :=
  hPerm.subset (mem_of_passOver h)

/-- A pass settles whom it passes over. -/
theorem Ledger.passed (hSettles : L.Settles members Valid Settled Updated) (hValid : Valid s)
    (hKeys : (members.map Prod.fst).Nodup) (h : L.Ledger members Settled Updated l s) :
    L.Ledger members Settled Updated (l.filter (· ∉ L.passes s)) (L.passed s) := by
  obtain ⟨hPassed, hOthers, -⟩ := values_passed_spec hKeys (hSettles.perm s hValid)
  constructor
  · intro m hM hIn
    obtain ⟨hStale, hNot⟩ := List.mem_filter.mp hIn
    rw [hOthers m hM (of_decide_eq_true hNot)]
    exact h.stale m hM hStale
  · intro m hM hNot
    by_cases hPass : m.1 ∈ L.passes s
    · obtain ⟨hCovered, hTrim⟩ := hPassed m hM hPass
      rw [hTrim]
      exact hSettles.settled m _ hCovered
    · rw [hOthers m hM hPass]
      refine h.settled m hM fun hStale => hNot ?_
      exact List.mem_filter.mpr ⟨hStale, decide_eq_true hPass⟩

/-- An update makes members stale. -/
theorem Ledger.award (hSettles : L.Settles members Valid Settled Updated) (hValid : Valid s)
    {w : ι × β} (hW : w ∈ members) (h : L.Ledger members Settled Updated l (L.passed s)) :
    L.Ledger members Settled Updated (L.updates w s ++ l) (L.award w (L.passed s)) := by
  constructor
  · intro m hM hIn
    by_cases hUpdated : m.1 ∈ L.updates w s
    · exact hSettles.updated w s hValid hW m hM hUpdated
    · rw [hSettles.kept w s hValid hW m hM hUpdated]
      exact h.stale m hM ((List.mem_append.mp hIn).resolve_left hUpdated)
  · intro m hM hNot
    rw [List.mem_append, not_or] at hNot
    rw [hSettles.kept w s hValid hW m hM hNot.1]
    exact h.settled m hM hNot.2

/-- When the loop ends, the members that are not stale are settled, and the others are as their last
update left them. -/
theorem ledger_run (hSettles : L.Settles members Valid Settled Updated)
    (hKeys : (members.map Prod.fst).Nodup) (n : ℕ) (hValid : Valid s)
    (h : L.Ledger members Settled Updated l s) :
    L.Ledger members Settled Updated (L.stale n s l) (L.run n s) := by
  induction n generalizing s l with
  | zero => exact h
  | succ n ih =>
    have hPassed := h.passed hSettles hValid hKeys
    rw [stale, run]
    cases hFound : L.found s with
    | none => exact hPassed
    | some w =>
      have hW := mem_of_found (hSettles.perm s hValid) hFound
      exact ih (hSettles.award w s hValid hW) (hPassed.award hSettles hValid hW)

/-- A loop that ends with a pass leaves nobody stale. -/
theorem notMem_stale_of_ends (hSettles : L.Settles members Valid Settled Updated)
    (hKeys : (members.map Prod.fst).Nodup) {n : ℕ} (hValid : Valid s) (h : L.Ends n s) :
    ∀ m ∈ members, m.1 ∉ L.stale n s l := by
  induction n generalizing s l with
  | zero => exact h.elim
  | succ n ih =>
    have hPerm := hSettles.perm s hValid
    rw [Ends] at h
    rw [stale]
    cases hFound : L.found s with
    | none =>
      intro m hM hIn
      have hPasses := (values_passed_spec hKeys hPerm).2.2 hFound m hM
      exact of_decide_eq_true (List.mem_filter.mp hIn).2 hPasses
    | some w =>
      rw [hFound] at h
      exact ih (hSettles.award w s hValid (mem_of_found hPerm hFound)) h

end PassLoop

end Bullet.Lib.StaleMembers
