import Bullet.Lib.Segmentation
import Bullet.Rlc.UmBuffer

/-! # Reassembly in an RLC UM entity

The automaton joins the pieces of the PDUs it is handed. PDUs that come in their order, with gaps of
fewer than 1024 numbers, give back the SDUs they were cut from, but for those a gap has hit.
-/

namespace Bullet.Rlc

open Lib Segmentation ReorderingWindow SequenceNumber10

/-- The framing info of a data field. -/
def framing (starts ends : Bool) : ℕ :=
  (if starts then FIRST_BYTE else NO_FIRST_BYTE) ||| (if ends then LAST_BYTE else NO_LAST_BYTE)

/-- The packet numbered `n` is read as the pieces `ps` of SDUs. -/
def UmPdu.Carries (p : UmPdu) (n : ℕ) (starts ends : Bool) (ps : List (List UInt8)) : Prop :=
  ps ≠ [] ∧ ∃ h data, p.removeHeader = some (h, data) ∧ h.sequenceNumber.value = num n ∧
    h.framingInfo = framing starts ends ∧
      LteRlcAm.splitSdus h.extensionBits h.lengthIndicators data = some ps

theorem UmPdu.Carries.numbered {p : UmPdu} {n : ℕ} {starts ends : Bool} {ps : List (List UInt8)}
    (h : p.Carries n starts ends ps) : p.Numbered n := by
  obtain ⟨-, header, data, hRemove, hNumber, -⟩ := h
  obtain ⟨header', hPeek, hRest⟩ := Option.bind_eq_some_iff.mp hRemove
  obtain ⟨bytes, -, hEq⟩ := Option.bind_eq_some_iff.mp hRest
  cases hEq
  exact ⟨_, hPeek, hNumber⟩

/-- The first `sent` PDUs carry the sequence `l` from cut to cut. -/
structure Segments (l : List (List UInt8)) (cut : ℕ → Cut) (pdu : ℕ → UmPdu) (sent : ℕ) : Prop where
  within : ∀ n ≤ sent, Within l (cut n)
  follows : ∀ n < sent, Follows l (cut n) (cut (n + 1))
  carries : ∀ n < sent, (pdu n).Carries n (decide ((cut n).element = 0))
    (decide ((cut (n + 1)).element = 0)) (pieces l (cut n) (cut (n + 1)))

/-- More SDUs follow. -/
theorem Segments.append {l : List (List UInt8)} {cut : ℕ → Cut} {pdu : ℕ → UmPdu} {sent : ℕ}
    (h : Segments l cut pdu sent) (m : List (List UInt8)) : Segments (l ++ m) cut pdu sent where
  within n hLe := (h.within n hLe).append m
  follows n hLt := (h.follows n hLt).append m
  carries n hLt := by
    rw [pieces_append (h.follows n hLt)]
    exact h.carries n hLt

/-- One more PDU is sent. -/
theorem Segments.extend {l : List (List UInt8)} {cut cut' : ℕ → Cut} {pdu pdu' : ℕ → UmPdu}
    {sent : ℕ} (h : Segments l cut pdu sent) (hCut : ∀ n ≤ sent, cut' n = cut n)
    (hPdu : ∀ n < sent, pdu' n = pdu n) (hFollows : Follows l (cut sent) (cut' (sent + 1)))
    (hCarries : (pdu' sent).Carries sent (decide ((cut sent).element = 0))
      (decide ((cut' (sent + 1)).element = 0)) (pieces l (cut sent) (cut' (sent + 1)))) :
    Segments l cut' pdu' (sent + 1) where
  within n hLe := by
    obtain hOld | rfl := Nat.le_or_eq_of_le_succ hLe
    · rw [hCut n hOld]
      exact h.within n hOld
    · exact hFollows.within
  follows n hLt := by
    obtain hOld | rfl := Nat.lt_or_eq_of_le (Nat.le_of_lt_succ hLt)
    · rw [hCut n hOld.le, hCut (n + 1) hOld]
      exact h.follows n hOld
    · rw [hCut n le_rfl]
      exact hFollows
  carries n hLt := by
    obtain hOld | rfl := Nat.lt_or_eq_of_le (Nat.le_of_lt_succ hLt)
    · rw [hCut n hOld.le, hCut (n + 1) hOld, hPdu n hOld]
      exact h.carries n hOld
    · rw [hCut n le_rfl]
      exact hCarries

namespace Reassembly

variable {r : Reassembly} {kept : Option (List UInt8)} {ps qs : List (List UInt8)}
  {starts ends : Bool} {n : ℕ}

/-- What the automaton keeps between two PDUs. -/
structure Keeps (r : Reassembly) (kept : Option (List UInt8)) : Prop where
  state : r.reassemblingState = if kept.isSome then .WAITING_SI_SF else .WAITING_S0_FULL
  keepS0 : ∀ k, kept = some k → r.keepS0 = some k
  sdusBuffer : r.sdusBuffer = []

/-- The pieces are joined to what is kept, in a transition that succeeds. -/
def Feeds (r : Reassembly) (kept : Option (List UInt8)) (starts ends : Bool)
    (ps : List (List UInt8)) (result : Option (Reassembly × List (List UInt8))) : Prop :=
  ∃ r', result = some (r', (feed kept starts ends ps).2) ∧ r'.Keeps (feed kept starts ends ps).1 ∧
    r'.expectedSeqNumber = r.expectedSeqNumber

theorem feeds_deliverAll (hJoin : join kept starts ps = qs) :
    Feeds r kept starts true ps (r.deliverAll qs) := by
  refine ⟨{ r with reassemblingState := .WAITING_S0_FULL, sdusBuffer := [] }, ?_,
    ⟨rfl, nofun, rfl⟩, rfl⟩
  rw [← hJoin]
  rfl

theorem feeds_deliverKeepLast (hJoin : join kept starts ps = qs) (hNe : qs ≠ []) :
    Feeds r kept starts false ps (r.deliverKeepLast qs) := by
  have hFeed : feed kept starts false ps = (qs.getLast?, qs.dropLast) := by rw [← hJoin]; rfl
  have hLast := List.getLast?_eq_some_getLast hNe
  unfold Feeds
  rw [hFeed, deliverKeepLast, hLast]
  refine ⟨_, rfl, ⟨rfl, fun k hKept => ?_, rfl⟩, rfl⟩
  exact hKept

theorem tail_ne_nil (hNe : ps ≠ []) (hMore : ps.length ≠ 1) : ps.tail ≠ [] := by
  cases ps with
  | nil => exact absurd rfl hNe
  | cons p ps =>
    rintro rfl
    exact hMore rfl

/-- Without a kept piece, the automaton starts at the first SDU that begins in the PDU. -/
theorem feeds_restart (hBuffer : r.sdusBuffer = ps) (hNe : ps ≠ []) :
    Feeds r none starts ends ps (r.restart (framing starts ends)) := by
  unfold restart
  dsimp only
  rw [hBuffer]
  cases starts <;> cases ends
  · rw [if_neg (by decide), if_neg (by decide), if_neg (by decide), if_pos (by decide)]
    by_cases hOne : ps.length = 1
    · obtain ⟨p, rfl⟩ := List.length_eq_one_iff.mp hOne
      rw [if_pos hOne]
      exact ⟨{ r with reassemblingState := .WAITING_S0_FULL, sdusBuffer := [] }, rfl,
        ⟨rfl, nofun, rfl⟩, rfl⟩
    · rw [if_neg hOne]
      exact feeds_deliverKeepLast rfl (tail_ne_nil hNe hOne)
  · rw [if_neg (by decide), if_neg (by decide), if_pos (by decide)]
    exact feeds_deliverAll rfl
  · rw [if_neg (by decide), if_pos (by decide)]
    exact feeds_deliverKeepLast rfl hNe
  · rw [if_pos (by decide)]
    exact feeds_deliverAll rfl

/-- A kept piece is continued by a PDU that begins in the middle of an SDU. -/
theorem feeds_continue {k : List UInt8} (hState : r.reassemblingState = .WAITING_SI_SF)
    (hKept : r.keepS0 = some k) (hBuffer : r.sdusBuffer = ps) (hNe : ps ≠ []) :
    Feeds r (some k) false ends ps (r.reassemble false (framing false ends)) := by
  unfold reassemble
  dsimp only
  rw [hState, hKept, hBuffer]
  obtain ⟨p, qs, rfl⟩ := List.exists_cons_of_ne_nil hNe
  cases ends
  · dsimp only
    rw [if_neg (by decide), if_pos (by decide)]
    by_cases hOne : (p :: qs).length = 1
    · have hNil : qs = [] := List.length_eq_zero_iff.mp (Nat.succ_injective hOne)
      subst hNil
      exact ⟨_, rfl, ⟨rfl, fun _ hEq => hEq, rfl⟩, rfl⟩
    · simp only [Option.bind_eq_bind, Option.bind_some, List.head?_cons, List.tail_cons]
      rw [if_neg hOne]
      exact feeds_deliverKeepLast rfl (List.cons_ne_nil _ _)
  · dsimp only
    rw [if_pos (by decide)]
    exact feeds_deliverAll rfl

theorem feeds_reassemble (starts ends lost : Bool) (hState : r.reassemblingState =
      if kept.isSome then .WAITING_SI_SF else .WAITING_S0_FULL)
    (hKept : ∀ k, kept = some k → r.keepS0 = some k) (hBuffer : r.sdusBuffer = ps) (hNe : ps ≠ [])
    (hStarts : lost = false → kept.isSome → starts = false) :
    Feeds r (if lost then none else kept) starts ends ps
      (r.reassemble lost (framing starts ends)) := by
  cases kept with
  | none =>
    have hWaiting : r.reassemblingState = .WAITING_S0_FULL := hState
    have hStep : r.reassemble lost (framing starts ends) = r.restart (framing starts ends) := by
      unfold reassemble
      rw [hWaiting]
    rw [hStep, ite_self]
    exact feeds_restart hBuffer hNe
  | some k =>
    have hWaiting : r.reassemblingState = .WAITING_SI_SF := hState
    cases lost
    · cases hStarts rfl rfl
      exact feeds_continue hWaiting (hKept k rfl) hBuffer hNe
    · have hInfo : framing starts ends ≤ 3 := by
        cases starts <;> cases ends <;> decide
      have hStep : r.reassemble true (framing starts ends) =
          { r with keepS0 := none }.restart (framing starts ends) := by
        unfold reassemble
        rw [hWaiting]
        exact if_pos hInfo
      rw [hStep]
      exact feeds_restart (r := { r with keepS0 := none }) hBuffer hNe

/-- A PDU is joined to what is kept, if it is the next one. -/
theorem reassembleAndDeliver_spec {p : UmPdu} (hCarries : p.Carries n starts ends ps)
    (hKeeps : r.Keeps kept)
    (hStarts : r.expectedSeqNumber.value = num n → kept.isSome → starts = false) :
    ∃ r', r.reassembleAndDeliver p = some (r',
        (feed (if r.expectedSeqNumber.value = num n then kept else none) starts ends ps).2) ∧
      r'.Keeps (feed (if r.expectedSeqNumber.value = num n then kept else none) starts ends ps).1 ∧
      r'.expectedSeqNumber.value = num (n + 1) := by
  obtain ⟨hNe, header, data, hRemove, hNumber, hInfo, hSplit⟩ := hCarries
  have hNext : (if decide (header.sequenceNumber.value ≠ r.expectedSeqNumber.value) then
      header.sequenceNumber.add 1 else r.expectedSeqNumber.increment).value = num (n + 1) := by
    rw [hNumber]
    split
    · rw [add, hNumber, ← num_add_one]
      rfl
    · next hSame =>
      have hEq : num n = r.expectedSeqNumber.value := by simpa using hSame
      rw [increment, ← hEq, num_add_one]
  have hLost : (if decide (header.sequenceNumber.value ≠ r.expectedSeqNumber.value) then none
      else kept) = if r.expectedSeqNumber.value = num n then kept else none := by
    rw [hNumber]
    by_cases hSame : r.expectedSeqNumber.value = num n
    · rw [if_pos hSame, decide_eq_false (not_not_intro hSame.symm)]
      rfl
    · rw [if_neg hSame, decide_eq_true (Ne.symm hSame)]
      rfl
  obtain ⟨r', hRun, hKeeps', hExpected⟩ := feeds_reassemble (r := { r with
      expectedSeqNumber := if decide (header.sequenceNumber.value ≠ r.expectedSeqNumber.value) then
        header.sequenceNumber.add 1 else r.expectedSeqNumber.increment
      sdusBuffer := r.sdusBuffer ++ ps })
    starts ends (decide (header.sequenceNumber.value ≠ r.expectedSeqNumber.value))
    hKeeps.state hKeeps.keepS0 (by rw [hKeeps.sdusBuffer, List.nil_append]) hNe fun hSame =>
      hStarts ((not_not.mp (of_decide_eq_false hSame)).symm.trans hNumber)
  rw [hLost] at hRun hKeeps'
  refine ⟨r', ?_, hKeeps', ?_⟩
  · unfold reassembleAndDeliver
    rw [hRemove, Option.bind_eq_bind, Option.bind_some]
    dsimp only
    rw [hSplit, Option.bind_eq_bind, Option.bind_some, hInfo]
    exact hRun
  · rw [hExpected]
    exact hNext

/-! ## PDUs in a row -/

variable {l : List (List UInt8)} {cut : ℕ → Cut} {pdu : ℕ → UmPdu} {received : Finset ℕ}
  {f g sent : ℕ} {delivered : List (List UInt8)}

/-- All PDUs received below `f` have been handed over, and what has been delivered comes from
them. -/
structure HandedOver (r : Reassembly) (l : List (List UInt8)) (cut : ℕ → Cut) (received : Finset ℕ)
    (f : ℕ) (delivered : List (List UInt8)) : Prop where
  upto : ∃ e kept, e ≤ f ∧ (∀ n ∈ received, n < f → n < e) ∧ r.expectedSeqNumber.value = num e ∧
    r.Keeps kept ∧ Upto l (cut e) kept delivered

/-- More SDUs and more cuts follow. -/
theorem HandedOver.extend {cut' : ℕ → Cut} (h : r.HandedOver l cut received f delivered)
    (hCut : ∀ e ≤ f, cut' e = cut e) (hWithin : ∀ e ≤ f, Within l (cut e))
    (m : List (List UInt8)) : r.HandedOver (l ++ m) cut' received f delivered := by
  obtain ⟨e, kept, hLe, hLast, hExpected, hKeeps, hUpto⟩ := h.upto
  refine ⟨⟨e, kept, hLe, hLast, hExpected, hKeeps, ?_⟩⟩
  rw [hCut e hLe]
  exact hUpto.append (hWithin e hLe) m

theorem cut_mono (h : Segments l cut pdu sent) {m : ℕ} (hLe : m ≤ n) (hSent : n ≤ sent) :
    (cut m).message ≤ (cut n).message := by
  induction n, hLe using Nat.le_induction with
  | base => exact le_rfl
  | succ n hLe ih => exact (ih (by omega)).trans (h.follows n (by omega)).le

/-- The next PDU received is handed over. -/
theorem HandedOver.next (h : r.HandedOver l cut received f delivered)
    (hSegments : Segments l cut pdu sent) (hSent : f < sent)
    (hDense : ∀ e < f, (∀ n ∈ received, n < f → n < e) → f < e + 1024) :
    ∃ r' out, r.reassembleAndDeliver (pdu f) = some (r', out) ∧
      r'.HandedOver l cut received (f + 1) (delivered ++ out) := by
  obtain ⟨e, kept, hLe, hLast, hExpected, hKeeps, hUpto⟩ := h.upto
  have hFollows := hSegments.follows f hSent
  obtain rfl | hGap := hLe.eq_or_lt
  · have hStarts : r.expectedSeqNumber.value = num e → kept.isSome →
        decide ((cut e).element = 0) = false := by
      intro _ hSome
      obtain ⟨k, hK⟩ := Option.isSome_iff_exists.mp hSome
      exact decide_eq_false (hUpto.kept k hK).1
    obtain ⟨r', hRun, hKeeps', hNext⟩ :=
      reassembleAndDeliver_spec (hSegments.carries e hSent) hKeeps hStarts
    rw [if_pos hExpected] at hRun hKeeps'
    exact ⟨r', _, hRun, ⟨_, _, le_rfl, fun _ _ hLt => hLt, hNext, hKeeps', hUpto.feed hFollows⟩⟩
  · have hNe : r.expectedSeqNumber.value ≠ num f := by
      have hNear := hDense e hGap hLast
      rw [hExpected]
      exact mt (num_inj le_rfl (by omega) hGap.le hNear).mp hGap.ne
    obtain ⟨r', hRun, hKeeps', hNext⟩ :=
      reassembleAndDeliver_spec (hSegments.carries f hSent) hKeeps fun hEq => absurd hEq hNe
    rw [if_neg hNe] at hRun hKeeps'
    have hLost := hUpto.lose (cut_mono hSegments hGap.le hSent.le)
    exact ⟨r', _, hRun, ⟨_, _, le_rfl, fun _ _ hLt => hLt, hNext, hKeeps', hLost.feed hFollows⟩⟩

theorem HandedOver.released (h : r.HandedOver l cut received f delivered)
    (hSegments : Segments l cut pdu sent) (hLe : f ≤ g) (hSent : ∀ n ∈ received, n < g → n < sent)
    (hDense : ∀ e n, e < n → n < g → (∀ m ∈ received, m < n → m < e) → n < e + 1024) :
    ∃ r' out, r.reassembleAll ((released received f g).map pdu) = some (r', out) ∧
      r'.HandedOver l cut received g (delivered ++ out) := by
  induction g, hLe using Nat.le_induction with
  | base =>
    rw [released_self]
    refine ⟨r, [], rfl, ?_⟩
    rw [List.append_nil]
    exact h
  | succ g hLe ih =>
    obtain ⟨r', out, hRun, hHanded⟩ := ih (fun n hMem hLt => hSent n hMem (by omega))
      fun e n hE hN => hDense e n hE (by omega)
    have hSplit : ReorderingWindow.released received f g ++
        ReorderingWindow.released received g (g + 1) =
          ReorderingWindow.released received f (g + 1) := released_append hLe (Nat.le_succ g)
    by_cases hMem : g ∈ received
    · have hLast : ReorderingWindow.released received g (g + 1) = [g] := by
        rw [released_of_mem (Nat.lt_succ_self g) hMem, released_self]
      obtain ⟨r'', out', hNext, hHanded'⟩ := hHanded.next hSegments (hSent g hMem (by omega))
        fun e hE => hDense e g hE (by omega)
      rw [← hSplit, hLast, List.map_append, reassembleAll_append, hRun, Option.bind_some]
      refine ⟨r'', out ++ out', ?_, ?_⟩
      · rw [List.map_singleton, reassembleAll, hNext]
        simp [reassembleAll]
      · rw [← List.append_assoc]
        exact hHanded'
    · have hLast : ReorderingWindow.released received g (g + 1) = [] := by
        rw [released_of_notMem hMem, released_self]
      rw [← hSplit, hLast, List.append_nil]
      obtain ⟨e, kept, hE, hAll, hRest⟩ := hHanded.upto
      refine ⟨r', out, hRun, ⟨e, kept, by omega, fun n hN hLt => hAll n hN ?_, hRest⟩⟩
      exact lt_of_le_of_ne (Nat.le_of_lt_succ hLt) fun hEq => hMem (hEq ▸ hN)

end Reassembly

end Bullet.Rlc
