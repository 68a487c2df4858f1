import Bullet.Lib.PartialRun
import Bullet.Rlc.UmTransmitter
import Bullet.Rlc.UmWindow

/-! # An RLC UM sender and its receiver

PDUs reach the receiver in any order, once, more often or not at all, as long as their numbers are
in the reordering window or less than a window above it. As long as the keys of the reception buffer
are in the order of the numbers where the receiver walks over them, VR(UR) is the first number that
is missing and still awaited, and the SDUs delivered are some of those sent, in their order.
-/

namespace Bullet.Rlc

open Lib PartialRun ReorderingWindow Segmentation LteRlcUm

/-- A sender and a receiver, with the SDUs and the PDUs sent, the numbers of the PDUs that have
come, in the reordering window and all of them, and the SDUs delivered. -/
structure UmLink where
  sender : LteRlcUm := {}
  receiver : LteRlcUm := {}
  sdus : List (List UInt8) := []
  pdus : List UmPdu := []
  window : ReorderingWindow := {}
  arrived : List ℕ := []
  delivered : List (List UInt8) := []

inductive UmEvent
  | sdu (p : List UInt8)
  | opportunity (bytes : ℕ)
  | rbsTimer
  | arrive (n : ℕ)
  | reorderingTimer
deriving DecidableEq, Repr

namespace UmLink

/-- The PDU that an output hands to the MAC. -/
def sentPdu : LteRlcUm.Output → Option UmPdu
  | .transmitPdu pdu => some pdu
  | .reportBufferStatus _ => none

def step (s : UmLink) : UmEvent → Option UmLink
  | .sdu p =>
    let accepted := s.sender.txBufferSize + UInt32.ofNat p.length ≤ s.sender.maxTxBufferSize
    some { s with
      sender := (s.sender.doTransmitPdcpPdu p).1
      sdus := s.sdus ++ if accepted then [p] else [] }
  | .opportunity bytes => (s.sender.doNotifyTxOpportunity bytes).map fun r =>
    { s with sender := r.1, pdus := s.pdus ++ r.2.filterMap sentPdu }
  | .rbsTimer => some { s with sender := s.sender.expireRbsTimer.1 }
  | .arrive n => do
    let p ← s.pdus[n]?
    let (receiver, out) ← s.receiver.doReceivePdu p
    pure { s with
      receiver := receiver
      window := s.window.arrive windowSize n
      arrived := s.arrived ++ [n]
      delivered := s.delivered ++ out }
  | .reorderingTimer => do
    let (receiver, out) ← s.receiver.expireReorderingTimer
    pure { s with
      receiver := receiver
      window := s.window.timer.elim s.window s.window.expire
      delivered := s.delivered ++ out }

/-- An SDU is not empty; a PDU is not so long that the length of its header wraps; the receiver gets
PDUs that were sent, with numbers inside the reordering window or less than a window above it; a
timer expires while it runs. -/
def Met (s : UmLink) : UmEvent → Prop
  | .sdu p => p ≠ []
  | .opportunity bytes => s.sender.txBuffer.length ≤ 43689 ∨ bytes ≤ 87380
  | .rbsTimer => True
  | .arrive n => n < s.pdus.length ∧ s.window.next ≤ n + windowSize ∧ n < s.window.next + windowSize
  | .reorderingTimer => s.receiver.reorderingTimer = true

instance (s : UmLink) : ∀ e, Decidable (s.Met e)
  | .sdu p => inferInstanceAs (Decidable (p ≠ []))
  | .opportunity bytes =>
    inferInstanceAs (Decidable (s.sender.txBuffer.length ≤ 43689 ∨ bytes ≤ 87380))
  | .rbsTimer => inferInstanceAs (Decidable True)
  | .arrive n => inferInstanceAs (Decidable (n < s.pdus.length ∧
      s.window.next ≤ n + windowSize ∧ n < s.window.next + windowSize))
  | .reorderingTimer => inferInstanceAs (Decidable (s.receiver.reorderingTimer = true))

/-- The keys that a PDU makes the receiver walk over are in the order of the numbers. -/
def InOrder (s : UmLink) : UmEvent → Prop
  | .arrive n => Orderly s.window n
  | _ => True

/-- VR(UR) is the first number not received that is still awaited, its PDU is not held, and the SDUs
delivered are some of those sent, in their order. -/
structure Right (s : UmLink) : Prop where
  vrUr : ∃ n, IsLeast {k | s.window.floor ≤ k ∧ k ∉ s.arrived} n ∧
    s.receiver.vrUr.value = num n ∧ s.receiver.rxBuffer (num n) = none
  delivered : s.delivered.Sublist s.sdus

def start (maxTxBufferSize : UInt32) : UmLink :=
  { sender := { maxTxBufferSize := maxTxBufferSize } }

/-! ## What every event keeps -/

def pdu (s : UmLink) (n : ℕ) : UmPdu := s.pdus.getD n ⟨{}, []⟩

/-- The two sides agree on the PDUs that were sent. -/
structure Linked (s : UmLink) (cut : ℕ → Cut) : Prop where
  segments : Segments s.sdus cut s.pdu s.pdus.length
  waits : Waits s.sender.txBuffer s.sdus (cut s.pdus.length)
  number : s.sender.sequenceNumber.value = num s.pdus.length
  mirrors : Mirrors s.receiver s.window s.pdu
  known : ∀ n ∈ s.window.received, n < s.pdus.length
  arrived : ∀ k, s.window.floor ≤ k → (k ∈ s.window.received ↔ k ∈ s.arrived)
  handed : s.receiver.reassembly.HandedOver s.sdus cut s.window.received s.window.first s.delivered

variable {s : UmLink} {cut : ℕ → Cut} {n bytes : ℕ}

theorem Linked.next_le (h : s.Linked cut) : s.window.next ≤ s.pdus.length := by
  cases hNext : s.window.next with
  | zero => exact Nat.zero_le _
  | succ k => exact h.known k (h.mirrors.settled.top k hNext)

theorem Linked.right (h : s.Linked cut) : s.Right where
  vrUr := by
    refine ⟨s.window.first, ⟨⟨s.window.floor_le_first, ?_⟩, ?_⟩, h.mirrors.vrUr, ?_⟩
    · exact mt (h.arrived _ s.window.floor_le_first).mpr s.window.first_notMem
    · rintro k ⟨hFloor, hMissing⟩
      exact Nat.find_min' _ ⟨hFloor, mt (h.arrived k hFloor).mp hMissing⟩
    · rw [h.mirrors.holds _ le_rfl (Nat.lt_add_of_pos_right (by decide)),
        if_neg s.window.first_notMem]
  delivered := by
    obtain ⟨e, kept, -, -, -, -, hUpto⟩ := h.handed.upto
    exact hUpto.sublist.trans (List.take_sublist _ _)

/-! ## The sender -/

theorem Linked.first_le (h : s.Linked cut) : s.window.first ≤ s.pdus.length :=
  h.mirrors.settled.first_le_next.trans h.next_le

theorem Linked.handed_extend (h : s.Linked cut) {cut' : ℕ → Cut}
    (hCut : ∀ n ≤ s.pdus.length, cut' n = cut n) (m : List (List UInt8)) :
    s.receiver.reassembly.HandedOver (s.sdus ++ m) cut' s.window.received s.window.first
      s.delivered :=
  h.handed.extend (fun e hLe => hCut e (hLe.trans h.first_le))
    (fun e hLe => h.segments.within e (hLe.trans h.first_le)) m

/-- An SDU waits behind the others, or is discarded. -/
theorem Linked.sdu (h : s.Linked cut) {p : List UInt8} (hNe : p ≠ []) :
    ∃ t, s.step (.sdu p) = some t ∧ t.Linked cut := by
  refine ⟨_, rfl, h.segments.append _, ?_, ?_, h.mirrors, h.known, h.arrived,
    h.handed_extend (fun _ _ => rfl) _⟩
  · unfold doTransmitPdcpPdu
    dsimp only
    split
    · exact h.waits.push hNe
    · rw [List.append_nil]
      exact h.waits
  · unfold doTransmitPdcpPdu
    dsimp only
    split <;> exact h.number

theorem Linked.opportunity (h : s.Linked cut)
    (hShort : s.sender.txBuffer.length ≤ 43689 ∨ bytes ≤ 87380) :
    ∃ t cut', s.step (.opportunity bytes) = some t ∧ t.Linked cut' := by
  have hIdle : s.sender.doNotifyTxOpportunity bytes = some (s.sender, []) →
      ∃ t cut', s.step (.opportunity bytes) = some t ∧ t.Linked cut' := by
    intro hNone
    refine ⟨s, cut, ?_, h⟩
    rw [step, hNone, Option.map_some, List.filterMap_nil, List.append_nil]
  by_cases hBytes : bytes ≤ 2
  · exact hIdle (if_pos hBytes)
  · cases hTx : s.sender.txBuffer with
    | nil =>
      apply hIdle
      unfold doNotifyTxOpportunity
      rw [if_neg hBytes, hTx]
    | cons first tx =>
      obtain ⟨sender, p, d, hRun, hFollows, hCarries, hWaits, hNumber⟩ :=
        doNotifyTxOpportunity_spec h.waits (by rw [hTx]; exact List.cons_ne_nil _ _)
          (Nat.not_le.mp hBytes) hShort h.number
      have hOld : ∀ n ≤ s.pdus.length,
          Function.update cut (s.pdus.length + 1) d n = cut n := fun n hLe =>
        Function.update_of_ne (by omega) _ _
      have hNew : Function.update cut (s.pdus.length + 1) d (s.pdus.length + 1) = d :=
        Function.update_self _ _ _
      have hKept : ∀ n < s.pdus.length, (s.pdus ++ [p]).getD n ⟨{}, []⟩ = s.pdu n :=
        fun n hLt => List.getD_append _ _ _ _ hLt
      have hLast : (s.pdus ++ [p]).getD s.pdus.length ⟨{}, []⟩ = p := by simp
      refine ⟨{ s with sender := sender, pdus := s.pdus ++ [p] },
        Function.update cut (s.pdus.length + 1) d, ?_, ?_⟩
      · rw [step, hRun]
        rfl
      · have hLength : (s.pdus ++ [p]).length = s.pdus.length + 1 := List.length_append
        refine ⟨?_, ?_, ?_, ?_, ?_, h.arrived, ?_⟩
        · dsimp only
          rw [hLength]
          refine h.segments.extend hOld hKept ?_ ?_
          · rw [hNew]
            exact hFollows
          · change ((s.pdus ++ [p]).getD s.pdus.length ⟨{}, []⟩).Carries _ _ _ _
            rw [hNew, hLast]
            exact hCarries
        · dsimp only
          rw [hLength, hNew]
          exact hWaits
        · dsimp only
          rw [hLength]
          exact hNumber
        · exact h.mirrors.of_pdu fun n hMem => hKept n (h.known n hMem)
        · intro n hMem
          dsimp only
          rw [hLength]
          exact (h.known n hMem).trans (Nat.lt_succ_self _)
        · have hHanded := h.handed_extend hOld []
          rw [List.append_nil] at hHanded
          exact hHanded

/-! ## The receiver -/

/-- What is released is handed over. -/
theorem Linked.released (h : s.Linked cut) {r : ReorderingWindow} (hBounded : Bounded windowSize r)
    (hLe : s.window.first ≤ r.first)
    (hKnown : ∀ n ∈ r.received, n < s.pdus.length)
    (hNew : ∀ n ∈ r.received, n ∈ s.window.received ∨ s.window.first ≤ n) :
    ∃ reassembly out, s.receiver.reassembly.reassembleAll
        ((ReorderingWindow.released r.received s.window.first r.first).map s.pdu) =
          some (reassembly, out) ∧
      reassembly.HandedOver s.sdus cut r.received r.first (s.delivered ++ out) := by
  obtain ⟨e, kept, hE, hLast, hRest⟩ := h.handed.upto
  have hHanded : s.receiver.reassembly.HandedOver s.sdus cut r.received s.window.first
      s.delivered := by
    refine ⟨⟨e, kept, hE, fun n hMem hLt => ?_, hRest⟩⟩
    obtain hMem | hAbove := hNew n hMem
    · exact hLast n hMem hLt
    · exact absurd hLt (Nat.not_lt.mpr hAbove)
  refine hHanded.released h.segments hLe (fun n hMem _ => hKnown n hMem) ?_
  intro e n hLt hFirst hGap
  have hTop := hBounded.first_le_next
  by_contra hFar
  obtain ⟨k, hMem, hLow, hHigh⟩ := hBounded.dense e (by unfold windowSize; omega)
  unfold windowSize at hHigh
  have hBelow := hGap k hMem (by omega)
  omega

/-- The reassembly does not matter for the window. -/
theorem mirrors_reassembly {t : LteRlcUm} {r : ReorderingWindow} {pdu : ℕ → UmPdu}
    (h : Mirrors t r pdu) (reassembly : Reassembly) :
    Mirrors { t with reassembly := reassembly } r pdu :=
  ⟨h.settled, h.vrUr, h.vrUh, h.holds, h.running, h.timer⟩

theorem Linked.arrive (h : s.Linked cut) (hMet : s.Met (.arrive n))
    (hOrder : s.InOrder (.arrive n)) :
    ∃ t, s.step (.arrive n) = some t ∧ t.Linked cut := by
  obtain ⟨hSent, hOldest, hNewest⟩ := hMet
  have hNumbered := (h.segments.carries n hSent).numbered
  obtain ⟨receiver, hMirrors, hReleases⟩ := h.mirrors.arrive hNumbered hOldest hNewest hOrder
  have hReceived : ∀ k ∈ (s.window.arrive windowSize n).received,
      k ∈ s.window.received ∨ s.window.first ≤ n ∧ k = n := fun k hMem =>
    mem_of_mem_record (w := windowSize) hMem
  have hKnown : ∀ k ∈ (s.window.arrive windowSize n).received, k < s.pdus.length := by
    intro k hMem
    obtain hMem | ⟨-, rfl⟩ := hReceived k hMem
    · exact h.known k hMem
    · exact hSent
  have hFloor : s.window.floor ≤ (s.window.arrive windowSize n).floor := le_max_left _ _
  have hGrows : s.window.first ≤ (s.window.arrive windowSize n).first :=
    first_le_first hFloor fun k hMem => (mem_received_record (w := windowSize)).mpr (Or.inl hMem)
  have hNew : ∀ k ∈ (s.window.arrive windowSize n).received,
      k ∈ s.window.received ∨ s.window.first ≤ k := by
    intro k hMem
    obtain hMem | ⟨hLe, rfl⟩ := hReceived k hMem
    · exact Or.inl hMem
    · exact Or.inr hLe
  obtain ⟨reassembly, out, hRun, hHanded⟩ :=
    h.released hMirrors.settled.toBounded hGrows hKnown hNew
  have hStep := hReleases s.receiver.reassembly
  rw [hRun, Option.map_some] at hStep
  refine ⟨{ s with
    receiver := { receiver with reassembly := reassembly }
    window := s.window.arrive windowSize n
    arrived := s.arrived ++ [n]
    delivered := s.delivered ++ out }, ?_, h.segments, h.waits, h.number,
    mirrors_reassembly hMirrors _, hKnown, fun k hLe => ?_, hHanded⟩
  · have hPdu : s.pdus[n]? = some (s.pdu n) := by
      rw [pdu, List.getD_eq_getElem _ _ hSent, List.getElem?_eq_getElem hSent]
    rw [step, hPdu, Option.bind_eq_bind, Option.bind_some]
    exact congrArg (Option.bind · _) hStep
  · have hOpen : s.window.floor ≤ k := hFloor.trans hLe
    have hIff : k ∈ (s.window.arrive windowSize n).received ↔
        k ∈ s.window.received ∨ s.window.floor ≤ n ∧ k = n :=
      mem_received_record (w := windowSize)
    rw [hIff, h.arrived k hOpen]
    dsimp only
    rw [List.mem_append, List.mem_singleton]
    refine or_congr_right (and_iff_right_of_imp ?_)
    rintro rfl
    exact hOpen

theorem Linked.reorderingTimer (h : s.Linked cut) (hMet : s.Met .reorderingTimer) :
    ∃ t, s.step .reorderingTimer = some t ∧ t.Linked cut := by
  have hRuns : s.window.timer.isSome := h.mirrors.running.symm.trans hMet
  obtain ⟨x, hTimer⟩ := Option.isSome_iff_exists.mp hRuns
  obtain ⟨receiver, hMirrors, hReleases⟩ := h.mirrors.expire hTimer
  have hFloor : s.window.floor ≤ (s.window.expire x).floor := le_max_left _ _
  have hGrows : s.window.first ≤ (s.window.expire x).first :=
    first_le_first hFloor (Finset.Subset.refl _)
  obtain ⟨reassembly, out, hRun, hHanded⟩ := h.released hMirrors.settled.toBounded hGrows h.known
    fun k hMem => Or.inl hMem
  have hStep := hReleases s.receiver.reassembly
  have hSame : (s.window.expire x).received = s.window.received := rfl
  rw [hSame] at hRun
  rw [hRun, Option.map_some] at hStep
  refine ⟨{ s with
    receiver := { receiver with reassembly := reassembly }
    window := s.window.expire x
    delivered := s.delivered ++ out }, ?_, h.segments, h.waits, h.number,
    mirrors_reassembly hMirrors _, h.known, fun k hLe => h.arrived k (hFloor.trans hLe), hHanded⟩
  rw [step, hTimer, Option.elim_some]
  exact congrArg (Option.bind · _) hStep

/-! ## Whole runs -/

theorem linked_start (maxTxBufferSize : UInt32) : (start maxTxBufferSize).Linked fun _ => {} := by
  have hFirst : (start maxTxBufferSize).window.first = 0 :=
    first_eq le_rfl (Finset.notMem_empty 0) fun k _ hLt => absurd hLt (Nat.not_lt_zero k)
  refine ⟨⟨fun _ _ => ⟨Nat.zero_le _, fun hInside => absurd rfl hInside⟩, nofun, nofun⟩,
    ⟨⟨Nat.zero_le _, fun hInside => absurd rfl hInside⟩, rfl, nofun, nofun, nofun⟩, rfl,
    ⟨settled_empty (by decide), ?_, rfl, fun _ _ _ => rfl, rfl, nofun⟩, nofun,
    fun k _ => iff_of_false (Finset.notMem_empty k) List.not_mem_nil, ?_⟩
  · rw [hFirst]
    rfl
  · rw [hFirst]
    exact ⟨⟨0, none, le_rfl, nofun, rfl, ⟨rfl, nofun, rfl⟩, ⟨List.nil_sublist _, nofun⟩⟩⟩

/-- A step in which the keys are in the order of the numbers succeeds and keeps the sides
together. -/
theorem linked_step {e : UmEvent} (h : s.Linked cut) (hMet : s.Met e) (hOrder : s.InOrder e) :
    ∃ t cut', s.step e = some t ∧ t.Linked cut' := by
  cases e with
  | sdu p =>
    obtain ⟨t, hStep, hLinked⟩ := h.sdu hMet
    exact ⟨t, cut, hStep, hLinked⟩
  | opportunity bytes => exact h.opportunity hMet
  | rbsTimer =>
    refine ⟨_, cut, rfl, ?_⟩
    unfold expireRbsTimer
    split <;> exact ⟨h.segments, h.waits, h.number, h.mirrors, h.known, h.arrived, h.handed⟩
  | arrive n =>
    obtain ⟨t, hStep, hLinked⟩ := h.arrive hMet hOrder
    exact ⟨t, cut, hStep, hLinked⟩
  | reorderingTimer =>
    obtain ⟨t, hStep, hLinked⟩ := h.reorderingTimer hMet
    exact ⟨t, cut, hStep, hLinked⟩

/-- Only numbers before the first wrap have come. -/
def BeforeWrap (s : UmLink) : Prop :=
  s.window.next ≤ 1023 ∧ ∀ k ∈ s.window.received, k < 1023

theorem BeforeWrap.record (h : s.BeforeWrap) (hLt : n < 1023) :
    (s.window.record windowSize n).next ≤ 1023 ∧
      ∀ k ∈ (s.window.record windowSize n).received, k < 1023 := by
  refine ⟨max_le h.1 hLt, fun k hMem => ?_⟩
  obtain hMem | ⟨-, rfl⟩ := mem_received_record.mp hMem
  · exact h.2 k hMem
  · exact hLt

theorem BeforeWrap.inOrder (h : s.BeforeWrap) (hLt : n < 1023) : s.InOrder (.arrive n) := by
  obtain ⟨-, hBelow⟩ := h.record hLt
  constructor
  · intro k hK _ m hM _ _ hKeys
    have hSmall := hBelow k hK
    have hSmall' := hBelow m hM
    have hVals : k % 1024 < m % 1024 := hKeys
    omega
  · intro k hLe hLast hAll _
    have hSmall := hBelow k (hAll k hLe le_rfl)
    omega

theorem BeforeWrap.step {t : UmLink} {e : UmEvent} (h : s.BeforeWrap)
    (hEarly : ∀ n, e = .arrive n → n < 1023) (hStep : s.step e = some t) : t.BeforeWrap := by
  cases e with
  | sdu p =>
    cases hStep
    exact h
  | opportunity bytes =>
    obtain ⟨r, -, rfl⟩ := Option.map_eq_some_iff.mp hStep
    exact h
  | rbsTimer =>
    cases hStep
    exact h
  | arrive n =>
    obtain ⟨p, -, hStep⟩ := Option.bind_eq_some_iff.mp hStep
    obtain ⟨r, -, hStep⟩ := Option.bind_eq_some_iff.mp hStep
    cases hStep
    exact h.record (hEarly n rfl)
  | reorderingTimer =>
    obtain ⟨r, -, hStep⟩ := Option.bind_eq_some_iff.mp hStep
    cases hStep
    cases hTimer : s.window.timer with
    | none => exact h
    | some x => exact h

/-- Before the first wrap every key is in the order of the numbers. -/
theorem inOrder_beforeWrap {events : List UmEvent} (h : s.BeforeWrap)
    (hEarly : ∀ n, .arrive n ∈ events → n < 1023) : StepsMeet step InOrder s events := by
  induction events generalizing s with
  | nil => trivial
  | cons e events ih =>
    refine ⟨?_, fun t hStep => ih (h.step ?_ hStep) fun n hMem => ?_⟩
    · cases e with
      | arrive n => exact h.inOrder (hEarly n List.mem_cons_self)
      | sdu p => trivial
      | opportunity bytes => trivial
      | rbsTimer => trivial
      | reorderingTimer => trivial
    · rintro n rfl
      exact hEarly n List.mem_cons_self
    · exact hEarly n (List.mem_cons_of_mem e hMem)

/-- In every run in which the keys are in the order of the numbers at each step, no assertion fails,
and after each step the reception is right. -/
theorem reception_right {maxTxBufferSize : UInt32} {events : List UmEvent}
    (hMet : StepsMeet step Met (start maxTxBufferSize) events)
    (hOrder : StepsMeet step InOrder (start maxTxBufferSize) events) :
    ∃ t, run step (start maxTxBufferSize) events = some t ∧ t.Right := by
  have hAdvances : Advances step (fun s e => s.Met e ∧ s.InOrder e) (fun s => ∃ cut, s.Linked cut)
      fun _ _ => True := by
    refine ⟨fun _ => trivial, fun _ _ _ _ _ => trivial, ?_⟩
    rintro s e ⟨cut, hLinked⟩ ⟨hMet, hOrder⟩
    obtain ⟨t, cut', hStep, hNext⟩ := linked_step hLinked hMet hOrder
    exact ⟨t, hStep, ⟨cut', hNext⟩, trivial⟩
  obtain ⟨t, hRun, ⟨cut, hLinked⟩, -⟩ :=
    hAdvances.run ⟨_, linked_start maxTxBufferSize⟩ (hMet.and hOrder)
  exact ⟨t, hRun, hLinked.right⟩

/-- The second PDU is held until the first one has come. -/
theorem reception_right_reordered :
    ∃ t, run step (start (10 * 1024))
      [.sdu [1], .sdu [2], .opportunity 3, .opportunity 3, .arrive 1, .arrive 0] = some t ∧
      t.Right := by
  refine reception_right (by decide +kernel) (inOrder_beforeWrap ⟨?_, nofun⟩ ?_)
  · exact Nat.zero_le _
  · intro n hMem
    simp only [List.mem_cons, List.not_mem_nil, reduceCtorEq, UmEvent.arrive.injEq,
      false_or, or_false] at hMem
    omega

/-! ## Across the wrap -/

/-- The PDU of an SDU of one byte. -/
def onePdu (n : ℕ) : UmPdu :=
  ⟨((({} : LteRlcHeader).pushExtensionBit DATA_FIELD_FOLLOWS).setSequenceNumber
    ⟨num n, 0⟩).setFramingInfo (FIRST_BYTE ||| LAST_BYTE), [0]⟩

/-- So many SDUs of one byte have been sent, each in a PDU of its own. -/
def sentOnes (k : ℕ) : UmLink where
  sender := { sequenceNumber := ⟨num k, 0⟩ }
  sdus := List.replicate k [0]
  pdus := (List.range k).map onePdu

def sendOnes (k : ℕ) : List UmEvent := (List.replicate k [.sdu [0], .opportunity 3]).flatten

theorem run_sendOne (k : ℕ) :
    run step (sentOnes k) [.sdu [0], .opportunity 3] = some (sentOnes (k + 1)) := by
  -- an SDU that waits alone is taken out of the buffer for the PDU
  have hWaits : (sentOnes k).step (.sdu [0]) = some { sentOnes k with
      sender := { (sentOnes k).sender with txBuffer := [⟨[0], .FULL_SDU⟩], txBufferSize := 1 }
      sdus := List.replicate k [0] ++ [[0]] } := rfl
  have hSize : (1 : UInt32) - UInt32.ofNat 1 = 0 := by decide
  have hSent : ({ (sentOnes k).sender with
        txBuffer := [⟨[0], .FULL_SDU⟩], txBufferSize := 1 } : LteRlcUm).doNotifyTxOpportunity 3 =
      some ({ (sentOnes k).sender with sequenceNumber := ⟨num k + 1, 0⟩ },
        [.transmitPdu (onePdu k)]) := by
    unfold doNotifyTxOpportunity
    dsimp only [Sdu.getSize, List.length_singleton]
    rw [hSize]
    rfl
  rw [run_cons, hWaits, Option.bind_some, run_cons, step, hSent, num_add_one]
  unfold sentOnes
  rw [List.replicate_succ', List.range_succ, List.map_append]
  rfl

theorem run_sendOnes (j k : ℕ) : run step (sentOnes j) (sendOnes k) = some (sentOnes (j + k)) := by
  induction k generalizing j with
  | zero => rfl
  | succ k ih =>
    rw [sendOnes, List.replicate_succ, List.flatten_cons, run_append, run_sendOne, Option.bind_some,
      ← sendOnes, ih, Nat.add_right_comm, Nat.add_assoc]

/-- Of 1025 PDUs the last two come after a gap, the last one first. -/
def acrossWrap : List UmEvent :=
  [.arrive 511, .arrive 1022, .reorderingTimer, .arrive 1024, .arrive 1023]

theorem met_sendOnes (k : ℕ) (s : UmLink) : StepsMeet step Met s (sendOnes k) := by
  refine stepsMeet_of_forall_mem fun e hMem _ => ?_
  obtain ⟨batch, hBatch, hMem⟩ := List.mem_flatten.mp hMem
  rw [List.eq_of_mem_replicate hBatch] at hMem
  obtain rfl | hMem := List.mem_cons.mp hMem
  · exact List.cons_ne_nil _ _
  · cases List.mem_singleton.mp hMem
    exact Or.inr (by decide)

/-- VR(UR) moves from 1023 to 1024, which is SN 0, whose PDU is held. -/
theorem reception_wrong_at_wrap :
    StepsMeet step Met (start (10 * 1024)) (sendOnes 1025 ++ acrossWrap) ∧
      ∃ t, run step (start (10 * 1024)) (sendOnes 1025 ++ acrossWrap) = some t ∧ ¬ t.Right := by
  have hSends : run step (start (10 * 1024)) (sendOnes 1025) = some (sentOnes 1025) := by
    have hRun := run_sendOnes 0 1025
    rw [Nat.zero_add] at hRun
    exact hRun
  have hHeld : (run step (sentOnes 1025) acrossWrap).map
      (fun t => (t.receiver.vrUr.value, (t.receiver.rxBuffer 0).isSome)) = some (0, true) := by
    decide +kernel
  have hMet : StepsMeet step Met (sentOnes 1025) acrossWrap := by decide +kernel
  obtain ⟨t, hRun, hEnd⟩ := Option.map_eq_some_iff.mp hHeld
  obtain ⟨hVrUr, hSome⟩ := Prod.mk.inj hEnd
  refine ⟨?_, t, ?_, ?_⟩
  · refine stepsMeet_append.mpr ⟨met_sendOnes 1025 _, fun u hU => ?_⟩
    cases hSends.symm.trans hU
    exact hMet
  · rw [run_append, hSends, Option.bind_some]
    exact hRun
  · intro hRight
    obtain ⟨n, -, hValue, hFree⟩ := hRight.vrUr
    rw [← hValue, hVrUr] at hFree
    rw [hFree] at hSome
    cases hSome

end UmLink

end Bullet.Rlc
