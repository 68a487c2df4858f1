import Bullet.Lib.PartialRun
import Bullet.Stream.SenderBasedController

/-! # The histories of the sender-based controller over its runs

The controller beside what its histories are for: the packets sent, those of them that are not older
than an id that was pruned, and for each accepted feedback the bytes sent since the one before it.
-/

namespace Bullet.Stream

open Lib Lib.PartialRun SenderBasedController

inductive HistoryEvent where
  | send (txTimestampUs : UInt64) (sequence : UInt16) (size : UInt32)
  | feedback (nowUs : UInt64) (sequence : UInt16) (rxTimestampUs : UInt64)
  | prune (id : UInt16)

/-- The controller, the packets sent, pruned or kept, and the bytes due to each accepted feedback. -/
structure HistoryRun where
  controller : SenderBasedController := {}
  pruned : List PacketRecord := []
  kept : List PacketRecord := []
  attributed : List ℕ := []
deriving DecidableEq

namespace HistoryRun

/-- The number of the last feedback that was accepted. -/
def lastAccepted (r : HistoryRun) : Option UInt16 :=
  r.controller.recvHistory.getLast?.map (·.sequence)

/-- The packet was sent in the last second, after the previously accepted feedback in serial order,
and is not after this one. -/
def isDue (r : HistoryRun) (nowUs : UInt64) (sequence : UInt16) (packet : PacketRecord) : Bool :=
  decide (nowUs - packet.txTimestampUs < 1000000) &&
    r.lastAccepted.all (lessThan · packet.sequence) && !lessThan sequence packet.sequence

/-- The bytes of the sent packets that are due. -/
def dueBytes (r : HistoryRun) (nowUs : UInt64) (sequence : UInt16) : ℕ :=
  bytes ((r.pruned ++ r.kept).filter (r.isDue nowUs sequence))

def step (r : HistoryRun) : HistoryEvent → Except HistoryFault HistoryRun
  | .send txTimestampUs sequence size => do
    let (controller, sent) ← r.controller.processSendPacket txTimestampUs sequence size
    .ok { r with
      controller := controller
      kept := if sent then r.kept ++ [⟨sequence, txTimestampUs, size, 0, 0⟩] else r.kept }
  | .feedback nowUs sequence rxTimestampUs => do
    let (controller, _) ← r.controller.processFeedback nowUs sequence rxTimestampUs
    .ok { r with
      controller := controller
      attributed :=
        if controller.recvHistory.length = r.controller.recvHistory.length then r.attributed
        else r.attributed ++ [r.dueBytes nowUs sequence] }
  | .prune id => do
    let controller ← r.controller.prunTransitHistory id.toUInt32
    .ok { r with
      controller := controller
      pruned := r.pruned ++ r.kept.filter fun p => lessThan p.sequence id
      kept := r.kept.filter fun p => !lessThan p.sequence id }

def next (r : HistoryRun) (e : HistoryEvent) : Option HistoryRun := (r.step e).toOption

/-- The packets are sent with consecutive numbers. -/
def InSequence (r : HistoryRun) : HistoryEvent → Prop
  | .send _ sequence _ =>
    r.controller.firstSend = true ∨ sequence = r.controller.lastSequence + 1
  | _ => True

/-- The histories are what they are for. -/
structure Right (r : HistoryRun) : Prop where
  sum : r.controller.pktSizeSum.toNat = bytes r.controller.packetHistory
  sizes : r.controller.recvHistory.map (·.size.toNat) = r.attributed
  accepted : r.controller.packetHistory <:+ r.controller.recvHistory
  transit : r.controller.packetTransitHistory = r.kept
  increasing : Increasing r.kept
  distinct : (r.kept.map (·.sequence)).Nodup

/-- In each state that the events lead to the histories are right, and no step on the way is
undefined. -/
structure HistoriesRight (events : List HistoryEvent) : Prop where
  right : ∀ before after, events = before ++ after →
    ∀ r, run next {} before = some r → Right r
  defined : ∀ before e after, events = before ++ e :: after → ∀ r, run next {} before = some r →
    r.step e ≠ .error .emptyFront ∧ r.step e ≠ .error .erasedIterator

/-- The entries that count for a feedback are those of all sent packets that are due for it, and the
sum with their bytes fits in 32 bits. -/
structure CountsRight (r : HistoryRun) (nowUs : UInt64) (packet : PacketRecord) : Prop where
  pruned : ∀ p ∈ r.pruned, r.isDue nowUs packet.sequence p = false
  kept : ∀ p ∈ r.controller.packetTransitHistory, nowUs - p.txTimestampUs < 1000000 →
    (r.controller.lastRecvSequence < p.sequence ∧ p.sequence ≤ packet.sequence ↔
      r.lastAccepted.all (lessThan · p.sequence) = true ∧
        lessThan packet.sequence p.sequence = false)
  fits : bytes (r.controller.clearObsolete packet).packetHistory +
    r.dueBytes nowUs packet.sequence < 2 ^ 32

/-- No plain comparison of numbers differs from the serial order where it matters. -/
def Unwrapped (r : HistoryRun) : HistoryEvent → Prop
  | .send _ sequence _ =>
    ∀ front ∈ r.controller.packetTransitHistory.head?, lessThan front.sequence sequence = true
  | .feedback nowUs sequence _ =>
    ∀ packet, r.controller.Acceptable sequence packet → r.CountsRight nowUs packet
  | .prune id =>
    ∃ front ∈ r.controller.packetTransitHistory.head?,
      ∃ back ∈ r.controller.packetTransitHistory.getLast?, lessThan back.sequence id = false ∧
        (front.sequence < id ↔ lessThan front.sequence id = true)

instance (r : HistoryRun) (e : HistoryEvent) : Decidable (r.InSequence e) :=
  match e with
  | .send _ sequence _ => inferInstanceAs
      (Decidable (r.controller.firstSend = true ∨ sequence = r.controller.lastSequence + 1))
  | .feedback .. => inferInstanceAs (Decidable True)
  | .prune _ => inferInstanceAs (Decidable True)

instance (r : HistoryRun) (nowUs : UInt64) (packet : PacketRecord) :
    Decidable (r.CountsRight nowUs packet) :=
  decidable_of_iff (_ ∧ _ ∧ _) ⟨fun h => ⟨h.1, h.2.1, h.2.2⟩, fun h => ⟨h.pruned, h.kept, h.fits⟩⟩

instance (r : HistoryRun) (e : HistoryEvent) : Decidable (r.Unwrapped e) :=
  match e with
  | .send _ sequence _ => inferInstanceAs (Decidable
      (∀ front ∈ r.controller.packetTransitHistory.head?, lessThan front.sequence sequence = true))
  | .feedback nowUs sequence _ => decidable_of_iff
      (∀ packet ∈ r.controller.inTransitPackets, packet.sequence = sequence →
        r.controller.decreases packet = false → r.CountsRight nowUs packet)
      ⟨fun h packet hP => h packet hP.inTransit hP.sequence hP.time,
        fun h packet hIn hSequence hTime => h packet ⟨hIn, hSequence, hTime⟩⟩
  | .prune id => inferInstanceAs (Decidable
      (∃ front ∈ r.controller.packetTransitHistory.head?,
        ∃ back ∈ r.controller.packetTransitHistory.getLast?, lessThan back.sequence id = false ∧
          (front.sequence < id ↔ lessThan front.sequence id = true)))

/-! ## One step -/

/-- What the steps keep: the transit history is consecutive, up to the packet sent last. -/
structure Inv (r : HistoryRun) : Prop where
  right : Right r
  consecutive : Consecutive r.kept
  last : ∀ back ∈ r.kept.getLast?, back.sequence = r.controller.lastSequence
  fresh : r.controller.firstSend = true → r.kept = []

variable {r t : HistoryRun}

theorem inv_init : Inv {} where
  right := ⟨rfl, rfl, List.suffix_rfl, rfl, List.Pairwise.nil, List.nodup_nil⟩
  consecutive := List.isChain_nil
  last := nofun
  fresh _ := rfl

/-- The next packet follows the kept ones in number and in serial order. -/
theorem Inv.append (h : Inv r) (packet : PacketRecord)
    (hNext : r.controller.firstSend = true ∨ packet.sequence = r.controller.lastSequence + 1)
    (hFront : ∀ front ∈ r.kept.head?, lessThan front.sequence packet.sequence = true) :
    Consecutive (r.kept ++ [packet]) ∧ Increasing (r.kept ++ [packet]) := by
  cases hKept : r.kept with
  | nil => exact ⟨List.isChain_singleton packet, List.pairwise_singleton _ packet⟩
  | cons front rest =>
    have hSent : r.controller.firstSend ≠ true := fun hFirst => by
      rw [h.fresh hFirst] at hKept
      cases hKept
    have hChain : Consecutive (front :: rest ++ [packet]) := by
      refine (hKept ▸ h.consecutive).append (List.isChain_singleton packet) fun back hBack p hP => ?_
      cases hP
      rw [h.last back (hKept ▸ hBack)]
      exact hNext.resolve_left hSent
    have hOrder : Increasing (front :: rest) := hKept ▸ h.right.increasing
    rw [hKept] at hFront
    refine ⟨hChain, increasing_iff.mpr ?_⟩
    have hNumbers := SerialNumber.pairwise_concat (by decide) (b := front.sequence.toBitVec)
      (l := numbers rest) (c := packet.sequence.toBitVec) ?_ (increasing_iff.mp hOrder)
      (lessThan_iff.mp (hFront front rfl))
    · rw [numbers, List.map_append]
      exact hNumbers
    · rw [consecutive_iff, numbers, List.map_append] at hChain
      exact hChain

theorem step_send (h : Inv r) {txTimestampUs : UInt64} {sequence : UInt16} {size : UInt32}
    (hNext : r.InSequence (.send txTimestampUs sequence size))
    (hOk : r.Unwrapped (.send txTimestampUs sequence size)) :
    ∃ t, r.step (.send txTimestampUs sequence size) = .ok t ∧ Inv t := by
  have hFront : ∀ front ∈ r.kept.head?, lessThan front.sequence sequence = true := by
    rw [← h.right.transit]
    exact hOk
  obtain ⟨hChain, hOrder⟩ := h.append ⟨sequence, txTimestampUs, size, 0, 0⟩ hNext hFront
  have hNone : ¬ r.controller.packetTransitHistory.any (·.sequence == sequence) = true := by
    have hNodup := hOrder.nodup
    rw [List.map_append, List.nodup_append] at hNodup
    rw [h.right.transit, List.any_eq_true]
    rintro ⟨p, hP, hSame⟩
    exact hNodup.2.2 _ (List.mem_map_of_mem hP) _ List.mem_cons_self (beq_iff_eq.mp hSame)
  have hSend := processSendPacket_spec hNext txTimestampUs size
  rw [if_neg hNone] at hSend
  obtain ⟨queue, hSend⟩ := hSend
  refine ⟨_, by rw [step, hSend]; rfl, ⟨?_, hChain, ?_, ?_⟩⟩
  · exact ⟨h.right.sum, h.right.sizes, h.right.accepted, congrArg (· ++ _) h.right.transit, hOrder,
      hOrder.nodup⟩
  · intro back hBack
    dsimp only [if_true] at hBack
    rw [if_pos rfl, List.getLast?_concat] at hBack
    cases hBack
    rfl
  · intro hFirst
    cases hFirst

/-- What is due for a feedback is what counts for it. -/
theorem dueBytes_eq (h : Right r) {nowUs : UInt64} {packet : PacketRecord}
    (hCounts : r.CountsRight nowUs packet) :
    r.dueBytes nowUs packet.sequence = bytes (r.controller.packetTransitHistory.filter
      (r.controller.counts nowUs packet.sequence)) := by
  have hPruned : r.pruned.filter (r.isDue nowUs packet.sequence) = [] :=
    List.filter_eq_nil_iff.mpr fun p hP => Bool.eq_false_iff.mp (hCounts.pruned p hP)
  rw [dueBytes, List.filter_append, hPruned, List.nil_append, ← h.transit]
  refine congrArg bytes (List.filter_congr fun p hP => ?_)
  have hKept := hCounts.kept p hP
  rw [Bool.eq_iff_iff, isDue, counts, decide_eq_true_iff, Bool.and_eq_true, Bool.and_eq_true,
    decide_eq_true_iff, Bool.not_eq_true']
  tauto

theorem step_feedback (h : Inv r) {nowUs : UInt64} {sequence : UInt16} {rxTimestampUs : UInt64}
    (hOk : r.Unwrapped (.feedback nowUs sequence rxTimestampUs)) :
    (∃ t, r.step (.feedback nowUs sequence rxTimestampUs) = .ok t ∧ Inv t) ∨
      r.step (.feedback nowUs sequence rxTimestampUs) = .error .assertion := by
  rw [step]
  rcases r.controller.processFeedback_cases nowUs sequence rxTimestampUs with
    hFails | ⟨u, valid, hCall, hSame⟩ | ⟨packet, u, hAcceptable, hSame, hCall⟩
  · rw [hFails]
    exact .inr rfl
  · rw [hCall]
    refine .inl ⟨_, rfl, ?_⟩
    rw [if_pos (congrArg List.length hSame.received)]
    refine ⟨⟨?_, ?_, ?_, hSame.transit.trans h.right.transit, h.right.increasing, h.right.distinct⟩,
      h.consecutive, ?_, ?_⟩
    · rw [hSame.sum, hSame.history]
      exact h.right.sum
    · rw [hSame.received]
      exact h.right.sizes
    · rw [hSame.history, hSame.received]
      exact h.right.accepted
    · rw [hSame.lastSequence]
      exact h.last
    · rw [hSame.firstSend]
      exact h.fresh
  · have hCounts := hOk packet hAcceptable
    have hCleared : (u.clearObsolete packet).packetHistory =
        (r.controller.clearObsolete packet).packetHistory := by
      rw [clearObsolete_packetHistory, clearObsolete_packetHistory, obsolete, obsolete, hSame.history]
    have hDue : bytes (u.packetTransitHistory.filter (u.counts nowUs packet.sequence)) =
        r.dueBytes nowUs packet.sequence := by
      have hSameCounts : u.counts nowUs packet.sequence =
          r.controller.counts nowUs packet.sequence := by
        funext p
        rw [counts, counts, hSame.lastRecv]
      rw [dueBytes_eq h.right hCounts, hSame.transit, hSameCounts]
    have hFits := hCounts.fits
    rw [← hCleared, ← hDue] at hFits
    have hSum : u.pktSizeSum.toNat = bytes u.packetHistory := by
      rw [hSame.sum, hSame.history]
      exact h.right.sum
    rw [hCall]
    rcases accept_spec hSum hFits with ⟨c, sized, hAccept, hAs⟩ | hFails
    · rw [hAccept]
      have hReceived : c.recvHistory = r.controller.recvHistory ++ [sized] := by
        rw [hAs.received, hSame.received]
      have hSize : sized.size.toNat = r.dueBytes nowUs sequence := by
        rw [hAs.size, hDue, hAcceptable.sequence]
      have hLonger : c.recvHistory.length ≠ r.controller.recvHistory.length := by
        rw [hReceived, List.length_append]
        exact Nat.succ_ne_self _
      refine .inl ⟨_, rfl, ?_⟩
      rw [if_neg hLonger]
      refine ⟨⟨hAs.sum, ?_, ?_, ?_, h.right.increasing, h.right.distinct⟩, h.consecutive, ?_, ?_⟩
      · rw [hReceived, List.map_append, h.right.sizes, ← hSize]
        rfl
      · refine hAs.history.trans ?_
        obtain ⟨old, hOld⟩ := h.right.accepted
        exact ⟨old, by rw [← List.append_assoc, hSame.history, hOld, hReceived]⟩
      · exact (hAs.transit.trans hSame.transit).trans h.right.transit
      · rw [hAs.lastSequence, hSame.lastSequence]
        exact h.last
      · rw [hAs.firstSend, hSame.firstSend]
        exact h.fresh
    · rw [hFails]
      exact .inr rfl

theorem step_prune (h : Inv r) {id : UInt16} (hOk : r.Unwrapped (.prune id)) :
    ∃ t, r.step (.prune id) = .ok t ∧ Inv t := by
  obtain ⟨front, hFront, back, hBack, hLast, hFirst⟩ := hOk
  obtain ⟨rest, hHistory⟩ := List.head?_eq_some_iff.mp hFront
  have hKept : r.kept = front :: rest := h.right.transit.symm.trans hHistory
  rw [hHistory, List.getLast?_eq_some_getLast (List.cons_ne_nil front rest)] at hBack
  cases hBack
  have hPrune := (prunTransitHistory_iff hHistory (hKept ▸ h.consecutive)
    (hKept ▸ h.right.increasing) id).mpr ⟨hLast, hFirst⟩
  have hStep : r.step (.prune id) = .ok { r with
      controller := { r.controller with
        packetTransitHistory := r.controller.packetTransitHistory.filter
          fun p => !lessThan p.sequence id }
      pruned := r.pruned ++ r.kept.filter fun p => lessThan p.sequence id
      kept := r.kept.filter fun p => !lessThan p.sequence id } := by
    rw [step, hPrune]
    rfl
  obtain ⟨hDropped, hSome⟩ := (prunTransitHistory_eq_ok_iff _).mp hPrune
  rw [h.right.transit] at hDropped hSome
  have hSuffix : r.kept.filter (fun p => !lessThan p.sequence id) <:+ r.kept :=
    hDropped ▸ List.dropWhile_suffix _
  have hOrder : Increasing (r.kept.filter fun p => !lessThan p.sequence id) :=
    h.right.increasing.sublist hSuffix.sublist
  refine ⟨_, hStep, ⟨⟨h.right.sum, h.right.sizes, h.right.accepted,
    congrArg (List.filter _) h.right.transit, hOrder, hOrder.nodup⟩,
    h.consecutive.suffix hSuffix, ?_, ?_⟩⟩
  · intro back hBack
    rw [List.getLast?_eq_some_getLast hSome, hSuffix.getLast hSome,
      ← List.getLast?_eq_some_getLast] at hBack
    exact h.last back hBack
  · intro hSent
    rw [h.fresh hSent] at hKept
    cases hKept

/-- A step in sequence keeps the histories right, or an assertion fails. -/
theorem step_spec (h : Inv r) {e : HistoryEvent} (hNext : r.InSequence e) (hOk : r.Unwrapped e) :
    (∃ t, r.step e = .ok t ∧ Inv t) ∨ r.step e = .error .assertion := by
  cases e with
  | send txTimestampUs sequence size => exact .inl (step_send h hNext hOk)
  | feedback nowUs sequence rxTimestampUs => exact step_feedback h hOk
  | prune id => exact .inl (step_prune h hOk)

/-- Between two feedbacks whose numbers do not wrap the entries that count are those that are due. -/
theorem CountsRight.of_lt {nowUs : UInt64} {packet : PacketRecord}
    (hLast : r.lastAccepted = some r.controller.lastRecvSequence)
    (hLess : r.controller.lastRecvSequence < packet.sequence)
    (hSerial : lessThan r.controller.lastRecvSequence packet.sequence = true)
    (hNear : ∀ p ∈ r.controller.packetTransitHistory, p.sequence = packet.sequence ∨
      lessThan p.sequence packet.sequence = true ∨ lessThan packet.sequence p.sequence = true)
    (hPruned : ∀ p ∈ r.pruned, r.isDue nowUs packet.sequence p = false)
    (hFits : bytes (r.controller.clearObsolete packet).packetHistory +
      r.dueBytes nowUs packet.sequence < 2 ^ 32) : r.CountsRight nowUs packet where
  pruned := hPruned
  kept p hP _ := by
    rw [hLast, Option.all_some]
    exact plain_iff_serial hLess hSerial (hNear p hP)
  fits := hFits

/-! ## Runs -/

theorem inv_of_run {events : List HistoryEvent} (hNext : StepsMeet next InSequence {} events)
    (hOk : StepsMeet next Unwrapped {} events) (hRun : run next {} events = some r) : Inv r := by
  refine invariant_of_run (fun s e t hInv hBoth hStep => ?_) inv_init (hNext.and hOk) hRun
  rcases step_spec hInv hBoth.1 hBoth.2 with ⟨u, hOkStep, hInvU⟩ | hFails
  · rw [next, hOkStep] at hStep
    cases hStep
    exact hInvU
  · rw [next, hFails] at hStep
    cases hStep

/-- With consecutive numbers, the histories are right where no plain comparison meets a wrap. -/
theorem historiesRight_of_unwrapped {events : List HistoryEvent}
    (hNext : StepsMeet next InSequence {} events) (hOk : StepsMeet next Unwrapped {} events) :
    HistoriesRight events where
  right := by
    rintro before after rfl r hRun
    exact (inv_of_run (stepsMeet_append.mp hNext).1 (stepsMeet_append.mp hOk).1 hRun).right
  defined := by
    rintro before e after rfl r hRun
    have hInv := inv_of_run (stepsMeet_append.mp hNext).1 (stepsMeet_append.mp hOk).1 hRun
    rcases step_spec hInv (stepsMeet_iff_forall_append.mp hNext before e after rfl r hRun)
      (stepsMeet_iff_forall_append.mp hOk before e after rfl r hRun) with ⟨t, hStep, -⟩ | hFails
    · rw [hStep]
      exact ⟨nofun, nofun⟩
    · rw [hFails]
      exact ⟨nofun, nofun⟩

theorem historiesRight_of_unwrapped_two : HistoriesRight
    [.send 0 5 100, .send 10 6 200, .feedback 20 5 15, .prune 5, .feedback 30 6 25] :=
  historiesRight_of_unwrapped (by decide) (by decide)

/-- Across the wrap a feedback is attributed no bytes, a pruning removes nothing, and an old id makes
the pruning read the front of the empty history. -/
theorem histories_wrong_at_wrap :
    (StepsMeet next InSequence {}
      [.send 0 65535 100, .send 10 0 100, .feedback 20 65535 15, .feedback 30 0 25] ∧
      ¬ HistoriesRight
        [.send 0 65535 100, .send 10 0 100, .feedback 20 65535 15, .feedback 30 0 25]) ∧
    (StepsMeet next InSequence {} [.send 0 65535 100, .send 10 0 100, .prune 0] ∧
      ¬ HistoriesRight [.send 0 65535 100, .send 10 0 100, .prune 0]) ∧
    (StepsMeet next InSequence {} [.send 0 0 100, .prune 65535] ∧
      ¬ HistoriesRight [.send 0 0 100, .prune 65535]) := by
  refine ⟨⟨by decide, fun h => ?_⟩, ⟨by decide, fun h => ?_⟩, ⟨by decide, fun h => ?_⟩⟩
  · have hSizes := (h.right _ [] (List.append_nil _).symm _ rfl).sizes
    exact absurd hSizes (by decide)
  · have hTransit := (h.right _ [] (List.append_nil _).symm _ rfl).transit
    exact absurd hTransit (by decide)
  · exact (h.defined [.send 0 0 100] (.prune 65535) [] rfl _ rfl).1 rfl

end HistoryRun

end Bullet.Stream
