import Mathlib.Data.List.TakeWhile
import Mathlib.Data.UInt
import Bullet.Lib.SerialNumber

/-! # The sender-based controller

The records that the base class of the congestion controllers keeps of sent packets: those in
transit, the transit history, and the packets fed back, with the sum of their sizes. The numbers of
packets have 16 bits and wrap; so do the times of 64 bits. The length of the history is the default.
-/

namespace Bullet.Stream

open Lib

namespace SenderBasedController

/-- The "less than" operator for unsigned integers that supports wrapping. -/
def lessThan {α : Type} [Sub α] [LT α] [DecidableLT α] (lhs rhs : α) : Bool :=
  decide (rhs - lhs < lhs - rhs)

theorem lessThan_iff {a b : UInt16} :
    lessThan a b = true ↔ SerialNumber.Before a.toBitVec b.toBitVec := by
  rw [lessThan, decide_eq_true_iff]
  exact Iff.rfl

end SenderBasedController

/-- What ends a call: an assertion that fails, the front of an empty queue, and an iterator that goes
on after its element was erased. The last two are undefined. -/
inductive HistoryFault where
  | assertion
  | emptyFront
  | erasedIterator
deriving DecidableEq

structure PacketRecord where
  sequence : UInt16
  txTimestampUs : UInt64
  size : UInt32
  owdUs : UInt64 := 0
  rttUs : UInt64 := 0
deriving DecidableEq, Repr

structure InterLossState where
  intervals : List UInt16 := [0]
  expectedSeq : UInt16 := 0
  initialized : Bool := false
deriving DecidableEq

structure SenderBasedController where
  firstSend : Bool := true
  lastSequence : UInt16 := 0
  baseDelayUs : UInt64 := 0
  inTransitPackets : List PacketRecord := []
  packetTransitHistory : List PacketRecord := []
  packetHistory : List PacketRecord := []
  recvHistory : List PacketRecord := []
  pktSizeSum : UInt32 := 0
  lastRecvSequence : UInt16 := 0
  ilState : InterLossState := {}
  lost : UInt32 := 0
  lossCounter : Int32 := 0
deriving DecidableEq

namespace SenderBasedController

def maxInterPacketTimeUs : UInt64 := 500 * 1000
def historyLengthUs : UInt64 := 500 * 1000

/-- A loop that pops from the front while the front meets the condition. -/
def popWhile (p : PacketRecord → Bool) : List PacketRecord → Except HistoryFault (List PacketRecord)
  | [] => .error .emptyFront
  | front :: queue => if p front then popWhile p queue else .ok (front :: queue)

variable (s : SenderBasedController)

/-- The loop erases the entries with the number, and goes on with the iterator of an erased one. -/
def eraseSequence (sequence : UInt16) (history : List PacketRecord) :
    Except HistoryFault (List PacketRecord) :=
  if history.any (·.sequence == sequence) then .error .erasedIterator else .ok history

def processSendPacket (txTimestampUs : UInt64) (sequence : UInt16) (size : UInt32) :
    Except HistoryFault (SenderBasedController × Bool) := do
  let lastSequence := (if s.firstSend then sequence - 1 else s.lastSequence) + 1
  let s := { s with firstSend := false, lastSequence := lastSequence }
  if sequence ≠ lastSequence then .ok (s, false)
  else do
    let packet : PacketRecord := ⟨lastSequence, txTimestampUs, size, 0, 0⟩
    let history ← eraseSequence lastSequence s.packetTransitHistory
    let inTransitPackets ← popWhile
      (fun front => lessThan (front.txTimestampUs + 10 * maxInterPacketTimeUs) txTimestampUs)
      (s.inTransitPackets ++ [packet])
    .ok ({ s with
      inTransitPackets := inTransitPackets
      packetTransitHistory := history ++ [packet] }, true)

def updateInterLossData (packet : PacketRecord) : Except HistoryFault InterLossState :=
  let ilState : InterLossState :=
    if s.packetHistory.isEmpty then { expectedSeq := packet.sequence } else s.ilState
  if packet.sequence = ilState.expectedSeq then
    .ok { ilState with
      intervals := ilState.intervals.modifyHead (· + 1)
      expectedSeq := ilState.expectedSeq + 1 }
  else if lessThan ilState.expectedSeq packet.sequence then
    .ok {
      intervals :=
        if ilState.intervals.length + 1 > 9 then (1 :: ilState.intervals).dropLast
        else 1 :: ilState.intervals
      expectedSeq := packet.sequence + 1
      initialized := true }
  else .error .assertion

/-- The entry counts for a feedback of the number. The comparisons of the numbers do not wrap. -/
def counts (nowUs : UInt64) (sequence : UInt16) (entry : PacketRecord) : Bool :=
  decide (s.lastRecvSequence < entry.sequence ∧ entry.sequence ≤ sequence ∧
    nowUs - entry.txTimestampUs < 1000000)

def intvlPseudoSize (nowUs : UInt64) (sequence : UInt16) : UInt32 :=
  s.packetTransitHistory.foldl
    (fun size entry => if s.counts nowUs sequence entry then size + entry.size else size) 0

/-- The garbage collection. It never pops the last packet, whose time it reads each time round. -/
def collect (lastTimestampUs : UInt64) :
    List PacketRecord → UInt32 → Except HistoryFault (List PacketRecord × UInt32)
  | [], _ => .error .emptyFront
  | front :: history, pktSizeSum =>
    if lessThan lastTimestampUs front.txTimestampUs then .error .assertion
    else if lessThan lastTimestampUs (front.txTimestampUs + historyLengthUs) then
      .ok (front :: history, pktSizeSum)
    else if pktSizeSum < front.size then .error .assertion
    else collect lastTimestampUs history (pktSizeSum - front.size)

/-- It has been too long without a packet of the history. -/
def obsolete (packet : PacketRecord) : Bool :=
  s.packetHistory.getLast?.any fun lastPacket =>
    lessThan (lastPacket.txTimestampUs + maxInterPacketTimeUs) packet.txTimestampUs

def decreases (packet : PacketRecord) : Bool :=
  s.packetHistory.getLast?.any fun lastPacket =>
    lessThan packet.txTimestampUs lastPacket.txTimestampUs

/-- An obsolete history is cleared. -/
def clearObsolete (packet : PacketRecord) : SenderBasedController :=
  if s.obsolete packet then { s with packetHistory := [], pktSizeSum := 0 } else s

/-- The rest of `processFeedback` for a packet whose time does not decrease. -/
def accept (nowUs rxTimestampUs : UInt64) (packet : PacketRecord) :
    Except HistoryFault SenderBasedController := do
  let s := s.clearObsolete packet
  if packet.owdUs ≠ 0 ∨ packet.rttUs ≠ 0 then .error .assertion
  else do
    let packet := { packet with
      owdUs := rxTimestampUs - packet.txTimestampUs
      rttUs := nowUs - packet.txTimestampUs }
    let ilState ← s.updateInterLossData packet
    let sized := { packet with size := s.intvlPseudoSize nowUs packet.sequence }
    let (packetHistory, pktSizeSum) ← collect sized.txTimestampUs (s.packetHistory ++ [sized])
      (s.pktSizeSum + sized.size)
    .ok { s with
      baseDelayUs :=
        if s.packetHistory.isEmpty || lessThan packet.owdUs s.baseDelayUs then packet.owdUs
        else s.baseDelayUs
      ilState := ilState
      lastRecvSequence := packet.sequence
      packetHistory := packetHistory
      recvHistory := s.recvHistory ++ [sized]
      pktSizeSum := pktSizeSum }

def processFeedback (nowUs : UInt64) (sequence : UInt16) (rxTimestampUs : UInt64) :
    Except HistoryFault (SenderBasedController × Bool) :=
  if lessThan s.lastSequence sequence then .ok (s, false)
  else
    match s.inTransitPackets.getLast? with
    | none => .ok (s, true)
    | some back =>
      if back.sequence ≠ s.lastSequence then .error .assertion
      else do
        let inTransitPackets ← popWhile (fun front => lessThan front.sequence sequence)
          s.inTransitPackets
        let popped := s.inTransitPackets.length - inTransitPackets.length
        let s := { s with
          inTransitPackets := inTransitPackets
          lost := UInt32.ofNat popped
          lossCounter := s.lossCounter + Int32.ofNat popped }
        match inTransitPackets with
        | [] => .error .emptyFront
        | packet :: rest =>
          if lessThan sequence packet.sequence then .ok (s, true)
          else
            let s := { s with inTransitPackets := rest }
            if sequence ≠ packet.sequence then .error .assertion
            else if s.decreases packet then .ok (s, false)
            else do
              let s ← s.accept nowUs rxTimestampUs packet
              .ok (s, true)

def prunTransitHistory (tarSeq : UInt32) : Except HistoryFault SenderBasedController := do
  let history ← popWhile (fun front => front.sequence.toUInt32 < tarSeq) s.packetTransitHistory
  .ok { s with packetTransitHistory := history }

/-! ## Loops -/

variable {s} {p : PacketRecord → Bool} {l l' : List PacketRecord} {packet : PacketRecord}
  {fault : HistoryFault}

theorem popWhile_eq_ok_iff : popWhile p l = .ok l' ↔ l.dropWhile p = l' ∧ l' ≠ [] := by
  fun_induction popWhile p l with
  | case1 => exact iff_of_false nofun fun h => h.2 h.1.symm
  | case2 front queue hPop ih => rw [List.dropWhile_cons_of_pos hPop, ih]
  | case3 front queue hKeep =>
    rw [List.dropWhile_cons_of_neg hKeep, Except.ok.injEq]
    exact ⟨fun h => ⟨h, h ▸ List.cons_ne_nil front queue⟩, fun h => h.1⟩

theorem popWhile_of_mem (hMem : packet ∈ l) (hKeep : p packet = false) :
    popWhile p l = .ok (l.dropWhile p) := by
  refine popWhile_eq_ok_iff.mpr ⟨rfl, fun hNil => ?_⟩
  rw [List.dropWhile_eq_nil_iff] at hNil
  rw [hNil packet hMem] at hKeep
  cases hKeep

/-- The bytes of the packets. -/
def bytes (l : List PacketRecord) : ℕ := (l.map (·.size.toNat)).sum

@[simp] theorem bytes_nil : bytes [] = 0 := rfl

@[simp] theorem bytes_cons (packet : PacketRecord) (l : List PacketRecord) :
    bytes (packet :: l) = packet.size.toNat + bytes l := List.sum_cons

@[simp] theorem bytes_append (l l' : List PacketRecord) : bytes (l ++ l') = bytes l + bytes l' := by
  rw [bytes, List.map_append, List.sum_append]
  rfl

theorem lessThan_add_historyLengthUs (t : UInt64) : lessThan t (t + historyLengthUs) = true := by
  rw [lessThan, add_sub_cancel_left, sub_add_cancel_left]
  decide

theorem not_lessThan_add_self (t : UInt64) :
    lessThan (t + 10 * maxInterPacketTimeUs) t = false := by
  rw [lessThan, add_sub_cancel_left, sub_add_cancel_left]
  decide

/-- The collection keeps the sum the sum, and stops at the last packet if not before. -/
theorem collect_spec {t : UInt64} {sum : UInt32} (hSome : l ≠ [])
    (hLast : (l.getLast hSome).txTimestampUs = t) (hSum : sum.toNat = bytes l) :
    (∃ l' sum', collect t l sum = .ok (l', sum') ∧ l' <:+ l ∧ l' ≠ [] ∧ sum'.toNat = bytes l') ∨
      collect t l sum = .error .assertion := by
  induction l generalizing sum with
  | nil => exact absurd rfl hSome
  | cons front history ih =>
    rw [collect]
    split
    · exact .inr rfl
    split
    · exact .inl ⟨_, _, rfl, List.suffix_rfl, List.cons_ne_nil front history, hSum⟩
    · next hOld =>
      rw [bytes_cons] at hSum
      have hLess : ¬ sum < front.size := by
        rw [UInt32.lt_iff_toNat_lt]
        omega
      rw [if_neg hLess]
      have hRest : history ≠ [] := by
        rintro rfl
        rw [List.getLast_singleton] at hLast
        exact hOld (hLast ▸ lessThan_add_historyLengthUs _)
      rw [List.getLast_cons hRest] at hLast
      have hDifference : (sum - front.size).toNat = bytes history := by
        rw [UInt32.toNat_sub_of_le _ _ (UInt32.not_lt.mp hLess)]
        omega
      rcases ih hRest hLast hDifference with ⟨l', sum', hCollect, hSuffix, h⟩ | hCollect
      · exact .inl ⟨l', sum', hCollect, hSuffix.trans (List.suffix_cons front history), h⟩
      · exact .inr hCollect

/-- Among sums below 32 bits the sum of the sizes does not wrap. -/
theorem intvlPseudoSize_toNat {nowUs : UInt64} {sequence : UInt16}
    (hFits : bytes (s.packetTransitHistory.filter (s.counts nowUs sequence)) < 2 ^ 32) :
    (s.intvlPseudoSize nowUs sequence).toNat =
      bytes (s.packetTransitHistory.filter (s.counts nowUs sequence)) := by
  have hFold : ∀ (l : List PacketRecord) (size : UInt32),
      size.toNat + bytes (l.filter (s.counts nowUs sequence)) < 2 ^ 32 →
      (l.foldl (fun size entry => if s.counts nowUs sequence entry then size + entry.size else size)
        size).toNat = size.toNat + bytes (l.filter (s.counts nowUs sequence)) := by
    intro l
    induction l with
    | nil => exact fun size _ => rfl
    | cons entry l ih =>
      intro size hLt
      rw [List.foldl_cons, List.filter_cons]
      rw [List.filter_cons] at hLt
      split at hLt
      · next hCounts =>
        rw [bytes_cons] at hLt
        have hAdd : (size + entry.size).toNat = size.toNat + entry.size.toNat :=
          (UInt32.toNat_add _ _).trans (Nat.mod_eq_of_lt (by omega))
        rw [if_pos hCounts, if_pos hCounts, ih _ (by omega), bytes_cons, hAdd, Nat.add_assoc]
      · next hNot =>
        rw [if_neg hNot, if_neg hNot, ih size hLt]
  rw [intvlPseudoSize, hFold _ 0 (by simpa using hFits)]
  exact Nat.zero_add _

/-! ## The calls -/

/-- What a call leaves as it was unless a packet is sent or accepted. -/
structure SameHistories (s t : SenderBasedController) : Prop where
  firstSend : t.firstSend = s.firstSend
  lastSequence : t.lastSequence = s.lastSequence
  transit : t.packetTransitHistory = s.packetTransitHistory
  history : t.packetHistory = s.packetHistory
  received : t.recvHistory = s.recvHistory
  sum : t.pktSizeSum = s.pktSizeSum
  lastRecv : t.lastRecvSequence = s.lastRecvSequence

/-- The packet is accepted with the bytes that count for it. -/
structure AcceptedAs (s t : SenderBasedController) (nowUs : UInt64) (packet sized : PacketRecord) :
    Prop where
  firstSend : t.firstSend = s.firstSend
  lastSequence : t.lastSequence = s.lastSequence
  transit : t.packetTransitHistory = s.packetTransitHistory
  sequence : sized.sequence = packet.sequence
  size : sized.size.toNat =
    bytes (s.packetTransitHistory.filter (s.counts nowUs packet.sequence))
  received : t.recvHistory = s.recvHistory ++ [sized]
  history : t.packetHistory <:+ s.packetHistory ++ [sized]
  some : t.packetHistory ≠ []
  sum : t.pktSizeSum.toNat = bytes t.packetHistory

theorem updateInterLossData_ne (h : s.updateInterLossData packet = .error fault) :
    fault = .assertion := by
  rw [updateInterLossData] at h
  generalize (if s.packetHistory.isEmpty then ({ expectedSeq := packet.sequence } : InterLossState)
    else s.ilState) = ilState at h
  split at h
  · cases h
  · split at h
    · cases h
    · cases h
      rfl

theorem clearObsolete_packetHistory (s : SenderBasedController) (packet : PacketRecord) :
    (s.clearObsolete packet).packetHistory = if s.obsolete packet then [] else s.packetHistory := by
  rw [clearObsolete]
  split <;> rfl

theorem accept_spec {nowUs rxTimestampUs : UInt64} (hSum : s.pktSizeSum.toNat = bytes s.packetHistory)
    (hFits : bytes (s.clearObsolete packet).packetHistory +
      bytes (s.packetTransitHistory.filter (s.counts nowUs packet.sequence)) < 2 ^ 32) :
    (∃ t sized, s.accept nowUs rxTimestampUs packet = .ok t ∧ s.AcceptedAs t nowUs packet sized) ∨
      s.accept nowUs rxTimestampUs packet = .error .assertion := by
  have hCleared : (s.clearObsolete packet).packetHistory <:+ s.packetHistory ∧
      (s.clearObsolete packet).pktSizeSum.toNat = bytes (s.clearObsolete packet).packetHistory ∧
      (s.clearObsolete packet).packetTransitHistory = s.packetTransitHistory ∧
      (s.clearObsolete packet).lastRecvSequence = s.lastRecvSequence ∧
      (s.clearObsolete packet).recvHistory = s.recvHistory ∧
      (s.clearObsolete packet).firstSend = s.firstSend ∧
      (s.clearObsolete packet).lastSequence = s.lastSequence := by
    rw [clearObsolete]
    split
    · exact ⟨List.nil_suffix, rfl, rfl, rfl, rfl, rfl, rfl⟩
    · exact ⟨List.suffix_rfl, hSum, rfl, rfl, rfl, rfl, rfl⟩
  rw [accept]
  dsimp only
  generalize s.clearObsolete packet = u at *
  obtain ⟨hSuffix, hSumU, hTransit, hLastRecv, hReceived, hFirst, hLast⟩ := hCleared
  have hCounts : u.counts nowUs packet.sequence = s.counts nowUs packet.sequence := by
    funext entry
    rw [counts, counts, hLastRecv]
  split
  · exact .inr rfl
  cases hIlState : u.updateInterLossData
      { packet with
        owdUs := rxTimestampUs - packet.txTimestampUs, rttUs := nowUs - packet.txTimestampUs } with
  | error fault =>
    cases updateInterLossData_ne hIlState
    exact .inr rfl
  | ok ilState =>
    have hSize : (u.intvlPseudoSize nowUs packet.sequence).toNat =
        bytes (s.packetTransitHistory.filter (s.counts nowUs packet.sequence)) := by
      rw [intvlPseudoSize_toNat (by rw [hTransit, hCounts]; omega), hTransit, hCounts]
    have hAdded : (u.pktSizeSum + u.intvlPseudoSize nowUs packet.sequence).toNat =
        bytes u.packetHistory + (u.intvlPseudoSize nowUs packet.sequence).toNat := by
      rw [UInt32.toNat_add, hSumU]
      exact Nat.mod_eq_of_lt (by omega)
    dsimp only [bind, Except.bind]
    rcases collect_spec (List.append_ne_nil_of_right_ne_nil u.packetHistory
      (List.cons_ne_nil (PacketRecord.mk packet.sequence packet.txTimestampUs
        (u.intvlPseudoSize nowUs packet.sequence) (rxTimestampUs - packet.txTimestampUs)
        (nowUs - packet.txTimestampUs)) [])) (by rw [List.getLast_append_singleton])
      (by rw [bytes_append, bytes_cons, bytes_nil]; exact hAdded) with
      ⟨history, sum, hCollect, hKept, hSome, hKeptSum⟩ | hCollect
    · rw [hCollect]
      refine .inl ⟨_, ⟨packet.sequence, packet.txTimestampUs, u.intvlPseudoSize nowUs packet.sequence,
        rxTimestampUs - packet.txTimestampUs, nowUs - packet.txTimestampUs⟩, rfl, hFirst, hLast,
        hTransit, rfl, hSize, congrArg (· ++ _) hReceived, ?_, hSome, hKeptSum⟩
      obtain ⟨old, hOld⟩ := hSuffix
      exact hKept.trans ⟨old, by rw [← List.append_assoc, hOld]⟩
    · rw [hCollect]
      exact .inr rfl

/-- The packet in transit that a feedback of the number is for, when its time does not decrease. -/
structure Acceptable (s : SenderBasedController) (sequence : UInt16) (packet : PacketRecord) :
    Prop where
  inTransit : packet ∈ s.inTransitPackets
  sequence : packet.sequence = sequence
  time : s.decreases packet = false

/-- A feedback fails an assertion, changes no history, or accepts a packet. -/
theorem processFeedback_cases (s : SenderBasedController) (nowUs : UInt64) (sequence : UInt16)
    (rxTimestampUs : UInt64) :
    s.processFeedback nowUs sequence rxTimestampUs = .error .assertion ∨
      (∃ t valid, s.processFeedback nowUs sequence rxTimestampUs = .ok (t, valid) ∧
        s.SameHistories t) ∨
      ∃ packet u, s.Acceptable sequence packet ∧ s.SameHistories u ∧
        s.processFeedback nowUs sequence rxTimestampUs =
          (u.accept nowUs rxTimestampUs packet).bind fun t => .ok (t, true) := by
  rw [processFeedback]
  split
  · exact .inr (.inl ⟨s, false, rfl, ⟨rfl, rfl, rfl, rfl, rfl, rfl, rfl⟩⟩)
  next hFuture =>
  split
  · exact .inr (.inl ⟨s, true, rfl, ⟨rfl, rfl, rfl, rfl, rfl, rfl, rfl⟩⟩)
  next back hBack =>
  split
  · exact .inl rfl
  next hLast =>
  rw [not_not] at hLast
  have hKeep : lessThan back.sequence sequence = false := by
    rw [hLast]
    exact Bool.eq_false_iff.mpr hFuture
  -- the queue is not emptied: its last packet is not before the number
  have hPop := popWhile_of_mem (p := fun front => lessThan front.sequence sequence)
    (List.mem_of_getLast? hBack) hKeep
  obtain ⟨-, hSome⟩ := popWhile_eq_ok_iff.mp hPop
  have hSublist := List.dropWhile_sublist (l := s.inTransitPackets)
    fun front => lessThan front.sequence sequence
  rw [hPop]
  dsimp only [bind, Except.bind]
  generalize s.inTransitPackets.dropWhile (fun front => lessThan front.sequence sequence) = queue at *
  cases queue with
  | nil => exact absurd rfl hSome
  | cons packet rest =>
    dsimp only
    split
    · exact .inr (.inl ⟨_, true, rfl, ⟨rfl, rfl, rfl, rfl, rfl, rfl, rfl⟩⟩)
    split
    · exact .inl rfl
    next hSequence =>
    rw [not_not] at hSequence
    split
    · exact .inr (.inl ⟨_, false, rfl, ⟨rfl, rfl, rfl, rfl, rfl, rfl, rfl⟩⟩)
    · next hTime =>
      refine .inr (.inr ⟨packet, { s with
        inTransitPackets := rest
        lost := _
        lossCounter := _ }, ⟨hSublist.subset List.mem_cons_self, hSequence.symm,
        Bool.eq_false_iff.mpr hTime⟩, ⟨rfl, rfl, rfl, rfl, rfl, rfl, rfl⟩, rfl⟩)

/-- A packet with the next number is sent, unless the transit history has its number. -/
theorem processSendPacket_spec {sequence : UInt16}
    (hNext : s.firstSend = true ∨ sequence = s.lastSequence + 1) (txTimestampUs : UInt64)
    (size : UInt32) :
    if s.packetTransitHistory.any (·.sequence == sequence) then
      s.processSendPacket txTimestampUs sequence size = .error .erasedIterator
    else
      ∃ queue, s.processSendPacket txTimestampUs sequence size = .ok ({ s with
        firstSend := false
        lastSequence := sequence
        inTransitPackets := queue
        packetTransitHistory := s.packetTransitHistory ++ [⟨sequence, txTimestampUs, size, 0, 0⟩] },
        true) := by
  have hLast : (if s.firstSend then sequence - 1 else s.lastSequence) + 1 = sequence := by
    split
    · exact sub_add_cancel sequence 1
    · next hFirst => exact (hNext.resolve_left hFirst).symm
  obtain ⟨queue, hPop⟩ : ∃ queue, popWhile
      (fun front => lessThan (front.txTimestampUs + 10 * maxInterPacketTimeUs) txTimestampUs)
      (s.inTransitPackets ++ [⟨sequence, txTimestampUs, size, 0, 0⟩]) = .ok queue :=
    ⟨_, popWhile_of_mem (List.mem_append_right _ List.mem_cons_self)
      (by dsimp only; exact not_lessThan_add_self txTimestampUs)⟩
  rw [processSendPacket]
  dsimp only
  rw [hLast, if_neg (not_not.mpr rfl), eraseSequence]
  split
  · rfl
  · refine ⟨queue, ?_⟩
    dsimp only [bind, Except.bind]
    rw [hPop]

/-! ## The order of the transit history -/

def Increasing (l : List PacketRecord) : Prop :=
  l.Pairwise fun p q => lessThan p.sequence q.sequence = true

def Consecutive (l : List PacketRecord) : Prop := l.IsChain fun p q => q.sequence = p.sequence + 1

def numbers (l : List PacketRecord) : List (BitVec 16) := l.map (·.sequence.toBitVec)

theorem increasing_iff : Increasing l ↔ (numbers l).Pairwise SerialNumber.Before := by
  rw [Increasing, numbers, List.pairwise_map]
  exact iff_of_eq (congrArg (List.Pairwise · l) (funext₂ fun p q => propext lessThan_iff))

theorem consecutive_iff : Consecutive l ↔ SerialNumber.Consecutive (numbers l) := by
  rw [Consecutive, numbers, SerialNumber.Consecutive, List.isChain_map]
  exact iff_of_eq (congrArg (List.IsChain · l) (funext₂ fun p q => propext UInt16.toBitVec_inj.symm))

theorem Increasing.nodup (h : Increasing l) : (l.map (·.sequence)).Nodup := by
  refine List.pairwise_map.mpr (List.Pairwise.imp (fun hLess hEq => ?_) h)
  rw [hEq, lessThan_iff] at hLess
  exact SerialNumber.not_before_self _ hLess

/-- Of packets with distinct numbers, two selections with the same numbers are the same. -/
theorem eq_of_numbers_eq {m n : List PacketRecord} (hNodup : (l.map (·.sequence)).Nodup)
    (hM : m ⊆ l) (hN : n ⊆ l) (hEq : numbers m = numbers n) : m = n := by
  induction m generalizing n with
  | nil => exact (List.map_eq_nil_iff.mp hEq.symm).symm
  | cons p m ih =>
    cases n with
    | nil => cases hEq
    | cons q n =>
      obtain ⟨hHead, hTail⟩ := List.cons.inj hEq
      have hSame : p = q := List.inj_on_of_nodup_map hNodup (hM List.mem_cons_self)
        (hN List.mem_cons_self) (UInt16.toBitVec_inj.mp hHead)
      rw [hSame, ih (List.subset_of_cons_subset hM) (List.subset_of_cons_subset hN) hTail]

theorem numbers_dropWhile (l : List PacketRecord) (id : UInt16) :
    numbers (l.dropWhile fun p => p.sequence.toUInt32 < id.toUInt32) =
      (numbers l).dropWhile (· < id.toBitVec) := by
  rw [numbers, numbers, List.dropWhile_map]
  refine congrArg _ (congrArg (List.dropWhile · l) (funext fun p => decide_eq_decide.mpr ?_))
  rw [UInt32.lt_iff_toNat_lt, UInt16.toNat_toUInt32, UInt16.toNat_toUInt32]
  exact Iff.rfl

theorem numbers_filter (l : List PacketRecord) (id : UInt16) :
    numbers (l.filter fun p => !lessThan p.sequence id) =
      (numbers l).filter fun number => ¬ SerialNumber.Before number id.toBitVec := by
  rw [numbers, numbers, List.filter_map]
  refine congrArg _ (congrArg (List.filter · l) (funext fun p => ?_))
  rw [Bool.eq_iff_iff, Bool.not_eq_true', ← Bool.not_eq_true, lessThan_iff, Function.comp_apply,
    decide_eq_true_iff]

theorem prunTransitHistory_eq_ok_iff {history : List PacketRecord} (tarSeq : UInt32) :
    s.prunTransitHistory tarSeq = .ok { s with packetTransitHistory := history } ↔
      s.packetTransitHistory.dropWhile (fun front => front.sequence.toUInt32 < tarSeq) = history ∧
        history ≠ [] := by
  rw [← popWhile_eq_ok_iff, prunTransitHistory]
  cases popWhile (fun front => front.sequence.toUInt32 < tarSeq) s.packetTransitHistory with
  | error fault => exact iff_of_false nofun nofun
  | ok popped =>
    constructor
    · intro h
      exact congrArg Except.ok (congrArg packetTransitHistory (Except.ok.inj h))
    · intro h
      rw [Except.ok.inj h]
      rfl

/-- What is popped with plain comparisons is what is before the id, exactly when the last entry is not
before it and the first compares as it is ordered. -/
theorem prunTransitHistory_iff {front : PacketRecord} {rest : List PacketRecord}
    (hHistory : s.packetTransitHistory = front :: rest) (hChain : Consecutive (front :: rest))
    (hOrder : Increasing (front :: rest)) (id : UInt16) :
    s.prunTransitHistory id.toUInt32 = .ok { s with
      packetTransitHistory := s.packetTransitHistory.filter fun p => !lessThan p.sequence id } ↔
      lessThan ((front :: rest).getLast (List.cons_ne_nil front rest)).sequence id = false ∧
        (front.sequence < id ↔ lessThan front.sequence id = true) := by
  have hNumbers : ((numbers (front :: rest)).dropWhile (· < id.toBitVec) =
        ((numbers (front :: rest)).filter fun number => ¬ SerialNumber.Before number id.toBitVec) ∧
      (numbers (front :: rest)).dropWhile (· < id.toBitVec) ≠ []) ↔
      ¬ SerialNumber.Before ((front :: rest).getLast (List.cons_ne_nil front rest)).sequence.toBitVec
          id.toBitVec ∧
        (front.sequence.toBitVec < id.toBitVec ↔
          SerialNumber.Before front.sequence.toBitVec id.toBitVec) := by
    have hLast : (numbers (front :: rest)).getLast (List.cons_ne_nil _ _) =
        ((front :: rest).getLast (List.cons_ne_nil front rest)).sequence.toBitVec :=
      List.getLast_map (mt List.map_eq_nil_iff.mp (List.cons_ne_nil front rest))
    rw [← hLast]
    exact SerialNumber.dropWhile_eq_filter_iff (by decide) (consecutive_iff.mp hChain)
      (increasing_iff.mp hOrder)
  have hSelect : (front :: rest).dropWhile (fun p => p.sequence.toUInt32 < id.toUInt32) =
      (front :: rest).filter (fun p => !lessThan p.sequence id) ↔
        (numbers (front :: rest)).dropWhile (· < id.toBitVec) =
          (numbers (front :: rest)).filter fun number =>
            ¬ SerialNumber.Before number id.toBitVec := by
    rw [← numbers_dropWhile, ← numbers_filter]
    exact ⟨congrArg numbers, eq_of_numbers_eq hOrder.nodup (List.dropWhile_sublist _).subset
      (List.filter_subset_self _)⟩
  rw [prunTransitHistory_eq_ok_iff, hHistory, hSelect, ← Bool.not_eq_true, lessThan_iff, lessThan_iff]
  refine Iff.trans (and_congr_right fun hDrop => ?_) hNumbers
  rw [← hSelect.mpr hDrop, ← numbers_dropWhile, numbers, ne_eq, ne_eq, List.map_eq_nil_iff]

theorem lessThan_iff_toNat {a b : UInt16} : lessThan a b = true ↔
    0 < (b.toNat + 65536 - a.toNat) % 65536 ∧ (b.toNat + 65536 - a.toNat) % 65536 < 32768 := by
  have hA := a.toNat_lt
  have hB := b.toNat_lt
  rw [lessThan, decide_eq_true_iff, UInt16.lt_iff_toNat_lt, UInt16.toNat_sub, UInt16.toNat_sub]
  omega

/-- Where two numbers in serial order are not on both sides of the wrap, plain comparisons with them
agree with the serial order. -/
theorem plain_iff_serial {last sequence number : UInt16} (hLess : last < sequence)
    (hSerial : lessThan last sequence = true)
    (hNear : number = sequence ∨ lessThan number sequence = true ∨
      lessThan sequence number = true) :
    last < number ∧ number ≤ sequence ↔
      lessThan last number = true ∧ lessThan sequence number = false := by
  have hL := last.toNat_lt
  have hS := sequence.toNat_lt
  have hN := number.toNat_lt
  rw [UInt16.lt_iff_toNat_lt] at hLess
  rw [← Bool.not_eq_true, UInt16.lt_iff_toNat_lt, UInt16.le_iff_toNat_le]
  rw [← UInt16.toNat_inj] at hNear
  simp only [lessThan_iff_toNat] at *
  omega

end SenderBasedController

end Bullet.Stream
