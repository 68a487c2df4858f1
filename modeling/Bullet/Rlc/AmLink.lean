import Bullet.Lib.PartialRun
import Bullet.Rlc.AmRetention

/-! # Two RLC AM entities

Each entity sends to the other one. Data PDUs may be lost, come more than once and in any order, but not
more than half the numbers late; STATUS PDUs may be lost, but do not overtake each other.
-/

namespace Bullet.Rlc

open Lib PartialRun Segmentation SequenceNumber10 LteRlcAmHeader LteRlcAm

/-- A PDU that was sent, with the number that its sequence number stands for. -/
structure AmSent where
  pdu : AmPdu
  number : ℕ

def AmSent.IsData (item : AmSent) : Prop := item.pdu.header.dataControlBit = DATA_PDU

instance (item : AmSent) : Decidable item.IsData := inferInstanceAs (Decidable (_ = _))

/-- An entity, with the SDUs it has accepted, the PDUs it has sent and the SDUs it has delivered. The
state variables are counted on past 1023, and `heard` is the place behind the last STATUS PDU that has
come among the PDUs of the other side. -/
structure AmPeer where
  entity : LteRlcAm
  sdus : List (List UInt8) := []
  sent : List AmSent := []
  delivered : List (List UInt8) := []
  vtA : ℕ := 0
  vtS : ℕ := 0
  vrR : ℕ := 0
  heard : ℕ := 0

inductive AmAction
  | sdu (p : List UInt8)
  | opportunity (bytes : ℕ)
  | arrive (n : ℕ)
  | pollRetransmitTimer
  | rbsTimer
  | reorderingTimer
  | statusProhibitTimer
deriving DecidableEq

namespace AmPeer

def number (a : AmPeer) (p : AmPdu) : ℕ :=
  a.vtA + offset a.entity.vtA.value p.header.sequenceNumber.value

/-- What the entity has done. -/
def turn (a : AmPeer) (r : LteRlcAm × List Output) : AmPeer :=
  { a with
    entity := r.1
    sent := a.sent ++ (r.2.filterMap sentPdu).map fun p => ⟨p, a.number p⟩
    delivered := a.delivered ++ r.2.filterMap deliveredSdu
    vtA := a.vtA + offset a.entity.vtA.value r.1.vtA.value
    vtS := a.vtS + offset a.entity.vtS.value r.1.vtS.value
    vrR := a.vrR + offset a.entity.vrR.value r.1.vrR.value }

def accepts (a : AmPeer) (p : List UInt8) : Bool :=
  decide (a.entity.txonBufferSize + UInt32.ofNat p.length ≤ a.entity.maxTxBufferSize ∨
    a.entity.maxTxBufferSize = 0)

/-- `b` is the other side. -/
def act (a b : AmPeer) : AmAction → Option AmPeer
  | .sdu p => (a.entity.doTransmitPdcpPdu p).map fun r =>
    { a.turn r with sdus := a.sdus ++ if a.accepts p then [p] else [] }
  | .opportunity bytes => (a.entity.doNotifyTxOpportunity bytes).map a.turn
  | .arrive n => b.sent[n]?.bind fun item => (a.entity.doReceivePdu item.pdu).map fun r =>
    { a.turn r with heard := if item.IsData then a.heard else n + 1 }
  | .pollRetransmitTimer => a.entity.expirePollRetransmitTimer.map a.turn
  | .rbsTimer => a.entity.expireRbsTimer.map a.turn
  | .reorderingTimer => a.entity.expireReorderingTimer.map fun t => a.turn (t, [])
  | .statusProhibitTimer => some (a.turn (a.entity.expireStatusProhibitTimer, []))

/-- An SDU is not empty; an opportunity is large enough, and not so large that the length of a header
wraps; a data PDU comes at most half the numbers late, and no STATUS PDU after a later one; a timer
expires while it runs. -/
def Met (a b : AmPeer) : AmAction → Prop
  | .sdu p => p ≠ []
  | .opportunity bytes => 4 ≤ bytes ∧ (a.entity.TakesNew →
    7 ≤ bytes ∧ (a.entity.txonBuffer.length ≤ 43688 ∨ bytes < 109224))
  | .arrive n => ∃ item ∈ b.sent[n]?,
    if item.IsData then a.vrR ≤ item.number + 512 else a.heard ≤ n + 1
  | .pollRetransmitTimer => True
  | .rbsTimer => True
  | .reorderingTimer => a.entity.reorderingTimer = true
  | .statusProhibitTimer => True

theorem not_met_arrive {a b : AmPeer} {n : ℕ} (hNone : b.sent[n]? = none) :
    ¬ a.Met b (.arrive n) := by
  rintro ⟨item, hItem, -⟩
  cases hNone.symm.trans hItem

theorem met_arrive_iff {a b : AmPeer} {n : ℕ} {item : AmSent} (hItem : b.sent[n]? = some item) :
    (if item.IsData then a.vrR ≤ item.number + 512 else a.heard ≤ n + 1) ↔ a.Met b (.arrive n) := by
  constructor
  · intro hMet
    exact ⟨item, hItem, hMet⟩
  · rintro ⟨other, hOther, hMet⟩
    cases hItem.symm.trans hOther
    exact hMet

instance (a b : AmPeer) (e : AmAction) : Decidable (a.Met b e) :=
  match e with
  | .sdu p => inferInstanceAs (Decidable (p ≠ []))
  | .opportunity _ => inferInstanceAs (Decidable (_ ∧ (_ ∧ _ ∧ _ → _ ∧ (_ ∨ _))))
  | .arrive n =>
    match hItem : b.sent[n]? with
    | none => .isFalse (not_met_arrive hItem)
    | some _ => decidable_of_iff _ (met_arrive_iff hItem)
  | .pollRetransmitTimer => .isTrue trivial
  | .rbsTimer => .isTrue trivial
  | .reorderingTimer => inferInstanceAs (Decidable (_ = _))
  | .statusProhibitTimer => .isTrue trivial

end AmPeer

/-- Both sides. -/
abbrev AmLink := Bool → AmPeer

structure AmEvent where
  side : Bool
  action : AmAction
deriving DecidableEq

namespace AmLink

def step (s : AmLink) (e : AmEvent) : Option AmLink :=
  ((s e.side).act (s !e.side) e.action).map (Function.update s e.side)

def Met (s : AmLink) (e : AmEvent) : Prop := (s e.side).Met (s !e.side) e.action

instance (s : AmLink) (e : AmEvent) : Decidable (s.Met e) :=
  inferInstanceAs (Decidable (AmPeer.Met _ _ _))

def start (maxTxBufferSize : Bool → UInt32) (alwaysBigEnough : Bool → Bool) : AmLink := fun side =>
  { entity := initial (maxTxBufferSize side) (alwaysBigEnough side) }

end AmLink

namespace AmPeer

variable {a b a' b' : AmPeer} {acked : Fin 1024 → Prop} {cut : ℕ → Cut} {content : ℕ → Content}
  {got : ℕ → Prop} {gotAt : ℕ → ℕ → Prop} {l : List (List UInt8)} {sent n k : ℕ} {t : LteRlcAm}
  {out : List Output} {p : AmPdu} {item : AmSent}

/-! ## The invariant -/

/-- What is kept and what was sent carries the SDUs that were accepted. -/
structure Sends (a : AmPeer) (acked : Fin 1024 → Prop) (cut : ℕ → Cut) (content : ℕ → Content) :
    Prop where
  entity : Entity a.entity acked
  low : num a.vtA = a.entity.vtA.value
  next : a.vtS = a.vtA + offset a.entity.vtA.value a.entity.vtS.value
  waits : LteRlcUm.Waits a.entity.txonBuffer a.sdus (cut a.vtS)
  chain : Chain a.sdus cut content a.vtS
  stored : ∀ v p, a.entity.Stored v p →
    p.Brings (a.vtA + offset a.entity.vtA.value v) (content (a.vtA + offset a.entity.vtA.value v))
  sent : ∀ item ∈ a.sent, item.IsData →
    item.number < a.vtS ∧ item.pdu.Brings item.number (content item.number)

/-- What was received has been delivered as far as it has no gap. -/
structure Takes (b : AmPeer) (l : List (List UInt8)) (cut : ℕ → Cut) (content : ℕ → Content)
    (sent : ℕ) (got : ℕ → Prop) : Prop where
  receiving : b.entity.Receiving b.vrR got
  base : num b.vrR = b.entity.vrR.value
  holding : b.entity.Holding l cut content b.vrR sent b.delivered

/-- The sender takes the number for received. -/
def Knows (a : AmPeer) (acked : Fin 1024 → Prop) (n : ℕ) : Prop :=
  n < a.vtA ∨ n < a.vtS ∧ acked (num n)

/-- `gotAt k` is what had been received when the other side sent its `k`-th PDU. What the sender knows
is in all STATUS PDUs that are still to come. -/
structure Answers (a b : AmPeer) (acked : Fin 1024 → Prop) (got : ℕ → Prop) (gotAt : ℕ → ℕ → Prop) :
    Prop where
  knows : ∀ n, a.Knows acked n → got n
  past : ∀ k n, k < b.sent.length → gotAt k n → got n
  grows : ∀ j k n, j ≤ k → k < b.sent.length → gotAt j n → gotAt k n
  reports : ∀ k (item : AmSent), b.sent[k]? = some item → ¬ item.IsData →
    ∃ base, item.pdu.Reports base (gotAt k) a.vtS
  heard : ∀ k n, k < b.sent.length → a.heard ≤ k + 1 → a.Knows acked n → gotAt k n

/-- The way from `a` to `b`, and the STATUS PDUs back. -/
def Flow (a b : AmPeer) : Prop :=
  ∃ acked cut content got gotAt, a.Sends acked cut content ∧
    b.Takes a.sdus cut content a.vtS got ∧ a.Answers b acked got gotAt

/-! ## Numbers -/

theorem Sends.le_next (h : a.Sends acked cut content) : a.vtA ≤ a.vtS ∧ a.vtS ≤ a.vtA + 512 := by
  have hAhead := h.entity.transmitter.window.ahead_le
  have hNext := h.next
  omega

theorem Sends.numS (h : a.Sends acked cut content) : num a.vtS = a.entity.vtS.value := by
  rw [h.next]
  exact num_offset h.low _

/-- The numbers of the window. -/
theorem Sends.inWindow_iff (h : a.Sends acked cut content) (hFrom : a.vtA ≤ n)
    (hTo : n < a.vtA + 1024) : a.entity.InWindow (num n) ↔ n < a.vtS := by
  have hSum := offset_base hFrom hTo
  have hNext := h.next
  rw [h.low] at hSum
  rw [InWindow]
  omega

/-- The sender is not ahead of the receiver. -/
theorem Answers.behind (h : a.Answers b acked got gotAt) (hTakes : b.Takes l cut content sent got) :
    a.vtA ≤ b.vrR := by
  by_contra hAhead
  exact hTakes.receiving.missingR (h.knows _ (.inl (Nat.lt_of_not_le hAhead)))

/-! ## What does not matter for one direction -/

theorem turn_quiet (hA : t.vtA = a.entity.vtA) (hS : t.vtS = a.entity.vtS)
    (hR : t.vrR = a.entity.vrR) (hQuiet : Quiet out) : a.turn (t, out) = { a with entity := t } := by
  unfold turn
  simp [hA, hS, hR, hQuiet.sent, hQuiet.delivered]

theorem turn_sends (hA : t.vtA = a.entity.vtA) (hS : t.vtS = a.entity.vtS)
    (hR : t.vrR = a.entity.vrR) : a.turn (t, [.transmitPdu p]) =
      { a with entity := t, sent := a.sent ++ [⟨p, a.number p⟩] } := by
  unfold turn
  simp [hA, hS, hR, sentPdu, deliveredSdu]

theorem turn_receives {report : List Output} {sdus : List (List UInt8)} (hA : t.vtA = a.entity.vtA)
    (hS : t.vtS = a.entity.vtS) (hQuiet : Quiet report) : a.turn (t, report ++ deliver sdus) =
      { a with
        entity := t
        delivered := a.delivered ++ sdus
        vrR := a.vrR + offset a.entity.vrR.value t.vrR.value } := by
  unfold turn
  simp [hA, hS, hQuiet.sent, hQuiet.delivered, filterMap_sentPdu_deliver,
    filterMap_deliveredSdu_deliver]

/-- What a step leaves alone that sends `new`. -/
structure SameSender (a a' : AmPeer) (new : List AmSent) : Prop where
  sdus : a'.sdus = a.sdus
  sent : a'.sent = a.sent ++ new
  vtA : a'.vtA = a.vtA
  vtS : a'.vtS = a.vtS

/-- The window and the SDUs that wait are the same, and no PDU is kept that was not. -/
structure SameQueue (s t : LteRlcAm) : Prop where
  vtA : t.vtA = s.vtA
  vtS : t.vtS = s.vtS
  txonBuffer : t.txonBuffer = s.txonBuffer
  retains : Retains s t

theorem sameQueue_of_sameWindow {s : LteRlcAm} (h : SameWindow s t) (hRetains : Retains s t) :
    SameQueue s t :=
  ⟨h.vtA, h.vtS, (congrArg LteRlcAm.txonBuffer h.same :), hRetains⟩

theorem sameQueue_of_receives {s : LteRlcAm} (h : Receives s t) : SameQueue s t := by
  have hTxed : t.txedBuffer = s.txedBuffer := (congrArg txedBuffer h.same :)
  have hRetx : t.retxBuffer = s.retxBuffer := (congrArg retxBuffer h.same :)
  refine ⟨(congrArg LteRlcAm.vtA h.same :), (congrArg LteRlcAm.vtS h.same :),
    (congrArg LteRlcAm.txonBuffer h.same :), fun v p hStored => ?_⟩
  rwa [Stored, hTxed, hRetx] at hStored

theorem Sends.of_sameQueue {new : List AmSent} (h : a.Sends acked cut content)
    (hSender : SameSender a a' new) (hEntity : Entity a'.entity acked)
    (hQueue : SameQueue a.entity a'.entity)
    (hNew : ∀ item ∈ new, item.IsData →
      item.number < a.vtS ∧ item.pdu.Brings item.number (content item.number)) :
    a'.Sends acked cut content := by
  constructor
  · exact hEntity
  · rw [hSender.vtA, hQueue.vtA]
    exact h.low
  · rw [hSender.vtS, hSender.vtA, hQueue.vtA, hQueue.vtS]
    exact h.next
  · rw [hQueue.txonBuffer, hSender.sdus, hSender.vtS]
    exact h.waits
  · rw [hSender.sdus, hSender.vtS]
    exact h.chain
  · rw [hSender.vtA, hQueue.vtA]
    exact fun v p hStored => h.stored v p (hQueue.retains v p hStored)
  · rw [hSender.sent, hSender.vtS]
    intro item hMem hData
    rcases List.mem_append.mp hMem with hOld | hAdded
    · exact h.sent item hOld hData
    · exact hNew item hAdded hData

theorem Takes.of_same (h : b.Takes l cut content sent got)
    (hReceiving : b'.entity.Receiving b.vrR got)
    (hAssembly : b'.entity.assembly = b.entity.assembly) (hR : b'.vrR = b.vrR)
    (hDelivered : b'.delivered = b.delivered) : b'.Takes l cut content sent got := by
  have hVrR : b'.entity.vrR = b.entity.vrR := (congrArg LteRlcAm.vrR hAssembly :)
  refine ⟨?_, ?_, ?_⟩
  · rw [hR]
    exact hReceiving
  · rw [hR, hVrR]
    exact h.base
  · rw [hR, hDelivered]
    exact h.holding.of_assembly hAssembly

theorem Answers.of_same (h : a.Answers b acked got gotAt) (hA : a'.vtA = a.vtA)
    (hS : a'.vtS = a.vtS) (hHeard : a'.heard = a.heard) : a'.Answers b acked got gotAt := by
  have hKnows : ∀ n, a'.Knows acked n → a.Knows acked n := fun n hKnown => by
    rwa [Knows, hA, hS] at hKnown
  refine ⟨fun n hKnown => h.knows n (hKnows n hKnown), h.past, h.grows, ?_, fun k n hLt hHeardK hKnown =>
    h.heard k n hLt (hHeard ▸ hHeardK) (hKnows n hKnown)⟩
  rw [hS]
  exact h.reports

/-- More PDUs are sent back. -/
theorem Answers.send {new : List AmSent} (h : a.Answers b acked got gotAt)
    (hSent : b'.sent = b.sent ++ new)
    (hNew : ∀ item ∈ new, ¬ item.IsData → ∃ base, item.pdu.Reports base got a.vtS) :
    ∃ gotAt, a.Answers b' acked got gotAt := by
  refine ⟨fun k => if k < b.sent.length then gotAt k else got, h.knows, fun k n _ hGot => ?_,
    fun j k n hLe _ hGot => ?_, fun k item hItem hStatus => ?_, fun k n _ hHeard hKnown => ?_⟩
  · split at hGot
    · next hOld => exact h.past k n hOld hGot
    · exact hGot
  · by_cases hOld : k < b.sent.length
    · rw [if_pos (hLe.trans_lt hOld)] at hGot
      rw [if_pos hOld]
      exact h.grows j k n hLe hOld hGot
    · rw [if_neg hOld]
      split at hGot
      · next hBefore => exact h.past j n hBefore hGot
      · exact hGot
  · rw [hSent] at hItem
    by_cases hOld : k < b.sent.length
    · rw [List.getElem?_append_left hOld] at hItem
      rw [if_pos hOld]
      exact h.reports k item hItem hStatus
    · rw [List.getElem?_append_right (Nat.not_lt.mp hOld)] at hItem
      rw [if_neg hOld]
      exact hNew item (List.mem_of_getElem? hItem) hStatus
  · split
    · next hOld => exact h.heard k n hOld hHeard hKnown
    · exact h.knows n hKnown

/-- The sender's side of a step that changes nothing there. -/
theorem Answers.of_sender {new : List AmSent} (h : a.Answers b acked got gotAt)
    (hSender : SameSender a a' new) (hHeard : a'.heard = a.heard) : a'.Answers b acked got gotAt :=
  h.of_same hSender.vtA hSender.vtS hHeard

/-- A step that leaves the sender's window alone. -/
theorem Flow.of_sameQueue (h : Flow a b) (new : List AmSent) (hSender : SameSender a a' new)
    (hHeard : a'.heard = a.heard)
    (hEntity : ∀ acked, Entity a.entity acked → Entity a'.entity acked)
    (hQueue : SameQueue a.entity a'.entity)
    (hNew : ∀ acked cut content, a.Sends acked cut content → ∀ item ∈ new, item.IsData →
      item.number < a.vtS ∧ item.pdu.Brings item.number (content item.number)) : Flow a' b := by
  obtain ⟨acked, cut, content, got, gotAt, hSends, hTakes, hAnswers⟩ := h
  refine ⟨acked, cut, content, got, gotAt, hSends.of_sameQueue hSender (hEntity acked hSends.entity)
    hQueue (hNew acked cut content hSends), ?_, hAnswers.of_sender hSender hHeard⟩
  rw [hSender.sdus, hSender.vtS]
  exact hTakes

theorem Flow.receives (h : Flow a b) (new : List AmSent) (hSender : SameSender a a' new)
    (hHeard : a'.heard = a.heard) (hReceives : Receives a.entity a'.entity)
    (hNew : ∀ item ∈ new, ¬ item.IsData) : Flow a' b :=
  h.of_sameQueue new hSender hHeard (fun _ hEntity => hEntity.receives hReceives)
    (sameQueue_of_receives hReceives) fun _ _ _ _ item hMem hData => absurd hData (hNew item hMem)

/-- A step of the receiver that receives nothing; it may send data PDUs, and STATUS PDUs that are
right. -/
theorem Flow.answers (h : Flow b a) (new : List AmSent) (hSent : a'.sent = a.sent ++ new)
    (hReceiving : ∀ got, a.entity.Receiving a.vrR got → a'.entity.Receiving a.vrR got)
    (hAssembly : a'.entity.assembly = a.entity.assembly) (hR : a'.vrR = a.vrR)
    (hDelivered : a'.delivered = a.delivered)
    (hNew : ∀ l cut content sent got, a.Takes l cut content sent got →
      ∀ item ∈ new, ¬ item.IsData → item.pdu.Reports a.vrR got sent) : Flow b a' := by
  obtain ⟨acked, cut, content, got, gotAt, hSends, hTakes, hAnswers⟩ := h
  obtain ⟨gotAt', hAnswers'⟩ := hAnswers.send hSent fun item hMem hStatus =>
    ⟨a.vrR, hNew _ _ _ _ _ hTakes item hMem hStatus⟩
  exact ⟨acked, cut, content, got, gotAt', hSends,
    hTakes.of_same (hReceiving got hTakes.receiving) hAssembly hR hDelivered, hAnswers'⟩

/-! ## SDUs -/

theorem Sends.append (h : a.Sends acked cut content) (m : List (List UInt8)) :
    Chain (a.sdus ++ m) cut content a.vtS where
  within n hLe := (h.chain.within n hLe).append m
  follows n hLt := (h.chain.follows n hLt).append m
  content n hLt := by
    rw [h.chain.content n hLt, Content.between, Content.between, pieces_append (h.chain.follows n hLt)]

/-- More SDUs follow. -/
theorem Takes.append (h : b.Takes l cut content sent got) (hChain : Chain l cut content sent)
    (m : List (List UInt8)) : b.Takes (l ++ m) cut content sent got := by
  have hLe : b.vrR ≤ sent := (Nat.le_add_right _ _).trans h.holding.top
  obtain ⟨kept, hKeeps, hExactly⟩ := h.holding.assembled.exactly
  exact ⟨h.receiving, h.base, ⟨⟨kept, hKeeps, hExactly.append (hChain.within _ hLe) m⟩,
    h.holding.assembled.expected⟩, h.holding.stores, h.holding.top⟩

theorem doTransmitPdcpPdu_cases {p : List UInt8}
    (h : a.entity.doTransmitPdcpPdu p = some (t, out)) : Quiet out ∧
      (a.accepts p = true ∧ t = { a.entity with
          txonBuffer := a.entity.txonBuffer ++ [⟨p, .FULL_SDU⟩]
          txonBufferSize := a.entity.txonBufferSize + UInt32.ofNat p.length
          rbsTimer := true } ∨
        a.accepts p = false ∧ t = { a.entity with rbsTimer := true }) := by
  obtain ⟨report, hReport, h⟩ := Option.bind_eq_some_iff.mp h
  cases h
  refine ⟨quiet_report hReport, ?_⟩
  unfold accepts
  split
  · next hAccepts => exact .inl ⟨decide_eq_true hAccepts, rfl⟩
  · next hAccepts => exact .inr ⟨decide_eq_false hAccepts, rfl⟩

theorem flow_sdu {p : List UInt8} (hOut : Flow a b) (hIn : Flow b a) (hNe : p ≠ []) :
    ∃ a', a.act b (.sdu p) = some a' ∧ Flow a' b ∧ Flow b a' := by
  obtain ⟨acked, cut, content, got, gotAt, hSends, hTakes, hAnswers⟩ := hOut
  obtain ⟨t, out, hRun, hEntity⟩ := entity_sdu hSends.entity hNe
  have hSide := doTransmitPdcpPdu_side hRun
  have hTurn : a.act b (.sdu p) =
      some { a.turn (t, out) with sdus := a.sdus ++ if a.accepts p then [p] else [] } := by
    rw [act, hRun]
    rfl
  obtain ⟨hQuiet, ⟨hAccepts, hT⟩ | ⟨hRefuses, hT⟩⟩ := doTransmitPdcpPdu_cases hRun
  · rw [turn_quiet (by rw [hT]) (by rw [hT]) (by rw [hT]) hQuiet, hAccepts, if_pos rfl] at hTurn
    subst hT
    refine ⟨_, hTurn, ⟨acked, cut, content, got, gotAt, ⟨hEntity, hSends.low, hSends.next,
      hSends.waits.push hNe, hSends.append [p], hSends.stored, hSends.sent⟩,
      hTakes.append hSends.chain [p], hAnswers.of_same rfl rfl rfl⟩, ?_⟩
    exact hIn.answers [] (List.append_nil _).symm
      (fun got hReceiving => hReceiving.of_receivingSide hSide) rfl rfl rfl
      fun _ _ _ _ _ _ _ hMem => absurd hMem List.not_mem_nil
  · rw [turn_quiet (by rw [hT]) (by rw [hT]) (by rw [hT]) hQuiet, hRefuses,
      if_neg Bool.false_ne_true] at hTurn
    subst hT
    refine ⟨_, hTurn, ⟨acked, cut, content, got, gotAt, ⟨hEntity, hSends.low, hSends.next,
      ?_, hSends.append [], hSends.stored, hSends.sent⟩, hTakes.append hSends.chain [],
      hAnswers.of_same rfl rfl rfl⟩, ?_⟩
    · dsimp only
      rw [List.append_nil]
      exact hSends.waits
    · exact hIn.answers [] (List.append_nil _).symm
        (fun got hReceiving => hReceiving.of_receivingSide hSide) rfl rfl rfl
        fun _ _ _ _ _ _ _ hMem => absurd hMem List.not_mem_nil

/-! ## Timers -/

/-- A step that says nothing and leaves both windows alone. -/
theorem flow_quiet (hOut : Flow a b) (hIn : Flow b a)
    (hEntity : ∀ acked, Entity a.entity acked → Entity t acked) (hQueue : SameQueue a.entity t)
    (hReceiving : ∀ got, a.entity.Receiving a.vrR got → t.Receiving a.vrR got)
    (hAssembly : t.assembly = a.entity.assembly) (hQuiet : Quiet out) :
    Flow (a.turn (t, out)) b ∧ Flow b (a.turn (t, out)) := by
  rw [turn_quiet hQueue.vtA hQueue.vtS (congrArg LteRlcAm.vrR hAssembly :) hQuiet]
  refine ⟨hOut.of_sameQueue [] ⟨rfl, (List.append_nil _).symm, rfl, rfl⟩ rfl hEntity hQueue
    fun _ _ _ _ _ hMem => absurd hMem List.not_mem_nil, ?_⟩
  exact hIn.answers [] (List.append_nil _).symm hReceiving hAssembly rfl rfl
    fun _ _ _ _ _ _ _ hMem => absurd hMem List.not_mem_nil

theorem moveLoop_sameWindow {s : LteRlcAm} {sn : SequenceNumber10} {fuel : ℕ}
    (hRun : moveLoop fuel s sn = some t) : SameWindow s t := by
  induction fuel generalizing s sn with
  | zero => cases hRun
  | succ fuel ih =>
    rw [moveLoop] at hRun
    obtain ⟨below, -, hRun⟩ := Option.bind_eq_some_iff.mp hRun
    split at hRun
    · have hMove : SameWindow s (s.moveToRetx sn.value) := by
        unfold moveToRetx
        split
        · exact ⟨rfl, rfl, rfl, rfl⟩
        · exact ⟨rfl, rfl, rfl, rfl⟩
      exact hMove.trans (ih hRun)
    · cases hRun
      exact ⟨rfl, rfl, rfl, rfl⟩

theorem expirePollRetransmitTimer_sameWindow {s : LteRlcAm}
    (h : s.expirePollRetransmitTimer = some (t, out)) : SameWindow s t := by
  unfold expirePollRetransmitTimer at h
  obtain ⟨le, -, h⟩ := Option.bind_eq_some_iff.mp h
  split at h
  · split at h
    · obtain ⟨u, hMove, h⟩ := Option.bind_eq_some_iff.mp h
      obtain ⟨report, -, h⟩ := Option.bind_eq_some_iff.mp h
      cases h
      have hSame := moveLoop_sameWindow hMove
      exact ⟨hSame.vtA, hSame.vtS, hSame.vtMs, hSame.same⟩
    · obtain ⟨u, hSame, h⟩ := Option.bind_eq_some_iff.mp h
      obtain ⟨report, -, h⟩ := Option.bind_eq_some_iff.mp h
      cases h
      cases hSame
      exact ⟨rfl, rfl, rfl, rfl⟩
  · cases h

/-- What the receiving side assembles is of no concern to the transmitted PDUs. -/
theorem sameWindow_assembly {s : LteRlcAm} (h : SameWindow s t) : t.assembly = s.assembly :=
  (congrArg assembly h.same :)

theorem sameWindow_receiving {s : LteRlcAm} {base : ℕ} (h : SameWindow s t)
    (hReceiving : s.Receiving base got) : t.Receiving base got :=
  hReceiving.of_receivingSide (congrArg receivingSide h.same :)

theorem flow_pollRetransmitTimer (hOut : Flow a b) (hIn : Flow b a) :
    ∃ a', a.act b .pollRetransmitTimer = some a' ∧ Flow a' b ∧ Flow b a' := by
  obtain ⟨acked, _, _, _, _, hSends, -⟩ := id hOut
  obtain ⟨t, out, hRun, -⟩ := entity_pollRetransmitTimer hSends.entity
  have hSame := expirePollRetransmitTimer_sameWindow hRun
  obtain ⟨hRetains, hQuiet⟩ := expirePollRetransmitTimer_retains hRun
  refine ⟨a.turn (t, out), by rw [act, hRun]; rfl, ?_⟩
  refine flow_quiet hOut hIn (fun acked hEntity => ?_) (sameQueue_of_sameWindow hSame hRetains)
    (fun got => sameWindow_receiving hSame) (sameWindow_assembly hSame) hQuiet
  obtain ⟨t', out', hRun', hEntity'⟩ := entity_pollRetransmitTimer hEntity
  cases hRun.symm.trans hRun'
  exact hEntity'

theorem flow_rbsTimer (hOut : Flow a b) (hIn : Flow b a) :
    ∃ a', a.act b .rbsTimer = some a' ∧ Flow a' b ∧ Flow b a' := by
  obtain ⟨acked, _, _, _, _, hSends, -⟩ := id hOut
  have hRun : ∃ out running,
      a.entity.expireRbsTimer = some ({ a.entity with rbsTimer := running }, out) ∧ Quiet out := by
    obtain ⟨out, hReport⟩ := hSends.entity.transmitter.report
    unfold expireRbsTimer
    split
    · rw [hReport]
      exact ⟨out, true, rfl, quiet_report hReport⟩
    · exact ⟨[], false, rfl, quiet_nil⟩
  obtain ⟨out, running, hRun, hQuiet⟩ := hRun
  refine ⟨a.turn ({ a.entity with rbsTimer := running }, out), by rw [act, hRun]; rfl, ?_⟩
  exact flow_quiet hOut hIn (fun acked hEntity => entity_rbsTimer_flag hEntity running)
    ⟨rfl, rfl, rfl, .refl _⟩ (fun got hReceiving => hReceiving.of_receivingSide rfl) rfl hQuiet

theorem flow_reorderingTimer (hOut : Flow a b) (hIn : Flow b a)
    (hTimer : a.entity.reorderingTimer = true) :
    ∃ a', a.act b .reorderingTimer = some a' ∧ Flow a' b ∧ Flow b a' := by
  obtain ⟨_, _, _, got, _, -, hTakes, -⟩ := id hIn
  obtain ⟨t, hRun, hAssembly, -⟩ := expireReorderingTimer_total hTakes.receiving hTimer
  have hReceives := receives_expireReorderingTimer hTakes.receiving.receiver hRun
  refine ⟨a.turn (t, []), by rw [act, hRun]; rfl, ?_⟩
  exact flow_quiet hOut hIn (fun _ hEntity => hEntity.receives hReceives)
    (sameQueue_of_receives hReceives)
    (fun got hReceiving => (expireReorderingTimer_spec hReceiving hTimer hRun).1) hAssembly quiet_nil

theorem flow_statusProhibitTimer (hOut : Flow a b) (hIn : Flow b a) :
    ∃ a', a.act b .statusProhibitTimer = some a' ∧ Flow a' b ∧ Flow b a' := by
  obtain ⟨acked, _, _, _, _, hSends, -⟩ := id hOut
  have hReceives := receives_expireStatusProhibitTimer hSends.entity.receiver
  refine ⟨_, rfl, ?_⟩
  exact flow_quiet hOut hIn (fun _ hEntity => hEntity.receives hReceives)
    (sameQueue_of_receives hReceives) (fun got hReceiving => hReceiving.of_receivingSide rfl) rfl
    quiet_nil

/-! ## PDUs that arrive -/

theorem transmitter_requestStatus {s : LteRlcAm} {kind : AmPdu → Prop}
    (h : Transmitter s acked kind) (g : LteRlcAmHeader) :
    ∃ out, (s.requestStatus g).doReportBufferStatus = some out := by
  have hSame : (s.requestStatus g).transmitter = s.transmitter := by
    unfold requestStatus
    split
    · rfl
    · rfl
  exact (h.of_same hSame).report

theorem flow_data (hOut : Flow a b) (hIn : Flow b a) (hItem : b.sent[n]? = some item)
    (hData : item.IsData) (hMet : a.vrR ≤ item.number + 512) :
    ∃ a', a.act b (.arrive n) = some a' ∧ Flow a' b ∧ Flow b a' := by
  obtain ⟨acked', _, _, _, _, hSends', -⟩ := id hOut
  obtain ⟨acked, cut, content, got, gotAt, hSends, hTakes, hAnswers⟩ := hIn
  obtain ⟨hSent, hBrings⟩ := hSends.sent item (List.mem_of_getElem? hItem) hData
  have hBehind := hAnswers.behind hTakes
  have hWindow := hSends.le_next
  obtain ⟨t, report, sdus, hRun, hQuiet, hReceiving, hHolding, hReceives⟩ := receivesData hSends.chain
    hTakes.receiving hTakes.holding hTakes.base hBrings hSent hMet (by omega)
    (transmitter_requestStatus hSends'.entity.transmitter)
  have hQueue := sameQueue_of_receives hReceives
  have hTurn : a.act b (.arrive n) = some { a with
      entity := t
      delivered := a.delivered ++ sdus
      vrR := a.vrR + offset a.entity.vrR.value t.vrR.value } := by
    rw [act, hItem, Option.bind_some, hRun, Option.map_some, if_pos hData,
      turn_receives hQueue.vtA hQueue.vtS hQuiet]
  refine ⟨_, hTurn, ?_, acked, cut, content, _, gotAt, hSends, ⟨hReceiving, ?_, hHolding⟩, ?_⟩
  · exact hOut.receives [] ⟨rfl, (List.append_nil _).symm, rfl, rfl⟩ rfl hReceives
      fun _ hMem => absurd hMem List.not_mem_nil
  · exact num_offset hTakes.base _
  · exact ⟨fun k hKnown => .inl (hAnswers.knows k hKnown),
      fun j k hLt hGot => .inl (hAnswers.past j k hLt hGot), hAnswers.grows, hAnswers.reports,
      hAnswers.heard⟩

/-- The STATUS PDU reports no number missing that the sender knows. -/
theorem nacks_not_acked {g : LteRlcAmHeader} {base top : ℕ} {v : Fin 1024}
    (hSends : a.Sends acked cut content) (hKnows : ∀ m, a.Knows acked m → got m)
    (hMissing : ¬ got base) (hFrom : base ≤ top) (hTo : top ≤ a.vtS)
    (hNacks : ∀ m, base ≤ m → m < base + 1024 → Nacks g (num m) → m < base + 512 ∧ ¬ got m)
    (hIn : a.entity.InWindow v) (hNack : Nacks g v) : ¬ acked v := by
  intro hAcked
  have hWindow := hSends.le_next
  have hLow : a.vtA ≤ base := by
    by_contra hAbove
    exact hMissing (hKnows base (.inl (Nat.lt_of_not_le hAbove)))
  obtain ⟨m, hFromM, hToM, rfl⟩ := exists_num a.vtA v
  have hBelow := (hSends.inWindow_iff hFromM hToM).mp hIn
  by_cases hAbove : base ≤ m
  · exact (hNacks m hAbove (by omega) hNack).2 (hKnows m (.inr ⟨hBelow, hAcked⟩))
  · rw [← num_add_modulus] at hNack
    have hNear := (hNacks (m + 1024) (by omega) (by omega) hNack).1
    omega

/-- What the sender knows when it has processed a STATUS PDU. -/
theorem knows_processed {g : LteRlcAmHeader} {base top : ℕ} {kind : AmPdu → Prop}
    (hSends : a.Sends acked cut content) (hKnows : ∀ m, a.Knows acked m → got m)
    (hMissing : ¬ got base) (hFrom : base ≤ top) (hTo : top ≤ a.vtS)
    (hTop : num top = g.ackSn.value) (hAcks : ∀ m < top, got m ∨ base ≤ m ∧ Nacks g (num m))
    (hDone : Processed a.entity (fun v => acked v ∨ Acknowledges a.entity g g.ackSn.value v) kind t)
    (hA : a'.vtA = a.vtA + offset a.entity.vtA.value t.vtA.value) (hS : a'.vtS = a.vtS) :
    ∀ m, a'.Knows (fun v => acked v ∨ Acknowledges a.entity g g.ackSn.value v) m → got m := by
  have hWindow := hSends.le_next
  have hLow : a.vtA ≤ base := by
    by_contra hAbove
    exact hMissing (hKnows base (.inl (Nat.lt_of_not_le hAbove)))
  have hTopAt := offset_base (by omega : a.vtA ≤ top) (by omega)
  rw [hSends.low, hTop] at hTopAt
  have hNew : ∀ m, a.vtA ≤ m → m < a.vtS →
      acked (num m) ∨ Acknowledges a.entity g g.ackSn.value (num m) → got m := by
    rintro m hFromM hToM (hAcked | ⟨⟨-, hBelow, -⟩, hNot⟩)
    · exact hKnows m (.inr ⟨hToM, hAcked⟩)
    · have hAt := offset_base hFromM (hToM.trans_le (by omega))
      rw [hSends.low] at hAt
      exact (hAcks m (by omega)).resolve_right fun hNack => hNot hNack.2
  have hAhead := hDone.ahead
  have hNext := hSends.next
  rintro m (hBelow | ⟨hBelow, hAcked⟩)
  · by_cases hFromM : a.vtA ≤ m
    · have hAt := offset_base hFromM (by omega : m < a.vtA + 1024)
      rw [hSends.low] at hAt
      exact hNew m hFromM (by omega) (hDone.passed (num m) (by omega))
    · exact hKnows m (.inl (Nat.lt_of_not_le hFromM))
  · by_cases hFromM : a.vtA ≤ m
    · exact hNew m hFromM (hS ▸ hBelow) hAcked
    · exact hKnows m (.inl (Nat.lt_of_not_le hFromM))

/-- The sender when it has processed a STATUS PDU. -/
theorem Sends.processed {acked' : Fin 1024 → Prop} (h : a.Sends acked cut content)
    (hDone : Processed a.entity acked' Readable t) (hRetains : Retains a.entity t)
    (hReceiver : t.Receiver) (heard : ℕ) :
    Sends { a with
      entity := t
      vtA := a.vtA + offset a.entity.vtA.value t.vtA.value
      heard := heard } acked' cut content := by
  have hTxon : t.txonBuffer = a.entity.txonBuffer := (congrArg txonBuffer hDone.same :)
  have hSize : t.txonBufferSize = a.entity.txonBufferSize := (congrArg txonBufferSize hDone.same :)
  have hAhead := hDone.ahead
  have hWindow := h.le_next
  have hNext := h.next
  have hLow : num (a.vtA + offset a.entity.vtA.value t.vtA.value) = t.vtA.value := num_offset h.low _
  have hOldS := h.numS
  refine ⟨⟨⟨hTxon ▸ h.entity.transmitter.waiting, ?_, hDone.window, hDone.buffers⟩, hReceiver⟩, hLow, ?_,
    ?_, h.chain, fun v p hStored => ?_, h.sent⟩
  · rw [hTxon, hSize]
    exact h.entity.transmitter.txon
  · have hSum := offset_base
      (by omega : a.vtA + offset a.entity.vtA.value t.vtA.value ≤ a.vtS) (by omega)
    rw [hLow, hOldS, ← hDone.vtS] at hSum
    exact hSum.symm
  · dsimp only
    rw [hTxon]
    exact h.waits
  · have hIn : t.InWindow v := by
      rcases hStored with hTxed | hRetx
      · exact (hDone.buffers.due_of_txed hTxed).1.1
      · exact (hDone.buffers.due_of_retx hRetx).1.1
    have hSum := offset_base
      (by omega : a.vtA + offset a.entity.vtA.value t.vtA.value ≤ a.vtS) (by omega)
    rw [hLow, hOldS, ← hDone.vtS] at hSum
    have hBelow : offset t.vtA.value v < offset t.vtA.value t.vtS.value := hIn
    have hSame : a.vtA + offset a.entity.vtA.value t.vtA.value + offset t.vtA.value v =
        a.vtA + offset a.entity.vtA.value v := by
      have hBound := offset_lt a.entity.vtA.value v
      apply (num_inj (a := a.vtA) (by omega) (by omega) (by omega) (by omega)).mp
      rw [num_offset hLow, num_offset h.low]
    dsimp only
    rw [hSame]
    exact h.stored v p (hRetains v p hStored)

theorem flow_status (hOut : Flow a b) (hIn : Flow b a) (hItem : b.sent[n]? = some item)
    (hStatus : ¬ item.IsData) (hMet : a.heard ≤ n + 1) :
    ∃ a', a.act b (.arrive n) = some a' ∧ Flow a' b ∧ Flow b a' := by
  obtain ⟨acked, cut, content, got, gotAt, hSends, hTakes, hAnswers⟩ := hOut
  obtain ⟨base, hReports⟩ := hAnswers.reports n item hItem hStatus
  obtain ⟨g, hPeek, hIsStatus, top, hFrom, hTo, hTop, hAcks, hNacks⟩ := hReports.read
  have hLt : n < b.sent.length := (List.getElem?_eq_some_iff.mp hItem).1
  have hKnows : ∀ m, a.Knows acked m → gotAt n m := fun m => hAnswers.heard n m hLt hMet
  obtain ⟨t, hReceive, hDone⟩ := receiveStatus_spec hIsStatus hSends.entity.transmitter.window
    hSends.entity.transmitter.buffers fun v hBetween hNack =>
      nacks_not_acked hSends hKnows hReports.missing hFrom hTo hNacks hBetween.2.2 hNack
  have hSide := receiveStatus_side hReceive
  have hRun : a.entity.doReceivePdu item.pdu = some (t, []) := by
    have hControl : g.dataControlBit = CONTROL_PDU := hIsStatus.1
    rw [doReceivePdu, hPeek, Option.bind_eq_bind, Option.bind_some, hControl, if_neg (by decide),
      if_pos rfl, hReceive]
    rfl
  have hAssembly : t.assembly = a.entity.assembly := (congrArg assembly hDone.same :)
  have hR : t.vrR = a.entity.vrR := (congrArg LteRlcAm.vrR hAssembly :)
  have hReceiver : t.Receiver := hSends.entity.receiver.of_same
    (congrArg (fun t : LteRlcAm => { t with txonBuffer := [], txonBufferSize := 0 }) hDone.same)
  have hTurn : a.act b (.arrive n) = some { a with
      entity := t
      vtA := a.vtA + offset a.entity.vtA.value t.vtA.value
      heard := n + 1 } := by
    rw [act, hItem, Option.bind_some, hRun, Option.map_some, if_neg hStatus, turn]
    simp [hR, hDone.vtS]
  refine ⟨_, hTurn, ?_, ?_⟩
  · have hKnown : ∀ m, Knows { a with
          entity := t
          vtA := a.vtA + offset a.entity.vtA.value t.vtA.value
          heard := n + 1 } (fun v => acked v ∨ Acknowledges a.entity g g.ackSn.value v) m →
        gotAt n m :=
      knows_processed hSends hKnows hReports.missing hFrom hTo hTop hAcks hDone rfl rfl
    exact ⟨_, cut, content, got, gotAt,
      hSends.processed hDone (receiveStatus_retains hReceive) hReceiver _, hTakes,
      fun m hKnow => hAnswers.past n m hLt (hKnown m hKnow), hAnswers.past, hAnswers.grows,
      hAnswers.reports, fun j m hJ hHeard hKnow =>
        hAnswers.grows n j m (Nat.le_of_succ_le_succ hHeard) hJ (hKnown m hKnow)⟩
  · exact hIn.answers [] (List.append_nil _).symm
      (fun got hReceiving => hReceiving.of_receivingSide hSide) hAssembly rfl rfl
      fun _ _ _ _ _ _ _ hMem => absurd hMem List.not_mem_nil

/-! ## Opportunities -/

theorem flow_statusPdu {bytes : ℕ} (hOut : Flow a b) (hIn : Flow b a) (hBytes : 4 ≤ bytes) :
    ∃ r, a.entity.transmitStatusPdu bytes = some r ∧ Flow (a.turn r) b ∧ Flow b (a.turn r) := by
  obtain ⟨_, _, _, got, _, -, hTakes, -⟩ := id hIn
  obtain ⟨p, hRun, hReports⟩ := hTakes.receiving.reports hTakes.base hTakes.holding.top hBytes
  have hReceives := receives_afterStatus hTakes.receiving.receiver
  have hStatus : ¬ AmSent.IsData ⟨p, a.number p⟩ := fun hData =>
    absurd (hReports.control.symm.trans hData) (by decide)
  refine ⟨_, hRun, ?_⟩
  rw [turn_sends (t := a.entity.afterStatus) rfl rfl rfl]
  constructor
  · refine hOut.receives [⟨p, a.number p⟩] ⟨rfl, rfl, rfl, rfl⟩ rfl hReceives ?_
    intro item hMem
    rw [List.mem_singleton.mp hMem]
    exact hStatus
  · refine hIn.answers [⟨p, a.number p⟩] rfl (fun got hReceiving => ?_) rfl rfl rfl ?_
    · exact hReceiving.of_same hReceives.receiver ⟨rfl, rfl, rfl, rfl⟩ rfl rfl rfl
    · intro l cut content sent got hTakes' item hMem _
      obtain ⟨p', hRun', hReports'⟩ :=
        hTakes'.receiving.reports hTakes'.base hTakes'.holding.top hBytes
      cases hRun.symm.trans hRun'
      rw [List.mem_singleton.mp hMem]
      exact hReports'

/-- A PDU is sent again that is kept. -/
theorem retransmit_cases {s : LteRlcAm} (bytes : ℕ) (h : Transmitter s acked Readable)
    (hRetx : 0 < s.retxBufferSize) : ∃ t out, s.retransmit bytes = some (t, out) ∧
      Transmitter t acked Readable ∧ SameWindow s t ∧
        (out = [] ∨ ∃ v p g polled, s.Stored v p ∧ p.removeHeader = some (g, p.data) ∧
          out = [.transmitPdu ⟨g.setPollingBit polled, p.data⟩]) := by
  have hKinds : Transmitter s acked fun p => Readable p ∧ ∃ v, s.Stored v p :=
    ⟨h.waiting, h.txon, h.window, ⟨h.buffers.txed, h.buffers.retx, h.buffers.held, h.buffers.free,
      fun v p hHeld => ⟨h.buffers.ofKind v p hHeld, v, hHeld⟩⟩⟩
  obtain ⟨t, out, hRun, hDone, hSame, hResends⟩ :=
    retransmit_spec (n := bytes) hKinds (fun p hKind => hKind.1) hRetx
  refine ⟨t, out, hRun, ⟨hDone.waiting, hDone.txon, hDone.window,
    hDone.buffers.mono fun p hKind => hKind.1⟩, hSame, ?_⟩
  rcases hResends with hNone | ⟨p, g, polled, ⟨-, v, hHeld⟩, hRead, hOut⟩
  · exact .inl hNone
  · exact .inr ⟨v, p, g, polled, hHeld, hRead, hOut⟩

theorem Sends.inWindow_of_stored {v : Fin 1024} (h : a.Sends acked cut content)
    (hStored : a.entity.Stored v p) : a.vtA + offset a.entity.vtA.value v < a.vtS := by
  have hIn : a.entity.InWindow v := by
    rcases hStored with hTxed | hRetx
    · exact (h.entity.transmitter.buffers.due_of_txed hTxed).1.1
    · exact (h.entity.transmitter.buffers.due_of_retx hRetx).1.1
  have hNext := h.next
  have hBelow : offset a.entity.vtA.value v < offset a.entity.vtA.value a.entity.vtS.value := hIn
  omega

theorem flow_retransmit {bytes : ℕ} (hOut : Flow a b) (hIn : Flow b a)
    (hRetx : 0 < a.entity.retxBufferSize) :
    ∃ r, a.entity.retransmit bytes = some r ∧ Flow (a.turn r) b ∧ Flow b (a.turn r) := by
  obtain ⟨_, _, _, _, _, hSends, -⟩ := id hOut
  obtain ⟨t, out, hRun, -, hSame, hCases⟩ :=
    retransmit_cases bytes hSends.entity.transmitter hRetx
  have hQueue := sameQueue_of_sameWindow hSame (retransmit_retains hRun)
  have hAssembly := sameWindow_assembly hSame
  have hEntity : ∀ acked, Entity a.entity acked → Entity t acked := by
    intro acked hEntity
    obtain ⟨t', out', hRun', hTransmitter, -⟩ :=
      retransmit_cases bytes hEntity.transmitter hRetx
    cases hRun.symm.trans hRun'
    exact ⟨hTransmitter, hEntity.receiver.of_same hSame.receiverSide_eq⟩
  refine ⟨_, hRun, ?_⟩
  rcases hCases with rfl | ⟨v, p, g, polled, hStored, hRead, rfl⟩
  · exact flow_quiet hOut hIn hEntity hQueue (fun got => sameWindow_receiving hSame) hAssembly
      quiet_nil
  · rw [turn_sends hSame.vtA hSame.vtS (congrArg LteRlcAm.vrR hAssembly :)]
    constructor
    · refine hOut.of_sameQueue [⟨_, _⟩] ⟨rfl, rfl, rfl, rfl⟩ rfl hEntity hQueue ?_
      intro acked cut content hSends item hMem _
      have hBrings := (hSends.stored v p hStored).setPollingBit hRead polled
      have hNumber : a.number ⟨g.setPollingBit polled, p.data⟩ =
          a.vtA + offset a.entity.vtA.value v := by
        rw [number, hBrings.header.2, num_offset hSends.low]
      rw [List.mem_singleton.mp hMem]
      dsimp only
      rw [hNumber]
      exact ⟨hSends.inWindow_of_stored hStored, hBrings⟩
    · refine hIn.answers [⟨_, _⟩] rfl (fun got => sameWindow_receiving hSame) hAssembly rfl
        rfl ?_
      intro l cut content sent got hTakes item hMem hStatus
      have hBrings := (hSends.stored v p hStored).setPollingBit hRead polled
      rw [List.mem_singleton.mp hMem] at hStatus
      exact absurd hBrings.header.1 hStatus

theorem turn_new (hA : t.vtA = a.entity.vtA) (hS : t.vtS = a.entity.vtS.increment)
    (hR : t.vrR = a.entity.vrR) : a.turn (t, [.transmitPdu p]) =
      { a with entity := t, sent := a.sent ++ [⟨p, a.number p⟩], vtS := a.vtS + 1 } := by
  have hOne : offset a.entity.vtS.value a.entity.vtS.increment.value = 1 := by
    have hNext := offset_add_one (a := a.entity.vtS.value) (v := a.entity.vtS.value)
    rw [offset_self] at hNext
    exact hNext (by decide)
  unfold turn
  simp [hA, hS, hR, hOne, sentPdu, deliveredSdu]

/-- The sender when it has sent a new PDU. -/
theorem Sends.new {d : Cut} (h : a.Sends acked cut content)
    (hEntity : Entity t fun v => acked v ∧ v ≠ a.entity.vtS.value) (hA : t.vtA = a.entity.vtA)
    (hS : t.vtS = a.entity.vtS.increment)
    (hRetains : ∀ w q, t.Stored w q → a.entity.Stored w q ∨ w = a.entity.vtS.value ∧ q = p)
    (hFollows : Follows a.sdus (cut a.vtS) d)
    (hBrings : p.Brings a.vtS (.between a.sdus (cut a.vtS) d))
    (hWaits : LteRlcUm.Waits t.txonBuffer a.sdus d) :
    Sends { a with entity := t, sent := a.sent ++ [⟨p, a.number p⟩], vtS := a.vtS + 1 }
      (fun v => acked v ∧ v ≠ a.entity.vtS.value) (Function.update cut (a.vtS + 1) d)
      (Function.update content a.vtS (.between a.sdus (cut a.vtS) d)) := by
  have hNext := h.next
  have hAhead := h.entity.transmitter.window.ahead_le
  have hUpdated := Function.update_self a.vtS (Content.between a.sdus (cut a.vtS) d) content
  have hNumber : a.number p = a.vtS := by
    rw [number, hBrings.header.2, h.numS, ← hNext]
  refine ⟨hEntity, hA ▸ h.low, ?_, ?_, h.chain.next hFollows, fun w q hStored => ?_,
    fun item hMem hData => ?_⟩
  · have hOne : offset a.entity.vtA.value a.entity.vtS.increment.value =
        offset a.entity.vtA.value a.entity.vtS.value + 1 := offset_add_one (by omega)
    dsimp only
    rw [hA, hS, hOne, hNext]
    rfl
  · dsimp only
    rw [Function.update_self]
    exact hWaits
  · dsimp only
    rw [hA]
    rcases hRetains w q hStored with hOld | ⟨rfl, rfl⟩
    · rw [Function.update_of_ne (h.inWindow_of_stored hOld).ne]
      exact h.stored w q hOld
    · rw [← hNext, hUpdated]
      exact hBrings
  · rcases List.mem_append.mp hMem with hOld | hAdded
    · obtain ⟨hLt, hItem⟩ := h.sent item hOld hData
      refine ⟨Nat.lt_succ_of_lt hLt, ?_⟩
      rw [Function.update_of_ne hLt.ne]
      exact hItem
    · rw [List.mem_singleton.mp hAdded]
      dsimp only
      rw [hNumber, hUpdated]
      exact ⟨Nat.lt_succ_self a.vtS, hBrings⟩

/-- A number that was used before is no longer taken for received. -/
theorem Answers.new (h : a.Answers b acked got gotAt) (hSends : a.Sends acked cut content)
    (hA : a'.vtA = a.vtA) (hS : a'.vtS = a.vtS + 1) (hHeard : a'.heard = a.heard) :
    a'.Answers b (fun v => acked v ∧ v ≠ a.entity.vtS.value) got gotAt := by
  have hKnows : ∀ m, a'.Knows (fun v => acked v ∧ v ≠ a.entity.vtS.value) m → a.Knows acked m := by
    rintro m (hBelow | ⟨hBelow, hAcked, hOther⟩)
    · exact .inl (hA ▸ hBelow)
    · rw [hS] at hBelow
      rw [← hSends.numS] at hOther
      exact .inr ⟨Nat.lt_of_le_of_ne (Nat.le_of_lt_succ hBelow) fun hEq => hOther (hEq ▸ rfl), hAcked⟩
  refine ⟨fun m hKnown => h.knows m (hKnows m hKnown), h.past, h.grows, fun k item hItem hStatus => ?_,
    fun k m hLt hHeardK hKnown => h.heard k m hLt (hHeard ▸ hHeardK) (hKnows m hKnown)⟩
  obtain ⟨base, hReports⟩ := h.reports k item hItem hStatus
  exact ⟨base, hReports.mono (hS ▸ Nat.le_succ a.vtS)⟩

theorem flow_newPdu {bytes : ℕ} (hOut : Flow a b) (hIn : Flow b a)
    (hTxon : 0 < a.entity.txonBufferSize) (hNotFull : a.entity.vtS.value ≠ a.entity.vtMs.value)
    (hBytes : 7 ≤ bytes) (hSmall : a.entity.txonBuffer.length ≤ 43688 ∨ bytes < 109224) :
    ∃ r, a.entity.transmitNewPdu bytes = some r ∧ Flow (a.turn r) b ∧ Flow b (a.turn r) := by
  obtain ⟨acked, cut, content, got, gotAt, hSends, hTakes, hAnswers⟩ := hOut
  obtain ⟨t, p, full, sdu, k, remaining, hRun, hNew, hSide, hTransmitter⟩ :=
    transmitNewPdu_spec hSends.entity.transmitter hTxon hNotFull hBytes hSmall
  obtain ⟨d, hFollows, hBrings, hWaits⟩ := hNew.brings hSends.waits hSends.numS.symm
  have hAssembly : t.assembly = a.entity.assembly := (congrArg assembly hSide :)
  have hEntity : Entity t fun v => acked v ∧ v ≠ a.entity.vtS.value := by
    refine ⟨⟨hTransmitter.waiting, hTransmitter.txon, hTransmitter.window,
      hTransmitter.buffers.mono ?_⟩, hSends.entity.receiver.of_same hSide⟩
    rintro q (hReadable | rfl)
    · exact hReadable
    · obtain ⟨_, hCarries, -⟩ := hBrings.2
      exact ⟨_, hCarries⟩
  refine ⟨_, hRun, ?_⟩
  rw [turn_new hNew.vtA hNew.vtS (congrArg LteRlcAm.vrR hAssembly :)]
  constructor
  · exact ⟨_, _, _, got, gotAt, hSends.new hEntity hNew.vtA hNew.vtS (transmitNewPdu_retains hRun)
      hFollows hBrings hWaits, ⟨hTakes.receiving, hTakes.base, hTakes.holding.next d _⟩,
      hAnswers.new hSends rfl rfl rfl⟩
  · refine hIn.answers [⟨p, a.number p⟩] rfl (fun got hReceiving => ?_) hAssembly rfl rfl ?_
    · exact hReceiving.of_receivingSide (congrArg receivingSide hSide :)
    · intro l cut content sent got hTakes item hMem hStatus
      rw [List.mem_singleton.mp hMem] at hStatus
      exact absurd hBrings.header.1 hStatus

theorem flow_opportunity {bytes : ℕ} (hOut : Flow a b) (hIn : Flow b a)
    (hMet : a.Met b (.opportunity bytes)) :
    ∃ a', a.act b (.opportunity bytes) = some a' ∧ Flow a' b ∧ Flow b a' := by
  suffices hRun : ∃ r, a.entity.doNotifyTxOpportunity bytes = some r ∧ Flow (a.turn r) b ∧
      Flow b (a.turn r) by
    obtain ⟨r, hRun, hFlow⟩ := hRun
    refine ⟨a.turn r, ?_, hFlow⟩
    rw [act, hRun]
    rfl
  obtain ⟨_, _, _, _, _, hSends, -⟩ := id hOut
  have hWindow := hSends.entity.transmitter.window
  have hIdle : Flow (a.turn (a.entity, [])) b ∧ Flow b (a.turn (a.entity, [])) :=
    flow_quiet hOut hIn (fun _ hEntity => hEntity) ⟨rfl, rfl, rfl, .refl _⟩
      (fun _ hReceiving => hReceiving) rfl quiet_nil
  obtain ⟨hBytes, hNew⟩ := hMet
  rw [doNotifyTxOpportunity, if_neg (Nat.not_lt.mpr hBytes)]
  split
  case isTrue => exact flow_statusPdu hOut hIn hBytes
  case isFalse hNoStatus =>
  split
  case isTrue hRetx => exact flow_retransmit hOut hIn hRetx
  case isFalse hNoRetx =>
  split
  case isFalse => exact ⟨_, rfl, hIdle⟩
  case isTrue hTxon =>
  have hTakes : a.entity.TakesNew := by
    refine ⟨by simpa using hNoStatus, ?_, hTxon⟩
    by_contra hNe
    exact hNoRetx (UInt32.pos_iff_ne_zero.mpr hNe)
  obtain ⟨hSeven, hSmall⟩ := hNew hTakes
  have hLe : a.entity.vtS.le a.entity.vtMs = some true := by
    rw [le_eq hWindow.baseS hWindow.baseMs, decide_eq_true hWindow.ahead]
  rw [if_neg (Nat.not_lt.mpr hSeven), hLe, Option.bind_eq_bind, Option.bind_some, if_pos rfl]
  split
  case isTrue => exact ⟨_, rfl, hIdle⟩
  case isFalse hNotFull => exact flow_newPdu hOut hIn hTxon hNotFull hSeven hSmall

end AmPeer

end Bullet.Rlc
