import Bullet.Rlc.AmTransmitter

/-! # Runs of a transmitting entity

An entity is given SDUs, opportunities, STATUS PDUs and expiries of its timers in any order, while its
receiving side goes its own way. Its counters, its window and its buffers of transmitted PDUs agree as
long as no STATUS PDU reports a number missing that is acknowledged already, and no assertion fails.
-/

namespace Bullet.Rlc.LteRlcAm

open SequenceNumber10 LteRlcAmHeader Lib.SizedTable

/-- An entity as it is created. -/
def initial (maxTxBufferSize : UInt32) (txOpportunityForRetxAlwaysBigEnough : Bool) : LteRlcAm where
  maxTxBufferSize := maxTxBufferSize
  txOpportunityForRetxAlwaysBigEnough := txOpportunityForRetxAlwaysBigEnough

inductive Event
  | sdu (p : List UInt8)
  | opportunity (bytes : ℕ)
  | status (p : AmPdu)
  | pollRetransmitTimer
  | rbsTimer

def handle (s : LteRlcAm) : Event → Option (LteRlcAm × List Output)
  | .sdu p => s.doTransmitPdcpPdu p
  | .opportunity bytes => s.doNotifyTxOpportunity bytes
  | .status p => s.doReceivePdu p
  | .pollRetransmitTimer => s.expirePollRetransmitTimer
  | .rbsTimer => s.expireRbsTimer

/-- The receiving side handles a data PDU or one of its timers. -/
inductive ReceiverStep (s : LteRlcAm) : LteRlcAm → Prop
  | data {s' : LteRlcAm} {p : AmPdu} {h : LteRlcAmHeader} {out : List Output} :
    p.peekHeader = some h → h.dataControlBit = DATA_PDU → s.doReceivePdu p = some (s', out) →
      ReceiverStep s s'
  | reorderingTimer {s' : LteRlcAm} : s.expireReorderingTimer = some s' → ReceiverStep s s'
  | statusProhibitTimer : ReceiverStep s s.expireStatusProhibitTimer

/-- The opportunity is used for new data. -/
def TakesNew (s : LteRlcAm) : Prop :=
  (s.statusPduRequested && !s.statusProhibitTimer) = false ∧ s.retxBufferSize = 0 ∧
    0 < s.txonBufferSize

/-- What an event must meet. -/
def Met (s : LteRlcAm) (acked : Fin 1024 → Prop) : Event → Prop
  | .sdu p => p ≠ []
  | .opportunity bytes => 4 ≤ bytes ∧
    (s.TakesNew → 7 ≤ bytes ∧ (s.txonBuffer.length ≤ 43688 ∨ bytes < 109224))
  | .status p => ∃ h, p.peekHeader = some h ∧ h.IsStatusPdu ∧
    ∀ v, s.Between s.vtA.value h.ackSn.value v → Nacks h v → ¬ acked v
  | .pollRetransmitTimer => True
  | .rbsTimer => True

/-- The numbers that are acknowledged after an event: those of a STATUS PDU, and no number that has
just been sent. -/
def acknowledged (s : LteRlcAm) (acked : Fin 1024 → Prop) (s' : LteRlcAm) :
    Event → Fin 1024 → Prop
  | .opportunity _, v => acked v ∧ (v = s.vtS.value → s'.vtS = s.vtS)
  | .status p, v => acked v ∨ ∃ h, p.peekHeader = some h ∧ Acknowledges s h h.ackSn.value v
  | _, v => acked v

inductive Run (maxTxBufferSize : UInt32) (alwaysBigEnough : Bool) :
    LteRlcAm → (Fin 1024 → Prop) → Prop
  | start : Run maxTxBufferSize alwaysBigEnough (initial maxTxBufferSize alwaysBigEnough)
      fun _ => False
  | step {s s' : LteRlcAm} {acked : Fin 1024 → Prop} {e : Event} {out : List Output} :
    Run maxTxBufferSize alwaysBigEnough s acked → Met s acked e → s.handle e = some (s', out) →
      Run maxTxBufferSize alwaysBigEnough s' (acknowledged s acked s' e)
  | receiver {s s' : LteRlcAm} {acked : Fin 1024 → Prop} :
    Run maxTxBufferSize alwaysBigEnough s acked → ReceiverStep s s' →
      Run maxTxBufferSize alwaysBigEnough s' acked

/-- The counters, in 32 bits, the buffers and the window of the transmitting side. -/
structure Consistent (s : LteRlcAm) (acked : Fin 1024 → Prop) : Prop where
  txon : s.txonBufferSize = UInt32.ofNat (s.txonBuffer.map Sdu.getSize).sum
  txed : s.txedBufferSize = UInt32.ofNat (total AmPdu.getSize s.txedBuffer)
  retx : s.retxBufferSize = UInt32.ofNat (total AmPdu.getSize s.retxBuffer)
  held : ∀ v, s.InWindow v → ¬ acked v → ((s.txedBuffer v).isSome ↔ s.retxBuffer v = none)
  top : s.vtMs.value = s.vtA.value + 512
  ahead : offset s.vtA.value s.vtS.value ≤ offset s.vtA.value s.vtMs.value

variable {s s' : LteRlcAm} {acked : Fin 1024 → Prop} {kind : AmPdu → Prop} {out : List Output}

theorem Transmitter.consistent (h : Transmitter s acked kind) : Consistent s acked where
  txon := h.txon
  txed := h.buffers.txed
  retx := h.buffers.retx
  held v hIn hNot := h.buffers.held v ⟨hIn, hNot⟩
  top := h.window.top
  ahead := h.window.ahead

/-! ## Each event -/

/-- A PDU whose header can be read. -/
def Readable (p : AmPdu) : Prop := ∃ d, p.Carries d

/-- Both sides. -/
structure Entity (s : LteRlcAm) (acked : Fin 1024 → Prop) : Prop where
  transmitter : Transmitter s acked Readable
  receiver : Receiver s

theorem Transmitter.report (h : Transmitter s acked kind) :
    ∃ out, s.doReportBufferStatus = some out := by
  have hQueued : ¬ (0 < s.txonBufferSize ∧ s.txonBuffer = []) := by
    rintro ⟨hPos, hEmpty⟩
    have hSize := h.txon
    rw [hEmpty] at hSize
    rw [hSize] at hPos
    exact absurd hPos (by decide)
  rw [doReportBufferStatus, if_neg hQueued, ← Option.isSome_iff_exists]
  dsimp only
  split <;> split <;> rfl

theorem entity_initial (maxTxBufferSize : UInt32) (alwaysBigEnough : Bool) :
    Entity (initial maxTxBufferSize alwaysBigEnough) fun _ => False := by
  have hNone : ∀ v, ¬ Due (initial maxTxBufferSize alwaysBigEnough) (fun _ => False) v := by
    rintro v ⟨hIn, -⟩
    have hZero : offset 0 0 = 0 := offset_self 0
    have hBelow : offset 0 v < offset 0 0 := hIn
    omega
  have hEmpty : Counts (fun _ => none) 0 := by
    rw [Counts, total_empty]
    rfl
  refine ⟨⟨?_, rfl, ⟨rfl, rfl, rfl, rfl, ?_⟩, ⟨hEmpty, hEmpty, ?_, fun v _ => ⟨rfl, rfl⟩, ?_⟩⟩,
    ⟨rfl, rfl, rfl, rfl, Nat.zero_le 4⟩⟩
  · rintro p hMem
    cases hMem
  · change offset 0 0 ≤ _
    rw [offset_self]
    exact Nat.zero_le _
  · intro v hDue
    exact absurd hDue (hNone v)
  · rintro v p (hHeld | hHeld)
    · cases hHeld
    · cases hHeld

theorem Entity.of_same (h : Entity s acked) (hSame : SameWindow s s')
    (hBuffers : Buffers s' (Due s acked) Readable) : Entity s' acked :=
  ⟨h.transmitter.of_buffers hSame hBuffers, h.receiver.of_same hSame.receiverSide_eq⟩

theorem entity_rbsTimer_flag (h : Entity s acked) (running : Bool) :
    Entity { s with rbsTimer := running } acked :=
  ⟨⟨h.transmitter.waiting, h.transmitter.txon, ⟨h.transmitter.window.baseA,
    h.transmitter.window.baseS, h.transmitter.window.baseMs, h.transmitter.window.top,
    h.transmitter.window.ahead⟩, ⟨h.transmitter.buffers.txed, h.transmitter.buffers.retx,
    h.transmitter.buffers.held, h.transmitter.buffers.free, h.transmitter.buffers.ofKind⟩⟩,
    ⟨h.receiver.baseR, h.receiver.baseX, h.receiver.baseMs, h.receiver.baseH,
      h.receiver.statusPdu⟩⟩

/-- An SDU that is accepted waits behind the others. -/
theorem entity_append {p : List UInt8} (h : Entity s acked) (hSdu : p ≠ []) :
    Entity { s with
      txonBuffer := s.txonBuffer ++ [⟨p, .FULL_SDU⟩]
      txonBufferSize := s.txonBufferSize + UInt32.ofNat p.length } acked := by
  refine ⟨⟨?_, ?_, ⟨h.transmitter.window.baseA,
    h.transmitter.window.baseS, h.transmitter.window.baseMs, h.transmitter.window.top,
    h.transmitter.window.ahead⟩, ⟨h.transmitter.buffers.txed, h.transmitter.buffers.retx,
    h.transmitter.buffers.held, h.transmitter.buffers.free, h.transmitter.buffers.ofKind⟩⟩,
    ⟨h.receiver.baseR, h.receiver.baseX, h.receiver.baseMs, h.receiver.baseH,
      h.receiver.statusPdu⟩⟩
  · intro q hMem
    rcases List.mem_append.mp hMem with hOld | hNew
    · exact h.transmitter.waiting q hOld
    · cases List.mem_singleton.mp hNew
      exact ⟨List.length_pos_iff.mpr hSdu, Or.inl rfl⟩
  · change s.txonBufferSize + UInt32.ofNat p.length = bufferSize (s.txonBuffer ++ [⟨p, .FULL_SDU⟩])
    rw [bufferSize_append, h.transmitter.txon]
    rfl

theorem entity_sdu {p : List UInt8} (h : Entity s acked) (hSdu : p ≠ []) :
    ∃ s' out, s.doTransmitPdcpPdu p = some (s', out) ∧ Entity s' acked := by
  have hQueued : Entity (if s.txonBufferSize + UInt32.ofNat p.length ≤ s.maxTxBufferSize ∨
      s.maxTxBufferSize = 0 then
      { s with
        txonBuffer := s.txonBuffer ++ [⟨p, .FULL_SDU⟩]
        txonBufferSize := s.txonBufferSize + UInt32.ofNat p.length }
      else s) acked := by
    split
    · exact entity_append h hSdu
    · exact h
  obtain ⟨out, hReport⟩ := hQueued.transmitter.report
  refine ⟨_, out, ?_, entity_rbsTimer_flag hQueued true⟩
  rw [doTransmitPdcpPdu, hReport]
  rfl

/-! ## The retransmission timer -/

theorem moveLoop_spec {due : Fin 1024 → Prop} {fuel : ℕ} {sn : SequenceNumber10}
    (hWindow : Window s) (hSn : sn.modulusBase = s.vtA.value) (hBuffers : Buffers s due kind)
    (hFuel : offset s.vtA.value s.vtS.value - offset s.vtA.value sn.value < fuel) :
    ∃ s', moveLoop fuel s sn = some s' ∧ SameWindow s s' ∧ Buffers s' due kind := by
  induction fuel generalizing s sn with
  | zero => omega
  | succ fuel ih =>
    rw [moveLoop, lt_eq hSn hWindow.baseS, Option.bind_eq_bind, Option.bind_some]
    by_cases hBelow : offset s.vtA.value sn.value < offset s.vtA.value s.vtS.value
    case neg =>
      rw [if_neg (by simpa using hBelow)]
      exact ⟨s, rfl, ⟨rfl, rfl, rfl, rfl⟩, hBuffers⟩
    case pos =>
      rw [if_pos (by simpa using hBelow)]
      obtain ⟨hMoved, hOnly⟩ := hBuffers.moveToRetx sn.value
      have hSame := hOnly.sameWindow
      have hLt := offset_lt s.vtA.value s.vtS.value
      have hNext : offset s.vtA.value sn.increment.value = offset s.vtA.value sn.value + 1 :=
        offset_add_one (by omega)
      have hBase : sn.increment.modulusBase = (s.moveToRetx sn.value).vtA.value := by
        rw [hSame.vtA]
        exact hSn
      have hLeft : offset (s.moveToRetx sn.value).vtA.value (s.moveToRetx sn.value).vtS.value -
          offset (s.moveToRetx sn.value).vtA.value sn.increment.value < fuel := by
        rw [hSame.vtA, hSame.vtS]
        omega
      obtain ⟨s', hLoop, hSame', hBuffers'⟩ := ih (hSame.window hWindow) hBase hMoved hLeft
      exact ⟨s', hLoop, hSame.trans hSame', hBuffers'⟩

theorem entity_pollRetransmitTimer (h : Entity s acked) :
    ∃ s' out, s.expirePollRetransmitTimer = some (s', out) ∧ Entity s' acked := by
  have hExpired : Entity
      { s with pollRetransmitTimer := false, pollRetransmitTimerJustExpired := true } acked :=
    h.of_same ⟨rfl, rfl, rfl, rfl⟩ ⟨h.transmitter.buffers.txed, h.transmitter.buffers.retx,
      h.transmitter.buffers.held, h.transmitter.buffers.free, h.transmitter.buffers.ofKind⟩
  have hLe : s.vtS.le s.vtMs = some true := by
    rw [le_eq h.transmitter.window.baseS h.transmitter.window.baseMs,
      decide_eq_true h.transmitter.window.ahead]
  have hBound := offset_lt s.vtA.value s.vtS.value
  rw [expirePollRetransmitTimer]
  dsimp only
  rw [hLe, Option.bind_eq_bind, Option.bind_some, if_pos rfl]
  split
  case isTrue =>
    obtain ⟨s', hLoop, hSame, hBuffers⟩ := moveLoop_spec hExpired.transmitter.window
      hExpired.transmitter.window.baseA hExpired.transmitter.buffers
      (Nat.lt_of_le_of_lt (Nat.sub_le _ _) hBound)
    have hMoved := hExpired.of_same hSame hBuffers
    obtain ⟨out, hReport⟩ := hMoved.transmitter.report
    refine ⟨s', out, ?_, hMoved⟩
    change (moveLoop 1024 _ s.vtA).bind _ = _
    rw [hLoop]
    change s'.doReportBufferStatus.bind _ = _
    rw [hReport]
    rfl
  case isFalse =>
    obtain ⟨out, hReport⟩ := hExpired.transmitter.report
    refine ⟨_, out, ?_, hExpired⟩
    change (doReportBufferStatus _).bind _ = _
    rw [hReport]
    rfl

theorem entity_rbsTimer (h : Entity s acked) :
    ∃ s' out, s.expireRbsTimer = some (s', out) ∧ Entity s' acked := by
  obtain ⟨out, hReport⟩ := h.transmitter.report
  unfold expireRbsTimer
  split
  · rw [hReport]
    exact ⟨_, out, rfl, entity_rbsTimer_flag h true⟩
  · exact ⟨_, [], rfl, entity_rbsTimer_flag h false⟩

/-! ## Opportunities and STATUS PDUs -/

theorem acknowledged_same {n : ℕ} (hS : s'.vtS = s.vtS) :
    acknowledged s acked s' (.opportunity n) = acked := by
  funext v
  simp [acknowledged, hS]

theorem acknowledged_new {n : ℕ} (hS : s'.vtS = s.vtS.increment) :
    acknowledged s acked s' (.opportunity n) = fun v => acked v ∧ v ≠ s.vtS.value := by
  have hNe : s'.vtS ≠ s.vtS := by
    intro hEq
    have hValue : s.vtS.value + 1 = s.vtS.value := congrArg value (hS.symm.trans hEq)
    have hLt : (s.vtS.value + 1).val = s.vtS.value.val := congrArg Fin.val hValue
    rw [Fin.val_add] at hLt
    change (s.vtS.value.val + 1) % 1024 = _ at hLt
    omega
  funext v
  simp [acknowledged, hNe]

theorem Entity.receives (h : Entity s acked) (hReceives : Receives s s') : Entity s' acked :=
  ⟨h.transmitter.of_same hReceives.same, hReceives.receiver⟩

theorem entity_opportunity {n : ℕ} (h : Entity s acked) (hMet : Met s acked (.opportunity n)) :
    ∃ s' out, s.doNotifyTxOpportunity n = some (s', out) ∧
      Entity s' (acknowledged s acked s' (.opportunity n)) := by
  obtain ⟨hBytes, hNewMet⟩ := hMet
  have hWindow := h.transmitter.window
  rw [doNotifyTxOpportunity, if_neg (Nat.not_lt.mpr hBytes)]
  split
  case isTrue =>
    obtain ⟨header, hRun, -⟩ := transmitStatusPdu_spec h.receiver hBytes
    have hSameS : s.afterStatus.vtS = s.vtS := rfl
    refine ⟨_, _, hRun, ?_⟩
    rw [acknowledged_same hSameS]
    exact h.receives (receives_afterStatus h.receiver)
  case isFalse hNoStatus =>
  split
  case isTrue hRetx =>
    obtain ⟨s', out, hRun, hTransmitter, hSame, -⟩ :=
      retransmit_spec h.transmitter (fun _ hReadable => hReadable) hRetx
    refine ⟨s', out, hRun, ?_⟩
    rw [acknowledged_same hSame.vtS]
    exact ⟨hTransmitter, h.receiver.of_same hSame.receiverSide_eq⟩
  case isFalse hNoRetx =>
  split
  case isFalse =>
    refine ⟨s, [], rfl, ?_⟩
    rw [acknowledged_same rfl]
    exact h
  case isTrue hTxon =>
  have hTakes : s.TakesNew := by
    refine ⟨by simpa using hNoStatus, ?_, hTxon⟩
    by_contra hNe
    exact hNoRetx (UInt32.pos_iff_ne_zero.mpr hNe)
  obtain ⟨hSeven, hSmall⟩ := hNewMet hTakes
  have hLe : s.vtS.le s.vtMs = some true := by
    rw [le_eq hWindow.baseS hWindow.baseMs, decide_eq_true hWindow.ahead]
  rw [if_neg (Nat.not_lt.mpr hSeven), hLe, Option.bind_eq_bind, Option.bind_some, if_pos rfl]
  split
  case isTrue =>
    refine ⟨s, [], rfl, ?_⟩
    rw [acknowledged_same rfl]
    exact h
  case isFalse hNotFull =>
    obtain ⟨s', p, full, sdu, k, remaining, hRun, hNew, hSame, hTransmitter⟩ :=
      transmitNewPdu_spec h.transmitter hTxon hNotFull hSeven hSmall
    refine ⟨s', _, hRun, ?_⟩
    rw [acknowledged_new hNew.vtS]
    refine ⟨⟨hTransmitter.waiting, hTransmitter.txon, hTransmitter.window,
      hTransmitter.buffers.mono ?_⟩, h.receiver.of_same hSame⟩
    rintro q (hReadable | rfl)
    · exact hReadable
    · obtain ⟨first, polled, -, hCarries⟩ := hNew.carries
      exact ⟨_, hCarries⟩

theorem entity_status {p : AmPdu} (h : Entity s acked) (hMet : Met s acked (.status p)) :
    ∃ s' out, s.doReceivePdu p = some (s', out) ∧
      Entity s' (acknowledged s acked s' (.status p)) := by
  obtain ⟨header, hPeek, hStatus, hHeld⟩ := hMet
  obtain ⟨s', hRun, hDone⟩ :=
    receiveStatus_spec hStatus h.transmitter.window h.transmitter.buffers hHeld
  have hAcked : (fun v => acked v ∨ Acknowledges s header header.ackSn.value v) =
      acknowledged s acked s' (.status p) := by
    funext v
    simp [acknowledged, hPeek]
  have hTxon : s'.txonBuffer = s.txonBuffer := (congrArg txonBuffer hDone.same :)
  have hSize : s'.txonBufferSize = s.txonBufferSize := (congrArg txonBufferSize hDone.same :)
  have hSide : s'.receiverSide = s.receiverSide :=
    congrArg (fun t : LteRlcAm => { t with txonBuffer := [], txonBufferSize := 0 }) hDone.same
  refine ⟨s', [], ?_, ?_⟩
  · have hControl : header.dataControlBit = CONTROL_PDU := hStatus.1
    rw [doReceivePdu, hPeek, Option.bind_eq_bind, Option.bind_some, hControl,
      if_neg (by decide), if_pos rfl, hRun]
    rfl
  · rw [← hAcked]
    refine ⟨⟨hTxon ▸ h.transmitter.waiting, ?_, hDone.window, hDone.buffers⟩,
      h.receiver.of_same hSide⟩
    rw [hTxon, hSize]
    exact h.transmitter.txon

/-! ## Whole runs -/

theorem entity_handle {e : Event} (h : Entity s acked) (hMet : Met s acked e) :
    ∃ s' out, s.handle e = some (s', out) ∧ Entity s' (acknowledged s acked s' e) := by
  cases e with
  | sdu p => exact entity_sdu h hMet
  | opportunity n => exact entity_opportunity h hMet
  | status p => exact entity_status h hMet
  | pollRetransmitTimer => exact entity_pollRetransmitTimer h
  | rbsTimer => exact entity_rbsTimer h

theorem entity_receiverStep (h : Entity s acked) (hStep : ReceiverStep s s') : Entity s' acked := by
  cases hStep with
  | data hPeek hData hRun =>
    rw [doReceivePdu, hPeek, Option.bind_eq_bind, Option.bind_some, if_pos hData] at hRun
    exact h.receives (receives_receiveData h.receiver hRun)
  | reorderingTimer hRun => exact h.receives (receives_expireReorderingTimer h.receiver hRun)
  | statusProhibitTimer => exact h.receives (receives_expireStatusProhibitTimer h.receiver)

theorem run_entity {maxTxBufferSize : UInt32} {alwaysBigEnough : Bool}
    (hRun : Run maxTxBufferSize alwaysBigEnough s acked) : Entity s acked := by
  induction hRun with
  | start => exact entity_initial _ _
  | step _ hMet hStep ih =>
    obtain ⟨s', out, hHandled, hEntity⟩ := entity_handle ih hMet
    cases hStep.symm.trans hHandled
    exact hEntity
  | receiver _ hStep ih => exact entity_receiverStep ih hStep

/-- In every run all is consistent, and no event that meets its condition fails an assertion. -/
theorem run_consistent {maxTxBufferSize : UInt32} {alwaysBigEnough : Bool}
    (hRun : Run maxTxBufferSize alwaysBigEnough s acked) :
    Consistent s acked ∧ ∀ e, Met s acked e → ∃ s' out, s.handle e = some (s', out) := by
  have hEntity := run_entity hRun
  refine ⟨hEntity.transmitter.consistent, fun e hMet => ?_⟩
  obtain ⟨s', out, hHandled, -⟩ := entity_handle hEntity hMet
  exact ⟨s', out, hHandled⟩

/-- An SDU of one byte is sent in an opportunity of its own. -/
def sendOne (s : LteRlcAm) (byte : UInt8) : Option (LteRlcAm × List Output) :=
  (s.handle (.sdu [byte])).bind fun r => r.1.handle (.opportunity 7)

theorem run_consistent_one : ∃ s acked out, (initial 0 false).sendOne 1 = some (s, out) ∧
    Consistent s acked ∧ ∀ e, Met s acked e → ∃ s' out, s.handle e = some (s', out) := by
  have hQueue : ((initial 0 false).handle (.sdu [1])).isSome := by decide +kernel
  obtain ⟨⟨t, queued⟩, hQueue⟩ := Option.isSome_iff_exists.mp hQueue
  have hSend : ((initial 0 false).sendOne 1).isSome := by decide +kernel
  obtain ⟨⟨s, out⟩, hSend⟩ := Option.isSome_iff_exists.mp hSend
  have hStep : t.handle (.opportunity 7) = some (s, out) := by
    rw [sendOne, hQueue] at hSend
    exact hSend
  have hFirst := Run.step (e := .sdu [1]) (.start : Run 0 false _ _) (List.cons_ne_nil 1 []) hQueue
  have hMet : ∀ acked, Met t acked (.opportunity 7) := fun _ =>
    ⟨by decide, fun _ => ⟨by decide, Or.inr (by decide)⟩⟩
  exact ⟨s, _, out, hSend, run_consistent (hFirst.step (hMet _) hStep)⟩

/-- Three PDUs are sent. The peer receives the last one and, when its reordering timer has expired,
reports the first two missing; it receives the second one and reports the first one missing. The
later report comes first. -/
def lateReport : Option (LteRlcAm × AmPdu) := do
  let (s, _) ← (initial 0 false).sendOne 1
  let (s, sent) ← s.sendOne 2
  let (s, sent') ← s.sendOne 3
  match sent, sent' with
  | [.transmitPdu second], [.transmitPdu third] => do
    let (peer, _) ← (initial 0 false).doReceivePdu third
    let peer ← peer.expireReorderingTimer
    let (peer, report) ← peer.doNotifyTxOpportunity 10
    let (peer, _) ← peer.expireStatusProhibitTimer.doReceivePdu second
    let (_, report') ← peer.doNotifyTxOpportunity 10
    match report, report' with
    | [.transmitPdu early], [.transmitPdu late] => do
      let (s, _) ← s.handle (.status late)
      pure (s, early)
    | _, _ => none
  | _, _ => none

/-- The early report fails the assertion that the PDU reported missing is held. -/
theorem early_report_fails :
    lateReport.map (fun r => (r.1.handle (.status r.2)).isNone) = some true := by
  decide +kernel

end Bullet.Rlc.LteRlcAm
