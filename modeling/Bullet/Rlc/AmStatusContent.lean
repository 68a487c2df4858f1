import Bullet.Rlc.AmReception
import Bullet.Rlc.AmRuns

/-! # What a STATUS PDU reports

An entity handles SDUs, opportunities, PDUs of both kinds and its timers in any order. What it sends
does not touch its receiving side, so the window stays in order, and the STATUS PDU of any
opportunity is right about the numbers that have been received.
-/

namespace Bullet.Rlc.LteRlcAm

open SequenceNumber10 LteRlcAmHeader

variable {s t : LteRlcAm} {base : ℕ} {got : ℕ → Prop} {out : List Output} {fuel n : ℕ}

/-! ## The transmitting side -/

/-- The variables of the receiving side and what they range over. -/
def receivingSide (s : LteRlcAm) : LteRlcAm where
  maxTxBufferSize := 0
  txOpportunityForRetxAlwaysBigEnough := false
  statusPduBufferSize := s.statusPduBufferSize
  vrR := s.vrR
  vrMr := s.vrMr
  vrX := s.vrX
  vrMs := s.vrMs
  vrH := s.vrH
  rxonBuffer := s.rxonBuffer
  reorderingTimer := s.reorderingTimer

theorem Receiving.of_receivingSide (h : s.Receiving base got)
    (hSame : t.receivingSide = s.receivingSide) : t.Receiving base got := by
  have hR : t.vrR = s.vrR := (congrArg vrR hSame :)
  have hX : t.vrX = s.vrX := (congrArg vrX hSame :)
  have hMs : t.vrMs = s.vrMs := (congrArg vrMs hSame :)
  have hH : t.vrH = s.vrH := (congrArg vrH hSame :)
  have hStatus : t.statusPduBufferSize = s.statusPduBufferSize :=
    (congrArg statusPduBufferSize hSame :)
  have hReceiver : t.Receiver := by
    constructor
    · rw [hR]
      exact h.receiver.baseR
    · rw [hR, hX]
      exact h.receiver.baseX
    · rw [hR, hMs]
      exact h.receiver.baseMs
    · rw [hR, hH]
      exact h.receiver.baseH
    · rw [hStatus]
      exact h.receiver.statusPdu
  exact h.of_same hReceiver ⟨(congrArg rxonBuffer hSame :), hR, hMs, hH⟩
    (congrArg (fun u : LteRlcAm => u.vrMr.value) hSame :) hX (congrArg reorderingTimer hSame :)

theorem doTransmitPdcpPdu_side {p : List UInt8} (h : s.doTransmitPdcpPdu p = some (t, out)) :
    t.receivingSide = s.receivingSide := by
  obtain ⟨report, -, h⟩ := Option.bind_eq_some_iff.mp h
  cases h
  split
  · rfl
  · rfl

theorem retransmit_side (h : s.retransmit n = some (t, out)) :
    t.receivingSide = s.receivingSide := by
  obtain ⟨pending, -, h⟩ := Option.bind_eq_some_iff.mp h
  cases pending with
  | false => cases h
  | true =>
    rw [if_pos rfl] at h
    obtain ⟨⟨sn, p⟩, -, h⟩ := Option.bind_eq_some_iff.mp h
    dsimp only at h
    split at h
    · obtain ⟨⟨header, data⟩, -, h⟩ := Option.bind_eq_some_iff.mp h
      obtain ⟨polled, -, h⟩ := Option.bind_eq_some_iff.mp h
      cases polled with
      | true => cases h; rfl
      | false => cases h; rfl
    · cases h
      rfl

theorem transmitNewPdu_side (h : s.transmitNewPdu n = some (t, out)) :
    t.receivingSide = s.receivingSide := by
  unfold transmitNewPdu at h
  split at h
  · cases h
    rfl
  · obtain ⟨first, last, polled, -, -, -, -, -, rfl⟩ := finish_eq_some h
    cases polled with
    | true => rfl
    | false => rfl

theorem statusPdu_side (h : s.transmitStatusPdu n = some (t, out)) : t = s.afterStatus := by
  unfold transmitStatusPdu at h
  split at h
  · cases h
  · obtain ⟨⟨header, sn⟩, -, h⟩ := Option.bind_eq_some_iff.mp h
    obtain ⟨ackSn, -, h⟩ := Option.bind_eq_some_iff.mp h
    obtain ⟨inWindow, -, h⟩ := Option.bind_eq_some_iff.mp h
    cases inWindow with
    | false => cases h
    | true => cases h; rfl

/-- An opportunity sends a STATUS PDU or leaves the receiving side alone. -/
theorem doNotifyTxOpportunity_side (h : s.doNotifyTxOpportunity n = some (t, out)) :
    t = s.afterStatus ∨ t.receivingSide = s.receivingSide := by
  unfold doNotifyTxOpportunity at h
  split at h
  · cases h
  split at h
  · exact .inl (statusPdu_side h)
  split at h
  · exact .inr (retransmit_side h)
  split at h
  · split at h
    · cases h
    · obtain ⟨le, -, h⟩ := Option.bind_eq_some_iff.mp h
      cases le with
      | false => cases h
      | true =>
        rw [if_pos rfl] at h
        split at h
        · cases h
          exact .inr rfl
        · exact .inr (transmitNewPdu_side h)
  · cases h
    exact .inr rfl

theorem nack_side {v : Fin 1024} (h : s.nack v = some t) : t.receivingSide = s.receivingSide := by
  unfold nack at h
  split at h
  · cases h
    rfl
  · split at h
    · cases h
      rfl
    · cases h

theorem ack_side {v : Fin 1024} (h : s.ack v = some t) : t.receivingSide = s.receivingSide := by
  obtain ⟨u, hRelease, hEq⟩ := Option.map_eq_some_iff.mp h
  have hU : u.receivingSide = s.receivingSide := by
    unfold releaseTxed at hRelease
    split at hRelease
    · split at hRelease
      · cases hRelease
      · cases hRelease
        rfl
    · cases hRelease
      rfl
  rw [← hU, ← hEq]
  unfold releaseRetx
  split
  · rfl
  · rfl

theorem stopPolling_side (s : LteRlcAm) (sn : SequenceNumber10) :
    (s.stopPolling sn).receivingSide = s.receivingSide := by
  obtain ⟨b, hStop⟩ := s.stopPolling_eq sn
  rw [hStop]
  rfl

theorem statusLoop_side {h : LteRlcAmHeader} {sn ackSn : SequenceNumber10} {inc : Bool}
    (hRun : statusLoop h fuel s sn ackSn inc = some t) : t.receivingSide = s.receivingSide := by
  induction fuel generalizing s sn ackSn inc with
  | zero => cases hRun
  | succ fuel ih =>
    rw [statusLoop] at hRun
    obtain ⟨below, -, hRun⟩ := Option.bind_eq_some_iff.mp hRun
    obtain ⟨inWindow, -, hRun⟩ := Option.bind_eq_some_iff.mp hRun
    split at hRun
    · obtain ⟨nacked, -, hRun⟩ := Option.bind_eq_some_iff.mp hRun
      have hStop := s.stopPolling_side sn
      cases nacked with
      | true =>
        rw [if_pos rfl] at hRun
        obtain ⟨u, hNack, hRun⟩ := Option.bind_eq_some_iff.mp hRun
        have hU := (nack_side hNack).trans hStop
        split at hRun
        · exact (ih hRun).trans hU
        · exact (ih hRun).trans hU
      | false =>
        rw [if_neg Bool.false_ne_true] at hRun
        obtain ⟨u, hAck, hRun⟩ := Option.bind_eq_some_iff.mp hRun
        have hU := (ack_side hAck).trans hStop
        split at hRun
        · exact (ih hRun).trans hU
        · exact (ih hRun).trans hU
    · cases hRun
      rfl

theorem receiveStatus_side {h : LteRlcAmHeader} (hRun : s.receiveStatus h = some t) :
    t.receivingSide = s.receivingSide := by
  unfold receiveStatus at hRun
  have hSide := statusLoop_side hRun
  exact hSide

theorem moveLoop_side {sn : SequenceNumber10} (hRun : moveLoop fuel s sn = some t) :
    t.receivingSide = s.receivingSide := by
  induction fuel generalizing s sn with
  | zero => cases hRun
  | succ fuel ih =>
    rw [moveLoop] at hRun
    obtain ⟨below, -, hRun⟩ := Option.bind_eq_some_iff.mp hRun
    split at hRun
    · have hMove : (s.moveToRetx sn.value).receivingSide = s.receivingSide := by
        unfold moveToRetx
        split
        · rfl
        · rfl
      exact (ih hRun).trans hMove
    · cases hRun
      rfl

theorem expirePollRetransmitTimer_side (h : s.expirePollRetransmitTimer = some (t, out)) :
    t.receivingSide = s.receivingSide := by
  unfold expirePollRetransmitTimer at h
  obtain ⟨le, -, h⟩ := Option.bind_eq_some_iff.mp h
  split at h
  · split at h
    · obtain ⟨u, hMove, h⟩ := Option.bind_eq_some_iff.mp h
      obtain ⟨report, -, h⟩ := Option.bind_eq_some_iff.mp h
      cases h
      have hSide := moveLoop_side hMove
      exact hSide
    · obtain ⟨u, hSame, h⟩ := Option.bind_eq_some_iff.mp h
      obtain ⟨report, -, h⟩ := Option.bind_eq_some_iff.mp h
      cases h
      cases hSame
      rfl
  · cases h

theorem expireRbsTimer_side (h : s.expireRbsTimer = some (t, out)) :
    t.receivingSide = s.receivingSide := by
  unfold expireRbsTimer at h
  split at h
  · obtain ⟨report, -, h⟩ := Option.bind_eq_some_iff.mp h
    cases h
    rfl
  · cases h
    rfl

/-! ## Runs -/

/-- The numbers received after an event. -/
def gotAfter (s : LteRlcAm) (base : ℕ) (got : ℕ → Prop) : Event → ℕ → Prop
  | .status p, n => got n ∨ ∃ h, p.peekHeader = some h ∧ h.dataControlBit = DATA_PDU ∧
      s.gotData base got h.sequenceNumber n
  | _, n => got n

/-- The states of an entity that handles its events in any order, with the number that VR(R) stands
for and the numbers received. A timer expires when it runs. -/
inductive Reach (maxTxBufferSize : UInt32) (alwaysBigEnough : Bool) :
    LteRlcAm → ℕ → (ℕ → Prop) → Prop
  | start : Reach maxTxBufferSize alwaysBigEnough (initial maxTxBufferSize alwaysBigEnough) 0
      fun _ => False
  | event {s t : LteRlcAm} {base : ℕ} {got : ℕ → Prop} {e : Event} {out : List Output} :
    Reach maxTxBufferSize alwaysBigEnough s base got → s.handle e = some (t, out) →
      Reach maxTxBufferSize alwaysBigEnough t (base + offset s.vrR.value t.vrR.value)
        (s.gotAfter base got e)
  | reorderingTimer {s t : LteRlcAm} {base : ℕ} {got : ℕ → Prop} :
    Reach maxTxBufferSize alwaysBigEnough s base got → s.reorderingTimer = true →
      s.expireReorderingTimer = some t → Reach maxTxBufferSize alwaysBigEnough t base got
  | statusProhibitTimer {s : LteRlcAm} {base : ℕ} {got : ℕ → Prop} :
    Reach maxTxBufferSize alwaysBigEnough s base got →
      Reach maxTxBufferSize alwaysBigEnough s.expireStatusProhibitTimer base got

/-- An event that leaves the receiving side alone. -/
theorem Receiving.keep (h : s.Receiving base got) (hSame : t.receivingSide = s.receivingSide) :
    t.Receiving (base + offset s.vrR.value t.vrR.value) got := by
  have hR : t.vrR = s.vrR := (congrArg vrR hSame :)
  rw [hR, offset_self]
  exact h.of_receivingSide hSame

theorem receiving_handle {e : Event} (h : s.Receiving base got) (hRun : s.handle e = some (t, out)) :
    t.Receiving (base + offset s.vrR.value t.vrR.value) (s.gotAfter base got e) := by
  cases e with
  | sdu p => exact h.keep (doTransmitPdcpPdu_side hRun)
  | opportunity n =>
    rcases doNotifyTxOpportunity_side hRun with rfl | hSame
    · change s.afterStatus.Receiving (base + offset s.vrR.value s.vrR.value) got
      rw [offset_self]
      exact h.of_same (receives_afterStatus h.receiver).receiver ⟨rfl, rfl, rfl, rfl⟩ rfl rfl rfl
    · exact h.keep hSame
  | status p =>
    obtain ⟨header, hPeek, hRun⟩ := Option.bind_eq_some_iff.mp hRun
    split at hRun
    · next hData =>
      have hEnd := receiveData_spec h hRun
      have hGot : s.gotAfter base got (.status p) = s.gotData base got header.sequenceNumber := by
        funext n
        simp [gotAfter, hPeek, hData, gotData]
      rw [hGot]
      exact hEnd
    · next hNotData =>
      have hGot : s.gotAfter base got (.status p) = got := by
        funext n
        simp [gotAfter, hPeek, hNotData]
      rw [hGot]
      split at hRun
      · obtain ⟨u, hStatus, hRun⟩ := Option.bind_eq_some_iff.mp hRun
        cases hRun
        exact h.keep (receiveStatus_side hStatus)
      · cases hRun
        exact h.keep rfl
  | pollRetransmitTimer => exact h.keep (expirePollRetransmitTimer_side hRun)
  | rbsTimer => exact h.keep (expireRbsTimer_side hRun)

theorem initial_receiving (maxTxBufferSize : UInt32) (alwaysBigEnough : Bool) :
    (initial maxTxBufferSize alwaysBigEnough).Receiving 0 fun _ => False := by
  have hZero : offset 0 0 = 0 := offset_self 0
  refine ⟨⟨rfl, rfl, rfl, rfl, Nat.zero_le 4⟩, ⟨⟨nofun, fun v => ?_, nofun⟩, nofun, ?_, ?_⟩, rfl,
    not_false, not_false, nofun⟩
  · rw [held_iff]
    exact iff_of_false (by rintro ⟨b, hNone, -⟩; cases hNone) (fun h => h.2)
  · exact Nat.le_refl _
  · exact hZero.trans_le (Nat.zero_le 512)

variable {maxTxBufferSize : UInt32} {alwaysBigEnough : Bool}

theorem reach_receiving (h : Reach maxTxBufferSize alwaysBigEnough s base got) :
    s.Receiving base got := by
  induction h with
  | start => exact initial_receiving _ _
  | event _ hRun ih => exact receiving_handle ih hRun
  | reorderingTimer _ hTimer hRun ih => exact (expireReorderingTimer_spec ih hTimer hRun).1
  | statusProhibitTimer _ ih => exact ih.of_receivingSide rfl

/-! ## The STATUS PDU -/

/-- Only numbers below VR(MS) that are not held are reported missing. -/
theorem nackLoop_missing {bytes : ℕ} {sn sn' : SequenceNumber10} {h h' : LteRlcAmHeader}
    (hReceiver : s.Receiver) (hSn : sn.modulusBase = s.vrR.value)
    (hMissing : ∀ v, Nacks h v → ¬ s.Held v ∧ offset s.vrR.value v < offset s.vrR.value s.vrMs.value)
    (hRun : s.nackLoop bytes fuel sn h = some (h', sn')) :
    ∀ v, Nacks h' v → ¬ s.Held v ∧ offset s.vrR.value v < offset s.vrR.value s.vrMs.value := by
  induction fuel generalizing sn h with
  | zero => cases hRun
  | succ fuel ih =>
    rw [nackLoop, lt_eq hSn hReceiver.baseMs, Option.bind_eq_bind, Option.bind_some] at hRun
    split at hRun
    · next hBelow =>
      have hNext : sn.increment.modulusBase = s.vrR.value := hSn
      obtain ⟨fits, -, hRun⟩ := Option.bind_eq_some_iff.mp hRun
      split at hRun
      · split at hRun
        · exact ih hNext hMissing hRun
        · next hNotHeld =>
          obtain ⟨g, hPush, hRun⟩ := Option.bind_eq_some_iff.mp hRun
          refine ih hNext (fun v hNack => ?_) hRun
          rcases (nacks_pushNack hPush).mp hNack with hOld | hNew
          · exact hMissing v hOld
          · obtain rfl : v = sn.value := Fin.ext hNew
            exact ⟨hNotHeld, of_decide_eq_true hBelow⟩
      · cases hRun
        exact hMissing
    · cases hRun
      exact hMissing

theorem transmitStatusPdu_missing {h : LteRlcAmHeader} (hReceiver : s.Receiver)
    (hRun : s.transmitStatusPdu n = some (t, [.transmitPdu ⟨h, []⟩])) :
    ∀ v, Nacks h v → ¬ s.Held v ∧ offset s.vrR.value v < offset s.vrR.value s.vrMs.value := by
  unfold transmitStatusPdu at hRun
  split at hRun
  · cases hRun
  · obtain ⟨⟨header, sn⟩, hLoop, hRun⟩ := Option.bind_eq_some_iff.mp hRun
    obtain ⟨ackSn, -, hRun⟩ := Option.bind_eq_some_iff.mp hRun
    obtain ⟨inWindow, -, hRun⟩ := Option.bind_eq_some_iff.mp hRun
    cases inWindow with
    | false => cases hRun
    | true =>
      cases hRun
      have hMissing := nackLoop_missing hReceiver hReceiver.baseR
        (fun v hNack => absurd hNack List.not_mem_nil) hLoop
      exact hMissing

/-- The STATUS PDU is right about the numbers received. -/
structure StatusRight (s : LteRlcAm) (base : ℕ) (got : ℕ → Prop) (h : LteRlcAmHeader) : Prop where
  isStatus : h.IsStatusPdu
  received : ∀ v, offset s.vrR.value v < offset s.vrR.value h.ackSn.value → ¬ Nacks h v →
    got (base + offset s.vrR.value v)
  missing : ∀ v, Nacks h v → ¬ got (base + offset s.vrR.value v)

/-- VR(R) <= VR(MS) <= VR(H) <= VR(MR), seen from VR(R). -/
structure WindowOrder (s : LteRlcAm) : Prop where
  vrMs : offset s.vrR.value s.vrR.value ≤ offset s.vrR.value s.vrMs.value
  vrH : offset s.vrR.value s.vrMs.value ≤ offset s.vrR.value s.vrH.value
  vrMr : offset s.vrR.value s.vrH.value ≤ offset s.vrR.value s.vrMr.value

theorem Receiving.windowOrder (h : s.Receiving base got) : s.WindowOrder where
  vrMs := (offset_self _).trans_le (Nat.zero_le _)
  vrH := h.tracks.vrMs
  vrMr := by
    rw [h.vrMr, offset_top]
    exact h.tracks.vrH

theorem Receiving.statusRight (h : s.Receiving base got) (hBytes : 4 ≤ n) :
    ∃ header, s.transmitStatusPdu n = some (s.afterStatus, [.transmitPdu ⟨header, []⟩]) ∧
      s.StatusRight base got header := by
  have hOrder := h.windowOrder
  have hTop := h.tracks.vrH
  obtain ⟨header, hRun, hStatus, hReports, hTo⟩ := transmitStatusPdu_spec h.receiver hBytes
  refine ⟨header, hRun, hStatus, fun v hBelow hNot => ?_, fun v hNack hGot => ?_⟩
  · have hFrom : offset s.vrR.value s.vrR.value ≤ offset s.vrR.value v :=
      (offset_self _).trans_le (Nat.zero_le _)
    have hHeld := (hReports v hFrom hBelow).resolve_right hNot
    exact ((h.tracks.filled.held v).mp hHeld).2
  · obtain ⟨hNotHeld, hLt⟩ := transmitStatusPdu_missing h.receiver hRun v hNack
    have hIn : offset s.vrR.value v < 512 := hLt.trans_le (hOrder.vrH.trans hTop)
    exact hNotHeld ((h.tracks.filled.held v).mpr ⟨hIn, hGot⟩)

/-- The second of two PDUs, with a poll. -/
def secondPdu : Option AmPdu := do
  let (s, _) ← (initial 0 false).sendOne 1
  let (_, sent) ← s.sendOne 2
  match sent with
  | [.transmitPdu p] => some p
  | _ => none

end Bullet.Rlc.LteRlcAm
