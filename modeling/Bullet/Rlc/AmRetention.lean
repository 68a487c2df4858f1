import Bullet.Rlc.AmDelivery

/-! # What the transmitting side keeps and says

A PDU is kept under its number until it is acknowledged; no operation puts another one there. A new
PDU carries the next pieces of the SDUs that wait. A STATUS PDU is read back as it was built.
-/

namespace Bullet.Rlc

open Lib Segmentation SequenceNumber10 LteRlcAmHeader

namespace LteRlcAm

variable {s t u : LteRlcAm} {v : Fin 1024} {p : AmPdu} {n base sent fuel : ℕ} {got : ℕ → Prop}
  {sn ackSn : SequenceNumber10} {out : List Output}

/-! ## PDUs that are kept -/

/-- The PDU is kept under the number, transmitted or to be retransmitted. -/
def Stored (s : LteRlcAm) (v : Fin 1024) (p : AmPdu) : Prop :=
  s.txedBuffer v = some p ∨ s.retxBuffer v = some p

/-- Nothing is kept that was not kept before. -/
def Retains (s t : LteRlcAm) : Prop := ∀ v p, t.Stored v p → s.Stored v p

theorem Retains.refl (s : LteRlcAm) : Retains s s := fun _ _ hStored => hStored

theorem Retains.trans (h : Retains s t) (h' : Retains t u) : Retains s u :=
  fun v p hStored => h v p (h' v p hStored)

/-- The PDU of a number is moved from one buffer to the other. -/
theorem retains_move {a b : Fin 1024 → Option AmPdu} {v w : Fin 1024} {p q : AmPdu}
    (hHeld : a v = some p)
    (hStored : Function.update a v none w = some q ∨ Function.update b v (some p) w = some q) :
    a w = some q ∨ b w = some q := by
  by_cases hEq : w = v
  · rw [hEq, Function.update_self, Function.update_self] at hStored
    rcases hStored with hNone | hSome
    · cases hNone
    · cases hSome
      exact .inl (hEq ▸ hHeld)
  · rwa [Function.update_of_ne hEq, Function.update_of_ne hEq] at hStored

theorem retains_remove {a : Fin 1024 → Option AmPdu} {v w : Fin 1024} {q : AmPdu}
    (hStored : Function.update a v none w = some q) : a w = some q := by
  by_cases hEq : w = v
  · rw [hEq, Function.update_self] at hStored
    cases hStored
  · rwa [Function.update_of_ne hEq] at hStored

theorem nack_retains (h : s.nack v = some t) : Retains s t := by
  unfold nack at h
  split at h
  · next p hHeld =>
    cases h
    exact fun w q hStored => retains_move hHeld hStored
  · split at h
    · cases h
      exact .refl _
    · cases h

theorem ack_retains (h : s.ack v = some t) : Retains s t := by
  obtain ⟨u, hRelease, rfl⟩ := Option.map_eq_some_iff.mp h
  have hTxed : Retains s u := by
    unfold releaseTxed at hRelease
    split at hRelease
    · split at hRelease
      · cases hRelease
      · cases hRelease
        exact fun w q hStored => hStored.imp_left retains_remove
    · cases hRelease
      exact .refl _
  refine hTxed.trans ?_
  unfold releaseRetx
  split
  · exact fun w q hStored => hStored.imp_right retains_remove
  · exact .refl u

theorem stopPolling_retains (s : LteRlcAm) (sn : SequenceNumber10) :
    Retains s (s.stopPolling sn) := by
  obtain ⟨b, hStop⟩ := s.stopPolling_eq sn
  rw [hStop]
  exact fun _ _ hStored => hStored

theorem statusLoop_retains {h : LteRlcAmHeader} {inc : Bool}
    (hRun : statusLoop h fuel s sn ackSn inc = some t) : Retains s t := by
  induction fuel generalizing s sn ackSn inc with
  | zero => cases hRun
  | succ fuel ih =>
    rw [statusLoop] at hRun
    obtain ⟨below, -, hRun⟩ := Option.bind_eq_some_iff.mp hRun
    obtain ⟨inWindow, -, hRun⟩ := Option.bind_eq_some_iff.mp hRun
    split at hRun
    · obtain ⟨nacked, -, hRun⟩ := Option.bind_eq_some_iff.mp hRun
      have hStop := s.stopPolling_retains sn
      have hSettle : ∃ u, Retains s u ∧ (if (inc && !nacked) = true then
          statusLoop h fuel u.advanceVtA (sn.setModulusBase u.advanceVtA.vtA).increment
            (ackSn.setModulusBase u.advanceVtA.vtA) true
          else statusLoop h fuel u sn.increment ackSn false) = some t := by
        cases nacked with
        | true =>
          obtain ⟨u, hNack, hRun⟩ := Option.bind_eq_some_iff.mp hRun
          exact ⟨u, hStop.trans (nack_retains hNack), hRun⟩
        | false =>
          obtain ⟨u, hAck, hRun⟩ := Option.bind_eq_some_iff.mp hRun
          exact ⟨u, hStop.trans (ack_retains hAck), hRun⟩
      obtain ⟨u, hKept, hRun⟩ := hSettle
      split at hRun
      · have hRest : Retains u.advanceVtA t := ih hRun
        exact hKept.trans hRest
      · exact hKept.trans (ih hRun)
    · cases hRun
      exact .refl _

theorem receiveStatus_retains {h : LteRlcAmHeader} (hRun : s.receiveStatus h = some t) :
    Retains s t := by
  unfold receiveStatus at hRun
  have hKept := statusLoop_retains hRun
  exact hKept

theorem moveLoop_retains (hRun : moveLoop fuel s sn = some t) : Retains s t := by
  induction fuel generalizing s sn with
  | zero => cases hRun
  | succ fuel ih =>
    rw [moveLoop] at hRun
    obtain ⟨below, -, hRun⟩ := Option.bind_eq_some_iff.mp hRun
    split at hRun
    · have hMove : Retains s (s.moveToRetx sn.value) := by
        unfold moveToRetx
        split
        · next p hHeld => exact fun w q hStored => retains_move hHeld hStored
        · exact .refl _
      exact hMove.trans (ih hRun)
    · cases hRun
      exact .refl _

theorem firstRetx_entry {sn' : SequenceNumber10} (h : s.firstRetx fuel sn = some (sn', p)) :
    s.retxBuffer sn'.value = some p := by
  induction fuel generalizing sn with
  | zero => cases h
  | succ fuel ih =>
    rw [firstRetx] at h
    obtain ⟨below, -, h⟩ := Option.bind_eq_some_iff.mp h
    split at h
    · split at h
      · next q hEntry =>
        cases h
        exact hEntry
      · exact ih h
    · cases h

theorem moveToTxed_retains (hHeld : s.retxBuffer v = some p) : Retains s (s.moveToTxed v p) :=
  fun _ _ hStored => (retains_move hHeld hStored.symm).symm

theorem retransmit_retains (h : s.retransmit n = some (t, out)) : Retains s t := by
  obtain ⟨pending, -, h⟩ := Option.bind_eq_some_iff.mp h
  cases pending with
  | false => cases h
  | true =>
    rw [if_pos rfl] at h
    obtain ⟨⟨sn, p⟩, hFirst, h⟩ := Option.bind_eq_some_iff.mp h
    have hEntry := firstRetx_entry hFirst
    dsimp only at h
    split at h
    · obtain ⟨⟨header, data⟩, -, h⟩ := Option.bind_eq_some_iff.mp h
      obtain ⟨polled, -, h⟩ := Option.bind_eq_some_iff.mp h
      cases polled with
      | true =>
        cases h
        have hMoved : Retains s.poll (s.poll.moveToTxed sn.value p) := moveToTxed_retains hEntry
        exact hMoved
      | false =>
        cases h
        exact moveToTxed_retains hEntry
    · cases h
      exact .refl _

theorem transmitNewPdu_retains (h : s.transmitNewPdu n = some (t, [.transmitPdu p])) :
    ∀ w q, t.Stored w q → s.Stored w q ∨ w = s.vtS.value ∧ q = p := by
  unfold transmitNewPdu at h
  split at h
  · cases h
  · next first txon hBuffer =>
    generalize assemble _ _ _ _ _ _ _ = a at h
    obtain ⟨first, last, polled, -, -, -, -, hOut, rfl⟩ := finish_eq_some h
    have hNew := (Output.transmitPdu.injEq _ _).mp (List.cons.inj hOut).1
    rw [← hNew]
    have hTaken : ∀ w q, (if polled then (s.take a).poll else s.take a).Stored w q → s.Stored w q := by
      cases polled with
      | true => exact fun _ _ hStored => hStored
      | false => exact fun _ _ hStored => hStored
    rintro w q (hTxed | hRetx)
    · dsimp only [storeTxed] at hTxed
      by_cases hEq : w = s.vtS.value
      · rw [hEq, Function.update_self] at hTxed
        cases hTxed
        exact .inr ⟨hEq, rfl⟩
      · rw [Function.update_of_ne hEq] at hTxed
        exact .inl (hTaken w q (.inl hTxed))
    · exact .inl (hTaken w q (.inr hRetx))

theorem expirePollRetransmitTimer_retains (h : s.expirePollRetransmitTimer = some (t, out)) :
    Retains s t ∧ Quiet out := by
  unfold expirePollRetransmitTimer at h
  obtain ⟨le, -, h⟩ := Option.bind_eq_some_iff.mp h
  split at h
  · split at h
    · obtain ⟨u, hMove, h⟩ := Option.bind_eq_some_iff.mp h
      obtain ⟨report, hReport, h⟩ := Option.bind_eq_some_iff.mp h
      cases h
      have hKept := moveLoop_retains hMove
      exact ⟨hKept, quiet_report hReport⟩
    · obtain ⟨u, hSame, h⟩ := Option.bind_eq_some_iff.mp h
      obtain ⟨report, hReport, h⟩ := Option.bind_eq_some_iff.mp h
      cases h
      cases hSame
      exact ⟨fun _ _ hStored => hStored, quiet_report hReport⟩
  · cases h

/-! ## New PDUs -/

/-- A new PDU carries the pieces of the SDUs that wait, up to a later cut. -/
theorem SendsNew.brings {full remaining : List Sdu} {sdu : Sdu} {k : ℕ} {l : List (List UInt8)}
    {c : Cut} (h : SendsNew s t p full sdu k remaining) (hWaits : LteRlcUm.Waits s.txonBuffer l c)
    (hNumber : s.vtS.value = num n) :
    ∃ d, Follows l c d ∧ p.Brings n (.between l c d) ∧ LteRlcUm.Waits t.txonBuffer l d := by
  obtain ⟨first, polled, hFirst, hCarries⟩ := h.carries
  rw [h.sdus] at hWaits
  have hRest := hWaits.rest_eq
  have hFollows := follows_advance hRest h.pos
  have hPieces := pieces_advance hRest h.pos
  rw [List.length_map] at hFollows hPieces
  refine ⟨c.advance full.length k sdu.getSize, hFollows, ⟨?_, _, hCarries, rfl, hNumber, ?_, ?_⟩, ?_⟩
  · change pieces l c (c.advance full.length k sdu.bytes.length) ≠ []
    rw [hPieces]
    exact List.append_ne_nil_of_right_ne_nil _ (List.cons_ne_nil _ _)
  · exact hWaits.framingInfo_eq h.pos hFirst
  · change splitSdus (entryBits (full.map Sdu.getSize)) (full.map Sdu.getSize) p.data =
      some (pieces l c (c.advance full.length k sdu.bytes.length))
    rw [hPieces, h.data, List.flatMap_append, List.flatMap_singleton, LteRlcUm.head_bytes]
    exact LteRlcUm.splitSdus_entryBits full _
  · rw [h.left]
    exact hWaits.take h.pos

/-! ## STATUS PDUs -/

/-- The STATUS PDU is read back. -/
theorem Status.peek {h : LteRlcAmHeader} {k : ℕ} (hStatus : Status h k)
    (hNacks : ∀ nack ∈ h.nackSnList, nack < 1024) :
    ∃ g, (⟨h, []⟩ : AmPdu).peekHeader = some g ∧ g.IsStatusPdu ∧ g.ackSn.value = h.ackSn.value ∧
      g.nackSnList = h.nackSnList := by
  have hWritten : h.serialize = some (statusBytes h.ackSn h.nackSnList) := by
    rw [serialize, hStatus.isStatus.1, if_neg (by decide), hStatus.isStatus.2]
    rfl
  have hLength : (statusBytes h.ackSn h.nackSnList).length = h.getSerializedSize := by
    rw [getSerializedSize, hStatus.headerLength, statusBytes.eq_def, List.length_cons,
      List.length_cons, length_serializeNacks, hStatus.count]
    omega
  have hBytes : (⟨h, []⟩ : AmPdu).bytes = some (statusBytes h.ackSn h.nackSnList ++ []) := by
    rw [AmPdu.bytes, hWritten, Option.bind_some, if_pos hLength]
  have hPeek : (⟨h, []⟩ : AmPdu).peekHeader = some
      { lastSegmentFlag := 0
        headerLength := (2 + entryBytes h.nackSnList.length) % 65536
        dataControlBit := CONTROL_PDU
        controlPduType := STATUS_PDU
        ackSn := (SequenceNumber10.mk' 0xffff).assign h.ackSn.getValue
        nackSnList := h.nackSnList } := by
    rw [AmPdu.peekHeader, hBytes, Option.bind_some, AmPdu.newHeader,
      deserialize_statusBytes 0 h.ackSn h.nackSnList [] hNacks]
    rfl
  exact ⟨_, hPeek, ⟨rfl, rfl⟩, assign_getValue _ h.ackSn, rfl⟩

theorem nackLoop_small {bytes : ℕ} {h h' : LteRlcAmHeader} {sn' : SequenceNumber10}
    (hSmall : ∀ nack ∈ h.nackSnList, nack < 1024)
    (hRun : s.nackLoop bytes fuel sn h = some (h', sn')) : ∀ nack ∈ h'.nackSnList, nack < 1024 := by
  induction fuel generalizing sn h with
  | zero => cases hRun
  | succ fuel ih =>
    rw [nackLoop] at hRun
    obtain ⟨below, -, hRun⟩ := Option.bind_eq_some_iff.mp hRun
    split at hRun
    · obtain ⟨fits, -, hRun⟩ := Option.bind_eq_some_iff.mp hRun
      split at hRun
      · split at hRun
        · exact ih hSmall hRun
        · obtain ⟨g, hPush, hRun⟩ := Option.bind_eq_some_iff.mp hRun
          refine ih (fun nack hMem => ?_) hRun
          unfold pushNack at hPush
          split at hPush
          · cases hPush
            rcases List.mem_append.mp hMem with hOld | hNew
            · exact hSmall nack hOld
            · rw [List.mem_singleton.mp hNew]
              exact sn.value.isLt
          · cases hPush
      · cases hRun
        exact hSmall
    · cases hRun
      exact hSmall

theorem transmitStatusPdu_peek {h : LteRlcAmHeader}
    (hRun : s.transmitStatusPdu n = some (t, [.transmitPdu ⟨h, []⟩])) :
    ∃ g, (⟨h, []⟩ : AmPdu).peekHeader = some g ∧ g.IsStatusPdu ∧ g.ackSn.value = h.ackSn.value ∧
      g.nackSnList = h.nackSnList := by
  unfold transmitStatusPdu at hRun
  split at hRun
  · cases hRun
  obtain ⟨⟨header, sn⟩, hLoop, hRun⟩ := Option.bind_eq_some_iff.mp hRun
  obtain ⟨ackSn, -, hRun⟩ := Option.bind_eq_some_iff.mp hRun
  obtain ⟨inWindow, -, hRun⟩ := Option.bind_eq_some_iff.mp hRun
  have hStart : Status (AmPdu.newHeader.setControlPdu STATUS_PDU) 0 := ⟨⟨rfl, rfl⟩, rfl, rfl⟩
  have hEnd := nackLoop_spec hStart (by decide) (Nat.zero_le _) hLoop
  have hSmall := nackLoop_small (fun nack hMem => absurd hMem List.not_mem_nil) hLoop
  cases inWindow with
  | false => cases hRun
  | true =>
    cases hRun
    exact Status.peek (h := header.setAckSn ackSn) ⟨hEnd.isStatus, hEnd.count, hEnd.headerLength⟩
      hSmall

end LteRlcAm

open LteRlcAm

variable {p : AmPdu} {base sent : ℕ} {got : ℕ → Prop}

/-- A STATUS PDU as it is read, with the number that VR(R) stood for and the numbers that had been
received when it was built. -/
structure AmPdu.Reports (p : AmPdu) (base : ℕ) (got : ℕ → Prop) (sent : ℕ) : Prop where
  read : ∃ g, p.peekHeader = some g ∧ g.IsStatusPdu ∧ ∃ top, base ≤ top ∧ top ≤ sent ∧
    num top = g.ackSn.value ∧ (∀ n < top, got n ∨ base ≤ n ∧ Nacks g (num n)) ∧
      ∀ n, base ≤ n → n < base + 1024 → Nacks g (num n) → n < base + 512 ∧ ¬ got n
  missing : ¬ got base
  control : p.header.dataControlBit = CONTROL_PDU

theorem AmPdu.Reports.mono {more : ℕ} (h : p.Reports base got sent) (hLe : sent ≤ more) :
    p.Reports base got more where
  read := by
    obtain ⟨g, hPeek, hStatus, top, hFrom, hTo, hRest⟩ := h.read
    exact ⟨g, hPeek, hStatus, top, hFrom, hTo.trans hLe, hRest⟩
  missing := h.missing
  control := h.control

theorem LteRlcAm.Receiving.reports {s : LteRlcAm} {n : ℕ} (h : s.Receiving base got) (hBase : num base = s.vrR.value)
    (hSent : base + offset s.vrR.value s.vrH.value ≤ sent) (hBytes : 4 ≤ n) :
    ∃ p, s.transmitStatusPdu n = some (s.afterStatus, [.transmitPdu p]) ∧
      p.Reports base got sent := by
  obtain ⟨header, hRun, hRight⟩ := h.statusRight hBytes
  obtain ⟨header', hRun', -, -, hTo⟩ := transmitStatusPdu_spec h.receiver hBytes
  rw [hRun] at hRun'
  cases hRun'
  have hMissing := transmitStatusPdu_missing h.receiver hRun
  obtain ⟨g, hPeek, hStatus, hAck, hNacks⟩ := transmitStatusPdu_peek hRun
  have hNack : ∀ v, Nacks g v ↔ Nacks header v := fun v => by rw [Nacks, Nacks, hNacks]
  have hMs := h.tracks.vrMs
  have hH := h.tracks.vrH
  refine ⟨_, hRun, ⟨g, hPeek, hStatus, base + offset s.vrR.value header.ackSn.value,
    Nat.le_add_right _ _, by omega, ?_, fun m hBelow => ?_, fun m hFrom hNear hNacked => ?_⟩,
    h.missingR, hRight.isStatus.1⟩
  · rw [hAck]
    exact num_offset hBase _
  · by_cases hFrom : base ≤ m
    · have hSum := offset_base hFrom (by omega)
      rw [hBase] at hSum
      by_cases hNacked : Nacks header (num m)
      · exact .inr ⟨hFrom, (hNack _).mpr hNacked⟩
      · have hGot := hRight.received (num m) (by omega) hNacked
        rw [hSum] at hGot
        exact .inl hGot
    · exact .inl (h.tracks.filled.below m (Nat.lt_of_not_le hFrom))
  · have hSum := offset_base hFrom hNear
    rw [hBase] at hSum
    obtain ⟨-, hLt⟩ := hMissing _ ((hNack _).mp hNacked)
    have hNot := hRight.missing _ ((hNack _).mp hNacked)
    rw [hSum] at hNot
    exact ⟨by omega, hNot⟩

end Bullet.Rlc
