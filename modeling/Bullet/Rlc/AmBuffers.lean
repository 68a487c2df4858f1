import Bullet.Lib.SizedTable
import Bullet.Rlc.AmReceive

/-! # The buffers of transmitted PDUs

A number is due when its PDU has been sent and is not yet acknowledged. Each due number has its PDU
in exactly one of the transmitted and the retransmission buffer, the others have none, the PDUs held
are all of one kind, and the counters are the sums of the sizes. Every operation on the buffers keeps
this.
-/

namespace Bullet.Rlc.LteRlcAm

open Lib.SizedTable

/-- The counter of a buffer, in its own 32 bits. -/
def Counts (b : Fin 1024 → Option AmPdu) (n : UInt32) : Prop :=
  n = UInt32.ofNat (total AmPdu.getSize b)

variable {b : Fin 1024 → Option AmPdu} {n : UInt32} {v : Fin 1024} {p : AmPdu}

theorem Counts.insert (h : Counts b n) (hFree : b v = none) (p : AmPdu) :
    Counts (Function.update b v (some p)) (n + UInt32.ofNat p.getSize) := by
  rw [Counts, total_insert _ _ hFree, UInt32.ofNat_add, ← h]

theorem Counts.remove (h : Counts b n) (hHeld : b v = some p) :
    Counts (Function.update b v none) (n - UInt32.ofNat p.getSize) := by
  rw [Counts, h, ← total_remove _ _ hHeld, UInt32.ofNat_add, UInt32.add_sub_cancel]

/-- The buffers, with the numbers that are due and what is known of the PDUs. -/
structure Buffers (s : LteRlcAm) (due : Fin 1024 → Prop) (kind : AmPdu → Prop) : Prop where
  txed : Counts s.txedBuffer s.txedBufferSize
  retx : Counts s.retxBuffer s.retxBufferSize
  held : ∀ v, due v → ((s.txedBuffer v).isSome ↔ s.retxBuffer v = none)
  free : ∀ v, ¬ due v → s.txedBuffer v = none ∧ s.retxBuffer v = none
  ofKind : ∀ v p, s.txedBuffer v = some p ∨ s.retxBuffer v = some p → kind p

/-- Nothing but the buffers of transmitted PDUs changes. -/
def OnlyBuffers (s s' : LteRlcAm) : Prop :=
  s' = { s with
    txedBuffer := s'.txedBuffer
    txedBufferSize := s'.txedBufferSize
    retxBuffer := s'.retxBuffer
    retxBufferSize := s'.retxBufferSize }

variable {s : LteRlcAm} {due : Fin 1024 → Prop} {kind : AmPdu → Prop}

namespace Buffers

theorem of_iff {due' : Fin 1024 → Prop} (h : Buffers s due kind) (hIff : ∀ v, due v ↔ due' v) :
    Buffers s due' kind := by
  have hEq : due = due' := funext fun v => propext (hIff v)
  exact hEq ▸ h

theorem mono {kind' : AmPdu → Prop} (h : Buffers s due kind) (hKind : ∀ p, kind p → kind' p) :
    Buffers s due kind' where
  txed := h.txed
  retx := h.retx
  held := h.held
  free := h.free
  ofKind v p hHeld := hKind p (h.ofKind v p hHeld)

theorem due_of_txed (h : Buffers s due kind) (hHeld : s.txedBuffer v = some p) :
    due v ∧ s.retxBuffer v = none := by
  have hDue : due v := by
    by_contra hNot
    rw [(h.free v hNot).1] at hHeld
    cases hHeld
  exact ⟨hDue, (h.held v hDue).mp (hHeld ▸ rfl)⟩

theorem due_of_retx (h : Buffers s due kind) (hHeld : s.retxBuffer v = some p) :
    due v ∧ s.txedBuffer v = none := by
  have hDue : due v := by
    by_contra hNot
    rw [(h.free v hNot).2] at hHeld
    cases hHeld
  refine ⟨hDue, ?_⟩
  cases hTxed : s.txedBuffer v with
  | none => rfl
  | some q =>
    have hNone := (h.held v hDue).mp (hTxed ▸ rfl)
    rw [hNone] at hHeld
    cases hHeld

/-- An operation on one number keeps the rest, so that only this number is left to be checked. -/
theorem change {s' : LteRlcAm} {due' : Fin 1024 → Prop} (h : Buffers s due kind) (v : Fin 1024)
    (hTxed : Counts s'.txedBuffer s'.txedBufferSize) (hRetx : Counts s'.retxBuffer s'.retxBufferSize)
    (hSame : ∀ u, u ≠ v → s'.txedBuffer u = s.txedBuffer u ∧ s'.retxBuffer u = s.retxBuffer u ∧
      (due' u ↔ due u))
    (hHeld : due' v → ((s'.txedBuffer v).isSome ↔ s'.retxBuffer v = none))
    (hFree : ¬ due' v → s'.txedBuffer v = none ∧ s'.retxBuffer v = none)
    (hKind : ∀ p, s'.txedBuffer v = some p ∨ s'.retxBuffer v = some p → kind p) :
    Buffers s' due' kind where
  txed := hTxed
  retx := hRetx
  held u hU := by
    rcases eq_or_ne u v with rfl | hNe
    · exact hHeld hU
    · obtain ⟨hSameTxed, hSameRetx, hDue⟩ := hSame u hNe
      rw [hSameTxed, hSameRetx]
      exact h.held u (hDue.mp hU)
  free u hU := by
    rcases eq_or_ne u v with rfl | hNe
    · exact hFree hU
    · obtain ⟨hSameTxed, hSameRetx, hDue⟩ := hSame u hNe
      rw [hSameTxed, hSameRetx]
      exact h.free u (mt hDue.mpr hU)
  ofKind u p hP := by
    rcases eq_or_ne u v with rfl | hNe
    · exact hKind p hP
    · obtain ⟨hSameTxed, hSameRetx, -⟩ := hSame u hNe
      rw [hSameTxed, hSameRetx] at hP
      exact h.ofKind u p hP

/-- A transmitted PDU is moved to the retransmission buffer. -/
theorem toRetx (h : Buffers s due kind) (hHeld : s.txedBuffer v = some p) :
    Buffers { s with
      retxBuffer := Function.update s.retxBuffer v (some p)
      retxBufferSize := s.retxBufferSize + UInt32.ofNat p.getSize
      txedBufferSize := s.txedBufferSize - UInt32.ofNat p.getSize
      txedBuffer := Function.update s.txedBuffer v none } due kind := by
  obtain ⟨hDue, hFree⟩ := h.due_of_txed hHeld
  refine h.change v (h.txed.remove hHeld) (h.retx.insert hFree p) ?_ ?_ ?_ ?_
  · intro u hNe
    exact ⟨Function.update_of_ne hNe _ _, Function.update_of_ne hNe _ _, Iff.rfl⟩
  · intro _
    simp
  · intro hNot
    exact absurd hDue hNot
  · intro q hQ
    simp only [Function.update_self, reduceCtorEq, false_or, Option.some.injEq] at hQ
    exact h.ofKind v q (Or.inl (hQ ▸ hHeld))

/-- A retransmitted PDU goes back to the transmitted buffer. -/
theorem moveToTxed (h : Buffers s due kind) (hHeld : s.retxBuffer v = some p) :
    Buffers (s.moveToTxed v p) due kind := by
  obtain ⟨hDue, hFree⟩ := h.due_of_retx hHeld
  refine h.change v (h.txed.insert hFree p) (h.retx.remove hHeld) ?_ ?_ ?_ ?_
  · intro u hNe
    exact ⟨Function.update_of_ne hNe _ _, Function.update_of_ne hNe _ _, Iff.rfl⟩
  · intro _
    simp [LteRlcAm.moveToTxed]
  · intro hNot
    exact absurd hDue hNot
  · intro q hQ
    simp only [LteRlcAm.moveToTxed, Function.update_self, reduceCtorEq, or_false,
      Option.some.injEq] at hQ
    exact h.ofKind v q (Or.inr (hQ ▸ hHeld))

/-- A new PDU is stored. -/
theorem storeTxed (h : Buffers s due kind) (hNew : ¬ due v) (hKind : kind p) :
    Buffers (s.storeTxed v p) (fun u => due u ∨ u = v) kind := by
  obtain ⟨hTxed, hRetx⟩ := h.free v hNew
  refine h.change v (h.txed.insert hTxed p) h.retx ?_ ?_ ?_ ?_
  · intro u hNe
    exact ⟨Function.update_of_ne hNe _ _, rfl, or_iff_left hNe⟩
  · intro _
    simp [LteRlcAm.storeTxed, hRetx]
  · intro hNot
    exact absurd (Or.inr rfl) hNot
  · intro q hQ
    simp only [LteRlcAm.storeTxed, Function.update_self, hRetx, reduceCtorEq, or_false,
      Option.some.injEq] at hQ
    exact hQ ▸ hKind

/-- A PDU is released from the transmitted buffer. -/
theorem removeTxed (h : Buffers s due kind) (hHeld : s.txedBuffer v = some p) :
    Buffers { s with
      txedBufferSize := s.txedBufferSize - UInt32.ofNat p.getSize
      txedBuffer := Function.update s.txedBuffer v none } (fun u => due u ∧ u ≠ v) kind := by
  obtain ⟨-, hFree⟩ := h.due_of_txed hHeld
  refine h.change v (h.txed.remove hHeld) h.retx ?_ ?_ ?_ ?_
  · intro u hNe
    exact ⟨Function.update_of_ne hNe _ _, rfl, and_iff_left hNe⟩
  · rintro ⟨-, hNe⟩
    exact absurd rfl hNe
  · intro _
    exact ⟨Function.update_self _ _ _, hFree⟩
  · intro q hQ
    simp [hFree] at hQ

/-- A PDU is released from the retransmission buffer. -/
theorem removeRetx (h : Buffers s due kind) (hHeld : s.retxBuffer v = some p) :
    Buffers { s with
      retxBufferSize := s.retxBufferSize - UInt32.ofNat p.getSize
      retxBuffer := Function.update s.retxBuffer v none } (fun u => due u ∧ u ≠ v) kind := by
  obtain ⟨-, hFree⟩ := h.due_of_retx hHeld
  refine h.change v h.txed (h.retx.remove hHeld) ?_ ?_ ?_ ?_
  · intro u hNe
    exact ⟨rfl, Function.update_of_ne hNe _ _, and_iff_left hNe⟩
  · rintro ⟨-, hNe⟩
    exact absurd rfl hNe
  · intro _
    exact ⟨hFree, Function.update_self _ _ _⟩
  · intro q hQ
    simp [hFree] at hQ

/-- A number without a PDU is not due. -/
theorem of_free (h : Buffers s due kind) (hTxed : s.txedBuffer v = none)
    (hRetx : s.retxBuffer v = none) : Buffers s (fun u => due u ∧ u ≠ v) kind := by
  refine h.change v h.txed h.retx ?_ ?_ ?_ ?_
  · intro u hNe
    exact ⟨rfl, rfl, and_iff_left hNe⟩
  · rintro ⟨-, hNe⟩
    exact absurd rfl hNe
  · intro _
    exact ⟨hTxed, hRetx⟩
  · intro q hQ
    exact h.ofKind v q hQ

theorem nack (h : Buffers s due kind) (hDue : due v) :
    ∃ s', s.nack v = some s' ∧ Buffers s' due kind ∧ OnlyBuffers s s' := by
  unfold LteRlcAm.nack
  cases hTxed : s.txedBuffer v with
  | some p => exact ⟨_, rfl, h.toRetx hTxed, rfl⟩
  | none =>
    have hRetx : (s.retxBuffer v).isSome := by
      rw [Option.isSome_iff_ne_none]
      intro hNone
      have hSome := (h.held v hDue).mpr hNone
      rw [hTxed] at hSome
      cases hSome
    exact ⟨s, if_pos hRetx, h, rfl⟩

theorem ack (h : Buffers s due kind) (v : Fin 1024) :
    ∃ s', s.ack v = some s' ∧ Buffers s' (fun u => due u ∧ u ≠ v) kind ∧ OnlyBuffers s s' := by
  cases hTxed : s.txedBuffer v with
  | some p =>
    obtain ⟨-, hRetx⟩ := h.due_of_txed hTxed
    have hAck : s.ack v = some { s with
        txedBufferSize := s.txedBufferSize - UInt32.ofNat p.getSize
        txedBuffer := Function.update s.txedBuffer v none } := by
      simp [LteRlcAm.ack, releaseTxed, releaseRetx, hTxed, hRetx]
    exact ⟨_, hAck, h.removeTxed hTxed, rfl⟩
  | none =>
    cases hRetx : s.retxBuffer v with
    | some p =>
      have hAck : s.ack v = some { s with
          retxBufferSize := s.retxBufferSize - UInt32.ofNat p.getSize
          retxBuffer := Function.update s.retxBuffer v none } := by
        simp [LteRlcAm.ack, releaseTxed, releaseRetx, hTxed, hRetx]
      exact ⟨_, hAck, h.removeRetx hRetx, rfl⟩
    | none =>
      have hAck : s.ack v = some s := by
        simp [LteRlcAm.ack, releaseTxed, releaseRetx, hTxed, hRetx]
      exact ⟨s, hAck, h.of_free hTxed hRetx, rfl⟩

theorem moveToRetx (h : Buffers s due kind) (v : Fin 1024) :
    Buffers (s.moveToRetx v) due kind ∧ OnlyBuffers s (s.moveToRetx v) := by
  unfold LteRlcAm.moveToRetx
  cases hTxed : s.txedBuffer v with
  | some p => exact ⟨h.toRetx hTxed, rfl⟩
  | none => exact ⟨h, rfl⟩

end Buffers

end Bullet.Rlc.LteRlcAm
