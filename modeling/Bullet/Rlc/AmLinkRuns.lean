import Bullet.Rlc.AmLink

/-! # Runs of two RLC AM entities

What one side accepts, the other side delivers: no SDU is lost, none comes twice, and all come in order,
whatever data PDUs the lower layers lose, repeat or reorder. No assertion fails.
-/

namespace Bullet.Rlc

open Lib PartialRun Segmentation SequenceNumber10 LteRlcAmHeader LteRlcAm

namespace AmPeer

variable {a b : AmPeer} {acked : Fin 1024 → Prop} {cut : ℕ → Cut} {content : ℕ → Content}
  {got : ℕ → Prop} {gotAt : ℕ → ℕ → Prop}

theorem flow_act {e : AmAction} (hOut : Flow a b) (hIn : Flow b a) (hMet : a.Met b e) :
    ∃ a', a.act b e = some a' ∧ Flow a' b ∧ Flow b a' := by
  cases e with
  | sdu p => exact flow_sdu hOut hIn hMet
  | opportunity bytes => exact flow_opportunity hOut hIn hMet
  | arrive n =>
    obtain ⟨item, hItem, hMet⟩ := hMet
    split at hMet
    · next hData => exact flow_data hOut hIn hItem hData hMet
    · next hStatus => exact flow_status hOut hIn hItem hStatus hMet
  | pollRetransmitTimer => exact flow_pollRetransmitTimer hOut hIn
  | rbsTimer => exact flow_rbsTimer hOut hIn
  | reorderingTimer => exact flow_reorderingTimer hOut hIn hMet
  | statusProhibitTimer => exact flow_statusProhibitTimer hOut hIn

theorem flow_start (maxTxBufferSize maxTxBufferSize' : UInt32) (big big' : Bool) :
    Flow { entity := initial maxTxBufferSize big } { entity := initial maxTxBufferSize' big' } := by
  have hZero : 0 + offset 0 0 = 0 := by rw [offset_self]
  refine ⟨fun _ => False, fun _ => {}, fun _ => ⟨true, true, []⟩, fun _ => False, fun _ _ => False,
    ⟨entity_initial _ _, rfl, hZero.symm, ?_, ?_, ?_, nofun⟩, ⟨initial_receiving _ _, rfl, ?_⟩, ?_⟩
  · exact ⟨⟨Nat.le_refl 0, nofun⟩, rfl, nofun, nofun, nofun⟩
  · exact ⟨fun _ _ => ⟨Nat.le_refl 0, nofun⟩, nofun, nofun⟩
  · rintro v p (hNone | hNone)
    · cases hNone
    · cases hNone
  · exact ⟨⟨⟨none, ⟨rfl, nofun, rfl⟩, exactly_start []⟩, rfl⟩, nofun, hZero.le⟩
  · refine ⟨?_, nofun, nofun, nofun, nofun⟩
    rintro n (hBelow | ⟨-, hAcked⟩)
    · exact absurd hBelow (Nat.not_lt_zero n)
    · exact hAcked

/-! ## What both sides agree on -/

/-- The window of the sender is around the next number of the receiver; the PDU of each of its numbers
is kept or has been received. -/
structure Agrees (a b : AmPeer) : Prop where
  low : num a.vtA = a.entity.vtA.value
  high : num a.vtS = a.entity.vtS.value
  base : num b.vrR = b.entity.vrR.value
  behind : a.vtA ≤ b.vrR
  ahead : b.vrR ≤ a.vtS
  window : a.vtS ≤ a.vtA + 512
  kept : ∀ n, a.vtA ≤ n → n < a.vtS → (∃ p, a.entity.Stored (num n) p) ∨ n < b.vrR ∨
    n < b.vrR + 512 ∧ b.entity.Held (num n)

/-- What has been received is delivered or held. -/
theorem Takes.held {l : List (List UInt8)} {sent n : ℕ} (h : b.Takes l cut content sent got)
    (hGot : got n) : n < b.vrR ∨ n < b.vrR + 512 ∧ b.entity.Held (num n) := by
  have hBound := h.receiving.tracks.bound n hGot
  have hTop := h.receiving.tracks.vrH
  rcases Nat.lt_or_ge n b.vrR with hBelow | hFrom
  · exact .inl hBelow
  · have hSum := offset_base hFrom (by omega)
    rw [h.base] at hSum
    refine .inr ⟨by omega, (h.receiving.tracks.filled.held _).mpr ⟨by omega, ?_⟩⟩
    rw [hSum]
    exact hGot

/-- What is not acknowledged is kept. -/
theorem Sends.kept {n : ℕ} (h : a.Sends acked cut content) (hFrom : a.vtA ≤ n) (hTo : n < a.vtS)
    (hNot : ¬ acked (num n)) : ∃ p, a.entity.Stored (num n) p := by
  have hWindow := h.le_next
  have hIn := (h.inWindow_iff hFrom (by omega)).mpr hTo
  have hHeld := h.entity.transmitter.buffers.held (num n) ⟨hIn, hNot⟩
  cases hRetx : a.entity.retxBuffer (num n) with
  | some p => exact ⟨p, .inr hRetx⟩
  | none =>
    obtain ⟨p, hTxed⟩ := Option.isSome_iff_exists.mp (hHeld.mpr hRetx)
    exact ⟨p, .inl hTxed⟩

theorem Flow.agrees (h : Flow a b) : a.Agrees b := by
  obtain ⟨acked, cut, content, got, gotAt, hSends, hTakes, hAnswers⟩ := h
  refine ⟨hSends.low, hSends.numS, hTakes.base, hAnswers.behind hTakes,
    (Nat.le_add_right _ _).trans hTakes.holding.top, hSends.le_next.2, fun n hFrom hTo => ?_⟩
  by_cases hAcked : acked (num n)
  · exact .inr (hTakes.held (hAnswers.knows n (.inr ⟨hTo, hAcked⟩)))
  · exact .inl (hSends.kept hFrom hTo hAcked)

theorem Flow.delivered (h : Flow a b) : b.delivered <+: a.sdus := by
  obtain ⟨acked, cut, content, got, gotAt, -, hTakes, -⟩ := h
  obtain ⟨kept, -, hExactly⟩ := hTakes.holding.assembled.exactly
  rw [hExactly.delivered]
  exact List.take_prefix _ _

/-- When no SDU waits and the window is empty, all has been delivered. -/
theorem Flow.complete (h : Flow a b) (hEmpty : a.entity.txonBuffer = [])
    (hDone : a.entity.vtA.value = a.entity.vtS.value) : b.delivered = a.sdus := by
  have hAgrees := h.agrees
  obtain ⟨acked, cut, content, got, gotAt, hSends, hTakes, -⟩ := h
  obtain ⟨kept, -, hExactly⟩ := hTakes.holding.assembled.exactly
  have hBehind := hAgrees.behind
  have hAhead := hAgrees.ahead
  have hNext : a.vtS = a.vtA := by
    rw [hSends.next, hDone, offset_self]
    rfl
  have hAt : b.vrR = a.vtS := by omega
  have hRest : rest a.sdus (cut a.vtS) = [] := by
    rw [← hSends.waits.bytes, hEmpty]
    rfl
  have hEnd : a.sdus.length ≤ (cut a.vtS).message := by
    by_contra hInside
    rw [rest_of_lt (Nat.lt_of_not_le hInside)] at hRest
    cases hRest
  rw [hExactly.delivered, hAt, List.take_of_length_le hEnd]

end AmPeer

namespace AmLink

open AmPeer

/-- Both ways. -/
def Right (s : AmLink) : Prop := ∀ side, (s side).Flow (s !side)

variable {s t : AmLink} {maxTxBufferSize : Bool → UInt32} {alwaysBigEnough : Bool → Bool}
  {events : List AmEvent}

theorem right_start (maxTxBufferSize : Bool → UInt32) (alwaysBigEnough : Bool → Bool) :
    (start maxTxBufferSize alwaysBigEnough).Right := fun _ => flow_start _ _ _ _

theorem right_step {e : AmEvent} (h : s.Right) (hMet : s.Met e) :
    ∃ t, s.step e = some t ∧ t.Right := by
  have hOther : (!e.side) ≠ e.side := Bool.not_ne_self _
  have hIn : (s !e.side).Flow (s e.side) := by
    have hFlow := h !e.side
    rwa [Bool.not_not] at hFlow
  obtain ⟨a', hAct, hOut', hIn'⟩ := flow_act (h e.side) hIn hMet
  refine ⟨Function.update s e.side a', by rw [step, hAct]; rfl, fun side => ?_⟩
  rcases Bool.eq_or_eq_not side e.side with rfl | rfl
  · rw [Function.update_self, Function.update_of_ne hOther]
    exact hOut'
  · rw [Function.update_of_ne hOther, Bool.not_not, Function.update_self]
    exact hIn'

theorem right_advances : Advances step Met Right fun _ _ => True where
  refl _ := trivial
  trans _ _ _ _ _ := trivial
  advance s e hInv hOk := by
    obtain ⟨t, hStep, hRight⟩ := right_step hInv hOk
    exact ⟨t, hStep, hRight, trivial⟩

theorem run_right (hMet : StepsMeet step Met (start maxTxBufferSize alwaysBigEnough) events) :
    ∃ s, run step (start maxTxBufferSize alwaysBigEnough) events = some s ∧ s.Right := by
  obtain ⟨s, hRun, hRight, -⟩ := right_advances.run (right_start _ _) hMet
  exact ⟨s, hRun, hRight⟩

/-- An SDU is sent in two PDUs. The first one is lost and the second one comes twice; a STATUS PDU
reports the loss, and the first one is sent again. -/
def lossy : List AmEvent :=
  [⟨false, .sdu [1, 2, 3, 4, 5, 6]⟩, ⟨false, .opportunity 7⟩, ⟨false, .opportunity 7⟩, ⟨true, .arrive 1⟩,
    ⟨true, .arrive 1⟩, ⟨true, .reorderingTimer⟩, ⟨true, .opportunity 10⟩, ⟨false, .arrive 0⟩,
    ⟨false, .opportunity 7⟩, ⟨true, .arrive 2⟩, ⟨true, .statusProhibitTimer⟩, ⟨true, .opportunity 10⟩,
    ⟨false, .arrive 1⟩]

def lossyStart : AmLink := start (fun _ => 0) fun _ => false

theorem stepsMeet_lossy : StepsMeet step Met lossyStart lossy := by decide +kernel

end AmLink

end Bullet.Rlc
