import Mathlib.Algebra.BigOperators.Group.Finset.Piecewise
import Mathlib.Algebra.Order.BigOperators.Group.Finset
import Mathlib.Data.FinEnum
import Bullet.Ue.NrUeMac

/-! # Scheduling requests

An inactive UE has nothing to send, and an active one has sent a request since it was last inactive.
A request is dropped while the UE has no RNTI, and the buffer sizes are added up modulo 2^32.
-/

namespace Bullet.Ue

open Lib.PartialRun Mac

namespace BufferStatus

theorem sub_min_le (bytes size : UInt32) : (size - min bytes size).toNat ≤ size.toNat := by
  have hMin : (if bytes ≤ size then bytes else size) ≤ size := by
    split
    · assumption
    · exact UInt32.le_refl size
  have hEq : min bytes size = if bytes ≤ size then bytes else size := rfl
  rw [← hEq] at hMin
  rw [UInt32.toNat_sub_of_le _ _ hMin]
  exact Nat.sub_le _ _

theorem total_toNat (bsr : BufferStatus) : bsr.total.toNat = bsr.pending % 2 ^ 32 := by
  rw [total, UInt32.toNat_add, UInt32.toNat_add, UInt16.toNat_toUInt32, Nat.mod_add_mod, pending]

theorem drainRetx_lcid (bytes : UInt32) (bsr : BufferStatus) :
    (bsr.drainRetx bytes).lcid = bsr.lcid := rfl

theorem drainTx_lcid (bytes : UInt32) (bsr : BufferStatus) :
    (bsr.drainTx bytes).lcid = bsr.lcid := rfl

theorem drainRetx_pending (bytes : UInt32) (bsr : BufferStatus) :
    (bsr.drainRetx bytes).pending ≤ bsr.pending :=
  Nat.add_le_add_right (Nat.add_le_add_left (sub_min_le bytes bsr.retxQueueSize) _) _

theorem drainTx_pending (bytes : UInt32) (bsr : BufferStatus) :
    (bsr.drainTx bytes).pending ≤ bsr.pending :=
  Nat.add_le_add_right (Nat.add_le_add_right (sub_min_le bytes bsr.txQueueSize) _) _

theorem drainStatus_pending (bsr : BufferStatus) : bsr.drainStatus.pending ≤ bsr.pending :=
  Nat.add_le_add_left (Nat.zero_le _) _

end BufferStatus

namespace NrUeMac

variable {env : UeEnvironment} {cap : UInt8 → ℕ} {s t : NrUeMac}

def pendingBytes (s : NrUeMac) : ℕ := (s.ulBsrReceived.map BufferStatus.pending).sum

/-- A request was sent after the last time that the state became inactive. -/
def Requested (s : NrUeMac) : Prop :=
  ∃ pre rnti post, s.output = pre ++ .sr rnti :: post ∧ .srState .inactive ∉ post

/-- The UE asks for resources when it needs them. -/
structure Requests (s : NrUeMac) : Prop where
  idle : s.srState = .inactive → s.pendingBytes = 0
  requested : s.srState = .active → s.Requested

/-- The reports of every channel stay below a bound of its own. -/
structure Tracked (cap : UInt8 → ℕ) (s : NrUeMac) : Prop where
  nodup : s.lcids.Nodup
  capped : ∀ bsr ∈ s.ulBsrReceived, bsr.pending ≤ cap bsr.lcid
  idle : s.srState = .inactive → ∀ bsr ∈ s.ulBsrReceived, bsr.pending = 0
  requested : s.srState = .active → s.Requested

theorem Tracked.requests (h : Tracked cap s) : s.Requests where
  idle hState := by
    apply List.sum_eq_zero
    intro n hn
    obtain ⟨bsr, hMem, rfl⟩ := List.mem_map.mp hn
    exact h.idle hState bsr hMem
  requested := h.requested

/-- `t` has the reports and the SR state of `s`, and has not become inactive since. -/
structure Continues (s t : NrUeMac) : Prop where
  ulBsrReceived : t.ulBsrReceived = s.ulBsrReceived
  srState : t.srState = s.srState
  output : ∃ new, t.output = s.output ++ new ∧ .srState .inactive ∉ new

theorem Requested.mono (h : s.Requested)
    (hOutput : ∃ new, t.output = s.output ++ new ∧ .srState .inactive ∉ new) : t.Requested := by
  obtain ⟨pre, rnti, post, hEq, hPost⟩ := h
  obtain ⟨new, hNew, hInactive⟩ := hOutput
  refine ⟨pre, rnti, post ++ new, ?_, ?_⟩
  · rw [hNew, hEq, List.append_assoc]
    rfl
  · rw [List.mem_append]
    exact fun hMem => hMem.elim hPost hInactive

theorem Tracked.continues (h : Tracked cap s) (hSame : Continues s t) : Tracked cap t where
  nodup := by
    rw [lcids, hSame.ulBsrReceived]
    exact h.nodup
  capped := by
    rw [hSame.ulBsrReceived]
    exact h.capped
  idle := by
    rw [hSame.ulBsrReceived, hSame.srState]
    exact h.idle
  requested := by
    rw [hSame.srState]
    exact fun hState => (h.requested hState).mono hSame.output

theorem Tracked.same (h : Tracked cap s) (hBsr : t.ulBsrReceived = s.ulBsrReceived)
    (hState : t.srState = s.srState) (hOutput : t.output = s.output) : Tracked cap t :=
  h.continues ⟨hBsr, hState, [], by rw [hOutput, List.append_nil], List.not_mem_nil⟩

/-! ## The entries -/

theorem updateBsr_lcids {lcid : UInt8} {f : BufferStatus → BufferStatus}
    (hf : ∀ bsr, bsr.lcid = lcid → (f bsr).lcid = lcid) : (s.updateBsr lcid f).lcids = s.lcids := by
  rw [lcids, lcids, updateBsr, List.map_map]
  apply List.map_congr_left
  intro bsr _
  rw [Function.comp_apply]
  split
  · next hEq => rw [hf bsr hEq, hEq]
  · rfl

theorem Tracked.updateBsr (h : Tracked cap s) {lcid : UInt8} {f : BufferStatus → BufferStatus}
    (hLcid : ∀ bsr, bsr.lcid = lcid → (f bsr).lcid = lcid)
    (hLe : ∀ bsr, (f bsr).pending ≤ bsr.pending) : Tracked cap (s.updateBsr lcid f) where
  nodup := by
    rw [updateBsr_lcids hLcid]
    exact h.nodup
  capped bsr hMem := by
    obtain ⟨old, hOld, rfl⟩ := List.mem_map.mp hMem
    split
    · next hEq =>
      rw [hLcid old hEq, ← hEq]
      exact le_trans (hLe old) (h.capped old hOld)
    · exact h.capped old hOld
  idle hState bsr hMem := by
    obtain ⟨old, hOld, rfl⟩ := List.mem_map.mp hMem
    split
    · exact Nat.le_zero.mp (h.idle hState old hOld ▸ hLe old)
    · exact h.idle hState old hOld
  requested := h.requested

/-! ## The handlers -/

/-- Every report of the RLC stays below the bounds of the channels. -/
def ReportsWithin (env : UeEnvironment) (cap : UInt8 → ℕ) : Prop :=
  ∀ output opportunity params, .reportBufferStatus params ∈ env.notify output opportunity →
    params.pending ≤ cap params.lcid

theorem Tracked.insert (h : Tracked cap s) {params : BufferStatus}
    (hNew : ∀ bsr ∈ s.ulBsrReceived, bsr.lcid ≠ params.lcid)
    (hCap : params.pending ≤ cap params.lcid) (hActive : s.srState ≠ .inactive) :
    Tracked cap { s with ulBsrReceived := env.insert params s.ulBsrReceived } where
  nodup := by
    have hPerm := (env.insert_perm params s.ulBsrReceived).map BufferStatus.lcid
    rw [lcids, hPerm.nodup_iff, List.map_cons, List.nodup_cons]
    refine ⟨fun hMem => ?_, h.nodup⟩
    obtain ⟨bsr, hBsr, hEq⟩ := List.mem_map.mp hMem
    exact hNew bsr hBsr hEq
  capped bsr hMem := by
    rw [(env.insert_perm params s.ulBsrReceived).mem_iff, List.mem_cons] at hMem
    obtain rfl | hOld := hMem
    · exact hCap
    · exact h.capped bsr hOld
  idle hState := absurd hState hActive
  requested := h.requested

theorem Tracked.replace (h : Tracked cap s) {params : BufferStatus}
    (hCap : params.pending ≤ cap params.lcid) (hActive : s.srState ≠ .inactive) :
    Tracked cap (s.updateBsr params.lcid fun _ => params) where
  nodup := by
    rw [updateBsr_lcids fun _ _ => rfl]
    exact h.nodup
  capped bsr hMem := by
    obtain ⟨old, hOld, rfl⟩ := List.mem_map.mp hMem
    split
    · exact hCap
    · exact h.capped old hOld
  idle hState := absurd hState hActive
  requested := h.requested

/-- Entering `TO_SEND`. -/
theorem Tracked.toSend (h : Tracked cap s) : Tracked cap (s.setSrState .toSend) where
  nodup := h.nodup
  capped := h.capped
  idle hState := by cases hState
  requested hState := by cases hState

/-- The entries after a report. -/
def record (env : UeEnvironment) (s : NrUeMac) (params : BufferStatus) : NrUeMac :=
  if s.ulBsrReceived.any (·.lcid = params.lcid) then s.updateBsr params.lcid fun _ => params
  else { s with ulBsrReceived := env.insert params s.ulBsrReceived }

theorem Tracked.record (h : Tracked cap s) {params : BufferStatus}
    (hCap : params.pending ≤ cap params.lcid) (hActive : s.srState ≠ .inactive) :
    Tracked cap (s.record env params) := by
  rw [NrUeMac.record]
  split
  · exact h.replace hCap hActive
  · next hNew =>
    apply h.insert _ hCap hActive
    intro bsr hMem hEq
    exact hNew (List.any_eq_true.mpr ⟨bsr, hMem, decide_eq_true hEq⟩)

theorem record_setSrState (params : BufferStatus) (state : SrBsrMachine) :
    (s.record env params).setSrState state = (s.setSrState state).record env params := by
  rw [record, record, setSrState]
  split
  · next hKnown => exact (if_pos hKnown).symm
  · next hNew => exact (if_neg hNew).symm

theorem record_srState (params : BufferStatus) : (s.record env params).srState = s.srState := by
  rw [record]
  split
  · rfl
  · rfl

theorem doReportBufferStatus_eq {walking : Bool} {params : BufferStatus}
    (hStep : s.doReportBufferStatus env walking params = some t) :
    t = if s.srState = .inactive then (s.setSrState .toSend).record env params
      else s.record env params := by
  obtain ⟨queue, -, hStep⟩ := Option.bind_eq_some_iff.mp hStep
  dsimp only at hStep
  split at hStep
  · cases hStep
  · rw [← record, record_srState] at hStep
    rw [← Option.some.inj hStep, record_setSrState]

theorem Tracked.doReportBufferStatus (h : Tracked cap s) {walking : Bool} {params : BufferStatus}
    (hCap : params.pending ≤ cap params.lcid)
    (hStep : s.doReportBufferStatus env walking params = some t) : Tracked cap t := by
  rw [doReportBufferStatus_eq hStep]
  split
  · exact h.toSend.record hCap SrBsrMachine.noConfusion
  · next hActive => exact h.record hCap hActive

/-- The handlers of the RLC's PDUs and of HARQ leave the reports and the SR state alone. -/
theorem doTransmitPdu_continues {params : TransmitPduParameters}
    (hStep : s.doTransmitPdu params = some t) : Continues s t := by
  obtain ⟨dci, -, hStep⟩ := Option.bind_eq_some_iff.mp hStep
  obtain ⟨info, -, hStep⟩ := Option.bind_eq_some_iff.mp hStep
  obtain ⟨tbSize, -, hStep⟩ := Option.bind_eq_some_iff.mp hStep
  dsimp only at hStep
  split at hStep
  · cases hStep
  · cases hStep
    refine ⟨rfl, rfl, _, rfl, ?_⟩
    rw [List.mem_singleton]
    exact Output.noConfusion

theorem resetHarq_continues {pktBurst : Option (List UInt32)}
    (hStep : s.resetHarq pktBurst = some t) : Continues s t := by
  obtain ⟨dci, -, hStep⟩ := Option.bind_eq_some_iff.mp hStep
  obtain ⟨info, -, hStep⟩ := Option.bind_eq_some_iff.mp hStep
  cases hStep
  exact ⟨rfl, rfl, [], (List.append_nil _).symm, List.not_mem_nil⟩

theorem transmitRetx_continues (hStep : s.transmitRetx = some t) : Continues s t := by
  obtain ⟨dci, -, hStep⟩ := Option.bind_eq_some_iff.mp hStep
  obtain ⟨info, -, hStep⟩ := Option.bind_eq_some_iff.mp hStep
  split at hStep
  · cases hStep
    exact ⟨rfl, rfl, [], (List.append_nil _).symm, List.not_mem_nil⟩
  · cases hStep
  · cases hStep
    refine ⟨rfl, rfl, _, rfl, fun hMem => ?_⟩
    obtain ⟨size, -, hEq⟩ := List.mem_map.mp hMem
    cases hEq

theorem reportIfDue_continues {now : ℕ} (hStep : s.reportIfDue now = some t) : Continues s t := by
  rw [reportIfDue] at hStep
  split at hStep
  · obtain ⟨u, hReport, hStep⟩ := Option.bind_eq_some_iff.mp hStep
    cases hStep
    rw [sendReportBufferStatus] at hReport
    split at hReport
    · cases hReport
      exact ⟨rfl, rfl, [], (List.append_nil _).symm, List.not_mem_nil⟩
    · split at hReport
      · cases hReport
        exact ⟨rfl, rfl, [], (List.append_nil _).symm, List.not_mem_nil⟩
      · obtain ⟨queue, -, hReport⟩ := Option.bind_eq_some_iff.mp hReport
        obtain ⟨tbSize, -, hReport⟩ := Option.bind_eq_some_iff.mp hReport
        dsimp only at hReport
        split at hReport
        · cases hReport
        · cases hReport
          refine ⟨rfl, rfl, _, rfl, ?_⟩
          rw [List.mem_singleton]
          exact Output.noConfusion
  · cases hStep
    exact ⟨rfl, rfl, [], (List.append_nil _).symm, List.not_mem_nil⟩

theorem Tracked.notifyTxOpportunity (h : Tracked cap s) (hEnv : ReportsWithin env cap)
    {kind : PduKind} {bsr : BufferStatus} {bytes : UInt32}
    (hStep : s.notifyTxOpportunity env kind bsr bytes = some t) : Tracked cap t := by
  obtain ⟨dci, -, hStep⟩ := Option.bind_eq_some_iff.mp hStep
  obtain ⟨lcg, -, hStep⟩ := Option.bind_eq_some_iff.mp hStep
  have hEmit : Tracked cap (s.emit (.txOpportunity kind bsr bytes)) := by
    apply h.continues
    refine ⟨rfl, rfl, _, rfl, ?_⟩
    rw [List.mem_singleton]
    exact Output.noConfusion
  have hCalls : StepsMeet (rlcCall env) (fun _ call => ∀ params, call = .reportBufferStatus params →
      params.pending ≤ cap params.lcid) (s.emit (.txOpportunity kind bsr bytes))
      (env.notify s.output ⟨bsr.lcid, bytes, dci.harqProcess⟩) :=
    stepsMeet_of_forall_mem fun call hMem _ params hCall => hEnv _ _ params (hCall ▸ hMem)
  apply invariant_of_run _ hEmit hCalls hStep
  intro u call v hInv hOk hCall
  cases call with
  | transmitPdu params => exact hInv.continues (doTransmitPdu_continues hCall)
  | reportBufferStatus params => exact hInv.doReportBufferStatus (hOk params rfl) hCall

theorem Tracked.sendNewStatusData (h : Tracked cap s) (hEnv : ReportsWithin env cap)
    (hStep : s.sendNewStatusData env = some t) : Tracked cap t := by
  obtain ⟨l, hRun, hStep⟩ := Option.bind_eq_some_iff.mp hStep
  have hLoop : Tracked cap l.mac := by
    apply @invariant_of_step _ _ _ _ _ (fun l => Tracked cap l.mac) _ _ h hRun
    intro l lcid l' hInv hNext
    obtain ⟨bsr, -, hNext⟩ := Option.bind_eq_some_iff.mp hNext
    obtain ⟨tbSize, -, hNext⟩ := Option.bind_eq_some_iff.mp hNext
    split at hNext
    · cases hNext
      exact hInv
    · split at hNext
      · obtain ⟨u, hNotify, hNext⟩ := Option.bind_eq_some_iff.mp hNext
        cases hNext
        exact (hInv.notifyTxOpportunity hEnv hNotify).updateBsr (fun _ hEq => hEq)
          BufferStatus.drainStatus_pending
      · cases hNext
        exact hInv
  split at hStep
  · cases hStep
  · cases hStep
    exact hLoop

theorem Tracked.sendShares (h : Tracked cap s) (hEnv : ReportsWithin env cap) {kind : PduKind}
    {drain : UInt32 → BufferStatus → BufferStatus} {usefulTbs active : UInt32}
    (hLcid : ∀ bytes bsr, (drain bytes bsr).lcid = bsr.lcid)
    (hLe : ∀ bytes bsr, (drain bytes bsr).pending ≤ bsr.pending)
    (hStep : s.sendShares env kind drain usefulTbs active = some t) : Tracked cap t := by
  rw [NrUeMac.sendShares] at hStep
  split at hStep
  · cases hStep
    exact h
  · apply invariant_of_step _ h hStep
    intro u lcid v hInv hNext
    obtain ⟨bsr, -, hNext⟩ := Option.bind_eq_some_iff.mp hNext
    obtain ⟨tbSize, -, hNext⟩ := Option.bind_eq_some_iff.mp hNext
    split at hNext
    · obtain ⟨w, hNotify, hNext⟩ := Option.bind_eq_some_iff.mp hNext
      cases hNext
      exact (hInv.notifyTxOpportunity hEnv hNotify).updateBsr
        (fun bsr hEq => (hLcid _ bsr).trans hEq) (hLe _)
    · cases hNext
      exact hInv

theorem Tracked.sendPending (h : Tracked cap s)
    {send : UInt32 → UInt32 → NrUeMac → Option NrUeMac} {active : UInt32}
    (hSend : ∀ usefulTbs u, send usefulTbs active s = some u → Tracked cap u)
    (hStep : s.sendPending send active = some t) : Tracked cap t := by
  obtain ⟨usefulTbs, -, hStep⟩ := Option.bind_eq_some_iff.mp hStep
  split at hStep
  · exact hSend _ t hStep
  · cases hStep
    exact h

theorem Tracked.sendNewData (h : Tracked cap s) (hEnv : ReportsWithin env cap)
    (hStep : s.sendNewData env = some t) : Tracked cap t := by
  obtain ⟨s₁, hReset, hStep⟩ := Option.bind_eq_some_iff.mp hStep
  obtain ⟨s₂, hStatus, hStep⟩ := Option.bind_eq_some_iff.mp hStep
  obtain ⟨s₃, hRetx, hStep⟩ := Option.bind_eq_some_iff.mp hStep
  obtain ⟨s₄, hTx, hStep⟩ := Option.bind_eq_some_iff.mp hStep
  have h₁ : Tracked cap s₁ := h.continues (resetHarq_continues hReset)
  have h₂ : Tracked cap s₂ := h₁.sendNewStatusData hEnv hStatus
  have h₃ : Tracked cap s₃ := h₂.sendPending (fun _ _ hSend =>
    h₂.sendShares hEnv BufferStatus.drainRetx_lcid BufferStatus.drainRetx_pending hSend) hRetx
  have h₄ : Tracked cap s₄ := h₃.sendPending (fun _ _ hSend =>
    h₃.sendShares hEnv BufferStatus.drainTx_lcid BufferStatus.drainTx_pending hSend) hTx
  split at hStep
  · exact h₄.continues (resetHarq_continues hStep)
  · cases hStep
    exact h₄

/-! ## The states -/

theorem getTotalBufSize_toNat (s : NrUeMac) : s.getTotalBufSize.toNat = s.pendingBytes % 2 ^ 32 := by
  rw [getTotalBufSize, pendingBytes]
  induction s.ulBsrReceived with
  | nil => rfl
  | cons bsr l ih =>
    rw [List.map_cons, List.sum_cons, UInt32.toNat_add, ih, BufferStatus.total_toNat,
      List.map_cons, List.sum_cons, ← Nat.add_mod]

theorem Tracked.pendingBytes_le (h : Tracked cap s) : s.pendingBytes ≤ ∑ lcid, cap lcid := by
  calc
    s.pendingBytes ≤ (s.ulBsrReceived.map fun bsr => cap bsr.lcid).sum :=
      List.sum_le_sum h.capped
    _ = ∑ lcid ∈ s.lcids.toFinset, cap lcid := by
      rw [List.sum_toFinset cap h.nodup, lcids, List.map_map]
      rfl
    _ ≤ ∑ lcid, cap lcid := Finset.sum_le_univ_sum_of_nonneg fun _ => Nat.zero_le _

/-- Sizes that fit in 32 bits together are added up without overflow. -/
theorem Tracked.pending_eq_zero (h : Tracked cap s) (hCap : ∑ lcid, cap lcid < 2 ^ 32)
    (hZero : s.getTotalBufSize = 0) : ∀ bsr ∈ s.ulBsrReceived, bsr.pending = 0 := by
  have hSum := getTotalBufSize_toNat s
  rw [hZero, Nat.mod_eq_of_lt (lt_of_le_of_lt h.pendingBytes_le hCap)] at hSum
  intro bsr hMem
  exact List.sum_eq_zero_iff.mp hSum.symm _ (List.mem_map_of_mem hMem)

theorem Tracked.inactive (h : Tracked cap s) (hZero : ∀ bsr ∈ s.ulBsrReceived, bsr.pending = 0) :
    Tracked cap (s.setSrState .inactive) where
  nodup := h.nodup
  capped := h.capped
  idle _ := hZero
  requested hState := by cases hState

theorem Tracked.finishNewData (h : Tracked cap s) (hCap : ∑ lcid, cap lcid < 2 ^ 32)
    (hStep : s.finishNewData = some t) : Tracked cap t := by
  obtain ⟨dci, -, hStep⟩ := Option.bind_eq_some_iff.mp hStep
  split at hStep
  · next hZero =>
    have hInactive := h.inactive (h.pending_eq_zero hCap hZero)
    dsimp only at hStep
    split at hStep
    · exact hInactive.continues (doTransmitPdu_continues hStep)
    · cases hStep
      exact hInactive
  · cases hStep
    exact h

theorem Tracked.processUlDci (h : Tracked cap s) (hEnv : ReportsWithin env cap)
    (hCap : ∑ lcid, cap lcid < 2 ^ 32) {now : ℕ} {dci : DciInfoElementTdma}
    (hStep : s.processUlDci env now dci = some t) : Tracked cap t := by
  have hStart : Tracked cap { s with ulDciTotalUsed := 0, ulDci := some dci } :=
    h.same rfl rfl rfl
  obtain ⟨tbSize, -, hStep⟩ := Option.bind_eq_some_iff.mp hStep
  obtain ⟨ndi, -, hStep⟩ := Option.bind_eq_some_iff.mp hStep
  split at hStep
  · obtain ⟨u, hRetx, hStep⟩ := Option.bind_eq_some_iff.mp hStep
    exact (hStart.continues (transmitRetx_continues hRetx)).continues (reportIfDue_continues hStep)
  · split at hStep
    · obtain ⟨u, hNew, hStep⟩ := Option.bind_eq_some_iff.mp hStep
      obtain ⟨v, hReport, hStep⟩ := Option.bind_eq_some_iff.mp hStep
      exact ((hStart.sendNewData hEnv hNew).continues
        (reportIfDue_continues hReport)).finishNewData hCap hStep
    · cases hStep
      exact hStart

/-- Entering `ACTIVE` with a request that is really sent. -/
theorem Tracked.active (h : Tracked cap s) (hRnti : s.rnti ≠ 0) :
    Tracked cap (s.sendSR.setSrState .active) := by
  rw [sendSR, if_neg hRnti]
  constructor
  · exact h.nodup
  · exact h.capped
  · intro hState
    cases hState
  · intro _
    refine ⟨s.output, s.rnti, [.srState .active], ?_, by decide⟩
    exact List.append_assoc _ _ _

/-- Reports stay below the bounds of their channels, and a request that is due has an RNTI. -/
def Meets (cap : UInt8 → ℕ) (s : NrUeMac) : Event → Prop
  | .reportBufferStatus params => params.pending ≤ cap params.lcid
  | .slotIndication sfn => s.srState = .toSend → SrOccasion s.srPeriodicity sfn → s.rnti ≠ 0
  | _ => True

instance (cap : UInt8 → ℕ) (s : NrUeMac) (e : Event) : Decidable (Meets cap s e) := by
  cases e <;> unfold Meets <;> infer_instance

theorem Tracked.step (h : Tracked cap s) (hEnv : ReportsWithin env cap)
    (hCap : ∑ lcid, cap lcid < 2 ^ 32) {e : Event} (hMeets : Meets cap s e)
    (hStep : s.step env e = some t) : Tracked cap t := by
  cases e with
  | reportBufferStatus params => exact h.doReportBufferStatus hMeets hStep
  | slotIndication sfn =>
    rw [NrUeMac.step, doSlotIndication] at hStep
    dsimp only at hStep
    split at hStep
    · next hToSend =>
      split at hStep
      · cases hStep
      · split at hStep
        · next hOccasion =>
          rw [← Option.some.inj hStep]
          exact Tracked.active (h.same rfl rfl rfl) (hMeets hToSend hOccasion)
        · rw [← Option.some.inj hStep]
          exact h.same rfl rfl rfl
    · rw [← Option.some.inj hStep]
      exact h.same rfl rfl rfl
  | ulDci now dci => exact h.processUlDci hEnv hCap hStep
  | setRnti rnti =>
    cases hStep
    exact h.same rfl rfl rfl
  | addLc lcid lcg =>
    rw [NrUeMac.step, addLc] at hStep
    split at hStep
    · cases hStep
      exact h.same rfl rfl rfl
    · cases hStep

theorem create_tracked (srPeriodicity : UInt8) (bsrPeriodicity : ℕ) (numHarqProcess : UInt8) :
    Tracked cap (create srPeriodicity bsrPeriodicity numHarqProcess) where
  nodup := List.nodup_nil
  capped := by
    intro bsr hMem
    cases hMem
  idle := by
    intro _ bsr hMem
    cases hMem
  requested hState := by cases hState

theorem requests_of_run {srPeriodicity numHarqProcess : UInt8} {bsrPeriodicity : ℕ}
    {events : List Event} (hCap : ∑ lcid, cap lcid < 2 ^ 32) (hEnv : ReportsWithin env cap)
    (hMeets : StepsMeet (step env) (Meets cap)
      (create srPeriodicity bsrPeriodicity numHarqProcess) events)
    (hRun : run (step env) (create srPeriodicity bsrPeriodicity numHarqProcess) events = some s) :
    s.Requests := by
  have hTracked : Tracked cap s :=
    invariant_of_run (fun _ _ _ hInv hOk hStep => Tracked.step hInv hEnv hCap hOk hStep)
      (create_tracked srPeriodicity bsrPeriodicity numHarqProcess) hMeets hRun
  exact hTracked.requests

/-- An RLC that has nothing to transmit. -/
def silent : UeEnvironment := ⟨List.cons, fun _ _ => .refl _, fun _ _ => []⟩

/-- A report and a request, with an RNTI. -/
theorem requests_of_run_registered :
    ∃ s, run (step silent) (create 10 2500000 20)
        [.addLc 3 2, .setRnti 1, .reportBufferStatus { lcid := 3, txQueueSize := 100 },
          .slotIndication ⟨0, 1, 0, 1⟩] = some s ∧ s.srState = .active ∧ s.Requests := by
  refine ⟨_, rfl, rfl, ?_⟩
  have hCap : ∑ lcid : UInt8, (if lcid = 3 then 100 else 0) < 2 ^ 32 := by
    rw [Finset.sum_ite_eq']
    decide
  have hEnv : ReportsWithin silent fun lcid => if lcid = 3 then 100 else 0 := by
    intro output opportunity params hMem
    cases hMem
  have hMeets : StepsMeet (step silent) (Meets fun lcid => if lcid = 3 then 100 else 0)
      (create 10 2500000 20) [.addLc 3 2, .setRnti 1,
        .reportBufferStatus { lcid := 3, txQueueSize := 100 }, .slotIndication ⟨0, 1, 0, 1⟩] := by
    decide
  exact requests_of_run hCap hEnv hMeets rfl

/-- The same report without an RNTI: the state is `ACTIVE`, and no request was sent. -/
theorem active_without_request :
    ∃ s, run (step silent) (create 10 2500000 20)
        [.addLc 3 2, .reportBufferStatus { lcid := 3, txQueueSize := 100 },
          .slotIndication ⟨0, 1, 0, 1⟩] = some s ∧ s.srState = .active ∧ s.pendingBytes = 100 ∧
      ¬ s.Requests := by
  refine ⟨_, rfl, rfl, rfl, fun h => ?_⟩
  obtain ⟨pre, rnti, post, hOutput, -⟩ := h.requested rfl
  have hMem : Output.sr rnti ∈ [.srState .toSend, .srState .active] := by
    have hSplit : Output.sr rnti ∈ pre ++ .sr rnti :: post :=
      List.mem_append_right _ List.mem_cons_self
    rwa [← hOutput] at hSplit
  simp at hMem

end NrUeMac
end Bullet.Ue
