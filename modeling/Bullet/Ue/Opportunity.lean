import Bullet.Ue.SchedulingRequest

/-! # Opportunities

The RLC answers an opportunity with one PDU at most, which is not longer than the opportunity. The
MAC accounts for the PDU with its header.
-/

namespace Bullet.Ue

open Lib.PartialRun Mac

/-- The bytes of a PDU with the header that the MAC puts before it. -/
def pduBytes (pdu : ℕ) : ℕ := pdu + if 127 < pdu % 2 ^ 16 then 3 else 2

theorem pduBytes_le (pdu : ℕ) : pduBytes pdu ≤ pdu + 3 := by
  rw [pduBytes]
  split <;> omega

theorem le_pduBytes (pdu : ℕ) : pdu + 2 ≤ pduBytes pdu := by
  rw [pduBytes]
  split <;> omega

theorem pduBytes_mono {pdu bytes : ℕ} (hLe : pdu ≤ bytes) (hShort : bytes < 2 ^ 16) :
    pduBytes pdu ≤ pduBytes bytes := by
  rw [pduBytes, pduBytes, Nat.mod_eq_of_lt hShort, Nat.mod_eq_of_lt (lt_of_le_of_lt hLe hShort)]
  split <;> split <;> omega

/-- What the MAC accounts for an answer. -/
def answered : List RlcCall → ℕ
  | [.transmitPdu params] => pduBytes params.pdu.toNat
  | _ => 0

/-- An RLC that answers an opportunity with one PDU at most, within the bytes it was offered. -/
def Answers (env : UeEnvironment) : Prop :=
  ∀ output params, env.notify output params = [] ∨ ∃ pdu ≤ params.bytes,
    env.notify output params = [.transmitPdu ⟨params.lcid, params.harqId, pdu⟩]

/-- What an RLC answers to an opportunity stays within the opportunity and a header. -/
theorem Answers.answered_le {env : UeEnvironment} (hAnswers : Answers env) (output : List Output)
    (params : TxOpportunityParameters) :
    answered (env.notify output params) ≤ params.bytes.toNat + 3 := by
  obtain hNone | ⟨pdu, hLe, hPdu⟩ := hAnswers output params
  · rw [hNone]
    exact Nat.zero_le _
  · rw [hPdu]
    exact le_trans (pduBytes_le _) (Nat.add_le_add_right (UInt32.le_iff_toNat_le.mp hLe) 3)

theorem Answers.answered_le_pduBytes {env : UeEnvironment} (hAnswers : Answers env) (output : List Output)
    (params : TxOpportunityParameters) (hShort : params.bytes.toNat < 2 ^ 16) :
    answered (env.notify output params) ≤ pduBytes params.bytes.toNat := by
  obtain hNone | ⟨pdu, hLe, hPdu⟩ := hAnswers output params
  · rw [hNone]
    exact Nat.zero_le _
  · rw [hPdu]
    exact pduBytes_mono (UInt32.le_iff_toNat_le.mp hLe) hShort

/-- The size of the transport block of a grant. -/
def tbs (dci : DciInfoElementTdma) : ℕ := (dci.tbSize.headD 0).toNat

namespace NrUeMac

variable {env : UeEnvironment} {dci : DciInfoElementTdma} {s t u : NrUeMac}

theorem macHeaderSize_toNat (pdu : UInt32) :
    (macHeaderSize pdu).toNat = if 127 < pdu.toNat % 2 ^ 16 then 3 else 2 := by
  have hIff : (127 : UInt16) < pdu.toUInt16 ↔ 127 < pdu.toNat % 2 ^ 16 := by
    rw [UInt16.lt_iff_toNat_lt, UInt32.toNat_toUInt16]
    exact Iff.rfl
  rw [macHeaderSize]
  split
  · next hLong => rw [if_pos (hIff.mp hLong)]; rfl
  · next hShort => rw [if_neg (mt hIff.mpr hShort)]; rfl

/-- A channel that the RRC has added, with an identifier that a header can carry. -/
structure Configured (lcInfoMap : List (UInt8 × UInt8)) (lcid : UInt8) : Prop where
  positive : 1 ≤ lcid
  small : lcid ≤ 32
  group : ∃ lcg : UInt8, lcg < 4 ∧ lcInfoMap.lookup lcid = some lcg

/-- The UE is using a grant. -/
structure Using (dci : DciInfoElementTdma) (s : NrUeMac) : Prop where
  ulDci : s.ulDci = some dci
  tbSize : dci.tbSize ≠ []
  harqProcess : dci.harqProcess.toNat < s.miUlHarqProcessesPacket.length
  nodup : s.lcids.Nodup
  channels : ∀ lcid ∈ s.lcids, Configured s.lcInfoMap lcid

theorem Using.tbSize_eq (h : Using dci s) : s.tbSize = some (dci.tbSize.headD 0) := by
  rw [NrUeMac.tbSize, h.ulDci]
  cases hTbs : dci.tbSize with
  | nil => exact absurd hTbs h.tbSize
  | cons size _ => exact congrArg List.head? hTbs

/-- `n` more bytes of the grant are used, for PDUs. -/
structure Transmits (n : ℕ) (s t : NrUeMac) : Prop where
  ulDci : t.ulDci = s.ulDci
  lcInfoMap : t.lcInfoMap = s.lcInfoMap
  ulBsrReceived : t.ulBsrReceived = s.ulBsrReceived
  processes : t.miUlHarqProcessesPacket.length = s.miUlHarqProcessesPacket.length
  used : t.ulDciTotalUsed.toNat = s.ulDciTotalUsed.toNat + n
  output : ∃ pdus : List UInt32,
    t.output = s.output ++ pdus.map .macPdu ∧ (pdus.map UInt32.toNat).sum = n

theorem Transmits.refl (s : NrUeMac) : Transmits 0 s s :=
  ⟨rfl, rfl, rfl, rfl, rfl, [], (List.append_nil _).symm, rfl⟩

theorem Using.transmits {n : ℕ} (h : Using dci s) (hNext : Transmits n s t) : Using dci t where
  ulDci := hNext.ulDci.trans h.ulDci
  tbSize := h.tbSize
  harqProcess := hNext.processes ▸ h.harqProcess
  nodup := by
    rw [lcids, hNext.ulBsrReceived]
    exact h.nodup
  channels lcid hMem := by
    rw [lcids, hNext.ulBsrReceived] at hMem
    rw [hNext.lcInfoMap]
    exact h.channels lcid hMem

/-- A PDU is transmitted when it fits in what is left. -/
theorem doTransmitPdu_cases (h : Using dci s) {lcid : UInt8} (hPositive : 1 ≤ lcid)
    (hSmall : lcid ≤ 32) {pdu : UInt32}
    (hWord : s.ulDciTotalUsed.toNat + pduBytes pdu.toNat < 2 ^ 32) :
    (s.ulDciTotalUsed.toNat + pduBytes pdu.toNat ≤ tbs dci ∧
      ∃ t, s.doTransmitPdu ⟨lcid, dci.harqProcess, pdu⟩ = some t ∧
        Transmits (pduBytes pdu.toNat) s t) ∨
    (tbs dci < s.ulDciTotalUsed.toNat + pduBytes pdu.toNat ∧
      s.doTransmitPdu ⟨lcid, dci.harqProcess, pdu⟩ = none) := by
  have hHeader := macHeaderSize_toNat pdu
  have hSize : (pdu + macHeaderSize pdu).toNat = pduBytes pdu.toNat := by
    rw [UInt32.toNat_add, hHeader]
    exact Nat.mod_eq_of_lt (lt_of_le_of_lt (Nat.le_add_left _ _) hWord)
  have hUsed : (s.ulDciTotalUsed + (pdu + macHeaderSize pdu)).toNat =
      s.ulDciTotalUsed.toNat + pduBytes pdu.toNat := by
    rw [UInt32.toNat_add, hSize]
    exact Nat.mod_eq_of_lt hWord
  have hInfo := List.getElem?_eq_getElem h.harqProcess
  simp only [doTransmitPdu, h.ulDci, h.tbSize_eq, hInfo, Option.bind_eq_bind, Option.bind_some,
    ne_eq, not_true_eq_false, false_or, hPositive, hSmall, and_self]
  by_cases hFits : s.ulDciTotalUsed.toNat + pduBytes pdu.toNat ≤ tbs dci
  · left
    refine ⟨hFits, ?_⟩
    rw [if_neg]
    · refine ⟨_, rfl, ⟨h.ulDci.symm, rfl, rfl, List.length_set, hUsed, [pdu + macHeaderSize pdu], rfl, ?_⟩⟩
      rw [List.map_singleton, List.sum_singleton, hSize]
    · rw [UInt32.not_lt, UInt32.le_iff_toNat_le, hUsed]
      exact hFits
  · right
    refine ⟨Nat.lt_of_not_le hFits, ?_⟩
    rw [if_pos]
    rw [UInt32.lt_iff_toNat_lt, hUsed]
    exact Nat.lt_of_not_le hFits

theorem Using.emit (h : Using dci s) (o : Output) : Using dci (s.emit o) :=
  ⟨h.ulDci, h.tbSize, h.harqProcess, h.nodup, h.channels⟩

/-- An opportunity is answered, and the answer fits in what is left. -/
theorem notifyTxOpportunity_cases (h : Using dci s) (hAnswers : Answers env) (kind : PduKind)
    {bsr : BufferStatus} (bytes : UInt32) (hMem : bsr.lcid ∈ s.lcids)
    (hUsed : s.ulDciTotalUsed.toNat ≤ tbs dci) {n : ℕ}
    (hAnswer : answered (env.notify s.output ⟨bsr.lcid, bytes, dci.harqProcess⟩) = n)
    (hWord : s.ulDciTotalUsed.toNat + n < 2 ^ 32) :
    (s.ulDciTotalUsed.toNat + n ≤ tbs dci ∧
      ∃ t, s.notifyTxOpportunity env kind bsr bytes = some t ∧
        Transmits n (s.emit (.txOpportunity kind bsr bytes)) t) ∨
    (tbs dci < s.ulDciTotalUsed.toNat + n ∧ s.notifyTxOpportunity env kind bsr bytes = none) := by
  obtain ⟨hPositive, hSmall, lcg, -, hLookup⟩ := h.channels bsr.lcid hMem
  simp only [notifyTxOpportunity, h.ulDci, hLookup, Option.bind_eq_bind, Option.bind_some]
  obtain hNone | ⟨pdu, -, hPdu⟩ := hAnswers s.output ⟨bsr.lcid, bytes, dci.harqProcess⟩
  · rw [hNone] at hAnswer ⊢
    subst hAnswer
    exact .inl ⟨hUsed, _, rfl, .refl _⟩
  · rw [hPdu] at hAnswer ⊢
    subst hAnswer
    rw [run_cons, rlcCall]
    obtain ⟨hFits, t, hStep, hNext⟩ | ⟨hExceeds, hStep⟩ :=
      doTransmitPdu_cases (h.emit (.txOpportunity kind bsr bytes)) hPositive hSmall hWord
    · exact .inl ⟨hFits, t, by rw [hStep]; rfl, hNext⟩
    · exact .inr ⟨hExceeds, by rw [hStep]; rfl⟩

/-! ## The entries -/

theorem bsrOf_of_split {pre rest : List BufferStatus} {bsr : BufferStatus} (hNodup : s.lcids.Nodup)
    (hSplit : s.ulBsrReceived = pre ++ bsr :: rest) : s.bsrOf bsr.lcid = some bsr := by
  rw [lcids, hSplit, List.map_append, List.map_cons] at hNodup
  have hPre : ∀ b ∈ pre, b.lcid ≠ bsr.lcid := by
    intro b hMem hEq
    apply (List.nodup_append.mp hNodup).2.2 b.lcid (List.mem_map_of_mem hMem) bsr.lcid
    · exact List.mem_cons_self
    · exact hEq
  rw [bsrOf, hSplit, List.find?_append, List.find?_eq_none.mpr, Option.none_or, List.find?_cons_of_pos]
  · exact decide_eq_true rfl
  · intro b hMem
    simpa using hPre b hMem

theorem updateBsr_of_split {pre rest : List BufferStatus} {bsr : BufferStatus}
    (hNodup : s.lcids.Nodup) (hSplit : s.ulBsrReceived = pre ++ bsr :: rest)
    (f : BufferStatus → BufferStatus) :
    (s.updateBsr bsr.lcid f).ulBsrReceived = pre ++ f bsr :: rest := by
  rw [lcids, hSplit, List.map_append, List.map_cons] at hNodup
  obtain ⟨-, hRest, hPre⟩ := List.nodup_append.mp hNodup
  have hOther : ∀ l : List BufferStatus, (∀ b ∈ l, b.lcid ≠ bsr.lcid) →
      (l.map fun b => if b.lcid = bsr.lcid then f b else b) = l := by
    intro l hl
    conv_rhs => rw [← List.map_id l]
    apply List.map_congr_left
    intro b hMem
    exact if_neg (hl b hMem)
  rw [updateBsr]
  dsimp only
  rw [hSplit, List.map_append, List.map_cons, if_pos rfl, hOther pre, hOther rest]
  · intro b hMem hEq
    exact (List.nodup_cons.mp hRest).1 (hEq ▸ List.mem_map_of_mem hMem)
  · intro b hMem
    exact hPre b.lcid (List.mem_map_of_mem hMem) bsr.lcid List.mem_cons_self

end NrUeMac
end Bullet.Ue
