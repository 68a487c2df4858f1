import Mathlib.Data.Nat.Find
import Bullet.Ue.GrantBudget

/-! # The grants that fit

A grant that does not fit is not kept for some RLC: one that never answers is offered bytes for an
empty queue, and one that fills the block up before its last status PDU exceeds it.
-/

namespace Bullet.Ue

open Lib.PartialRun Lib.Shares Mac

namespace NrUeMac

variable {env : UeEnvironment} {dci : DciInfoElementTdma} {s t u : NrUeMac}

/-! ## An RLC that never answers -/

theorem answers_silent : Answers silent := fun _ _ => .inl rfl

/-- Nothing more is accounted, and what was put out stays. -/
structure Quiet (s t : NrUeMac) : Prop where
  used : t.ulDciTotalUsed = s.ulDciTotalUsed
  output : s.output <+: t.output

theorem Quiet.refl (s : NrUeMac) : Quiet s s := ⟨rfl, List.prefix_refl _⟩

theorem Quiet.trans (h : Quiet s t) (hNext : Quiet t u) : Quiet s u :=
  ⟨hNext.used.trans h.used, h.output.trans hNext.output⟩

theorem notifyTxOpportunity_silent {kind : PduKind} {bsr : BufferStatus} {bytes : UInt32}
    (hStep : s.notifyTxOpportunity silent kind bsr bytes = some t) :
    t = s.emit (.txOpportunity kind bsr bytes) := by
  obtain ⟨dci, -, hStep⟩ := Option.bind_eq_some_iff.mp hStep
  obtain ⟨lcg, -, hStep⟩ := Option.bind_eq_some_iff.mp hStep
  exact (Option.some.inj hStep).symm

theorem sendNewStatusData_quiet (hStep : s.sendNewStatusData silent = some t) : Quiet s t := by
  obtain ⟨l, hRun, hStep⟩ := Option.bind_eq_some_iff.mp hStep
  have hLoop : Quiet s l.mac := by
    apply @invariant_of_step _ _ _ _ _ (fun l => Quiet s l.mac) _ _ (Quiet.refl s) hRun
    intro l lcid l' hInv hNext
    obtain ⟨bsr, -, hNext⟩ := Option.bind_eq_some_iff.mp hNext
    obtain ⟨tbSize, -, hNext⟩ := Option.bind_eq_some_iff.mp hNext
    split at hNext
    · cases hNext
      exact hInv
    · split at hNext
      · obtain ⟨u, hNotify, hNext⟩ := Option.bind_eq_some_iff.mp hNext
        cases hNext
        rw [notifyTxOpportunity_silent hNotify]
        exact hInv.trans ⟨rfl, List.prefix_append _ _⟩
      · cases hNext
        exact hInv
  split at hStep
  · cases hStep
  · cases hStep
    exact hLoop

theorem sendPass_quiet {kind : PduKind} {drain : UInt32 → BufferStatus → BufferStatus}
    {active : UInt32} (hStep : s.sendPass silent kind drain active = some t) : Quiet s t := by
  obtain ⟨usefulTbs, -, hStep⟩ := Option.bind_eq_some_iff.mp hStep
  split at hStep
  · dsimp only at hStep
    rw [sendShares] at hStep
    split at hStep
    · cases hStep
      exact .refl s
    · apply invariant_of_step _ (Quiet.refl s) hStep
      intro u lcid v hInv hNext
      obtain ⟨bsr, -, hNext⟩ := Option.bind_eq_some_iff.mp hNext
      obtain ⟨tbSize, -, hNext⟩ := Option.bind_eq_some_iff.mp hNext
      split at hNext
      · obtain ⟨w, hNotify, hNext⟩ := Option.bind_eq_some_iff.mp hNext
        cases hNext
        rw [notifyTxOpportunity_silent hNotify]
        exact hInv.trans ⟨rfl, List.prefix_append _ _⟩
      · cases hNext
        exact hInv
  · cases hStep
    exact .refl s

/-- An opportunity for an empty queue was put out between two states. -/
def OffersEmpty (s t : NrUeMac) : Prop :=
  ∃ new, t.output = s.output ++ new ∧
    ∃ kind bsr bytes, .txOpportunity kind bsr bytes ∈ new ∧ bsr.pendingOf kind = 0

theorem OffersEmpty.not_offersPending (h : OffersEmpty s t) : ¬ OffersPending s t := by
  rintro ⟨new, hNew, hPending⟩
  obtain ⟨new', hNew', kind, bsr, bytes, hMem, hEmpty⟩ := h
  rw [List.append_cancel_left (hNew'.symm.trans hNew)] at hMem
  exact absurd hEmpty (Nat.ne_of_gt (hPending kind bsr bytes hMem))

theorem OffersEmpty.extend (h : OffersEmpty t u) (hStart : s.output <+: t.output) {v : NrUeMac}
    (hEnd : u.output <+: v.output) : OffersEmpty s v := by
  obtain ⟨new, hNew, kind, bsr, bytes, hMem, hEmpty⟩ := h
  obtain ⟨first, hFirst⟩ := hStart
  obtain ⟨last, hLast⟩ := hEnd
  refine ⟨first ++ (new ++ last), ?_, kind, bsr, bytes, ?_, hEmpty⟩
  · rw [← hLast, hNew, ← hFirst, List.append_assoc, List.append_assoc]
  · exact List.mem_append_right _ (List.mem_append_left _ hMem)

/-- The loop of a pass with the entries that remain, one of which is to be offered bytes. -/
structure Offering (dci : DciInfoElementTdma) (s : NrUeMac) (entry : BufferStatus)
    (rest : List BufferStatus) (t : NrUeMac) : Prop where
  keepsGrant : Using dci t
  entries : ∃ pre, t.ulBsrReceived = pre ++ rest
  quiet : Quiet s t
  offered : entry ∈ rest ∨ OffersEmpty s t

theorem Offering.step {kind : PduKind} {bytes : UInt32}
    {drain : UInt32 → BufferStatus → BufferStatus} (hDrain : Drains kind (drain bytes))
    {entry : BufferStatus} (hEmpty : entry.pendingOf kind = 0) {bsr : BufferStatus}
    {rest : List BufferStatus} (hStart : s.ulDciTotalUsed = 0)
    (hBytes : bytes ≤ dci.tbSize.headD 0) (h : Offering dci s entry (bsr :: rest) t)
    (hStep : t.sendShare silent kind bytes drain bsr.lcid = some u) :
    Offering dci s entry rest u := by
  obtain ⟨hUsing, ⟨pre, hSplit⟩, hQuiet, hOffered⟩ := h
  have hOffer : t.ulDciTotalUsed + bytes ≤ dci.tbSize.headD 0 := by
    rw [hQuiet.used, hStart, UInt32.zero_add]
    exact hBytes
  simp only [sendShare, bsrOf_of_split hUsing.nodup hSplit, hUsing.tbSize_eq, Option.bind_eq_bind,
    Option.bind_some, if_pos hOffer] at hStep
  obtain ⟨v, hNotify, hStep⟩ := Option.bind_eq_some_iff.mp hStep
  cases hStep
  rw [notifyTxOpportunity_silent hNotify]
  have hEmit : Using dci (t.emit (.txOpportunity kind bsr bytes)) := hUsing.emit _
  constructor
  · exact (hDrain.serves _ bsr.lcid).keepsGrant dci hEmit
  · refine ⟨pre ++ [drain bytes bsr], ?_⟩
    rw [List.append_assoc]
    exact updateBsr_of_split hEmit.nodup hSplit _
  · exact hQuiet.trans ⟨rfl, List.prefix_append _ _⟩
  · obtain hMem | hDone := hOffered
    · obtain rfl | hRest := List.mem_cons.mp hMem
      · right
        obtain ⟨first, hFirst⟩ := hQuiet.output
        refine ⟨first ++ [.txOpportunity kind entry bytes], ?_, kind, entry, bytes, ?_, hEmpty⟩
        · change t.output ++ _ = _
          rw [← hFirst, List.append_assoc]
        · exact List.mem_append_right _ List.mem_cons_self
      · exact .inl hRest
    · exact .inr (hDone.extend (List.prefix_refl _) (List.prefix_append _ _))

/-- A pass that does not fit offers bytes for an empty queue. -/
theorem sendPass_offersEmpty (h : Using dci s) {kind : PduKind}
    {drain : UInt32 → BufferStatus → BufferStatus} (hDrain : ∀ bytes, Drains kind (drain bytes))
    (hStart : s.ulDciTotalUsed = 0) (hTbs : 5 ≤ tbs dci)
    (hMisfit : ¬ SharesFit (tbs dci) (s.queues kind))
    (hStep : s.sendPass silent kind drain (s.active kind) = some t) : OffersEmpty s t := by
  simp only [SharesFit, Classical.not_imp, not_forall] at hMisfit
  obtain ⟨hPos, hRuns, bytes, hMem, hZero⟩ := hMisfit
  obtain ⟨entry, hEntry, rfl⟩ := List.mem_map.mp hMem
  have hCount := active_toNat h kind
  have hUsed : s.ulDciTotalUsed.toNat = 0 := by rw [hStart]; rfl
  obtain ⟨hActive, -, usefulTbs, hShares, hPass⟩ | ⟨hSkipped, -⟩ :=
    sendPending_cases h (fun usefulTbs active s => s.sendShares silent kind drain usefulTbs active)
      (hCount ▸ active_le h kind) (by omega)
  · rw [sendPass, hPass, sendShares, if_neg, lcids, run_map] at hStep
    · have hBytes : usefulTbs / s.active kind ≤ dci.tbSize.headD 0 := by
        rw [UInt32.le_iff_toNat_le, UInt32.toNat_div]
        exact le_trans (Nat.div_le_self _ _) (by change _ ≤ tbs dci; omega)
      have hLoop : Offering dci s entry s.ulBsrReceived s :=
        ⟨h, ⟨[], rfl⟩, .refl s, .inl hEntry⟩
      have hEnd : Offering dci s entry [] t :=
        invariant_of_remaining (fun _ _ _ _ hInv hNext =>
          hInv.step (hDrain _) (Nat.eq_zero_of_not_pos hZero) hStart hBytes hNext) hLoop hStep
      exact hEnd.offered.resolve_left List.not_mem_nil
    · intro hNone
      rw [hNone] at hActive
      exact absurd hActive (by decide)
  · omega

/-! ## An RLC that fills the block up -/

/-- The bytes of the PDUs that were put out. -/
def accounted (output : List Output) : ℕ :=
  total output fun o => match o with
    | .macPdu size => size.toNat
    | _ => 0

theorem accounted_append (l m : List Output) : accounted (l ++ m) = accounted l + accounted m := by
  rw [accounted, total, List.map_append, List.sum_append]
  rfl

theorem accounted_pdus (pdus : List UInt32) :
    accounted (pdus.map .macPdu) = (pdus.map UInt32.toNat).sum := by
  rw [accounted, total, List.map_map]
  rfl

/-- The longest PDU, of at most the bytes offered, that fits in a room with its header. -/
def longestPdu (room : ℕ) (bytes : UInt32) : UInt32 :=
  UInt32.ofNat (Nat.findGreatest (fun pdu => pduBytes pdu ≤ room) bytes.toNat)

theorem longestPdu_toNat (room : ℕ) (bytes : UInt32) :
    (longestPdu room bytes).toNat =
      Nat.findGreatest (fun pdu => pduBytes pdu ≤ room) bytes.toNat :=
  UInt32.toNat_ofNat_of_lt' (lt_of_le_of_lt (Nat.findGreatest_le _) (UInt32.toNat_lt bytes))

theorem pduBytes_succ_le (pdu : ℕ) (hShort : pdu + 1 < 2 ^ 16) :
    pduBytes (pdu + 1) ≤ pduBytes pdu + 2 := by
  rw [pduBytes, pduBytes, Nat.mod_eq_of_lt hShort, Nat.mod_eq_of_lt (lt_trans (Nat.lt_succ_self _) hShort)]
  split <;> split <;> omega

/-- A PDU that fills a room up leaves at most one byte, or is as long as the bytes offered. -/
theorem longestPdu_fills {room : ℕ} {bytes : UInt32} (hRoom : 2 ≤ room)
    (hShort : bytes.toNat < 2 ^ 16) :
    pduBytes (longestPdu room bytes).toNat ≤ room ∧
      (longestPdu room bytes = bytes ∨
        room ≤ pduBytes (longestPdu room bytes).toNat + 1) := by
  have hLe : (longestPdu room bytes).toNat ≤ bytes.toNat := by
    rw [longestPdu_toNat]
    exact Nat.findGreatest_le _
  constructor
  · rw [longestPdu_toNat]
    exact Nat.findGreatest_spec (P := fun pdu => pduBytes pdu ≤ room) (Nat.zero_le _) hRoom
  · by_cases hLast : (longestPdu room bytes).toNat = bytes.toNat
    · exact .inl (UInt32.toNat_inj.mp hLast)
    · right
      have hLonger : ¬ pduBytes ((longestPdu room bytes).toNat + 1) ≤ room := by
        have hGreatest := longestPdu_toNat room bytes
        exact Nat.findGreatest_is_greatest (P := fun pdu => pduBytes pdu ≤ room)
          (hGreatest ▸ Nat.lt_succ_self _) (Nat.lt_of_le_of_ne hLe hLast)
      have hStep := pduBytes_succ_le (longestPdu room bytes).toNat (by omega)
      omega

theorem cons_perm (bsr : BufferStatus) (l : List BufferStatus) : (bsr :: l).Perm (bsr :: l) :=
  .refl _

/-- An RLC that fills the output up to a limit, and answers one channel in full. -/
def greedy (limit : ℕ) (last : UInt8) : UeEnvironment where
  insert := List.cons
  insert_perm := cons_perm
  notify output params :=
    if params.lcid = last then [.transmitPdu ⟨params.lcid, params.harqId, params.bytes⟩]
    else if limit - accounted output < 2 then []
    else [.transmitPdu ⟨params.lcid, params.harqId,
      longestPdu (limit - accounted output) params.bytes⟩]

theorem answers_greedy (limit : ℕ) (last : UInt8) : Answers (greedy limit last) := by
  intro output params
  change (if _ then _ else _) = _ ∨ _
  dsimp only [greedy]
  split
  · exact .inr ⟨params.bytes, UInt32.le_refl _, rfl⟩
  · split
    · exact .inl rfl
    · refine .inr ⟨_, ?_, rfl⟩
      rw [UInt32.le_iff_toNat_le, longestPdu_toNat]
      exact Nat.findGreatest_le _

theorem answered_greedy (limit : ℕ) {last : UInt8} (output : List Output)
    (params : TxOpportunityParameters) (hOther : params.lcid ≠ last)
    (hShort : params.bytes.toNat < 2 ^ 16) :
    answered ((greedy limit last).notify output params) ≤ limit - accounted output ∧
      (answered ((greedy limit last).notify output params) = pduBytes params.bytes.toNat ∨
        limit - accounted output ≤ answered ((greedy limit last).notify output params) + 1) := by
  dsimp only [greedy]
  rw [if_neg hOther]
  split
  · next hFull => exact ⟨Nat.zero_le _, .inr (Nat.le_of_lt_succ hFull)⟩
  · next hRoom =>
    obtain ⟨hFits, hFills⟩ := longestPdu_fills (Nat.le_of_not_lt hRoom) hShort
    refine ⟨hFits, hFills.imp_left fun hAll => ?_⟩
    rw [hAll]
    rfl

theorem answered_greedy_last {limit : ℕ} {output : List Output} (params : TxOpportunityParameters) :
    answered ((greedy limit params.lcid).notify output params) = pduBytes params.bytes.toNat := by
  dsimp only [greedy]
  rw [if_pos rfl]
  rfl

/-- The loop over the status PDUs of an answering RLC: what the PDUs put out and what is accounted
grow together, and a status PDU that fits is offered its bytes. -/
structure StatusStep (env : UeEnvironment) (dci : DciInfoElementTdma) (pre rest : List BufferStatus)
    (bsr : BufferStatus) (l l' : StatusLoop) (n : ℕ) : Prop where
  keepsGrant : Using dci l'.mac
  entries : ∃ b, l'.mac.ulBsrReceived = (pre ++ [b]) ++ rest
  used : l'.mac.ulDciTotalUsed.toNat = l.mac.ulDciTotalUsed.toNat + n
  output : accounted l'.mac.output = accounted l.mac.output + n
  room : l'.mac.ulDciTotalUsed.toNat ≤ tbs dci
  answer : 0 < bsr.statusPduSize.toNat ∧
      l.mac.ulDciTotalUsed.toNat + bsr.statusPduSize.toNat ≤ tbs dci ∧
      n = answered (env.notify l.mac.output
        ⟨bsr.lcid, bsr.statusPduSize.toUInt32, dci.harqProcess⟩) ∨
    ¬ (0 < bsr.statusPduSize.toNat ∧
      l.mac.ulDciTotalUsed.toNat + bsr.statusPduSize.toNat ≤ tbs dci) ∧ n = 0

theorem statusStep_of_sendStatusPdu (hAnswers : Answers env) (hSmall : tbs dci < 2 ^ 31)
    {pre rest : List BufferStatus} {bsr : BufferStatus} {l l' : StatusLoop}
    (hUsing : Using dci l.mac) (hSplit : l.mac.ulBsrReceived = pre ++ bsr :: rest)
    (hRoom : l.mac.ulDciTotalUsed.toNat ≤ tbs dci)
    (hStep : sendStatusPdu env l bsr.lcid = some l') :
    ∃ n, StatusStep env dci pre rest bsr l l' n := by
  have hSame : l.mac.ulBsrReceived = (pre ++ [bsr]) ++ rest := by
    rw [hSplit, List.append_assoc]
    rfl
  have hMem : bsr.lcid ∈ l.mac.lcids := by
    rw [lcids, hSplit]
    exact List.mem_map_of_mem (List.mem_append_right pre List.mem_cons_self)
  have hBytes : bsr.statusPduSize.toUInt32.toNat = bsr.statusPduSize.toNat :=
    UInt16.toNat_toUInt32 _
  have hShort : bsr.statusPduSize.toNat < 2 ^ 16 := UInt16.toNat_lt _
  have hOffer : l.mac.ulDciTotalUsed + bsr.statusPduSize.toUInt32 ≤ dci.tbSize.headD 0 ↔
      l.mac.ulDciTotalUsed.toNat + bsr.statusPduSize.toNat ≤ tbs dci := by
    rw [UInt32.le_iff_toNat_le, UInt32.toNat_add, hBytes, ← tbs, Nat.mod_eq_of_lt (by omega)]
  simp only [sendStatusPdu, bsrOf_of_split hUsing.nodup hSplit, hUsing.tbSize_eq,
    Option.bind_eq_bind, Option.bind_some, hOffer] at hStep
  have hIdle : ∀ l₂ : StatusLoop, l₂.mac = l.mac →
      ¬ (0 < bsr.statusPduSize.toNat ∧
        l.mac.ulDciTotalUsed.toNat + bsr.statusPduSize.toNat ≤ tbs dci) →
      StatusStep env dci pre rest bsr l l₂ 0 := by
    intro l₂ hMac hSkipped
    constructor
    · rwa [hMac]
    · exact ⟨bsr, by rw [hMac, hSame]⟩
    · rw [hMac, Nat.add_zero]
    · rw [hMac, Nat.add_zero]
    · rwa [hMac]
    · exact .inr ⟨hSkipped, rfl⟩
  split at hStep
  · next hEmpty =>
    cases hStep
    refine ⟨0, hIdle l rfl ?_⟩
    rw [hEmpty]
    exact fun hBoth => absurd hBoth.1 (by decide)
  · next hSome =>
    split at hStep
    · next hFits =>
      obtain ⟨t, hNotify, hStep⟩ := Option.bind_eq_some_iff.mp hStep
      cases hStep
      have hMost := hAnswers.answered_le l.mac.output
        ⟨bsr.lcid, bsr.statusPduSize.toUInt32, dci.harqProcess⟩
      rw [hBytes] at hMost
      obtain ⟨hLeft, t', hNotify', hNext⟩ | ⟨-, hFails⟩ := notifyTxOpportunity_cases hUsing hAnswers
        .status bsr.statusPduSize.toUInt32 hMem hRoom rfl (by omega)
      · rw [hNotify] at hNotify'
        cases hNotify'
        have hUsingT := (hUsing.emit (.txOpportunity .status bsr bsr.statusPduSize.toUInt32)).transmits
          hNext
        refine ⟨_, (drains_drainStatus.serves t bsr.lcid).keepsGrant dci hUsingT, ?_, hNext.used, ?_,
          ?_, .inl ⟨?_, hFits, rfl⟩⟩
        · refine ⟨bsr.drainStatus, ?_⟩
          rw [List.append_assoc]
          exact updateBsr_of_split hUsingT.nodup (hNext.ulBsrReceived.trans hSplit) _
        · obtain ⟨pdus, hOutput, hSum⟩ := hNext.output
          change accounted t.output = _
          rw [hOutput, accounted_append, accounted_pdus, hSum]
          change accounted (l.mac.output ++ _) + _ = _
          rw [accounted_append]
          rfl
        · exact le_of_eq_of_le hNext.used hLeft
        · exact Nat.pos_of_ne_zero fun hZero => hSome (UInt16.toNat_inj.mp hZero)
      · rw [hNotify] at hFails
        cases hFails
    · next hLarge =>
      cases hStep
      exact ⟨0, hIdle _ rfl fun hBoth => hLarge hBoth.2⟩

/-- The loop before the last status PDU that fits on its own, with the entries that remain before
it: what is used is all that was offered, or as good as the limit. -/
structure Filling (dci : DciInfoElementTdma) (base limit sum : ℕ) (tail rest : List BufferStatus)
    (l : StatusLoop) : Prop where
  keepsGrant : Using dci l.mac
  entries : ∃ pre, l.mac.ulBsrReceived = pre ++ (rest ++ tail)
  accounted_eq : accounted l.mac.output = base + l.mac.ulDciTotalUsed.toNat
  used_le : l.mac.ulDciTotalUsed.toNat ≤ limit
  fills : l.mac.ulDciTotalUsed.toNat + statusSum (tbs dci) rest = sum ∨
    limit ≤ l.mac.ulDciTotalUsed.toNat + 1

theorem Filling.step (hSmall : tbs dci < 2 ^ 31) {base limit sum : ℕ} {last : UInt8}
    (hLimit : limit ≤ tbs dci) (hSum : sum + 5 ≤ tbs dci) {tail rest : List BufferStatus}
    {bsr : BufferStatus} {l l' : StatusLoop} (hOther : bsr.lcid ≠ last)
    (h : Filling dci base limit sum tail (bsr :: rest) l)
    (hStep : sendStatusPdu (greedy (base + limit) last) l bsr.lcid = some l') :
    Filling dci base limit sum tail rest l' := by
  obtain ⟨hUsing, ⟨pre, hSplit⟩, hAccounted, hUsed, hFills⟩ := h
  obtain ⟨n, hUsing', ⟨b, hSplit'⟩, hUsed', hOutput, -, hAnswer⟩ :=
    statusStep_of_sendStatusPdu (answers_greedy _ _) hSmall hUsing hSplit
      (le_trans hUsed hLimit) hStep
  have hBytes : bsr.statusPduSize.toUInt32.toNat = bsr.statusPduSize.toNat :=
    UInt16.toNat_toUInt32 _
  have hRoom : base + limit - accounted l.mac.output = limit - l.mac.ulDciTotalUsed.toNat := by
    omega
  rw [statusSum, total_cons, ← statusSum, statusBytes] at hFills
  obtain ⟨hPos, hFits, hAnswer⟩ | ⟨hSkipped, rfl⟩ := hAnswer
  · obtain ⟨hLe, hMost⟩ := answered_greedy (base + limit) l.mac.output
      ⟨bsr.lcid, bsr.statusPduSize.toUInt32, dci.harqProcess⟩ hOther (hBytes ▸ UInt16.toNat_lt _)
    rw [← hAnswer, hRoom, hBytes] at hMost
    rw [← hAnswer, hRoom] at hLe
    rw [if_pos ⟨hPos, by omega⟩] at hFills
    refine ⟨hUsing', ⟨_, hSplit'⟩, by omega, by omega, ?_⟩
    omega
  · refine ⟨hUsing', ⟨_, hSplit'⟩, by omega, by omega, ?_⟩
    have hCost := le_pduBytes bsr.statusPduSize.toNat
    split at hFills
    · omega
    · omega

/-- Once less than a report is left, the rest of the loop leaves no more. -/
structure Exceeding (dci : DciInfoElementTdma) (rest : List BufferStatus) (l : StatusLoop) :
    Prop where
  keepsGrant : Using dci l.mac
  entries : ∃ pre, l.mac.ulBsrReceived = pre ++ rest
  used_le : l.mac.ulDciTotalUsed.toNat ≤ tbs dci
  exceeds : tbs dci < l.mac.ulDciTotalUsed.toNat + 5

theorem Exceeding.step (hAnswers : Answers env) (hSmall : tbs dci < 2 ^ 31)
    {rest : List BufferStatus} {bsr : BufferStatus} {l l' : StatusLoop}
    (h : Exceeding dci (bsr :: rest) l) (hStep : sendStatusPdu env l bsr.lcid = some l') :
    Exceeding dci rest l' := by
  obtain ⟨hUsing, ⟨pre, hSplit⟩, hUsed, hExceeds⟩ := h
  obtain ⟨n, hUsing', ⟨b, hSplit'⟩, hUsed', -, hRoom, -⟩ :=
    statusStep_of_sendStatusPdu hAnswers hSmall hUsing hSplit hUsed hStep
  exact ⟨hUsing', ⟨_, hSplit'⟩, hRoom, by omega⟩

/-- The last status PDU that fits on its own is answered in full. -/
theorem Filling.exceeds (hSmall : tbs dci < 2 ^ 31) {base sum : ℕ} {bsr : BufferStatus}
    {after : List BufferStatus} {l l' : StatusLoop} (hPos : 0 < bsr.statusPduSize.toNat)
    (hFits : bsr.statusPduSize.toNat ≤ tbs dci)
    (hSum : tbs dci < 5 + sum + pduBytes bsr.statusPduSize.toNat)
    (h : Filling dci base (tbs dci - bsr.statusPduSize.toNat) sum (bsr :: after) [] l)
    (hStep : sendStatusPdu (greedy (base + (tbs dci - bsr.statusPduSize.toNat)) bsr.lcid) l
      bsr.lcid = some l') :
    Exceeding dci after l' := by
  obtain ⟨hUsing, ⟨pre, hSplit⟩, -, hUsed, hFills⟩ := h
  obtain ⟨n, hUsing', ⟨b, hSplit'⟩, hUsed', -, hRoom, hAnswer⟩ :=
    statusStep_of_sendStatusPdu (answers_greedy _ _) hSmall hUsing hSplit
      (le_trans hUsed (Nat.sub_le _ _)) hStep
  refine ⟨hUsing', ⟨_, hSplit'⟩, hRoom, ?_⟩
  have hCost := le_pduBytes bsr.statusPduSize.toNat
  obtain ⟨-, -, hAnswer⟩ | ⟨hSkipped, -⟩ := hAnswer
  · rw [answered_greedy_last ⟨bsr.lcid, bsr.statusPduSize.toUInt32, dci.harqProcess⟩] at hAnswer
    have hBytes : bsr.statusPduSize.toUInt32.toNat = bsr.statusPduSize.toNat :=
      UInt16.toNat_toUInt32 _
    rw [hBytes] at hAnswer
    rw [statusSum, total_nil] at hFills
    omega
  · omega

theorem statusSum_le (n : ℕ) (l : List BufferStatus) : statusSum n l ≤ l.length * 65538 := by
  induction l with
  | nil => exact Nat.le_refl 0
  | cons bsr l ih =>
    have hBytes : statusBytes n bsr ≤ 65538 := by
      have hShort : bsr.statusPduSize.toNat < 2 ^ 16 := UInt16.toNat_lt _
      have hHeader := pduBytes_le bsr.statusPduSize.toNat
      rw [statusBytes]
      split
      · omega
      · exact Nat.zero_le _
    rw [statusSum, total_cons, ← statusSum, List.length_cons, Nat.succ_mul]
    omega

theorem Exceeding.usefulTbs {l : StatusLoop} (hSmall : tbs dci < 2 ^ 31)
    (h : Exceeding dci [] l) : l.mac.usefulTbs = none := by
  have hUsed := h.used_le
  have hExceeds := h.exceeds
  have hLeft : ¬ l.mac.ulDciTotalUsed + 5 ≤ dci.tbSize.headD 0 := by
    rw [UInt32.le_iff_toNat_le, UInt32.toNat_add, ← tbs, Nat.mod_eq_of_lt]
    · exact Nat.not_le_of_lt hExceeds
    · change _ + 5 < _
      omega
  rw [NrUeMac.usefulTbs, h.keepsGrant.tbSize_eq, Option.bind_eq_bind, Option.bind_some,
    if_neg hLeft]

/-- Status PDUs that do not fit together leave too little for a report, with some RLC. -/
theorem sendNewStatusData_exceeds (h : Using dci s) (hStart : s.ulDciTotalUsed = 0)
    (hTbs : 5 ≤ tbs dci) (hMisfit : tbs dci < statusSum (tbs dci) s.ulBsrReceived + 5) :
    ∃ env, Answers env ∧ ∀ t, s.sendNewStatusData env = some t → t.usefulTbs = none := by
  have hSmall : tbs dci < 2 ^ 31 := by
    have hSum := statusSum_le (tbs dci) s.ulBsrReceived
    have hLength := ulBsrReceived_length_le h
    omega
  rw [statusSum, Nat.add_comm] at hMisfit
  obtain ⟨before, bsr, after, hSplit, hBefore, hAfter⟩ := exists_crossing hTbs hMisfit
  have hFits : 0 < bsr.statusPduSize.toNat ∧ bsr.statusPduSize.toNat ≤ tbs dci := by
    by_contra hSkipped
    rw [statusBytes, if_neg hSkipped] at hAfter
    omega
  rw [statusBytes, if_pos hFits] at hAfter
  have hOthers : ∀ b ∈ before, b.lcid ≠ bsr.lcid := by
    intro b hMem
    have hNodup := h.nodup
    rw [lcids, hSplit, List.map_append, List.map_cons] at hNodup
    exact (List.nodup_append.mp hNodup).2.2 b.lcid (List.mem_map_of_mem hMem) bsr.lcid
      List.mem_cons_self
  let limit := tbs dci - bsr.statusPduSize.toNat
  let env := greedy (accounted s.output + limit) bsr.lcid
  have hUsed : s.ulDciTotalUsed.toNat = 0 := by rw [hStart]; rfl
  refine ⟨env, answers_greedy _ _, fun t hStep => ?_⟩
  obtain ⟨l, hRun, hStep⟩ := Option.bind_eq_some_iff.mp hStep
  rw [lcids, run_map, hSplit, run_append] at hRun
  obtain ⟨l₁, hRun₁, hRun⟩ := Option.bind_eq_some_iff.mp hRun
  obtain ⟨l₂, hStep₂, hRun⟩ := Option.bind_eq_some_iff.mp hRun
  have hFilling : Filling dci (accounted s.output) limit (statusSum (tbs dci) before)
      (bsr :: after) before { mac := s } :=
    ⟨h, ⟨[], hSplit⟩, by rw [hUsed, Nat.add_zero], by rw [hUsed]; exact Nat.zero_le _,
      .inl (by rw [hUsed, Nat.zero_add])⟩
  have hFilled : (∀ b ∈ ([] : List BufferStatus), b.lcid ≠ bsr.lcid) ∧
      Filling dci (accounted s.output) limit (statusSum (tbs dci) before) (bsr :: after) [] l₁ := by
    apply @invariant_of_remaining _ _ _ _ _ (fun rest l => (∀ b ∈ rest, b.lcid ≠ bsr.lcid) ∧
      Filling dci (accounted s.output) limit (statusSum (tbs dci) before) (bsr :: after) rest l)
      _ _ ⟨hOthers, hFilling⟩ hRun₁
    rintro b rest l l' ⟨hRest, hInv⟩ hNext
    refine ⟨fun c hMem => hRest c (List.mem_cons_of_mem _ hMem), ?_⟩
    refine hInv.step hSmall (Nat.sub_le _ _) ?_ (hRest b List.mem_cons_self) hNext
    rw [Nat.add_comm]
    exact hBefore
  have hExceeding : Exceeding dci after l₂ :=
    hFilled.2.exceeds hSmall hFits.1 hFits.2 hAfter hStep₂
  have hEnd : Exceeding dci [] l :=
    invariant_of_remaining (fun _ _ _ _ hInv hNext => hInv.step (answers_greedy _ _) hSmall hNext)
      hExceeding hRun
  split at hStep
  · cases hStep
  · cases hStep
    exact hEnd.usefulTbs hSmall

/-! ## The grants that are kept -/

theorem finishDci_prefix {now : ℕ} {ndi : UInt8} (hStep : finishDci now ndi s = some t) :
    s.output <+: t.output := by
  have hReport : ∀ {u v : NrUeMac}, u.reportIfDue now = some v → u.output <+: v.output := by
    intro u v hReport
    obtain ⟨new, hNew, -⟩ := (reportIfDue_continues hReport).output
    exact ⟨new, hNew.symm⟩
  rw [finishDci] at hStep
  split at hStep
  · exact hReport hStep
  · split at hStep
    · obtain ⟨u, hFirst, hStep⟩ := Option.bind_eq_some_iff.mp hStep
      apply (hReport hFirst).trans
      obtain ⟨dci, -, hStep⟩ := Option.bind_eq_some_iff.mp hStep
      split at hStep
      · dsimp only at hStep
        split at hStep
        · obtain ⟨new, hNew, -⟩ := (doTransmitPdu_continues hStep).output
          exact (List.prefix_append _ _).trans ⟨new, hNew.symm⟩
        · cases hStep
          exact List.prefix_append _ _
      · cases hStep
        exact List.prefix_refl _
    · cases hStep
      exact List.prefix_refl _

theorem newDataFits_of_grantKept (h : WellFormed dci s) (now : ℕ) (hNdi : dci.ndi.headD 0 = 1)
    (hKept : ∀ env, Answers env → GrantKept env now dci s) : s.NewDataFits (tbs dci) := by
  have hData : ∀ env, Answers env → ∃ t, (s.receive dci).sendNewData env = some t ∧
      t.ulDciTotalUsed.toNat + 5 ≤ tbs dci := by
    intro env hAnswers
    obtain ⟨t, hStep, hRoom⟩ := (hKept env hAnswers).data
    rw [hNdi, sendData, if_neg (by decide), if_pos rfl] at hStep
    exact ⟨t, hStep, hRoom⟩
  obtain ⟨d, hRun, hRoom⟩ := hData silent answers_silent
  have hTbs : 5 ≤ tbs dci := le_trans (Nat.le_add_left 5 _) hRoom
  obtain ⟨u, hGrant, -, hOffers⟩ := (hKept silent answers_silent).grant
  rw [processUlDci_eq h, hNdi, sendData, if_neg (by decide), if_pos rfl, hRun,
    Option.bind_some] at hGrant
  have hEnd := finishDci_prefix hGrant
  obtain ⟨s₁, hReset, hNext⟩ := resetHarq_of_using h.using (some [])
  have hUsing₁ := h.using.transmits hNext
  have hUsed₁ : s₁.ulDciTotalUsed = 0 := UInt32.toNat_inj.mp hNext.used
  have hEntries : s₁.ulBsrReceived = s.ulBsrReceived := hNext.ulBsrReceived
  have hStart : s.output <+: s₁.output := by
    obtain ⟨pdus, hOutput, -⟩ := hNext.output
    exact ⟨_, hOutput.symm⟩
  have hStatus : statusSum (tbs dci) s.ulBsrReceived + 5 ≤ tbs dci := by
    by_contra hMisfit
    rw [← hEntries] at hMisfit
    obtain ⟨env, hAnswers, hNone⟩ :=
      sendNewStatusData_exceeds hUsing₁ hUsed₁ hTbs (Nat.lt_of_not_le hMisfit)
    obtain ⟨t, hStep, -⟩ := hData env hAnswers
    rw [sendNewData_eq, hReset, Option.bind_some] at hStep
    obtain ⟨s₂, hStep₂, hStep⟩ := Option.bind_eq_some_iff.mp hStep
    rw [sendPass, sendPending, hNone s₂ hStep₂] at hStep
    cases hStep
  rw [sendNewData_eq, hReset, Option.bind_some] at hRun
  obtain ⟨s₂, hStep₂, hRun⟩ := Option.bind_eq_some_iff.mp hRun
  obtain ⟨s₃, hStep₃, hRun⟩ := Option.bind_eq_some_iff.mp hRun
  obtain ⟨s₄, hStep₄, hRun⟩ := Option.bind_eq_some_iff.mp hRun
  have hLast : s₄.output <+: u.output := by
    apply List.IsPrefix.trans _ hEnd
    split at hRun
    · obtain ⟨new, hNew, -⟩ := (resetHarq_continues hRun).output
      exact ⟨new, hNew.symm⟩
    · cases hRun
      exact List.prefix_refl _
  have hOne := sendNewStatusData_cases hUsing₁ answers_silent
    (by rw [hUsed₁, hEntries]; exact le_of_eq_of_le (by rw [UInt32.toNat_zero, Nat.zero_add]) hStatus)
  rw [hEntries, hStep₂] at hOne
  obtain ⟨hOne, t, hEq, hServes₂, hRoom₂⟩ | ⟨-, hNone⟩ := hOne
  rotate_left
  · cases hNone
  cases hEq
  have hUsing₂ := hServes₂.keepsGrant dci hUsing₁
  have hQuiet₂ := sendNewStatusData_quiet hStep₂
  have hUsed₂ : s₂.ulDciTotalUsed = 0 := hQuiet₂.used.trans hUsed₁
  have hQueues : ∀ kind, kind ≠ .status → s₂.queues kind = s.queues kind := by
    intro kind hKind
    rw [hServes₂.queues kind hKind, queues, hEntries]
    rfl
  have hQuiet₃ := sendPass_quiet hStep₃
  have hQuiet₄ := sendPass_quiet hStep₄
  have hRetx : SharesFit (tbs dci) (s.queues .retx) := by
    by_contra hMisfit
    rw [← hQueues .retx PduKind.noConfusion] at hMisfit
    have hEmpty := sendPass_offersEmpty hUsing₂ drains_drainRetx hUsed₂ hTbs hMisfit hStep₃
    exact (hEmpty.extend (hStart.trans hQuiet₂.output)
      (hQuiet₄.output.trans hLast)).not_offersPending hOffers
  have hTx : SharesFit (tbs dci) (s.queues .tx) := by
    by_contra hMisfit
    have hFit := hRetx
    rw [← hQueues .retx PduKind.noConfusion] at hFit
    obtain ⟨t, hEq, hServes₃, -⟩ :=
      sendPass_of_sharesFit hUsing₂ answers_silent drains_drainRetx hRoom₂ hFit
    rw [hStep₃] at hEq
    cases hEq
    have hSame := hServes₃.queues .tx PduKind.noConfusion
    rw [← hQueues .tx PduKind.noConfusion, ← hSame] at hMisfit
    rw [active, ← hSame, ← active] at hStep₄
    have hEmpty := sendPass_offersEmpty (hServes₃.keepsGrant dci hUsing₂) drains_drainTx
      (hQuiet₃.used.trans hUsed₂) hTbs hMisfit hStep₄
    exact (hEmpty.extend (hStart.trans (hQuiet₂.output.trans hQuiet₃.output))
      hLast).not_offersPending hOffers
  exact ⟨hStatus, hOne, hRetx, hTx⟩

theorem retransmissionFits_of_grantKept (h : WellFormed dci s) {now : ℕ}
    (hNdi : dci.ndi.headD 0 = 0) (hKept : GrantKept env now dci s) :
    s.RetransmissionFits (tbs dci) dci.harqProcess := by
  obtain ⟨t, hStep, hRoom⟩ := hKept.data
  rw [hNdi, sendData, if_pos rfl] at hStep
  intro info hInfo
  have hInfo' : (s.receive dci).miUlHarqProcessesPacket[dci.harqProcess.toNat]? = some info := hInfo
  simp only [transmitRetx, h.using.ulDci, hInfo', Option.bind_eq_bind, Option.bind_some] at hStep
  split at hStep
  · next hBurst =>
    cases hStep
    rw [hBurst]
    exact ⟨(by simp), hRoom⟩
  · cases hStep
  · next pb hPdus hBurst =>
    cases hStep
    rw [hBurst]
    refine ⟨fun hEmpty => hPdus (Option.some.inj hEmpty), ?_⟩
    rw [receive, UInt32.zero_add] at hRoom
    exact hRoom

/-- The grants whose budget is kept whatever the RLC answers. -/
theorem grantKept_iff_fits (h : WellFormed dci s) (now : ℕ) :
    (∀ env, Answers env → GrantKept env now dci s) ↔ Fits dci s := by
  constructor
  · intro hKept
    rw [Fits]
    split
    · next hNdi => exact retransmissionFits_of_grantKept h hNdi (hKept silent answers_silent)
    · next hRetx =>
      split
      · next hNdi => exact newDataFits_of_grantKept h now hNdi hKept
      · next hNew =>
        obtain ⟨t, hStep, hRoom⟩ := (hKept silent answers_silent).data
        rw [sendData, if_neg hRetx, if_neg hNew] at hStep
        cases hStep
        exact le_trans (Nat.le_add_left 5 _) hRoom
  · intro hFits env hAnswers
    exact grantKept_of_fits h hAnswers hFits now

/-- A UE with an RNTI and two channels, after their reports. -/
def reported (ulBsrReceived : List BufferStatus) : NrUeMac :=
  { create 10 2500000 20 with
    rnti := 1, lcInfoMap := [(4, 2), (5, 2)], ulBsrReceived
    srState := .toSend, output := [.srState .toSend] }

theorem reported_wellFormed {ulBsrReceived : List BufferStatus} {tbSize : UInt32}
    (hNodup : (ulBsrReceived.map (·.lcid)).Nodup)
    (hLcid : ∀ lcid ∈ ulBsrReceived.map (·.lcid), lcid = 4 ∨ lcid = 5) :
    WellFormed { tbSize := [tbSize], ndi := [1] } (reported ulBsrReceived) := by
  refine ⟨List.cons_ne_nil _ _, List.cons_ne_nil _ _, ?_, hNodup, ?_⟩
  · change 0 < (List.replicate 20 _).length
    decide
  · intro lcid hMem
    obtain rfl | rfl := hLcid lcid hMem
    · exact ⟨by decide, by decide, 2, by decide, rfl⟩
    · exact ⟨by decide, by decide, 2, by decide, rfl⟩

/-- A retransmission of one channel. -/
theorem grantKept_of_one_channel :
    WellFormed { tbSize := [100], ndi := [1] }
        (reported [{ lcid := 4, retxQueueSize := 20 }]) ∧
      ∀ env, Answers env → GrantKept env 0 { tbSize := [100], ndi := [1] }
        (reported [{ lcid := 4, retxQueueSize := 20 }]) := by
  have hWell : WellFormed { tbSize := [100], ndi := [1] }
      (reported [{ lcid := 4, retxQueueSize := 20 }]) :=
    reported_wellFormed (by decide) (by simp)
  refine ⟨hWell, (grantKept_iff_fits hWell 0).mpr ?_⟩
  rw [Fits, if_neg (by decide), if_pos (by decide)]
  refine ⟨by decide, ?_, by decide, by decide⟩
  rintro ⟨bsr, hMem, hPos⟩
  rw [List.mem_singleton.mp hMem] at hPos
  exact absurd hPos (by decide)

/-- An RLC that answers every opportunity in full. -/
def obliging : UeEnvironment :=
  ⟨List.cons, cons_perm, fun _ params =>
    [.transmitPdu ⟨params.lcid, params.harqId, params.bytes⟩]⟩

theorem answers_obliging : Answers obliging :=
  fun _ params => .inr ⟨params.bytes, UInt32.le_refl _, rfl⟩

/-- A status PDU of nine bytes leaves no room for a report in twelve, and a channel without pending
bytes is given an opportunity next to one with a retransmission. -/
theorem grant_not_kept :
    (run (step obliging) (create 10 2500000 20)
        [.addLc 4 2, .addLc 5 2, .setRnti 1,
          .reportBufferStatus { lcid := 4, statusPduSize := 9 }] =
        some (reported [{ lcid := 4, statusPduSize := 9 }]) ∧
      WellFormed { tbSize := [12], ndi := [1] } (reported [{ lcid := 4, statusPduSize := 9 }]) ∧
      Answers obliging ∧
      processUlDci obliging 0 { tbSize := [12], ndi := [1] }
        (reported [{ lcid := 4, statusPduSize := 9 }]) = none) ∧
    run (step silent) (create 10 2500000 20)
        [.addLc 4 2, .addLc 5 2, .setRnti 1, .reportBufferStatus { lcid := 4, retxQueueSize := 20 },
          .reportBufferStatus { lcid := 5 }] =
        some (reported [{ lcid := 5 }, { lcid := 4, retxQueueSize := 20 }]) ∧
      WellFormed { tbSize := [100], ndi := [1] }
        (reported [{ lcid := 5 }, { lcid := 4, retxQueueSize := 20 }]) ∧
      Answers silent ∧
      ((processUlDci silent 0 { tbSize := [100], ndi := [1] }
          (reported [{ lcid := 5 }, { lcid := 4, retxQueueSize := 20 }])).any fun t =>
        .txOpportunity .retx { lcid := 5 } 92 ∈ t.output) = true := by
  refine ⟨⟨rfl, reported_wellFormed (by decide) (by simp), answers_obliging, by decide⟩, rfl,
    reported_wellFormed (by decide) (by simp), answers_silent, by decide⟩

end NrUeMac
end Bullet.Ue
