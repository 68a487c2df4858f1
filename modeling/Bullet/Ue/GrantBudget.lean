import Bullet.Lib.Shares
import Bullet.Ue.Opportunity

/-! # The budget of a grant

The status PDUs, the retransmissions and the new data of the RLC share a transport block, of which
five bytes are kept for a buffer status report. The budget holds for every RLC when the status PDUs
fit together, and when a pass finds pending bytes in every queue it offers bytes to.
-/

namespace Bullet.Ue

open Lib.PartialRun Lib.Shares Mac

/-- What the status PDU of a channel takes when it is offered its size. A status PDU that is larger
than the transport block is skipped. -/
def statusBytes (tbs : ℕ) (bsr : BufferStatus) : ℕ :=
  if 0 < bsr.statusPduSize.toNat ∧ bsr.statusPduSize.toNat ≤ tbs then
    pduBytes bsr.statusPduSize.toNat
  else 0

/-- The pass over queues that hold the listed bytes is skipped, or every queue holds some. -/
def SharesFit (tbs : ℕ) (queues : List ℕ) : Prop :=
  0 < queues.countP (0 < ·) → 10 * queues.countP (0 < ·) + 5 ≤ tbs → ∀ bytes ∈ queues, 0 < bytes

instance (tbs : ℕ) (queues : List ℕ) : Decidable (SharesFit tbs queues) :=
  inferInstanceAs (Decidable (_ → _))

namespace NrUeMac

variable {env : UeEnvironment} {dci : DciInfoElementTdma} {s t u : NrUeMac}

/-- The bytes that are pending in one queue of each channel. -/
def queues (s : NrUeMac) (kind : PduKind) : List ℕ := s.ulBsrReceived.map (·.pendingOf kind)

/-- The opportunities between two states are for queues with pending bytes. -/
def OffersPending (s t : NrUeMac) : Prop :=
  ∃ new, t.output = s.output ++ new ∧
    ∀ kind bsr bytes, .txOpportunity kind bsr bytes ∈ new → 0 < bsr.pendingOf kind

theorem OffersPending.of_output (h : t.output = s.output) : OffersPending s t :=
  ⟨[], by rw [h, List.append_nil], fun _ _ _ hMem => absurd hMem List.not_mem_nil⟩

theorem OffersPending.trans (h : OffersPending s t) (hNext : OffersPending t u) :
    OffersPending s u := by
  obtain ⟨new, hNew, hPending⟩ := h
  obtain ⟨more, hMore, hPending'⟩ := hNext
  refine ⟨new ++ more, ?_, ?_⟩
  · rw [hMore, hNew, List.append_assoc]
  · intro kind bsr bytes hMem
    obtain hMem | hMem := List.mem_append.mp hMem
    · exact hPending kind bsr bytes hMem
    · exact hPending' kind bsr bytes hMem

/-- `t` is reached from `s` by serving queues of one kind. -/
structure Serves (kind : PduKind) (s t : NrUeMac) : Prop where
  keepsGrant : ∀ dci, Using dci s → Using dci t
  queues : ∀ other, other ≠ kind → t.queues other = s.queues other
  offers : OffersPending s t

theorem Serves.refl (kind : PduKind) (s : NrUeMac) : Serves kind s s :=
  ⟨fun _ h => h, fun _ _ => rfl, .of_output rfl⟩

theorem Serves.trans {kind : PduKind} (h : Serves kind s t) (hNext : Serves kind t u) :
    Serves kind s u where
  keepsGrant dci hUsing := hNext.keepsGrant dci (h.keepsGrant dci hUsing)
  queues other hOther := (hNext.queues other hOther).trans (h.queues other hOther)
  offers := h.offers.trans hNext.offers

theorem Transmits.serves {kind : PduKind} {bsr : BufferStatus} {bytes : UInt32} {n : ℕ}
    (hPending : 0 < bsr.pendingOf kind)
    (h : Transmits n (s.emit (.txOpportunity kind bsr bytes)) t) : Serves kind s t where
  keepsGrant dci hUsing := (hUsing.emit _).transmits h
  queues other _ := by
    rw [NrUeMac.queues, h.ulBsrReceived]
    rfl
  offers := by
    obtain ⟨pdus, hOutput, -⟩ := h.output
    refine ⟨.txOpportunity kind bsr bytes :: pdus.map .macPdu, ?_, ?_⟩
    · rw [hOutput]
      exact List.append_assoc _ _ _
    · intro kind' bsr' bytes' hMem
      obtain hEq | hMem := List.mem_cons.mp hMem
      · cases hEq
        exact hPending
      · obtain ⟨pdu, -, hEq⟩ := List.mem_map.mp hMem
        cases hEq

/-- Only the queues of one kind change. -/
def Drains (kind : PduKind) (f : BufferStatus → BufferStatus) : Prop :=
  ∀ bsr, (f bsr).lcid = bsr.lcid ∧
    ∀ other, other ≠ kind → (f bsr).pendingOf other = bsr.pendingOf other

theorem drains_drainStatus : Drains .status BufferStatus.drainStatus := by
  intro bsr
  refine ⟨rfl, fun other hOther => ?_⟩
  cases other with
  | status => exact absurd rfl hOther
  | retx => rfl
  | tx => rfl

theorem drains_drainRetx (bytes : UInt32) : Drains .retx (BufferStatus.drainRetx bytes) := by
  intro bsr
  refine ⟨rfl, fun other hOther => ?_⟩
  cases other with
  | status => rfl
  | retx => exact absurd rfl hOther
  | tx => rfl

theorem drains_drainTx (bytes : UInt32) : Drains .tx (BufferStatus.drainTx bytes) := by
  intro bsr
  refine ⟨rfl, fun other hOther => ?_⟩
  cases other with
  | status => rfl
  | retx => rfl
  | tx => exact absurd rfl hOther

theorem Drains.serves {kind : PduKind} {f : BufferStatus → BufferStatus} (hf : Drains kind f)
    (s : NrUeMac) (lcid : UInt8) : Serves kind s (s.updateBsr lcid f) where
  keepsGrant dci hUsing := by
    have hLcids : (s.updateBsr lcid f).lcids = s.lcids :=
      updateBsr_lcids fun bsr hEq => (hf bsr).1.trans hEq
    refine ⟨hUsing.ulDci, hUsing.tbSize, hUsing.harqProcess, ?_, ?_⟩
    · rw [hLcids]
      exact hUsing.nodup
    · rw [hLcids]
      exact hUsing.channels
  queues other hOther := by
    rw [NrUeMac.queues, updateBsr, List.map_map]
    apply List.map_congr_left
    intro bsr _
    rw [Function.comp_apply]
    split
    · exact (hf bsr).2 other hOther
    · rfl
  offers := .of_output rfl

/-! ## Offering bytes to one channel -/

/-- An opportunity whose answer fits, and the update of its entry. -/
theorem serves_of_offer (h : Using dci s) (hAnswers : Answers env) (kind : PduKind)
    {pre rest : List BufferStatus} {bsr : BufferStatus}
    (hSplit : s.ulBsrReceived = pre ++ bsr :: rest) (hPending : 0 < bsr.pendingOf kind)
    {bytes : UInt32} {most : ℕ}
    (hMost : answered (env.notify s.output ⟨bsr.lcid, bytes, dci.harqProcess⟩) ≤ most)
    (hRoom : s.ulDciTotalUsed.toNat + most ≤ tbs dci) {f : BufferStatus → BufferStatus}
    (hf : Drains kind f) :
    ∃ t, s.notifyTxOpportunity env kind bsr bytes = some t ∧
      (t.updateBsr bsr.lcid f).ulBsrReceived = (pre ++ [f bsr]) ++ rest ∧
      Serves kind s (t.updateBsr bsr.lcid f) ∧
      t.ulDciTotalUsed.toNat ≤ s.ulDciTotalUsed.toNat + most := by
  have hMem : bsr.lcid ∈ s.lcids := by
    rw [lcids, hSplit]
    exact List.mem_map_of_mem (List.mem_append_right pre List.mem_cons_self)
  have hWord : tbs dci < 2 ^ 32 := UInt32.toNat_lt _
  obtain ⟨-, t, hStep, hNext⟩ | ⟨hExceeds, -⟩ :=
    notifyTxOpportunity_cases h hAnswers kind bytes hMem (le_trans (Nat.le_add_right _ _) hRoom) rfl
      (by omega)
  · have hServes := hNext.serves hPending
    refine ⟨t, hStep, ?_, hServes.trans (hf.serves t bsr.lcid), ?_⟩
    · rw [List.append_assoc]
      exact updateBsr_of_split (hServes.keepsGrant dci h).nodup (hNext.ulBsrReceived.trans hSplit) f
    · rw [hNext.used]
      exact Nat.add_le_add_left hMost _
  · omega

/-! ## The status PDUs -/

def statusSum (tbs : ℕ) (l : List BufferStatus) : ℕ := total l (statusBytes tbs)

/-- The loop over the status PDUs with the entries that remain: they fit in what is left, and the
flags at the end are `has` and `sent`. -/
structure StatusBudget (dci : DciInfoElementTdma) (s : NrUeMac) (has sent : Bool)
    (rest : List BufferStatus) (l : StatusLoop) : Prop where
  serves : Serves .status s l.mac
  entries : ∃ pre, l.mac.ulBsrReceived = pre ++ rest
  room : l.mac.ulDciTotalUsed.toNat + statusSum (tbs dci) rest + 5 ≤ tbs dci
  has_eq : (l.hasStatusPdu || rest.any (0 < ·.statusPduSize.toNat)) = has
  sent_eq : (l.sentOneStatusPdu || rest.any fun bsr =>
    0 < bsr.statusPduSize.toNat ∧ bsr.statusPduSize.toNat ≤ tbs dci) = sent

theorem StatusBudget.step (hUsing : Using dci s) (hAnswers : Answers env) {has sent : Bool}
    {bsr : BufferStatus} {rest : List BufferStatus} {l : StatusLoop}
    (h : StatusBudget dci s has sent (bsr :: rest) l) :
    ∃ l', sendStatusPdu env l bsr.lcid = some l' ∧ StatusBudget dci s has sent rest l' := by
  obtain ⟨hServes, ⟨pre, hSplit⟩, hRoom, hHas, hSent⟩ := h
  have hMac := hServes.keepsGrant dci hUsing
  have hBsr := bsrOf_of_split hMac.nodup hSplit
  have hNext : l.mac.ulBsrReceived = (pre ++ [bsr]) ++ rest := by
    rw [hSplit, List.append_assoc]
    rfl
  rw [statusSum, total_cons, ← statusSum] at hRoom
  rw [List.any_cons] at hHas hSent
  simp only [sendStatusPdu, hBsr, hMac.tbSize_eq, Option.bind_eq_bind, Option.bind_some]
  have hZero : bsr.statusPduSize = 0 ↔ bsr.statusPduSize.toNat = 0 := UInt16.toNat_inj.symm
  have hShort : bsr.statusPduSize.toNat < 2 ^ 16 := UInt16.toNat_lt _
  split
  · next hEmpty =>
    rw [hZero] at hEmpty
    rw [hEmpty] at hHas hSent
    refine ⟨l, rfl, hServes, ⟨_, hNext⟩, by omega, by simpa using hHas, by simpa using hSent⟩
  · next hSome =>
    rw [hZero] at hSome
    have hPos : 0 < bsr.statusPduSize.toNat := Nat.pos_of_ne_zero hSome
    have hBytes : bsr.statusPduSize.toUInt32.toNat = bsr.statusPduSize.toNat :=
      UInt16.toNat_toUInt32 _
    have hWord : tbs dci < 2 ^ 32 := UInt32.toNat_lt _
    -- The status PDUs that remain fit, so this one is offered its bytes unless it is too large.
    have hOffer : l.mac.ulDciTotalUsed + bsr.statusPduSize.toUInt32 ≤ dci.tbSize.headD 0 ↔
        bsr.statusPduSize.toNat ≤ tbs dci := by
      have hCost := le_pduBytes bsr.statusPduSize.toNat
      rw [UInt32.le_iff_toNat_le, UInt32.toNat_add, hBytes, ← tbs]
      rw [statusBytes] at hRoom
      split at hRoom
      · omega
      · omega
    rw [statusBytes] at hRoom
    split
    · next hFits =>
      rw [hOffer] at hFits
      rw [if_pos ⟨hPos, hFits⟩] at hRoom
      have hMost := hAnswers.answered_le_pduBytes l.mac.output
        ⟨bsr.lcid, bsr.statusPduSize.toUInt32, dci.harqProcess⟩ (hBytes ▸ hShort)
      rw [hBytes] at hMost
      obtain ⟨t, hStep, hEntries, hDone, hUsed⟩ := serves_of_offer hMac hAnswers .status
        hSplit hPos hMost (by omega) drains_drainStatus
      refine ⟨⟨t.updateBsr bsr.lcid .drainStatus, true, true⟩, ?_, ?_⟩
      · rw [hStep]
        rfl
      · refine ⟨hServes.trans hDone, ⟨_, hEntries⟩, ?_, ?_, ?_⟩
        · exact le_trans (by change t.ulDciTotalUsed.toNat + _ + 5 ≤ _; omega) hRoom
        · simpa [hPos] using hHas
        · simpa [hPos, hFits] using hSent
    · next hLarge =>
      rw [hOffer] at hLarge
      rw [if_neg (fun hBoth => hLarge hBoth.2)] at hRoom
      refine ⟨_, rfl, hServes, ⟨_, hNext⟩, by simpa using hRoom, ?_, ?_⟩
      · simpa [hPos] using hHas
      · simpa [hPos, hLarge] using hSent

/-- One of the status PDUs fits on its own, when there are any. -/
def OneStatusFits (tbs : ℕ) (l : List BufferStatus) : Prop :=
  (∃ bsr ∈ l, 0 < bsr.statusPduSize.toNat) →
    ∃ bsr ∈ l, 0 < bsr.statusPduSize.toNat ∧ bsr.statusPduSize.toNat ≤ tbs

/-- Status PDUs that fit together are served within the budget, unless none of them fits. -/
theorem sendNewStatusData_cases (h : Using dci s) (hAnswers : Answers env)
    (hRoom : s.ulDciTotalUsed.toNat + statusSum (tbs dci) s.ulBsrReceived + 5 ≤ tbs dci) :
    (OneStatusFits (tbs dci) s.ulBsrReceived ∧ ∃ t, s.sendNewStatusData env = some t ∧
      Serves .status s t ∧ t.ulDciTotalUsed.toNat + 5 ≤ tbs dci) ∨
    (¬ OneStatusFits (tbs dci) s.ulBsrReceived ∧ s.sendNewStatusData env = none) := by
  have hStart : StatusBudget dci s (s.ulBsrReceived.any (0 < ·.statusPduSize.toNat))
      (s.ulBsrReceived.any fun bsr =>
        0 < bsr.statusPduSize.toNat ∧ bsr.statusPduSize.toNat ≤ tbs dci)
      s.ulBsrReceived { mac := s } :=
    ⟨.refl _ _, ⟨[], rfl⟩, hRoom, rfl, rfl⟩
  obtain ⟨l, hRun, hServes, -, hLeft, hHas, hSent⟩ :=
    run_of_remaining (fun _ _ _ hBudget => hBudget.step h hAnswers) hStart
  rw [List.any_nil, Bool.or_false] at hHas hSent
  have hFlags : (l.hasStatusPdu = true ∧ l.sentOneStatusPdu = false) ↔
      ¬ OneStatusFits (tbs dci) s.ulBsrReceived := by
    rw [hHas, hSent, OneStatusFits, Classical.not_imp]
    apply and_congr
    · simp
    · simp
  rw [sendNewStatusData, lcids, run_map, hRun, Option.bind_eq_bind, Option.bind_some]
  by_cases hOne : OneStatusFits (tbs dci) s.ulBsrReceived
  · left
    exact ⟨hOne, l.mac, if_neg fun hAbort => hFlags.mp hAbort hOne, hServes, hLeft⟩
  · exact .inr ⟨hOne, if_pos (hFlags.mpr hOne)⟩

/-! ## The passes over the queues -/

/-- The loop of a pass with the entries that remain: every queue holds bytes, and the shares that
remain fit in what is left. -/
structure ShareBudget (dci : DciInfoElementTdma) (s : NrUeMac) (kind : PduKind) (bytes : UInt32)
    (rest : List BufferStatus) (t : NrUeMac) : Prop where
  serves : Serves kind s t
  entries : ∃ pre, t.ulBsrReceived = pre ++ rest
  pending : ∀ bsr ∈ rest, 0 < bsr.pendingOf kind
  room : t.ulDciTotalUsed.toNat + rest.length * (bytes.toNat + 3) + 5 ≤ tbs dci

theorem ShareBudget.step (hUsing : Using dci s) (hAnswers : Answers env) {kind : PduKind}
    {bytes : UInt32} {drain : UInt32 → BufferStatus → BufferStatus}
    (hDrain : Drains kind (drain bytes)) {bsr : BufferStatus} {rest : List BufferStatus}
    (h : ShareBudget dci s kind bytes (bsr :: rest) t) :
    ∃ u, t.sendShare env kind bytes drain bsr.lcid = some u ∧
      ShareBudget dci s kind bytes rest u := by
  obtain ⟨hServes, ⟨pre, hSplit⟩, hPending, hRoom⟩ := h
  have hMac := hServes.keepsGrant dci hUsing
  have hWord : tbs dci < 2 ^ 32 := UInt32.toNat_lt _
  rw [List.length_cons, Nat.succ_mul] at hRoom
  have hOffer : t.ulDciTotalUsed + bytes ≤ dci.tbSize.headD 0 := by
    rw [UInt32.le_iff_toNat_le, UInt32.toNat_add, ← tbs]
    exact le_trans (Nat.mod_le _ _) (by omega)
  obtain ⟨u, hStep, hEntries, hDone, hUsed⟩ := serves_of_offer hMac hAnswers kind hSplit
    (hPending bsr List.mem_cons_self) (hAnswers.answered_le t.output
      ⟨bsr.lcid, bytes, dci.harqProcess⟩) (by change _ + (bytes.toNat + 3) ≤ _; omega) hDrain
  refine ⟨u.updateBsr bsr.lcid (drain bytes), ?_, ?_⟩
  · simp only [sendShare, bsrOf_of_split hMac.nodup hSplit, hMac.tbSize_eq, Option.bind_eq_bind,
      Option.bind_some, if_pos hOffer, hStep]
  · refine ⟨hServes.trans hDone, ⟨_, hEntries⟩, fun b hMem => ?_, ?_⟩
    · exact hPending b (List.mem_cons_of_mem _ hMem)
    · change u.ulDciTotalUsed.toNat + _ + 5 ≤ _
      have hMost : u.ulDciTotalUsed.toNat ≤ t.ulDciTotalUsed.toNat + (bytes.toNat + 3) := hUsed
      omega

/-- When every queue holds bytes, their shares and headers fit in what is left. -/
theorem sendShares_of_pending (h : Using dci s) (hAnswers : Answers env) {kind : PduKind}
    {drain : UInt32 → BufferStatus → BufferStatus} (hDrain : ∀ bytes, Drains kind (drain bytes))
    (hPending : ∀ bsr ∈ s.ulBsrReceived, 0 < bsr.pendingOf kind) {usefulTbs active : UInt32}
    (hActive : active.toNat = s.ulBsrReceived.length)
    (hRoom : s.ulDciTotalUsed.toNat + usefulTbs.toNat + 3 * active.toNat + 5 ≤ tbs dci) :
    ∃ t, s.sendShares env kind drain usefulTbs active = some t ∧ Serves kind s t ∧
      t.ulDciTotalUsed.toNat + 5 ≤ tbs dci := by
  rw [sendShares]
  split
  · exact ⟨s, rfl, .refl _ _, by omega⟩
  · have hShares : s.ulBsrReceived.length * ((usefulTbs / active).toNat + 3) ≤
        usefulTbs.toNat + 3 * active.toNat := by
      rw [UInt32.toNat_div, hActive, Nat.mul_add, Nat.mul_comm _ 3]
      exact Nat.add_le_add_right (Nat.mul_div_le _ _) _
    have hStart : ShareBudget dci s kind (usefulTbs / active) s.ulBsrReceived s :=
      ⟨.refl _ _, ⟨[], rfl⟩, hPending, by omega⟩
    obtain ⟨t, hRun, hServes, -, -, hLeft⟩ :=
      run_of_remaining (fun _ _ _ hBudget => hBudget.step h hAnswers (hDrain _)) hStart
    refine ⟨t, ?_, hServes, le_trans (Nat.add_le_add_right (Nat.le_add_right _ _) 5) hLeft⟩
    rw [lcids, run_map]
    exact hRun

theorem ulBsrReceived_length_le (h : Using dci s) : s.ulBsrReceived.length ≤ 256 := by
  have hNodup : (s.lcids.map UInt8.toNat).Nodup :=
    h.nodup.map fun _ _ hEq => UInt8.toNat_inj.mp hEq
  have hRange : s.lcids.map UInt8.toNat ⊆ List.range 256 := by
    intro n hn
    obtain ⟨lcid, -, rfl⟩ := List.mem_map.mp hn
    exact List.mem_range.mpr (UInt8.toNat_lt lcid)
  have hLength := (List.subperm_of_subset hNodup hRange).length_le
  rwa [List.length_map, lcids, List.length_map, List.length_range] at hLength

/-- The channels with pending bytes in one queue. -/
def active (s : NrUeMac) (kind : PduKind) : UInt32 :=
  UInt32.ofNat ((s.queues kind).countP (0 < ·))

theorem countActive_eq (kind : PduKind) {p : BufferStatus → Bool}
    (hp : ∀ bsr, p bsr = decide (0 < bsr.pendingOf kind)) : s.countActive p = s.active kind := by
  rw [countActive, active, queues, List.countP_map]
  congr 1
  exact List.countP_congr fun bsr _ => by rw [hp bsr, Function.comp_apply]

theorem active_le (h : Using dci s) (kind : PduKind) : (s.queues kind).countP (0 < ·) ≤ 256 := by
  apply le_trans List.countP_le_length
  rw [queues, List.length_map]
  exact ulBsrReceived_length_le h

theorem active_toNat (h : Using dci s) (kind : PduKind) :
    (s.active kind).toNat = (s.queues kind).countP (0 < ·) :=
  UInt32.toNat_ofNat_of_lt' (lt_of_le_of_lt (active_le h kind) (by decide))

/-- A pass over the queues of one kind. -/
def sendPass (env : UeEnvironment) (kind : PduKind)
    (drain : UInt32 → BufferStatus → BufferStatus) (active : UInt32) (s : NrUeMac) :
    Option NrUeMac :=
  s.sendPending (fun usefulTbs active s => s.sendShares env kind drain usefulTbs active) active

theorem sendNewData_eq (env : UeEnvironment) (s : NrUeMac) :
    s.sendNewData env =
      (s.resetHarq (some [])).bind fun s => (s.sendNewStatusData env).bind fun s =>
        (s.sendPass env .retx .drainRetx (s.active .retx)).bind fun t =>
          (t.sendPass env .tx .drainTx (s.active .tx)).bind fun t =>
            if t.ulDciTotalUsed = 0 then t.resetHarq none else some t := by
  apply Option.bind_congr
  intro s₁ _
  apply Option.bind_congr
  intro s₂ _
  rw [← countActive_eq .retx fun _ => rfl, ← countActive_eq .tx fun _ => rfl]
  rfl

/-- A pass runs when its headers leave ten bytes for each channel with pending bytes. -/
theorem sendPending_cases (h : Using dci s) (send : UInt32 → UInt32 → NrUeMac → Option NrUeMac)
    {active : UInt32} (hActive : active.toNat ≤ 256)
    (hRoom : s.ulDciTotalUsed.toNat + 5 ≤ tbs dci) :
    (0 < active.toNat ∧ s.ulDciTotalUsed.toNat + 10 * active.toNat + 5 ≤ tbs dci ∧
      ∃ usefulTbs : UInt32,
        s.ulDciTotalUsed.toNat + usefulTbs.toNat + 3 * active.toNat + 5 = tbs dci ∧
          s.sendPending send active = send usefulTbs active s) ∨
    (¬ (0 < active.toNat ∧ s.ulDciTotalUsed.toNat + 10 * active.toNat + 5 ≤ tbs dci) ∧
      s.sendPending send active = some s) := by
  have hWord : tbs dci < 2 ^ 32 := UInt32.toNat_lt _
  have hUsed : (s.ulDciTotalUsed + 5).toNat = s.ulDciTotalUsed.toNat + 5 := by
    rw [UInt32.toNat_add]
    exact Nat.mod_eq_of_lt (lt_of_le_of_lt hRoom hWord)
  have hFits : s.ulDciTotalUsed + 5 ≤ dci.tbSize.headD 0 := by
    rw [UInt32.le_iff_toNat_le, hUsed]
    exact hRoom
  generalize hUseful : dci.tbSize.headD 0 - s.ulDciTotalUsed - 5 = useful
  have hLeft : s.ulDciTotalUsed.toNat + useful.toNat + 5 = tbs dci := by
    have hFirst : (dci.tbSize.headD 0 - s.ulDciTotalUsed).toNat =
        tbs dci - s.ulDciTotalUsed.toNat := by
      apply UInt32.toNat_sub_of_le
      rw [UInt32.le_iff_toNat_le]
      exact le_trans (Nat.le_add_right _ _) hRoom
    have hSecond : useful.toNat = tbs dci - s.ulDciTotalUsed.toNat - 5 := by
      rw [← hUseful, UInt32.toNat_sub_of_le, hFirst]
      · rfl
      · rw [UInt32.le_iff_toNat_le, hFirst]
        exact Nat.le_sub_of_add_le' hRoom
    omega
  have hTen : (active * 10).toNat = active.toNat * 10 := by
    rw [UInt32.toNat_mul]
    exact Nat.mod_eq_of_lt (lt_of_le_of_lt (Nat.mul_le_mul_right 10 hActive) (by decide))
  have hThree : (active * 3).toNat = active.toNat * 3 := by
    rw [UInt32.toNat_mul]
    exact Nat.mod_eq_of_lt (lt_of_le_of_lt (Nat.mul_le_mul_right 3 hActive) (by decide))
  have hRuns : (0 < active ∧ 0 < useful ∧ ¬ useful < active * 10) ↔
      0 < active.toNat ∧ s.ulDciTotalUsed.toNat + 10 * active.toNat + 5 ≤ tbs dci := by
    rw [UInt32.lt_iff_toNat_lt, UInt32.lt_iff_toNat_lt, UInt32.lt_iff_toNat_lt, hTen]
    change 0 < active.toNat ∧ 0 < useful.toNat ∧ _ ↔ _
    omega
  simp only [sendPending, NrUeMac.usefulTbs, h.tbSize_eq, Option.bind_eq_bind, Option.bind_some,
    if_pos hFits, hUseful, hRuns]
  by_cases hRun : 0 < active.toNat ∧ s.ulDciTotalUsed.toNat + 10 * active.toNat + 5 ≤ tbs dci
  · left
    refine ⟨hRun.1, hRun.2, useful - active * 3, ?_, if_pos hRun⟩
    rw [UInt32.toNat_sub_of_le, hThree]
    · omega
    · rw [UInt32.le_iff_toNat_le, hThree]
      omega
  · exact .inr ⟨hRun, if_neg hRun⟩

/-- A pass that fits is served within the budget. -/
theorem sendPass_of_sharesFit (h : Using dci s) (hAnswers : Answers env) {kind : PduKind}
    {drain : UInt32 → BufferStatus → BufferStatus} (hDrain : ∀ bytes, Drains kind (drain bytes))
    (hRoom : s.ulDciTotalUsed.toNat + 5 ≤ tbs dci) (hFit : SharesFit (tbs dci) (s.queues kind)) :
    ∃ t, s.sendPass env kind drain (s.active kind) = some t ∧ Serves kind s t ∧
      t.ulDciTotalUsed.toNat + 5 ≤ tbs dci := by
  have hCount := active_toNat h kind
  obtain ⟨hPos, hRuns, usefulTbs, hShares, hStep⟩ | ⟨-, hStep⟩ :=
    sendPending_cases h (fun usefulTbs active s => s.sendShares env kind drain usefulTbs active)
      (hCount ▸ active_le h kind) hRoom
  · rw [sendPass, hStep]
    have hAll : ∀ bytes ∈ s.queues kind, 0 < bytes := hFit (by omega) (by omega)
    apply sendShares_of_pending h hAnswers hDrain
    · intro bsr hMem
      exact hAll _ (List.mem_map_of_mem hMem)
    · rw [hCount, ← List.length_map (·.pendingOf kind), ← queues, List.countP_eq_length]
      intro bytes hMem
      exact decide_eq_true (hAll bytes hMem)
    · exact le_of_eq hShares
  · exact ⟨s, hStep, .refl _ _, hRoom⟩

/-! ## The grant -/

/-- The status PDUs fit together, one of them fits when there are any, and both passes fit. -/
structure NewDataFits (tbs : ℕ) (s : NrUeMac) : Prop where
  status : statusSum tbs s.ulBsrReceived + 5 ≤ tbs
  oneStatus : OneStatusFits tbs s.ulBsrReceived
  retx : SharesFit tbs (s.queues .retx)
  tx : SharesFit tbs (s.queues .tx)

/-- The stored PDUs fit in a retransmission, and an empty burst is not retransmitted. -/
def RetransmissionFits (tbs : ℕ) (harqProcess : UInt8) (s : NrUeMac) : Prop :=
  ∀ info, s.miUlHarqProcessesPacket[harqProcess.toNat]? = some info →
    info.pktBurst ≠ some [] ∧ (info.pktBurst.getD []).sum.toNat + 5 ≤ tbs

/-- The condition for the budget of a grant. -/
def Fits (dci : DciInfoElementTdma) (s : NrUeMac) : Prop :=
  if dci.ndi.headD 0 = 0 then s.RetransmissionFits (tbs dci) dci.harqProcess
  else if dci.ndi.headD 0 = 1 then s.NewDataFits (tbs dci)
  else 5 ≤ tbs dci

/-- A grant for a HARQ process that exists, and entries of configured channels, one for each. -/
structure WellFormed (dci : DciInfoElementTdma) (s : NrUeMac) : Prop where
  tbSize : dci.tbSize ≠ []
  ndi : dci.ndi ≠ []
  harqProcess : dci.harqProcess.toNat < s.miUlHarqProcessesPacket.length
  nodup : s.lcids.Nodup
  channels : ∀ lcid ∈ s.lcids, Configured s.lcInfoMap lcid

/-- The state at the start of a grant. -/
def receive (dci : DciInfoElementTdma) (s : NrUeMac) : NrUeMac :=
  { s with ulDciTotalUsed := 0, ulDci := some dci }

/-- The data of a grant, before the buffer status report. -/
def sendData (env : UeEnvironment) (ndi : UInt8) (s : NrUeMac) : Option NrUeMac :=
  if ndi = 0 then s.transmitRetx else if ndi = 1 then s.sendNewData env else some s

def finishDci (now : ℕ) (ndi : UInt8) (s : NrUeMac) : Option NrUeMac :=
  if ndi = 0 then s.reportIfDue now
  else if ndi = 1 then (s.reportIfDue now).bind finishNewData
  else some s

/-- The data leave room for the report, no assertion fails, the accounted bytes fit, and the
opportunities are for queues with pending bytes. -/
structure GrantKept (env : UeEnvironment) (now : ℕ) (dci : DciInfoElementTdma) (s : NrUeMac) :
    Prop where
  data : ∃ t, sendData env (dci.ndi.headD 0) (s.receive dci) = some t ∧
    t.ulDciTotalUsed.toNat + 5 ≤ tbs dci
  grant : ∃ t, s.processUlDci env now dci = some t ∧ t.ulDciTotalUsed.toNat ≤ tbs dci ∧
    OffersPending s t

theorem WellFormed.using (h : WellFormed dci s) : Using dci (s.receive dci) :=
  ⟨rfl, h.tbSize, h.harqProcess, h.nodup, h.channels⟩

theorem processUlDci_eq (h : WellFormed dci s) (env : UeEnvironment) (now : ℕ) :
    s.processUlDci env now dci =
      (sendData env (dci.ndi.headD 0) (s.receive dci)).bind (finishDci now (dci.ndi.headD 0)) := by
  have hNdi : dci.ndi.head? = some (dci.ndi.headD 0) := by
    cases hList : dci.ndi with
    | nil => exact absurd hList h.ndi
    | cons ndi _ => rfl
  rw [processUlDci]
  change ((s.receive dci).tbSize.bind fun _ => _) = _
  rw [h.using.tbSize_eq, Option.bind_some, hNdi, Option.bind_eq_bind, Option.bind_some, sendData]
  generalize dci.ndi.headD 0 = ndi
  split
  · next hRetx =>
    apply Option.bind_congr
    intro t _
    rw [finishDci, if_pos hRetx]
  · next hRetx =>
    split
    · next hNew =>
      apply Option.bind_congr
      intro t _
      rw [finishDci, if_neg hRetx, if_pos hNew]
      rfl
    · next hNew =>
      rw [Option.bind_some, finishDci, if_neg hRetx, if_neg hNew]
      rfl

theorem resetHarq_of_using (h : Using dci s) (pktBurst : Option (List UInt32)) :
    ∃ t, s.resetHarq pktBurst = some t ∧ Transmits 0 s t := by
  have hInfo := List.getElem?_eq_getElem h.harqProcess
  simp only [resetHarq, h.ulDci, hInfo, Option.bind_eq_bind, Option.bind_some]
  exact ⟨_, rfl, h.ulDci.symm, rfl, rfl, List.length_set, rfl, [], (List.append_nil _).symm, rfl⟩

theorem Transmits.offersPending {n : ℕ} (h : Transmits n s t) : OffersPending s t := by
  obtain ⟨pdus, hOutput, -⟩ := h.output
  refine ⟨_, hOutput, fun kind bsr bytes hMem => ?_⟩
  obtain ⟨pdu, -, hEq⟩ := List.mem_map.mp hMem
  cases hEq

/-- New data that fit are served within the budget, whatever the RLC answers. -/
theorem sendNewData_of_fits (h : Using dci s) (hAnswers : Answers env)
    (hStart : s.ulDciTotalUsed = 0) (hFits : s.NewDataFits (tbs dci)) :
    ∃ t, s.sendNewData env = some t ∧ Using dci t ∧ OffersPending s t ∧
      t.ulDciTotalUsed.toNat + 5 ≤ tbs dci := by
  obtain ⟨s₁, hReset, hNext⟩ := resetHarq_of_using h (some [])
  have hUsing₁ := h.transmits hNext
  have hEntries := hNext.ulBsrReceived
  have hUsed : s₁.ulDciTotalUsed.toNat = 0 := by
    rw [hNext.used, hStart]
    rfl
  have hStatus := hFits.status
  rw [← hEntries] at hStatus
  obtain ⟨-, s₂, hStep₂, hServes₂, hRoom₂⟩ | ⟨hNone, -⟩ :=
    sendNewStatusData_cases hUsing₁ hAnswers (by omega)
  rotate_left
  · rw [hEntries] at hNone
    exact absurd hFits.oneStatus hNone
  have hQueues : ∀ kind, kind ≠ .status → s₂.queues kind = s.queues kind := by
    intro kind hKind
    rw [hServes₂.queues kind hKind, queues, hEntries]
    rfl
  have hUsing₂ := hServes₂.keepsGrant dci hUsing₁
  have hFitRetx := hFits.retx
  have hFitTx := hFits.tx
  rw [← hQueues .retx PduKind.noConfusion] at hFitRetx
  obtain ⟨s₃, hStep₃, hServes₃, hRoom₃⟩ :=
    sendPass_of_sharesFit hUsing₂ hAnswers drains_drainRetx hRoom₂ hFitRetx
  have hUsing₃ := hServes₃.keepsGrant dci hUsing₂
  have hTx := hServes₃.queues .tx PduKind.noConfusion
  rw [← hQueues .tx PduKind.noConfusion, ← hTx] at hFitTx
  obtain ⟨s₄, hStep₄, hServes₄, hRoom₄⟩ :=
    sendPass_of_sharesFit hUsing₃ hAnswers drains_drainTx hRoom₃ hFitTx
  have hUsing₄ := hServes₄.keepsGrant dci hUsing₃
  have hOffers : OffersPending s s₄ :=
    hNext.offersPending.trans (hServes₂.offers.trans (hServes₃.offers.trans hServes₄.offers))
  rw [active, hTx, ← active] at hStep₄
  rw [sendNewData_eq, hReset, Option.bind_some, hStep₂, Option.bind_some, hStep₃, Option.bind_some,
    hStep₄, Option.bind_some]
  split
  · obtain ⟨s₅, hReset₅, hNext₅⟩ := resetHarq_of_using hUsing₄ none
    refine ⟨s₅, hReset₅, hUsing₄.transmits hNext₅, hOffers.trans hNext₅.offersPending, ?_⟩
    rw [hNext₅.used]
    exact hRoom₄
  · exact ⟨s₄, rfl, hUsing₄, hOffers, hRoom₄⟩

theorem transmitRetx_of_fits (h : Using dci s) (hStart : s.ulDciTotalUsed = 0)
    (hFits : s.RetransmissionFits (tbs dci) dci.harqProcess) :
    ∃ t, s.transmitRetx = some t ∧ Using dci t ∧ OffersPending s t ∧
      t.ulDciTotalUsed.toNat + 5 ≤ tbs dci := by
  have hInfo := List.getElem?_eq_getElem h.harqProcess
  obtain ⟨hBurst, hRoom⟩ := hFits _ hInfo
  simp only [transmitRetx, h.ulDci, hInfo, Option.bind_eq_bind, Option.bind_some, hStart]
  split
  · next hNone =>
    refine ⟨s, rfl, h, .of_output rfl, ?_⟩
    rw [hStart]
    exact le_trans (Nat.add_le_add_right (Nat.zero_le _) 5) hRoom
  · next hEmpty => exact absurd hEmpty hBurst
  · next pb hSome hPdus =>
    refine ⟨_, rfl, ⟨rfl, h.tbSize, ?_, h.nodup, h.channels⟩, ⟨_, rfl, ?_⟩, ?_⟩
    · exact lt_of_lt_of_eq h.harqProcess List.length_set.symm
    · intro kind bsr bytes hMem
      obtain ⟨pdu, -, hEq⟩ := List.mem_map.mp hMem
      cases hEq
    · rw [hPdus] at hRoom
      rw [UInt32.zero_add]
      exact hRoom

/-! ## The report -/

theorem addToQueue_of_using (h : Using dci s) {bsr : BufferStatus} (hMem : bsr ∈ s.ulBsrReceived)
    {queue : List UInt32} (hLength : queue.length = 4) :
    ∃ queue', s.addToQueue queue bsr = some queue' ∧ queue'.length = 4 := by
  obtain ⟨hPositive, -, lcg, hLcg, hLookup⟩ := h.channels bsr.lcid (List.mem_map_of_mem hMem)
  have hIndex : lcg.toNat < queue.length := by
    rw [hLength]
    exact UInt8.lt_iff_toNat_lt.mp hLcg
  have hLcid : ¬ (bsr.lcid = 0 ∧ 0 < bsr.pending) := by
    rintro ⟨hZero, -⟩
    rw [hZero] at hPositive
    exact absurd hPositive (by decide)
  simp only [addToQueue, hLookup, if_neg hLcid, List.getElem?_eq_getElem hIndex,
    Option.bind_eq_bind, Option.bind_some]
  exact ⟨_, rfl, List.length_set.trans hLength⟩

theorem lcgQueues_of_using (h : Using dci s) : ∃ queue, s.lcgQueues = some queue := by
  have hStep : ∀ bsr rest queue, queue.length = 4 ∧ bsr :: rest ⊆ s.ulBsrReceived →
      ∃ queue', s.addToQueue queue bsr = some queue' ∧ queue'.length = 4 ∧
        rest ⊆ s.ulBsrReceived := by
    rintro bsr rest queue ⟨hLength, hRest⟩
    obtain ⟨queue', hAdd, hLength'⟩ := addToQueue_of_using h (hRest List.mem_cons_self) hLength
    exact ⟨queue', hAdd, hLength', fun b hMem => hRest (List.mem_cons_of_mem _ hMem)⟩
  obtain ⟨queue, hRun, -⟩ := @run_of_remaining _ _ s.addToQueue (.replicate 4 0)
    (fun rest queue => queue.length = 4 ∧ rest ⊆ s.ulBsrReceived) hStep s.ulBsrReceived
    ⟨rfl, fun _ hMem => hMem⟩
  exact ⟨queue, hRun⟩

/-- The report fits in the room that is left for it. -/
theorem reportIfDue_of_room (h : Using dci s) (hRoom : s.ulDciTotalUsed.toNat + 5 ≤ tbs dci)
    (now : ℕ) :
    ∃ t, s.reportIfDue now = some t ∧ Using dci t ∧ OffersPending s t ∧
      t.ulDciTotalUsed.toNat ≤ tbs dci := by
  have hKept : s.ulDciTotalUsed.toNat ≤ tbs dci := le_trans (Nat.le_add_right _ _) hRoom
  rw [reportIfDue]
  split
  · rw [sendReportBufferStatus]
    split
    · exact ⟨_, rfl, ⟨h.ulDci, h.tbSize, h.harqProcess, h.nodup, h.channels⟩, .of_output rfl, hKept⟩
    · split
      · exact ⟨_, rfl, ⟨h.ulDci, h.tbSize, h.harqProcess, h.nodup, h.channels⟩, .of_output rfl,
          hKept⟩
      · obtain ⟨queue, hQueue⟩ := lcgQueues_of_using h
        have hUsed : (s.ulDciTotalUsed + 5).toNat = s.ulDciTotalUsed.toNat + 5 := by
          rw [UInt32.toNat_add]
          exact Nat.mod_eq_of_lt (lt_of_le_of_lt hRoom (UInt32.toNat_lt _))
        have hFits : ¬ dci.tbSize.headD 0 < s.ulDciTotalUsed + 5 := by
          rw [UInt32.not_lt, UInt32.le_iff_toNat_le, hUsed]
          exact hRoom
        simp only [hQueue, h.tbSize_eq, Option.bind_eq_bind, Option.bind_some, if_neg hFits]
        refine ⟨_, rfl, ⟨h.ulDci, h.tbSize, h.harqProcess, h.nodup, h.channels⟩, ⟨_, rfl, ?_⟩, ?_⟩
        · intro kind bsr bytes hMem
          cases List.mem_singleton.mp hMem
        · exact le_of_eq_of_le hUsed hRoom
  · exact ⟨s, rfl, h, .of_output rfl, hKept⟩

/-- The end of a new transmission fits in a block that can hold a report. -/
theorem finishNewData_of_room (h : Using dci s) (hUsed : s.ulDciTotalUsed.toNat ≤ tbs dci)
    (hTbs : 5 ≤ tbs dci) :
    ∃ t, s.finishNewData = some t ∧ OffersPending s t ∧ t.ulDciTotalUsed.toNat ≤ tbs dci := by
  have hInactive : OffersPending s (s.setSrState .inactive) := by
    refine ⟨_, rfl, fun kind bsr bytes hMem => ?_⟩
    cases List.mem_singleton.mp hMem
  rw [finishNewData, h.ulDci, Option.bind_eq_bind, Option.bind_some]
  split
  · dsimp only
    split
    · next hZero =>
      have hUsing : Using dci (s.setSrState .inactive) :=
        ⟨h.ulDci, h.tbSize, h.harqProcess, h.nodup, h.channels⟩
      obtain ⟨-, t, hStep, hNext⟩ | ⟨hExceeds, -⟩ := @doTransmitPdu_cases dci _ hUsing 3 (by decide) (by decide) 0
        (by rw [hZero]; decide)
      · refine ⟨t, hStep, hInactive.trans hNext.offersPending, ?_⟩
        rw [hNext.used, hZero]
        exact le_trans (by decide) hTbs
      · rw [hZero] at hExceeds
        exact absurd (lt_of_le_of_lt hTbs hExceeds) (by decide)
    · exact ⟨_, rfl, hInactive, hUsed⟩
  · exact ⟨s, rfl, .of_output rfl, hUsed⟩

/-- A grant that fits is kept, whatever the RLC answers. -/
theorem grantKept_of_fits (h : WellFormed dci s) (hAnswers : Answers env) (hFits : Fits dci s)
    (now : ℕ) : GrantKept env now dci s := by
  have hStart : OffersPending s (s.receive dci) := .of_output rfl
  have hFinish : ∀ t, Using dci t → t.ulDciTotalUsed.toNat + 5 ≤ tbs dci →
      ∃ u, finishDci now (dci.ndi.headD 0) t = some u ∧ OffersPending t u ∧
        u.ulDciTotalUsed.toNat ≤ tbs dci := by
    intro t hUsing hRoom
    obtain ⟨u, hReport, hUsingU, hOffers, hUsed⟩ := reportIfDue_of_room hUsing hRoom now
    rw [finishDci]
    split
    · exact ⟨u, hReport, hOffers, hUsed⟩
    · split
      · obtain ⟨v, hEnd, hOffersV, hUsedV⟩ :=
          finishNewData_of_room hUsingU hUsed (le_trans (Nat.le_add_left 5 _) hRoom)
        refine ⟨v, ?_, hOffers.trans hOffersV, hUsedV⟩
        rw [hReport]
        exact hEnd
      · exact ⟨t, rfl, .of_output rfl, le_trans (Nat.le_add_right _ 5) hRoom⟩
  have hData : ∃ t, sendData env (dci.ndi.headD 0) (s.receive dci) = some t ∧ Using dci t ∧
      OffersPending (s.receive dci) t ∧ t.ulDciTotalUsed.toNat + 5 ≤ tbs dci := by
    rw [Fits] at hFits
    rw [sendData]
    split
    · next hRetx =>
      rw [if_pos hRetx] at hFits
      exact transmitRetx_of_fits h.using rfl hFits
    · next hRetx =>
      rw [if_neg hRetx] at hFits
      split
      · next hNew =>
        rw [if_pos hNew] at hFits
        exact sendNewData_of_fits h.using hAnswers rfl
          ⟨hFits.status, hFits.oneStatus, hFits.retx, hFits.tx⟩
      · next hNew =>
        rw [if_neg hNew] at hFits
        exact ⟨_, rfl, h.using, .of_output rfl, by rw [receive]; exact hFits⟩
  obtain ⟨t, hStep, hUsing, hOffers, hRoom⟩ := hData
  obtain ⟨u, hEnd, hOffersU, hUsed⟩ := hFinish t hUsing hRoom
  refine ⟨⟨t, hStep, hRoom⟩, u, ?_, hUsed, hStart.trans (hOffers.trans hOffersU)⟩
  rw [processUlDci_eq h, hStep]
  exact hEnd

end NrUeMac
end Bullet.Ue
