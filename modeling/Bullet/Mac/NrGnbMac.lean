import Bullet.Mac.Dci

/-! # Downlink transport blocks at the base station

The MAC of the base station keeps the packets of each HARQ process and stream. On a DCI with new data
it lets the logical channels fill the streams; on a retransmission it sends the stored packets. The
answers of the RLC to its opportunities are parameters. A failed assertion, a fatal error or an
access outside of a vector is `none`.
-/

namespace Bullet.Mac

/-- What is kept for one stream of a HARQ process. -/
structure HarqProcessInfoSingleStream (π : Type) where
  pktBurst : List π := []
  lcidList : List UInt8 := []

/-- A packet handed to the PHY, for a stream. -/
structure SentMacPdu (π : Type) where
  pdu : π
  streamId : ℕ

variable {π : Type}

/-- The packets handed to the PHY for one stream, in order. -/
def sentOn (k : ℕ) (sent : List (SentMacPdu π)) : List π :=
  (sent.filter fun p => p.streamId = k).map SentMacPdu.pdu

namespace NrGnbMac

/-- The streams of a HARQ process, and what has been handed to the PHY. -/
structure Transmission (π : Type) where
  infoPerStream : List (HarqProcessInfoSingleStream π)
  sent : List (SentMacPdu π) := []

/-- `DoTransmitPdu`: a PDU of the RLC is stored and sent. -/
def doTransmitPdu (t : Transmission π) (layer : ℕ) (pdu : π) : Option (Transmission π) :=
  t.infoPerStream[layer]?.map fun info =>
    ⟨t.infoPerStream.set layer { info with pktBurst := info.pktBurst ++ [pdu] },
      t.sent ++ [⟨pdu, layer⟩]⟩

/-- The refresh for new data: every stream of the process, when any stream of the DCI has new data. -/
def refresh (dci : DciInfoElementTdma) (infoPerStream : List (HarqProcessInfoSingleStream π)) :
    Option (List (HarqProcessInfoSingleStream π)) :=
  match dci.ndi.findIdx? (· = 1) with
  | some stream =>
    match dci.tbSize[stream]? with
    | some tbSize => if 0 < tbSize then some (infoPerStream.map fun _ => {}) else none
    | none => none
  | none => some infoPerStream

/-- One stream of one logical channel. -/
def stream (rlc : RlcPduInfo → ℕ → List π) (dci : DciInfoElementTdma) (row : List RlcPduInfo)
    (t : Transmission π) (k : ℕ) : Option (Transmission π) := do
  let ndi ← dci.ndi[k]?
  if ndi = 1 then
    let rlcPduInfo ← row[k]?
    let t ← (rlc rlcPduInfo k).foldlM (fun t pdu => doTransmitPdu t k pdu) t
    let info ← t.infoPerStream[k]?
    some { t with infoPerStream :=
      t.infoPerStream.set k { info with lcidList := info.lcidList ++ [rlcPduInfo.lcid] } }
  else
    let tbSize ← dci.tbSize[k]?
    if 0 < tbSize then
      let info ← t.infoPerStream[k]?
      some { t with sent := t.sent ++ info.pktBurst.map fun pkt => ⟨pkt, k⟩ }
    else some t

/-- The loop over the streams of one logical channel; their number is narrowed to 8 bits. -/
def channel (rlc : RlcPduInfo → ℕ → List π) (dci : DciInfoElementTdma) (t : Transmission π)
    (row : List RlcPduInfo) : Option (Transmission π) :=
  (List.range (row.length % 256)).foldlM (stream rlc dci row) t

/-- The part of `DoSchedConfigIndication` for one allocation of DL data; `rlc` answers each
opportunity. -/
def doSchedConfigIndication (rlc : RlcPduInfo → ℕ → List π) (varTtiAllocInfo : VarTtiAllocInfo)
    (infoPerStream : List (HarqProcessInfoSingleStream π)) : Option (Transmission π) := do
  let infoPerStream ← refresh varTtiAllocInfo.dci infoPerStream
  varTtiAllocInfo.rlcPduInfo.foldlM (channel rlc varTtiAllocInfo.dci) ⟨infoPerStream, []⟩

/-! ## What a retransmission sends -/

/-- The packets kept for a stream. -/
def stored (infoPerStream : List (HarqProcessInfoSingleStream π)) (k : ℕ) : List π :=
  (infoPerStream[k]?.map HarqProcessInfoSingleStream.pktBurst).getD []

/-- No stream of the DCI has new data. -/
def Retransmission (dci : DciInfoElementTdma) : Prop := ∀ ndi ∈ dci.ndi, ndi ≠ 1

instance (dci : DciInfoElementTdma) : Decidable (Retransmission dci) :=
  inferInstanceAs (Decidable (∀ ndi ∈ dci.ndi, ndi ≠ 1))

/-- The stream is in the transport block. -/
def HasStream (dci : DciInfoElementTdma) (k : ℕ) : Prop := 0 < dci.tbSize[k]?.getD 0

instance (dci : DciInfoElementTdma) (k : ℕ) : Decidable (HasStream dci k) :=
  inferInstanceAs (Decidable (_ < _))

/-- The logical channels with a share of the stream. -/
def channelsOn (varTtiAllocInfo : VarTtiAllocInfo) (k : ℕ) : List (List RlcPduInfo) :=
  varTtiAllocInfo.rlcPduInfo.filter fun row => k < row.length % 256

theorem sentOn_append (k : ℕ) (l m : List (SentMacPdu π)) :
    sentOn k (l ++ m) = sentOn k l ++ sentOn k m := by
  simp [sentOn]

theorem sentOn_burst (j k : ℕ) (burst : List π) :
    sentOn k (burst.map fun pkt => ⟨pkt, j⟩) = if j = k then burst else [] := by
  unfold sentOn
  split
  · simp [*, List.filter_map, Function.comp_def]
  · simp [*, List.filter_map, Function.comp_def]

theorem stored_set {infoPerStream : List (HarqProcessInfoSingleStream π)}
    {info : HarqProcessInfoSingleStream π} {j k : ℕ} (hBound : j < infoPerStream.length) :
    stored (infoPerStream.set j info) k = if j = k then info.pktBurst else stored infoPerStream k := by
  unfold stored
  split
  case isTrue hEq =>
    subst hEq
    rw [List.getElem?_set_self hBound]
    rfl
  case isFalse hNe => rw [List.getElem?_set_ne hNe]

variable {rlc : RlcPduInfo → ℕ → List π} {dci : DciInfoElementTdma} {t t' : Transmission π}
  {row : List RlcPduInfo} {j k : ℕ}

/-- The PDUs of one stream neither are stored nor sent for another one. -/
theorem transmitPdus_other (hNe : j ≠ k) {pdus : List π}
    (h : pdus.foldlM (fun t pdu => doTransmitPdu t j pdu) t = some t') :
    stored t'.infoPerStream k = stored t.infoPerStream k ∧ sentOn k t'.sent = sentOn k t.sent := by
  induction pdus generalizing t with
  | nil =>
    cases h
    exact ⟨rfl, rfl⟩
  | cons pdu pdus ih =>
    obtain ⟨u, hFirst, hRest⟩ := Option.bind_eq_some_iff.mp h
    obtain ⟨hStored, hSent⟩ := ih hRest
    obtain ⟨info, hInfo, hEq⟩ := Option.map_eq_some_iff.mp hFirst
    cases hEq
    obtain ⟨hBound, -⟩ := List.getElem?_eq_some_iff.mp hInfo
    rw [stored_set hBound, if_neg hNe] at hStored
    have hBurst := sentOn_burst j k [pdu]
    rw [List.map_singleton, if_neg hNe] at hBurst
    rw [sentOn_append, hBurst, List.append_nil] at hSent
    exact ⟨hStored, hSent⟩

/-- What one stream of a logical channel adds to a stream without new data. -/
theorem stream_retransmission (hOld : dci.ndi[k]? ≠ some 1)
    (h : stream rlc dci row t j = some t') :
    stored t'.infoPerStream k = stored t.infoPerStream k ∧ sentOn k t'.sent = sentOn k t.sent ++
      if j = k ∧ HasStream dci k then stored t.infoPerStream k else [] := by
  obtain ⟨ndi, hNdi, h⟩ := Option.bind_eq_some_iff.mp h
  split at h
  case isTrue hNew =>
    subst hNew
    have hNe : j ≠ k := by
      rintro rfl
      exact hOld hNdi
    obtain ⟨rlcPduInfo, -, h⟩ := Option.bind_eq_some_iff.mp h
    obtain ⟨u, hPdus, h⟩ := Option.bind_eq_some_iff.mp h
    obtain ⟨info, hInfo, h⟩ := Option.bind_eq_some_iff.mp h
    cases h
    obtain ⟨hStored, hSent⟩ := transmitPdus_other hNe hPdus
    obtain ⟨hBound, -⟩ := List.getElem?_eq_some_iff.mp hInfo
    rw [stored_set hBound, if_neg hNe, if_neg fun hBoth => hNe hBoth.1, List.append_nil]
    exact ⟨hStored, hSent⟩
  case isFalse =>
    obtain ⟨tbSize, hTbSize, h⟩ := Option.bind_eq_some_iff.mp h
    have hHas : HasStream dci j ↔ 0 < tbSize := by rw [HasStream, hTbSize, Option.getD_some]
    split at h
    case isTrue hPos =>
      obtain ⟨info, hInfo, h⟩ := Option.bind_eq_some_iff.mp h
      cases h
      refine ⟨rfl, ?_⟩
      rw [sentOn_append, sentOn_burst]
      congr 1
      by_cases hEq : j = k
      · subst hEq
        rw [if_pos rfl, if_pos ⟨rfl, hHas.mpr hPos⟩, stored, hInfo]
        rfl
      · rw [if_neg hEq, if_neg fun hBoth => hEq hBoth.1]
    case isFalse hZero =>
      cases h
      refine ⟨rfl, ?_⟩
      have hNot : ¬ (j = k ∧ HasStream dci k) := by
        rintro ⟨rfl, hPos⟩
        exact hZero (hHas.mp hPos)
      rw [if_neg hNot, List.append_nil]

theorem streams_retransmission (hOld : dci.ndi[k]? ≠ some 1) {n : ℕ}
    (h : (List.range n).foldlM (stream rlc dci row) t = some t') :
    stored t'.infoPerStream k = stored t.infoPerStream k ∧ sentOn k t'.sent = sentOn k t.sent ++
      if k < n ∧ HasStream dci k then stored t.infoPerStream k else [] := by
  induction n generalizing t' with
  | zero =>
    cases h
    simp
  | succ n ih =>
    rw [List.range_succ, List.foldlM_append] at h
    obtain ⟨u, hBefore, h⟩ := Option.bind_eq_some_iff.mp h
    obtain ⟨v, hLast, h⟩ := Option.bind_eq_some_iff.mp h
    cases h
    obtain ⟨hStored, hSent⟩ := ih hBefore
    obtain ⟨hStored', hSent'⟩ := stream_retransmission hOld hLast
    refine ⟨hStored'.trans hStored, ?_⟩
    rw [hSent', hSent, hStored, List.append_assoc]
    congr 1
    rcases Nat.lt_trichotomy k n with hLt | rfl | hGt
    · simp [hLt, Nat.lt_succ_of_lt hLt, Nat.ne_of_gt hLt]
    · simp
    · simp [Nat.not_lt_of_gt hGt, Nat.ne_of_lt hGt, Nat.not_lt.mpr (Nat.succ_le_of_lt hGt)]

/-- Each logical channel with a share of the stream sends all its packets. -/
theorem channels_retransmission (hOld : dci.ndi[k]? ≠ some 1) {rows : List (List RlcPduInfo)}
    (hHas : HasStream dci k) (h : rows.foldlM (channel rlc dci) t = some t') :
    sentOn k t'.sent = sentOn k t.sent ++
      (rows.filter fun row => k < row.length % 256).flatMap fun _ => stored t.infoPerStream k := by
  induction rows generalizing t with
  | nil =>
    cases h
    simp
  | cons row rows ih =>
    obtain ⟨u, hFirst, hRest⟩ := Option.bind_eq_some_iff.mp h
    obtain ⟨hStored, hSent⟩ := streams_retransmission hOld hFirst
    rw [ih hRest, hStored, hSent, List.append_assoc]
    congr 1
    by_cases hShare : k < row.length % 256
    · simp [hShare, hHas]
    · simp [hShare]

theorem flatMap_const_eq_iff {α β : Type} (l : List α) (b : List β) :
    (l.flatMap fun _ => b) = b ↔ l.length = 1 ∨ b = [] := by
  constructor
  · intro hEq
    have hLength := congrArg List.length hEq
    rw [List.length_flatMap] at hLength
    rw [List.map_const', List.sum_replicate_nat] at hLength
    rcases Nat.eq_zero_or_pos b.length with hNil | hPos
    · exact Or.inr (List.length_eq_zero_iff.mp hNil)
    · exact Or.inl (Nat.eq_of_mul_eq_mul_right hPos (hLength.trans (Nat.one_mul _).symm))
  · rintro (hOne | rfl)
    · obtain ⟨a, rfl⟩ := List.length_eq_one_iff.mp hOne
      simp
    · simp

/-- New data on any stream empties all of them. -/
theorem stored_refresh {infoPerStream refreshed : List (HarqProcessInfoSingleStream π)}
    (h : refresh dci infoPerStream = some refreshed) :
    stored refreshed k = if Retransmission dci then stored infoPerStream k else [] := by
  unfold refresh at h
  split at h
  case h_1 stream hFound =>
    have hNew : ¬ Retransmission dci := by
      intro hRetx
      obtain ⟨hBound, hOne, -⟩ := List.findIdx?_eq_some_iff_getElem.mp hFound
      exact hRetx _ (List.getElem_mem hBound) (of_decide_eq_true hOne)
    rw [if_neg hNew]
    split at h
    · split at h
      · cases h
        rw [stored, List.getElem?_map]
        cases infoPerStream[k]? with
        | none => rfl
        | some info => rfl
      · cases h
    · cases h
  case h_2 hNone =>
    cases h
    rw [if_pos]
    intro ndi hMem hOne
    exact absurd (decide_eq_true hOne)
      (Bool.eq_false_iff.mp (List.findIdx?_eq_none_iff.mp hNone ndi hMem))

/-- A retransmission is exact when one logical channel shared the stream and no other stream has new
data, or when nothing is stored. -/
theorem retransmission_exact_iff {varTtiAllocInfo : VarTtiAllocInfo}
    {infoPerStream : List (HarqProcessInfoSingleStream π)}
    (hOld : varTtiAllocInfo.dci.ndi[k]? ≠ some 1) (hHas : HasStream varTtiAllocInfo.dci k)
    (h : doSchedConfigIndication rlc varTtiAllocInfo infoPerStream = some t) :
    sentOn k t.sent = stored infoPerStream k ↔
      (channelsOn varTtiAllocInfo k).length = 1 ∧ Retransmission varTtiAllocInfo.dci ∨
        stored infoPerStream k = [] := by
  obtain ⟨refreshed, hRefresh, h⟩ := Option.bind_eq_some_iff.mp h
  have hSent : sentOn k t.sent =
      (channelsOn varTtiAllocInfo k).flatMap fun _ => stored refreshed k :=
    channels_retransmission hOld hHas h
  rw [hSent, stored_refresh hRefresh]
  by_cases hRetx : Retransmission varTtiAllocInfo.dci
  · rw [if_pos hRetx, flatMap_const_eq_iff]
    exact or_congr_left (and_iff_left hRetx).symm
  · rw [if_neg hRetx]
    have hNil : ((channelsOn varTtiAllocInfo k).flatMap fun _ => ([] : List π)) = [] := by
      rw [List.flatMap_eq_nil_iff]
      exact fun _ _ => rfl
    rw [hNil]
    constructor
    · intro hEq
      exact Or.inr hEq.symm
    · rintro (⟨-, hAbsurd⟩ | hEmpty)
      · exact absurd hAbsurd hRetx
      · exact hEmpty.symm

/-! ## What new data leaves behind -/

/-- The packets kept for a stream with new data are those sent on it. -/
def Kept (dci : DciInfoElementTdma) (t : Transmission π) : Prop :=
  ∀ k, dci.ndi[k]? = some 1 → stored t.infoPerStream k = sentOn k t.sent

theorem kept_doTransmitPdu (hKept : Kept dci t) {pdu : π} {j : ℕ}
    (h : doTransmitPdu t j pdu = some t') : Kept dci t' := by
  obtain ⟨info, hInfo, hEq⟩ := Option.map_eq_some_iff.mp h
  cases hEq
  obtain ⟨hBound, -⟩ := List.getElem?_eq_some_iff.mp hInfo
  have hOwn : stored t.infoPerStream j = info.pktBurst := by
    rw [stored, hInfo]
    rfl
  intro k hNew
  have hBurst := sentOn_burst j k [pdu]
  rw [List.map_singleton] at hBurst
  rw [stored_set hBound, sentOn_append, hBurst, ← hKept k hNew]
  split
  case isTrue hEq =>
    subst hEq
    rw [hOwn]
  case isFalse => rw [List.append_nil]

theorem kept_foldlM {ι : Type} {step : Transmission π → ι → Option (Transmission π)}
    (hStep : ∀ t i t', Kept dci t → step t i = some t' → Kept dci t') {l : List ι}
    (hKept : Kept dci t) (h : l.foldlM step t = some t') : Kept dci t' := by
  induction l generalizing t with
  | nil =>
    cases h
    exact hKept
  | cons i l ih =>
    obtain ⟨u, hFirst, hRest⟩ := Option.bind_eq_some_iff.mp h
    exact ih (hStep t i u hKept hFirst) hRest

theorem kept_stream (hKept : Kept dci t) {j : ℕ} (h : stream rlc dci row t j = some t') :
    Kept dci t' := by
  obtain ⟨ndi, hNdi, h⟩ := Option.bind_eq_some_iff.mp h
  split at h
  case isTrue =>
    obtain ⟨rlcPduInfo, -, h⟩ := Option.bind_eq_some_iff.mp h
    obtain ⟨u, hPdus, h⟩ := Option.bind_eq_some_iff.mp h
    obtain ⟨info, hInfo, h⟩ := Option.bind_eq_some_iff.mp h
    cases h
    have hU : Kept dci u :=
      kept_foldlM (fun _ _ _ hKept hPdu => kept_doTransmitPdu hKept hPdu) hKept hPdus
    obtain ⟨hBound, -⟩ := List.getElem?_eq_some_iff.mp hInfo
    have hOwn : stored u.infoPerStream j = info.pktBurst := by
      rw [stored, hInfo]
      rfl
    intro k hNew
    rw [stored_set hBound, ← hU k hNew]
    split
    case isTrue hEq =>
      subst hEq
      exact hOwn.symm
    case isFalse => rfl
  case isFalse hOld =>
    obtain ⟨tbSize, -, h⟩ := Option.bind_eq_some_iff.mp h
    split at h
    case isTrue =>
      obtain ⟨info, -, h⟩ := Option.bind_eq_some_iff.mp h
      cases h
      intro k hNew
      have hNe : j ≠ k := by
        rintro rfl
        exact hOld (Option.some.inj (hNdi.symm.trans hNew))
      rw [sentOn_append, sentOn_burst, if_neg hNe, List.append_nil]
      exact hKept k hNew
    case isFalse =>
      cases h
      exact hKept

/-- After new data, what is kept for its streams is what has been sent on them. -/
theorem newData_kept {varTtiAllocInfo : VarTtiAllocInfo}
    {infoPerStream : List (HarqProcessInfoSingleStream π)}
    (h : doSchedConfigIndication rlc varTtiAllocInfo infoPerStream = some t) :
    Kept varTtiAllocInfo.dci t := by
  obtain ⟨refreshed, hRefresh, h⟩ := Option.bind_eq_some_iff.mp h
  have hStart : Kept varTtiAllocInfo.dci (⟨refreshed, []⟩ : Transmission π) := by
    intro k hNew
    have hNot : ¬ Retransmission varTtiAllocInfo.dci := by
      intro hRetx
      exact hRetx 1 (List.mem_of_getElem? hNew) rfl
    rw [stored_refresh hRefresh, if_neg hNot]
    rfl
  exact kept_foldlM (fun t row t' hKept hRow =>
    kept_foldlM (fun _ _ _ hKept hStream => kept_stream hKept hStream) hKept hRow) hStart h

/-! ## Blocks that are shared -/

/-- A block of one stream that logical channels share. -/
def shared (ndi : UInt8) (rlcPduInfo : List RlcPduInfo) : VarTtiAllocInfo where
  dci := { tbSize := [100], ndi := [ndi], type := .data }
  rlcPduInfo := rlcPduInfo.map fun r => [r]

theorem retransmission_exact_one : ∃ t : Transmission ℕ,
    doSchedConfigIndication (fun _ _ => []) (shared 0 [⟨3, 97⟩]) [⟨[7, 8], [3]⟩] = some t ∧
      sentOn 0 t.sent = [7, 8] := by
  obtain ⟨t, hRun⟩ : ∃ t : Transmission ℕ, doSchedConfigIndication (fun _ _ => [])
      (shared 0 [⟨3, 97⟩]) [⟨[7, 8], [3]⟩] = some t := ⟨_, rfl⟩
  have hOld : (shared 0 [⟨3, 97⟩]).dci.ndi[0]? ≠ some 1 := by decide
  have hHas : HasStream (shared 0 [⟨3, 97⟩]).dci 0 := by decide +kernel
  have hRetx : Retransmission (shared 0 [⟨3, 97⟩]).dci := by decide +kernel
  exact ⟨t, hRun, (retransmission_exact_iff hOld hHas hRun).mpr (Or.inl ⟨rfl, hRetx⟩)⟩

/-- A block holds a packet of each of two logical channels. Its retransmission sends both twice. -/
theorem shared_block_sent_twice : ∃ first again : Transmission ℕ,
    doSchedConfigIndication (fun r _ => [r.lcid.toNat]) (shared 1 [⟨3, 47⟩, ⟨4, 47⟩]) [{}] =
      some first ∧
    doSchedConfigIndication (fun _ _ => []) (shared 0 [⟨3, 47⟩, ⟨4, 47⟩]) first.infoPerStream =
      some again ∧
    stored first.infoPerStream 0 = [3, 4] ∧ sentOn 0 again.sent = [3, 4, 3, 4] :=
  ⟨_, _, rfl, rfl, rfl, rfl⟩

end NrGnbMac

end Bullet.Mac
