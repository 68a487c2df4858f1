import Bullet.Rlc.AmAssembly
import Bullet.Rlc.UmReassembly
import Bullet.Rlc.UmRoundTrip

/-! # What an RLC UM entity sends

The data field of a PDU is a run of pieces of the SDUs that wait: the last one may be the beginning
of an SDU whose rest is given back. The receiver reads the same pieces.
-/

namespace Bullet.Rlc

open Lib Segmentation SequenceNumber10

namespace LteRlcUm

/-! ## The data field -/

/-- The assembly of a data field from the SDUs `sdus`: `full` are taken whole, and `k` bytes of
the one after them. -/
structure AssembledFrom (header : LteRlcHeader) (dataField sdus full : List Sdu) (sdu : Sdu)
    (k : ℕ) (remaining : List Sdu) (a : Assembly) : Prop where
  sdus : sdus = full ++ sdu :: remaining
  pos : 0 < k
  short : ∀ p ∈ full, p.getSize ≤ 2047
  header : a.header = header.pushEntries (full.map Sdu.getSize)
  dataField : a.dataField = dataField ++ full ++ [sdu.head k]
  txBuffer : a.txBuffer = sdu.rest k ++ remaining

variable {header : LteRlcHeader} {dataField sdus full remaining tx : List Sdu} {first sdu : Sdu}
  {k next id : ℕ} {size : UInt32} {a : Assembly}

theorem cut_eq (hWaiting : first.Waiting) (size : UInt32) :
    (⟨header, dataField, tx, size⟩ : Assembly).cut first next =
      ⟨header.pushExtensionBit DATA_FIELD_FOLLOWS,
        dataField ++ [first.head (min first.getSize next)],
        first.rest (min first.getSize next) ++ tx,
        size + bufferSize (first.rest (min first.getSize next))⟩ := by
  have hLength : (first.bytes.drop (min first.getSize next)).length =
      first.getSize - min first.getSize next := List.length_drop ..
  unfold Assembly.cut Sdu.head Sdu.rest
  dsimp only
  by_cases hShort : min first.getSize next < first.getSize
  · rw [if_pos (by omega), if_pos hShort, if_pos hShort]
    rcases hWaiting.status with hFull | hLast
    · simp [Assembly.close, hFull, bufferSize, Sdu.getSize]
    · simp [Assembly.close, hLast, bufferSize, Sdu.getSize]
  · have hAll : first.bytes.take (min first.getSize next) = first.bytes :=
      List.take_of_length_le (Nat.not_lt.mp hShort)
    rw [if_neg (by omega), if_neg hShort, if_neg hShort, hAll]
    obtain ⟨bytes, status⟩ := first
    rcases hWaiting.status with rfl | rfl
    · simp [Assembly.close, bufferSize]
    · simp [Assembly.close, bufferSize]

theorem AssembledFrom.ofCut (hWaiting : first.Waiting) (hNext : 0 < next) :
    AssembledFrom header dataField (first :: tx) [] first (min first.getSize next) tx
      ((⟨header, dataField, tx, size⟩ : Assembly).cut first next) := by
  rw [cut_eq hWaiting]
  constructor
  · rfl
  · exact Nat.lt_min.mpr ⟨hWaiting.pos, hNext⟩
  · simp
  · rfl
  · simp
  · rfl

theorem AssembledFrom.ofClose (hWaiting : first.Waiting) :
    AssembledFrom header dataField (first :: tx) [] first first.getSize tx
      ((⟨header, dataField, tx, size⟩ : Assembly).close first) := by
  have hHead : first.head first.getSize = first := if_neg (Nat.lt_irrefl _)
  have hRest : first.rest first.getSize = [] := if_neg (Nat.lt_irrefl _)
  constructor
  · rfl
  · exact hWaiting.pos
  · simp
  · rfl
  · rw [hHead, List.append_nil]
    rfl
  · rw [hRest]
    rfl

theorem AssembledFrom.push (hShort : first.getSize ≤ 2047)
    (h : AssembledFrom ((header.pushExtensionBit E_LI_FIELDS_FOLLOWS).pushLengthIndicator
      first.getSize) (dataField ++ [first]) tx full sdu k remaining a) :
    AssembledFrom header dataField (first :: tx) (first :: full) sdu k remaining a where
  sdus := by rw [h.sdus, List.cons_append]
  pos := h.pos
  short := List.forall_mem_cons.mpr ⟨hShort, h.short⟩
  header := h.header
  dataField := by rw [h.dataField, List.append_assoc dataField, List.singleton_append]
  txBuffer := h.txBuffer

/-- Each SDU that is taken whole takes two bytes at least. -/
theorem assemble_spec (hWaiting : ∀ p ∈ first :: tx, p.Waiting) (hNext : 0 < next) :
    ∃ full sdu k remaining, AssembledFrom header dataField (first :: tx) full sdu k remaining
      (assemble header dataField next id first size tx) ∧ 2 * full.length < next := by
  induction tx generalizing header dataField next id first size with
  | nil =>
    have hFirst := hWaiting first List.mem_cons_self
    unfold assemble
    dsimp only
    rw [if_pos ⟨hFirst.pos, hNext⟩]
    split
    · exact ⟨_, _, _, _, .ofCut hFirst hNext, hNext⟩
    · exact ⟨_, _, _, _, .ofClose hFirst, hNext⟩
  | cons sdu tx ih =>
    have hFirst := hWaiting first List.mem_cons_self
    unfold assemble
    dsimp only
    rw [if_pos ⟨hFirst.pos, hNext⟩]
    split
    case isTrue => exact ⟨_, _, _, _, .ofCut hFirst hNext, hNext⟩
    case isFalse hFits =>
      split
      case isTrue => exact ⟨_, _, _, _, .ofClose hFirst, hNext⟩
      case isFalse hRoom =>
        have hLeft : 0 < next - ((if id % 2 = 1 then 2 else 1) + first.getSize) := by
          split <;> omega
        obtain ⟨full, last, k, remaining, hRest, hCount⟩ :=
          ih (fun p hMem => hWaiting p (List.mem_cons_of_mem _ hMem)) hLeft
        have hPos := hFirst.pos
        refine ⟨_, _, _, _, hRest.push (by omega), ?_⟩
        rw [List.length_cons]
        split at hCount <;> omega

/-! ## The packet -/

theorem splitSdus_entryBits (full : List Sdu) (last : List UInt8) :
    LteRlcAm.splitSdus (entryBits (full.map Sdu.getSize)) (full.map Sdu.getSize)
      (full.flatMap Sdu.bytes ++ last) = some (full.map Sdu.bytes ++ [last]) := by
  induction full with
  | nil => rfl
  | cons p full ih =>
    rw [List.map_cons, entryBits, LteRlcAm.splitSdus, if_neg (by decide), List.flatMap_cons,
      List.append_assoc, if_pos (by rw [List.length_append]; exact Nat.le_add_right _ _)]
    have hDrop : (p.bytes ++ (full.flatMap Sdu.bytes ++ last)).drop p.getSize =
        full.flatMap Sdu.bytes ++ last := List.drop_left
    have hTake : (p.bytes ++ (full.flatMap Sdu.bytes ++ last)).take p.getSize = p.bytes :=
      List.take_left
    rw [hDrop, hTake, ih]
    rfl

/-- The packet is read back: its header, and the data behind it. -/
theorem removeHeader_ofFields (fi : ℕ) (sn : SequenceNumber10) {lis : List ℕ} (data : List UInt8)
    (hLis : ∀ li ∈ lis, li < 2048) (hShort : 2 + entryBytes lis.length < 65536) :
    (⟨LteRlcHeader.ofFields fi sn lis, data⟩ : UmPdu).removeHeader =
      some ({ LteRlcHeader.ofFields fi sn lis with
        sequenceNumber := ({} : LteRlcHeader).sequenceNumber.assign sn.getValue }, data) := by
  have hSize : (LteRlcHeader.ofFields fi sn lis).getSerializedSize =
      (LteRlcHeader.bytes fi sn lis).length := by
    rw [LteRlcHeader.length_bytes, LteRlcHeader.ofFields_eq]
    exact Nat.mod_eq_of_lt hShort
  have hBytes : (⟨LteRlcHeader.ofFields fi sn lis, data⟩ : UmPdu).bytes =
      some (LteRlcHeader.bytes fi sn lis ++ data) := by
    rw [UmPdu.bytes, LteRlcHeader.serialize_ofFields, Option.bind_some, if_pos hSize.symm]
  have hPeek : (⟨LteRlcHeader.ofFields fi sn lis, data⟩ : UmPdu).peekHeader =
      some { LteRlcHeader.ofFields fi sn lis with
        sequenceNumber := ({} : LteRlcHeader).sequenceNumber.assign sn.getValue } := by
    rw [UmPdu.peekHeader, hBytes, Option.bind_some,
      LteRlcHeader.deserialize_bytes fi sn lis data hLis]
    rfl
  rw [UmPdu.removeHeader, hPeek, hBytes, Option.bind_eq_bind, Option.bind_some, Option.bind_eq_bind,
    Option.bind_some]
  have hDrop : (LteRlcHeader.bytes fi sn lis ++ data).drop
      (LteRlcHeader.ofFields fi sn lis).getSerializedSize = data := by
    rw [hSize, List.drop_left]
  exact congrArg (fun d => some (_, d)) hDrop

/-! ## The sequence of PDUs -/

/-- The SDUs that wait are what is left of the sequence `l` behind the cut. -/
structure Waits (tx : List Sdu) (l : List (List UInt8)) (c : Cut) : Prop where
  within : Within l c
  bytes : tx.map Sdu.bytes = rest l c
  first : ∀ p ∈ tx.head?, p.status = if c.element = 0 then .FULL_SDU else .LAST_SEGMENT
  others : ∀ p ∈ tx.tail, p.status = .FULL_SDU
  pos : ∀ p ∈ tx, 0 < p.getSize

variable {l : List (List UInt8)} {c : Cut} {s : LteRlcUm} {n bytes : ℕ}

theorem Waits.waiting (h : Waits tx l c) : ∀ p ∈ tx, p.Waiting := by
  intro p hMem
  refine ⟨h.pos p hMem, ?_⟩
  cases tx with
  | nil => cases hMem
  | cons q tx =>
    obtain rfl | hMem := List.mem_cons.mp hMem
    · have hFirst := h.first p rfl
      split at hFirst
      · exact Or.inl hFirst
      · exact Or.inr hFirst
    · exact Or.inl (h.others p hMem)

/-- One more SDU waits. -/
theorem Waits.push (h : Waits tx l c) {p : List UInt8} (hNe : p ≠ []) :
    Waits (tx ++ [⟨p, .FULL_SDU⟩]) (l ++ [p]) c where
  within := h.within.append [p]
  bytes := by
    rw [rest_append h.within, ← h.bytes, List.map_append]
    rfl
  first := by
    cases tx with
    | nil =>
      rintro q ⟨⟩
      have hEmpty : rest l c = [] := h.bytes.symm
      refine (if_pos ?_).symm
      by_contra hInside
      rw [rest_of_lt (h.within.inside hInside)] at hEmpty
      cases hEmpty
    | cons q tx => exact h.first
  others := by
    cases tx with
    | nil => exact nofun
    | cons q tx =>
      intro p' hMem
      obtain hMem | hMem := List.mem_append.mp (show p' ∈ tx ++ _ from hMem)
      · exact h.others p' hMem
      · cases List.mem_singleton.mp hMem
        rfl
  pos := by
    intro p' hMem
    obtain hMem | hMem := List.mem_append.mp hMem
    · exact h.pos p' hMem
    · cases List.mem_singleton.mp hMem
      exact List.length_pos_of_ne_nil hNe

theorem Waits.rest_eq (h : Waits (full ++ sdu :: remaining) l c) :
    rest l c = full.map Sdu.bytes ++ sdu.bytes :: remaining.map Sdu.bytes := by
  rw [← h.bytes, List.map_append, List.map_cons]

theorem Waits.remaining_full (h : Waits (full ++ sdu :: remaining) l c) :
    ∀ p ∈ remaining, p.status = .FULL_SDU := by
  intro p hMem
  refine h.others p ?_
  cases full with
  | nil => exact hMem
  | cons q full => exact List.mem_append_right _ (List.mem_cons_of_mem _ hMem)

/-- What is left when a PDU has been put together. -/
theorem Waits.take (h : Waits (full ++ sdu :: remaining) l c) (hPos : 0 < k) :
    Waits (sdu.rest k ++ remaining) l (c.advance full.length k sdu.getSize) := by
  have hRest := h.rest_eq
  have hFollows := follows_advance hRest hPos
  have hLeft := rest_advance (k := k) hRest
  rw [List.length_map] at hFollows hLeft
  have hFull := h.remaining_full
  have hSizes : ∀ p ∈ remaining, 0 < p.getSize := fun p hMem =>
    h.pos p (List.mem_append_right _ (List.mem_cons_of_mem _ hMem))
  by_cases hShort : k < sdu.getSize
  · have hBack : sdu.rest k = [⟨sdu.bytes.drop k, .LAST_SEGMENT⟩] := if_pos hShort
    have hInside : (c.advance full.length k sdu.getSize).element ≠ 0 := by
      unfold Cut.advance
      rw [if_pos hShort]
      dsimp only
      split <;> omega
    rw [hBack]
    refine ⟨hFollows.within, ?_, ?_, hFull, List.forall_mem_cons.mpr ⟨?_, hSizes⟩⟩
    · refine Eq.trans ?_ hLeft.symm
      rw [if_pos (show k < sdu.bytes.length from hShort)]
      rfl
    · rintro p ⟨⟩
      exact (if_neg hInside).symm
    · change 0 < (sdu.bytes.drop k).length
      rw [List.length_drop]
      exact Nat.sub_pos_of_lt hShort
  · have hBack : sdu.rest k = [] := if_neg hShort
    have hEnd : (c.advance full.length k sdu.getSize).element = 0 := by
      unfold Cut.advance
      rw [if_neg hShort]
    rw [hBack, List.nil_append]
    refine ⟨hFollows.within, ?_, fun p hHead => ?_, fun p hTail => ?_, hSizes⟩
    · refine Eq.trans ?_ hLeft.symm
      rw [if_neg (show ¬ k < sdu.bytes.length from hShort)]
      rfl
    · rw [if_pos hEnd]
      exact hFull p (List.mem_of_mem_head? hHead)
    · exact hFull p (List.mem_of_mem_tail hTail)

theorem advance_element_eq_zero_iff (hPos : 0 < k) :
    (c.advance n k sdu.getSize).element = 0 ↔ ¬ k < sdu.getSize := by
  unfold Cut.advance
  split
  · next hShort =>
    refine iff_of_false ?_ (not_not_intro hShort)
    dsimp only
    split <;> omega
  · next hAll => exact iff_of_true rfl hAll

/-- The framing info says whether the PDU begins and ends with an SDU. -/
theorem Waits.framingInfo_eq (h : Waits (full ++ sdu :: remaining) l c) (hPos : 0 < k)
    (hFirst : (full ++ [sdu.head k]).head? = some first) :
    LteRlcAm.framingInfo first.status (sdu.head k).status = framing (decide (c.element = 0))
      (decide ((c.advance full.length k sdu.getSize).element = 0)) := by
  have hStarts : first.status = .FULL_SDU ∨ first.status = .FIRST_SEGMENT ↔ c.element = 0 := by
    cases full with
    | nil =>
      cases hFirst
      have hStatus := h.first sdu rfl
      unfold Sdu.head
      by_cases hStart : c.element = 0
      · rw [if_pos hStart] at hStatus
        split <;> simp [hStatus, hStart]
      · rw [if_neg hStart] at hStatus
        split <;> simp [hStatus, hStart]
    | cons q full =>
      cases hFirst
      rw [h.first _ rfl]
      split <;> simp [*]
  have hEnds : (sdu.head k).status = .FULL_SDU ∨ (sdu.head k).status = .LAST_SEGMENT ↔
      (c.advance full.length k sdu.getSize).element = 0 := by
    rw [advance_element_eq_zero_iff hPos]
    unfold Sdu.head
    split
    · next hShort =>
      refine iff_of_false ?_ (not_not_intro hShort)
      dsimp only
      split <;> simp
    · next hAll =>
      exact iff_of_true (h.waiting sdu (List.mem_append_right _ List.mem_cons_self)).status hAll
  unfold LteRlcAm.framingInfo framing
  simp only [hStarts, hEnds, decide_eq_true_eq]

theorem head_bytes (sdu : Sdu) (k : ℕ) : (sdu.head k).bytes = sdu.bytes.take k := by
  unfold Sdu.head
  split
  · rfl
  · next hAll => exact (List.take_of_length_le (Nat.not_lt.mp hAll)).symm

/-- The receiver reads the pieces of the data field. -/
theorem carries_assembled {sn : SequenceNumber10} (h : Waits (full ++ sdu :: remaining) l c)
    (hPos : 0 < k) (hLis : ∀ p ∈ full, p.getSize ≤ 2047) (hShort : full.length ≤ 43688)
    (hFirst : (full ++ [sdu.head k]).head? = some first) (hNumber : sn.value = num n) :
    (⟨LteRlcHeader.ofFields (LteRlcAm.framingInfo first.status (sdu.head k).status) sn
        (full.map Sdu.getSize), (full ++ [sdu.head k]).flatMap Sdu.bytes⟩ : UmPdu).Carries n
      (decide (c.element = 0)) (decide ((c.advance full.length k sdu.getSize).element = 0))
      (pieces l c (c.advance full.length k sdu.getSize)) := by
  have hPieces := pieces_advance h.rest_eq hPos
  rw [List.length_map, show sdu.bytes.length = sdu.getSize from rfl] at hPieces
  have hData : (full ++ [sdu.head k]).flatMap Sdu.bytes =
      full.flatMap Sdu.bytes ++ sdu.bytes.take k := by
    rw [List.flatMap_append, List.flatMap_singleton, head_bytes]
  have hFits : ∀ li ∈ full.map Sdu.getSize, li < 2048 := by
    intro li hLi
    obtain ⟨p, hMem, rfl⟩ := List.mem_map.mp hLi
    exact Nat.lt_succ_of_le (hLis p hMem)
  have hRead := removeHeader_ofFields (LteRlcAm.framingInfo first.status (sdu.head k).status) sn
    ((full ++ [sdu.head k]).flatMap Sdu.bytes) hFits (by
      rw [List.length_map]
      unfold entryBytes
      omega)
  rw [LteRlcHeader.ofFields_eq] at hRead ⊢
  refine ⟨?_, _, _, hRead, ?_, ?_, ?_⟩
  · rw [hPieces]
    exact List.append_ne_nil_of_right_ne_nil _ (List.cons_ne_nil _ _)
  · exact (assign_getValue _ sn).trans hNumber
  · rw [← h.framingInfo_eq hPos hFirst]
    unfold LteRlcAm.framingInfo
    dsimp only
    split <;> split <;> rfl
  · rw [hPieces, hData]
    exact splitSdus_entryBits full _

/-- An opportunity sends the pieces from the cut to a later one. -/
theorem doNotifyTxOpportunity_spec (h : Waits s.txBuffer l c) (hTx : s.txBuffer ≠ [])
    (hBytes : 2 < bytes) (hShort : s.txBuffer.length ≤ 43689 ∨ bytes ≤ 87380)
    (hNumber : s.sequenceNumber.value = num n) :
    ∃ s' p d, s.doNotifyTxOpportunity bytes = some (s', [.transmitPdu p]) ∧ Follows l c d ∧
      p.Carries n (decide (c.element = 0)) (decide (d.element = 0)) (pieces l c d) ∧
      Waits s'.txBuffer l d ∧ s'.sequenceNumber.value = num (n + 1) := by
  obtain ⟨first, tx, hQueue⟩ := List.exists_cons_of_ne_nil hTx
  rw [hQueue] at h hShort
  obtain ⟨full, sdu, k, remaining, hAssembled, hCount⟩ :
      ∃ full sdu k remaining, AssembledFrom {} [] (first :: tx) full sdu k remaining
        (assemble {} [] (bytes - 2) 1 first (s.txBufferSize - UInt32.ofNat first.getSize) tx) ∧
          2 * full.length < bytes - 2 :=
    assemble_spec h.waiting (by omega)
  have hLength : (first :: tx).length = full.length + (remaining.length + 1) := by
    rw [hAssembled.sdus, List.length_append, List.length_cons]
  rw [hAssembled.sdus] at h
  have hFollows := follows_advance h.rest_eq hAssembled.pos
  rw [List.length_map] at hFollows
  have hNe : full ++ [sdu.head k] ≠ [] :=
    List.append_ne_nil_of_right_ne_nil _ (List.cons_ne_nil _ _)
  obtain ⟨opening, hHead⟩ := Option.isSome_iff_exists.mp (List.isSome_head?.mpr hNe)
  have hCarries := carries_assembled h hAssembled.pos hAssembled.short (by omega) hHead hNumber
  have hField := hAssembled.dataField
  rw [List.nil_append] at hField
  have hHeader : ∀ fi, ((assemble {} [] (bytes - 2) 1 first
      (s.txBufferSize - UInt32.ofNat first.getSize) tx).header.setSequenceNumber
        s.sequenceNumber).setFramingInfo fi =
      LteRlcHeader.ofFields fi s.sequenceNumber (full.map Sdu.getSize) := by
    intro fi
    rw [hAssembled.header, LteRlcHeader.pushEntries_spec _ _ (Or.inl rfl), LteRlcHeader.ofFields_eq]
    simp [LteRlcHeader.setSequenceNumber, LteRlcHeader.setFramingInfo]
  have hRun : s.doNotifyTxOpportunity bytes = s.finish (assemble {} [] (bytes - 2) 1 first
      (s.txBufferSize - UInt32.ofNat first.getSize) tx) := by
    unfold doNotifyTxOpportunity
    rw [if_neg (Nat.not_le.mpr hBytes), hQueue]
  rw [hRun, finish, hField, hHead, List.getLast?_concat, Option.bind_eq_bind, Option.bind_some,
    Option.bind_some]
  dsimp only
  rw [hHeader]
  refine ⟨_, _, _, rfl, hFollows, hCarries, ?_, ?_⟩
  · change Waits (assemble {} [] (bytes - 2) 1 first
      (s.txBufferSize - UInt32.ofNat first.getSize) tx).txBuffer l _
    rw [hAssembled.txBuffer]
    exact h.take hAssembled.pos
  · change s.sequenceNumber.increment.value = _
    rw [increment, hNumber, num_add_one]

end LteRlcUm

end Bullet.Rlc
