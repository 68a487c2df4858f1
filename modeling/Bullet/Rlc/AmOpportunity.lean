import Bullet.Rlc.Am
import Bullet.Rlc.AmRoundTrip

/-! # PDUs against their opportunity

A data PDU never takes more bytes than its opportunity. A STATUS PDU takes one more when the
opportunity is a multiple of three and enough numbers are missing: the check for one more entry
has the parities of the entries exchanged. A retransmitted PDU is compared with its opportunity
unless the entity is configured not to.
-/

namespace Bullet.Rlc.LteRlcAm

open LteRlcAmHeader

variable {s s' : LteRlcAm} {n : ℕ} {out : List Output}

/-! ## STATUS PDUs -/

/-- The numbers from `sn` up to VR(MS) whose PDU has not been received. -/
def missingFrom (s : LteRlcAm) : ℕ → SequenceNumber10 → List SequenceNumber10
  | 0, _ => []
  | fuel + 1, sn =>
    if sn.lt s.vrMs = some true then
      if s.isComplete sn then s.missingFrom fuel sn.increment
      else sn :: s.missingFrom fuel sn.increment
    else []

/-- The missing numbers of [VR(R), VR(MS)). -/
def missing (s : LteRlcAm) : List SequenceNumber10 := s.missingFrom 1024 s.vrR

/-- The number of entries after which the check finds no room for another one. -/
def entryLimit (bytes : ℕ) : ℕ := 2 * (bytes / 3) - 1

/-- The header of a STATUS PDU with a number of entries. -/
structure Status (h : LteRlcAmHeader) (k : ℕ) : Prop where
  isStatus : h.IsStatusPdu
  count : h.nackSnList.length = k
  headerLength : h.headerLength = 2 + entryBytes k

theorem Status.fits {h : LteRlcAmHeader} {k : ℕ} (hStatus : Status h k) (bytes : ℕ) :
    h.oneMoreNackWouldFitIn bytes = some (decide (k < entryLimit bytes)) := by
  rw [oneMoreNackWouldFitIn, if_pos hStatus.isStatus, hStatus.count, hStatus.headerLength]
  unfold entryLimit entryBytes
  split
  case isTrue hEven => exact congrArg some (decide_eq_decide.mpr (by omega))
  case isFalse hOdd => exact congrArg some (decide_eq_decide.mpr (by omega))

theorem Status.push {h : LteRlcAmHeader} {k : ℕ} (hStatus : Status h k) (hFew : k < 1024)
    (nack : ℕ) : ∃ h', h.pushNack nack = some h' ∧ Status h' (k + 1) := by
  have hLength : h.headerLength = (2 + entryBytes h.nackSnList.length) % 65536 := by
    rw [hStatus.count, hStatus.headerLength]
    unfold entryBytes
    omega
  refine ⟨_, pushNack_spec nack hStatus.isStatus hLength, hStatus.isStatus, ?_, ?_⟩
  · simp [hStatus.count]
  · change (2 + entryBytes (h.nackSnList.length + 1)) % 65536 = 2 + entryBytes (k + 1)
    rw [hStatus.count]
    unfold entryBytes
    omega

/-- The loop reports every missing number, or as many as the check lets in. -/
theorem nackLoop_spec {bytes fuel k : ℕ} {sn sn' : SequenceNumber10} {h h' : LteRlcAmHeader}
    (hStatus : Status h k) (hFew : k + fuel ≤ 1024) (hLimit : k ≤ entryLimit bytes)
    (hLoop : s.nackLoop bytes fuel sn h = some (h', sn')) :
    Status h' (min (k + (s.missingFrom fuel sn).length) (entryLimit bytes)) := by
  induction fuel generalizing k sn h with
  | zero => cases hLoop
  | succ fuel ih =>
    rw [nackLoop] at hLoop
    obtain ⟨below, hBelow, hLoop⟩ := Option.bind_eq_some_iff.mp hLoop
    rw [missingFrom, hBelow]
    cases below with
    | false =>
      cases hLoop
      rwa [if_neg (by simp), List.length_nil, Nat.add_zero, Nat.min_eq_left hLimit]
    | true =>
      rw [if_pos rfl] at hLoop ⊢
      rw [hStatus.fits bytes, Option.bind_eq_bind, Option.bind_some] at hLoop
      by_cases hRoom : k < entryLimit bytes
      · rw [if_pos (by simpa using hRoom)] at hLoop
        cases hComplete : s.isComplete sn with
        | true =>
          rw [hComplete, if_pos rfl] at hLoop
          rw [if_pos rfl]
          exact ih hStatus (by omega) hLimit hLoop
        | false =>
          rw [hComplete, if_neg (by simp)] at hLoop
          rw [if_neg (by simp)]
          obtain ⟨g, hPush, hLoop⟩ := Option.bind_eq_some_iff.mp hLoop
          obtain ⟨g', hPush', hNext⟩ := hStatus.push (by omega) sn.getValue
          cases hPush.symm.trans hPush'
          have hRest := ih hNext (by omega) hRoom hLoop
          rwa [Nat.add_assoc, Nat.add_comm 1] at hRest
      · rw [if_neg (by simpa using hRoom)] at hLoop
        cases hLoop
        have hFull : k = entryLimit bytes := by omega
        rw [Nat.min_eq_right (by omega), ← hFull]
        exact hStatus

theorem transmitStatusPdu_size (h : s.transmitStatusPdu n = some (s', out)) :
    ∃ p : AmPdu, out = [.transmitPdu p] ∧
      p.getSize = 2 + entryBytes (min s.missing.length (entryLimit (n % 65536))) := by
  unfold transmitStatusPdu at h
  split at h
  · cases h
  obtain ⟨⟨header, sn⟩, hLoop, h⟩ := Option.bind_eq_some_iff.mp h
  obtain ⟨ackSn, -, h⟩ := Option.bind_eq_some_iff.mp h
  obtain ⟨inWindow, -, h⟩ := Option.bind_eq_some_iff.mp h
  have hStart : Status (AmPdu.newHeader.setControlPdu STATUS_PDU) 0 := ⟨⟨rfl, rfl⟩, rfl, rfl⟩
  have hEnd := nackLoop_spec hStart (by decide) (Nat.zero_le _) hLoop
  rw [Nat.zero_add] at hEnd
  cases inWindow with
  | false => cases h
  | true =>
    cases h
    exact ⟨_, rfl, hEnd.headerLength⟩

/-- One byte too many: the opportunity is a multiple of three, and enough numbers are missing. -/
theorem status_fits_iff (hBytes : 4 ≤ n) (m : ℕ) :
    2 + entryBytes (min m (entryLimit (n % 65536))) ≤ n ↔
      ¬ (n < 65536 ∧ 3 ∣ n ∧ 2 * (n / 3) ≤ m + 1) := by
  unfold entryLimit entryBytes
  rcases Nat.lt_or_ge n 65536 with hShort | hLong
  · rw [Nat.mod_eq_of_lt hShort]
    omega
  · have hMod : n % 65536 < 65536 := Nat.mod_lt n (by decide)
    generalize n % 65536 = b at hMod
    omega

/-! ## Retransmission -/

/-- A header that is read is not longer than the bytes it is read from. -/
theorem length_deserializeLengthIndicators {f f' : LengthFields} {l rest : List UInt8}
    (h : deserializeLengthIndicators f l = some (f', rest)) :
    f'.headerLength + rest.length ≤ f.headerLength + l.length := by
  fun_induction deserializeLengthIndicators f l with
  | case1 f _ _ _ _ g _ _ _ _ _ g' _ ih =>
    have hFirst : g.headerLength ≤ f.headerLength + 2 := Nat.mod_le ..
    have hSecond : g'.headerLength ≤ g.headerLength + 1 := Nat.mod_le ..
    have hRest := ih h
    simp only [List.length_cons]
    omega
  | case2 f _ _ _ _ g _ _ _ _ _ g' =>
    have hFirst : g.headerLength ≤ f.headerLength + 2 := Nat.mod_le ..
    have hSecond : g'.headerLength ≤ g.headerLength + 1 := Nat.mod_le ..
    obtain ⟨hFields, rfl⟩ := Prod.mk.inj (Option.some.inj h)
    rw [← hFields]
    simp only [List.length_cons]
    omega
  | case3 => cases h
  | case4 f _ _ _ _ _ g =>
    have hFirst : g.headerLength ≤ f.headerLength + 2 := Nat.mod_le ..
    obtain ⟨hFields, rfl⟩ := Prod.mk.inj (Option.some.inj h)
    rw [← hFields]
    simp only [List.length_cons]
    omega
  | case5 => cases h

theorem length_deserializeNacks {byte : ℕ} {f f' : NackFields} {l rest : List UInt8}
    (h : deserializeNacks byte f l = some (f', rest)) :
    f'.headerLength + rest.length ≤ f.headerLength + l.length := by
  fun_induction deserializeNacks byte f l with
  | case1 _ f _ _ _ _ _ _ _ g _ ih =>
    have hFields : g.headerLength ≤ f.headerLength + 3 := Nat.mod_le ..
    have hRest := ih h
    simp only [List.length_cons]
    omega
  | case2 _ f _ _ _ _ _ _ _ g =>
    have hLength : g.headerLength ≤ f.headerLength + 3 := Nat.mod_le ..
    obtain ⟨hFields, rfl⟩ := Prod.mk.inj (Option.some.inj h)
    rw [← hFields]
    simp only [List.length_cons]
    omega
  | case3 => cases h
  | case4 _ f =>
    have hLength : (f.headerLength + 1) % 65536 ≤ f.headerLength + 1 := Nat.mod_le ..
    obtain ⟨hFields, rfl⟩ := Prod.mk.inj (Option.some.inj h)
    rw [← hFields]
    simp only [List.length_cons]
    omega
  | case5 => cases h

theorem length_deserializeData {h h' : LteRlcAmHeader} {size : ℕ} {byte_1 : UInt8}
    {l rest : List UInt8} (hRead : h.deserializeData size byte_1 l = some (h', rest)) :
    h'.headerLength + rest.length ≤ h.headerLength + l.length := by
  rcases l with _ | ⟨byte_2, _ | ⟨byte_3, _ | ⟨byte_4, l⟩⟩⟩
  · cases hRead
  · cases hRead
  · cases hRead
  rw [deserializeData] at hRead
  simp only [List.length_cons]
  split at hRead
  · cases hRead
    simp only
    omega
  · obtain ⟨⟨f, l'⟩, hFields, hRead⟩ := Option.map_eq_some_iff.mp hRead
    have hLength := length_deserializeLengthIndicators hFields
    dsimp only at hRead
    split at hRead
    · cases hRead
      simp only at hLength ⊢
      omega
    · cases hRead
      simp only at hLength ⊢
      omega

theorem length_deserializeControl {h h' : LteRlcAmHeader} {byte_1 : UInt8} {l rest : List UInt8}
    (hStart : h.headerLength = 1) (hRead : h.deserializeControl byte_1 l = some (h', rest)) :
    h'.headerLength + rest.length ≤ 1 + l.length := by
  rcases l with _ | ⟨byte_2, l⟩
  · cases hRead
  rw [deserializeControl.eq_def] at hRead
  dsimp only at hRead
  simp only [List.length_cons]
  split at hRead
  · rcases l with _ | ⟨byte_3, _ | ⟨byte_4, l⟩⟩
    · cases hRead
    · cases hRead
    obtain ⟨⟨f, l'⟩, hFields, hRead⟩ := Option.map_eq_some_iff.mp hRead
    cases hRead
    simp only [List.length_cons]
    split at hFields
    · have hLength := length_deserializeNacks hFields
      simp only at hLength
      omega
    · cases hFields
      simp only
      omega
  · cases hRead
    simp only [hStart]
    omega

/-- A header that is read is not longer than the packet it is read from. -/
theorem length_deserialize {h h' : LteRlcAmHeader} {l rest : List UInt8}
    (hRead : h.deserialize l = some (h', rest)) : h'.headerLength ≤ l.length := by
  rcases l with _ | ⟨byte_1, l⟩
  · cases hRead
  rw [deserialize] at hRead
  simp only [List.length_cons]
  split at hRead
  · have hLength := length_deserializeData hRead
    simp only at hLength
    omega
  · have hLength := length_deserializeControl rfl hRead
    omega

theorem size_removeHeader {p : AmPdu} {h : LteRlcAmHeader} {data : List UInt8}
    (hRemove : p.removeHeader = some (h, data)) : h.headerLength + data.length = p.getSize := by
  obtain ⟨g, hPeek, hRemove⟩ := Option.bind_eq_some_iff.mp hRemove
  obtain ⟨b, hBytes, hRemove⟩ := Option.bind_eq_some_iff.mp hRemove
  cases hRemove
  obtain ⟨⟨g, rest⟩, hRead, hGet⟩ := Option.map_eq_some_iff.mp hPeek
  cases hGet
  rw [hBytes, Option.bind_some] at hRead
  have hLength := length_deserialize hRead
  have hSize : b.length = p.getSize := by
    obtain ⟨w, -, hWritten⟩ := Option.bind_eq_some_iff.mp hBytes
    split at hWritten
    case isTrue hEq =>
      cases hWritten
      rw [List.length_append, hEq, AmPdu.getSize]
    case isFalse => cases hWritten
  rw [List.length_drop, ← hSize]
  exact Nat.add_sub_of_le hLength

/-- The PDU that is retransmitted is as long as the one that is stored. -/
theorem retransmit_size (h : s.retransmit n = some (s', out)) :
    ∃ sn p, s.firstRetx 1024 s.vtA = some (sn, p) ∧
      ((∃ q : AmPdu, out = [.transmitPdu q] ∧ q.getSize = p.getSize ∧
          (p.getSize ≤ n ∨ s.txOpportunityForRetxAlwaysBigEnough)) ∨
        (out = [] ∧ n < p.getSize ∧ s.txOpportunityForRetxAlwaysBigEnough = false)) := by
  obtain ⟨pending, -, h⟩ := Option.bind_eq_some_iff.mp h
  cases pending with
  | false => cases h
  | true =>
    rw [if_pos rfl] at h
    obtain ⟨⟨sn, p⟩, hFirst, h⟩ := Option.bind_eq_some_iff.mp h
    refine ⟨sn, p, hFirst, ?_⟩
    dsimp only at h
    split at h
    case isTrue hFits =>
      obtain ⟨⟨header, data⟩, hRemove, h⟩ := Option.bind_eq_some_iff.mp h
      obtain ⟨polled, -, h⟩ := Option.bind_eq_some_iff.mp h
      have hSize := size_removeHeader hRemove
      left
      cases polled with
      | true =>
        cases h
        exact ⟨_, rfl, hSize, hFits⟩
      | false =>
        cases h
        exact ⟨_, rfl, hSize, hFits⟩
    case isFalse hFits =>
      cases h
      simp only [not_or, Nat.not_le, Bool.not_eq_true] at hFits
      exact Or.inr ⟨rfl, hFits⟩

/-! ## New data PDUs -/

/-- The bytes taken and left while a data field is filled: the fixed part, the length indicators
announced so far, the segments and the room for the next one add up to the opportunity. -/
structure Filling (n : ℕ) (header : LteRlcAmHeader) (dataField : List Sdu)
    (nextSegmentSize nextSegmentId : ℕ) : Prop where
  counted : Counted 4 header.extensionBits header.headerLength
  bits : header.extensionBits.length + 1 = nextSegmentId
  room : 4 + entryBytes (nextSegmentId - 1) + (dataField.flatMap Sdu.bytes).length +
    nextSegmentSize = n

/-- The fixed part, the length indicators and the data field keep to the opportunity. -/
structure Assembly.Fits (a : Assembly) (n : ℕ) : Prop where
  counted : Counted 4 a.header.extensionBits a.header.headerLength
  room : 4 + entryBytes (a.header.extensionBits.length - 1) +
    (a.dataField.flatMap Sdu.bytes).length ≤ n

theorem Assembly.Fits.size {a : Assembly} (h : a.Fits n) :
    a.header.headerLength + (a.dataField.flatMap Sdu.bytes).length ≤ n := by
  have hLength : a.header.headerLength ≤ 4 + entryBytes (a.header.extensionBits.length - 1) := by
    rw [h.counted]
    exact Nat.mod_le ..
  have hRoom := h.room
  omega

variable {header : LteRlcAmHeader} {dataField : List Sdu} {next id : ℕ} {first : Sdu}

theorem Filling.leave (hFill : Filling n header dataField next id) (txon : List Sdu)
    (size : UInt32) : Assembly.Fits ⟨header, dataField, txon, size⟩ n := by
  have hBits := hFill.bits
  have hRoom := hFill.room
  refine ⟨hFill.counted, ?_⟩
  unfold entryBytes at hRoom ⊢
  simp only
  omega

theorem Filling.close (hFill : Filling n header dataField next id) (txon : List Sdu)
    (size : UInt32) (hFirst : first.getSize ≤ next) :
    ((⟨header, dataField, txon, size⟩ : Assembly).close first).Fits n := by
  have hBits := hFill.bits
  have hRoom := hFill.room
  unfold Assembly.close
  rw [pushExtensionBit_spec DATA_FIELD_FOLLOWS hFill.counted]
  constructor
  · simp [Counted]
  · simp only [List.flatMap_append, List.length_append, List.flatMap_singleton,
      List.length_singleton]
    unfold Sdu.getSize at hFirst
    unfold entryBytes at hRoom ⊢
    omega

theorem Filling.cut (hFill : Filling n header dataField next id) (txon : List Sdu)
    (size : UInt32) :
    ((⟨header, dataField, txon, size⟩ : Assembly).cut first next).Fits n := by
  have hTaken : ∀ tag, Sdu.getSize ⟨first.bytes.take (min first.getSize next), tag⟩ ≤ next := by
    intro tag
    rw [Sdu.getSize, List.length_take]
    omega
  unfold Assembly.cut
  dsimp only
  split
  · exact hFill.close _ _ (hTaken _)
  · exact hFill.close _ _ (hTaken _)

theorem Filling.push (hFill : Filling n header dataField next id) (hFirst : first.getSize ≤ next)
    (hRoom : 2 < next - first.getSize) :
    Filling n ((header.pushExtensionBit E_LI_FIELDS_FOLLOWS).pushLengthIndicator first.getSize)
      (dataField ++ [first]) (next - ((if id % 2 = 1 then 2 else 1) + first.getSize)) (id + 1) := by
  have hBits : header.extensionBits.length = id - 1 := Nat.eq_sub_of_add_eq hFill.bits
  have hId := hFill.bits
  have hSum := hFill.room
  rw [pushExtensionBit_spec E_LI_FIELDS_FOLLOWS hFill.counted]
  constructor
  · simp [Counted, pushLengthIndicator]
  · simp only [pushLengthIndicator, List.length_append, List.length_singleton]
    omega
  · simp only [List.flatMap_append, List.length_append, List.flatMap_singleton]
    unfold Sdu.getSize at *
    unfold entryBytes at *
    split <;> omega

theorem assemble_fits (txon : List Sdu) (size : UInt32)
    (hFill : Filling n header dataField next id) :
    (assemble header dataField next id first size txon).Fits n := by
  induction txon generalizing header dataField next id first size with
  | nil =>
    unfold assemble
    dsimp only
    split
    · split
      · exact hFill.cut _ _
      · exact hFill.close _ _ (by omega)
    · exact hFill.leave _ _
  | cons sdu txon ih =>
    unfold assemble
    dsimp only
    split
    · split
      · exact hFill.cut _ _
      · split
        · exact hFill.close _ _ (by omega)
        · exact ih _ (hFill.push (by omega) (by omega))
    · exact hFill.leave _ _

theorem filling_start (hBytes : 4 ≤ n) : Filling n AmPdu.newHeader.setDataPdu [] (n - 4) 1 := by
  constructor
  · exact Eq.symm (Nat.mod_eq_of_lt (by decide : 4 + entryBytes 0 < 65536))
  · rfl
  · change 4 + entryBytes 0 + 0 + (n - 4) = n
    unfold entryBytes
    omega

theorem dataPdu_size (a : Assembly) (sn : SequenceNumber10) (first last : SduStatus)
    (polled : Bool) : (dataPdu a sn first last polled).getSize =
      a.header.headerLength + (a.dataField.flatMap Sdu.bytes).length := by
  cases polled with
  | true => rfl
  | false => rfl

/-- What the last step of a new PDU does. -/
theorem finish_eq_some {a : Assembly} (h : s.finish a = some (s', out)) :
    ∃ first last polled, a.dataField.head? = some first ∧ a.dataField.getLast? = some last ∧
      s.vtS.lt s.vtMs = some true ∧ s.vtS.ge s.vtA = some true ∧
      out = [.transmitPdu (dataPdu a s.vtS first.status last.status polled)] ∧
      s' = (if polled then (s.take a).poll else s.take a).storeTxed s.vtS.value
        (dataPdu a s.vtS first.status last.status polled) := by
  obtain ⟨below, hBelow, h⟩ := Option.bind_eq_some_iff.mp h
  obtain ⟨above, hAbove, h⟩ := Option.bind_eq_some_iff.mp h
  split at h
  case isTrue hWindow =>
    rw [Bool.and_eq_true] at hWindow
    obtain ⟨first, hFirst, h⟩ := Option.bind_eq_some_iff.mp h
    obtain ⟨last, hLast, h⟩ := Option.bind_eq_some_iff.mp h
    obtain ⟨polled, -, h⟩ := Option.bind_eq_some_iff.mp h
    cases h
    exact ⟨first, last, polled, hFirst, hLast, hWindow.1 ▸ hBelow, hWindow.2 ▸ hAbove, rfl, rfl⟩
  case isFalse => cases h

theorem transmitNewPdu_size (hBytes : 4 ≤ n) (h : s.transmitNewPdu n = some (s', out)) :
    ∀ p, Output.transmitPdu p ∈ out → p.getSize ≤ n := by
  unfold transmitNewPdu at h
  split at h
  · cases h
    simp
  case h_2 first txon _ =>
    obtain ⟨first, last, polled, -, -, -, -, rfl, -⟩ := finish_eq_some h
    intro p hMem
    cases List.mem_singleton.mp hMem
    rw [dataPdu_size]
    exact (assemble_fits txon _ (filling_start hBytes)).size

/-- The opportunities that the entity exceeds: a STATUS PDU with an entry too many, or a
retransmission that is not compared with its opportunity. -/
def Oversized (s : LteRlcAm) (n : ℕ) : Prop :=
  if s.statusPduRequested && !s.statusProhibitTimer then
    n < 65536 ∧ 3 ∣ n ∧ 2 * (n / 3) ≤ s.missing.length + 1
  else
    0 < s.retxBufferSize ∧ s.txOpportunityForRetxAlwaysBigEnough ∧
      ∃ sn p, s.firstRetx 1024 s.vtA = some (sn, p) ∧ n < p.getSize

/-- An entity that accepts an opportunity keeps to it but for these cases. -/
theorem opportunity_kept_iff (h : s.doNotifyTxOpportunity n = some (s', out)) :
    (∀ p, Output.transmitPdu p ∈ out → p.getSize ≤ n) ↔ ¬ s.Oversized n := by
  unfold doNotifyTxOpportunity at h
  unfold Oversized
  split at h
  · cases h
  case isFalse hBytes =>
  have hBytes : 4 ≤ n := Nat.not_lt.mp hBytes
  split at h
  case isTrue hStatus =>
    obtain ⟨p, rfl, hSize⟩ := transmitStatusPdu_size h
    rw [if_pos hStatus, ← status_fits_iff hBytes, ← hSize]
    simp
  case isFalse hStatus =>
  rw [if_neg hStatus]
  split at h
  case isTrue hRetx =>
    obtain ⟨sn, p, hFirst, ⟨q, rfl, hSize, hFits⟩ | ⟨rfl, hLarge, hCompared⟩⟩ := retransmit_size h
    · simp only [List.mem_singleton, Output.transmitPdu.injEq, forall_eq, hSize, hFirst,
        Option.some.injEq, Prod.mk.injEq]
      constructor
      · rintro hLe ⟨-, -, _, _, ⟨rfl, rfl⟩, hLt⟩
        omega
      · intro hNot
        rcases hFits with hLe | hUnchecked
        · exact hLe
        · by_contra hLt
          exact hNot ⟨hRetx, hUnchecked, sn, p, ⟨rfl, rfl⟩, Nat.not_le.mp hLt⟩
    · simp [hCompared]
  case isFalse hRetx =>
  have hNot : ¬ (0 < s.retxBufferSize ∧ s.txOpportunityForRetxAlwaysBigEnough = true ∧
      ∃ sn p, s.firstRetx 1024 s.vtA = some (sn, p) ∧ n < p.getSize) := fun hOver => hRetx hOver.1
  refine iff_of_true ?_ hNot
  split at h
  · split at h
    · cases h
    · obtain ⟨inWindow, -, h⟩ := Option.bind_eq_some_iff.mp h
      split at h
      · split at h
        · cases h
          simp
        · exact transmitNewPdu_size hBytes h
      · cases h
  · cases h
    simp

/-- A STATUS PDU is due, and none of the first numbers has been received. -/
def statusDue (missing : ℕ) : LteRlcAm :=
  { maxTxBufferSize := 0
    txOpportunityForRetxAlwaysBigEnough := false
    statusPduRequested := true
    vrMs := SequenceNumber10.mk' missing }

theorem opportunity_kept_seven : ∃ s' out,
    (statusDue 5).doNotifyTxOpportunity 7 = some (s', out) ∧
      ∀ p, Output.transmitPdu p ∈ out → p.getSize ≤ 7 := by
  have hSome : ((statusDue 5).doNotifyTxOpportunity 7).isSome := rfl
  obtain ⟨⟨s', out⟩, hRun⟩ := Option.isSome_iff_exists.mp hSome
  refine ⟨s', out, hRun, (opportunity_kept_iff hRun).mpr ?_⟩
  rintro ⟨-, hThree, -⟩
  exact absurd hThree (by decide)

/-- Three missing numbers in an opportunity of six bytes: the STATUS PDU takes seven. -/
theorem status_of_six_exceeded : ∃ s' p,
    (statusDue 3).doNotifyTxOpportunity 6 = some (s', [.transmitPdu p]) ∧ p.getSize = 7 :=
  ⟨_, _, rfl, rfl⟩

end Bullet.Rlc.LteRlcAm
