import Bullet.Rlc.Am
import Bullet.Rlc.AmRoundTrip

/-! # What a new data PDU is made of

The SDUs that wait are whole, or the end of one that was cut. A data field takes some of them whole
and the beginning of one more, which may be all of it; the rest is given back.
-/

namespace Bullet.Rlc

open LteRlcAmHeader

namespace Sdu

/-- An SDU in the transmission buffer: not empty, and with nothing left behind it. -/
structure Waiting (p : Sdu) : Prop where
  pos : 0 < p.getSize
  status : p.status = .FULL_SDU ∨ p.status = .LAST_SEGMENT

/-- The first `k` bytes, with the status of a segment if they are not all. -/
def head (p : Sdu) (k : ℕ) : Sdu :=
  if k < p.getSize then
    ⟨p.bytes.take k, if p.status = .FULL_SDU then .FIRST_SEGMENT else .MIDDLE_SEGMENT⟩
  else p

/-- What is given back when the first `k` bytes are taken. -/
def rest (p : Sdu) (k : ℕ) : List Sdu :=
  if k < p.getSize then [⟨p.bytes.drop k, .LAST_SEGMENT⟩] else []

theorem rest_waiting {p : Sdu} {k : ℕ} : ∀ q ∈ p.rest k, q.Waiting := by
  unfold rest
  intro q hMem
  split at hMem
  case isTrue hShort =>
    cases List.mem_singleton.mp hMem
    refine ⟨?_, Or.inr rfl⟩
    change 0 < (p.bytes.drop k).length
    rw [List.length_drop]
    exact Nat.sub_pos_of_lt hShort
  case isFalse => cases hMem

end Sdu

/-- The counter of the transmission buffer. -/
def bufferSize (l : List Sdu) : UInt32 := UInt32.ofNat (l.map Sdu.getSize).sum

@[simp] theorem bufferSize_cons (p : Sdu) (l : List Sdu) :
    bufferSize (p :: l) = UInt32.ofNat p.getSize + bufferSize l := by
  rw [bufferSize, List.map_cons, List.sum_cons, UInt32.ofNat_add]
  rfl

theorem bufferSize_append (l m : List Sdu) : bufferSize (l ++ m) = bufferSize l + bufferSize m := by
  rw [bufferSize, List.map_append, List.sum_append, UInt32.ofNat_add]
  rfl

namespace LteRlcAm

/-- The assembly of a data field from the SDUs `sdus`: `full` are taken whole, and `k` bytes of
the one after them. -/
structure AssembledFrom (header : LteRlcAmHeader) (dataField sdus full : List Sdu) (sdu : Sdu)
    (k : ℕ) (remaining : List Sdu) (a : Assembly) : Prop where
  sdus : sdus = full ++ sdu :: remaining
  pos : 0 < k
  le : k ≤ sdu.getSize
  short : ∀ p ∈ full, p.getSize ≤ 2047
  header : a.header = header.pushEntries (full.map Sdu.getSize)
  dataField : a.dataField = dataField ++ full ++ [sdu.head k]
  txonBuffer : a.txonBuffer = sdu.rest k ++ remaining
  txonBufferSize : a.txonBufferSize = bufferSize a.txonBuffer

variable {header : LteRlcAmHeader} {dataField txon : List Sdu} {first : Sdu} {next id : ℕ}

theorem cut_eq (hWaiting : first.Waiting) (size : UInt32) :
    (⟨header, dataField, txon, size⟩ : Assembly).cut first next =
      ⟨header.pushExtensionBit DATA_FIELD_FOLLOWS,
        dataField ++ [first.head (min first.getSize next)],
        first.rest (min first.getSize next) ++ txon,
        size + bufferSize (first.rest (min first.getSize next))⟩ := by
  have hLength : (first.bytes.drop (min first.getSize next)).length =
      first.getSize - min first.getSize next := List.length_drop ..
  unfold Assembly.cut Sdu.head Sdu.rest
  dsimp only
  by_cases hShort : min first.getSize next < first.getSize
  · rw [if_pos (by omega), if_pos hShort, if_pos hShort]
    rcases hWaiting.status with hFull | hLast
    · simp [Assembly.close, hFull, bufferSize, Sdu.getSize]
    · simp [Assembly.close, hLast, bufferSize, Sdu.getSize]
  · have hAll : first.bytes.take (min first.getSize next) = first.bytes :=
      List.take_of_length_le (Nat.not_lt.mp hShort)
    rw [if_neg (by omega), if_neg hShort, if_neg hShort, hAll]
    obtain ⟨bytes, status⟩ := first
    rcases hWaiting.status with rfl | rfl
    · simp [Assembly.close, bufferSize]
    · simp [Assembly.close, bufferSize]

theorem AssembledFrom.ofCut (hWaiting : first.Waiting) (hNext : 0 < next) :
    AssembledFrom header dataField (first :: txon) [] first (min first.getSize next) txon
      ((⟨header, dataField, txon, bufferSize txon⟩ : Assembly).cut first next) := by
  rw [cut_eq hWaiting]
  constructor
  · rfl
  · exact Nat.lt_min.mpr ⟨hWaiting.pos, hNext⟩
  · exact Nat.min_le_left ..
  · simp
  · rfl
  · simp
  · rfl
  · rw [bufferSize_append]
    exact UInt32.add_comm ..

theorem AssembledFrom.ofClose (hWaiting : first.Waiting) :
    AssembledFrom header dataField (first :: txon) [] first first.getSize txon
      ((⟨header, dataField, txon, bufferSize txon⟩ : Assembly).close first) := by
  have hHead : first.head first.getSize = first := if_neg (Nat.lt_irrefl _)
  have hRest : first.rest first.getSize = [] := if_neg (Nat.lt_irrefl _)
  constructor
  · rfl
  · exact hWaiting.pos
  · exact Nat.le_refl _
  · simp
  · rfl
  · rw [hHead, List.append_nil]
    rfl
  · rw [hRest]
    rfl
  · rfl

theorem AssembledFrom.push {full remaining : List Sdu} {sdu : Sdu} {k : ℕ} {a : Assembly}
    (hShort : first.getSize ≤ 2047)
    (h : AssembledFrom ((header.pushExtensionBit E_LI_FIELDS_FOLLOWS).pushLengthIndicator
      first.getSize) (dataField ++ [first]) txon full sdu k remaining a) :
    AssembledFrom header dataField (first :: txon) (first :: full) sdu k remaining a where
  sdus := by rw [h.sdus, List.cons_append]
  pos := h.pos
  le := h.le
  short := List.forall_mem_cons.mpr ⟨hShort, h.short⟩
  header := h.header
  dataField := by rw [h.dataField, List.append_assoc dataField, List.singleton_append]
  txonBuffer := h.txonBuffer
  txonBufferSize := h.txonBufferSize

theorem assemble_spec (hWaiting : ∀ p ∈ first :: txon, p.Waiting) (hNext : 0 < next) :
    ∃ full sdu k remaining, AssembledFrom header dataField (first :: txon) full sdu k remaining
      (assemble header dataField next id first (bufferSize txon) txon) := by
  induction txon generalizing header dataField next id first with
  | nil =>
    have hFirst := hWaiting first List.mem_cons_self
    unfold assemble
    dsimp only
    rw [if_pos ⟨hFirst.pos, hNext⟩]
    split
    · exact ⟨_, _, _, _, .ofCut hFirst hNext⟩
    · exact ⟨_, _, _, _, .ofClose hFirst⟩
  | cons sdu txon ih =>
    have hFirst := hWaiting first List.mem_cons_self
    unfold assemble
    dsimp only
    rw [if_pos ⟨hFirst.pos, hNext⟩]
    split
    case isTrue => exact ⟨_, _, _, _, .ofCut hFirst hNext⟩
    case isFalse hFits =>
      split
      case isTrue => exact ⟨_, _, _, _, .ofClose hFirst⟩
      case isFalse hRoom =>
        have hSize : bufferSize (sdu :: txon) - UInt32.ofNat sdu.getSize = bufferSize txon := by
          rw [bufferSize_cons, UInt32.add_comm, UInt32.add_sub_cancel]
        have hLeft : 0 < next - ((if id % 2 = 1 then 2 else 1) + first.getSize) := by
          split <;> omega
        rw [hSize]
        obtain ⟨full, last, k, remaining, hRest⟩ :=
          ih (fun p hMem => hWaiting p (List.mem_cons_of_mem _ hMem)) hLeft
        exact ⟨_, _, _, _, hRest.push (by omega)⟩

end LteRlcAm

end Bullet.Rlc
