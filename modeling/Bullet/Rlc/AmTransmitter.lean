import Bullet.Rlc.AmPackets
import Bullet.Rlc.AmReceiver

/-! # What keeps the transmitting side together

The counters, the window and the buffers of transmitted PDUs agree. An opportunity retransmits a PDU
that is held, or sends a new one made of the SDUs that wait; both keep the agreement.
-/

namespace Bullet.Rlc.LteRlcAm

open SequenceNumber10 LteRlcAmHeader Lib.SizedTable

/-- The transmitting side, with the numbers acknowledged since they were last sent and what is
known of the PDUs that are held. -/
structure Transmitter (s : LteRlcAm) (acked : Fin 1024 → Prop) (kind : AmPdu → Prop) : Prop where
  waiting : ∀ p ∈ s.txonBuffer, p.Waiting
  txon : s.txonBufferSize = bufferSize s.txonBuffer
  window : Window s
  buffers : Buffers s (Due s acked) kind

variable {s s' : LteRlcAm} {acked : Fin 1024 → Prop} {kind : AmPdu → Prop} {n : ℕ}
  {out : List Output}

/-- Nothing that waits and nothing of the window changes. -/
theorem Transmitter.of_buffers (h : Transmitter s acked kind) (hSame : SameWindow s s')
    (hBuffers : Buffers s' (Due s acked) kind) : Transmitter s' acked kind := by
  have hTxon : s'.txonBuffer = s.txonBuffer := (congrArg txonBuffer hSame.same :)
  have hSize : s'.txonBufferSize = s.txonBufferSize := (congrArg txonBufferSize hSame.same :)
  constructor
  · exact hTxon ▸ h.waiting
  · rw [hTxon, hSize]
    exact h.txon
  · exact hSame.window h.window
  · exact hSame.due hBuffers

/-- The other side does not matter. -/
theorem Transmitter.of_same (h : Transmitter s acked kind)
    (hSame : s'.transmitter = s.transmitter) : Transmitter s' acked kind := by
  have hOwn : Transmitter s.transmitter acked kind :=
    ⟨h.waiting, h.txon, ⟨h.window.baseA, h.window.baseS, h.window.baseMs, h.window.top,
      h.window.ahead⟩, ⟨h.buffers.txed, h.buffers.retx, h.buffers.held, h.buffers.free,
      h.buffers.ofKind⟩⟩
  rw [← hSame] at hOwn
  exact ⟨hOwn.waiting, hOwn.txon, ⟨hOwn.window.baseA, hOwn.window.baseS, hOwn.window.baseMs,
    hOwn.window.top, hOwn.window.ahead⟩, ⟨hOwn.buffers.txed, hOwn.buffers.retx,
    hOwn.buffers.held, hOwn.buffers.free, hOwn.buffers.ofKind⟩⟩

/-- The receiving side. -/
def receiverSide (s : LteRlcAm) : LteRlcAm :=
  { s.untransmitted with txonBuffer := [], txonBufferSize := 0 }

theorem SameWindow.receiverSide_eq (hSame : SameWindow s s') :
    s'.receiverSide = s.receiverSide :=
  congrArg (fun t : LteRlcAm => { t with txonBuffer := [], txonBufferSize := 0 }) hSame.same

theorem Receiver.of_same (h : Receiver s) (hSame : s'.receiverSide = s.receiverSide) :
    Receiver s' := by
  have hOwn : Receiver s.receiverSide :=
    ⟨h.baseR, h.baseX, h.baseMs, h.baseH, h.statusPdu⟩
  rw [← hSame] at hOwn
  exact ⟨hOwn.baseR, hOwn.baseX, hOwn.baseMs, hOwn.baseH, hOwn.statusPdu⟩

/-! ## Retransmission -/

/-- The loop finds the first PDU to retransmit. -/
theorem firstRetx_spec {fuel : ℕ} {sn : SequenceNumber10} {v : Fin 1024} {p : AmPdu}
    (hWindow : Window s) (hSn : sn.modulusBase = s.vtA.value) (hHeld : s.retxBuffer v = some p)
    (hFrom : offset s.vtA.value sn.value ≤ offset s.vtA.value v) (hIn : s.InWindow v)
    (hFuel : offset s.vtA.value v - offset s.vtA.value sn.value < fuel) :
    ∃ sn' q, s.firstRetx fuel sn = some (sn', q) ∧ s.retxBuffer sn'.value = some q := by
  induction fuel generalizing sn with
  | zero => omega
  | succ fuel ih =>
    have hBelow : offset s.vtA.value sn.value < offset s.vtA.value s.vtS.value :=
      Nat.lt_of_le_of_lt hFrom hIn
    rw [firstRetx, lt_true hSn hWindow.baseS hBelow, Option.bind_eq_bind, Option.bind_some,
      if_pos rfl]
    cases hEntry : s.retxBuffer sn.value with
    | some q => exact ⟨sn, q, rfl, hEntry⟩
    | none =>
      have hNe : sn.value ≠ v := by
        rintro rfl
        rw [hEntry] at hHeld
        cases hHeld
      have hLt : offset s.vtA.value sn.value < offset s.vtA.value v :=
        Nat.lt_of_le_of_ne hFrom fun hEq => hNe (offset_inj.mp hEq)
      have hBound := offset_lt s.vtA.value v
      have hNext : offset s.vtA.value sn.increment.value = offset s.vtA.value sn.value + 1 :=
        offset_add_one (by omega)
      have hBase : sn.increment.modulusBase = s.vtA.value := hSn
      exact ih hBase (by omega) (by omega)

theorem isPollDue_isSome {b : Fin 1024} (hS : s.vtS.modulusBase = b)
    (hMs : s.vtMs.modulusBase = b) (due : Bool) : ∃ polled, s.isPollDue due = some polled := by
  unfold isPollDue
  split
  · exact ⟨true, rfl⟩
  · rw [ge_eq hS hMs]
    exact ⟨_, rfl⟩

theorem sameWindow_poll : SameWindow s s.poll := ⟨rfl, rfl, rfl, rfl⟩

theorem sameWindow_moveToTxed (v : Fin 1024) (p : AmPdu) : SameWindow s (s.moveToTxed v p) :=
  ⟨rfl, rfl, rfl, rfl⟩

theorem SameWindow.trans {s'' : LteRlcAm} (h : SameWindow s s') (h' : SameWindow s' s'') :
    SameWindow s s'' :=
  ⟨h'.vtA.trans h.vtA, h'.vtS.trans h.vtS, h'.vtMs.trans h.vtMs, h'.same.trans h.same⟩

/-- What a retransmission sends: nothing, or a PDU that is held with a polling bit of its own. -/
def Resends (kind : AmPdu → Prop) (out : List Output) : Prop :=
  out = [] ∨ ∃ p g b, kind p ∧ p.removeHeader = some (g, p.data) ∧
    out = [.transmitPdu ⟨g.setPollingBit b, p.data⟩]

theorem retransmit_spec (h : Transmitter s acked kind)
    (hReadable : ∀ p, kind p → ∃ d, p.Carries d) (hRetx : 0 < s.retxBufferSize) :
    ∃ s' out, s.retransmit n = some (s', out) ∧ Transmitter s' acked kind ∧ SameWindow s s' ∧
      Resends kind out := by
  have hPos : total AmPdu.getSize s.retxBuffer ≠ 0 := by
    intro hZero
    have hCounts := h.buffers.retx
    rw [Counts, hZero] at hCounts
    rw [hCounts] at hRetx
    exact absurd hRetx (by decide)
  obtain ⟨v, p, hHeld⟩ := exists_of_total_pos _ _ hPos
  have hIn := (h.buffers.due_of_retx hHeld).1.1
  have hFrom : offset s.vtA.value s.vtA.value = 0 := offset_self _
  have hBound := offset_lt s.vtA.value v
  obtain ⟨sn, q, hFirst, hEntry⟩ := firstRetx_spec h.window h.window.baseA hHeld
    (by omega) hIn (by omega : _ < 1024)
  have hKind := h.buffers.ofKind _ _ (Or.inr hEntry)
  obtain ⟨d, hCarries⟩ := hReadable q hKind
  obtain ⟨g, -, hRemove, -, -⟩ := hCarries.removeHeader
  have hPending : s.vtA.lt s.vtS = some true :=
    lt_true h.window.baseA h.window.baseS (hFrom ▸ Nat.zero_lt_of_lt hIn)
  obtain ⟨polled, hPoll⟩ := isPollDue_isSome h.window.baseS h.window.baseMs
    (s.txonBuffer.isEmpty &&
    s.retxBufferSize = UInt32.ofNat (q.data.length + g.getSerializedSize))
  have hPoll' : s.isPollDue (s.txonBuffer.isEmpty && s.retxBufferSize = UInt32.ofNat
      (q.data.length + (g.setPollingBit STATUS_REPORT_NOT_REQUESTED).getSerializedSize)) =
      some polled := hPoll
  have hMoved := h.buffers.moveToTxed hEntry
  have hSame := sameWindow_moveToTxed (s := s) sn.value q
  rw [retransmit, hPending, Option.bind_eq_bind, Option.bind_some, if_pos rfl, hFirst,
    Option.bind_eq_bind, Option.bind_some]
  dsimp only
  split
  case isTrue =>
    rw [hRemove, Option.bind_eq_bind, Option.bind_some]
    dsimp only
    rw [hPoll', Option.bind_some]
    cases polled with
    | true =>
      refine ⟨_, _, rfl, ?_, sameWindow_poll.trans (sameWindow_moveToTxed _ _),
        Or.inr ⟨q, g, _, hKind, hRemove, rfl⟩⟩
      exact h.of_buffers (sameWindow_poll.trans (sameWindow_moveToTxed _ _))
        ⟨hMoved.txed, hMoved.retx, hMoved.held, hMoved.free, hMoved.ofKind⟩
    | false =>
      exact ⟨_, _, rfl, h.of_buffers hSame hMoved, hSame, Or.inr ⟨q, g, _, hKind, hRemove, rfl⟩⟩
  case isFalse => exact ⟨s, [], rfl, h, ⟨rfl, rfl, rfl, rfl⟩, Or.inl rfl⟩

/-! ## New data PDUs -/

/-- A new PDU, made of SDUs at the front of the transmission buffer. -/
structure SendsNew (s s' : LteRlcAm) (p : AmPdu) (full : List Sdu) (sdu : Sdu) (k : ℕ)
    (remaining : List Sdu) : Prop where
  sdus : s.txonBuffer = full ++ sdu :: remaining
  pos : 0 < k
  le : k ≤ sdu.getSize
  left : s'.txonBuffer = sdu.rest k ++ remaining
  vtA : s'.vtA = s.vtA
  vtS : s'.vtS = s.vtS.increment
  data : p.data = (full ++ [sdu.head k]).flatMap Sdu.bytes
  carries : ∃ first polled, (full ++ [sdu.head k]).head? = some first ∧
    p.Carries (newFields s.vtS full first.status (sdu.head k).status polled)

/-- The state when a new PDU has been put together and stored. -/
def stored (s : LteRlcAm) (a : Assembly) (p : AmPdu) (polled : Bool) : LteRlcAm :=
  (if polled then (s.take a).poll else s.take a).storeTxed s.vtS.value p

theorem finish_spec {a : Assembly} {first last : Sdu} (hWindow : Window s)
    (hNotFull : s.vtS.value ≠ s.vtMs.value) (hFirst : a.dataField.head? = some first)
    (hLast : a.dataField.getLast? = some last) :
    ∃ polled, s.finish a = some
      (s.stored a (dataPdu a s.vtS first.status last.status polled) polled,
        [.transmitPdu (dataPdu a s.vtS first.status last.status polled)]) := by
  have hAhead := hWindow.ahead
  have hNe : offset s.vtA.value s.vtS.value ≠ offset s.vtA.value s.vtMs.value := fun hEq =>
    hNotFull (offset_inj.mp hEq)
  have hBelow : s.vtS.lt s.vtMs = some true :=
    lt_true hWindow.baseS hWindow.baseMs (Nat.lt_of_le_of_ne hAhead hNe)
  have hAbove : s.vtS.ge s.vtA = some true := by
    rw [ge_eq hWindow.baseS hWindow.baseA, offset_self, decide_eq_true (Nat.zero_le _)]
  obtain ⟨polled, hPoll⟩ := isPollDue_isSome (s := s.take a) hWindow.baseS hWindow.baseMs
    (decide (POLL_PDU ≤ (s.take a).pduWithoutPoll) ||
      decide (POLL_BYTE ≤ (s.take a).byteWithoutPoll) ||
      ((s.take a).txonBuffer.isEmpty && (s.take a).retxBufferSize = 0))
  refine ⟨polled, ?_⟩
  have hBelow' : s.vtS.lt (s.take a).vtMs = some true := hBelow
  have hAbove' : s.vtS.ge (s.take a).vtA = some true := hAbove
  rw [finish]
  dsimp only
  rw [hBelow', hAbove', hFirst, hLast]
  simp only [Option.bind_eq_bind, Option.bind_some, Bool.and_self, if_true]
  rw [hPoll]
  rfl

theorem sameWindow_stored (a : Assembly) (p : AmPdu) (polled : Bool) :
    SameWindow (s.take a) (s.stored a p polled) := by
  cases polled with
  | true => exact ⟨rfl, rfl, rfl, rfl⟩
  | false => exact ⟨rfl, rfl, rfl, rfl⟩

/-- VT(S) moves on by one. -/
theorem Window.take {a : Assembly} (hWindow : Window s) (hNotFull : s.vtS.value ≠ s.vtMs.value) :
    Window (s.take a) := by
  have hAhead := hWindow.ahead
  have hTop := hWindow.offset_vtMs
  have hNe : offset s.vtA.value s.vtS.value ≠ offset s.vtA.value s.vtMs.value := fun hEq =>
    hNotFull (offset_inj.mp hEq)
  have hNext := offset_add_one (a := s.vtA.value) (v := s.vtS.value) (by omega)
  refine ⟨hWindow.baseA, hWindow.baseS, hWindow.baseMs, hWindow.top, ?_⟩
  change offset s.vtA.value (s.vtS.value + 1) ≤ offset s.vtA.value s.vtMs.value
  omega

/-- The new number is due, and the others as before. -/
theorem due_take {a : Assembly} (hWindow : Window s) (u : Fin 1024) :
    Due s acked u ∨ u = s.vtS.value ↔
      Due (s.take a) (fun v => acked v ∧ v ≠ s.vtS.value) u := by
  have hAhead := hWindow.ahead_le
  have hNext := offset_add_one (a := s.vtA.value) (v := s.vtS.value) (by omega)
  have hIn : (s.take a).InWindow u ↔ s.InWindow u ∨ u = s.vtS.value := by
    change offset s.vtA.value u < offset s.vtA.value (s.vtS.value + 1) ↔ _
    rw [hNext, ← offset_inj (a := s.vtA.value)]
    exact Nat.lt_succ_iff_lt_or_eq
  rw [Due, Due, hIn]
  by_cases hEq : u = s.vtS.value
  · simp [hEq]
  · simp [hEq]

theorem Transmitter.stored {a : Assembly} {p : AmPdu} {polled : Bool}
    (h : Transmitter s acked kind) (hNotFull : s.vtS.value ≠ s.vtMs.value)
    (hWaiting : ∀ q ∈ a.txonBuffer, q.Waiting)
    (hTxon : a.txonBufferSize = bufferSize a.txonBuffer) :
    Transmitter (s.stored a p polled) (fun v => acked v ∧ v ≠ s.vtS.value)
      (fun q => kind q ∨ q = p) := by
  have hSame := sameWindow_stored (s := s) a p polled
  have hTaken : Buffers (if polled then (s.take a).poll else s.take a) (Due s acked)
      (fun q => kind q ∨ q = p) := by
    have hKinds := h.buffers.mono fun q hKind => (Or.inl hKind : kind q ∨ q = p)
    cases polled with
    | true => exact ⟨hKinds.txed, hKinds.retx, hKinds.held, hKinds.free, hKinds.ofKind⟩
    | false => exact ⟨hKinds.txed, hKinds.retx, hKinds.held, hKinds.free, hKinds.ofKind⟩
  have hNew : ¬ Due s acked s.vtS.value := fun hDue => Nat.lt_irrefl _ hDue.1
  have hStored := hTaken.storeTxed hNew (Or.inr rfl : kind p ∨ p = p)
  have hBuffer : (s.stored a p polled).txonBuffer = a.txonBuffer :=
    (congrArg txonBuffer hSame.same :)
  have hSize : (s.stored a p polled).txonBufferSize = a.txonBufferSize :=
    (congrArg txonBufferSize hSame.same :)
  constructor
  · rw [hBuffer]
    exact hWaiting
  · rw [hBuffer, hSize]
    exact hTxon
  · exact hSame.window (h.window.take hNotFull)
  · exact hSame.due (hStored.of_iff (due_take h.window))

theorem transmitNewPdu_spec (h : Transmitter s acked kind) (hTxon : 0 < s.txonBufferSize)
    (hNotFull : s.vtS.value ≠ s.vtMs.value) (hBytes : 7 ≤ n)
    (hSmall : s.txonBuffer.length ≤ 43688 ∨ n < 109224) :
    ∃ s' p full sdu k remaining, s.transmitNewPdu n = some (s', [.transmitPdu p]) ∧
      SendsNew s s' p full sdu k remaining ∧ s'.receiverSide = s.receiverSide ∧
      Transmitter s' (fun v => acked v ∧ v ≠ s.vtS.value) (fun q => kind q ∨ q = p) := by
  obtain ⟨first, txon, hBuffer⟩ : ∃ first txon, s.txonBuffer = first :: txon := by
    cases hCase : s.txonBuffer with
    | nil =>
      have hSize := h.txon
      rw [hCase] at hSize
      rw [hSize] at hTxon
      exact absurd hTxon (by decide)
    | cons first txon => exact ⟨first, txon, rfl⟩
  have hSize : s.txonBufferSize - UInt32.ofNat first.getSize = bufferSize txon := by
    rw [h.txon, hBuffer, bufferSize_cons, UInt32.add_comm, UInt32.add_sub_cancel]
  have hWaiting : ∀ q ∈ first :: txon, q.Waiting := hBuffer ▸ h.waiting
  have hFits : (assemble AmPdu.newHeader.setDataPdu [] (n - 4) 1 first (bufferSize txon)
      txon).Fits n := assemble_fits _ _ (filling_start (by omega))
  have hFrom : ∃ full sdu k remaining, AssembledFrom AmPdu.newHeader.setDataPdu []
      (first :: txon) full sdu k remaining
      (assemble AmPdu.newHeader.setDataPdu [] (n - 4) 1 first (bufferSize txon) txon) :=
    assemble_spec hWaiting (by omega)
  have hRun : s.transmitNewPdu n = s.finish
      (assemble AmPdu.newHeader.setDataPdu [] (n - 4) 1 first (bufferSize txon) txon) := by
    rw [transmitNewPdu, hBuffer]
    dsimp only
    rw [hSize]
  generalize assemble AmPdu.newHeader.setDataPdu [] (n - 4) 1 first (bufferSize txon) txon = a
    at hFits hFrom hRun
  obtain ⟨full, sdu, k, remaining, hFrom⟩ := hFrom
  rw [← hBuffer] at hFrom hWaiting
  have hField : a.dataField = full ++ [sdu.head k] := hFrom.dataField
  obtain ⟨front, hFront⟩ : ∃ front, (full ++ [sdu.head k]).head? = some front := by
    cases full with
    | nil => exact ⟨_, rfl⟩
    | cons q full => exact ⟨q, rfl⟩
  obtain ⟨polled, hFinish⟩ := finish_spec h.window hNotFull (hField ▸ hFront)
    (hField ▸ List.getLast?_concat)
  have hShort := header_short hFrom hFits hWaiting hSmall
  have hCarries := dataPdu_carries hFrom hShort s.vtS front.status (sdu.head k).status polled
  have hLeft : ∀ q ∈ a.txonBuffer, q.Waiting := by
    rw [hFrom.txonBuffer]
    intro q hMem
    rcases List.mem_append.mp hMem with hRest | hRemaining
    · exact Sdu.rest_waiting q hRest
    · exact hWaiting q (hFrom.sdus ▸
        List.mem_append_right _ (List.mem_cons_of_mem _ hRemaining))
  have hData : (dataPdu a s.vtS front.status (sdu.head k).status polled).data =
      (full ++ [sdu.head k]).flatMap Sdu.bytes := congrArg (List.flatMap Sdu.bytes) hField
  generalize dataPdu a s.vtS front.status (sdu.head k).status polled = p at *
  have hSame := sameWindow_stored (s := s) a p polled
  refine ⟨_, p, full, sdu, k, remaining, hRun.trans hFinish, ?_, ?_,
    h.stored hNotFull hLeft hFrom.txonBufferSize⟩
  · constructor
    · exact hFrom.sdus
    · exact hFrom.pos
    · exact hFrom.le
    · exact (congrArg txonBuffer hSame.same).trans hFrom.txonBuffer
    · exact hSame.vtA
    · exact hSame.vtS
    · exact hData
    · exact ⟨front, polled, hFront, hCarries⟩
  · exact hSame.receiverSide_eq

end Bullet.Rlc.LteRlcAm
