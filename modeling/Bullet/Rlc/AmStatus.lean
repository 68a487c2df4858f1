import Bullet.Rlc.AmBuffers

/-! # What a STATUS PDU does to the transmitter

The numbers from VT(A) on that are below ACK_SN and VT(S) are gone through in order: each is
acknowledged, or reported missing. VT(A) moves on while none has been reported missing.
-/

namespace Bullet.Rlc.LteRlcAm

open SequenceNumber10 LteRlcAmHeader

/-- The transmitting window: its variables have VT(A) for their base, and VT(S) keeps to
VT(MS) = VT(A) + 512. -/
structure Window (s : LteRlcAm) : Prop where
  baseA : s.vtA.modulusBase = s.vtA.value
  baseS : s.vtS.modulusBase = s.vtA.value
  baseMs : s.vtMs.modulusBase = s.vtA.value
  top : s.vtMs.value = s.vtA.value + 512
  ahead : offset s.vtA.value s.vtS.value ≤ offset s.vtA.value s.vtMs.value

theorem offset_top (a : Fin 1024) : offset a (a + 512) = 512 := by
  rw [offset, add_sub_cancel_left]
  rfl

theorem Window.offset_vtMs {s : LteRlcAm} (h : Window s) :
    offset s.vtA.value s.vtMs.value = 512 := by
  rw [h.top]
  exact offset_top _

/-- The numbers of [VT(A), VT(S)). -/
def InWindow (s : LteRlcAm) (v : Fin 1024) : Prop :=
  offset s.vtA.value v < offset s.vtA.value s.vtS.value

/-- The numbers of the window that are not yet acknowledged. -/
def Due (s : LteRlcAm) (acked : Fin 1024 → Prop) (v : Fin 1024) : Prop := s.InWindow v ∧ ¬ acked v

/-- The numbers of the window from `sn` on that are below `ackSn`. -/
def Between (s : LteRlcAm) (sn ackSn v : Fin 1024) : Prop :=
  offset s.vtA.value sn ≤ offset s.vtA.value v ∧ offset s.vtA.value v < offset s.vtA.value ackSn ∧
    s.InWindow v

/-- The number is reported missing. -/
def Nacks (h : LteRlcAmHeader) (v : Fin 1024) : Prop := v.val ∈ h.nackSnList

instance (h : LteRlcAmHeader) (v : Fin 1024) : Decidable (Nacks h v) :=
  inferInstanceAs (Decidable (v.val ∈ h.nackSnList))

/-- The numbers that a STATUS PDU acknowledges. -/
def Acknowledges (s : LteRlcAm) (h : LteRlcAmHeader) (ackSn v : Fin 1024) : Prop :=
  s.Between s.vtA.value ackSn v ∧ ¬ Nacks h v

/-- Everything but the transmitted PDUs, their window and the polls. -/
def untransmitted (s : LteRlcAm) : LteRlcAm :=
  { s with
    retxBuffer := fun _ => none
    retxBufferSize := 0
    txedBuffer := fun _ => none
    txedBufferSize := 0
    vtA := {}
    vtMs := {}
    vtS := {}
    pollSn := {}
    pduWithoutPoll := 0
    byteWithoutPoll := 0
    pollRetransmitTimer := false
    pollRetransmitTimerJustExpired := false }

variable {s s' : LteRlcAm} {acked : Fin 1024 → Prop} {kind : AmPdu → Prop} {h : LteRlcAmHeader}
  {sn ackSn : SequenceNumber10} {v : Fin 1024}

theorem Window.ahead_le (hWindow : Window s) : offset s.vtA.value s.vtS.value ≤ 512 :=
  hWindow.offset_vtMs ▸ hWindow.ahead

/-- When VT(A) is in the window, the window is not empty. -/
theorem InWindow.ne (hIn : s.InWindow s.vtA.value) : s.vtS.value ≠ s.vtA.value := by
  intro hEq
  rw [InWindow, hEq] at hIn
  exact Nat.lt_irrefl _ hIn

/-- VT(A) is the number just settled: the window seen from the next number. -/
theorem inWindow_next {a b : Fin 1024} (hNe : b ≠ a) (hAhead : offset a b ≤ 512) :
    offset (a + 1) v < offset (a + 1) b ↔ offset a v < offset a b ∧ v ≠ a := by
  have hB := offset_next hNe
  by_cases hEq : v = a
  · rw [hEq, offset_next_self]
    simp
    omega
  · have hV := offset_next hEq
    simp [hEq]
    omega

/-- The window stays, and all that is not about transmitted PDUs. -/
structure SameWindow (s s' : LteRlcAm) : Prop where
  vtA : s'.vtA = s.vtA
  vtS : s'.vtS = s.vtS
  vtMs : s'.vtMs = s.vtMs
  same : s'.untransmitted = s.untransmitted

theorem SameWindow.window (hSame : SameWindow s s') (hWindow : Window s) : Window s' where
  baseA := hSame.vtA ▸ hWindow.baseA
  baseS := hSame.vtA ▸ hSame.vtS ▸ hWindow.baseS
  baseMs := hSame.vtA ▸ hSame.vtMs ▸ hWindow.baseMs
  top := hSame.vtA ▸ hSame.vtMs ▸ hWindow.top
  ahead := hSame.vtA ▸ hSame.vtS ▸ hSame.vtMs ▸ hWindow.ahead

theorem SameWindow.inWindow_iff (hSame : SameWindow s s') : s'.InWindow v ↔ s.InWindow v := by
  rw [InWindow, InWindow, hSame.vtA, hSame.vtS]

theorem SameWindow.due (hSame : SameWindow s s') (hBuffers : Buffers s' (Due s acked) kind) :
    Buffers s' (Due s' acked) kind :=
  hBuffers.of_iff fun _ => and_congr_left' hSame.inWindow_iff.symm

theorem SameWindow.between_iff {a b : Fin 1024} (hSame : SameWindow s s') :
    s'.Between a b v ↔ s.Between a b v := by
  rw [Between, Between, hSame.inWindow_iff, hSame.vtA]

theorem OnlyBuffers.sameWindow (hOnly : OnlyBuffers s s') : SameWindow s s' := by
  rw [hOnly]
  exact ⟨rfl, rfl, rfl, rfl⟩

/-- The PDU of one number is released, or moved to be sent again. -/
theorem Buffers.settle (hBuffers : Buffers s (Due s acked) kind) (hIn : s.InWindow v)
    (nacked : Prop) [Decidable nacked] (hHeld : nacked → ¬ acked v) :
    ∃ s', (if nacked then s.nack v else s.ack v) = some s' ∧ OnlyBuffers s s' ∧
      Buffers s' (Due s (fun u => acked u ∨ u = v ∧ ¬ nacked)) kind := by
  by_cases hNack : nacked
  · obtain ⟨s', hStep, hKept, hOnly⟩ := hBuffers.nack ⟨hIn, hHeld hNack⟩
    refine ⟨s', (if_pos hNack).trans hStep, hOnly, hKept.of_iff fun u => ?_⟩
    simp [Due, hNack]
  · obtain ⟨s', hStep, hKept, hOnly⟩ := hBuffers.ack v
    refine ⟨s', (if_neg hNack).trans hStep, hOnly, hKept.of_iff fun u => ?_⟩
    simp [Due, hNack, and_assoc]

theorem stopPolling_eq (s : LteRlcAm) (sn : SequenceNumber10) :
    ∃ b, s.stopPolling sn = { s with pollRetransmitTimer := b } := by
  unfold stopPolling
  split
  · exact ⟨false, rfl⟩
  · exact ⟨s.pollRetransmitTimer, rfl⟩

/-- What is left when the numbers `settled` have been acknowledged or reported missing. -/
structure Processed (s : LteRlcAm) (acked : Fin 1024 → Prop) (kind : AmPdu → Prop)
    (s' : LteRlcAm) : Prop where
  window : Window s'
  vtS : s'.vtS.value = s.vtS.value
  ahead : offset s.vtA.value s'.vtA.value ≤ offset s.vtA.value s.vtS.value
  passed : ∀ v, offset s.vtA.value v < offset s.vtA.value s'.vtA.value → acked v
  buffers : Buffers s' (Due s' acked) kind
  same : s'.untransmitted = s.untransmitted

theorem Processed.refl (hWindow : Window s) (hBuffers : Buffers s (Due s acked) kind) :
    Processed s acked kind s where
  window := hWindow
  vtS := rfl
  ahead := by simp
  passed := by simp
  buffers := hBuffers
  same := rfl

/-- VT(A) moves on by one number, which is acknowledged. -/
theorem Processed.advance (hWindow : Window s) (hIn : s.InWindow s.vtA.value)
    (hAcked : acked s.vtA.value) (hStep : Processed s.advanceVtA acked kind s') :
    Processed s acked kind s' := by
  have hNe := hIn.ne
  have hAhead := hWindow.ahead_le
  have hS := offset_next hNe
  have hLe : offset (s.vtA.value + 1) s'.vtA.value ≤ offset (s.vtA.value + 1) s.vtS.value :=
    hStep.ahead
  have hNe' : s'.vtA.value ≠ s.vtA.value := by
    intro hEq
    rw [hEq, offset_next_self] at hLe
    omega
  have hA := offset_next hNe'
  constructor
  · exact hStep.window
  · exact hStep.vtS
  · omega
  · intro v hV
    by_cases hEq : v = s.vtA.value
    · exact hEq ▸ hAcked
    · have hNext := offset_next hEq
      have hBelow : offset (s.vtA.value + 1) v < offset (s.vtA.value + 1) s'.vtA.value := by omega
      exact hStep.passed v hBelow
  · exact hStep.buffers
  · exact hStep.same

theorem Processed.of_same {t : LteRlcAm} (hSame : SameWindow s t)
    (hStep : Processed t acked kind s') : Processed s acked kind s' where
  window := hStep.window
  vtS := hSame.vtS ▸ hStep.vtS
  ahead := hSame.vtA ▸ hSame.vtS ▸ hStep.ahead
  passed := hSame.vtA ▸ hStep.passed
  buffers := hStep.buffers
  same := hStep.same.trans hSame.same

theorem Processed.of_iff {acked' : Fin 1024 → Prop} (hStep : Processed s acked kind s')
    (hIff : ∀ v, acked v ↔ acked' v) : Processed s acked' kind s' := by
  have hEq : acked = acked' := funext fun v => propext (hIff v)
  exact hEq ▸ hStep

theorem advanceVtA_window (hWindow : Window s) (hIn : s.InWindow s.vtA.value) :
    Window s.advanceVtA := by
  have hNe := hIn.ne
  have hAhead := hWindow.ahead_le
  have hS := offset_next hNe
  constructor
  · rfl
  · rfl
  · rfl
  · rfl
  · change offset (s.vtA.value + 1) s.vtS.value ≤ offset (s.vtA.value + 1) (s.vtA.value + 1 + 512)
    rw [offset_top]
    omega

theorem advanceVtA_buffers (hWindow : Window s) (hIn : s.InWindow s.vtA.value)
    (hAcked : acked s.vtA.value) (hBuffers : Buffers s (Due s acked) kind) :
    Buffers s.advanceVtA (Due s.advanceVtA acked) kind := by
  have hNe := hIn.ne
  have hAhead := hWindow.ahead_le
  have hKept : Buffers s.advanceVtA (Due s acked) kind :=
    ⟨hBuffers.txed, hBuffers.retx, hBuffers.held, hBuffers.free, hBuffers.ofKind⟩
  refine hKept.of_iff fun v => ?_
  have hIff : s.advanceVtA.InWindow v ↔ s.InWindow v ∧ v ≠ s.vtA.value :=
    inWindow_next hNe hAhead
  rw [Due, Due, hIff]
  constructor
  · rintro ⟨hV, hNot⟩
    exact ⟨⟨hV, fun hEq => hNot (hEq ▸ hAcked)⟩, hNot⟩
  · rintro ⟨⟨hV, -⟩, hNot⟩
    exact ⟨hV, hNot⟩

/-! ## The loop -/

/-- The numbers from `sn` on are `sn` and those from the next one on. -/
theorem between_next (hBelow : offset s.vtA.value sn.value < offset s.vtA.value ackSn.value)
    (hIn : s.InWindow sn.value) :
    s.Between sn.value ackSn.value v ↔ v = sn.value ∨ s.Between (sn.value + 1) ackSn.value v := by
  have hLt := offset_lt s.vtA.value ackSn.value
  have hNext := offset_add_one (a := s.vtA.value) (v := sn.value) (by omega)
  unfold Between
  rw [hNext, ← offset_inj (a := s.vtA.value)]
  unfold InWindow at *
  omega

/-- When VT(A) has moved on with `sn`, the numbers from the next one on are the same. -/
theorem between_advance (hWindow : Window s) (hIn : s.InWindow s.vtA.value)
    (hBelow : ackSn.value ≠ s.vtA.value) :
    s.Between s.vtA.value ackSn.value v ↔
      v = s.vtA.value ∨ s.advanceVtA.Between (s.vtA.value + 1) ackSn.value v := by
  have hNe := hIn.ne
  have hAhead := hWindow.ahead_le
  have hIff : s.advanceVtA.InWindow v ↔ s.InWindow v ∧ v ≠ s.vtA.value :=
    inWindow_next hNe hAhead
  have hAck := offset_next hBelow
  have hPos : 0 < offset s.vtA.value ackSn.value := by omega
  unfold Between
  rw [hIff]
  change _ ↔ _ ∨ offset (s.vtA.value + 1) (s.vtA.value + 1) ≤ offset (s.vtA.value + 1) v ∧
    offset (s.vtA.value + 1) v < offset (s.vtA.value + 1) ackSn.value ∧ _
  by_cases hEq : v = s.vtA.value
  · simp [hEq, hPos, hIn]
  · have hV := offset_next hEq
    simp only [hEq, offset_self, Nat.zero_le, true_and, false_or, ne_eq, not_false_eq_true,
      and_true]
    constructor
    · rintro ⟨hLt, hW⟩
      exact ⟨by omega, hW⟩
    · rintro ⟨hLt, hW⟩
      exact ⟨by omega, hW⟩

/-- One number of the loop. -/
theorem statusLoop_settle (hBuffers : Buffers s (Due s acked) kind) (hIn : s.InWindow sn.value)
    (hHeld : Nacks h sn.value → ¬ acked sn.value) :
    ∃ t, (if Nacks h sn.value then (s.stopPolling sn).nack sn.value
        else (s.stopPolling sn).ack sn.value) = some t ∧ SameWindow s t ∧
      Buffers t (Due t (fun u => acked u ∨ u = sn.value ∧ ¬ Nacks h sn.value)) kind := by
  obtain ⟨b, hStop⟩ := s.stopPolling_eq sn
  have hPolled : Buffers (s.stopPolling sn) (Due (s.stopPolling sn) acked) kind := by
    rw [hStop]
    exact ⟨hBuffers.txed, hBuffers.retx, hBuffers.held, hBuffers.free, hBuffers.ofKind⟩
  have hSame : SameWindow s (s.stopPolling sn) := by
    rw [hStop]
    exact ⟨rfl, rfl, rfl, rfl⟩
  obtain ⟨t, hStep, hOnly, hSettled⟩ := hPolled.settle (hSame.inWindow_iff.mpr hIn) _ hHeld
  have hT := hOnly.sameWindow
  exact ⟨t, hStep, ⟨hT.vtA.trans hSame.vtA, hT.vtS.trans hSame.vtS, hT.vtMs.trans hSame.vtMs,
    hT.same.trans hSame.same⟩, hT.due hSettled⟩

theorem statusLoop_step {fuel : ℕ} {inc : Bool} {t : LteRlcAm} (hStatus : h.IsStatusPdu)
    (hBelow : sn.lt ackSn = some true) (hIn : sn.lt s.vtS = some true)
    (hSettle : (if Nacks h sn.value then (s.stopPolling sn).nack sn.value
      else (s.stopPolling sn).ack sn.value) = some t) :
    statusLoop h (fuel + 1) s sn ackSn inc =
      if inc = true ∧ ¬ Nacks h sn.value then
        statusLoop h fuel t.advanceVtA (sn.setModulusBase t.advanceVtA.vtA).increment
          (ackSn.setModulusBase t.advanceVtA.vtA) true
      else statusLoop h fuel t sn.increment ackSn false := by
  have hPresent : h.isNackPresent sn = some (decide (Nacks h sn.value)) := by
    rw [isNackPresent, if_pos hStatus, List.contains_eq_mem]
    rfl
  rw [statusLoop, hBelow, hIn, hPresent]
  by_cases hNack : Nacks h sn.value
  · rw [if_pos hNack] at hSettle
    simp [hNack, hSettle]
  · rw [if_neg hNack] at hSettle
    cases inc with
    | true => simp [hNack, hSettle]
    | false => simp [hNack, hSettle]

/-- What the rest of the loop acknowledges, with the number just settled. -/
theorem settled_iff {rest all : Fin 1024 → Prop} {x : Fin 1024}
    (hSplit : ∀ v, all v ↔ v = x ∨ rest v) (v : Fin 1024) :
    (acked v ∨ v = x ∧ ¬ Nacks h x) ∨ rest v ∧ ¬ Nacks h v ↔ acked v ∨ all v ∧ ¬ Nacks h v := by
  rw [hSplit v, or_and_right, or_assoc]
  have hEq : v = x ∧ ¬ Nacks h x ↔ v = x ∧ ¬ Nacks h v := by
    constructor
    · rintro ⟨rfl, hNot⟩
      exact ⟨rfl, hNot⟩
    · rintro ⟨rfl, hNot⟩
      exact ⟨rfl, hNot⟩
  rw [hEq]

theorem settled_held {rest all : Fin 1024 → Prop} {x : Fin 1024}
    (hSplit : ∀ v, all v ↔ v = x ∨ rest v) (hHeld : ∀ v, all v → Nacks h v → ¬ acked v) :
    ∀ v, rest v → Nacks h v → ¬ (acked v ∨ v = x ∧ ¬ Nacks h x) := by
  rintro v hRest hNack (hAcked | ⟨rfl, hNot⟩)
  · exact hHeld v ((hSplit v).mpr (Or.inr hRest)) hNack hAcked
  · exact hNot hNack

/-- The loop needs no PDU that has been released: no number that is reported missing may be
acknowledged already. -/
theorem statusLoop_spec {fuel : ℕ} {inc : Bool} (hStatus : h.IsStatusPdu) (hWindow : Window s)
    (hSn : sn.modulusBase = s.vtA.value) (hAck : ackSn.modulusBase = s.vtA.value)
    (hInc : inc = true → sn.value = s.vtA.value) (hBuffers : Buffers s (Due s acked) kind)
    (hFuel : offset s.vtA.value ackSn.value - offset s.vtA.value sn.value < fuel)
    (hHeld : ∀ v, s.Between sn.value ackSn.value v → Nacks h v → ¬ acked v) :
    ∃ s', statusLoop h fuel s sn ackSn inc = some s' ∧
      Processed s (fun v => acked v ∨ s.Between sn.value ackSn.value v ∧ ¬ Nacks h v) kind s' := by
  induction fuel generalizing s sn ackSn inc acked with
  | zero => omega
  | succ fuel ih =>
    by_cases hGo : offset s.vtA.value sn.value < offset s.vtA.value ackSn.value ∧
        s.InWindow sn.value
    case neg =>
      have hStop : statusLoop h (fuel + 1) s sn ackSn inc = some s := by
        rw [statusLoop, lt_eq hSn hAck, lt_eq hSn hWindow.baseS, Option.bind_eq_bind, Option.bind_some, Option.bind_eq_bind,
          Option.bind_some, ← Bool.decide_and]
        exact if_neg (by simpa [InWindow] using hGo)
      refine ⟨s, hStop, (Processed.refl hWindow hBuffers).of_iff fun v => ?_⟩
      have hNone : ¬ s.Between sn.value ackSn.value v := by
        rintro ⟨hFrom, hBelow, hIn⟩
        exact hGo ⟨Nat.lt_of_le_of_lt hFrom hBelow, Nat.lt_of_le_of_lt hFrom hIn⟩
      simp [hNone]
    case pos =>
      obtain ⟨hBelow, hIn⟩ := hGo
      have hFirst : s.Between sn.value ackSn.value sn.value := ⟨Nat.le_refl _, hBelow, hIn⟩
      obtain ⟨t, hSettle, hSame, hSettled⟩ := statusLoop_settle hBuffers hIn (hHeld _ hFirst)
      rw [statusLoop_step hStatus (lt_true hSn hAck hBelow) (lt_true hSn hWindow.baseS hIn) hSettle]
      have hWindowT := hSame.window hWindow
      have hA : t.vtA.value = s.vtA.value := congrArg value hSame.vtA
      by_cases hAdvance : inc = true ∧ ¬ Nacks h sn.value
      · rw [if_pos hAdvance]
        obtain ⟨hTrue, hNot⟩ := hAdvance
        have hSnA : sn.value = t.vtA.value := (hInc hTrue).trans hA.symm
        have hInT : t.InWindow t.vtA.value := hSnA ▸ hSame.inWindow_iff.mpr hIn
        have hAckNe : ackSn.value ≠ t.vtA.value := by
          intro hEq
          rw [hEq, hSnA] at hBelow
          exact Nat.lt_irrefl _ hBelow
        have hSplit : ∀ v, s.Between sn.value ackSn.value v ↔ v = sn.value ∨
            t.advanceVtA.Between (sn.value + 1) ackSn.value v := by
          intro v
          rw [← hSame.between_iff, hSnA]
          exact between_advance hWindowT hInT hAckNe
        have hNext := offset_next hAckNe
        have hLeft : offset (t.vtA.value + 1) ackSn.value -
            offset (t.vtA.value + 1) (sn.value + 1) < fuel := by
          rw [hSnA, hA, offset_self] at hFuel
          rw [hA] at hNext
          rw [hSnA, hA, offset_self]
          omega
        have hRest : ∃ s', statusLoop h fuel t.advanceVtA
            (sn.setModulusBase t.advanceVtA.vtA).increment
            (ackSn.setModulusBase t.advanceVtA.vtA) true = some s' ∧ Processed t.advanceVtA
              (fun v => (acked v ∨ v = sn.value ∧ ¬ Nacks h sn.value) ∨
                t.advanceVtA.Between (sn.value + 1) ackSn.value v ∧ ¬ Nacks h v) kind s' :=
          ih (advanceVtA_window hWindowT hInT) rfl rfl (fun _ => congrArg (· + 1) hSnA)
            (advanceVtA_buffers hWindowT hInT (Or.inr ⟨hSnA.symm, hNot⟩) hSettled) hLeft
            (settled_held hSplit hHeld)
        obtain ⟨s', hLoop, hDone⟩ := hRest
        refine ⟨s', hLoop, .of_same hSame (.advance hWindowT hInT ?_
          (hDone.of_iff (settled_iff hSplit)))⟩
        exact Or.inr ⟨hSnA ▸ hFirst, hSnA ▸ hNot⟩
      · rw [if_neg hAdvance]
        have hSplit : ∀ v, s.Between sn.value ackSn.value v ↔ v = sn.value ∨
            t.Between (sn.value + 1) ackSn.value v := by
          intro v
          rw [hSame.between_iff]
          exact between_next hBelow hIn
        have hLt := offset_lt s.vtA.value ackSn.value
        have hNext := offset_add_one (a := s.vtA.value) (v := sn.value) (by omega)
        have hLeft : offset t.vtA.value ackSn.value - offset t.vtA.value (sn.value + 1) < fuel := by
          rw [hA]
          omega
        have hRest : ∃ s', statusLoop h fuel t sn.increment ackSn false = some s' ∧ Processed t
            (fun v => (acked v ∨ v = sn.value ∧ ¬ Nacks h sn.value) ∨
              t.Between (sn.value + 1) ackSn.value v ∧ ¬ Nacks h v) kind s' :=
          ih hWindowT (hSn.trans hA.symm) (hAck.trans hA.symm)
            (fun hFalse => Bool.noConfusion hFalse) hSettled hLeft (settled_held hSplit hHeld)
        obtain ⟨s', hLoop, hDone⟩ := hRest
        exact ⟨s', hLoop, .of_same hSame (hDone.of_iff (settled_iff hSplit))⟩

/-- The STATUS PDU is processed when it reports no number missing that is acknowledged already. -/
theorem receiveStatus_spec (hStatus : h.IsStatusPdu) (hWindow : Window s)
    (hBuffers : Buffers s (Due s acked) kind)
    (hHeld : ∀ v, s.Between s.vtA.value h.ackSn.value v → Nacks h v → ¬ acked v) :
    ∃ s', s.receiveStatus h = some s' ∧
      Processed s (fun v => acked v ∨ Acknowledges s h h.ackSn.value v) kind s' := by
  have hRun : s.receiveStatus h =
      statusLoop h 1024 s s.vtA (h.ackSn.setModulusBase s.vtA) true := by
    simp only [receiveStatus, setModulusBase_eq hWindow.baseA, setModulusBase_eq hWindow.baseS,
      setModulusBase_eq hWindow.baseMs]
  have hLt := offset_lt s.vtA.value h.ackSn.value
  have hFuel : offset s.vtA.value h.ackSn.value - offset s.vtA.value s.vtA.value < 1024 := by
    omega
  rw [hRun]
  exact statusLoop_spec hStatus hWindow hWindow.baseA rfl (fun _ => rfl) hBuffers hFuel hHeld

end Bullet.Rlc.LteRlcAm
