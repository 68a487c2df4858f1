import Bullet.Rlc.AmOpportunity
import Bullet.Rlc.AmStatus

/-! # The receiving side apart from the transmitting side

Data PDUs and the timers of the receiving side leave the transmitting side as it is, and keep one
base for the receiving variables: VR(R). With one base, a STATUS PDU can always be built.
-/

namespace Bullet.Rlc.LteRlcAm

open SequenceNumber10 LteRlcAmHeader

/-- The transmitting side. -/
def transmitter (s : LteRlcAm) : LteRlcAm :=
  { s with
    statusPduRequested := false
    statusPduBufferSize := 0
    vrR := {}
    vrMr := {}
    vrX := {}
    vrMs := {}
    vrH := {}
    rxonBuffer := fun _ => none
    reassemblingState := .WAITING_S0_FULL
    keepS0 := none
    sdusBuffer := []
    expectedSeqNumber := {}
    reorderingTimer := false
    statusProhibitTimer := false }

/-- The receiving variables have VR(R) for their base, and a STATUS PDU of four bytes is waited
for at most. -/
structure Receiver (s : LteRlcAm) : Prop where
  baseR : s.vrR.modulusBase = s.vrR.value
  baseX : s.vrX.modulusBase = s.vrR.value
  baseMs : s.vrMs.modulusBase = s.vrR.value
  baseH : s.vrH.modulusBase = s.vrR.value
  statusPdu : s.statusPduBufferSize ≤ 4

/-- The step keeps both. -/
structure Receives (s s' : LteRlcAm) : Prop where
  receiver : Receiver s'
  same : s'.transmitter = s.transmitter

theorem Receives.trans {s s' s'' : LteRlcAm} (h : Receives s s') (h' : Receives s' s'') :
    Receives s s'' := ⟨h'.receiver, h'.same.trans h.same⟩

variable {s s' : LteRlcAm} {out : List Output}

/-! ## Reassembly -/

/-- Everything but the state of the reassembly. -/
def unassembled (s : LteRlcAm) : LteRlcAm :=
  { s with
    reassemblingState := .WAITING_S0_FULL
    keepS0 := none
    sdusBuffer := []
    expectedSeqNumber := {} }

theorem deliverKeepLast_same {sdus : List (List UInt8)}
    (h : s.deliverKeepLast sdus = some (s', out)) : s'.unassembled = s.unassembled := by
  obtain ⟨last, -, hEq⟩ := Option.map_eq_some_iff.mp h
  cases hEq
  rfl

theorem discardFirst_same {framingInfo : ℕ} {sdus : List (List UInt8)}
    (h : s.discardFirst framingInfo sdus = some (s', out)) :
    s'.unassembled = s.unassembled := by
  unfold discardFirst at h
  split at h
  · cases h
    rfl
  · split at h
    · cases h
      rfl
    · exact deliverKeepLast_same h

theorem reassemble_same {lost : Bool} {framingInfo : ℕ}
    (h : s.reassemble lost framingInfo = some (s', out)) : s'.unassembled = s.unassembled := by
  unfold reassemble at h
  dsimp only at h
  split at h
  · split at h
    · cases h
      rfl
    · split at h
      · exact deliverKeepLast_same h
      · cases h
        rfl
  · split at h
    · obtain ⟨kept, -, h⟩ := Option.bind_eq_some_iff.mp h
      obtain ⟨first, -, h⟩ := Option.bind_eq_some_iff.mp h
      cases h
      rfl
    · split at h
      · obtain ⟨kept, -, h⟩ := Option.bind_eq_some_iff.mp h
        obtain ⟨first, -, h⟩ := Option.bind_eq_some_iff.mp h
        split at h
        · cases h
          rfl
        · exact deliverKeepLast_same h
      · cases h
        rfl
  · have hSame : (if s.reassemblingState = .WAITING_SI_SF then { s with keepS0 := none }
        else s).unassembled = s.unassembled := by
      split
      · rfl
      · rfl
    split at h
    · cases h
      exact hSame
    · split at h
      · exact (deliverKeepLast_same h).trans hSame
      · exact (discardFirst_same h).trans hSame

theorem reassembleAndDeliver_same {p : AmPdu} (h : s.reassembleAndDeliver p = some (s', out)) :
    s'.unassembled = s.unassembled := by
  obtain ⟨⟨header, data⟩, -, h⟩ := Option.bind_eq_some_iff.mp h
  obtain ⟨sdus, -, h⟩ := Option.bind_eq_some_iff.mp h
  have hSame := reassemble_same h
  exact hSame

theorem Receives.of_unassembled (hReceiver : Receiver s) (h : s'.unassembled = s.unassembled) :
    Receives s s' := by
  have hR : s'.vrR = s.vrR := (congrArg vrR h :)
  have hX : s'.vrX = s.vrX := (congrArg vrX h :)
  have hMs : s'.vrMs = s.vrMs := (congrArg vrMs h :)
  have hH : s'.vrH = s.vrH := (congrArg vrH h :)
  have hStatus : s'.statusPduBufferSize = s.statusPduBufferSize :=
    (congrArg statusPduBufferSize h :)
  constructor
  · constructor
    · rw [hR]
      exact hReceiver.baseR
    · rw [hR, hX]
      exact hReceiver.baseX
    · rw [hR, hMs]
      exact hReceiver.baseMs
    · rw [hR, hH]
      exact hReceiver.baseH
    · rw [hStatus]
      exact hReceiver.statusPdu
  · exact (congrArg transmitter h :)

/-! ## Data PDUs -/

theorem receives_advanceVrR (hReceiver : Receiver s) : Receives s s.advanceVrR :=
  ⟨⟨rfl, rfl, rfl, rfl, hReceiver.statusPdu⟩, rfl⟩

theorem receives_deliverLoop {fuel : ℕ} (hReceiver : Receiver s)
    (h : s.deliverLoop fuel = some (s', out)) : Receives s s' := by
  induction fuel generalizing s out with
  | zero => cases h
  | succ fuel ih =>
    unfold deliverLoop at h
    split at h
    case h_1 segments _ =>
      rcases segments with _ | ⟨p, _ | ⟨q, segments⟩⟩
      · cases h
      · obtain ⟨⟨t, delivered⟩, hDeliver, h⟩ := Option.bind_eq_some_iff.mp h
        obtain ⟨⟨u, rest⟩, hRest, h⟩ := Option.bind_eq_some_iff.mp h
        cases h
        have hT := Receives.of_unassembled hReceiver (reassembleAndDeliver_same hDeliver)
        have hAdvance := receives_advanceVrR hT.receiver
        exact (hT.trans hAdvance).trans (ih hAdvance.receiver hRest)
      · cases h
    case h_2 =>
      cases h
      exact ⟨hReceiver, rfl⟩

theorem receives_vrMr (hReceiver : Receiver s) (vrMr : SequenceNumber10) :
    Receives s { s with vrMr := vrMr } :=
  ⟨⟨hReceiver.baseR, hReceiver.baseX, hReceiver.baseMs, hReceiver.baseH, hReceiver.statusPdu⟩, rfl⟩

/-- The test for the receiving window gives VR(MR) the base too. -/
theorem isInsideReceivingWindow_same {sn : SequenceNumber10} {inside : Bool}
    (hReceiver : Receiver s) (h : s.isInsideReceivingWindow sn = some (s', inside)) :
    s' = { s with vrMr := s'.vrMr } := by
  have hR := setModulusBase_eq hReceiver.baseR
  obtain ⟨low, -, h⟩ := Option.bind_eq_some_iff.mp h
  obtain ⟨high, -, h⟩ := Option.bind_eq_some_iff.mp h
  cases h
  rw [hR]

theorem receives_isInsideReceivingWindow {sn : SequenceNumber10} {inside : Bool}
    (hReceiver : Receiver s) (h : s.isInsideReceivingWindow sn = some (s', inside)) :
    Receives s s' := by
  rw [isInsideReceivingWindow_same hReceiver h]
  exact receives_vrMr hReceiver _

theorem firstIncomplete_base {fuel : ℕ} {sn sn' : SequenceNumber10}
    (h : s.firstIncomplete fuel sn = some sn') : sn'.modulusBase = sn.modulusBase := by
  induction fuel generalizing sn with
  | zero => cases h
  | succ fuel ih =>
    unfold firstIncomplete at h
    split at h
    · exact (ih h).trans rfl
    · cases h
      rfl

theorem receives_place {sn : SequenceNumber10} {p : AmPdu} (hReceiver : Receiver s)
    (h : s.place sn p = some s') : Receives s s' := by
  unfold place at h
  split at h
  · split at h
    · cases h
      exact ⟨hReceiver, rfl⟩
    · cases h
  · cases h
    exact ⟨⟨hReceiver.baseR, hReceiver.baseX, hReceiver.baseMs, hReceiver.baseH,
      hReceiver.statusPdu⟩, rfl⟩

theorem place_vrR {sn : SequenceNumber10} {p : AmPdu} (h : s.place sn p = some s') :
    s'.vrR = s.vrR := by
  unfold place at h
  split at h
  · split at h
    · cases h
      rfl
    · cases h
  · cases h
    rfl

theorem receives_stopReordering (hReceiver : Receiver s) (h : s.stopReordering = some s') :
    Receives s s' := by
  have hStop : ∀ t : LteRlcAm, Receiver t → Receives t { t with reorderingTimer := false } :=
    fun t hT => ⟨⟨hT.baseR, hT.baseX, hT.baseMs, hT.baseH, hT.statusPdu⟩, rfl⟩
  unfold stopReordering at h
  split at h
  · split at h
    · cases h
      exact hStop s hReceiver
    · obtain ⟨⟨t, inside⟩, hInside, h⟩ := Option.bind_eq_some_iff.mp h
      have hT := receives_isInsideReceivingWindow hReceiver hInside
      dsimp only at h
      split at h
      · cases h
        exact hT.trans (hStop t hT.receiver)
      · cases h
        exact hT
  · cases h
    exact ⟨hReceiver, rfl⟩

theorem receives_startReordering (hReceiver : Receiver s) (h : s.startReordering = some s') :
    Receives s s' := by
  unfold startReordering at h
  split at h
  · cases h
    exact ⟨hReceiver, rfl⟩
  · obtain ⟨ahead, -, h⟩ := Option.bind_eq_some_iff.mp h
    cases ahead with
    | true =>
      cases h
      exact ⟨⟨hReceiver.baseR, hReceiver.baseH, hReceiver.baseMs, hReceiver.baseH,
        hReceiver.statusPdu⟩, rfl⟩
    | false =>
      cases h
      exact ⟨hReceiver, rfl⟩

theorem receives_updateVrH {sn : SequenceNumber10} (hReceiver : Receiver s)
    (hBase : sn.modulusBase = s.vrR.value) (h : s.updateVrH sn = some s') : Receives s s' := by
  obtain ⟨ahead, -, hEq⟩ := Option.map_eq_some_iff.mp h
  cases ahead with
  | true =>
    cases hEq
    exact ⟨⟨hReceiver.baseR, hReceiver.baseX, hReceiver.baseMs, hBase, hReceiver.statusPdu⟩, rfl⟩
  | false =>
    cases hEq
    exact ⟨hReceiver, rfl⟩

theorem receives_updateVrMs (hReceiver : Receiver s) (h : s.updateVrMs = some s') :
    Receives s s' := by
  obtain ⟨vrMs, hFirst, hEq⟩ := Option.map_eq_some_iff.mp h
  cases hEq
  exact ⟨⟨hReceiver.baseR, hReceiver.baseX, (firstIncomplete_base hFirst).trans hReceiver.baseMs,
    hReceiver.baseH, hReceiver.statusPdu⟩, rfl⟩

theorem receives_deliverFrom {sn : SequenceNumber10} (hReceiver : Receiver s)
    (h : s.deliverFrom sn = some (s', out)) : Receives s s' := by
  unfold deliverFrom at h
  split at h
  · obtain ⟨⟨t, delivered⟩, hLoop, hEq⟩ := Option.map_eq_some_iff.mp h
    cases hEq
    have hT := receives_deliverLoop hReceiver hLoop
    exact hT.trans (receives_vrMr hT.receiver _)
  · cases h
    exact ⟨hReceiver, rfl⟩

theorem receives_afterPlacing {sn : SequenceNumber10} (hReceiver : Receiver s)
    (hBase : sn.modulusBase = s.vrR.value) (h : s.afterPlacing sn = some (s', out)) :
    Receives s s' := by
  obtain ⟨s₁, hH, h⟩ := Option.bind_eq_some_iff.mp h
  obtain ⟨s₂, hMs, h⟩ := Option.bind_eq_some_iff.mp h
  obtain ⟨⟨s₃, delivered⟩, hDeliver, h⟩ := Option.bind_eq_some_iff.mp h
  obtain ⟨s₄, hStop, h⟩ := Option.bind_eq_some_iff.mp h
  obtain ⟨s₅, hStart, h⟩ := Option.bind_eq_some_iff.mp h
  cases h
  have h₁ := receives_updateVrH hReceiver hBase hH
  have h₂ := h₁.trans (receives_updateVrMs h₁.receiver hMs)
  have h₃ := h₂.trans (receives_deliverFrom h₂.receiver hDeliver)
  have h₄ := h₃.trans (receives_stopReordering h₃.receiver hStop)
  exact h₄.trans (receives_startReordering h₄.receiver hStart)

/-- A data PDU that is received, whatever it carries. -/
theorem receives_receiveData {h : LteRlcAmHeader} {p : AmPdu} (hReceiver : Receiver s)
    (hRun : s.receiveData h p = some (s', out)) : Receives s s' := by
  have hPolled : Receives s (s.requestStatus h) := by
    unfold requestStatus
    split
    · exact ⟨⟨hReceiver.baseR, hReceiver.baseX, hReceiver.baseMs, hReceiver.baseH,
        Nat.le_refl 4⟩, rfl⟩
    · exact ⟨hReceiver, rfl⟩
  have hVrR : (s.requestStatus h).vrR = s.vrR := by
    unfold requestStatus
    split
    · rfl
    · rfl
  unfold receiveData at hRun
  split at hRun
  case isTrue =>
    obtain ⟨report, -, hRun⟩ := Option.bind_eq_some_iff.mp hRun
    obtain ⟨⟨u, delivered⟩, hInWindow, hRun⟩ := Option.bind_eq_some_iff.mp hRun
    cases hRun
    obtain ⟨⟨t, inside⟩, hInside, hInWindow⟩ := Option.bind_eq_some_iff.mp hInWindow
    have hSame := isInsideReceivingWindow_same hPolled.receiver hInside
    have hT := hPolled.trans (receives_isInsideReceivingWindow hPolled.receiver hInside)
    cases inside with
    | true =>
      obtain ⟨t', hPlace, hAfter⟩ := Option.bind_eq_some_iff.mp hInWindow
      have hT' := hT.trans (receives_place hT.receiver hPlace)
      refine hT'.trans (receives_afterPlacing hT'.receiver ?_ hAfter)
      have hBase : t'.vrR = s.vrR := by
        rw [place_vrR hPlace, hSame]
        exact hVrR
      rw [hBase]
      rfl
    | false =>
      cases hInWindow
      exact hT
  case isFalse => cases hRun

theorem receives_expireReorderingTimer (hReceiver : Receiver s)
    (h : s.expireReorderingTimer = some s') : Receives s s' := by
  obtain ⟨vrMs, hFirst, h⟩ := Option.bind_eq_some_iff.mp h
  obtain ⟨ahead, -, h⟩ := Option.bind_eq_some_iff.mp h
  have hMs := (firstIncomplete_base hFirst).trans hReceiver.baseX
  cases ahead with
  | true =>
    cases h
    exact ⟨⟨hReceiver.baseR, hReceiver.baseH, hMs, hReceiver.baseH, hReceiver.statusPdu⟩, rfl⟩
  | false =>
    cases h
    exact ⟨⟨hReceiver.baseR, hReceiver.baseX, hMs, hReceiver.baseH, hReceiver.statusPdu⟩, rfl⟩

theorem receives_expireStatusProhibitTimer (hReceiver : Receiver s) :
    Receives s s.expireStatusProhibitTimer :=
  ⟨⟨hReceiver.baseR, hReceiver.baseX, hReceiver.baseMs, hReceiver.baseH, hReceiver.statusPdu⟩, rfl⟩

/-! ## The STATUS PDU that is sent -/

/-- The PDU of the number is in the reception buffer, complete. -/
def Held (s : LteRlcAm) (v : Fin 1024) : Prop := s.isComplete { value := v } = true

/-- A STATUS PDU is right about the numbers from `sn` up to `sn'`. -/
def Reports (s : LteRlcAm) (h : LteRlcAmHeader) (sn sn' : Fin 1024) : Prop :=
  ∀ v, offset s.vrR.value sn ≤ offset s.vrR.value v →
    offset s.vrR.value v < offset s.vrR.value sn' → s.Held v ∨ Nacks h v

variable {h h' : LteRlcAmHeader} {sn : SequenceNumber10}

theorem Reports.refl (sn : Fin 1024) : s.Reports h sn sn := by
  intro v hFrom hBelow
  omega

/-- One number more, which is held or reported missing. -/
theorem Reports.cons {x y : Fin 1024} (hReports : s.Reports h (x + 1) y)
    (hFirst : s.Held x ∨ Nacks h x) (hLt : offset s.vrR.value x < 1023) : s.Reports h x y := by
  have hNext := offset_add_one hLt
  intro v hFrom hBelow
  by_cases hEq : v = x
  · exact hEq ▸ hFirst
  · have hNe : offset s.vrR.value v ≠ offset s.vrR.value x := fun hOffset =>
      hEq (offset_inj.mp hOffset)
    exact hReports v (by omega) hBelow

theorem nacks_pushNack {nack : ℕ} {v : Fin 1024} (hPush : h.pushNack nack = some h') :
    Nacks h' v ↔ Nacks h v ∨ v.val = nack := by
  unfold pushNack at hPush
  split at hPush
  · cases hPush
    simp [Nacks]
  · cases hPush

/-- The header and the number at the end of the loop, from those at its beginning. -/
structure Reporting (s : LteRlcAm) (h : LteRlcAmHeader) (sn : SequenceNumber10)
    (h' : LteRlcAmHeader) (sn' : SequenceNumber10) : Prop where
  isStatus : h'.IsStatusPdu
  base : sn'.modulusBase = s.vrR.value
  reports : s.Reports h' sn.value sn'.value
  within : offset s.vrR.value sn'.value ≤
    max (offset s.vrR.value sn.value) (offset s.vrR.value s.vrMs.value)
  kept : ∀ v, Nacks h v → Nacks h' v

theorem Reporting.stop (hStatus : h.IsStatusPdu) (hSn : sn.modulusBase = s.vrR.value) :
    Reporting s h sn h sn := ⟨hStatus, hSn, .refl _, Nat.le_max_left .., fun _ hNack => hNack⟩

theorem Reporting.next {g : LteRlcAmHeader} {sn' : SequenceNumber10}
    (hBelow : offset s.vrR.value sn.value < offset s.vrR.value s.vrMs.value)
    (hKept : ∀ v, Nacks h v → Nacks g v) (hFirst : s.Held sn.value ∨ Nacks g sn.value)
    (hRest : Reporting s g sn.increment h' sn') : Reporting s h sn h' sn' := by
  have hLt := offset_lt s.vrR.value s.vrMs.value
  have hNext := offset_add_one (a := s.vrR.value) (v := sn.value) (by omega)
  have hWithin : offset s.vrR.value sn'.value ≤
      max (offset s.vrR.value (sn.value + 1)) (offset s.vrR.value s.vrMs.value) := hRest.within
  constructor
  · exact hRest.isStatus
  · exact hRest.base
  · exact hRest.reports.cons (hFirst.imp_right (hRest.kept _)) (by omega)
  · omega
  · exact fun v hNack => hRest.kept v (hKept v hNack)

theorem nackLoop_total {bytes fuel k : ℕ} (hReceiver : Receiver s) (hStatus : Status h k)
    (hFew : k + fuel ≤ 1024) (hSn : sn.modulusBase = s.vrR.value)
    (hFuel : offset s.vrR.value s.vrMs.value - offset s.vrR.value sn.value < fuel) :
    ∃ h' sn', s.nackLoop bytes fuel sn h = some (h', sn') ∧ Reporting s h sn h' sn' := by
  induction fuel generalizing sn h k with
  | zero => omega
  | succ fuel ih =>
    rw [nackLoop, lt_eq hSn hReceiver.baseMs, Option.bind_eq_bind, Option.bind_some,
      hStatus.fits bytes]
    by_cases hBelow : offset s.vrR.value sn.value < offset s.vrR.value s.vrMs.value
    case neg =>
      rw [if_neg (by simpa using hBelow)]
      exact ⟨h, sn, rfl, .stop hStatus.isStatus hSn⟩
    case pos =>
      have hLt := offset_lt s.vrR.value s.vrMs.value
      have hNext := offset_add_one (a := s.vrR.value) (v := sn.value) (by omega)
      have hBase : sn.increment.modulusBase = s.vrR.value := hSn
      have hLeft : offset s.vrR.value s.vrMs.value - offset s.vrR.value (sn.value + 1) < fuel := by
        omega
      rw [if_pos (by simpa using hBelow), Option.bind_eq_bind, Option.bind_some]
      by_cases hRoom : k < entryLimit bytes
      case neg =>
        rw [if_neg (by simpa using hRoom)]
        exact ⟨h, sn, rfl, .stop hStatus.isStatus hSn⟩
      case pos =>
        rw [if_pos (by simpa using hRoom)]
        cases hComplete : s.isComplete sn with
        | true =>
          rw [if_pos rfl]
          obtain ⟨h', sn', hLoop, hRest⟩ := ih hStatus (by omega) hBase hLeft
          exact ⟨h', sn', hLoop, hRest.next hBelow (fun _ hNack => hNack) (Or.inl hComplete)⟩
        | false =>
          obtain ⟨g, hPush, hPushed⟩ := hStatus.push (by omega) sn.getValue
          rw [if_neg (by simp), hPush]
          obtain ⟨h', sn', hLoop, hRest⟩ := ih hPushed (by omega) hBase hLeft
          exact ⟨h', sn', hLoop, hRest.next hBelow
            (fun v hNack => (nacks_pushNack hPush).mpr (Or.inl hNack))
            (Or.inr ((nacks_pushNack hPush).mpr (Or.inr rfl)))⟩

/-- The number at the end of the second loop. -/
theorem ackLoop_total {fuel : ℕ} (hReceiver : Receiver s) (hSn : sn.modulusBase = s.vrR.value)
    (hLe : offset s.vrR.value sn.value ≤ offset s.vrR.value s.vrMs.value)
    (hFuel : offset s.vrR.value s.vrMs.value - offset s.vrR.value sn.value < fuel) :
    ∃ sn', s.ackLoop fuel sn = some sn' ∧ sn'.modulusBase = s.vrR.value ∧
      (∀ h, s.Reports h sn.value sn'.value) ∧
      offset s.vrR.value sn.value ≤ offset s.vrR.value sn'.value ∧
      offset s.vrR.value sn'.value ≤ offset s.vrR.value s.vrMs.value := by
  induction fuel generalizing sn with
  | zero => omega
  | succ fuel ih =>
    rw [ackLoop, lt_eq hSn hReceiver.baseMs, Option.bind_eq_bind, Option.bind_some]
    by_cases hGo : offset s.vrR.value sn.value < offset s.vrR.value s.vrMs.value ∧
        s.isComplete sn = true
    case neg =>
      rw [if_neg (by simpa using hGo)]
      exact ⟨sn, rfl, hSn, fun h => .refl _, Nat.le_refl _, hLe⟩
    case pos =>
      obtain ⟨hBelow, hComplete⟩ := hGo
      have hLt := offset_lt s.vrR.value s.vrMs.value
      have hNext : offset s.vrR.value sn.increment.value = offset s.vrR.value sn.value + 1 :=
        offset_add_one (by omega)
      have hBase : sn.increment.modulusBase = s.vrR.value := hSn
      rw [if_pos (by simp [hBelow, hComplete])]
      obtain ⟨sn', hLoop, hBase', hReports, hFrom, hTo⟩ := ih hBase (by omega) (by omega)
      exact ⟨sn', hLoop, hBase', fun h => (hReports h).cons (Or.inl hComplete) (by omega), by omega,
        hTo⟩

theorem Reports.append {x y z : Fin 1024} (h₁ : s.Reports h x y) (h₂ : s.Reports h y z) :
    s.Reports h x z := by
  intro v hFrom hBelow
  rcases Nat.lt_or_ge (offset s.vrR.value v) (offset s.vrR.value y) with hLt | hGe
  · exact h₁ v hFrom hLt
  · exact h₂ v hGe hBelow

/-- The state when a STATUS PDU has been sent. -/
def afterStatus (s : LteRlcAm) : LteRlcAm :=
  { s with
    statusPduRequested := false
    statusPduBufferSize := 0
    statusProhibitTimer := true }

theorem receives_afterStatus (hReceiver : Receiver s) : Receives s s.afterStatus :=
  ⟨⟨hReceiver.baseR, hReceiver.baseX, hReceiver.baseMs, hReceiver.baseH, Nat.zero_le 4⟩, rfl⟩

/-- A STATUS PDU is always built; the numbers below its ACK_SN are held or reported missing. -/
theorem transmitStatusPdu_spec {n : ℕ} (hReceiver : Receiver s) (hBytes : 4 ≤ n) :
    ∃ h, s.transmitStatusPdu n = some (s.afterStatus, [.transmitPdu ⟨h, []⟩]) ∧
      h.IsStatusPdu ∧ s.Reports h s.vrR.value h.ackSn.value ∧
      offset s.vrR.value h.ackSn.value ≤ offset s.vrR.value s.vrMs.value := by
  have hStart : Status (AmPdu.newHeader.setControlPdu STATUS_PDU) 0 := ⟨⟨rfl, rfl⟩, rfl, rfl⟩
  have hLt := offset_lt s.vrR.value s.vrMs.value
  have hFrom : offset s.vrR.value s.vrR.value = 0 := offset_self _
  obtain ⟨h, sn, hLoop, hReport⟩ := nackLoop_total (k := 0) hReceiver hStart (by decide)
    hReceiver.baseR (by omega : _ < 1024)
  have hWithin := hReport.within
  obtain ⟨ackSn, hAck, hBase, hReports, hMiddle, hTo⟩ := ackLoop_total hReceiver hReport.base
    (by omega) (by omega : _ < 1024)
  have hLe : ackSn.le s.vrMs = some true := by
    rw [le_eq hBase hReceiver.baseMs, decide_eq_true hTo]
  have hEnough := hReceiver.statusPdu
  refine ⟨h.setAckSn ackSn, ?_, hReport.isStatus, ?_, hTo⟩
  · rw [transmitStatusPdu, if_neg (by omega), hLoop, Option.bind_eq_bind, Option.bind_some]
    dsimp only
    rw [hAck, Option.bind_eq_bind, Option.bind_some, hLe]
    rfl
  · exact hReport.reports.append (hReports h)

end Bullet.Rlc.LteRlcAm
