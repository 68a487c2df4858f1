import Bullet.Rlc.AmReceiver

/-! # The receiving window

Sequence numbers are counted on past 1023: `base` is the number that VR(R) stands for and `got` are
the numbers of the PDUs received so far. The reception buffer holds the received numbers of the
window, and VR(R) and VR(MS) stand for numbers that have not been received.
-/

namespace Bullet.Rlc.LteRlcAm

open SequenceNumber10 LteRlcAmHeader

variable {s t : LteRlcAm} {base : ℕ} {got : ℕ → Prop} {sn sn' : SequenceNumber10} {fuel : ℕ}

/-- The buffer holds the received numbers from VR(R) on. -/
structure Filled (s : LteRlcAm) (base : ℕ) (got : ℕ → Prop) : Prop where
  complete : ∀ v b, s.rxonBuffer v = some b → b.pduComplete = true
  held : ∀ v, s.Held v ↔ offset s.vrR.value v < 512 ∧ got (base + offset s.vrR.value v)
  below : ∀ n < base, got n

/-- The received numbers are below VR(H), and the variables are in order. -/
structure Tracks (s : LteRlcAm) (base : ℕ) (got : ℕ → Prop) : Prop where
  filled : s.Filled base got
  bound : ∀ n, got n → n < base + offset s.vrR.value s.vrH.value
  vrMs : offset s.vrR.value s.vrMs.value ≤ offset s.vrR.value s.vrH.value
  vrH : offset s.vrR.value s.vrH.value ≤ 512

/-- What every event keeps. -/
structure Receiving (s : LteRlcAm) (base : ℕ) (got : ℕ → Prop) : Prop where
  receiver : s.Receiver
  tracks : s.Tracks base got
  vrMr : s.vrMr.value = s.vrR.value + 512
  missingR : ¬ got base
  missingMs : ¬ got (base + offset s.vrR.value s.vrMs.value)
  timer : s.reorderingTimer = true →
    0 < offset s.vrR.value s.vrX.value ∧
      offset s.vrR.value s.vrX.value ≤ offset s.vrR.value s.vrH.value

theorem held_iff (s : LteRlcAm) (v : Fin 1024) :
    s.Held v ↔ ∃ b, s.rxonBuffer v = some b ∧ b.pduComplete = true := by
  rw [Held, isComplete]
  cases s.rxonBuffer v with
  | none => simp
  | some b => simp

theorem Filled.of_same (h : s.Filled base got) (hBuffer : t.rxonBuffer = s.rxonBuffer)
    (hR : t.vrR.value = s.vrR.value) : t.Filled base got := by
  have hHeld : ∀ v, t.Held v ↔ s.Held v := fun v => by rw [held_iff, held_iff, hBuffer]
  constructor
  · rw [hBuffer]
    exact h.complete
  · intro v
    rw [hHeld, hR]
    exact h.held v
  · exact h.below

/-- Everything but VR(X), VR(MR) and the timer. -/
structure SameVariables (s t : LteRlcAm) : Prop where
  rxonBuffer : t.rxonBuffer = s.rxonBuffer
  vrR : t.vrR = s.vrR
  vrMs : t.vrMs = s.vrMs
  vrH : t.vrH = s.vrH

theorem Tracks.of_same (h : s.Tracks base got) (hSame : SameVariables s t) : t.Tracks base got := by
  refine ⟨h.filled.of_same hSame.rxonBuffer (congrArg value hSame.vrR), ?_, ?_, ?_⟩
  · rw [hSame.vrR, hSame.vrH]
    exact h.bound
  · rw [hSame.vrR, hSame.vrMs, hSame.vrH]
    exact h.vrMs
  · rw [hSame.vrR, hSame.vrH]
    exact h.vrH

/-! ## Placing a PDU -/

/-- The number of a PDU of the window is received. -/
theorem Filled.place {p : AmPdu} (h : s.Filled base got) (hIn : offset s.vrR.value sn.value < 512)
    (hPlace : s.place sn p = some t) :
    t.Filled base (fun n => got n ∨ n = base + offset s.vrR.value sn.value) := by
  unfold LteRlcAm.place at hPlace
  split at hPlace
  · next b hEntry =>
    split at hPlace
    · cases hPlace
      have hGot : got (base + offset s.vrR.value sn.value) :=
        ((h.held _).mp ((held_iff s _).mpr ⟨b, hEntry, h.complete _ _ hEntry⟩)).2
      have hSame : (fun n => got n ∨ n = base + offset s.vrR.value sn.value) = got := by
        funext n
        exact propext (or_iff_left_of_imp fun hEq => hEq ▸ hGot)
      rw [hSame]
      exact h
    · cases hPlace
  · cases hPlace
    constructor
    · intro v b hEntry
      dsimp only at hEntry
      by_cases hEq : v = sn.value
      · rw [hEq, Function.update_self] at hEntry
        cases hEntry
        rfl
      · rw [Function.update_of_ne hEq] at hEntry
        exact h.complete v b hEntry
    · intro v
      rw [held_iff]
      dsimp only
      by_cases hEq : v = sn.value
      · rw [hEq, Function.update_self]
        exact iff_of_true ⟨_, rfl, rfl⟩ ⟨hIn, .inr rfl⟩
      · rw [Function.update_of_ne hEq, ← held_iff, h.held v]
        have hNe : base + offset s.vrR.value v ≠ base + offset s.vrR.value sn.value := fun hSum =>
          hEq (offset_inj.mp (Nat.add_left_cancel hSum))
        rw [or_iff_left hNe]
    · exact fun n hBelow => .inl (h.below n hBelow)

theorem place_same {p : AmPdu} (hPlace : s.place sn p = some t) :
    t = { s with rxonBuffer := t.rxonBuffer } := by
  unfold place at hPlace
  split at hPlace
  · split at hPlace
    · cases hPlace
      rfl
    · cases hPlace
  · cases hPlace
    rfl

theorem updateVrH_cases (hBase : sn.modulusBase = s.vrR.value)
    (hBaseH : s.vrH.modulusBase = s.vrR.value) (h : s.updateVrH sn = some t) :
    (offset s.vrR.value s.vrH.value ≤ offset s.vrR.value sn.value ∧
        t = { s with vrH := sn.add 1 }) ∨
      (offset s.vrR.value sn.value < offset s.vrR.value s.vrH.value ∧ t = s) := by
  rw [updateVrH, ge_eq hBase hBaseH, Option.map_some] at h
  cases h
  by_cases hGe : offset s.vrR.value s.vrH.value ≤ offset s.vrR.value sn.value
  · exact .inl ⟨hGe, if_pos (by simpa using hGe)⟩
  · exact .inr ⟨by omega, if_neg (by simpa using hGe)⟩

/-- VR(H) passes the number. -/
theorem updateVrH_tracks (hFilled : s.Filled base (fun n => got n ∨ n = base + offset s.vrR.value sn.value))
    (hIn : offset s.vrR.value sn.value < 512)
    (hBound : ∀ n, got n → n < base + offset s.vrR.value s.vrH.value)
    (hMs : offset s.vrR.value s.vrMs.value ≤ offset s.vrR.value s.vrH.value)
    (hH : offset s.vrR.value s.vrH.value ≤ 512)
    (hBase : sn.modulusBase = s.vrR.value) (hBaseH : s.vrH.modulusBase = s.vrR.value)
    (h : s.updateVrH sn = some t) :
    t.Tracks base (fun n => got n ∨ n = base + offset s.vrR.value sn.value) ∧
      t = { s with vrH := t.vrH } ∧
      offset s.vrR.value s.vrH.value ≤ offset s.vrR.value t.vrH.value := by
  rcases updateVrH_cases hBase hBaseH h with ⟨hGe, rfl⟩ | ⟨hLt, rfl⟩
  · have hNext : offset s.vrR.value (sn.add 1).value = offset s.vrR.value sn.value + 1 :=
      offset_add_one (by omega)
    refine ⟨⟨hFilled.of_same rfl rfl, ?_, ?_, ?_⟩, rfl, ?_⟩
    · rintro n (hGot | rfl)
      · have := hBound n hGot
        dsimp only
        omega
      · dsimp only
        omega
    · dsimp only
      omega
    · dsimp only
      omega
    · dsimp only
      omega
  · refine ⟨⟨hFilled, ?_, hMs, hH⟩, rfl, Nat.le_refl _⟩
    rintro n (hGot | rfl)
    · exact hBound n hGot
    · omega

/-! ## VR(MS) and VR(R) -/

/-- The search for a missing number ends at or before VR(H). -/
theorem firstIncomplete_spec (h : s.Tracks base got) (hSn : offset s.vrR.value sn.value ≤
    offset s.vrR.value s.vrH.value) (hRun : s.firstIncomplete fuel sn = some sn') :
    ¬ got (base + offset s.vrR.value sn'.value) ∧
      offset s.vrR.value sn.value ≤ offset s.vrR.value sn'.value ∧
      offset s.vrR.value sn'.value ≤ offset s.vrR.value s.vrH.value := by
  have hTop := h.vrH
  induction fuel generalizing sn with
  | zero => cases hRun
  | succ fuel ih =>
    rw [firstIncomplete] at hRun
    split at hRun
    · next hComplete =>
      have hGot := ((h.filled.held sn.value).mp hComplete).2
      have hBelow := h.bound _ hGot
      have hNext : offset s.vrR.value sn.increment.value = offset s.vrR.value sn.value + 1 :=
        offset_add_one (by omega)
      obtain ⟨hMissing, hFrom, hTo⟩ := ih (by omega) hRun
      exact ⟨hMissing, by omega, hTo⟩
    · next hNot =>
      cases hRun
      refine ⟨fun hGot => hNot ?_, Nat.le_refl _, hSn⟩
      have hBelow := h.bound _ hGot
      exact (h.filled.held sn'.value).mpr ⟨by omega, hGot⟩

theorem Tracks.setVrMs (h : s.Tracks base got)
    (hMs : offset s.vrR.value sn.value ≤ offset s.vrR.value s.vrH.value) :
    Tracks { s with vrMs := sn } base got :=
  ⟨h.filled.of_same rfl rfl, h.bound, hMs, h.vrH⟩

theorem updateVrMs_tracks (h : s.Tracks base got) (hRun : s.updateVrMs = some t) :
    t.Tracks base got ∧ t = { s with vrMs := t.vrMs } ∧
      ¬ got (base + offset s.vrR.value t.vrMs.value) := by
  obtain ⟨sn, hFirst, hEq⟩ := Option.map_eq_some_iff.mp hRun
  cases hEq
  obtain ⟨hMissing, -, hTo⟩ := firstIncomplete_spec h h.vrMs hFirst
  exact ⟨h.setVrMs hTo, rfl, hMissing⟩

/-- While PDUs are delivered VR(X) may fall behind VR(R), but by less than half the numbers. -/
def Behind (s : LteRlcAm) : Prop :=
  (0 < offset s.vrR.value s.vrX.value ∨ offset s.vrR.value s.vrH.value < 512) ∧
    (offset s.vrR.value s.vrX.value ≤ offset s.vrR.value s.vrH.value ∨
      512 + offset s.vrR.value s.vrH.value < offset s.vrR.value s.vrX.value)

/-- What the delivery of the PDU at VR(R) keeps. -/
structure Delivering (s : LteRlcAm) (base : ℕ) (got : ℕ → Prop) : Prop where
  tracks : s.Tracks base got
  missingMs : ¬ got (base + offset s.vrR.value s.vrMs.value)
  timer : s.reorderingTimer = true → s.Behind

theorem Delivering.of_same (h : s.Delivering base got) (hSame : SameVariables s t)
    (hX : t.vrX = s.vrX) (hTimer : t.reorderingTimer = s.reorderingTimer) :
    t.Delivering base got := by
  refine ⟨h.tracks.of_same hSame, ?_, ?_⟩
  · rw [hSame.vrR, hSame.vrMs]
    exact h.missingMs
  · rw [hTimer, Behind, hSame.vrR, hX, hSame.vrH]
    exact h.timer

theorem Delivering.of_unassembled (h : s.Delivering base got)
    (hSame : t.unassembled = s.unassembled) : t.Delivering base got :=
  h.of_same ⟨(congrArg rxonBuffer hSame :), (congrArg vrR hSame :), (congrArg vrMs hSame :),
    (congrArg vrH hSame :)⟩ (congrArg vrX hSame :) (congrArg reorderingTimer hSame :)

/-- The number at VR(R) is delivered: the window moves on by one. -/
theorem Delivering.advance (h : s.Delivering base got) (hGot : got base) :
    s.advanceVrR.Delivering (base + 1) got := by
  have hBound := h.tracks.bound base hGot
  have hTop := h.tracks.vrH
  have hMsNe : s.vrMs.value ≠ s.vrR.value := by
    intro hEq
    have hMissing := h.missingMs
    rw [hEq, offset_self] at hMissing
    exact hMissing hGot
  have hHNe : s.vrH.value ≠ s.vrR.value := by
    intro hEq
    rw [hEq, offset_self] at hBound
    omega
  have hMs := offset_next hMsNe
  have hH := offset_next hHNe
  have hLe := h.tracks.vrMs
  refine ⟨⟨⟨?_, ?_, ?_⟩, ?_, ?_, ?_⟩, ?_, ?_⟩
  · intro v b hEntry
    change Function.update s.rxonBuffer s.vrR.value none v = some b at hEntry
    by_cases hEq : v = s.vrR.value
    · rw [hEq, Function.update_self] at hEntry
      cases hEntry
    · rw [Function.update_of_ne hEq] at hEntry
      exact h.tracks.filled.complete v b hEntry
  · intro v
    rw [held_iff]
    change (∃ b, Function.update s.rxonBuffer s.vrR.value none v = some b ∧ _) ↔
      offset (s.vrR.value + 1) v < 512 ∧ got (base + 1 + offset (s.vrR.value + 1) v)
    by_cases hEq : v = s.vrR.value
    · rw [hEq, Function.update_self, offset_next_self]
      simp
    · have hV := offset_next hEq
      have hSum : base + 1 + offset (s.vrR.value + 1) v = base + offset s.vrR.value v := by omega
      rw [Function.update_of_ne hEq, ← held_iff, h.tracks.filled.held v, hSum]
      constructor
      · rintro ⟨hLt, hGotV⟩
        exact ⟨by omega, hGotV⟩
      · rintro ⟨hLt, hGotV⟩
        have := h.tracks.bound _ hGotV
        exact ⟨by omega, hGotV⟩
  · intro n hBelow
    rcases Nat.lt_succ_iff_lt_or_eq.mp hBelow with hLt | rfl
    · exact h.tracks.filled.below n hLt
    · exact hGot
  · intro n hGotN
    have := h.tracks.bound n hGotN
    change n < base + 1 + offset (s.vrR.value + 1) s.vrH.value
    omega
  · change offset (s.vrR.value + 1) s.vrMs.value ≤ offset (s.vrR.value + 1) s.vrH.value
    omega
  · change offset (s.vrR.value + 1) s.vrH.value ≤ 512
    omega
  · change ¬ got (base + 1 + offset (s.vrR.value + 1) s.vrMs.value)
    have hSum : base + 1 + offset (s.vrR.value + 1) s.vrMs.value =
        base + offset s.vrR.value s.vrMs.value := by omega
    rw [hSum]
    exact h.missingMs
  · intro hTimer
    obtain ⟨hStart, hBehind⟩ := h.timer hTimer
    change (0 < offset (s.vrR.value + 1) s.vrX.value ∨ offset (s.vrR.value + 1) s.vrH.value < 512) ∧
      (offset (s.vrR.value + 1) s.vrX.value ≤ offset (s.vrR.value + 1) s.vrH.value ∨
        512 + offset (s.vrR.value + 1) s.vrH.value < offset (s.vrR.value + 1) s.vrX.value)
    by_cases hEq : s.vrX.value = s.vrR.value
    · rw [hEq, offset_self] at hStart
      rw [hEq, offset_next_self]
      omega
    · have hX := offset_next hEq
      omega

/-- The PDUs are delivered up to the first missing one. -/
theorem deliverLoop_spec {out : List Output} (h : s.Delivering base got)
    (hRun : s.deliverLoop fuel = some (t, out)) :
    ∃ d, d = offset s.vrR.value t.vrR.value ∧ d ≤ offset s.vrR.value s.vrH.value ∧
      t.Delivering (base + d) got ∧ ¬ got (base + d) := by
  induction fuel generalizing s base out with
  | zero => cases hRun
  | succ fuel ih =>
    unfold deliverLoop at hRun
    split at hRun
    · next segments hEntry =>
      rcases segments with _ | ⟨p, _ | ⟨q, segments⟩⟩
      · cases hRun
      case cons.cons => cases hRun
      obtain ⟨⟨s₁, first⟩, hFirst, hRun⟩ := Option.bind_eq_some_iff.mp hRun
      obtain ⟨⟨s₂, rest⟩, hRest, hRun⟩ := Option.bind_eq_some_iff.mp hRun
      cases hRun
      have hSame : s₁.unassembled = s.unassembled := reassembleAndDeliver_same hFirst
      have hHeld : s.Held s.vrR.value := (held_iff s _).mpr ⟨_, hEntry, rfl⟩
      have hGot : got base := by
        have hAt := ((h.tracks.filled.held _).mp hHeld).2
        rwa [offset_self] at hAt
      have hR : s₁.vrR = s.vrR := (congrArg vrR hSame :)
      have hH : s₁.vrH = s.vrH := (congrArg vrH hSame :)
      have hStart := h.of_unassembled hSame
      have hBound := h.tracks.bound base hGot
      have hTop := h.tracks.vrH
      obtain ⟨d, hD, hLe, hEnd, hMissing⟩ := ih (hStart.advance hGot) hRest
      change d = offset (s₁.vrR.value + 1) t.vrR.value at hD
      change d ≤ offset (s₁.vrR.value + 1) s₁.vrH.value at hLe
      rw [hR] at hD hLe
      rw [hH] at hLe
      have hHNe : s.vrH.value ≠ s.vrR.value := by
        intro hEq
        rw [hEq, offset_self] at hBound
        omega
      have hNextH := offset_next hHNe
      have hNe : t.vrR.value ≠ s.vrR.value := by
        intro hEq
        rw [hEq, offset_next_self] at hD
        omega
      have hNext := offset_next hNe
      have hSum : base + 1 + d = base + (d + 1) := by omega
      rw [hSum] at hEnd hMissing
      exact ⟨d + 1, by omega, by omega, hEnd, hMissing⟩
    · next hNot =>
      cases hRun
      refine ⟨0, (offset_self _).symm, Nat.zero_le _, h, fun hGot => ?_⟩
      have hHeld : t.Held t.vrR.value := by
        rw [h.tracks.filled.held, offset_self]
        exact ⟨Nat.zero_lt_succ 511, hGot⟩
      obtain ⟨⟨segments, complete⟩, hEntry, hComplete⟩ := (held_iff t _).mp hHeld
      cases complete with
      | true => exact hNot segments hEntry
      | false => cases hComplete

/-- What holds between the delivery and the tests for the timer. -/
structure Delivered (s : LteRlcAm) (base : ℕ) (got : ℕ → Prop) : Prop where
  delivering : s.Delivering base got
  vrMr : s.vrMr.value = s.vrR.value + 512
  missingR : ¬ got base

theorem deliverFrom_spec {out : List Output} (h : s.Delivering base got)
    (hMr : s.vrMr.value = s.vrR.value + 512)
    (hMissing : sn.value ≠ s.vrR.value → ¬ got base)
    (hRun : s.deliverFrom sn = some (t, out)) :
    t.Delivered (base + offset s.vrR.value t.vrR.value) got := by
  rw [deliverFrom] at hRun
  split at hRun
  · obtain ⟨⟨u, delivered⟩, hLoop, hEq⟩ := Option.map_eq_some_iff.mp hRun
    cases hEq
    obtain ⟨d, rfl, -, hEnd, hMissingR⟩ := deliverLoop_spec h hLoop
    exact ⟨hEnd.of_same ⟨rfl, rfl, rfl, rfl⟩ rfl rfl, rfl, hMissingR⟩
  · next hNot =>
    cases hRun
    rw [offset_self]
    refine ⟨h, hMr, fun hGot => ?_⟩
    by_cases hEq : sn.value = s.vrR.value
    · refine hNot ⟨hEq, (h.tracks.filled.held sn.value).mpr ?_⟩
      rw [hEq, offset_self]
      exact ⟨Nat.zero_lt_succ 511, hGot⟩
    · exact hMissing hEq hGot

/-! ## The timer -/

theorem isInsideReceivingWindow_spec {inside : Bool} (hReceiver : s.Receiver)
    (hMr : s.vrMr.value = s.vrR.value + 512)
    (h : s.isInsideReceivingWindow sn = some (t, inside)) :
    t = { s with vrMr := s.vrMr.setModulusBase s.vrR } ∧
      inside = decide (offset s.vrR.value sn.value < 512) := by
  have hTop : offset s.vrR.value s.vrMr.value = 512 := by
    rw [hMr]
    exact offset_top _
  rw [isInsideReceivingWindow, setModulusBase_eq hReceiver.baseR] at h
  dsimp only at h
  rw [le_eq hReceiver.baseR rfl, lt_eq (s := sn.setModulusBase s.vrR) (b := s.vrR.value) rfl rfl] at h
  cases h
  refine ⟨rfl, ?_⟩
  change (decide (offset s.vrR.value s.vrR.value ≤ offset s.vrR.value sn.value) &&
    decide (offset s.vrR.value sn.value < offset s.vrR.value s.vrMr.value)) = _
  rw [offset_self, hTop]
  simp

/-- The timer is stopped unless VR(X) is in the window or at its end. -/
theorem stopReordering_spec (hReceiver : s.Receiver) (hMr : s.vrMr.value = s.vrR.value + 512)
    (h : s.stopReordering = some t) :
    SameVariables s t ∧ t.vrMr.value = s.vrMr.value ∧ t.vrX = s.vrX ∧
      (t.reorderingTimer = true → s.reorderingTimer = true ∧
        0 < offset s.vrR.value s.vrX.value ∧ offset s.vrR.value s.vrX.value ≤ 512) := by
  have hTop : offset s.vrR.value s.vrMr.value = 512 := by
    rw [hMr]
    exact offset_top _
  unfold stopReordering at h
  split at h
  · next hTimer =>
    split at h
    · cases h
      exact ⟨⟨rfl, rfl, rfl, rfl⟩, rfl, rfl, nofun⟩
    · next hNe =>
      have hPos : 0 < offset s.vrR.value s.vrX.value := by
        rw [Nat.pos_iff_ne_zero, ← offset_self s.vrR.value, Ne, offset_inj]
        exact hNe
      obtain ⟨⟨u, inside⟩, hInside, h⟩ := Option.bind_eq_some_iff.mp h
      obtain ⟨rfl, rfl⟩ := isInsideReceivingWindow_spec hReceiver hMr hInside
      dsimp only at h
      split at h
      · cases h
        exact ⟨⟨rfl, rfl, rfl, rfl⟩, rfl, rfl, nofun⟩
      · next hKeep =>
        cases h
        refine ⟨⟨rfl, rfl, rfl, rfl⟩, rfl, rfl, fun _ => ⟨hTimer, hPos, ?_⟩⟩
        by_contra hFar
        have hNotTop : s.vrX.value ≠ (s.vrMr.setModulusBase s.vrR).value := by
          intro hEq
          have hSame : offset s.vrR.value s.vrX.value = 512 := by
            rw [hEq]
            exact hTop
          omega
        exact hKeep (by simp [hNotTop]; omega)
  · next hTimer =>
    cases h
    exact ⟨⟨rfl, rfl, rfl, rfl⟩, rfl, rfl, fun hTrue => absurd hTrue hTimer⟩

/-- The timer is started for the numbers below VR(H). -/
theorem startReordering_spec (hReceiver : s.Receiver) (h : s.startReordering = some t) :
    SameVariables s t ∧ t.vrMr = s.vrMr ∧
      (t.reorderingTimer = true → (s.reorderingTimer = true ∧ t.vrX = s.vrX) ∨
        (t.vrX = s.vrH ∧ 0 < offset s.vrR.value s.vrH.value)) := by
  unfold startReordering at h
  split at h
  · next hTimer =>
    cases h
    exact ⟨⟨rfl, rfl, rfl, rfl⟩, rfl, fun _ => .inl ⟨hTimer, rfl⟩⟩
  · next hTimer =>
    rw [gt_eq hReceiver.baseH hReceiver.baseR, Option.bind_eq_bind, Option.bind_some] at h
    split at h
    · next hAhead =>
      cases h
      rw [offset_self] at hAhead
      exact ⟨⟨rfl, rfl, rfl, rfl⟩, rfl, fun _ => .inr ⟨rfl, of_decide_eq_true hAhead⟩⟩
    · cases h
      exact ⟨⟨rfl, rfl, rfl, rfl⟩, rfl, fun hTrue => absurd hTrue hTimer⟩

/-! ## Events -/

/-- The state when a PDU has been placed, before the variables follow. -/
structure Placed (s : LteRlcAm) (base : ℕ) (got : ℕ → Prop) (sn : SequenceNumber10) : Prop where
  receiver : s.Receiver
  filled : s.Filled base (fun n => got n ∨ n = base + offset s.vrR.value sn.value)
  within : offset s.vrR.value sn.value < 512
  bound : ∀ n, got n → n < base + offset s.vrR.value s.vrH.value
  vrMs : offset s.vrR.value s.vrMs.value ≤ offset s.vrR.value s.vrH.value
  vrH : offset s.vrR.value s.vrH.value ≤ 512
  vrMr : s.vrMr.value = s.vrR.value + 512
  missingR : ¬ got base
  timer : s.reorderingTimer = true →
    0 < offset s.vrR.value s.vrX.value ∧
      offset s.vrR.value s.vrX.value ≤ offset s.vrR.value s.vrH.value

theorem Receiving.place {p : AmPdu} (h : s.Receiving base got)
    (hIn : offset s.vrR.value sn.value < 512) (hPlace : s.place sn p = some t) :
    t.Placed base got sn := by
  have hFilled := h.tracks.filled.place hIn hPlace
  have hReceiver := (receives_place h.receiver hPlace).receiver
  rw [place_same hPlace] at hFilled hReceiver ⊢
  exact ⟨hReceiver, hFilled, hIn, h.tracks.bound, h.tracks.vrMs, h.tracks.vrH, h.vrMr, h.missingR,
    h.timer⟩

/-- VR(H) and VR(MS) follow. -/
theorem Placed.delivering {u : LteRlcAm} (h : s.Placed base got sn)
    (hBase : sn.modulusBase = s.vrR.value) (hH : s.updateVrH sn = some t)
    (hMs : t.updateVrMs = some u) :
    u.Delivering base (fun n => got n ∨ n = base + offset s.vrR.value sn.value) ∧
      u.vrR = s.vrR ∧ u.vrMr = s.vrMr := by
  obtain ⟨hTracks, hOnlyH, hGrows⟩ := updateVrH_tracks h.filled h.within h.bound h.vrMs h.vrH hBase
    h.receiver.baseH hH
  obtain ⟨hTracksU, hOnlyMs, hMissing⟩ := updateVrMs_tracks hTracks hMs
  have hR : t.vrR = s.vrR := by rw [hOnlyH]
  have hRU : u.vrR = t.vrR := by rw [hOnlyMs]
  have hX : u.vrX = s.vrX := by rw [hOnlyMs, hOnlyH]
  have hHU : u.vrH = t.vrH := by rw [hOnlyMs]
  have hMr : u.vrMr = s.vrMr := by rw [hOnlyMs, hOnlyH]
  have hTimer : u.reorderingTimer = s.reorderingTimer := by rw [hOnlyMs, hOnlyH]
  refine ⟨⟨hTracksU, by rw [hRU]; exact hMissing, fun hRunning => ?_⟩, hRU.trans hR, hMr⟩
  rw [hTimer] at hRunning
  obtain ⟨hPos, hLe⟩ := h.timer hRunning
  rw [Behind, hRU, hR, hX, hHU]
  exact ⟨.inl hPos, .inl (hLe.trans hGrows)⟩

theorem afterPlacing_spec {out : List Output} (h : s.Placed base got sn)
    (hBase : sn.modulusBase = s.vrR.value) (hRun : s.afterPlacing sn = some (t, out)) :
    t.Receiving (base + offset s.vrR.value t.vrR.value)
      (fun n => got n ∨ n = base + offset s.vrR.value sn.value) := by
  have hReceiver := (receives_afterPlacing h.receiver hBase hRun).receiver
  obtain ⟨s₁, hH, hRun⟩ := Option.bind_eq_some_iff.mp hRun
  obtain ⟨s₂, hMs, hRun⟩ := Option.bind_eq_some_iff.mp hRun
  obtain ⟨⟨s₃, delivered⟩, hDeliver, hRun⟩ := Option.bind_eq_some_iff.mp hRun
  obtain ⟨s₄, hStop, hRun⟩ := Option.bind_eq_some_iff.mp hRun
  obtain ⟨s₅, hStart, hRun⟩ := Option.bind_eq_some_iff.mp hRun
  cases hRun
  have hReceiver₁ := (receives_updateVrH h.receiver hBase hH).receiver
  have hReceiver₂ := (receives_updateVrMs hReceiver₁ hMs).receiver
  have hReceiver₃ := (receives_deliverFrom hReceiver₂ hDeliver).receiver
  have hReceiver₄ := (receives_stopReordering hReceiver₃ hStop).receiver
  obtain ⟨hDelivering, hR, hMr⟩ := h.delivering hBase hH hMs
  have hMissing : sn.value ≠ s₂.vrR.value →
      ¬ (got base ∨ base = base + offset s.vrR.value sn.value) := by
    rintro hNe (hGot | hEq)
    · exact h.missingR hGot
    · have hZero : offset s.vrR.value sn.value = offset s.vrR.value s.vrR.value := by
        rw [offset_self]
        omega
      rw [hR] at hNe
      exact hNe (offset_inj.mp hZero)
  have hEnd := deliverFrom_spec hDelivering (by rw [hMr, hR]; exact h.vrMr) hMissing hDeliver
  obtain ⟨hSame₄, hMr₄, hX₄, hTimer₄⟩ := stopReordering_spec hReceiver₃ hEnd.vrMr hStop
  obtain ⟨hSame₅, hMr₅, hTimer₅⟩ := startReordering_spec hReceiver₄ hStart
  have hR₅ : t.vrR = s₃.vrR := hSame₅.vrR.trans hSame₄.vrR
  have hH₅ : t.vrH = s₃.vrH := hSame₅.vrH.trans hSame₄.vrH
  have hMs₅ : t.vrMs = s₃.vrMs := hSame₅.vrMs.trans hSame₄.vrMs
  rw [hR] at hEnd
  have hTracks := (hEnd.delivering.tracks.of_same hSame₄).of_same hSame₅
  rw [← hR₅] at hEnd
  refine ⟨hReceiver, hR₅ ▸ hTracks, ?_, hEnd.missingR, ?_, fun hRunning => ?_⟩
  · rw [hMr₅, hMr₄, hEnd.vrMr, hR₅]
  · rw [hR₅, hMs₅, ← hR₅]
    exact hR₅ ▸ hEnd.delivering.missingMs
  · rw [hR₅, hH₅]
    rcases hTimer₅ hRunning with ⟨hOld, hX₅⟩ | ⟨hX₅, hPos⟩
    · obtain ⟨hRunning₃, hPos, hLe⟩ := hTimer₄ hOld
      obtain ⟨-, hBehind⟩ := hEnd.delivering.timer hRunning₃
      rw [hX₅, hX₄]
      omega
    · rw [hSame₄.vrR, hSame₄.vrH] at hPos
      rw [hX₅, hSame₄.vrH]
      exact ⟨hPos, Nat.le_refl _⟩

theorem Receiving.of_same (h : s.Receiving base got) (hReceiver : t.Receiver)
    (hSame : SameVariables s t) (hMr : t.vrMr.value = s.vrMr.value) (hX : t.vrX = s.vrX)
    (hTimer : t.reorderingTimer = s.reorderingTimer) : t.Receiving base got := by
  refine ⟨hReceiver, h.tracks.of_same hSame, ?_, h.missingR, ?_, ?_⟩
  · rw [hMr, hSame.vrR]
    exact h.vrMr
  · rw [hSame.vrR, hSame.vrMs]
    exact h.missingMs
  · rw [hTimer, hSame.vrR, hX, hSame.vrH]
    exact h.timer

/-- The numbers received after a data PDU: a PDU outside the window is not received. -/
def gotData (s : LteRlcAm) (base : ℕ) (got : ℕ → Prop) (sn : SequenceNumber10) (n : ℕ) : Prop :=
  got n ∨ offset s.vrR.value sn.value < 512 ∧ n = base + offset s.vrR.value sn.value

theorem gotData_of_outside (hOut : ¬ offset s.vrR.value sn.value < 512) :
    s.gotData base got sn = got := by
  funext n
  exact propext (or_iff_left fun hNew => hOut hNew.1)

theorem gotData_of_inside (hIn : offset s.vrR.value sn.value < 512) :
    s.gotData base got sn = fun n => got n ∨ n = base + offset s.vrR.value sn.value := by
  funext n
  rw [gotData, and_iff_right hIn]

theorem receiveInWindow_spec {p : AmPdu} {out : List Output} (h : s.Receiving base got)
    (hBase : sn.modulusBase = s.vrR.value) (hRun : s.receiveInWindow sn p = some (t, out)) :
    t.Receiving (base + offset s.vrR.value t.vrR.value) (s.gotData base got sn) := by
  obtain ⟨⟨u, inside⟩, hInside, hRun⟩ := Option.bind_eq_some_iff.mp hRun
  have hReceiver := (receives_isInsideReceivingWindow h.receiver hInside).receiver
  obtain ⟨hU, rfl⟩ := isInsideReceivingWindow_spec h.receiver h.vrMr hInside
  have hStart : u.Receiving base got := by
    rw [hU] at hReceiver ⊢
    exact h.of_same hReceiver ⟨rfl, rfl, rfl, rfl⟩ rfl rfl rfl
  have hR : u.vrR = s.vrR := by rw [hU]
  dsimp only at hRun
  split at hRun
  · next hIn =>
    have hIn := of_decide_eq_true hIn
    obtain ⟨v, hPlace, hRun⟩ := Option.bind_eq_some_iff.mp hRun
    have hPlaced := hStart.place (by rw [hR]; exact hIn) hPlace
    have hRV : v.vrR = s.vrR := by rw [place_same hPlace]; exact hR
    have hEnd := afterPlacing_spec hPlaced (by rw [hRV]; exact hBase) hRun
    rw [hRV] at hEnd
    rw [gotData_of_inside hIn]
    exact hEnd
  · next hOut =>
    cases hRun
    rw [gotData_of_outside (fun hIn => hOut (decide_eq_true hIn)), hR, offset_self]
    exact hStart

theorem receiveData_spec {p : AmPdu} {h : LteRlcAmHeader} {out : List Output}
    (hReceiving : s.Receiving base got) (hRun : s.receiveData h p = some (t, out)) :
    t.Receiving (base + offset s.vrR.value t.vrR.value) (s.gotData base got h.sequenceNumber) := by
  have hRequest : (s.requestStatus h).Receiving base got ∧ (s.requestStatus h).vrR = s.vrR := by
    have hReceiver := hReceiving.receiver
    unfold requestStatus
    split
    · exact ⟨hReceiving.of_same ⟨hReceiver.baseR, hReceiver.baseX, hReceiver.baseMs,
        hReceiver.baseH, Nat.le_refl 4⟩ ⟨rfl, rfl, rfl, rfl⟩ rfl rfl rfl, rfl⟩
    · exact ⟨hReceiving, rfl⟩
  obtain ⟨hStart, hR⟩ := hRequest
  unfold receiveData at hRun
  split at hRun
  · obtain ⟨report, -, hRun⟩ := Option.bind_eq_some_iff.mp hRun
    obtain ⟨⟨u, delivered⟩, hInWindow, hRun⟩ := Option.bind_eq_some_iff.mp hRun
    cases hRun
    have hBase : (h.sequenceNumber.setModulusBase s.vrR).modulusBase =
        (s.requestStatus h).vrR.value := by
      rw [hR]
      rfl
    have hEnd := receiveInWindow_spec hStart hBase hInWindow
    have hGot : (s.requestStatus h).gotData base got (h.sequenceNumber.setModulusBase s.vrR) =
        s.gotData base got h.sequenceNumber := by
      funext n
      rw [gotData, gotData, hR]
      rfl
    rw [hR, hGot] at hEnd
    exact hEnd
  · cases hRun

/-- When the timer expires, VR(MS) goes to the first missing number from VR(X) on. -/
theorem expireReorderingTimer_spec (h : s.Receiving base got) (hTimer : s.reorderingTimer = true)
    (hRun : s.expireReorderingTimer = some t) : t.Receiving base got ∧ t.vrR = s.vrR := by
  have hReceiver := (receives_expireReorderingTimer h.receiver hRun).receiver
  obtain ⟨hPos, hLe⟩ := h.timer hTimer
  obtain ⟨sn, hFirst, hRun⟩ := Option.bind_eq_some_iff.mp hRun
  obtain ⟨hMissing, -, hTo⟩ := firstIncomplete_spec h.tracks hLe hFirst
  have hTracks := h.tracks.setVrMs hTo
  obtain ⟨ahead, hAhead, hRun⟩ := Option.bind_eq_some_iff.mp hRun
  have hBase := (firstIncomplete_base hFirst).trans h.receiver.baseX
  rw [gt_eq (s := s.vrH) h.receiver.baseH hBase] at hAhead
  cases hAhead
  by_cases hLater : offset s.vrR.value sn.value < offset s.vrR.value s.vrH.value
  · rw [if_pos (by exact decide_eq_true hLater)] at hRun
    cases hRun
    refine ⟨⟨hReceiver, ?_, h.vrMr, h.missingR, hMissing, fun _ => ⟨by dsimp only; omega, le_rfl⟩⟩,
      rfl⟩
    exact hTracks.of_same ⟨rfl, rfl, rfl, rfl⟩
  · rw [if_neg (by simpa using hLater)] at hRun
    cases hRun
    refine ⟨⟨hReceiver, ?_, h.vrMr, h.missingR, hMissing, nofun⟩, rfl⟩
    exact hTracks.of_same ⟨rfl, rfl, rfl, rfl⟩

end Bullet.Rlc.LteRlcAm
