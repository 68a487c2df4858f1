import Bullet.Rlc.UmBuffer

/-! # The reordering window of an RLC UM entity

VR(UR), VR(UH) and VR(UX) are the first missing number, the next number and the one the timer was
started for, modulo 1024. Each action keeps this when the keys it walks over are in the order of the
numbers.
-/

namespace Bullet.Rlc.LteRlcUm

open Lib ReorderingWindow SequenceNumber10

variable {s t u : LteRlcUm} {received : Finset ℕ} {pdu : ℕ → UmPdu} {lo f c n x : ℕ}
  {sn : SequenceNumber10} {ps : List UmPdu}

/-! ## The window moves -/

theorem setBases_eq (hUr : s.vrUr.value = num lo) (hUh : s.vrUh.value = num c) :
    s.setBases = { s with vrUr := ⟨num lo, edge c⟩, vrUh := ⟨num c, edge c⟩ } := by
  unfold setBases
  rw [setModulusBase, setModulusBase, sub, hUr, hUh]
  rfl

/-- The number received is compared with VR(UR) and VR(UH). -/
theorem isDiscarded_eq (hUr : s.vrUr.value = num lo) (hUh : s.vrUh.value = num c)
    (h : Holds s.rxBuffer lo received pdu) (hLo : lo ≤ c) (hWide : c ≤ lo + 512)
    (hMissing : lo ∉ received) (hBelow : ∀ k ∈ received, k < c) (hOld : c ≤ n + 512)
    (hNew : n < c + 512) :
    s.setBases.isDiscarded ⟨num n, edge c⟩ = some (decide (n < lo ∨ n ∈ received)) := by
  have hN := offset_num hOld hNew
  have hUrOffset := offset_num hWide (hLo.trans_lt (Nat.lt_add_of_pos_right (by decide)))
  have hTop := offset_num (c := c) (n := c) (by omega) (by omega)
  have hEdge : (⟨num c, edge c⟩ : SequenceNumber10).sub windowSize = ⟨edge c, edge c⟩ := rfl
  have hLow := offset_self (edge c)
  unfold isDiscarded
  rw [setBases_eq hUr hUh]
  dsimp only
  rw [hEdge, lt_eq (b := edge c) rfl rfl, lt_eq (b := edge c) rfl rfl, le_eq (b := edge c) rfl rfl,
    lt_eq (b := edge c) rfl rfl]
  simp only [Option.bind_eq_bind, Option.bind_some, Option.pure_def]
  refine congrArg some ?_
  rw [Bool.eq_iff_iff]
  simp only [Bool.or_eq_true, Bool.and_eq_true, decide_eq_true_iff]
  have hCount : lo ≤ n → (count { s with vrUr := ⟨num lo, edge c⟩, vrUh := ⟨num c, edge c⟩ }
      (getValue ⟨num n, edge c⟩) ↔ n ∈ received) := by
    intro hLe
    have hKey : count { s with vrUr := ⟨num lo, edge c⟩, vrUh := ⟨num c, edge c⟩ }
        (getValue ⟨num n, edge c⟩) = (s.rxBuffer (num n)).isSome := dif_pos (num n).isLt
    rw [hKey, h.isSome hLe (by omega), decide_eq_true_iff]
  constructor
  · rintro (⟨⟨hAbove, -⟩, hHeld⟩ | ⟨-, hBefore⟩)
    · exact Or.inr ((hCount (by omega)).mp hHeld)
    · exact Or.inl (by omega)
  · rintro (hBefore | hMem)
    · exact Or.inr ⟨by omega, by omega⟩
    · have hLt := hBelow n hMem
      obtain hLess | hLe := Nat.lt_or_ge n lo
      · exact Or.inr ⟨by omega, by omega⟩
      · have hNe : n ≠ lo := fun hEq => hMissing (hEq ▸ hMem)
        exact Or.inl ⟨⟨by omega, by omega⟩, (hCount hLe).mpr hMem⟩

theorem releases_moveWindow (sn : SequenceNumber10) (hUr : s.vrUr.value = num lo)
    (hUh : s.vrUh.value = num c) (hSn : sn.value = num n) (h : Holds s.rxBuffer lo received pdu)
    (hLo : lo ≤ c) (hWide : c ≤ lo + 512) (hOld : c ≤ n + 512) (hNew : n < c + 512)
    (hBelow : ∀ k ∈ received, k < max c (n + 1)) (hKeys : KeysInOrder received lo (max c (n + 1))) :
    ∃ (ur uh : SequenceNumber10) (b : Fin 1024 → Option UmPdu),
      ur.value = num (max lo (max c (n + 1) - 512)) ∧
      (ur.modulusBase = s.vrUr.modulusBase ∨ ur.modulusBase = edge (max c (n + 1))) ∧
      uh.value = num (max c (n + 1)) ∧ Holds b (max lo (max c (n + 1) - 512)) received pdu ∧
      Releases (fun s => s.moveWindow sn) s { s with vrUr := ur, vrUh := uh, rxBuffer := b }
        ((released received lo (max lo (max c (n + 1) - 512))).map pdu) := by
  have hN := offset_num hOld hNew
  obtain hInside | hOutside := Nat.lt_or_ge n c
  · have hTop : max c (n + 1) = c := by omega
    have hStart : max lo (c - 512) = lo := by omega
    rw [hTop, hStart, released_self]
    refine ⟨s.vrUr, ⟨num c, edge c⟩, s.rxBuffer, hUr, Or.inl rfl, rfl, h, releases_nil fun r => ?_⟩
    unfold moveWindow
    rw [isInsideReorderingWindow_eq (s := { s with reassembly := r }) hUh, hSn,
      decide_eq_true (by omega : offset (edge c) (num n) < 512)]
    rfl
  · have hTop : max c (n + 1) = n + 1 := by omega
    rw [hTop] at hBelow hKeys ⊢
    have hValue : (sn.add 1).value = num (n + 1) := by
      rw [add, hSn, ← num_add_one]
      rfl
    obtain ⟨uh, b, hUh', hHolds, hReleases⟩ := releases_reassembleOutsideWindow
      (s := { s with vrUh := sn.add 1 }) h hValue hBelow (by omega) hKeys
    have hMoved : ∀ r, moveWindow { s with reassembly := r } sn =
        (reassembleOutsideWindow { s with vrUh := sn.add 1, reassembly := r }).bind fun y =>
          (y.1.isInsideReorderingWindow y.1.vrUr).map fun z =>
            (if z.2 then z.1 else { z.1 with vrUr := z.1.vrUh.sub windowSize }, y.2) := by
      intro r
      unfold moveWindow
      rw [isInsideReorderingWindow_eq (s := { s with reassembly := r }) hUh, hSn,
        decide_eq_false (by omega : ¬ offset (edge c) (num n) < 512)]
      simp only [Option.bind_eq_bind, Option.bind_some, Bool.false_eq_true, if_false]
      cases reassembleOutsideWindow { s with vrUh := sn.add 1, reassembly := r } with
      | none => rfl
      | some y =>
        rw [Option.bind_some, Option.bind_some]
        cases y.1.isInsideReorderingWindow y.1.vrUr <;> rfl
    have hCheck : ∀ r, isInsideReorderingWindow
        { s with vrUh := uh, rxBuffer := b, reassembly := r } s.vrUr =
        some ({ s with vrUh := ⟨num (n + 1), edge (n + 1)⟩, rxBuffer := b, reassembly := r },
          decide (offset (edge (n + 1)) (num lo) < 512)) := by
      intro r
      rw [isInsideReorderingWindow_eq (c := n + 1) hUh', hUr]
    obtain hKept | hLeft := Nat.lt_or_ge (n + 1) (lo + 513)
    · have hStart : max lo (n + 1 - 512) = lo := by omega
      rw [hStart] at hHolds hReleases ⊢
      have hOffset := offset_num (c := n + 1) (n := lo) (by omega) (by omega)
      refine ⟨s.vrUr, ⟨num (n + 1), edge (n + 1)⟩, b, hUr, Or.inl rfl, rfl, hHolds, fun r => ?_⟩
      have hHanded := hReleases r
      dsimp only at hHanded ⊢
      rw [hMoved, hHanded]
      cases r.reassembleAll ((released received lo lo).map pdu) with
      | none => rfl
      | some y =>
        rw [Option.map_some, Option.bind_some]
        dsimp only
        rw [hCheck, decide_eq_true (by omega)]
        rfl
    · have hStart : max lo (n + 1 - 512) = n + 1 - 512 := by omega
      rw [hStart] at hHolds hReleases ⊢
      have hOffset := offset_num_behind (c := n + 1) (n := lo) (by omega) (by omega)
      refine ⟨⟨edge (n + 1), edge (n + 1)⟩, ⟨num (n + 1), edge (n + 1)⟩, b,
        edge_eq (by omega), Or.inr rfl, rfl, hHolds, fun r => ?_⟩
      have hHanded := hReleases r
      dsimp only at hHanded ⊢
      rw [hMoved, hHanded]
      cases r.reassembleAll ((released received lo (n + 1 - 512)).map pdu) with
      | none => rfl
      | some y =>
        rw [Option.map_some, Option.bind_some]
        dsimp only
        rw [hCheck, decide_eq_false (by omega)]
        rfl

/-! ## VR(UR) moves -/

theorem count_num (h : Holds s.rxBuffer lo received pdu) (hLe : lo ≤ n) (hLt : n < lo + 1024) :
    s.count (num n) = decide (n ∈ received) := by
  rw [← h.isSome hLe hLt]
  exact dif_pos (num n).isLt

/-- The search by key finds the first number that is missing, or stops behind key 1023. -/
theorem firstKeyMissing_eq (fuel : ℕ) {k : ℕ} (h : Holds s.rxBuffer lo received pdu)
    (hAll : ∀ m, lo ≤ m → m < f → m ∈ received) (hMissing : f ∉ received) (hNear : f < lo + 1024)
    (hWrap : ∀ m, lo ≤ m → m < f → m % 1024 = 1023 → m + 1 = f) (hLe : lo ≤ k) (hLt : k < f)
    (hFuel : f - k ≤ fuel) :
    ∃ key, s.firstKeyMissing fuel (k % 1024 + 1) = some key ∧ Fin.ofNat 1024 key = num f := by
  induction fuel generalizing k with
  | zero => omega
  | succ fuel ih =>
    obtain hLast | hInner : k % 1024 = 1023 ∨ k % 1024 + 1 < 1024 := by omega
    · have hEnd := hWrap k hLe hLt hLast
      refine ⟨1024, ?_, ?_⟩
      · rw [hLast]
        rfl
      · apply Fin.ext
        rw [num_val, ← hEnd]
        change 1024 % 1024 = _
        omega
    · have hKey : k % 1024 + 1 = (num (k + 1)).val := by
        rw [num_val]
        omega
      rw [hKey, firstKeyMissing, count_num h (by omega) (by omega)]
      by_cases hMem : k + 1 ∈ received
      · have hFurther : k + 1 < f := by
          obtain rfl | hGt := Nat.eq_or_lt_of_le (Nat.succ_le_of_lt hLt)
          · exact absurd hMem hMissing
          · exact hGt
        have hNext : ((num (k + 1)).val + 1) % 65536 = (k + 1) % 1024 + 1 := by
          rw [num_val]
          omega
        rw [if_pos (decide_eq_true hMem), hNext]
        exact ih (by omega) hFurther (by omega)
      · have hEnd : k + 1 = f := by
          by_contra hNe
          exact hMem (hAll (k + 1) (by omega) (by omega))
        rw [if_neg (by simpa using hMem)]
        exact ⟨_, rfl, by rw [hEnd]; exact Fin.ext (Nat.mod_eq_of_lt (num f).isLt)⟩

theorem releases_advanceVrUr (hUr : s.vrUr.value = num lo) (h : Holds s.rxBuffer lo received pdu)
    (hFar : ∀ k ∈ received, k < lo + 1024) (hLe : lo ≤ f) (hNear : f < lo + 1024)
    (hAll : ∀ k, lo ≤ k → k < f → k ∈ received) (hMissing : f ∉ received)
    (hWrap : ∀ k, lo ≤ k → k < f → k % 1024 = 1023 → k + 1 = f)
    (hAscends : Ascends s.vrUr.modulusBase lo f) :
    ∃ b, Holds b f received pdu ∧
      Releases advanceVrUr s { s with vrUr := ⟨num f, s.vrUr.modulusBase⟩, rxBuffer := b }
        ((released received lo f).map pdu) := by
  have hCount : ∀ r, count { s with reassembly := r } s.vrUr.getValue = decide (lo ∈ received) := by
    intro r
    rw [getValue, hUr]
    exact count_num h le_rfl (by omega)
  obtain rfl | hLt := hLe.eq_or_lt
  · refine ⟨s.rxBuffer, h, ?_⟩
    rw [released_self]
    refine releases_nil fun r => ?_
    unfold advanceVrUr
    rw [if_neg (by rw [hCount]; simpa using hMissing), ← hUr]
  · have hMem := hAll lo le_rfl hLt
    obtain ⟨b, hEnd, hReleases⟩ := releases_intervalLoop
      (s := { s with vrUr := ⟨num f, s.vrUr.modulusBase⟩ }) 1024 s.vrUr
      ⟨num f, s.vrUr.modulusBase⟩ h hLe hUr rfl rfl hAscends hFar (by omega)
    refine ⟨b, hEnd, hReleases.of_eq fun r => ?_⟩
    obtain ⟨key, hFound, hKey⟩ := firstKeyMissing_eq (s := { s with reassembly := r })
      1024 h hAll hMissing hNear hWrap le_rfl hLt (by omega)
    have hStart : s.vrUr.getValue + 1 = lo % 1024 + 1 := by
      rw [getValue, hUr, num_val]
    unfold advanceVrUr
    rw [if_pos (by rw [hCount]; exact decide_eq_true hMem)]
    dsimp only
    rw [hStart, hFound, Option.bind_eq_bind, Option.bind_some, assign, hKey]
    rfl

/-! ## The timer -/

/-- The timer after the actions for the first missing number `f` and the next number `c`. -/
def timerAt (timer : Option ℕ) (f c : ℕ) : Option ℕ :=
  (timer.filter (f < ·)).or (if f < c then some c else none)

theorem timerAt_of_lt (hLt : f < x) : timerAt (some x) f c = some x := by
  simp [timerAt, hLt]

theorem timerAt_of_le (hLe : x ≤ f) : timerAt (some x) f c = timerAt none f c := by
  have hGone : (some x).filter (f < ·) = none := by simpa using hLe
  rw [timerAt, hGone]
  rfl

theorem timerAt_none_eq_some (h : timerAt none f c = some x) : f < c ∧ x = c := by
  obtain ⟨hLt, hEq⟩ := Option.ite_none_right_eq_some.mp h
  exact ⟨hLt, (Option.some_inj.mp hEq).symm⟩

theorem startReordering_eq (hUr : s.vrUr = ⟨num f, edge c⟩) (hUh : s.vrUh = ⟨num c, edge c⟩)
    (hLe : f ≤ c) (hWide : c ≤ f + 512) :
    s.startReordering = some (if s.reorderingTimer = false ∧ f < c then
      { s with reorderingTimer := true, vrUx := ⟨num c, edge c⟩ } else s) := by
  have hF := offset_num hWide (by omega)
  have hTop := offset_num (c := c) (n := c) (by omega) (by omega)
  unfold startReordering
  split
  · next hRuns => rw [if_neg (by simp [hRuns])]
  · next hStopped =>
    have hGt : s.vrUh.gt s.vrUr = some (decide (f < c)) := by
      rw [hUr, hUh, gt_eq (b := edge c) rfl rfl]
      exact congrArg some (decide_eq_decide.mpr (by dsimp only; omega))
    rw [hGt, Option.bind_eq_bind, Option.bind_some, hUh]
    by_cases hLt : f < c
    · simp [hStopped, hLt]
    · simp [hLt]

/-- The timer is stopped when the numbers it was started for are no longer waited for. -/
theorem stopReordering_eq (hUr : s.vrUr = ⟨num f, edge c⟩) (hUh : s.vrUh = ⟨num c, edge c⟩)
    (hUx : s.vrUx = ⟨num x, edge c⟩) (hLe : f ≤ c) (hWide : c ≤ f + 512) (hX : x ≤ c)
    (hNear : c < x + 1024) (hRuns : s.reorderingTimer = true) :
    s.stopReordering = some { s with reorderingTimer := decide (f < x) } := by
  have hF := offset_num hWide (by omega)
  have hPassed : s.vrUx.le s.vrUr =
      some (decide (offset (edge c) (num x) ≤ offset (edge c) (num f))) := by
    rw [hUx, hUr]
    exact le_eq (b := edge c) rfl rfl
  have hInside : s.isInsideReorderingWindow s.vrUx =
      some (s, decide (offset (edge c) (num x) < 512)) := by
    have hSelf : { s with vrUh := ⟨num c, edge c⟩ } = s := by rw [← hUh]
    rw [isInsideReorderingWindow_eq (congrArg value hUh), hSelf, hUx]
  have hSame : s.vrUx.value ≠ s.vrUh.value ↔ x ≠ c := by
    rw [hUx, hUh]
    exact not_congr (num_inj (a := x) le_rfl (by omega) hX hNear)
  have hStops : (decide (offset (edge c) (num x) ≤ offset (edge c) (num f)) ||
      (!decide (offset (edge c) (num x) < 512) && decide (s.vrUx.value ≠ s.vrUh.value))) =
        decide (x ≤ f) := by
    rw [Bool.eq_iff_iff]
    simp only [Bool.or_eq_true, Bool.and_eq_true, Bool.not_eq_true', decide_eq_true_iff,
      decide_eq_false_iff_not, hSame]
    obtain hIn | hBehind := Nat.lt_or_ge (x + 512) c
    · have hOffset := offset_num_behind (c := c) (by omega) hIn
      omega
    · have hOffset := offset_num hBehind (by omega)
      omega
  unfold stopReordering
  rw [if_pos hRuns, hPassed, hInside]
  simp only [Option.bind_eq_bind, Option.bind_some, Option.pure_def]
  rw [hStops]
  by_cases hLt : f < x
  · rw [if_neg (by simpa using hLt), decide_eq_true hLt, ← hRuns]
  · rw [if_pos (by simpa using hLt), decide_eq_false hLt]

theorem updateTimer_eq {timer : Option ℕ} (hUr : s.vrUr.value = num f) (hUh : s.vrUh.value = num c)
    (hLe : f ≤ c) (hWide : c ≤ f + 512) (hRuns : s.reorderingTimer = timer.isSome)
    (hUx : ∀ x, timer = some x → s.vrUx.value = num x ∧ x ≤ c ∧ c < x + 1024) :
    ∃ ux : SequenceNumber10, (∀ x, timerAt timer f c = some x → ux = ⟨num x, edge c⟩) ∧
      ∀ r, updateTimer { s with reassembly := r } = some { s with
        vrUr := ⟨num f, edge c⟩
        vrUh := ⟨num c, edge c⟩
        vrUx := ux
        reorderingTimer := (timerAt timer f c).isSome
        reassembly := r } := by
  have hBases : ∀ r, updateTimer { s with reassembly := r } =
      (stopReordering { s with
        vrUr := ⟨num f, edge c⟩
        vrUh := ⟨num c, edge c⟩
        vrUx := ⟨s.vrUx.value, edge c⟩
        reassembly := r }).bind startReordering := by
    intro r
    unfold updateTimer
    dsimp only
    rw [setModulusBase, setModulusBase, setModulusBase, sub, hUr, hUh]
    rfl
  -- A stopped timer starts anew or stays stopped.
  have hStopped : ∀ r, startReordering { s with
      vrUr := ⟨num f, edge c⟩
      vrUh := ⟨num c, edge c⟩
      vrUx := ⟨s.vrUx.value, edge c⟩
      reorderingTimer := false
      reassembly := r } = some { s with
        vrUr := ⟨num f, edge c⟩
        vrUh := ⟨num c, edge c⟩
        vrUx := if f < c then ⟨num c, edge c⟩ else ⟨s.vrUx.value, edge c⟩
        reorderingTimer := (timerAt none f c).isSome
        reassembly := r } := by
    intro r
    rw [startReordering_eq rfl rfl hLe hWide]
    by_cases hLt : f < c
    · simp [timerAt, hLt]
    · simp [timerAt, hLt]
  have hStarted : ∀ x, timerAt none f c = some x →
      (if f < c then ⟨num c, edge c⟩ else ⟨s.vrUx.value, edge c⟩ : SequenceNumber10) =
        ⟨num x, edge c⟩ := by
    intro x hRuns
    obtain ⟨hLt, rfl⟩ := timerAt_none_eq_some hRuns
    exact if_pos hLt
  cases timer with
  | none =>
    refine ⟨_, hStarted, fun r => ?_⟩
    have hOff : s.reorderingTimer = false := hRuns
    rw [hBases, stopReordering, if_neg (by simp [hOff]), Option.bind_some, hOff, hStopped]
  | some x =>
    obtain ⟨hValue, hX, hNear⟩ := hUx x rfl
    have hOn : s.reorderingTimer = true := hRuns
    have hStop : ∀ r, stopReordering { s with
        vrUr := ⟨num f, edge c⟩
        vrUh := ⟨num c, edge c⟩
        vrUx := ⟨s.vrUx.value, edge c⟩
        reassembly := r } = some { s with
          vrUr := ⟨num f, edge c⟩
          vrUh := ⟨num c, edge c⟩
          vrUx := ⟨s.vrUx.value, edge c⟩
          reorderingTimer := decide (f < x)
          reassembly := r } := fun r =>
      stopReordering_eq rfl rfl (by rw [hValue]) hLe hWide hX hNear hOn
    obtain hLt | hGone := Nat.lt_or_ge f x
    · rw [timerAt_of_lt hLt]
      refine ⟨⟨s.vrUx.value, edge c⟩, ?_, fun r => ?_⟩
      · rintro y ⟨⟩
        rw [hValue]
      · rw [hBases, hStop, Option.bind_some, startReordering_eq rfl rfl hLe hWide,
          decide_eq_true hLt]
        simp
    · rw [timerAt_of_le hGone]
      refine ⟨_, hStarted, fun r => ?_⟩
      rw [hBases, hStop, Option.bind_some, decide_eq_false (Nat.not_lt.mpr hGone), hStopped]

/-! ## A PDU has been placed -/

theorem Releases.updated {f : LteRlcUm → Option (LteRlcUm × List (List UInt8))}
    {g : LteRlcUm → Option LteRlcUm} (h : Releases f s t ps)
    (hG : ∀ r, g { t with reassembly := r } = some { u with reassembly := r }) :
    Releases (fun s => (f s).bind fun x => (g x.1).map fun y => (y, x.2)) s u ps := by
  intro r
  dsimp only
  rw [h r]
  cases r.reassembleAll ps with
  | none => rfl
  | some x => simp [hG]

/-- The entity, seen from the numbers that are counted on. -/
structure Mirrors (s : LteRlcUm) (r : ReorderingWindow) (pdu : ℕ → UmPdu) : Prop where
  settled : Settled 512 r
  vrUr : s.vrUr.value = num r.first
  vrUh : s.vrUh.value = num r.next
  holds : Holds s.rxBuffer r.first r.received pdu
  running : s.reorderingTimer = r.timer.isSome
  timer : ∀ x, r.timer = some x →
    s.vrUx = ⟨num x, edge r.next⟩ ∧ s.vrUr.modulusBase = edge r.next ∧
      s.vrUh.modulusBase = edge r.next

/-- If all numbers from `lo` to one with key 1023 have been received, the next one has not. -/
def WrapsClear (received : Finset ℕ) (lo : ℕ) : Prop :=
  ∀ k, lo ≤ k → k % 1024 = 1023 → (∀ m, lo ≤ m → m ≤ k → m ∈ received) → k + 1 ∉ received

/-- The keys are in the order of the numbers, as far as the actions for the PDU numbered `n` meet
them. -/
structure Orderly (r : ReorderingWindow) (n : ℕ) : Prop where
  keys : KeysInOrder (r.record 512 n).received r.first (r.record 512 n).next
  wraps : WrapsClear (r.record 512 n).received (max r.first ((r.record 512 n).next - 512))

variable {r : ReorderingWindow}

theorem Mirrors.bounds (h : Mirrors s r pdu) :
    r.first ≤ r.next ∧ r.next ≤ r.first + 512 ∧ ∀ k ∈ r.received, k < r.next :=
  ⟨h.settled.first_le_next, h.settled.wide.trans (Nat.add_le_add_right r.floor_le_first 512),
    h.settled.below⟩

/-- Where the window stands after the number `n` has been recorded. -/
theorem Mirrors.bounds_record (h : Mirrors s r pdu) (hNew : n < r.next + 512) :
    max r.first ((r.record 512 n).next - 512) ≤ (r.record 512 n).first ∧
      (r.record 512 n).first ≤ (r.record 512 n).next ∧
      (r.record 512 n).first < r.next + 512 ∧
      ∀ k, max r.first ((r.record 512 n).next - 512) ≤ k → k < (r.record 512 n).first →
        k ∈ (r.record 512 n).received := by
  have hRecord := h.settled.toBounded.record (n := n) (by decide) hNew
  have hFloor := (r.record 512 n).floor_le_first
  have hEdge : (r.record 512 n).floor = max r.floor ((r.record 512 n).next - 512) := rfl
  have hOldFloor := r.floor_le_first
  have hGrows : r.first ≤ (r.record 512 n).first := by
    refine first_le_first (by omega) fun k hMem => ?_
    exact mem_received_record.mpr (Or.inl hMem)
  refine ⟨max_le hGrows (by omega), hRecord.first_le_next, ?_, fun k hLe hLt => ?_⟩
  · have hTop : (r.record 512 n).next = max r.next (n + 1) := rfl
    obtain hIn | hOut := Nat.lt_or_ge r.next n
    · -- Above the highest number so far there is a gap.
      have hGap : (r.record 512 n).first ≤ r.next := by
        have hSettled := h.settled.floor
        refine Nat.find_min' _ ⟨by omega, fun hMem => ?_⟩
        obtain hMem | ⟨-, hEq⟩ := mem_received_record.mp hMem
        · exact absurd (h.settled.below _ hMem) (Nat.lt_irrefl _)
        · omega
      omega
    · have hLe := hRecord.first_le_next
      omega
  · exact mem_of_lt_first (by omega) hLt

theorem afterPlacing_eq (s : LteRlcUm) (sn : SequenceNumber10) :
    s.afterPlacing sn = ((s.moveWindow sn).bind fun x =>
      (advanceVrUr x.1).map fun y => (y.1, x.2 ++ y.2)).bind fun x =>
        (updateTimer x.1).map fun y => (y, x.2) := by
  unfold afterPlacing
  cases s.moveWindow sn with
  | none => rfl
  | some x =>
    obtain ⟨t, out⟩ := x
    simp only [Option.bind_eq_bind, Option.bind_some]
    cases t.advanceVrUr with
    | none => rfl
    | some y =>
      obtain ⟨u, out'⟩ := y
      simp only [Option.bind_some, Option.map_some]
      cases u.updateTimer <;> rfl

theorem Mirrors.releases_afterPlacing (h : Mirrors s r pdu) (hOld : r.next ≤ n + 512)
    (hNew : n < r.next + 512) (hLe : r.first ≤ n) (hOrderly : Orderly r n) :
    ∃ t, Mirrors t (r.arrive 512 n) pdu ∧
      Releases (fun s => s.afterPlacing ⟨num n, edge r.next⟩)
        (s.setBases.place ⟨num n, edge r.next⟩ (pdu n)) t
        ((released (r.arrive 512 n).received r.first (r.arrive 512 n).first).map pdu) := by
  obtain ⟨hLo, hWide, hBelow⟩ := h.bounds
  obtain ⟨hStart, hFirst, hNear, hAll⟩ := h.bounds_record hNew
  have hRecord := h.settled.toBounded.record (n := n) (by decide) hNew
  have hTop : (r.record 512 n).next = max r.next (n + 1) := rfl
  rw [hTop] at hStart
  have hPlaced : s.setBases.place ⟨num n, edge r.next⟩ (pdu n) = { s with
      vrUr := ⟨num r.first, edge r.next⟩
      vrUh := ⟨num r.next, edge r.next⟩
      rxBuffer := Function.update s.rxBuffer (num n) (some (pdu n)) } := by
    rw [setBases_eq h.vrUr h.vrUh]
    rfl
  have hHolds : Holds (Function.update s.rxBuffer (num n) (some (pdu n))) r.first
      (r.record 512 n).received pdu := by
    rw [received_record hLe]
    exact h.holds.place hLe (by omega)
  rw [hPlaced]
  obtain ⟨ur, uh, b, hUr, hBase, hUh, hKept, hMoves⟩ := releases_moveWindow
    (s := { s with
      vrUr := ⟨num r.first, edge r.next⟩
      vrUh := ⟨num r.next, edge r.next⟩
      rxBuffer := Function.update s.rxBuffer (num n) (some (pdu n)) })
    ⟨num n, edge r.next⟩ rfl rfl rfl hHolds hLo hWide hOld hNew hRecord.below hOrderly.keys
  have hAscends : Ascends ur.modulusBase (max r.first (max r.next (n + 1) - 512))
      (r.record 512 n).first := by
    obtain hBase | hBase := hBase
    · refine ⟨r.next, fun k hK hK' => ?_⟩
      rw [hBase]
      exact offset_num (by omega) (by omega)
    · refine ⟨max r.next (n + 1), fun k hK hK' => ?_⟩
      rw [hBase]
      exact offset_num (by omega) (by omega)
  -- the search by key does not meet a held PDU past key 1023
  have hWrap : ∀ k, max r.first (max r.next (n + 1) - 512) ≤ k → k < (r.record 512 n).first →
      k % 1024 = 1023 → k + 1 = (r.record 512 n).first := by
    intro k hLow hLt hLast
    have hClear := hOrderly.wraps k hLow hLast fun m hM hLe => hAll m hM (hLe.trans_lt hLt)
    by_contra hNe
    exact hClear (hAll (k + 1) (hLow.trans (Nat.le_succ k)) (Nat.lt_of_le_of_ne hLt hNe))
  obtain ⟨b', hHeld, hAdvances⟩ := releases_advanceVrUr
    (s := { s with vrUr := ur, vrUh := uh, rxBuffer := b }) hUr hKept
    (fun k hMem => (hRecord.below k hMem).trans_le (by omega)) hStart (by omega) hAll
    (r.record 512 n).first_notMem hWrap hAscends
  obtain ⟨ux, hUx, hTimer⟩ := updateTimer_eq
    (s := { s with
      vrUr := ⟨num (r.record 512 n).first, ur.modulusBase⟩
      vrUh := uh
      rxBuffer := b' }) rfl hUh hFirst (by omega) h.running fun x hRuns => by
      obtain ⟨hValue, -⟩ := h.timer x hRuns
      obtain ⟨hLt, hLe⟩ := h.settled.timer x hRuns
      exact ⟨congrArg value hValue, by omega, by omega⟩
  have hAll : (released (r.arrive 512 n).received r.first (r.arrive 512 n).first).map pdu =
      (released (r.record 512 n).received r.first
        (max r.first (max r.next (n + 1) - 512))).map pdu ++
        (released (r.record 512 n).received (max r.first (max r.next (n + 1) - 512))
          (r.record 512 n).first).map pdu := by
    rw [← List.map_append, released_append (le_max_left _ _) hStart]
    rfl
  rw [hAll]
  have hReleases := (hMoves.append hAdvances).updated
    (u := { s with
      vrUr := ⟨num (r.record 512 n).first, edge (max r.next (n + 1))⟩
      vrUh := ⟨num (max r.next (n + 1)), edge (max r.next (n + 1))⟩
      vrUx := ux
      rxBuffer := b'
      reorderingTimer := (timerAt r.timer (r.record 512 n).first (max r.next (n + 1))).isSome })
    hTimer
  refine ⟨_, ⟨h.settled.arrive (by decide) hNew, rfl, rfl, hHeld, rfl, fun x hRuns => ?_⟩,
    hReleases.of_eq fun r => afterPlacing_eq _ _⟩
  exact ⟨hUx x hRuns, rfl, rfl⟩

/-! ## What an event does -/

theorem Mirrors.setBases (h : Mirrors s r pdu) : Mirrors s.setBases r pdu := by
  rw [setBases_eq h.vrUr h.vrUh]
  refine ⟨h.settled, rfl, rfl, h.holds, h.running, fun x hRuns => ?_⟩
  exact ⟨(h.timer x hRuns).1, rfl, rfl⟩

theorem Mirrors.arrive (h : Mirrors s r pdu) (hNumbered : (pdu n).Numbered n)
    (hOld : r.next ≤ n + 512) (hNew : n < r.next + 512) (hOrderly : Orderly r n) :
    ∃ t, Mirrors t (r.arrive 512 n) pdu ∧
      Releases (fun s => s.doReceivePdu (pdu n)) s t
        ((released (r.arrive 512 n).received r.first (r.arrive 512 n).first).map pdu) := by
  obtain ⟨header, hPeek, hSn⟩ := hNumbered
  obtain ⟨hLo, hWide, hBelow⟩ := h.bounds
  have hNumber : header.sequenceNumber.setModulusBase (s.vrUh.sub windowSize) =
      ⟨num n, edge r.next⟩ := by
    rw [setModulusBase, sub, h.vrUh, hSn]
    rfl
  have hRun : ∀ q, doReceivePdu { s with reassembly := q } (pdu n) =
      if n < r.first ∨ n ∈ r.received then some (LteRlcUm.setBases { s with reassembly := q }, [])
      else ((LteRlcUm.setBases { s with reassembly := q }).place ⟨num n, edge r.next⟩
        (pdu n)).afterPlacing ⟨num n, edge r.next⟩ := by
    intro q
    have hDiscarded := isDiscarded_eq (s := { s with reassembly := q }) h.vrUr h.vrUh h.holds hLo
      hWide r.first_notMem hBelow hOld hNew
    unfold doReceivePdu
    rw [hPeek, Option.bind_eq_bind, Option.bind_some]
    dsimp only
    rw [hNumber, hDiscarded, Option.bind_eq_bind, Option.bind_some]
    simp only [decide_eq_true_eq]
    rfl
  by_cases hKnown : n < r.first ∨ n ∈ r.received
  · rw [h.settled.arrive_eq hKnown, released_self]
    refine ⟨s.setBases, h.setBases, releases_nil fun q => ?_⟩
    rw [hRun, if_pos hKnown]
    rfl
  · obtain ⟨hNotBefore, -⟩ := not_or.mp hKnown
    obtain ⟨t, hMirrors, hReleases⟩ :=
      h.releases_afterPlacing hOld hNew (Nat.not_lt.mp hNotBefore) hOrderly
    refine ⟨t, hMirrors, hReleases.of_eq fun q => ?_⟩
    rw [hRun, if_neg hKnown]
    rfl

theorem firstMissing_eq (fuel : ℕ) (sn : SequenceNumber10) {k : ℕ}
    (h : Holds s.rxBuffer lo received pdu) (hSn : sn.value = num k) (hLo : lo ≤ k) (hLe : k ≤ f)
    (hNear : f < lo + 1024)
    (hAll : ∀ m, k ≤ m → m < f → m ∈ received) (hMissing : f ∉ received) (hFuel : f - k < fuel) :
    s.firstMissing fuel sn = some ⟨num f, sn.modulusBase⟩ := by
  induction fuel generalizing k sn with
  | zero => omega
  | succ fuel ih =>
    have hHeld := h.isSome (n := k) hLo (by omega)
    rw [firstMissing, hSn, hHeld]
    obtain rfl | hLt := hLe.eq_or_lt
    · rw [if_neg (by simpa using hMissing), ← hSn]
    · rw [if_pos (decide_eq_true (hAll k le_rfl hLt))]
      exact ih _ (by rw [increment, hSn, num_add_one]) (by omega) hLt
        (fun m hM => hAll m (by omega)) (by omega)

theorem Mirrors.expire (h : Mirrors s r pdu) (hRuns : r.timer = some x) :
    ∃ t, Mirrors t (r.expire x) pdu ∧ Releases expireReorderingTimer s t
      ((released r.received r.first (r.expire x).first).map pdu) := by
  obtain ⟨hLo, hWide, hBelow⟩ := h.bounds
  obtain ⟨hUx, hUrBase, hUhBase⟩ := h.timer x hRuns
  obtain ⟨hLt, hTop⟩ := h.settled.timer x hRuns
  have hSettled := h.settled.expire hTop
  have hUh : s.vrUh = ⟨num r.next, edge r.next⟩ := by rw [← h.vrUh, ← hUhBase]
  have hFloor : max r.floor x ≤ (r.expire x).first := (r.expire x).floor_le_first
  have hOldFloor := r.floor_le_first
  have hEnd : (r.expire x).first ≤ r.next := hSettled.first_le_next
  have hAll : ∀ m, x ≤ m → m < (r.expire x).first → m ∈ r.received := fun m hM hM' =>
    mem_of_lt_first (r := r.expire x) (show max r.floor x ≤ m by omega) hM'
  have hMissing : (r.expire x).first ∉ r.received := (r.expire x).first_notMem
  have hAscends : Ascends s.vrUr.modulusBase r.first (r.expire x).first := by
    refine ⟨r.next, fun k hK hK' => ?_⟩
    rw [hUrBase]
    exact offset_num (by omega) (by omega)
  obtain ⟨b, hHolds, hReleases⟩ := releases_intervalLoop
    (s := { s with reorderingTimer := false, vrUr := ⟨num (r.expire x).first, edge r.next⟩ })
    1024 s.vrUr ⟨num (r.expire x).first, edge r.next⟩ h.holds (by omega) h.vrUr rfl hUrBase
    hAscends (fun k hMem => (hBelow k hMem).trans_le (by omega)) (by omega)
  have hFound : ∀ q, firstMissing { s with reassembly := q } 1024 s.vrUx =
      some ⟨num (r.expire x).first, edge r.next⟩ := by
    intro q
    rw [hUx]
    have hHolds : Holds (rxBuffer { s with reassembly := q }) r.first r.received pdu := h.holds
    exact firstMissing_eq 1024 ⟨num x, edge r.next⟩ hHolds rfl hLt.le (by omega) (by omega) hAll
      hMissing (by omega)
  have hStart : ∀ q, startReordering { s with
      reorderingTimer := false
      vrUr := ⟨num (r.expire x).first, edge r.next⟩
      rxBuffer := b
      reassembly := q } = some { s with
        reorderingTimer := (timerAt none (r.expire x).first r.next).isSome
        vrUr := ⟨num (r.expire x).first, edge r.next⟩
        vrUx := if (r.expire x).first < r.next then ⟨num r.next, edge r.next⟩ else s.vrUx
        rxBuffer := b
        reassembly := q } := by
    intro q
    have hStarts := startReordering_eq (s := { s with
      reorderingTimer := false
      vrUr := ⟨num (r.expire x).first, edge r.next⟩
      rxBuffer := b
      reassembly := q }) rfl hUh hEnd (by omega)
    rw [hStarts]
    by_cases hMore : (r.expire x).first < r.next
    · simp [timerAt, hMore]
    · simp [timerAt, hMore]
  have hAfter := hReleases.updated (u := { s with
    reorderingTimer := (timerAt none (r.expire x).first r.next).isSome
    vrUr := ⟨num (r.expire x).first, edge r.next⟩
    vrUx := if (r.expire x).first < r.next then ⟨num r.next, edge r.next⟩ else s.vrUx
    rxBuffer := b }) hStart
  refine ⟨_, ?_, hAfter.of_eq fun q => ?_⟩
  · refine ⟨hSettled, rfl, h.vrUh, hHolds, rfl, fun y hAnew => ?_⟩
    obtain ⟨hMore, rfl⟩ := timerAt_none_eq_some hAnew
    exact ⟨if_pos hMore, rfl, hUhBase⟩
  · unfold expireReorderingTimer
    rw [hFound, Option.bind_eq_bind, Option.bind_some]
    unfold reassembleSnInterval
    dsimp only
    cases intervalLoop 1024 { s with
      reorderingTimer := false
      vrUr := ⟨num (r.expire x).first, edge r.next⟩
      reassembly := q } s.vrUr ⟨num (r.expire x).first, edge r.next⟩ with
    | none => rfl
    | some y =>
      rw [Option.bind_eq_bind, Option.bind_some, Option.bind_some]
      cases startReordering y.1 <;> rfl

/-- PDUs that have not come do not matter. -/
theorem Mirrors.of_pdu {pdu' : ℕ → UmPdu} (h : Mirrors s r pdu)
    (hSame : ∀ n ∈ r.received, pdu' n = pdu n) : Mirrors s r pdu' := by
  refine ⟨h.settled, h.vrUr, h.vrUh, fun n hLe hLt => ?_, h.running, h.timer⟩
  rw [h.holds n hLe hLt]
  split
  · next hMem => rw [hSame n hMem]
  · rfl

end Bullet.Rlc.LteRlcUm
