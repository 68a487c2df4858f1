import Bullet.Phy.SlotOrder

/-! # Slot arithmetic

Additions, the order and `Normalize` agree as long as no 32-bit sum of an addition wraps, nor the
32-bit product of a frame number with the slots of a frame. The latter wraps long before the frame
number does.
-/

namespace Bullet.Phy.SfnSf

variable {x y : SfnSf} {a b n : UInt32}

/-- The product in `Normalize` does not wrap in this frame. -/
def ProductFits (x : SfnSf) (frame : ℕ) : Prop :=
  frame * x.slotsPerFrame < 2 ^ 32

instance (x : SfnSf) (frame : ℕ) : Decidable (ProductFits x frame) :=
  inferInstanceAs (Decidable (_ < _))

/-- The frame of the slot that lies `n` slots on. -/
def frameAfter (x : SfnSf) (n : ℕ) : ℕ :=
  (x.position + n) / x.slotsPerFrame

/-- `Normalize` follows the additions of `a` and of `b` slots, which are one addition, and gives the
order of `x` and `y`. -/
structure KeepsTime (x y : SfnSf) (a b : UInt32) : Prop where
  steps : ∃ x₁ x₂ n n₁ n₂, x.add a = some x₁ ∧ x₁.add b = some x₂ ∧ x.add (a + b) = some x₂ ∧
    x₁.Normal ∧ x₂.Normal ∧
    x.normalize = some n ∧ x₁.normalize = some n₁ ∧ x₂.normalize = some n₂ ∧
    n₁ = n + a.toUInt64 ∧ n₂ = n₁ + b.toUInt64
  order : ∃ n m, x.normalize = some n ∧ y.normalize = some m ∧ x.lt y = some (decide (n < m))
  exact : ∀ z ∈ [x, y], z.normalize.map UInt64.toNat = some z.position

theorem slotsPerFrame_pos : 0 < x.slotsPerFrame :=
  Nat.mul_pos (by decide) slotsPerSubframe_pos

theorem slotsPerFrame_congr (h : y.numerology = x.numerology) :
    y.slotsPerFrame = x.slotsPerFrame := by
  rw [slotsPerFrame, slotsPerSubframe, h, slotsPerFrame, slotsPerSubframe]

theorem Normal.frameNum_eq (h : x.Normal) : x.frameNum.toNat = x.position / x.slotsPerFrame := by
  have hRest := below_slotsPerFrame h.subframe h.slot
  rw [position, Nat.add_assoc, Nat.mul_comm, Nat.mul_add_div slotsPerFrame_pos,
    Nat.div_eq_of_lt hRest, Nat.add_zero]

/-! ## Additions -/

theorem add_position_le (n : UInt32) (h : x.Admitted) :
    ∃ y, x.add n = some y ∧ y.Normal ∧ y.numerology = x.numerology ∧
      y.position ≤ x.position + n.toNat ∧
      (y.position = x.position + n.toNat → SumsFit x n.toNat) := by
  obtain ⟨y, hAdd, hNumerology, hSlot, hSubframe, hFrame⟩ := add_wrapped n h
  have hSub : y.slotsPerSubframe = x.slotsPerSubframe := by
    rw [slotsPerSubframe, hNumerology, slotsPerSubframe]
  have hNormal : y.Normal := by
    refine ⟨by rwa [Admitted, hNumerology], ?_, ?_⟩
    · rw [hSubframe]
      exact Nat.mod_lt _ (by decide)
    · rw [hSlot, hSub]
      exact Nat.mod_lt _ slotsPerSubframe_pos
  refine ⟨y, hAdd, hNormal, hNumerology, ?_⟩
  set slots := (x.slotNum.toNat + n.toNat) % 2 ^ 32 with hSlots
  set subframes := (x.subframeNum.toNat + slots / x.slotsPerSubframe) % 2 ^ 32 with hSubframes
  have hSlotsLe : slots ≤ x.slotNum.toNat + n.toNat := Nat.mod_le ..
  have hSubframesLe : subframes ≤ x.subframeNum.toNat + slots / x.slotsPerSubframe :=
    Nat.mod_le ..
  have hFrameLe : y.frameNum.toNat ≤ x.frameNum.toNat + subframes / 10 :=
    hFrame ▸ Nat.mod_le ..
  -- Each reduction modulo 2^32 lowers one digit.
  have hDigits : y.position ≤
      x.frameNum.toNat * x.slotsPerFrame + subframes * x.slotsPerSubframe +
        slots % x.slotsPerSubframe := by
    have hCarry : subframes / 10 * x.slotsPerFrame + subframes % 10 * x.slotsPerSubframe =
        subframes * x.slotsPerSubframe := by
      rw [slotsPerFrame, ← Nat.mul_assoc, ← Nat.add_mul, Nat.mul_comm (subframes / 10),
        Nat.div_add_mod]
    have hFrames := Nat.mul_le_mul_right x.slotsPerFrame hFrameLe
    rw [Nat.add_mul] at hFrames
    rw [position, slotsPerFrame_congr hNumerology, hSub, hSlot, hSubframe]
    omega
  have hRest := Nat.div_add_mod slots x.slotsPerSubframe
  have hScaled := Nat.mul_le_mul_right x.slotsPerSubframe hSubframesLe
  rw [Nat.add_mul, Nat.mul_comm (slots / _)] at hScaled
  have hPosition : x.position = x.frameNum.toNat * x.slotsPerFrame +
      x.subframeNum.toNat * x.slotsPerSubframe + x.slotNum.toNat := rfl
  refine ⟨by omega, fun hEq => ?_⟩
  rw [hEq, hPosition] at hDigits
  have hSlotsEq : slots = x.slotNum.toNat + n.toNat := by omega
  have hSubframesEq : subframes = x.subframeNum.toNat + slots / x.slotsPerSubframe := by
    apply Nat.eq_of_mul_eq_mul_right (slotsPerSubframe_pos (x := x))
    rw [Nat.add_mul, Nat.mul_comm (slots / _)]
    omega
  refine ⟨?_, ?_⟩
  · rw [← hSlotsEq, hSlots]
    exact Nat.mod_lt _ (Nat.two_pow_pos 32)
  · rw [← hSlotsEq, ← hSubframesEq, hSubframes]
    exact Nat.mod_lt _ (Nat.two_pow_pos 32)

theorem SumsFit.mono {k m : ℕ} (h : SumsFit x m) (hLe : k ≤ m) : SumsFit x k where
  slots := (Nat.add_le_add_left hLe _).trans_lt h.slots
  subframes := (Nat.add_le_add_left (Nat.div_le_div_right (Nat.add_le_add_left hLe _)) _).trans_lt
    h.subframes

theorem SumsFit.after {k m : ℕ} (h : SumsFit x (k + m)) (hAdded : Added x k y) : SumsFit y m := by
  have hSlot : y.slotNum.toNat ≤ x.slotNum.toNat + k := hAdded.slot ▸ Nat.mod_le ..
  have hSubframe : y.subframeNum.toNat ≤
      x.subframeNum.toNat + (x.slotNum.toNat + k) / x.slotsPerSubframe :=
    hAdded.subframe ▸ Nat.mod_le ..
  have hCarry : (x.slotNum.toNat + k) / x.slotsPerSubframe +
      (y.slotNum.toNat + m) / x.slotsPerSubframe =
        (x.slotNum.toNat + (k + m)) / x.slotsPerSubframe := by
    rw [hAdded.slot, ← Nat.mul_add_div slotsPerSubframe_pos, ← Nat.add_assoc, Nat.div_add_mod,
      Nat.add_assoc]
  have hSlots := h.slots
  have hSubframes := h.subframes
  refine ⟨by omega, ?_⟩
  rw [hAdded.slotsPerSubframe_eq]
  omega

theorem ProductFits.below (h : ProductFits x (x.frameAfter k)) : x.position + k < x.horizon := by
  have hRest := Nat.div_add_mod (x.position + k) x.slotsPerFrame
  have hLt := Nat.mod_lt (x.position + k) (slotsPerFrame_pos (x := x))
  have hFrame : 10 ≤ x.slotsPerFrame := Nat.le_mul_of_pos_right _ slotsPerSubframe_pos
  rw [ProductFits, frameAfter, Nat.mul_comm] at h
  rw [horizon]
  omega

theorem ProductFits.mono {f g : ℕ} (h : ProductFits x g) (hLe : f ≤ g) : ProductFits x f :=
  (Nat.mul_le_mul_right _ hLe).trans_lt h

/-! ## Normalizing -/

theorem normalize_le (h : x.Admitted) : ∃ n, x.normalize = some n ∧ n.toNat < 2 ^ 33 ∧
    n.toNat ≤ x.position ∧ (n.toNat = x.position ↔ ProductFits x x.frameNum.toNat) := by
  obtain ⟨n, hNormalize, hN⟩ := normalize_spec h
  have hMod := Nat.mod_le (x.frameNum.toNat * x.slotsPerFrame) (2 ^ 32)
  have hWord := Nat.mod_lt (x.frameNum.toNat * x.slotsPerFrame) (Nat.two_pow_pos 32)
  have hSubframe : x.subframeNum.toNat * x.slotsPerSubframe ≤ 255 * 32 :=
    Nat.mul_le_mul (Nat.le_of_lt_succ x.subframeNum.toNat_lt) (slotsPerSubframe_le h)
  have hSlot := x.slotNum.toNat_lt
  refine ⟨n, hNormalize, by omega, by rw [hN, position]; omega, ?_⟩
  rw [hN, position, ProductFits]
  constructor
  · intro hEq
    have hSame : x.frameNum.toNat * x.slotsPerFrame =
        x.frameNum.toNat * x.slotsPerFrame % 2 ^ 32 := by omega
    rw [hSame]
    exact Nat.mod_lt _ (Nat.two_pow_pos 32)
  · intro hFit
    rw [Nat.mod_eq_of_lt hFit]

theorem exact_iff (h : x.Admitted) :
    x.normalize.map UInt64.toNat = some x.position ↔ ProductFits x x.frameNum.toNat := by
  obtain ⟨n, hNormalize, -, -, hIff⟩ := normalize_le h
  rw [hNormalize, ← hIff]
  exact Option.some_inj

theorem lt_eq_decide (hx : x.Normal) (hy : y.Normal) (hNumerology : y.numerology = x.numerology) :
    x.lt y = some (decide (x.position < y.position)) := by
  obtain ⟨result, hLt⟩ : ∃ result, x.lt y = some result := ⟨_, if_pos hNumerology⟩
  rw [hLt, Option.some_inj, Bool.eq_iff_iff, decide_eq_true_iff]
  constructor
  · rintro rfl
    by_contra hLate
    rcases Nat.eq_or_lt_of_le (Nat.le_of_not_lt hLate) with hEq | hLess
    · rw [eq_of_position_eq hx hy hNumerology hEq] at hLt
      exact not_lt_self x hLt
    · have hBack := lt_of_position_lt hNumerology.symm hx hLess
      rw [lt_iff hNumerology] at hLt
      rw [lt_iff hNumerology.symm] at hBack
      rcases hLt with h | ⟨hFrame, h | ⟨hSub, h⟩⟩ <;>
        rcases hBack with h' | ⟨hFrame', h' | ⟨hSub', h'⟩⟩ <;> simp_all <;> omega
  · intro hLess
    rw [lt_of_position_lt hNumerology hy hLess] at hLt
    exact (Option.some.inj hLt).symm

theorem step_toNat {n : UInt64} (hn : n.toNat < 2 ^ 33) (a : UInt32) :
    (n + a.toUInt64).toNat = n.toNat + a.toNat := by
  have hA := a.toNat_lt
  rw [UInt64.toNat_add, UInt32.toNat_toUInt64]
  omega

/-- What follows from the agreement is that nothing has wrapped. -/
theorem KeepsTime.fits (h : KeepsTime x y a b) (hx : x.Normal) (hy : y.Normal)
    (hNumerology : y.numerology = x.numerology) (hStep : a.toNat + b.toNat < 2 ^ 32) :
    SumsFit x (a.toNat + b.toNat) ∧ ProductFits x (x.frameAfter (a.toNat + b.toNat)) ∧
      ProductFits x y.frameNum.toNat := by
  obtain ⟨x₁, x₂, n, n₁, n₂, -, -, hAdd, hNormal₁, hNormal₂, hN, hN₁, hN₂, hEq₁, hEq₂⟩ := h.steps
  have hExact := h.exact x List.mem_cons_self
  rw [hN, Option.map_some, Option.some_inj] at hExact
  have hY := (exact_iff hy.admitted).mp (h.exact y (List.mem_cons_of_mem _ List.mem_cons_self))
  rw [ProductFits, slotsPerFrame_congr hNumerology] at hY
  have hSum : (a + b).toNat = a.toNat + b.toNat := by
    rw [UInt32.toNat_add, Nat.mod_eq_of_lt hStep]
  obtain ⟨z, hZ, -, hNumerology₂, hLe, hFit⟩ := add_position_le (a + b) hx.admitted
  obtain rfl : x₂ = z := Option.some.inj (hAdd.symm.trans hZ)
  obtain ⟨k, hK, hBelow, -, -⟩ := normalize_le hx.admitted
  obtain rfl : n = k := Option.some.inj (hN.symm.trans hK)
  obtain ⟨k, hK, hBelow₁, -, -⟩ := normalize_le hNormal₁.admitted
  obtain rfl : n₁ = k := Option.some.inj (hN₁.symm.trans hK)
  obtain ⟨k, hK, -, hLe₂, hIff₂⟩ := normalize_le hNormal₂.admitted
  obtain rfl : n₂ = k := Option.some.inj (hN₂.symm.trans hK)
  have hTotal : n₂.toNat = x.position + (a.toNat + b.toNat) := by
    rw [hEq₂, step_toNat hBelow₁, hEq₁, step_toNat hBelow, hExact, Nat.add_assoc]
  rw [hSum] at hLe hFit
  have hReached : x₂.position = x.position + (a.toNat + b.toNat) := by omega
  have hProduct := hIff₂.mp (by rw [hTotal, hReached])
  rw [ProductFits, slotsPerFrame_congr hNumerology₂, hNormal₂.frameNum_eq,
    slotsPerFrame_congr hNumerology₂, hReached] at hProduct
  exact ⟨hFit hReached, hProduct, hY⟩

theorem add_normalize (hx : x.Normal) (hSums : SumsFit x a.toNat)
    (hProduct : ProductFits x (x.frameAfter a.toNat)) :
    ∃ y n m, x.add a = some y ∧ Added x a.toNat y ∧ y.Normal ∧ y.position = x.position + a.toNat ∧
      x.normalize = some n ∧ n.toNat = x.position ∧ y.normalize = some m ∧
      m = n + a.toUInt64 := by
  obtain ⟨y, hAdd, hAdded⟩ := add_eq hx.admitted hSums
  have hPosition := hAdded.position hProduct.below
  have hNormal := hAdded.normal hx.admitted
  have hFrame : x.frameNum.toNat ≤ x.frameAfter a.toNat := by
    rw [hx.frameNum_eq]
    exact Nat.div_le_div_right (Nat.le_add_right ..)
  obtain ⟨n, hN, hBelow, -, hIff⟩ := normalize_le hx.admitted
  obtain ⟨m, hM, -, -, hIff'⟩ := normalize_le hNormal.admitted
  have hExact := hIff.mpr (hProduct.mono hFrame)
  have hExact' : m.toNat = y.position := by
    apply hIff'.mpr
    rw [ProductFits, hAdded.slotsPerFrame_eq, hNormal.frameNum_eq, hAdded.slotsPerFrame_eq,
      hPosition]
    exact hProduct
  refine ⟨y, n, m, hAdd, hAdded, hNormal, hPosition, hN, hExact, hM, ?_⟩
  rw [← UInt64.toNat_inj, step_toNat hBelow, hExact, hExact', hPosition]

/-- The arithmetic of slots agrees exactly when neither the sums of the additions nor the products
of `Normalize` wrap. -/
theorem keepsTime_iff (hx : x.Normal) (hy : y.Normal) (hNumerology : y.numerology = x.numerology)
    (hStep : a.toNat + b.toNat < 2 ^ 32) :
    KeepsTime x y a b ↔ SumsFit x (a.toNat + b.toNat) ∧
      ProductFits x (x.frameAfter (a.toNat + b.toNat)) ∧ ProductFits x y.frameNum.toNat := by
  constructor
  · intro h
    exact h.fits hx hy hNumerology hStep
  · rintro ⟨hSums, hProduct, hProductY⟩
    have hSum : (a + b).toNat = a.toNat + b.toNat := by
      rw [UInt32.toNat_add, Nat.mod_eq_of_lt hStep]
    have hFirst : x.frameAfter a.toNat ≤ x.frameAfter (a.toNat + b.toNat) :=
      Nat.div_le_div_right (Nat.add_le_add_left (Nat.le_add_right ..) _)
    obtain ⟨x₁, n, n₁, hAdd₁, hAdded₁, hNormal₁, hPosition₁, hN, hExact, hN₁, hEq₁⟩ :=
      add_normalize hx (hSums.mono (Nat.le_add_right ..)) (hProduct.mono hFirst)
    have hProduct₁ : ProductFits x₁ (x₁.frameAfter b.toNat) := by
      rwa [ProductFits, frameAfter, hAdded₁.slotsPerFrame_eq, hPosition₁, Nat.add_assoc]
    obtain ⟨x₂, k, n₂, hAdd₂, hAdded₂, hNormal₂, hPosition₂, hK, -, hN₂, hEq₂⟩ :=
      add_normalize hNormal₁ (hSums.after hAdded₁) hProduct₁
    obtain rfl : n₁ = k := Option.some.inj (hN₁.symm.trans hK)
    obtain ⟨z, hAdd, hAdded⟩ := add_eq (n := a + b) hx.admitted (hSum ▸ hSums)
    rw [hSum] at hAdded
    have hSame : z = x₂ := by
      apply eq_of_position_eq hNormal₂ (hAdded.normal hx.admitted)
      · rw [hAdded.numerology, hAdded₂.numerology, hAdded₁.numerology]
      · rw [hAdded.position hProduct.below, hPosition₂, hPosition₁, Nat.add_assoc]
    have hExactY := (exact_iff hy.admitted).mpr
      (by rwa [ProductFits, slotsPerFrame_congr hNumerology])
    obtain ⟨m, hM, hExactM⟩ := Option.map_eq_some_iff.mp hExactY
    refine ⟨⟨x₁, x₂, n, n₁, n₂, hAdd₁, hAdd₂, hSame ▸ hAdd, hNormal₁, hNormal₂, hN, hN₁, hN₂, hEq₁,
      hEq₂⟩, ⟨n, m, hN, hM, ?_⟩, ?_⟩
    · rw [lt_eq_decide hx hy hNumerology, ← hExact, ← hExactM]
      exact congrArg some (decide_eq_decide.mpr UInt64.lt_iff_toNat_lt.symm)
    · simp only [List.forall_mem_cons]
      exact ⟨by rw [hN, Option.map_some, hExact], hExactY, fun z hz => (List.not_mem_nil hz).elim⟩

/-- A frame of ten subframes, in the first seconds. -/
theorem keepsTime_first_frame : KeepsTime ⟨0, 9, 1, 1⟩ ⟨1, 0, 0, 1⟩ 1 19 := by
  have hX : Normal ⟨0, 9, 1, 1⟩ := ⟨by decide, by decide, by decide⟩
  have hY : Normal ⟨1, 0, 0, 1⟩ := ⟨by decide, by decide, by decide⟩
  have hSums : SumsFit ⟨0, 9, 1, 1⟩ 20 := ⟨by decide, by decide⟩
  exact (keepsTime_iff hX hY rfl (by decide)).mpr ⟨hSums, by decide, by decide⟩

/-- At numerology 1 frame 214748365 begins with slot 2^32 + 4, which is normalized to 4. -/
theorem time_lost : ¬ ∀ (x y : SfnSf) (a b : UInt32), x.Normal → y.Normal →
    y.numerology = x.numerology → a.toNat + b.toNat < 2 ^ 32 →
    x.position + (a.toNat + b.toNat) < x.horizon → KeepsTime x y a b := by
  intro hKeeps
  have hSlot : Normal ⟨214748364, 9, 1, 1⟩ := ⟨by decide, by decide, by decide⟩
  obtain ⟨x₁, -, n, n₁, -, hAdd, -, -, -, -, hN, hN₁, -, hEq, -⟩ :=
    (hKeeps ⟨214748364, 9, 1, 1⟩ ⟨214748364, 9, 1, 1⟩ 1 0 hSlot hSlot rfl (by decide)
      (by decide)).steps
  have hNext : some x₁ = some ⟨214748365, 0, 0, 1⟩ := hAdd.symm.trans (by decide)
  obtain rfl := Option.some.inj hNext
  obtain rfl : (4294967299 : UInt64) = n := Option.some.inj ((by decide : some _ = _).trans hN)
  obtain rfl : (4 : UInt64) = n₁ := Option.some.inj ((by decide : some _ = _).trans hN₁)
  exact absurd hEq (by decide)

end Bullet.Phy.SfnSf
