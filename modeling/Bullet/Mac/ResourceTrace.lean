import Mathlib.Algebra.Order.BigOperators.Group.List
import Mathlib.Data.Nat.Cast.Field
import Bullet.Lib.Binary64
import Bullet.Mac.UlDataDivisions
import Bullet.Mac.UlQueues

/-! # The traced split of UL resources

`DoScheduleUlData` reports for each user the RBs allocated to it and those that go to its proactive
demand. The split divides by `spectral_efficiency`, a `double` that a user without RBs leaves as it
lay on the stack. The proactive demand is an `int` that is read again from the trigger here.
-/

namespace Bullet.Mac

open Lib Lib.Faults

variable {μ : Type}

/-- `spectral_efficiency`, with whether the iteration has set it. -/
structure SpectralEfficiency where
  value : ℚ
  isSet : Bool
deriving DecidableEq

/-- The locals of one iteration. The divisors are those of its divisions in `double`. -/
structure UeSplit where
  reactiveBuffer : UInt32
  allocRb : UInt32
  proactiveRb : UInt32
  efficiency : SpectralEfficiency
  divisors : List SpectralEfficiency
deriving DecidableEq

/-- What is passed to `CallTracedRntiRbMap`, and `m_spectralEfficiencyMap`. -/
structure ResourceMaps where
  allocated : UInt16 → Option UInt32 := fun _ => none
  proactive : UInt16 → Option UInt32 := fun _ => none
  spectralEfficiency : UInt16 → Option ℚ := fun _ => none

def ResourceMaps.record (m : ResourceMaps) (rnti : UInt16) (s : UeSplit) : ResourceMaps where
  allocated := Function.update m.allocated rnti (some s.allocRb)
  proactive := Function.update m.proactive rnti (some s.proactiveRb)
  spectralEfficiency :=
    if s.efficiency.isSet then Function.update m.spectralEfficiency rnti (some s.efficiency.value)
    else m.spectralEfficiency

/-- The demands that the triggers return, and what lay in `spectral_efficiency` before a user. -/
structure ResourceTrace where
  getProactiveBSR : UInt16 → Int32
  stack : UInt16 → ℚ

namespace ResourceTrace

variable (tr : ResourceTrace)

def toUlTrace : UlTrace where
  proactiveBSR rnti := (tr.getProactiveBSR rnti).toUInt32
  spectralEfficiency := tr.stack

/-- The conversion of a quotient to `uint32_t`. Only quotients by an efficiency that was never set
can lie outside the range. -/
def castUnsigned (x : ℚ) : UInt32 := UInt32.ofNat (Binary64.truncate x).toNat

def splitUe (beamSym : UInt32) (ues : UlUes μ) (ue : UePtrAndBufferReq) : Except Fault UeSplit := do
  let reactiveBuffer := ue.2 - (tr.getProactiveBSR ue.1).toUInt32
  let allocRb ← divide (ues ue.1).ulRBG beamSym
  let efficiency : SpectralEfficiency ←
    if allocRb = 0 then .ok ⟨tr.stack ue.1, false⟩
    else do
      let quotient ← divide (ues ue.1).metric.ulTbSize allocRb
      .ok ⟨quotient.toNat, true⟩
  -- `reactiveRb` and the inner `proactiveRb` are dropped
  let divisors := if 0 < efficiency.value then [efficiency] else []
  let proactiveAlloc := ((ues ue.1).metric.ulTbSize - reactiveBuffer).toInt32
  if 0 < proactiveAlloc then
    if efficiency.value = 0 then .error .division
    else
      .ok ⟨reactiveBuffer, allocRb,
        castUnsigned (Binary64.div proactiveAlloc.toInt efficiency.value), efficiency,
        divisors ++ [efficiency]⟩
  else .ok ⟨reactiveBuffer, allocRb, 0, efficiency, divisors⟩

def traceUe (ues : UlUes μ) (m : ResourceMaps) (beamSym : UInt32) (ue : UePtrAndBufferReq) :
    Except Fault ResourceMaps := do
  let s ← tr.splitUe beamSym ues ue
  .ok (m.record ue.1 s)

def traceResources (symPerBeam : UInt16 → UInt32) (ues : UlUes μ) (m : ResourceMaps)
    (activeUl : ActiveUeMap) : Except Fault ResourceMaps :=
  activeUl.foldlM (fun m el => el.2.foldlM (fun m ue => tr.traceUe ues m (symPerBeam el.1) ue) m) m

/-- The demand of a user without its proactive part. -/
def reactivePart (ue : UePtrAndBufferReq) : ℤ :=
  ue.2.toNat - (tr.getProactiveBSR ue.1).toInt

def allocatedRb (beamSym : UInt32) (ues : UlUes μ) (ue : UePtrAndBufferReq) : ℕ :=
  (ues ue.1).ulRBG.toNat / beamSym.toNat

def tbSize (ues : UlUes μ) (ue : UePtrAndBufferReq) : ℕ :=
  (ues ue.1).metric.ulTbSize.toNat

/-- The split of a user is as traced: its reactive buffer is the reactive part of its demand, what
it divides by and what it stores is its own TBS per RB, and no more RBs are proactive than
allocated. -/
structure UeTraced (beamSym : UInt32) (ues : UlUes μ) (ue : UePtrAndBufferReq) (m : ResourceMaps)
    (s : UeSplit) : Prop where
  split : tr.splitUe beamSym ues ue = .ok s
  reactive : (s.reactiveBuffer.toNat : ℤ) = tr.reactivePart ue
  divides : ∀ e ∈ s.divisors,
    e.isSet ∧ e.value = (tbSize ues ue : ℚ) / (allocatedRb beamSym ues ue : ℚ)
  stores : allocatedRb beamSym ues ue ≠ 0 →
    m.spectralEfficiency ue.1 = some ((tbSize ues ue : ℚ) / (allocatedRb beamSym ues ue : ℚ))
  allocated : m.allocated ue.1 = some (UInt32.ofNat (allocatedRb beamSym ues ue))
  proactive : ∃ n : UInt32, m.proactive ue.1 = some n ∧ n.toNat ≤ allocatedRb beamSym ues ue

/-- When the split of a user is right. -/
structure Splits (beamSym : UInt32) (ues : UlUes μ) (ue : UePtrAndBufferReq) : Prop where
  fits : 0 ≤ tr.reactivePart ue ∧ tr.reactivePart ue < 2 ^ 32
  whole : allocatedRb beamSym ues ue ≠ 0 → allocatedRb beamSym ues ue ∣ tbSize ues ue ∧
    (tr.reactivePart ue ≤ tbSize ues ue + 2 ^ 31 ∨
      2 ^ 32 < tr.reactivePart ue + tbSize ues ue / allocatedRb beamSym ues ue)
  idle : allocatedRb beamSym ues ue = 0 → tr.stack ue.1 ≤ 0 ∧
    (tbSize ues ue ≤ tr.reactivePart ue ∧ tr.reactivePart ue ≤ tbSize ues ue + 2 ^ 31 ∨
      tr.reactivePart ue + 2 ^ 31 ≤ tbSize ues ue)

variable {tr : ResourceTrace} {beamSym : UInt32} {ues : UlUes μ} {ue : UePtrAndBufferReq}

/-! ## One user -/

theorem toInt_toInt32 (x : UInt32) :
    x.toInt32.toInt = if 2 * x.toNat < 2 ^ 32 then (x.toNat : ℤ) else (x.toNat : ℤ) - 2 ^ 32 :=
  BitVec.toInt_eq_toNat_cond x.toBitVec

theorem toInt32_pos_iff (x : UInt32) : 0 < x.toInt32 ↔ 0 < x.toNat ∧ x.toNat < 2 ^ 31 := by
  have hLt := x.toNat_lt
  rw [Int32.lt_iff_toInt_lt, toInt_toInt32, Int32.toInt_zero]
  split <;> omega

theorem toNat_toUInt32 (p : Int32) : (p.toUInt32.toNat : ℤ) = p.toInt % 2 ^ 32 := by
  have hInt := toInt_toInt32 p.toUInt32
  rw [Int32.toInt32_toUInt32] at hInt
  have hLt := p.toUInt32.toNat_lt
  split at hInt <;> omega

/-- The subtraction does not wrap when the reactive part is a number of 32 bits. -/
theorem toNat_reactiveBuffer_iff (tr : ResourceTrace) (ue : UePtrAndBufferReq) :
    ((ue.2 - (tr.getProactiveBSR ue.1).toUInt32).toNat : ℤ) = tr.reactivePart ue ↔
      0 ≤ tr.reactivePart ue ∧ tr.reactivePart ue < 2 ^ 32 := by
  have hProactive := toNat_toUInt32 (tr.getProactiveBSR ue.1)
  have hLt := ue.2.toNat_lt
  have hLt' := (ue.2 - (tr.getProactiveBSR ue.1).toUInt32).toNat_lt
  rw [UInt32.toNat_sub] at hLt' ⊢
  rw [reactivePart]
  push_cast
  omega

theorem toNat_allocRb (beamSym : UInt32) (ues : UlUes μ) (ue : UePtrAndBufferReq) :
    ((ues ue.1).ulRBG / beamSym).toNat = allocatedRb beamSym ues ue := UInt32.toNat_div _ _

theorem allocRb_eq_zero_iff :
    (ues ue.1).ulRBG / beamSym = 0 ↔ allocatedRb beamSym ues ue = 0 := by
  rw [← toNat_allocRb, ← UInt32.toNat_inj]
  rfl

theorem castUnsigned_div {x q : ℕ} (hx : x < 2 ^ 32) (hq : 0 < q) :
    (castUnsigned (Binary64.div (x : ℚ) q)).toNat = x / q := by
  have hTruncate : Binary64.truncate (Binary64.div (x : ℚ) q) = ((x / q : ℕ) : ℤ) := by
    have hFloor := Int.floor_eq_iff.mp (Binary64.floor_div hx hq)
    rw [Int.cast_natCast] at hFloor
    exact Binary64.truncate_eq_of_le hFloor.1 hFloor.2
  rw [castUnsigned, hTruncate, Int.toNat_natCast, UInt32.toNat_ofNat']
  exact Nat.mod_eq_of_lt ((Nat.div_le_self x q).trans_lt hx)

theorem proactiveRb_toNat {x : UInt32} {q : ℕ} (hx : x.toNat < 2 ^ 31) (hq : 0 < q) :
    (castUnsigned (Binary64.div x.toInt32.toInt q)).toNat = x.toNat / q := by
  rw [toInt_toInt32, if_pos (by omega), Int.cast_natCast]
  exact castUnsigned_div x.toNat_lt hq

/-- What is right about the locals of an iteration. -/
structure Right (tr : ResourceTrace) (beamSym : UInt32) (ues : UlUes μ) (ue : UePtrAndBufferReq)
    (s : UeSplit) : Prop where
  reactive : (s.reactiveBuffer.toNat : ℤ) = tr.reactivePart ue
  divides : ∀ e ∈ s.divisors,
    e.isSet ∧ e.value = (tbSize ues ue : ℚ) / (allocatedRb beamSym ues ue : ℚ)
  sets : allocatedRb beamSym ues ue ≠ 0 → s.efficiency.isSet ∧
    s.efficiency.value = (tbSize ues ue : ℚ) / (allocatedRb beamSym ues ue : ℚ)
  within : s.proactiveRb.toNat ≤ allocatedRb beamSym ues ue

/-- Where the efficiency is whole, the bytes beyond the reactive part need no more than the allocated
RBs, unless their number wrapped. -/
theorem within_iff {t n r x : ℕ} (hn : n ≠ 0) (hDvd : n ∣ t) (ht : t < 2 ^ 32) (hr : r < 2 ^ 32)
    (hx : x = (2 ^ 32 - r + t) % 2 ^ 32) :
    (0 < x ∧ x < 2 ^ 31 → t / n ≠ 0 ∧ x / (t / n) ≤ n) ↔ r ≤ t + 2 ^ 31 ∨ 2 ^ 32 < r + t / n := by
  obtain ⟨q, rfl⟩ := hDvd
  rw [Nat.mul_div_cancel_left q (Nat.pos_of_ne_zero hn)]
  have hQuotient : q ≠ 0 → (x / q ≤ n ↔ x < n * q + q) := by
    intro hq
    rw [← Nat.lt_succ_iff, Nat.div_lt_iff_lt_mul (Nat.pos_of_ne_zero hq), Nat.succ_mul]
  constructor
  · intro hWithin
    rcases Nat.lt_or_ge (n * q + 2 ^ 31) r with hWraps | hNear
    · obtain ⟨hq, hLe⟩ := hWithin (by omega)
      rw [hQuotient hq] at hLe
      omega
    · exact .inl hNear
  · rintro hSmall ⟨hPos, hLt⟩
    have hq : q ≠ 0 := by
      rintro rfl
      rw [Nat.mul_zero] at hx hSmall
      omega
    rw [and_iff_right hq, hQuotient hq]
    omega

theorem traced_iff_of_idle (hSym : beamSym ≠ 0) (hIdle : allocatedRb beamSym ues ue = 0) :
    (∃ s, tr.splitUe beamSym ues ue = .ok s ∧ Right tr beamSym ues ue s) ↔
      tr.Splits beamSym ues ue := by
  have hFits := toNat_reactiveBuffer_iff tr ue
  have hPos := toInt32_pos_iff ((ues ue.1).metric.ulTbSize - (ue.2 - (tr.getProactiveBSR ue.1).toUInt32))
  have hLt := (ues ue.1).metric.ulTbSize.toNat_lt
  have hLt' := (ue.2 - (tr.getProactiveBSR ue.1).toUInt32).toNat_lt
  rw [UInt32.toNat_sub] at hPos
  rw [splitUe, divide_of_ne hSym, bind_ok]
  dsimp only
  rw [if_pos (allocRb_eq_zero_iff.mpr hIdle), bind_ok]
  constructor
  · rintro ⟨s, hSplit, hRight⟩
    split at hSplit
    · split at hSplit
      · cases hSplit
      · cases hSplit
        exact absurd (hRight.divides _ (List.mem_append_right _ List.mem_cons_self)).1 nofun
    · next hBelow =>
      cases hSplit
      have hReactive := hRight.reactive
      dsimp only at hReactive
      refine ⟨hFits.mp hReactive, fun h => absurd hIdle h, fun _ => ⟨?_, ?_⟩⟩
      · by_contra hStack
        have hDivides := hRight.divides
        dsimp only at hDivides
        rw [if_pos (not_le.mp hStack)] at hDivides
        exact absurd (hDivides _ List.mem_cons_self).1 nofun
      · rw [hPos] at hBelow
        rw [tbSize]
        omega
  · intro hSplits
    have hReactive := hFits.mpr hSplits.fits
    obtain ⟨hStack, hBelow⟩ := hSplits.idle hIdle
    rw [tbSize] at hBelow
    have hNotPos : ¬ 0 < ((ues ue.1).metric.ulTbSize -
        (ue.2 - (tr.getProactiveBSR ue.1).toUInt32)).toInt32 := by
      rw [hPos]
      omega
    rw [if_neg hNotPos, if_neg (not_lt.mpr hStack)]
    exact ⟨_, rfl, hReactive, fun e he => absurd he List.not_mem_nil, fun h => absurd hIdle h,
      Nat.zero_le _⟩

theorem natCast_div_eq_iff {t n : ℕ} (hn : n ≠ 0) : ((t / n : ℕ) : ℚ) = (t : ℚ) / n ↔ n ∣ t := by
  have hN : (n : ℚ) ≠ 0 := Nat.cast_ne_zero.mpr hn
  constructor
  · intro hEq
    rw [eq_div_iff hN] at hEq
    exact ⟨t / n, by rw [Nat.mul_comm]; exact_mod_cast hEq.symm⟩
  · exact fun hDvd => Nat.cast_div hDvd hN

/-- The bytes beyond the reactive buffer, as the difference of two numbers of 32 bits. -/
theorem toNat_proactiveAlloc (tr : ResourceTrace) (ues : UlUes μ) (ue : UePtrAndBufferReq) :
    ((ues ue.1).metric.ulTbSize - (ue.2 - (tr.getProactiveBSR ue.1).toUInt32)).toNat =
      (2 ^ 32 - (ue.2 - (tr.getProactiveBSR ue.1).toUInt32).toNat + tbSize ues ue) % 2 ^ 32 :=
  UInt32.toNat_sub _ _

theorem traced_iff_of_busy (hSym : beamSym ≠ 0) (hBusy : allocatedRb beamSym ues ue ≠ 0) :
    (∃ s, tr.splitUe beamSym ues ue = .ok s ∧ Right tr beamSym ues ue s) ↔
      tr.Splits beamSym ues ue := by
  have hSome : (ues ue.1).ulRBG / beamSym ≠ 0 := fun h => hBusy (allocRb_eq_zero_iff.mp h)
  have hFits := toNat_reactiveBuffer_iff tr ue
  have hAlloc := toNat_proactiveAlloc tr ues ue
  have hQuotient : ((ues ue.1).metric.ulTbSize / ((ues ue.1).ulRBG / beamSym)).toNat =
      tbSize ues ue / allocatedRb beamSym ues ue := by
    rw [UInt32.toNat_div, toNat_allocRb, tbSize]
  have hDvd := natCast_div_eq_iff (t := tbSize ues ue) hBusy
  have hWithin := fun h : allocatedRb beamSym ues ue ∣ tbSize ues ue =>
    within_iff hBusy h (ues ue.1).metric.ulTbSize.toNat_lt
      (ue.2 - (tr.getProactiveBSR ue.1).toUInt32).toNat_lt hAlloc
  rw [splitUe, divide_of_ne hSym, bind_ok]
  dsimp only
  rw [if_neg hSome, divide_of_ne hSome, bind_ok, bind_ok, hQuotient]
  dsimp only
  generalize ue.2 - (tr.getProactiveBSR ue.1).toUInt32 = reactiveBuffer at *
  generalize (ues ue.1).metric.ulTbSize - reactiveBuffer = proactiveAlloc at *
  have hPos := toInt32_pos_iff proactiveAlloc
  have hCast : proactiveAlloc.toNat < 2 ^ 31 → _ :=
    proactiveRb_toNat (q := tbSize ues ue / allocatedRb beamSym ues ue)
  constructor
  · rintro ⟨s, hSplit, hRight⟩
    have hReactive : (reactiveBuffer.toNat : ℤ) = tr.reactivePart ue := by
      split at hSplit
      · split at hSplit
        · cases hSplit
        · cases hSplit
          exact hRight.reactive
      · cases hSplit
        exact hRight.reactive
    have hWhole : allocatedRb beamSym ues ue ∣ tbSize ues ue := by
      rw [← hDvd, ← (hRight.sets hBusy).2]
      split at hSplit
      · split at hSplit
        · cases hSplit
        · cases hSplit
          rfl
      · cases hSplit
        rfl
    have hBound := (hWithin hWhole).mp fun hRange => by
      rw [if_pos (hPos.mpr hRange)] at hSplit
      split at hSplit
      · cases hSplit
      · next hq =>
        cases hSplit
        rw [Nat.cast_eq_zero] at hq
        have hLe := hRight.within
        rw [hCast hRange.2 (Nat.pos_of_ne_zero hq)] at hLe
        exact ⟨hq, hLe⟩
    refine ⟨hFits.mp hReactive, fun _ => ⟨hWhole, ?_⟩, fun h => absurd h hBusy⟩
    rw [← hReactive]
    exact_mod_cast hBound
  · intro hSplits
    have hReactive := hFits.mpr hSplits.fits
    obtain ⟨hWhole, hBound⟩ := hSplits.whole hBusy
    rw [← hReactive] at hBound
    have hInside := (hWithin hWhole).mpr (by exact_mod_cast hBound)
    have hValue := hDvd.mpr hWhole
    split
    · next hRange =>
      rw [hPos] at hRange
      obtain ⟨hq, hLe⟩ := hInside hRange
      rw [if_neg (Nat.cast_ne_zero.mpr hq)]
      refine ⟨_, rfl, hReactive, fun e he => ?_, fun _ => ⟨rfl, hValue⟩, ?_⟩
      · rw [if_pos (Nat.cast_pos.mpr (Nat.pos_of_ne_zero hq))] at he
        have hEfficiency : e = ⟨(tbSize ues ue / allocatedRb beamSym ues ue : ℕ), true⟩ := by
          simpa using he
        rw [hEfficiency]
        exact ⟨rfl, hValue⟩
      · dsimp only
        rw [hCast hRange.2 (Nat.pos_of_ne_zero hq)]
        exact hLe
    · refine ⟨_, rfl, hReactive, fun e he => ?_, fun _ => ⟨rfl, hValue⟩, Nat.zero_le _⟩
      have hEfficiency : e = ⟨(tbSize ues ue / allocatedRb beamSym ues ue : ℕ), true⟩ := by
        dsimp only at he
        split at he
        · exact List.mem_singleton.mp he
        · cases he
      rw [hEfficiency]
      exact ⟨rfl, hValue⟩

theorem traced_iff (hSym : beamSym ≠ 0) :
    (∃ s, tr.splitUe beamSym ues ue = .ok s ∧ Right tr beamSym ues ue s) ↔
      tr.Splits beamSym ues ue := by
  rcases eq_or_ne (allocatedRb beamSym ues ue) 0 with hIdle | hBusy
  · exact traced_iff_of_idle hSym hIdle
  · exact traced_iff_of_busy hSym hBusy

theorem splitUe_allocRb (hSym : beamSym ≠ 0) {s : UeSplit} (h : tr.splitUe beamSym ues ue = .ok s) :
    s.allocRb = (ues ue.1).ulRBG / beamSym := by
  rw [splitUe, divide_of_ne hSym, bind_ok] at h
  dsimp only at h
  split at h
  · rw [bind_ok] at h
    grind
  · next hSome =>
    rw [divide_of_ne hSome, bind_ok, bind_ok] at h
    grind

theorem splitUe_isSet (hSym : beamSym ≠ 0) (hBusy : allocatedRb beamSym ues ue ≠ 0) {s : UeSplit}
    (h : tr.splitUe beamSym ues ue = .ok s) : s.efficiency.isSet := by
  have hSome : (ues ue.1).ulRBG / beamSym ≠ 0 := fun h => hBusy (allocRb_eq_zero_iff.mp h)
  rw [splitUe, divide_of_ne hSym, bind_ok] at h
  dsimp only at h
  rw [if_neg hSome, divide_of_ne hSome, bind_ok, bind_ok] at h
  grind

/-! ## The maps -/

/-- The entries of a user are those of its split. -/
structure Shows (m : ResourceMaps) (rnti : UInt16) (s : UeSplit) : Prop where
  allocated : m.allocated rnti = some s.allocRb
  proactive : m.proactive rnti = some s.proactiveRb
  efficiency : s.efficiency.isSet → m.spectralEfficiency rnti = some s.efficiency.value

theorem shows_record (m : ResourceMaps) (rnti : UInt16) (s : UeSplit) :
    Shows (m.record rnti s) rnti s where
  allocated := Function.update_self ..
  proactive := Function.update_self ..
  efficiency hSet := by
    rw [ResourceMaps.record]
    dsimp only
    rw [if_pos hSet, Function.update_self]

theorem Shows.record {m : ResourceMaps} {rnti other : UInt16} {s s' : UeSplit} (h : Shows m rnti s)
    (hOther : rnti ≠ other) : Shows (m.record other s') rnti s where
  allocated := (Function.update_of_ne hOther _ _).trans h.allocated
  proactive := (Function.update_of_ne hOther _ _).trans h.proactive
  efficiency hSet := by
    rw [ResourceMaps.record]
    dsimp only
    split
    · rw [Function.update_of_ne hOther]
      exact h.efficiency hSet
    · exact h.efficiency hSet

/-- The users with the symbols of their beams, in the order of the two loops. -/
def requests (symPerBeam : UInt16 → UInt32) (activeUl : ActiveUeMap) :
    List (UInt32 × UePtrAndBufferReq) :=
  activeUl.flatMap fun el => el.2.map (Prod.mk (symPerBeam el.1))

theorem traceResources_eq (tr : ResourceTrace) (symPerBeam : UInt16 → UInt32) (ues : UlUes μ)
    (m : ResourceMaps) (activeUl : ActiveUeMap) :
    tr.traceResources symPerBeam ues m activeUl =
      (requests symPerBeam activeUl).foldlM (fun m r => tr.traceUe ues m r.1 r.2) m := by
  induction activeUl generalizing m with
  | nil => rfl
  | cons el activeUl ih =>
    rw [requests, List.flatMap_cons, List.foldlM_append, List.foldlM_map, traceResources,
      List.foldlM_cons]
    exact congrArg _ (funext fun m' => ih m')

variable {l : List (UInt32 × UePtrAndBufferReq)} {m m' : ResourceMaps}

theorem Shows.foldlM {rnti : UInt16} {s : UeSplit} (h : Shows m rnti s)
    (hFold : l.foldlM (fun m r => tr.traceUe ues m r.1 r.2) m = .ok m')
    (hNot : rnti ∉ l.map fun r => r.2.1) : Shows m' rnti s := by
  induction l generalizing m with
  | nil =>
    cases hFold
    exact h
  | cons r l ih =>
    rw [List.map_cons, List.mem_cons, not_or] at hNot
    rw [List.foldlM_cons, traceUe] at hFold
    cases hSplit : tr.splitUe r.1 ues r.2 with
    | error fault =>
      rw [hSplit] at hFold
      cases hFold
    | ok s' =>
      rw [hSplit] at hFold
      exact ih (h.record hNot.1) hFold hNot.2

theorem shows_of_foldlM (hFold : l.foldlM (fun m r => tr.traceUe ues m r.1 r.2) m = .ok m')
    (hDistinct : (l.map fun r => r.2.1).Nodup) {r : UInt32 × UePtrAndBufferReq} (hr : r ∈ l) :
    ∃ s, tr.splitUe r.1 ues r.2 = .ok s ∧ Shows m' r.2.1 s := by
  induction l generalizing m with
  | nil => cases hr
  | cons q l ih =>
    rw [List.map_cons, List.nodup_cons] at hDistinct
    rw [List.foldlM_cons, traceUe] at hFold
    cases hSplit : tr.splitUe q.1 ues q.2 with
    | error fault =>
      rw [hSplit] at hFold
      cases hFold
    | ok s =>
      rw [hSplit] at hFold
      rcases List.mem_cons.mp hr with rfl | hr
      · exact ⟨s, hSplit, (shows_record m r.2.1 s).foldlM hFold hDistinct.1⟩
      · exact ih hFold hDistinct.2 hr

theorem exists_foldlM (h : ∀ r ∈ l, ∃ s, tr.splitUe r.1 ues r.2 = .ok s) (m : ResourceMaps) :
    ∃ m', l.foldlM (fun m r => tr.traceUe ues m r.1 r.2) m = .ok m' := by
  induction l generalizing m with
  | nil => exact ⟨m, rfl⟩
  | cons r l ih =>
    obtain ⟨s, hSplit⟩ := h r List.mem_cons_self
    obtain ⟨m', hFold⟩ := ih (fun q hq => h q (List.mem_cons_of_mem r hq)) (m.record r.2.1 s)
    refine ⟨m', ?_⟩
    rw [List.foldlM_cons, traceUe, hSplit]
    exact hFold

theorem ueTraced_iff (hSym : beamSym ≠ 0) (hShows : ∀ s, tr.splitUe beamSym ues ue = .ok s →
    Shows m' ue.1 s) :
    (∃ s, tr.UeTraced beamSym ues ue m' s) ↔ tr.Splits beamSym ues ue := by
  rw [← traced_iff hSym]
  refine exists_congr fun s => ⟨fun h => ⟨h.split, ?_⟩, fun ⟨hSplit, hRight⟩ => ?_⟩
  · have hShown := hShows s h.split
    obtain ⟨n, hProactive, hLe⟩ := h.proactive
    rw [hShown.proactive] at hProactive
    cases hProactive
    refine ⟨h.reactive, h.divides, fun hBusy => ?_, hLe⟩
    have hSet : s.efficiency.isSet := splitUe_isSet hSym hBusy h.split
    have hStores := h.stores hBusy
    rw [hShown.efficiency hSet] at hStores
    exact ⟨hSet, Option.some.inj hStores⟩
  · have hShown := hShows s hSplit
    refine ⟨hSplit, hRight.reactive, hRight.divides, fun hBusy => ?_, ?_, _, hShown.proactive,
      hRight.within⟩
    · obtain ⟨hSet, hValue⟩ := hRight.sets hBusy
      rw [hShown.efficiency hSet, hValue]
    · rw [hShown.allocated, splitUe_allocRb hSym hSplit, ← toNat_allocRb, UInt32.ofNat_toNat]

/-- The resources of a slot are traced right for all users when every user meets the condition. -/
theorem traceResources_traced_iff (tr : ResourceTrace) (symPerBeam : UInt16 → UInt32)
    (ues : UlUes μ) (m : ResourceMaps) (activeUl : ActiveUeMap)
    (hSym : ∀ el ∈ activeUl, symPerBeam el.1 ≠ 0)
    (hDistinct : (activeUl.flatMap fun el => el.2.map Prod.fst).Nodup) :
    (∃ m', tr.traceResources symPerBeam ues m activeUl = .ok m' ∧
      ∀ el ∈ activeUl, ∀ ue ∈ el.2, ∃ s, tr.UeTraced (symPerBeam el.1) ues ue m' s) ↔
      ∀ el ∈ activeUl, ∀ ue ∈ el.2, tr.Splits (symPerBeam el.1) ues ue := by
  have hMem : ∀ el ∈ activeUl, ∀ ue ∈ el.2, (symPerBeam el.1, ue) ∈ requests symPerBeam activeUl :=
    fun el hEl ue hUe => List.mem_flatMap.mpr ⟨el, hEl, List.mem_map_of_mem hUe⟩
  have hUsers : ((requests symPerBeam activeUl).map fun r => r.2.1).Nodup := by
    rwa [requests, List.map_flatMap, List.flatMap_congr fun el _ => List.map_map ..]
  rw [traceResources_eq]
  constructor
  · rintro ⟨m', hFold, hTraced⟩ el hEl ue hUe
    refine (ueTraced_iff (hSym el hEl) fun s hSplit => ?_).mp (hTraced el hEl ue hUe)
    obtain ⟨s', hSplit', hShows⟩ := shows_of_foldlM hFold hUsers (hMem el hEl ue hUe)
    cases hSplit.symm.trans hSplit'
    exact hShows
  · intro hSplits
    have hEach : ∀ r ∈ requests symPerBeam activeUl, ∃ s, tr.splitUe r.1 ues r.2 = .ok s := by
      intro r hr
      obtain ⟨el, hEl, hr⟩ := List.mem_flatMap.mp hr
      obtain ⟨ue, hUe, rfl⟩ := List.mem_map.mp hr
      obtain ⟨s, hSplit, -⟩ := (traced_iff (hSym el hEl)).mpr (hSplits el hEl ue hUe)
      exact ⟨s, hSplit⟩
    obtain ⟨m', hFold⟩ := exists_foldlM hEach m
    refine ⟨m', hFold, fun el hEl ue hUe => ?_⟩
    refine (ueTraced_iff (hSym el hEl) fun s hSplit => ?_).mpr (hSplits el hEl ue hUe)
    obtain ⟨s', hSplit', hShows⟩ := shows_of_foldlM hFold hUsers (hMem el hEl ue hUe)
    cases hSplit.symm.trans hSplit'
    exact hShows

theorem traceResources_traced_half : ∃ m', traceResources ⟨fun _ => 2, fun _ => 0⟩ (fun _ => 1)
    (fun _ => { ulRBG := 2, metric := ⟨4, ()⟩ } : UlUes Unit) {} [(0, [(1, 4)])] = .ok m' ∧
      ∀ el ∈ [((0 : UInt16), [((1 : UInt16), (4 : UInt32))])], ∀ ue ∈ el.2, ∃ s,
        UeTraced ⟨fun _ => 2, fun _ => 0⟩ 1 (fun _ => { ulRBG := 2, metric := ⟨4, ()⟩ } : UlUes Unit)
          ue m' s :=
  (traceResources_traced_iff ⟨fun _ => 2, fun _ => 0⟩ (fun _ => 1) _ {} [(0, [(1, 4)])]
    (by decide) (by decide)).mpr (by
      simp only [List.forall_mem_singleton]
      exact ⟨by decide, fun _ => by decide, fun h => absurd h (by decide)⟩)

/-- The 16 bytes of 6 RBs are 2 whole bytes per RB, and so need 8 RBs. -/
theorem proactive_exceeds_allocated :
    (∃ m', traceResources ⟨fun _ => 16, fun _ => 0⟩ (fun _ => 1)
      (fun _ => { ulRBG := 6, metric := ⟨16, ()⟩ } : UlUes Unit) {} [(0, [(1, 16)])] = .ok m' ∧
        m'.allocated 1 = some 6 ∧ m'.proactive 1 = some 8) ∧
      ¬ ∃ m', traceResources ⟨fun _ => 16, fun _ => 0⟩ (fun _ => 1)
        (fun _ => { ulRBG := 6, metric := ⟨16, ()⟩ } : UlUes Unit) {} [(0, [(1, 16)])] = .ok m' ∧
          ∀ el ∈ [((0 : UInt16), [((1 : UInt16), (16 : UInt32))])], ∀ ue ∈ el.2, ∃ s,
            UeTraced ⟨fun _ => 16, fun _ => 0⟩ 1
              (fun _ => { ulRBG := 6, metric := ⟨16, ()⟩ } : UlUes Unit) ue m' s := by
  have hCast : castUnsigned (Binary64.div (16 : ℚ) 2) = 8 := by
    rw [← UInt32.toNat_inj]
    exact castUnsigned_div (x := 16) (q := 2) (by decide) (by decide)
  have hSplit : splitUe ⟨fun _ => 16, fun _ => 0⟩ 1
      (fun _ => { ulRBG := 6, metric := ⟨16, ()⟩ } : UlUes Unit) (1, 16) =
        .ok ⟨0, 6, 8, ⟨2, true⟩, [⟨2, true⟩, ⟨2, true⟩]⟩ := by
    rw [← hCast]
    rfl
  have hTrace : traceResources ⟨fun _ => 16, fun _ => 0⟩ (fun _ => 1)
      (fun _ => { ulRBG := 6, metric := ⟨16, ()⟩ } : UlUes Unit) {} [(0, [(1, 16)])] =
        .ok (ResourceMaps.record {} 1 ⟨0, 6, 8, ⟨2, true⟩, [⟨2, true⟩, ⟨2, true⟩]⟩) := by
    rw [traceResources_eq]
    simp only [requests, List.flatMap_cons, List.map_cons, List.map_nil, List.flatMap_nil,
      List.append_nil, List.foldlM_cons, List.foldlM_nil, traceUe, hSplit]
    rfl
  refine ⟨⟨_, hTrace, rfl, rfl⟩, ?_⟩
  rintro ⟨m', hFold, hTraced⟩
  rw [hTrace] at hFold
  cases hFold
  obtain ⟨s, hUe⟩ := hTraced _ List.mem_cons_self _ List.mem_cons_self
  obtain ⟨n, hProactive, hLe⟩ := hUe.proactive
  cases hProactive
  exact absurd hLe (by decide)

/-! ## The divisions and the demand -/

/-- The split of a user divides by zero exactly where its traces do. -/
theorem splitUe_ne_division_iff (hSym : beamSym ≠ 0) :
    tr.splitUe beamSym ues ue ≠ .error .division ↔
      tr.toUlTrace.traceUe beamSym ues ue ≠ .error .division := by
  rw [UlTrace.traceUe_eq hSym, splitUe, divide_of_ne hSym, bind_ok]
  dsimp only
  rcases eq_or_ne ((ues ue.1).ulRBG / beamSym) 0 with hIdle | hBusy
  · have hEfficiency : tr.toUlTrace.efficiency beamSym ues ue = tr.stack ue.1 := if_pos hIdle
    rw [if_pos hIdle, bind_ok]
    dsimp only [toUlTrace] at hEfficiency ⊢
    simp only [hEfficiency]
    grind
  · have hEfficiency : tr.toUlTrace.efficiency beamSym ues ue =
        ((ues ue.1).metric.ulTbSize / ((ues ue.1).ulRBG / beamSym)).toNat := if_neg hBusy
    rw [if_neg hBusy, divide_of_ne hBusy, bind_ok, bind_ok]
    dsimp only [toUlTrace] at hEfficiency ⊢
    simp only [hEfficiency]
    grind

variable {groups groups' : List NrMacSchedulerLCG} {proactiveBSR : UInt32}

theorem updateProactiveBSR_totalSize {g h : NrMacSchedulerLCG} (hOne : g.lcMap.length = 1)
    (hUpdate : g.updateProactiveBSR proactiveBSR = some h) :
    h.totalSize = g.reactiveTotalSize + proactiveBSR := by
  obtain ⟨lc, hLc⟩ := List.length_eq_one_iff.mp hOne
  rw [NrMacSchedulerLCG.updateProactiveBSR, NrMacSchedulerLCG.lcIdPart, hLc] at hUpdate
  cases hUpdate
  rw [NrMacSchedulerLCG.totalSize, NrMacSchedulerLCG.reactiveTotalSize, hLc]
  simp [NrMacSchedulerLC.totalSize, NrMacSchedulerLC.reactiveTotalSize]

theorem toNat_totBuffer (hFits : (groups.map (·.totalSize.toNat)).sum < 2 ^ 32) :
    (totBuffer groups).toNat = (groups.map (·.totalSize.toNat)).sum := by
  induction groups with
  | nil => rfl
  | cons g groups ih =>
    rw [List.map_cons, List.sum_cons] at hFits ⊢
    have ih := ih (by omega)
    rw [totBuffer] at ih ⊢
    rw [List.map_cons, List.sum_cons, UInt32.toNat_add, ih]
    exact Nat.mod_eq_of_lt hFits

/-- Right after `ComputeActiveUe` the demand holds its proactive part, unless a sum wraps: the
group 2 of the user has it. -/
theorem fits_of_computeActiveUe {rnti : UInt16} (hOne : OneChannel groups)
    {g : NrMacSchedulerLCG} (hGroup : g ∈ groups) (hTwo : g.id = 2)
    (hNonneg : 0 ≤ (tr.getProactiveBSR rnti).toInt)
    (hFits : g.reactiveTotalSize.toNat + (tr.getProactiveBSR rnti).toInt < 2 ^ 32)
    (hActive : computeActiveUe (tr.getProactiveBSR rnti).toUInt32 groups = some groups')
    (hTotal : (groups'.map (·.totalSize.toNat)).sum < 2 ^ 32) :
    0 ≤ tr.reactivePart (rnti, totBuffer groups') ∧
      tr.reactivePart (rnti, totBuffer groups') < 2 ^ 32 := by
  have hProactive := toNat_toUInt32 (tr.getProactiveBSR rnti)
  have hLt := (totBuffer groups').toNat_lt
  obtain ⟨h, hMem, hUpdate⟩ : ∃ h ∈ groups',
      g.updateProactiveBSR (tr.getProactiveBSR rnti).toUInt32 = some h := by
    obtain ⟨h, hMem, hUpdate⟩ := PartialRun.exists_of_mapM hActive hGroup
    exact ⟨h, hMem, by rwa [if_pos hTwo] at hUpdate⟩
  have hSize := congrArg UInt32.toNat (updateProactiveBSR_totalSize (hOne g hGroup) hUpdate)
  have hLe : h.totalSize.toNat ≤ (groups'.map (·.totalSize.toNat)).sum :=
    List.le_sum_of_mem (List.mem_map_of_mem hMem)
  rw [UInt32.toNat_add] at hSize
  rw [reactivePart, toNat_totBuffer hTotal]
  dsimp only
  omega

end ResourceTrace

end Bullet.Mac
