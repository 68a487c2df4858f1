import Bullet.Phy.NrEesmErrorModel
import Mathlib.Algebra.Order.Floor.Div

/-! # Transport block sizes

The bytes of a payload that are left of it after the CRCs of its code blocks.
-/

namespace Bullet.Phy

open Lib

/-- What is asked of an error model. It has sizes for each of its MCSs, and its code blocks have
room for a CRC. -/
structure NrErrorModel where
  getMaxMcs : UInt8
  getPayloadSize : UInt32 → UInt8 → UInt32 → Option UInt32
  getMaxCbSize : UInt32 → UInt8 → Option UInt32
  payload_defined : ∀ usefulSc mcs rbNum, mcs ≤ getMaxMcs →
    ∃ size, getPayloadSize usefulSc mcs rbNum = some size
  cb_defined : ∀ tbSize mcs, mcs ≤ getMaxMcs →
    ∃ size, getMaxCbSize tbSize mcs = some size ∧ 3 ≤ size.toNat

theorem McsTables.spectralEfficiency_defined (tables : McsTables) (usefulSc rbNum : UInt32)
    {mcs : UInt8} (hMcs : mcs.toNat < tables.mcsEcrTable.length) :
    ∃ x, tables.spectralEfficiency usefulSc mcs rbNum = some x ∧ 0 ≤ x ∧ x ≤ 2 ^ 33 := by
  have hOrder := hMcs.trans_le tables.orders_le
  obtain ⟨hRate, hRateLe⟩ := tables.rate_mem _ (List.getElem_mem hMcs)
  refine ⟨_, spectralEfficiency_eq (List.getElem?_eq_getElem hMcs)
    (List.getElem?_eq_getElem hOrder) usefulSc rbNum, ?_⟩
  generalize usefulSc * rbNum * _ = bits
  generalize tables.mcsEcrTable[mcs.toNat] = rate at hRate hRateLe
  have hBits : (bits.toNat : ℚ) ≤ 2 ^ 32 := by exact_mod_cast bits.toNat_lt.le
  have hProduct : (bits.toNat : ℚ) * rate ≤ 2 ^ 32 :=
    (mul_le_of_le_one_right (Nat.cast_nonneg _) hRateLe).trans hBits
  have hNonneg : 0 ≤ (bits.toNat : ℚ) * rate := mul_nonneg (Nat.cast_nonneg _) hRate
  have hError := Binary64.abs_round_sub_le ((bits.toNat : ℚ) * rate)
  rw [abs_of_nonneg hNonneg] at hError
  norm_num [abs_le] at hError
  rw [Binary64.mul]
  constructor <;> linarith

theorem div_eight_bounds {x : ℚ} (h0 : 0 ≤ x) (h : x ≤ 2 ^ 33) :
    0 ≤ Binary64.div x 8 ∧ Binary64.div x 8 < 2 ^ 32 := by
  have hNonneg : 0 ≤ x / 8 := by positivity
  have hError := Binary64.abs_round_sub_le (x / 8)
  rw [abs_of_nonneg hNonneg] at hError
  norm_num [abs_le] at hError
  rw [Binary64.div]
  constructor <;> linarith

theorem castUInt32_floor {x : ℚ} (h0 : 0 ≤ x) (h : x < 2 ^ 32) :
    ∃ size, castUInt32 ⌊x⌋ = some size := by
  refine ⟨_, if_pos ⟨Int.floor_nonneg.mpr h0, ?_⟩⟩
  rw [Int.floor_lt]
  exact_mod_cast h

namespace NrEesmErrorModel

theorem lt_length (m : NrEesmErrorModel) {mcs : UInt8} (h : mcs ≤ m.getMaxMcs) :
    mcs.toNat < m.tables.mcsEcrTable.length := by
  have hPos := m.tables.length_pos
  have hLe := m.tables.length_le
  have hWidth : m.tables.mcsEcrTable.length - 1 < 2 ^ 8 := by omega
  rw [UInt8.le_iff_toNat_le, getMaxMcs, UInt8.toNat_ofNat_of_lt' hWidth] at h
  omega

def toNrErrorModel (m : NrEesmErrorModel) : NrErrorModel where
  getMaxMcs := m.getMaxMcs
  getPayloadSize := m.getPayloadSize
  getMaxCbSize := m.getMaxCbSize
  payload_defined usefulSc mcs rbNum h := by
    obtain ⟨x, hSome, hNonneg, hLe⟩ :=
      m.tables.spectralEfficiency_defined usefulSc rbNum (m.lt_length h)
    obtain ⟨hLow, hHigh⟩ := div_eight_bounds hNonneg hLe
    rw [getPayloadSize_eq hSome]
    exact castUInt32_floor hLow hHigh
  cb_defined tbSize mcs h := by
    have hBack : liftingSizeTableBG.getLast? = some 384 := rfl
    rw [getMaxCbSize, getBaseGraphType, List.getElem?_eq_getElem (m.lt_length h), hBack]
    simp only [Option.bind_eq_bind, Option.bind_some]
    split
    · exact ⟨_, rfl, by decide⟩
    · exact ⟨_, rfl, by decide⟩

end NrEesmErrorModel

namespace NrLteMiErrorModel

def mcsTables : McsTables :=
  .ofHundredths
    [8, 10, 11, 15, 19, 24, 30, 37, 44, 51,
      30, 33, 37, 42, 48, 54, 60, 43, 45, 50,
      55, 60, 65, 70, 75, 80, 85, 89, 92]
    [2, 2, 2, 2, 2, 2, 2, 2, 2, 2, 4, 4, 4, 4, 4, 4, 4, 6, 6, 6, 6, 6, 6, 6, 6, 6, 6, 6, 6,
      2, 4, 6]
    (by decide) (by decide) (by decide) (by decide)

/-- The last entry of the table of code block sizes. -/
def cbSizeTableBack : UInt16 := 6144

def toNrErrorModel : NrErrorModel where
  getMaxMcs := 28
  getPayloadSize usefulSc mcs rbNum := do
    let spectralEfficiency ← mcsTables.spectralEfficiency usefulSc mcs rbNum
    castUInt32 (Binary64.truncate (Binary64.div spectralEfficiency 8))
  getMaxCbSize _ _ := some (cbSizeTableBack.toUInt32 / 8)
  payload_defined usefulSc mcs rbNum h := by
    have hMcs : mcs.toNat < mcsTables.mcsEcrTable.length := Nat.lt_succ_of_le h
    obtain ⟨x, hSome, hNonneg, hLe⟩ := mcsTables.spectralEfficiency_defined usefulSc rbNum hMcs
    obtain ⟨hLow, hHigh⟩ := div_eight_bounds hNonneg hLe
    rw [hSome, Option.bind_eq_bind, Option.bind_some, Binary64.truncate, if_neg hLow.not_gt]
    exact castUInt32_floor hLow hHigh
  cb_defined _ _ _ := ⟨_, rfl, by decide⟩

end NrLteMiErrorModel

inductive ErrorModelType where
  | nrEesmIrT1
  | nrEesmIrT2
  | nrEesmCcT1
  | nrEesmCcT2
  | nrLteMi
  | lena
deriving DecidableEq, Repr

structure NrAmc where
  errorModelType : ErrorModelType
  errorModel : NrErrorModel
  numRefScPerRb : UInt8
  numRefScPerRb_le : numRefScPerRb ≤ 12

def subcarriersPerRb : UInt8 := 12

/-- The bytes of a CRC. -/
def crcLen : UInt32 := 24 / 8

namespace NrAmc

def getPayloadSize (amc : NrAmc) (mcs : UInt8) (nprb : UInt32) : Option UInt32 :=
  amc.errorModel.getPayloadSize (subcarriersPerRb - amc.numRefScPerRb).toUInt32 mcs nprb

def calculateTbSize (amc : NrAmc) (mcs : UInt8) (nprb : UInt32) : Option UInt32 := do
  guard (mcs ≤ amc.errorModel.getMaxMcs)
  let payloadSize ← amc.getPayloadSize mcs nprb
  if amc.errorModelType ≠ .lena then
    let tbSize := if crcLen ≤ payloadSize then payloadSize - crcLen else payloadSize
    let cbSize ← amc.errorModel.getMaxCbSize payloadSize mcs
    if cbSize < tbSize then
      -- The quotient is an integer before `ceil` gets it.
      let c : ℚ := ⌈((tbSize / cbSize).toNat : ℚ)⌉
      let crcs ← castUInt32 (Binary64.truncate (Binary64.mul c crcLen.toNat))
      some (payloadSize - crcs)
    else some tbSize
  else some payloadSize

/-- The bytes of the CRCs of a transport block with `payload` bytes for it and its CRCs. -/
def crcBytes (payload cbSize : ℕ) : ℕ :=
  if payload - 3 ≤ cbSize then 3 else (payload - 3) ⌈/⌉ cbSize * 3

/-- A transport block has room for its CRCs in the payload. -/
def HasRoom (amc : NrAmc) (mcs : UInt8) (nprb : UInt32) : Prop :=
  ∃ payload cbSize tbSize : UInt32, amc.getPayloadSize mcs nprb = some payload ∧
    amc.errorModel.getMaxCbSize payload mcs = some cbSize ∧
    amc.calculateTbSize mcs nprb = some tbSize ∧
    tbSize.toNat + crcBytes payload.toNat cbSize.toNat ≤ payload.toNat

/-- A payload for a CRC and a block that is a single code block, or full ones only. -/
def DividesEvenly (amc : NrAmc) (mcs : UInt8) (nprb : UInt32) : Prop :=
  ∃ payload cbSize : UInt32, amc.getPayloadSize mcs nprb = some payload ∧
    amc.errorModel.getMaxCbSize payload mcs = some cbSize ∧ 3 ≤ payload.toNat ∧
    (payload.toNat - 3 ≤ cbSize.toNat ∨ cbSize.toNat ∣ payload.toNat - 3)

theorem castUInt32_natCast {n : ℕ} (h : n < 2 ^ 32) : castUInt32 n = some (UInt32.ofNat n) := by
  rw [castUInt32, if_pos ⟨Int.natCast_nonneg n, by exact_mod_cast h⟩, Int.toNat_natCast]

theorem crcs_spec (tbSize : UInt32) {cbSize : UInt32} (h : 3 ≤ cbSize.toNat) :
    ∃ crcs, castUInt32 (Binary64.truncate (Binary64.mul
        (⌈((tbSize / cbSize).toNat : ℚ)⌉ : ℚ) crcLen.toNat)) = some crcs ∧
      crcs.toNat = tbSize.toNat / cbSize.toNat * 3 ∧ crcs.toNat ≤ tbSize.toNat := by
  have hBlocks : tbSize.toNat / cbSize.toNat * 3 ≤ tbSize.toNat :=
    (Nat.mul_le_mul_left _ h).trans (Nat.div_mul_le_self _ _)
  have hFits : tbSize.toNat / cbSize.toNat * 3 < 2 ^ 32 := hBlocks.trans_lt tbSize.toNat_lt
  have hExact : Binary64.mul (⌈((tbSize / cbSize).toNat : ℚ)⌉ : ℚ) crcLen.toNat =
      (tbSize.toNat / cbSize.toNat * 3 : ℕ) := by
    rw [Int.ceil_natCast, Int.cast_natCast, UInt32.toNat_div, Binary64.mul, ← Nat.cast_mul]
    exact Binary64.round_natCast (hFits.trans (by decide))
  refine ⟨UInt32.ofNat (tbSize.toNat / cbSize.toNat * 3), ?_⟩
  rw [hExact, Binary64.truncate_eq_of_le le_rfl (lt_add_one _), castUInt32_natCast hFits,
    UInt32.toNat_ofNat_of_lt' hFits]
  exact ⟨rfl, rfl, hBlocks⟩

/-- What is left of a payload after one CRC for each full code block. -/
def leftOver (payload cbSize : ℕ) : ℕ :=
  if payload < 3 then payload
  else if payload - 3 ≤ cbSize then payload - 3
  else payload - (payload - 3) / cbSize * 3

variable {amc : NrAmc} {mcs : UInt8} {nprb payload cbSize : UInt32}

theorem calculateTbSize_lena (hMcs : mcs ≤ amc.errorModel.getMaxMcs)
    (hType : amc.errorModelType = .lena) (hPayload : amc.getPayloadSize mcs nprb = some payload) :
    amc.calculateTbSize mcs nprb = some payload := by
  rw [calculateTbSize, guard, if_pos hMcs, hPayload, hType]
  rfl

theorem calculateTbSize_spec (hMcs : mcs ≤ amc.errorModel.getMaxMcs)
    (hType : amc.errorModelType ≠ .lena) (hPayload : amc.getPayloadSize mcs nprb = some payload)
    (hCb : amc.errorModel.getMaxCbSize payload mcs = some cbSize) (hThree : 3 ≤ cbSize.toNat) :
    ∃ tbSize, amc.calculateTbSize mcs nprb = some tbSize ∧
      tbSize.toNat = leftOver payload.toNat cbSize.toNat := by
  rw [calculateTbSize, guard, if_pos hMcs, hPayload]
  simp only [Option.bind_eq_bind, Option.bind_some, if_pos hType, hCb]
  have hTb : (if crcLen ≤ payload then payload - crcLen else payload).toNat =
      if payload.toNat < 3 then payload.toNat else payload.toNat - 3 := by
    have hCrc : crcLen ≤ payload ↔ 3 ≤ payload.toNat := UInt32.le_iff_toNat_le
    split
    · rename_i hLarge
      rw [UInt32.toNat_sub_of_le _ _ hLarge, if_neg (not_lt.mpr (hCrc.mp hLarge))]
      rfl
    · rename_i hSmall
      rw [if_pos (not_le.mp (mt hCrc.mpr hSmall))]
  generalize (if crcLen ≤ payload then payload - crcLen else payload) = tb at hTb ⊢
  obtain ⟨crcs, hCast, hCrcs, hCrcsLe⟩ := crcs_spec tb hThree
  rw [hCast]
  rcases lt_or_ge cbSize.toNat tb.toNat with hSegmented | hSingle
  · refine ⟨payload - crcs, ?_, ?_⟩
    · rw [if_pos (UInt32.lt_iff_toNat_lt.mpr hSegmented)]
      rfl
    · have hLarge : ¬ payload.toNat < 3 := by
        intro hSmall
        rw [if_pos hSmall] at hTb
        omega
      rw [if_neg hLarge] at hTb
      have hLe : crcs ≤ payload := UInt32.le_iff_toNat_le.mpr (by omega)
      rw [UInt32.toNat_sub_of_le _ _ hLe, hCrcs, hTb, leftOver, if_neg hLarge, if_neg (by omega)]
  · refine ⟨tb, ?_, ?_⟩
    · rw [if_neg (mt UInt32.lt_iff_toNat_lt.mp hSingle.not_gt)]
      rfl
    · rw [hTb, leftOver]
      split
      · rfl
      · rename_i hLarge
        rw [if_neg hLarge] at hTb
        rw [if_pos (hTb ▸ hSingle)]

theorem leftOver_le (payload cbSize : ℕ) : leftOver payload cbSize ≤ payload := by
  rw [leftOver]
  split
  · exact le_rfl
  split
  · exact Nat.sub_le _ _
  · exact Nat.sub_le _ _

/-- No subtraction of the CRCs wraps. -/
theorem calculateTbSize_le {tbSize : UInt32} (hMcs : mcs ≤ amc.errorModel.getMaxMcs)
    (hPayload : amc.getPayloadSize mcs nprb = some payload)
    (hTbSize : amc.calculateTbSize mcs nprb = some tbSize) : tbSize ≤ payload := by
  by_cases hType : amc.errorModelType = .lena
  · have hSame := calculateTbSize_lena hMcs hType hPayload
    exact (Option.some.inj (hTbSize.symm.trans hSame)) ▸ UInt32.le_refl _
  · obtain ⟨cbSize, hCb, hThree⟩ := amc.errorModel.cb_defined payload mcs hMcs
    obtain ⟨tbSize', hSome, hLeft⟩ := calculateTbSize_spec hMcs hType hPayload hCb hThree
    obtain rfl := Option.some.inj (hTbSize.symm.trans hSome)
    rw [UInt32.le_iff_toNat_le, hLeft]
    exact leftOver_le _ _

/-- The whole blocks are fewer than the code blocks, unless they divide the block. -/
theorem ceilDiv_le_div_iff {n c : ℕ} (hc : 0 < c) : n ⌈/⌉ c ≤ n / c ↔ c ∣ n := by
  rw [ceilDiv_le_iff_le_mul hc, Nat.dvd_iff_mod_eq_zero]
  have hSplit := Nat.div_add_mod n c
  omega

theorem crcBytes_pos (payload : ℕ) {cbSize : ℕ} (hCb : 3 ≤ cbSize) :
    0 < crcBytes payload cbSize := by
  rw [crcBytes]
  split
  · exact Nat.zero_lt_succ 2
  · rename_i hSegmented
    rw [Nat.ceilDiv_eq_add_pred_div]
    exact Nat.mul_pos (Nat.div_pos (by omega) (by omega)) (Nat.zero_lt_succ 2)

theorem leftOver_add_crcBytes_le_iff {payload cbSize : ℕ} (hCb : 3 ≤ cbSize) :
    leftOver payload cbSize + crcBytes payload cbSize ≤ payload ↔
      3 ≤ payload ∧ (payload - 3 ≤ cbSize ∨ cbSize ∣ payload - 3) := by
  rw [leftOver, crcBytes]
  split
  · rename_i hSmall
    rw [if_pos (by omega)]
    omega
  split
  · omega
  · rename_i hLarge hSegmented
    have hBlocks : (payload - 3) / cbSize * 3 ≤ payload - 3 :=
      (Nat.mul_le_mul_left _ hCb).trans (Nat.div_mul_le_self _ _)
    have hCount := ceilDiv_le_div_iff (n := payload - 3) (by omega : 0 < cbSize)
    omega

/-- The block and its CRCs fit the payload when the last code block is full. -/
theorem calculateTbSize_hasRoom_iff (amc : NrAmc) (mcs : UInt8) (nprb : UInt32)
    (hMcs : mcs ≤ amc.errorModel.getMaxMcs) :
    amc.HasRoom mcs nprb ↔ amc.errorModelType ≠ .lena ∧ amc.DividesEvenly mcs nprb := by
  by_cases hType : amc.errorModelType = .lena
  · refine iff_of_false ?_ fun h => h.1 hType
    rintro ⟨payload, cbSize, tbSize, hPayload, hCb, hCalculate, hRoom⟩
    obtain ⟨cbSize', hCb', hThree⟩ := amc.errorModel.cb_defined payload mcs hMcs
    obtain rfl := Option.some.inj (hCb.symm.trans hCb')
    obtain rfl := Option.some.inj ((calculateTbSize_lena hMcs hType hPayload).symm.trans hCalculate)
    have hPos := crcBytes_pos payload.toNat hThree
    omega
  obtain ⟨payload, hPayload⟩ := amc.errorModel.payload_defined
    (subcarriersPerRb - amc.numRefScPerRb).toUInt32 mcs nprb hMcs
  obtain ⟨cbSize, hCb, hThree⟩ := amc.errorModel.cb_defined payload mcs hMcs
  obtain ⟨tbSize, hCalculate, hTb⟩ := calculateTbSize_spec hMcs hType hPayload hCb hThree
  have hIff := @leftOver_add_crcBytes_le_iff payload.toNat _ hThree
  rw [← hTb] at hIff
  constructor
  · rintro ⟨payload', cbSize', tbSize', hPayload', hCb', hCalculate', hRoom⟩
    obtain rfl := Option.some.inj (hPayload.symm.trans hPayload')
    obtain rfl := Option.some.inj (hCb.symm.trans hCb')
    obtain rfl := Option.some.inj (hCalculate.symm.trans hCalculate')
    exact ⟨hType, payload, cbSize, hPayload, hCb, hIff.mp hRoom⟩
  · rintro ⟨-, payload', cbSize', hPayload', hCb', hDivides⟩
    obtain rfl := Option.some.inj (hPayload.symm.trans hPayload')
    obtain rfl := Option.some.inj (hCb.symm.trans hCb')
    exact ⟨payload, cbSize, tbSize, hPayload, hCb, hCalculate, hIff.mpr hDivides⟩

/-! ## The highest MCS of the first table -/

def eesmIrT1 : NrAmc where
  errorModelType := .nrEesmIrT1
  errorModel := NrEesmErrorModel.t1.toNrErrorModel
  numRefScPerRb := 1
  numRefScPerRb_le := by decide

/-- Numbers of bits so far from the next whole byte that the roundings do not reach it. -/
theorem castUInt32_payload {bits rate bytes : ℕ} (hRate : rate < 100) (hBits : bits < 2 ^ 20)
    (hLow : bytes * 800 < bits * rate) (hHigh : bits * rate < (bytes + 1) * 800) :
    castUInt32 ⌊Binary64.div (Binary64.mul bits (hundredths rate)) 8⌋ =
      some (UInt32.ofNat bytes) := by
  have hB : (bits : ℚ) ≤ 2 ^ 20 := by exact_mod_cast hBits.le
  have hNonneg : (0 : ℚ) ≤ bits := Nat.cast_nonneg bits
  obtain ⟨hRate0, hRate1⟩ := hundredths_bounds hRate
  have hScaled : |(bits : ℚ) * hundredths rate - bits * rate / 100| ≤ 2 ^ 20 * 2 ^ (-53 : ℤ) := by
    rw [mul_div_assoc, ← mul_sub, abs_mul, abs_of_nonneg hNonneg]
    exact mul_le_mul hB ((abs_hundredths_sub_le hRate).trans_eq (one_mul _)) (abs_nonneg _) (by norm_num)
  have hProduct : |Binary64.mul bits (hundredths rate) - bits * hundredths rate| ≤
      2 ^ 20 * 2 ^ (-53 : ℤ) := by
    apply Binary64.abs_round_sub_le_of_le
    rw [abs_of_nonneg (mul_nonneg hNonneg hRate0)]
    exact (mul_le_of_le_one_right hNonneg hRate1).trans hB
  have hProductLe : (bits : ℚ) * hundredths rate ≤ 2 ^ 20 :=
    (mul_le_of_le_one_right hNonneg hRate1).trans hB
  have hProduct0 : 0 ≤ (bits : ℚ) * hundredths rate := mul_nonneg hNonneg hRate0
  norm_num [abs_le] at hScaled hProduct
  have hQuotient : |Binary64.div (Binary64.mul bits (hundredths rate)) 8 -
      Binary64.mul bits (hundredths rate) / 8| ≤ 2 ^ 20 * 2 ^ (-53 : ℤ) := by
    apply Binary64.abs_round_sub_le_of_le
    rw [abs_le]
    constructor <;> linarith
  norm_num [abs_le] at hQuotient
  have hLowCast : (bytes : ℚ) * 800 + 1 ≤ bits * rate := by exact_mod_cast hLow
  have hHighCast : (bits : ℚ) * rate + 1 ≤ (bytes + 1) * 800 := by exact_mod_cast hHigh
  have hFloor : ⌊Binary64.div (Binary64.mul bits (hundredths rate)) 8⌋ = bytes := by
    rw [Int.floor_eq_iff, Int.cast_natCast]
    constructor <;> linarith
  have hWidth : bytes < 2 ^ 32 := by nlinarith
  rw [hFloor, castUInt32_natCast hWidth]

theorem eesmIrT1_payload (nprb : UInt32) {bits bytes : ℕ} (hBits : (11 * nprb * 6).toNat = bits)
    (hLess : bits < 2 ^ 20) (hLow : bytes * 800 < bits * 93)
    (hHigh : bits * 93 < (bytes + 1) * 800) :
    eesmIrT1.getPayloadSize 28 nprb = some (UInt32.ofNat bytes) := by
  have hEcr : NrEesmErrorModel.t1.tables.mcsEcrTable[(28 : UInt8).toNat]? = some (hundredths 93) :=
    rfl
  have hOrder : NrEesmErrorModel.t1.tables.mcsMTable[(28 : UInt8).toNat]? = some 6 := rfl
  have hUseful : (subcarriersPerRb - eesmIrT1.numRefScPerRb).toUInt32 = 11 := by decide
  have hSix : (6 : UInt8).toUInt32 = 6 := by decide
  have hEfficiency := McsTables.spectralEfficiency_eq hEcr hOrder 11 nprb
  rw [hSix, hBits] at hEfficiency
  rw [getPayloadSize, hUseful]
  exact (NrEesmErrorModel.getPayloadSize_eq hEfficiency).trans
    (castUInt32_payload (by decide) hLess hLow hHigh)

theorem eesmIrT1_cbSize {payload : UInt32} (h : ¬ payload * 8 ≤ 3824) :
    eesmIrT1.errorModel.getMaxCbSize payload 28 = some 1056 := by
  have hType : NrEesmErrorModel.t1.getBaseGraphType (payload * 8) 28 = some .first := by
    have hEcr : NrEesmErrorModel.t1.tables.mcsEcrTable[(28 : UInt8).toNat]? =
        some (hundredths 93) := rfl
    have hSize : ¬ payload * 8 ≤ 292 := fun hLe => h (UInt32.le_trans hLe (by decide))
    have hRate : ¬ hundredths 93 ≤ hundredths 25 :=
      (hundredths_lt (by decide) (by decide)).not_ge
    rw [NrEesmErrorModel.getBaseGraphType, hEcr, Option.bind_eq_bind, Option.bind_some, if_neg]
    rintro (hLe | hLe | ⟨hLe, -⟩)
    · exact hSize hLe
    · exact hRate hLe
    · exact h hLe
  change NrEesmErrorModel.t1.getMaxCbSize payload 28 = some 1056
  rw [NrEesmErrorModel.getMaxCbSize, hType]
  rfl

/-- A block of 138 resource blocks is a single code block. -/
theorem hasRoom_single : eesmIrT1.HasRoom 28 138 := by
  have hMcs : (28 : UInt8) ≤ eesmIrT1.errorModel.getMaxMcs := by decide
  apply (calculateTbSize_hasRoom_iff eesmIrT1 28 138 hMcs).mpr
  refine ⟨by decide, 1058, 1056, ?_, eesmIrT1_cbSize (by decide), by decide, .inl (by decide)⟩
  exact eesmIrT1_payload 138 rfl (by decide) (by decide) (by decide)

/-- The second code block of 139 resource blocks has no room for its CRC. -/
theorem no_room_for_second_crc : ¬ eesmIrT1.HasRoom 28 139 := by
  have hMcs : (28 : UInt8) ≤ eesmIrT1.errorModel.getMaxMcs := by decide
  have hPayload : eesmIrT1.getPayloadSize 28 139 = some 1066 :=
    eesmIrT1_payload 139 rfl (by decide) (by decide) (by decide)
  have hCb : eesmIrT1.errorModel.getMaxCbSize 1066 28 = some 1056 := eesmIrT1_cbSize (by decide)
  obtain ⟨tbSize, hCalculate, hTb⟩ :=
    calculateTbSize_spec hMcs (by decide) hPayload hCb (by decide)
  rintro ⟨payload, cbSize, tbSize', hPayload', hCb', hCalculate', hRoom⟩
  obtain rfl := Option.some.inj (hPayload.symm.trans hPayload')
  obtain rfl := Option.some.inj (hCb.symm.trans hCb')
  obtain rfl := Option.some.inj (hCalculate.symm.trans hCalculate')
  rw [hTb] at hRoom
  revert hRoom
  decide

end NrAmc
end Bullet.Phy
