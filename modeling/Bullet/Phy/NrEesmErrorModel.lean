import Bullet.Lib.Binary64

/-! # The EESM error model

The sizes of payloads and of code blocks, from the tables of the MCSs, and the segmentation of a
transport block. `none` is an access outside of a table, or the conversion of a number that does not
fit its integer type.
-/

namespace Bullet.Phy

open Lib

/-- The conversion of a `double` that holds an integer. -/
def castUInt32 (z : ℤ) : Option UInt32 :=
  if 0 ≤ z ∧ z < 2 ^ 32 then some (UInt32.ofNat z.toNat) else none

inductive GraphType where
  | first
  | second
deriving DecidableEq, Repr

def liftingSizeTableBG : List UInt16 :=
  [2, 3, 4, 5, 6, 7, 8, 9, 10, 11, 12, 13, 14, 15, 16, 18, 20,
    22, 24, 26, 28, 30, 32, 36, 40, 44, 48, 52, 56, 60, 64, 72, 80, 88,
    96, 104, 112, 120, 128, 144, 160, 176, 192, 208, 224, 240, 256, 288, 320, 352, 384]

/-- The `double` of a literal with two decimals. -/
def hundredths (n : ℕ) : ℚ :=
  Binary64.div n 100

theorem abs_hundredths_sub_le {n : ℕ} (h : n < 100) :
    |hundredths n - n / 100| ≤ 1 * 2 ^ (-53 : ℤ) := by
  apply Binary64.abs_round_sub_le_of_le
  rw [abs_of_nonneg (by positivity), div_le_one (by norm_num)]
  exact_mod_cast h.le

theorem hundredths_bounds {n : ℕ} (h : n < 100) : 0 ≤ hundredths n ∧ hundredths n ≤ 1 := by
  have hLe : (n : ℚ) ≤ 99 := by exact_mod_cast Nat.le_of_lt_succ h
  have hNonneg : (0 : ℚ) ≤ n / 100 := by positivity
  have hError := Binary64.abs_round_sub_le ((n : ℚ) / 100)
  rw [abs_of_nonneg hNonneg] at hError
  norm_num [abs_le] at hError
  rw [hundredths, Binary64.div]
  constructor <;> linarith

theorem hundredths_lt {m n : ℕ} (h : m < n) (hn : n < 100) : hundredths m < hundredths n := by
  have hM := abs_hundredths_sub_le (h.trans hn)
  have hN := abs_hundredths_sub_le hn
  have hStep : (m : ℚ) + 1 ≤ n := by exact_mod_cast h
  norm_num [abs_le] at hM hN
  linarith

/-- The code rates and the modulation orders of the MCSs. -/
structure McsTables where
  mcsEcrTable : List ℚ
  mcsMTable : List UInt8
  length_pos : 0 < mcsEcrTable.length
  length_le : mcsEcrTable.length ≤ 256
  orders_le : mcsEcrTable.length ≤ mcsMTable.length
  rate_mem : ∀ rate ∈ mcsEcrTable, 0 ≤ rate ∧ rate ≤ 1

namespace McsTables

def ofHundredths (rates : List ℕ) (orders : List UInt8) (hPos : 0 < rates.length)
    (hLe : rates.length ≤ 256) (hOrders : rates.length ≤ orders.length)
    (hRates : ∀ n ∈ rates, n < 100) : McsTables where
  mcsEcrTable := rates.map hundredths
  mcsMTable := orders
  length_pos := by rwa [List.length_map]
  length_le := by rwa [List.length_map]
  orders_le := by rwa [List.length_map]
  rate_mem := by
    rw [List.forall_mem_map]
    exact fun n hn => hundredths_bounds (hRates n hn)

/-- The bits that the resource elements carry. -/
def spectralEfficiency (tables : McsTables) (usefulSc : UInt32) (mcs : UInt8) (rbNum : UInt32) :
    Option ℚ := do
  let rscElement := usefulSc * rbNum
  let rcode ← tables.mcsEcrTable[mcs.toNat]?
  let qm ← tables.mcsMTable[mcs.toNat]?
  some (Binary64.mul (rscElement * qm.toUInt32).toNat rcode)

theorem spectralEfficiency_eq {tables : McsTables} {mcs qm : UInt8} {rcode : ℚ}
    (hRate : tables.mcsEcrTable[mcs.toNat]? = some rcode)
    (hOrder : tables.mcsMTable[mcs.toNat]? = some qm) (usefulSc rbNum : UInt32) :
    tables.spectralEfficiency usefulSc mcs rbNum =
      some (Binary64.mul (usefulSc * rbNum * qm.toUInt32).toNat rcode) := by
  rw [spectralEfficiency, hRate, hOrder]
  rfl

end McsTables

structure NrEesmErrorModel where
  tables : McsTables

namespace NrEesmErrorModel

/-- `McsEcrTable1` and `McsMTable1`. -/
def t1 : NrEesmErrorModel where
  tables := .ofHundredths
    [12, 15, 19, 25, 30, 37, 44, 51, 59, 66,
      33, 37, 42, 48, 54, 60, 64,
      43, 46, 50, 55, 60, 65, 70, 75, 80, 85, 89, 93]
    [2, 2, 2, 2, 2, 2, 2, 2, 2, 2,
      4, 4, 4, 4, 4, 4, 4,
      6, 6, 6, 6, 6, 6, 6, 6, 6, 6, 6, 6]
    (by decide) (by decide) (by decide) (by decide)

/-- `McsEcrTable2` and `McsMTable2`. -/
def t2 : NrEesmErrorModel where
  tables := .ofHundredths
    [12, 19, 30, 44, 59,
      37, 42, 48, 54, 60, 64,
      46, 50, 55, 60, 65, 70, 75, 80, 85,
      67, 69, 74, 77, 82, 86, 90, 93]
    [2, 2, 2, 2, 2,
      4, 4, 4, 4, 4, 4,
      6, 6, 6, 6, 6, 6, 6, 6, 6,
      8, 8, 8, 8, 8, 8, 8, 8]
    (by decide) (by decide) (by decide) (by decide)

def getMaxMcs (m : NrEesmErrorModel) : UInt8 :=
  UInt8.ofNat (m.tables.mcsEcrTable.length - 1)

def getBaseGraphType (m : NrEesmErrorModel) (tbSizeBit : UInt32) (mcs : UInt8) :
    Option GraphType := do
  let ecr ← m.tables.mcsEcrTable[mcs.toNat]?
  some (if tbSizeBit ≤ 292 ∨ ecr ≤ hundredths 25 ∨ tbSizeBit ≤ 3824 ∧ ecr ≤ hundredths 67 then .second
    else .first)

def getPayloadSize (m : NrEesmErrorModel) (usefulSc : UInt32) (mcs : UInt8) (rbNum : UInt32) :
    Option UInt32 := do
  let spectralEfficiency ← m.tables.spectralEfficiency usefulSc mcs rbNum
  castUInt32 ⌊Binary64.div spectralEfficiency 8⌋

theorem getPayloadSize_eq {m : NrEesmErrorModel} {usefulSc rbNum : UInt32} {mcs : UInt8} {x : ℚ}
    (h : m.tables.spectralEfficiency usefulSc mcs rbNum = some x) :
    m.getPayloadSize usefulSc mcs rbNum = castUInt32 ⌊Binary64.div x 8⌋ := by
  rw [getPayloadSize, h]
  rfl

def getMaxCbSize (m : NrEesmErrorModel) (tbSize : UInt32) (mcs : UInt8) : Option UInt32 := do
  let bgType ← m.getBaseGraphType (tbSize * 8) mcs
  let back ← liftingSizeTableBG.getLast?
  match bgType with
  | .first => some (back.toUInt32 * 22 / 8)
  | .second => some (back.toUInt32 * 10 / 8)

/-! ## Code block segmentation -/

/-- The maximal size of a code block, with its CRC. -/
def kcb : GraphType → UInt16
  | .first => 8448
  | .second => 3840

def kb (bgType : GraphType) (b : UInt32) : UInt8 :=
  match bgType with
  | .first => 22
  | .second => if 640 ≤ b then 10 else if 560 ≤ b then 9 else if 192 ≤ b then 8 else 6

/-- `std::upper_bound` on the table without its last size, which is what a search that finds nothing
ends at. -/
def upperBound (x : ℚ) : UInt16 :=
  (liftingSizeTableBG.dropLast.find? fun zc => x < zc.toNat).getD
    (liftingSizeTableBG.getLastD 0)

/-- The bits of each code block, and the number of code blocks, which is not 0. -/
def codeBlockSegmentation (b : UInt32) (bgType : GraphType) : Option (UInt32 × UInt32) := do
  let (c, b1) ←
    if b ≤ (kcb bgType).toUInt32 then some (1, b)
    else do
      let l : UInt32 := 24
      let c ← castUInt32 ⌈Binary64.div b.toNat ((kcb bgType).toUInt32 - l).toNat⌉
      some (c, b + c * l)
  let k1 := b1 / c
  let zc := upperBound (Binary64.add (Binary64.div k1.toNat (kb bgType b).toNat)
    (Binary64.div 1 1000))
  match bgType with
  | .first => some (zc.toUInt32 * 22, c)
  | .second => some (zc.toUInt32 * 10, c)

end NrEesmErrorModel
end Bullet.Phy
