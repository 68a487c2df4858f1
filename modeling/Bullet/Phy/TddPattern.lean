import Bullet.Lib.KeyedLists
import Bullet.Phy.SfnSf
import Mathlib.Algebra.Group.Int.Defs
import Mathlib.Data.List.Sort

/-! # The TDD pattern and its tables

From the pattern of its slots a cell derives in which slot the DCI of which slot is sent, in which
slot the MAC is asked for it, and where the feedback of a slot falls. The searches go around the
pattern in 32-bit arithmetic. `none` is an overflow, an access out of range, an assertion that fails,
or a search that has run out of fuel.
-/

namespace Bullet.Phy

open Lib

inductive LteNrTddSlotType where
  | dl
  | s
  | f
  | ul
deriving DecidableEq, Repr

namespace LteNrTddSlotType

/-- The value of the enumerator. -/
def value : LteNrTddSlotType → ℕ
  | dl => 0
  | s => 1
  | f => 2
  | ul => 3

instance : LT LteNrTddSlotType :=
  ⟨fun a b => a.value < b.value⟩

instance (a b : LteNrTddSlotType) : Decidable (a < b) :=
  inferInstanceAs (Decidable (a.value < b.value))

end LteNrTddSlotType

/-! ## Arithmetic on `int` -/

def int32 (z : ℤ) : Option ℤ :=
  if -2 ^ 31 ≤ z ∧ z < 2 ^ 31 then some z else none

/-- The conversion to `int`. -/
def toInt (z : ℤ) : ℤ :=
  z.bmod (2 ^ 32)

/-- The sum is unsigned, and goes back to `int`. -/
def addUntil (m : ℕ) : ℕ → ℤ → Option ℤ
  | 0, n => if 0 ≤ n then some n else none
  | rounds + 1, n => if 0 ≤ n then some n else addUntil m rounds (toInt (n + m))

-- A negative `n` takes at most as many rounds as its magnitude.
def modulo (n : ℤ) (m : ℕ) : Option ℕ :=
  if 0 ≤ n then
    if m = 0 then none else some (n.toNat % m)
  else (addUntil m n.natAbs n).map Int.toNat

/-! ## Searching the pattern -/

def patternSize (pattern : List LteNrTddSlotType) : ℕ :=
  pattern.length % 2 ^ 32

def harqSearch (pattern : List LteNrTddSlotType) (pos : ℕ) : ℕ → ℤ → Option ℤ
  | 0, _ => none
  | fuel + 1, k1 => do
    let sum ← int32 (toInt pos + k1)
    let index ← modulo sum (patternSize pattern)
    let slot ← pattern[index]?
    if slot < .f then do
      let k1 ← int32 (k1 + 1)
      harqSearch pattern pos fuel k1
    else some k1

def returnHarqSlot (fuel : ℕ) (pattern : List LteNrTddSlotType) (pos n1 : ℕ) : Option ℤ :=
  harqSearch pattern pos fuel (toInt n1)

structure DciKPair where
  indexDci : ℕ := 0
  k : ℕ := 0
deriving DecidableEq, Repr

def dciSearch (pattern : List LteNrTddSlotType) (pos : ℕ) : ℕ → ℕ → Option DciKPair
  | 0, _ => none
  | fuel + 1, k => do
    let difference ← int32 (toInt pos - toInt k)
    let indexDci ← modulo difference (patternSize pattern)
    let slot ← pattern[indexDci]?
    if slot > .f then dciSearch pattern pos fuel ((k + 1) % 2 ^ 32)
    else some { indexDci := indexDci, k := k }

def returnDciSlot (fuel : ℕ) (pattern : List LteNrTddSlotType) (pos n : ℕ) : Option DciKPair :=
  dciSearch pattern pos fuel n

/-! ## The tables -/

/-- For a slot of the pattern, the delays of the slots it is responsible for. -/
abbrev DciTable := KeyedLists ℕ ℕ

def generateDciMaps (fuel : ℕ) (pattern : List LteNrTddSlotType) (toSend generate : DciTable)
    (pos n l1l2CtrlLatency : ℕ) : Option (DciTable × DciTable) := do
  let dciSlot ← returnDciSlot fuel pattern pos n
  let difference ← int32 (toInt dciSlot.indexDci - toInt l1l2CtrlLatency)
  let indexGen ← modulo difference (patternSize pattern)
  let kWithCtrlLatency := (dciSlot.k + l1l2CtrlLatency) % 2 ^ 32
  some (toSend.pushBack dciSlot.indexDci dciSlot.k, generate.pushBack indexGen kWithCtrlLatency)

structure PatternTables where
  toSendDl : DciTable := ∅
  toSendUl : DciTable := ∅
  generateDl : DciTable := ∅
  generateUl : DciTable := ∅
  dlHarqfbPosition : AList fun _ : ℕ => ℕ := ∅

/-- The processing delays and the latency of the control messages, in slots. -/
structure Delays where
  n0 : ℕ
  n1 : ℕ
  n2 : ℕ
  l1l2CtrlLatency : ℕ
deriving DecidableEq, Repr

namespace PatternTables

def addUl (t : PatternTables) (fuel : ℕ) (pattern : List LteNrTddSlotType) (d : Delays) (i : ℕ) :
    Option PatternTables := do
  let (toSendUl, generateUl) ←
    generateDciMaps fuel pattern t.toSendUl t.generateUl i d.n2 d.l1l2CtrlLatency
  some { t with toSendUl := toSendUl, generateUl := generateUl }

def addDl (t : PatternTables) (fuel : ℕ) (pattern : List LteNrTddSlotType) (d : Delays) (i : ℕ) :
    Option PatternTables := do
  let (toSendDl, generateDl) ←
    generateDciMaps fuel pattern t.toSendDl t.generateDl i d.n0 d.l1l2CtrlLatency
  some { t with toSendDl := toSendDl, generateDl := generateDl }

/-- The insertion leaves an entry that is there. -/
def addFeedback (t : PatternTables) (fuel : ℕ) (pattern : List LteNrTddSlotType) (d : Delays)
    (i : ℕ) : Option PatternTables := do
  let k1 ← returnHarqSlot fuel pattern i d.n1
  some { t with
    dlHarqfbPosition :=
      if i ∈ t.dlHarqfbPosition then t.dlHarqfbPosition
      else t.dlHarqfbPosition.insert i (k1 % 2 ^ 32).toNat }

def addSlot (fuel : ℕ) (pattern generationPattern : List LteNrTddSlotType) (d : Delays)
    (t : PatternTables) (i : ℕ) : Option PatternTables := do
  let generation ← generationPattern[i]?
  let slot ← pattern[i]?
  if generation = .ul then t.addUl fuel generationPattern d i
  else if generation = .dl ∨ slot = .s then do
    let t ← t.addDl fuel generationPattern d i
    t.addFeedback fuel generationPattern d i
  else if generation = .f then do
    let t ← t.addDl fuel generationPattern d i
    let t ← t.addUl fuel generationPattern d i
    t.addFeedback fuel generationPattern d i
  else some t

end PatternTables

def tddScan : List LteNrTddSlotType → Bool → Bool → Bool
  | [], anUl, aDl => !(anUl ^^ aDl)
  | v :: vs, anUl, aDl =>
    if v = .f then true
    else if v = .ul then tddScan vs true aDl
    else if v = .dl then tddScan vs anUl true
    else tddScan vs anUl aDl

def isTdd (pattern : List LteNrTddSlotType) : Bool :=
  tddScan pattern false false

def hasUlSlot (pattern : List LteNrTddSlotType) : Bool :=
  pattern.any fun v => decide (v = .f) || decide (v = .ul)

def sortLists (t : DciTable) : DciTable :=
  t.mapLists (List.insertionSort (· ≤ ·))

def generateStructuresFromPattern (fuel : ℕ) (pattern : List LteNrTddSlotType) (t : PatternTables)
    (d : Delays) : Option PatternTables := do
  let generationPattern := if isTdd pattern then pattern else List.replicate pattern.length .f
  let t ← (List.range (patternSize pattern)).foldlM
    (PatternTables.addSlot fuel pattern generationPattern d) t
  let t :=
    if isTdd pattern then t
    else if hasUlSlot pattern then { t with generateDl := ∅ }
    else { t with generateUl := ∅ }
  some { t with generateUl := sortLists t.generateUl, generateDl := sortLists t.generateDl }

/-! ## Asking the MAC -/

structure NrGnbPhy extends PatternTables where
  tddPattern : List LteNrTddSlotType := []

/-- What the MAC is asked for. -/
inductive Indication where
  | slotUl (sfn : SfnSf) (type : LteNrTddSlotType)
  | slotDl (sfn : SfnSf) (type : LteNrTddSlotType)
deriving DecidableEq, Repr

namespace NrGnbPhy

def patternIndex (phy : NrGnbPhy) (slot : SfnSf) : Option ℕ := do
  let n ← slot.normalize
  if phy.tddPattern = [] then none else some (n.toNat % phy.tddPattern.length)

def indicate (phy : NrGnbPhy) (currentSlot : SfnSf)
    (indication : SfnSf → LteNrTddSlotType → Indication) (kWithLatency : ℕ) :
    Option Indication := do
  let targetSlot ← currentSlot.add (UInt32.ofNat kWithLatency)
  let pos ← phy.patternIndex targetSlot
  let type ← phy.tddPattern[pos]?
  some (indication targetSlot type)

def callMacForSlotIndication (phy : NrGnbPhy) (currentSlot : SfnSf) :
    Option (NrGnbPhy × List Indication) :=
  if phy.generateDl.entries = [] ∧ phy.generateUl.entries = [] then none
  else do
    let currentSlotN ← phy.patternIndex currentSlot
    let ul ← (phy.generateUl.read currentSlotN).mapM (phy.indicate currentSlot .slotUl)
    let dl ← (phy.generateDl.read currentSlotN).mapM (phy.indicate currentSlot .slotDl)
    -- Reading a slot without an entry adds an empty one.
    some ({ phy with
      generateUl := phy.generateUl.touch currentSlotN
      generateDl := phy.generateDl.touch currentSlotN }, ul ++ dl)

end NrGnbPhy

end Bullet.Phy
