import Mathlib.Data.Rat.Floor
import Bullet.Lib.Binary64
import Bullet.Stream.PacketHeader
import Bullet.Stream.SenderBatches

/-! # The FEC policies

How much time the sender tells its policy is left, and which layer of the table a policy reads for
it. Times become 16-bit numbers of milliseconds and their quotient an 8-bit one before it is clamped.
`none` is a division by zero, a conversion that is undefined, or a failed assertion.
-/

namespace Bullet.Stream

open Lib

/-- The conversion of an integral double to `uint16_t`. -/
def toUint16 (x : ℤ) : Option UInt16 :=
  if 0 ≤ x ∧ x < 2 ^ 16 then some (UInt16.ofNat x.toNat) else none

/-- `x < low ? low : (x > high ? high : x)` -/
def clampTo {α : Type} [LT α] [DecidableLT α] (low high x : α) : α :=
  if x < low then low else if high < x then high else x

/-- The function `round`: the nearest integer, a half away from zero. -/
def roundHalfAway (x : ℚ) : ℤ :=
  if x < 0 then ⌈x - 1 / 2⌉ else ⌊x + 1 / 2⌋

/-- What `PacketSenderUdp::GetFECParam` hands to its policy. -/
def handedDdlLeft (ddlLeft : Time) : Option UInt16 :=
  toUint16 ⌊Binary64.div (Binary64.round (getMicroSeconds ddlLeft)) 1000⌋

/-! ## The table -/

/-- The arguments of a call of `get_fec_count`. -/
structure FecCountCall where
  loss : ℚ
  frameSize : UInt8
  remainingTime : UInt16
  rtt : UInt16
  packet : UInt8
deriving DecidableEq

namespace FecCountCall

def layer (call : FecCountCall) : Option UInt8 :=
  if call.rtt = 0 then none else some (clampTo 1 15 (call.remainingTime / call.rtt).toUInt8)

def lossIndex (call : FecCountCall) : UInt8 :=
  UInt8.ofNat (roundHalfAway
    (Binary64.div (clampTo 0 (1 / 2) call.loss) (Binary64.round (1 / 100)))).toNat

def frameSizeIndex (call : FecCountCall) : UInt8 :=
  UInt8.ofNat ⌈Binary64.div (((clampTo 5 55 call.frameSize).toNat - 5 : ℕ) : ℚ) (5 : ℕ)⌉.toNat

/-- The position in the table; the quotients by one of the layer and of the packets are exact. -/
def index (call : FecCountCall) (layer : UInt8) : ℕ :=
  call.lossIndex.toNat * 9075 + call.frameSizeIndex.toNat * 825 + (layer - 1).toNat * 55 +
    (clampTo 1 55 call.packet - 1).toNat

def getFecCount (betaArray : ℕ → UInt8) (call : FecCountCall) : Option UInt8 :=
  call.layer.map fun layer => betaArray (call.index layer)

end FecCountCall

/-! ## The policies -/

/-- `FECPolicy::FECParam`; a division by a group size of zero gives no number. -/
structure FecRate where
  fecGroupSize : UInt16
  fecRate : Option ℚ
deriving DecidableEq

def fecRate (fecCount : UInt8) (groupSize : UInt16) : Option ℚ :=
  if groupSize = 0 then none else some (Binary64.div fecCount.toNat groupSize.toNat)

/-- The rate that a policy makes of the count it looked up, which must not be 255. -/
def FecCountCall.fecParam (betaArray : ℕ → UInt8) (groupSize : UInt16) (call : FecCountCall) :
    Option FecRate :=
  (call.getFecCount betaArray).bind fun fecCount =>
    if fecCount = 255 then none else some ⟨groupSize, Stream.fecRate fecCount groupSize⟩

/-- `FECOnlyPolicy` divides the time left by itself. -/
def fecOnlyCall (loss : ℚ) (ddlLeft : UInt16) (input : PolicyInput) : Option FecCountCall :=
  if input.isRtx then none
  else some ⟨loss, input.frameSize, ddlLeft, ddlLeft, input.maxGroupSize.toUInt8⟩

/-- The RTT of `HairpinPolicy`, in milliseconds rounded up. -/
def hairpinRtt (srtt : Time) : Option UInt16 :=
  toUint16 ⌈Binary64.div (Binary64.round (getMicroSeconds srtt)) 1000⌉

/-- `HairpinPolicy` without its block size optimisation, which is switched off. -/
def hairpinCall (loss : ℚ) (ddlLeft : UInt16) (input : PolicyInput) : Option FecCountCall :=
  (hairpinRtt input.netStat.srtt).map fun srtt =>
    ⟨loss, input.frameSize, ddlLeft, srtt, input.maxGroupSize.toUInt8⟩

inductive FecPolicy where
  | fecOnly
  | rtxOnly
  | hairpin
deriving DecidableEq

namespace FecPolicy

/-- The lookup of a policy, if it makes one. -/
def call (loss : ℚ) (ddlLeft : UInt16) (input : PolicyInput) :
    FecPolicy → Option (Option FecCountCall)
  | fecOnly => some (fecOnlyCall loss ddlLeft input)
  | rtxOnly => some none
  | hairpin => (hairpinCall loss ddlLeft input).map some

def getFecParam (betaArray : ℕ → UInt8) (loss : ℚ) (ddlLeft : UInt16) (input : PolicyInput) :
    FecPolicy → Option FecRate
  | fecOnly =>
    match fecOnlyCall loss ddlLeft input with
    | none => some ⟨input.maxGroupSize, Stream.fecRate 0 input.maxGroupSize⟩
    | some call => call.fecParam betaArray input.maxGroupSize
  | rtxOnly => some ⟨input.maxGroupSize, some 0⟩
  | hairpin =>
    (hairpinCall loss ddlLeft input).bind fun call =>
      call.fecParam betaArray input.maxGroupSize.toUInt8.toUInt16

end FecPolicy

/-! ## Clamping and converting -/

theorem clampTo_eq {α : Type} [LinearOrder α] {low high x : α} (h : low ≤ high) :
    clampTo low high x = max low (min x high) := by
  rw [clampTo]
  split
  · rename_i hLow
    rw [min_eq_left (hLow.le.trans h), max_eq_left hLow.le]
  · rename_i hLow
    split
    · rename_i hHigh
      rw [min_eq_right hHigh.le, max_eq_right h]
    · rename_i hHigh
      rw [min_eq_left (not_lt.mp hHigh), max_eq_right (not_lt.mp hLow)]

theorem toNat_clampTo (low high x : UInt8) :
    (clampTo low high x).toNat = clampTo low.toNat high.toNat x.toNat := by
  simp only [clampTo, UInt8.lt_iff_toNat_lt]
  split
  · rfl
  · split <;> rfl

theorem toUint16_eq_some {x : ℤ} {v : UInt16} : toUint16 x = some v ↔ (v.toNat : ℤ) = x := by
  have hLt := v.toNat_lt
  rw [toUint16]
  constructor
  · intro h
    obtain ⟨hRange, hSome⟩ := Option.ite_none_right_eq_some.mp h
    rw [← Option.some.inj hSome, UInt16.toNat_ofNat']
    omega
  · intro h
    rw [if_pos (by omega), ← h, Int.toNat_natCast, UInt16.ofNat_toNat]

/-! ### Milliseconds -/

section

variable {us : ℤ}

theorem ms_neg (h : us < 0) : Binary64.div (Binary64.round us) 1000 < 0 := by
  have hUs : (us : ℚ) < 0 := by exact_mod_cast h
  have hRound := Binary64.round_le_half hUs.le
  have hDiv := Binary64.round_le_half (x := Binary64.round us / 1000) (by linarith)
  rw [Binary64.div]
  linarith

theorem ms_nonpos (h : us ≤ 0) : Binary64.div (Binary64.round us) 1000 ≤ 0 := by
  have hUs : (us : ℚ) ≤ 0 := by exact_mod_cast h
  have hRound := Binary64.round_le_half hUs
  have hDiv := Binary64.round_le_half (x := Binary64.round us / 1000) (by linarith)
  rw [Binary64.div]
  linarith

theorem ms_large (h : 2 ^ 32 ≤ us) : 2 ^ 20 ≤ Binary64.div (Binary64.round us) 1000 := by
  have hUs : (2 ^ 32 : ℚ) ≤ us := by exact_mod_cast h
  have hRound := Binary64.half_le_round (x := (us : ℚ)) (by linarith)
  have hDiv := Binary64.half_le_round (x := Binary64.round us / 1000) (by linarith)
  rw [Binary64.div]
  linarith

theorem ms_natCast {n : ℕ} (h : n < 2 ^ 32) :
    Binary64.div (Binary64.round ((n : ℤ) : ℚ)) 1000 = Binary64.div (n : ℚ) (1000 : ℕ) := by
  rw [Int.cast_natCast, Binary64.round_natCast (by omega), Nat.cast_ofNat]

end

/-- The double quotient is the integer one where it can be converted. -/
theorem handedDdlLeft_eq (ddlLeft : Time) :
    handedDdlLeft ddlLeft = toUint16 (getMicroSeconds ddlLeft / 1000) := by
  rw [handedDdlLeft]
  rcases lt_or_ge (getMicroSeconds ddlLeft) 0 with hNeg | hNonneg
  · have hFloor : ⌊Binary64.div (Binary64.round (getMicroSeconds ddlLeft)) 1000⌋ < 0 :=
      Int.floor_lt.mpr (by exact_mod_cast ms_neg hNeg)
    rw [toUint16, toUint16, if_neg (by omega), if_neg (by omega)]
  obtain ⟨n, hN⟩ := Int.eq_ofNat_of_zero_le hNonneg
  rcases lt_or_ge n (2 ^ 32) with hSmall | hLarge
  · rw [hN, ms_natCast hSmall, Binary64.floor_div hSmall (by decide)]
    rfl
  · have hFloor : (2 ^ 20 : ℤ) ≤ ⌊Binary64.div (Binary64.round (getMicroSeconds ddlLeft)) 1000⌋ :=
      Int.le_floor.mpr (by exact_mod_cast ms_large (by omega))
    rw [toUint16, toUint16, if_neg (by omega), if_neg (by omega)]

theorem handedDdlLeft_policyInput (s : Sender) (maxGroupSize : UInt16) (ddlLeft : Time)
    (fixGroupSize isRtx : Bool) (frameSize : UInt8) :
    handedDdlLeft ddlLeft =
      toUint16 (s.policyInput maxGroupSize ddlLeft fixGroupSize isRtx frameSize).ddlLeft :=
  handedDdlLeft_eq ddlLeft

theorem hairpinRtt_nonpos {srtt : Time} {rtt : UInt16} (h : getMicroSeconds srtt ≤ 0)
    (hRtt : hairpinRtt srtt = some rtt) : rtt = 0 := by
  have hCeil : ⌈Binary64.div (Binary64.round (getMicroSeconds srtt)) 1000⌉ ≤ 0 :=
    Int.ceil_le.mpr (by exact_mod_cast ms_nonpos h)
  have hNat := toUint16_eq_some.mp hRtt
  apply UInt16.toNat_inj.mp
  rw [UInt16.toNat_zero]
  omega

theorem hairpinRtt_large {srtt : Time} (h : 2 ^ 32 ≤ getMicroSeconds srtt) :
    hairpinRtt srtt = none := by
  have hCeil : (2 ^ 20 : ℤ) ≤ ⌈Binary64.div (Binary64.round (getMicroSeconds srtt)) 1000⌉ := by
    have hLarge := (ms_large h).trans (Int.le_ceil _)
    exact_mod_cast hLarge
  rw [hairpinRtt, toUint16, if_neg (by omega)]

/-- The milliseconds that the code counts as an RTT. -/
def ceilMs (srtt : Time) : ℤ := ⌈(getMicroSeconds srtt : ℚ) / 1000⌉

theorem hairpinRtt_eq {srtt : Time} (hNonneg : 0 ≤ getMicroSeconds srtt)
    (hSmall : getMicroSeconds srtt < 2 ^ 32) : hairpinRtt srtt = toUint16 (ceilMs srtt) := by
  obtain ⟨n, hN⟩ := Int.eq_ofNat_of_zero_le hNonneg
  have hCeil := Binary64.ceil_div (a := n) (b := 1000) (by omega) (by decide)
  rw [hairpinRtt, ceilMs, hN, ms_natCast (by omega), hCeil, Int.cast_natCast, Nat.cast_ofNat]

theorem ceilMs_eq (srtt : Time) : ceilMs srtt = -(-getMicroSeconds srtt / 1000) :=
  Rat.ceil_intCast_div_natCast _ 1000

/-- An RTT that can be converted and that a time can be divided by. -/
theorem hairpinRtt_iff {srtt : Time} :
    (∃ rtt, hairpinRtt srtt = some rtt ∧ rtt ≠ 0) ↔
      0 < getMicroSeconds srtt ∧ getMicroSeconds srtt ≤ 65535000 := by
  rcases le_or_gt (getMicroSeconds srtt) 0 with hNonpos | hPos
  · constructor
    · rintro ⟨rtt, hRtt, hNe⟩
      exact absurd (hairpinRtt_nonpos hNonpos hRtt) hNe
    · rintro ⟨hPos, -⟩
      omega
  rcases lt_or_ge (getMicroSeconds srtt) (2 ^ 32) with hSmall | hLarge
  · have hCeil := ceilMs_eq srtt
    rw [hairpinRtt_eq hPos.le hSmall]
    constructor
    · rintro ⟨rtt, hRtt, -⟩
      have hNat := toUint16_eq_some.mp hRtt
      have hLt := rtt.toNat_lt
      omega
    · rintro ⟨-, hHigh⟩
      refine ⟨UInt16.ofNat (ceilMs srtt).toNat, if_pos (by omega), ?_⟩
      intro hZero
      have hNat := congrArg UInt16.toNat hZero
      rw [UInt16.toNat_ofNat', UInt16.toNat_zero] at hNat
      omega
  · rw [hairpinRtt_large hLarge]
    constructor
    · rintro ⟨rtt, hRtt, -⟩
      cases hRtt
    · rintro ⟨-, hHigh⟩
      omega

theorem hairpinRtt_toNat {srtt : Time} {rtt : UInt16} (h : hairpinRtt srtt = some rtt)
    (hNe : rtt ≠ 0) : (rtt.toNat : ℤ) = ceilMs srtt := by
  obtain ⟨hPos, hHigh⟩ := hairpinRtt_iff.mp ⟨rtt, h, hNe⟩
  rw [hairpinRtt_eq hPos.le (by omega)] at h
  exact toUint16_eq_some.mp h

/-! ## The layer -/

namespace FecCountCall

variable {call : FecCountCall}

theorem layer_eq_none : call.layer = none ↔ call.rtt = 0 := by
  rw [layer]
  split
  · exact iff_of_true rfl ‹_›
  · exact iff_of_false (Option.some_ne_none _) ‹_›

theorem layer_toNat {layer : UInt8} (h : call.layer = some layer) :
    layer.toNat = clampTo 1 15 (call.remainingTime.toNat / call.rtt.toNat % 256) := by
  obtain ⟨-, hLayer⟩ := Option.ite_none_left_eq_some.mp h
  rw [← Option.some.inj hLayer, toNat_clampTo, UInt16.toNat_toUInt8, UInt16.toNat_div]
  rfl

/-- The narrowing of a quotient to 8 bits is harmless when it leaves it on the same side of 15. -/
theorem clampTo_mod_iff {q : ℕ} :
    clampTo 1 15 (q % 256) = clampTo 1 15 q ↔ q < 256 ∨ 15 ≤ q % 256 := by
  rw [clampTo_eq (by decide), clampTo_eq (by decide)]
  omega

theorem layer_exact_iff : (∃ layer, call.layer = some layer ∧
      (layer.toNat : ℤ) = clampTo 1 15 ((call.remainingTime.toNat : ℤ) / call.rtt.toNat)) ↔
    call.rtt ≠ 0 ∧ (call.remainingTime.toNat / call.rtt.toNat < 256 ∨
      15 ≤ call.remainingTime.toNat / call.rtt.toNat % 256) := by
  have hCast (n : ℕ) : ((clampTo 1 15 n : ℕ) : ℤ) = clampTo 1 15 (n : ℤ) := by
    rw [clampTo_eq (by decide), clampTo_eq (by decide)]
    omega
  rw [← clampTo_mod_iff, ← Int.natCast_ediv, ← hCast]
  constructor
  · rintro ⟨layer, hLayer, hExact⟩
    refine ⟨fun hZero => ?_, ?_⟩
    · rw [layer_eq_none.mpr hZero] at hLayer
      cases hLayer
    · rw [← layer_toNat hLayer]
      exact Int.ofNat_inj.mp hExact
  · rintro ⟨hNe, hExact⟩
    have hSome : call.layer = some (clampTo 1 15 (call.remainingTime / call.rtt).toUInt8) :=
      if_neg hNe
    exact ⟨_, hSome, congrArg Nat.cast ((layer_toNat hSome).trans hExact)⟩

/-! ### The bounds of the table -/

theorem lossIndex_le (call : FecCountCall) : call.lossIndex.toNat ≤ 50 := by
  have hStep : Binary64.round (1 / 100) = 5764607523034235 * 2 ^ (-59 : ℤ) := by
    exact_mod_cast Binary64.round_eq (x := 1 / 100) (e := -59) (n := 5764607523034235)
      (by norm_num) (by norm_num) (by norm_num [abs_lt])
  have hHalf : (0 : ℚ) ≤ 1 / 2 := by norm_num
  have hClamp : clampTo 0 (1 / 2) call.loss = max 0 (min call.loss (1 / 2)) := clampTo_eq hHalf
  have hLow : 0 ≤ clampTo 0 (1 / 2) call.loss := by
    rw [hClamp]
    exact le_max_left _ _
  have hHigh : clampTo 0 (1 / 2) call.loss ≤ 1 / 2 := by
    rw [hClamp]
    exact max_le hHalf (min_le_right _ _)
  have hNonneg : 0 ≤ clampTo 0 (1 / 2) call.loss / Binary64.round (1 / 100) := by
    rw [hStep]
    positivity
  have hQuotient : clampTo 0 (1 / 2) call.loss / Binary64.round (1 / 100) ≤ 50 := by
    rw [hStep, div_le_iff₀ (by positivity)]
    norm_num
    linarith
  have hRound := Binary64.half_le_round hNonneg
  have hError := abs_le.mp (Binary64.abs_round_sub_le_of_le ((abs_of_nonneg hNonneg).trans_le hQuotient))
  norm_num at hError
  have hFloor : ⌊Binary64.div (clampTo 0 (1 / 2) call.loss) (Binary64.round (1 / 100)) + 1 / 2⌋ < 51 := by
    rw [Int.floor_lt, Binary64.div]
    push_cast
    linarith
  rw [lossIndex, roundHalfAway, if_neg (by rw [Binary64.div]; linarith), UInt8.toNat_ofNat']
  omega

theorem frameSizeIndex_le (call : FecCountCall) : call.frameSizeIndex.toNat ≤ 10 := by
  have hClamp := toNat_clampTo 5 55 call.frameSize
  rw [clampTo_eq (by decide)] at hClamp
  have hSize : (clampTo 5 55 call.frameSize).toNat ≤ 55 := by
    rw [hClamp]
    exact max_le (by decide) (min_le_right _ _)
  have hCeil := Rat.ceil_natCast_div_natCast ((clampTo 5 55 call.frameSize).toNat - 5) 5
  rw [frameSizeIndex, Binary64.ceil_div (by omega) (by decide), hCeil, UInt8.toNat_ofNat']
  omega

/-- A lookup stays inside a table for 51 loss rates, 11 frame sizes, 15 layers and 55 packets. -/
theorem index_lt {layer : UInt8} (h : call.layer = some layer) :
    call.index layer < 51 * (11 * (15 * 55)) := by
  have hLoss := call.lossIndex_le
  have hFrame := call.frameSizeIndex_le
  have hLayer := layer_toNat h
  rw [clampTo_eq (by decide)] at hLayer
  have hPacket := toNat_clampTo 1 55 call.packet
  rw [clampTo_eq (by decide)] at hPacket
  change _ = max 1 (min _ 55) at hPacket
  rw [index, UInt8.toNat_sub, UInt8.toNat_sub, UInt8.toNat_one, hPacket, hLayer]
  omega

theorem fecParam_isSome {betaArray : ℕ → UInt8} {groupSize : UInt16} {layer : UInt8}
    (hLayer : call.layer = some layer) (hBeta : ∀ i < 51 * (11 * (15 * 55)), betaArray i ≠ 255) :
    (call.fecParam betaArray groupSize).isSome = true := by
  have hCount := hBeta _ (index_lt hLayer)
  rw [fecParam, getFecCount, hLayer, Option.map_some, Option.bind_some, if_neg hCount]
  rfl

end FecCountCall

/-! ## What a policy looks up -/

/-- The whole milliseconds that are left, before any narrowing. -/
def remainingMs (ddlLeft : Time) : ℤ := max 0 (ddlLeft / 1000000)

theorem remainingMs_pos {t : ℤ} : 0 < remainingMs t ↔ 1000000 ≤ t := by
  rw [remainingMs]
  omega

theorem getMicroSeconds_eq (t : ℤ) :
    0 ≤ t ∧ getMicroSeconds t = t / 1000 ∨ t < 0 ∧ getMicroSeconds t = -(-t / 1000) := by
  rcases le_or_gt 0 t with hNonneg | hNeg
  · exact .inl ⟨hNonneg, Int.tdiv_eq_ediv_of_nonneg hNonneg⟩
  · refine .inr ⟨hNeg, ?_⟩
    rw [getMicroSeconds, ← Int.tdiv_eq_ediv_of_nonneg (by omega), Int.neg_tdiv, Int.neg_neg]

/-- The sender hands over what is left unless that is below zero or beyond 16 bits. -/
theorem handed_iff {t : ℤ} : (∃ handed, handedDdlLeft t = some handed ∧
    (handed.toNat : ℤ) = remainingMs t) ↔ -1000 < t ∧ t < 65536000000 := by
  have hMs := getMicroSeconds_eq t
  have hRemaining : remainingMs t = max 0 (t / 1000000) := rfl
  rw [handedDdlLeft_eq]
  constructor
  · rintro ⟨handed, hHanded, hExact⟩
    have hNat := toUint16_eq_some.mp hHanded
    have hLt := handed.toNat_lt
    omega
  · intro hRange
    refine ⟨UInt16.ofNat (remainingMs t).toNat, toUint16_eq_some.mpr ?_, ?_⟩
    · rw [UInt16.toNat_ofNat']
      omega
    · rw [UInt16.toNat_ofNat']
      omega

namespace FecPolicy

variable {policy : FecPolicy} {loss : ℚ} {ddlLeft : Time} {input : PolicyInput}

/-- The RTT of a policy's lookup, before any narrowing. -/
def rttMs (ddlLeft : Time) (input : PolicyInput) : FecPolicy → Option ℤ
  | fecOnly => if input.isRtx then none else some (remainingMs ddlLeft)
  | rtxOnly => none
  | hairpin => some (ceilMs input.netStat.srtt)

/-- The sender hands over the milliseconds that are left, and the policy's lookup divides them by its
RTT and reads the layer of the quotient. -/
structure LooksUp (policy : FecPolicy) (loss : ℚ) (ddlLeft : Time) (input : PolicyInput) : Prop where
  handed : ∃ handed, handedDdlLeft ddlLeft = some handed ∧
    (handed.toNat : ℤ) = remainingMs ddlLeft
  layer : ∀ handed rtt, handedDdlLeft ddlLeft = some handed → policy.rttMs ddlLeft input = some rtt →
    ∃ call layer, policy.call loss handed input = some (some call) ∧ call.layer = some layer ∧
      (layer.toNat : ℤ) = clampTo 1 15 (remainingMs ddlLeft / rtt)

/-- The quotient by the policy's RTT exists and survives its narrowing. -/
def Divides (ddlLeft : Time) (input : PolicyInput) : FecPolicy → Prop
  | fecOnly => input.isRtx = false → 1000000 ≤ ddlLeft
  | rtxOnly => True
  | hairpin => 0 < getMicroSeconds input.netStat.srtt ∧
      getMicroSeconds input.netStat.srtt ≤ 65535000 ∧
      (remainingMs ddlLeft / ceilMs input.netStat.srtt < 256 ∨
        15 ≤ remainingMs ddlLeft / ceilMs input.netStat.srtt % 256)

theorem lookup_iff {handed : UInt16} {rtt : ℤ} {c : FecCountCall}
    (hCall : policy.call loss handed input = some (some c))
    (hRemaining : (c.remainingTime.toNat : ℤ) = remainingMs ddlLeft) (hRtt : (c.rtt.toNat : ℤ) = rtt) :
    (∃ call layer, policy.call loss handed input = some (some call) ∧ call.layer = some layer ∧
      (layer.toNat : ℤ) = clampTo 1 15 (remainingMs ddlLeft / rtt)) ↔
    c.rtt ≠ 0 ∧ (remainingMs ddlLeft / rtt < 256 ∨ 15 ≤ remainingMs ddlLeft / rtt % 256) := by
  have hQuotient : remainingMs ddlLeft / rtt = ((c.remainingTime.toNat / c.rtt.toNat : ℕ) : ℤ) := by
    rw [← hRemaining, ← hRtt, Int.natCast_ediv]
  have hExact := @FecCountCall.layer_exact_iff c
  rw [← Int.natCast_ediv, ← hQuotient] at hExact
  have hBounds : (remainingMs ddlLeft / rtt < 256 ∨ 15 ≤ remainingMs ddlLeft / rtt % 256) ↔
      c.remainingTime.toNat / c.rtt.toNat < 256 ∨
        15 ≤ c.remainingTime.toNat / c.rtt.toNat % 256 := by
    rw [hQuotient]
    omega
  rw [hBounds, ← hExact]
  constructor
  · rintro ⟨call, layer, hSome, hLayer⟩
    rw [hCall, Option.some.injEq, Option.some.injEq] at hSome
    rw [hSome]
    exact ⟨layer, hLayer⟩
  · rintro ⟨layer, hLayer⟩
    exact ⟨c, layer, hCall, hLayer⟩

theorem call_iff {handed : UInt16} {rtt : ℤ} (hHanded : (handed.toNat : ℤ) = remainingMs ddlLeft)
    (hRtt : policy.rttMs ddlLeft input = some rtt) :
    (∃ call layer, policy.call loss handed input = some (some call) ∧ call.layer = some layer ∧
      (layer.toNat : ℤ) = clampTo 1 15 (remainingMs ddlLeft / rtt)) ↔ policy.Divides ddlLeft input := by
  cases policy with
  | fecOnly =>
    obtain ⟨hNew, hEq⟩ := Option.ite_none_left_eq_some.mp hRtt
    have hCall : fecOnly.call loss handed input =
        some (some ⟨loss, input.frameSize, handed, handed, input.maxGroupSize.toUInt8⟩) :=
      congrArg some (if_neg hNew)
    have hSelf : remainingMs ddlLeft = rtt := Option.some.inj hEq
    rw [lookup_iff hCall hHanded (hHanded.trans hSelf), ← hSelf]
    constructor
    · rintro ⟨hNe, -⟩ -
      have hNat : handed.toNat ≠ 0 := fun hZero => hNe (UInt16.toNat_inj.mp hZero)
      exact remainingMs_pos.mp (by omega)
    · intro hDivides
      have hPos := remainingMs_pos.mpr (hDivides (Bool.eq_false_of_not_eq_true hNew))
      refine ⟨?_, .inl ?_⟩
      · rintro rfl
        rw [UInt16.toNat_zero] at hHanded
        omega
      · rw [Int.ediv_self hPos.ne']
        decide
  | rtxOnly => cases hRtt
  | hairpin =>
    have hEq : ceilMs input.netStat.srtt = rtt := Option.some.inj hRtt
    subst hEq
    by_cases hSrtt : ∃ srtt, hairpinRtt input.netStat.srtt = some srtt ∧ srtt ≠ 0
    · obtain ⟨hPos, hHigh⟩ := hairpinRtt_iff.mp hSrtt
      obtain ⟨srtt, hSome, hNe⟩ := hSrtt
      have hCall : hairpin.call loss handed input =
          some (some ⟨loss, input.frameSize, handed, srtt, input.maxGroupSize.toUInt8⟩) := by
        rw [call, hairpinCall, hSome]
        rfl
      rw [lookup_iff hCall hHanded (hairpinRtt_toNat hSome hNe)]
      constructor
      · rintro ⟨-, hBounds⟩
        exact ⟨hPos, hHigh, hBounds⟩
      · rintro ⟨-, -, hBounds⟩
        exact ⟨hNe, hBounds⟩
    · constructor
      · rintro ⟨call, layer, hCall, hLayer, -⟩
        obtain ⟨_, hMake, hEq⟩ := Option.map_eq_some_iff.mp hCall
        obtain rfl := Option.some.inj hEq
        obtain ⟨srtt, hSome, rfl⟩ := Option.map_eq_some_iff.mp hMake
        refine absurd ⟨srtt, hSome, ?_⟩ hSrtt
        rintro rfl
        cases hLayer
      · rintro ⟨hPos, hHigh, -⟩
        exact absurd (hairpinRtt_iff.mpr ⟨hPos, hHigh⟩) hSrtt

theorem divides_of_rttMs_eq_none (h : policy.rttMs ddlLeft input = none) :
    policy.Divides ddlLeft input := by
  cases policy with
  | fecOnly =>
    intro hNew
    rw [rttMs, hNew] at h
    cases h
  | rtxOnly => trivial
  | hairpin => cases h

theorem looksUp_iff : policy.LooksUp loss ddlLeft input ↔
    (-1000 < ddlLeft ∧ ddlLeft < 65536000000) ∧ policy.Divides ddlLeft input := by
  rw [← handed_iff]
  constructor
  · intro h
    refine ⟨h.handed, ?_⟩
    obtain ⟨handed, hHanded, hExact⟩ := h.handed
    rcases hRtt : policy.rttMs ddlLeft input with _ | rtt
    · exact divides_of_rttMs_eq_none hRtt
    · exact (call_iff hExact hRtt).mp (h.layer handed rtt hHanded hRtt)
  · rintro ⟨hHanded, hDivides⟩
    refine ⟨hHanded, ?_⟩
    intro handed rtt hSome hRtt
    obtain ⟨handed', hSome', hExact⟩ := hHanded
    obtain rfl := Option.some.inj (hSome'.symm.trans hSome)
    exact (call_iff hExact hRtt).mpr hDivides

theorem LooksUp.getFecParam_isSome {betaArray : ℕ → UInt8} {handed : UInt16}
    (h : policy.LooksUp loss ddlLeft input) (hHanded : handedDdlLeft ddlLeft = some handed)
    (hBeta : ∀ i < 51 * (11 * (15 * 55)), betaArray i ≠ 255) :
    (policy.getFecParam betaArray loss handed input).isSome = true := by
  cases policy with
  | fecOnly =>
    by_cases hRtx : input.isRtx = true
    · rw [getFecParam, fecOnlyCall, if_pos hRtx]
      rfl
    · obtain ⟨call, layer, hCall, hLayer, -⟩ := h.layer handed _ hHanded (if_neg hRtx)
      rw [getFecParam, Option.some.inj hCall]
      exact FecCountCall.fecParam_isSome hLayer hBeta
  | rtxOnly => rfl
  | hairpin =>
    obtain ⟨call, layer, hCall, hLayer, -⟩ := h.layer handed _ hHanded rfl
    obtain ⟨_, hMake, hEq⟩ := Option.map_eq_some_iff.mp hCall
    rw [getFecParam, hMake, Option.bind_some, Option.some.inj hEq]
    exact FecCountCall.fecParam_isSome hLayer hBeta

end FecPolicy

namespace Sender

/-- What a policy is told and looks up in a call of the sender. -/
theorem policyInput_looksUp_iff (policy : FecPolicy) (loss : ℚ) (s : Sender) (maxGroupSize : UInt16)
    (ddlLeft : Time) (fixGroupSize isRtx : Bool) (frameSize : UInt8) :
    policy.LooksUp loss ddlLeft (s.policyInput maxGroupSize ddlLeft fixGroupSize isRtx frameSize) ↔
      (-1000 < ddlLeft ∧ ddlLeft < 65536000000) ∧
        policy.Divides ddlLeft (s.policyInput maxGroupSize ddlLeft fixGroupSize isRtx frameSize) :=
  FecPolicy.looksUp_iff

/-- A frame of 101 packets with a dispersion of 1 ms takes longer than a deadline of 100 ms. -/
theorem negative_ddlLeft_not_handed :
    ¬ ∀ (policy : FecPolicy) (loss : ℚ) (s : Sender) (n : ℕ) (fixGroupSize isRtx : Bool)
      (frameSize : UInt8), policy.LooksUp loss (s.frameDdlLeft n)
        (s.policyInput (UInt16.ofNat n) (s.frameDdlLeft n) fixGroupSize isRtx frameSize) := by
  intro hAll
  have hLooksUp := hAll .hairpin 0 (create 100000000 ⟨20000000, 20000000, 0, 1000000⟩) 101 false false
    101
  have hRange := (FecPolicy.looksUp_iff.mp hLooksUp).1
  revert hRange
  decide

end Sender
end Bullet.Stream
