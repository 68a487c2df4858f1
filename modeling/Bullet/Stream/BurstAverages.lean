import Mathlib.Algebra.Group.Action.Defs
import Mathlib.Algebra.Order.BigOperators.Group.List
import Mathlib.Algebra.Order.Group.Nat
import Mathlib.Data.Nat.Cast.Order.Basic
import Bullet.Stream.BurstGrouping

/-! # The averages of the bursts

The controller should be told the differences of the floor means and of the sizes of consecutive
bursts. The sums of the first burst leave its first packet out, which its count includes; so the
first call alone goes wrong, unless the mean of the first burst does without that packet.
-/

namespace Bullet.Stream

open Lib Lib.PartialRun

variable {b b' c : List FedBackPkt} {p : FedBackPkt} {k : ℕ} {t : ℕ}

def sumTx (b : List FedBackPkt) : ℕ := (b.map fun p => p.txTime.toNat).sum

def sumRx (b : List FedBackPkt) : ℕ := (b.map fun p => p.rtUs.toNat).sum

def burstSize (b : List FedBackPkt) : ℕ := (b.map fun p => p.size.toNat).sum

/-- What a call tells of two consecutive bursts. -/
@[ext]
structure Difference where
  arrival : ℤ
  departure : ℤ
  size : ℤ
deriving DecidableEq, Repr

/-- The differences of two bursts when the times of some of their packets are summed. -/
def differenceOf (part : List FedBackPkt) (b' b : List FedBackPkt) : Difference where
  arrival := (sumRx b / b.length : ℕ) - (sumRx part / b'.length : ℕ)
  departure := (sumTx b / b.length : ℕ) - (sumTx part / b'.length : ℕ)
  size := (burstSize b : ℤ) - burstSize b'

/-- The differences of the floor means and of the sizes of consecutive bursts. -/
def differences : List (List FedBackPkt) → List Difference
  | b' :: b :: rest => differenceOf b' b' b :: differences (b :: rest)
  | _ => []

def BurstFeedback.difference (f : BurstFeedback) : Difference where
  arrival := f.interArrival.toInt
  departure := f.interDeparture.toNat
  size := f.interGroupSize.toInt

/-- The counters hold the sums of the burst. -/
structure FitsBurst (b : List FedBackPkt) : Prop where
  length : b.length < 2 ^ 16
  sumTx : sumTx b < 2 ^ 64
  early : ∀ p ∈ b, p.txTime.toNat < 2 ^ 63
  size : burstSize b < 2 ^ 31

instance (b : List FedBackPkt) : Decidable (FitsBurst b) :=
  decidable_of_iff (b.length < 2 ^ 16 ∧ Bullet.Stream.sumTx b < 2 ^ 64 ∧
      (∀ p ∈ b, p.txTime.toNat < 2 ^ 63) ∧ burstSize b < 2 ^ 31)
    ⟨fun ⟨hLength, hTx, hEarly, hSize⟩ => ⟨hLength, hTx, hEarly, hSize⟩,
      fun h => ⟨h.length, h.sumTx, h.early, h.size⟩⟩

/-! ## Words -/

theorem toInt_sub_toInt64 {x y : UInt64} (hX : x.toNat < 2 ^ 63) (hY : y.toNat < 2 ^ 63) :
    (x - y).toInt64.toInt = (x.toNat : ℤ) - y.toNat := by
  have hSub := UInt64.toNat_sub x y
  have hInt : (x - y).toInt64.toInt = if 2 * (x - y).toNat < 2 ^ 64 then
      ((x - y).toNat : ℤ) else ((x - y).toNat : ℤ) - (2 ^ 64 : ℕ) :=
    BitVec.toInt_eq_toNat_cond (x - y).toBitVec
  rw [hInt, hSub]
  split <;> omega

theorem toInt_sub_int32 {x y : Int32} (hX : 0 ≤ x.toInt) (hY : 0 ≤ y.toInt) :
    (x - y).toInt = x.toInt - y.toInt := by
  have hXlt := x.toInt_lt
  have hYlt := y.toInt_lt
  rw [Int32.toInt_sub]
  apply Int.bmod_eq_of_le <;> omega

theorem lt_of_lessThan64 {start tx : UInt64} (hStart : start.toNat < 2 ^ 63) (hTx : tx.toNat < 2 ^ 63)
    (hLess : lessThan64 start tx = true) : start.toNat < tx.toNat := by
  rw [lessThan64, decide_eq_true_iff, UInt64.lt_iff_toNat_lt, UInt64.toNat_sub,
    UInt64.toNat_sub] at hLess
  omega

/-! ## Sums -/

@[simp] theorem sumTx_append (b c : List FedBackPkt) : sumTx (b ++ c) = sumTx b + sumTx c := by
  rw [sumTx, List.map_append, List.sum_append]
  rfl

@[simp] theorem sumRx_append (b c : List FedBackPkt) : sumRx (b ++ c) = sumRx b + sumRx c := by
  rw [sumRx, List.map_append, List.sum_append]
  rfl

@[simp] theorem burstSize_append (b c : List FedBackPkt) :
    burstSize (b ++ c) = burstSize b + burstSize c := by
  rw [burstSize, List.map_append, List.sum_append]
  rfl

@[simp] theorem sumTx_singleton (p : FedBackPkt) : sumTx [p] = p.txTime.toNat := Nat.add_zero _

@[simp] theorem sumRx_singleton (p : FedBackPkt) : sumRx [p] = p.rtUs.toNat := Nat.add_zero _

@[simp] theorem burstSize_singleton (p : FedBackPkt) : burstSize [p] = p.size.toNat := Nat.add_zero _

theorem sumTx_le_of_sublist (hSub : c.Sublist b) : sumTx c ≤ sumTx b :=
  (hSub.map _).sum_le_sum fun _ _ => Nat.zero_le _

theorem sumRx_le (b : List FedBackPkt) : sumRx b ≤ b.length * 2 ^ 32 := by
  have hSum := List.sum_le_card_nsmul (b.map fun p => p.rtUs.toNat) (2 ^ 32) (by
    intro n hMem
    obtain ⟨p, -, rfl⟩ := List.mem_map.mp hMem
    exact p.rtUs.toNat_lt.le)
  rwa [List.length_map, smul_eq_mul] at hSum

theorem sumTx_lt (hSome : b ≠ []) (hBefore : ∀ p ∈ b, p.txTime.toNat < t) :
    sumTx b < b.length * t := by
  induction b with
  | nil => exact absurd rfl hSome
  | cons p b ih =>
    obtain ⟨hFirst, hRest⟩ := List.forall_mem_cons.mp hBefore
    have hCons : sumTx (p :: b) = p.txTime.toNat + sumTx b := List.sum_cons
    obtain rfl | hMore := eq_or_ne b []
    · rw [hCons, List.length_singleton, Nat.one_mul]
      exact hFirst
    · have hSum := ih hMore hRest
      rw [hCons, List.length_cons, Nat.succ_mul]
      omega

theorem le_sumTx (hFrom : ∀ p ∈ b, t ≤ p.txTime.toNat) : b.length * t ≤ sumTx b := by
  have hSum := List.card_nsmul_le_sum (b.map fun p => p.txTime.toNat) t (by
    intro n hMem
    obtain ⟨p, hP, rfl⟩ := List.mem_map.mp hMem
    exact hFrom p hP)
  rwa [List.length_map, smul_eq_mul] at hSum

/-- The mean of an earlier burst is below that of a later one. -/
theorem mean_le_mean (hB : b' ≠ []) (hC : b ≠ []) (hSub : c.Sublist b')
    (hBefore : ∀ p ∈ b', p.txTime.toNat < t) (hFrom : ∀ p ∈ b, t ≤ p.txTime.toNat) :
    sumTx c / b'.length ≤ sumTx b / b.length := by
  have hLow : sumTx c / b'.length < t := by
    apply Nat.div_lt_of_lt_mul
    exact (sumTx_le_of_sublist hSub).trans_lt (sumTx_lt hB hBefore)
  have hHigh : t ≤ sumTx b / b.length := by
    rw [Nat.le_div_iff_mul_le (List.length_pos_iff.mpr hC), Nat.mul_comm]
    exact le_sumTx hFrom
  exact hLow.le.trans hHigh

/-! ## The state and its bursts -/

/-- The counters of a burst hold its length and its size, and the times of some of its packets. -/
structure Holds (count : UInt16) (tx rx : UInt64) (size : Int32) (part b : List FedBackPkt) :
    Prop where
  fits : FitsBurst b
  sublist : part.Sublist b
  count : count.toNat = b.length
  tx : tx.toNat = sumTx part
  rx : rx.toNat = sumRx part
  size : size.toInt = burstSize b

variable {count : UInt16} {tx rx : UInt64} {size : Int32} {part : List FedBackPkt}

theorem Holds.nil : Holds 0 0 0 0 [] [] :=
  ⟨⟨by decide, by decide, (fun _ hMem => by cases hMem), by decide⟩, List.Sublist.refl _, rfl, rfl, rfl,
    rfl⟩

theorem Holds.add (h : Holds count tx rx size part b) (hFits : FitsBurst (b ++ [p])) :
    Holds (count + 1) (tx + p.txTime) (rx + p.rtUs.toUInt64)
      (Int32.ofInt (size.toInt + p.size.toNat)) (part ++ [p]) (b ++ [p]) := by
  have hSub := h.sublist.append (List.Sublist.refl [p])
  have hLength := hFits.length
  have hTx := (sumTx_le_of_sublist hSub).trans_lt hFits.sumTx
  have hRx := (sumRx_le (part ++ [p]))
  have hShort := hSub.length_le
  have hSize := hFits.size
  rw [sumTx_append, sumTx_singleton] at hTx
  rw [sumRx_append, sumRx_singleton] at hRx
  rw [burstSize_append, burstSize_singleton] at hSize
  rw [List.length_append, List.length_singleton] at hLength
  refine ⟨hFits, hSub, ?_, ?_, ?_, ?_⟩
  · rw [UInt16.toNat_add, h.count, List.length_append, List.length_singleton]
    exact Nat.mod_eq_of_lt hLength
  · rw [UInt64.toNat_add, h.tx, sumTx_append, sumTx_singleton]
    exact Nat.mod_eq_of_lt hTx
  · rw [UInt64.toNat_add, h.rx, UInt32.toNat_toUInt64, sumRx_append, sumRx_singleton]
    have hBound : (part ++ [p]).length < 2 ^ 16 := hShort.trans_lt hFits.length
    exact Nat.mod_eq_of_lt (by omega)
  · rw [h.size, Int32.toInt_ofInt_of_le (by omega) (by omega), burstSize_append,
      burstSize_singleton, Int.natCast_add]

theorem Holds.mean_lt (h : Holds count tx rx size part b) :
    (rx / count.toUInt64).toNat < 2 ^ 63 := by
  have hSum := sumRx_le part
  have hShort := h.sublist.length_le.trans_lt h.fits.length
  have hDiv := Nat.div_le_self (sumRx part) b.length
  rw [UInt64.toNat_div, UInt16.toNat_toUInt64, h.rx, h.count]
  omega

namespace BurstGrouping

variable {s t : BurstGrouping}

/-- The packets of a burst whose times are summed: those of the first burst but its first packet. -/
def summed : ℕ → List FedBackPkt → List FedBackPkt
  | 0, b => b.tail
  | _ + 1, b => b

theorem summed_append {b : List FedBackPkt} (hSome : b ≠ []) (k : ℕ) (p : FedBackPkt) :
    summed k b ++ [p] = summed k (b ++ [p]) := by
  cases k with
  | zero => exact (List.tail_append_of_ne_nil hSome).symm
  | succ k => rfl

/-- The differences as the code computes them. -/
def countedDifferences : List (List FedBackPkt) → List Difference
  | b' :: b :: rest => differenceOf b'.tail b' b :: differences (b :: rest)
  | _ => []

theorem differences_append (l : List (List FedBackPkt)) (b' b : List FedBackPkt) :
    differences (l ++ [b', b]) = differences (l ++ [b']) ++ [differenceOf b' b' b] := by
  induction l with
  | nil => rfl
  | cons c l ih =>
    cases l with
    | nil => rfl
    | cons d l => exact congrArg (differenceOf c c d :: ·) ih

theorem countedDifferences_append (l : List (List FedBackPkt)) (b' b : List FedBackPkt) :
    countedDifferences (l ++ [b', b]) =
      countedDifferences (l ++ [b']) ++ [differenceOf (summed l.length b') b' b] := by
  cases l with
  | nil => rfl
  | cons c l =>
    have hRest := differences_append l b' b
    cases l with
    | nil => rfl
    | cons d l => exact congrArg (differenceOf c.tail c d :: ·) hRest

/-- A call tells the differences that the counters hold. -/
theorem burstFeedback_difference {c b' b : List FedBackPkt} (p : FedBackPkt)
    (hPrev : Holds s.prevPktsInFrame s.prevFrameTxTime s.prevFrameRxTime s.prevGroupSize c b')
    (hCurr : Holds s.currPktsInFrame s.currFrameTxTime s.currFrameRxTime s.groupSize b b)
    (hMean : sumTx c / b'.length ≤ sumTx b / b.length) :
    (s.burstFeedback p).difference = differenceOf c b' b := by
  have hArrival := toInt_sub_toInt64 hCurr.mean_lt hPrev.mean_lt
  have hSize : (s.groupSize - s.prevGroupSize).toInt = _ := toInt_sub_int32
    (hCurr.size ▸ Int.natCast_nonneg _) (hPrev.size ▸ Int.natCast_nonneg _)
  have hDeparture : (s.currFrameTxTime / s.currPktsInFrame.toUInt64 -
      s.prevFrameTxTime / s.prevPktsInFrame.toUInt64).toNat =
        sumTx b / b.length - sumTx c / b'.length := by
    rw [UInt64.toNat_sub_of_le, UInt64.toNat_div, UInt64.toNat_div, UInt16.toNat_toUInt64,
      UInt16.toNat_toUInt64, hCurr.tx, hCurr.count, hPrev.tx, hPrev.count]
    rw [UInt64.le_iff_toNat_le, UInt64.toNat_div, UInt64.toNat_div, UInt16.toNat_toUInt64,
      UInt16.toNat_toUInt64, hCurr.tx, hCurr.count, hPrev.tx, hPrev.count]
    exact hMean
  rw [UInt64.toNat_div, UInt64.toNat_div, UInt16.toNat_toUInt64, UInt16.toNat_toUInt64, hCurr.rx,
    hCurr.count, hPrev.rx, hPrev.count] at hArrival
  rw [hCurr.size, hPrev.size] at hSize
  rw [BurstFeedback.difference, burstFeedback, differenceOf]
  refine Difference.ext hArrival ?_ hSize
  exact (congrArg Nat.cast hDeparture).trans (Int.natCast_sub hMean)

/-! ## Along a run -/

/-- The state after the first packet, with its bursts. -/
structure Tracks (s : BurstGrouping) : Prop where
  started : s.firstFeedback = false
  groupId : s.groupId.toNat = s.bursts.length
  nonempty : s.current ≠ []
  current : Holds s.currPktsInFrame s.currFrameTxTime s.currFrameRxTime s.groupSize
    (summed s.bursts.length s.current) s.current
  start : s.groupstartTxTime.toNat < 2 ^ 63
  span : ∀ q ∈ s.current, s.groupstartTxTime.toNat ≤ q.txTime.toNat ∧
    q.txTime.toNat ≤ s.groupstartTxTime.toNat + 10000
  previous : ∀ l b, s.bursts = l ++ [b] → b ≠ [] ∧
    Holds s.prevPktsInFrame s.prevFrameTxTime s.prevFrameRxTime s.prevGroupSize
      (summed l.length b) b ∧ ∀ q ∈ b, q.txTime.toNat < s.groupstartTxTime.toNat
  feedbacks : s.feedbacks.map BurstFeedback.difference = countedDifferences s.bursts

/-- The burst that a packet ends up in. -/
def burstWith (s : BurstGrouping) (p : FedBackPkt) : List FedBackPkt :=
  if !s.firstFeedback && s.switches p then [p] else s.current ++ [p]

/-- The counters hold the burst of the packet, if it gets into one, and the number of bursts. -/
structure Fits (s : BurstGrouping) (p : FedBackPkt) : Prop where
  bursts : s.bursts.length + 1 < 2 ^ 32
  burst : s.firstFeedback = true ∨ s.accepts p = true → FitsBurst (s.burstWith p)

instance (s : BurstGrouping) (p : FedBackPkt) : Decidable (s.Fits p) :=
  decidable_of_iff (s.bursts.length + 1 < 2 ^ 32 ∧
      (s.firstFeedback = true ∨ s.accepts p = true → FitsBurst (s.burstWith p)))
    ⟨fun ⟨hBursts, hBurst⟩ => ⟨hBursts, hBurst⟩, fun h => ⟨h.bursts, h.burst⟩⟩

theorem tracks_first {interval : UInt16} (hFits : Fits (create interval) p) :
    ((create interval).first p).Tracks where
  started := rfl
  groupId := rfl
  nonempty := List.cons_ne_nil p []
  current := by
    have hBurst := hFits.burst (Or.inl rfl)
    have hSize : burstSize [p] < 2 ^ 31 := hBurst.size
    rw [burstSize_singleton] at hSize
    refine ⟨hBurst, List.nil_sublist [p], rfl, rfl, rfl, ?_⟩
    change _ = ((burstSize [p] : ℕ) : ℤ)
    rw [burstSize_singleton]
    exact Int32.toInt_ofNat_of_lt hSize
  start := (hFits.burst (Or.inl rfl)).early p List.mem_cons_self
  span q hMem := by
    rw [List.mem_singleton.mp hMem]
    exact ⟨le_rfl, Nat.le_add_right _ 10000⟩
  previous l b hEq := by
    exact absurd hEq.symm (List.append_ne_nil_of_right_ne_nil l (List.cons_ne_nil b []))
  feedbacks := rfl

/-- An accepted packet did not depart before the group. -/
theorem Tracks.start_le (h : s.Tracks) (hEarly : p.txTime.toNat < 2 ^ 63)
    (hAccepts : s.accepts p = true) : s.groupstartTxTime.toNat ≤ p.txTime.toNat := by
  rw [accepts, Bool.or_eq_true, Bool.and_eq_true, decide_eq_true_iff, decide_eq_true_iff] at hAccepts
  obtain ⟨hLess, -⟩ | hSame := hAccepts
  · exact (lt_of_lessThan64 h.start hEarly hLess).le
  · rw [hSame]

theorem switches_iff (hLe : s.groupstartTxTime.toNat ≤ p.txTime.toNat) :
    s.switches p = true ↔ s.groupstartTxTime.toNat + 10000 < p.txTime.toNat := by
  rw [switches, decide_eq_true_iff, UInt64.lt_iff_toNat_lt,
    UInt64.toNat_sub_of_le _ _ (UInt64.le_iff_toNat_le.mpr hLe)]
  change 10000 < _ ↔ _
  omega

theorem Tracks.addPkt (h : s.Tracks) (hFits : FitsBurst (s.current ++ [p]))
    (hLe : s.groupstartTxTime.toNat ≤ p.txTime.toNat)
    (hNear : p.txTime.toNat ≤ s.groupstartTxTime.toNat + 10000) : (s.addPkt p).Tracks where
  started := h.started
  groupId := h.groupId
  nonempty := List.append_ne_nil_of_right_ne_nil _ (List.cons_ne_nil p [])
  current := by
    have hAdd := h.current.add hFits
    rwa [summed_append h.nonempty] at hAdd
  start := h.start
  span q hMem := by
    obtain hMem | hMem := List.mem_append.mp hMem
    · exact h.span q hMem
    · rw [List.mem_singleton.mp hMem]
      exact ⟨hLe, hNear⟩
  previous := h.previous
  feedbacks := h.feedbacks

/-- The end of a burst reports its differences to the burst before it, if there is one. -/
theorem Tracks.report (h : s.Tracks) (p : FedBackPkt) :
    ∃ feedbacks, s.report p = some { s with feedbacks := feedbacks } ∧
      feedbacks.map BurstFeedback.difference = countedDifferences (s.bursts ++ [s.current]) := by
  have hIds := h.groupId
  obtain hNil | ⟨l, b, hBursts⟩ := List.eq_nil_or_concat' s.bursts
  · have hZero : ¬ 0 < s.groupId := by
      rw [UInt32.lt_iff_toNat_lt, hIds, hNil]
      exact Nat.lt_irrefl 0
    refine ⟨s.feedbacks, ?_, ?_⟩
    · rw [BurstGrouping.report, if_neg hZero]
    · rw [h.feedbacks, hNil]
      rfl
  · obtain ⟨hSome, hPrev, hBefore⟩ := h.previous l b hBursts
    have hPos : 0 < s.groupId := by
      rw [UInt32.lt_iff_toNat_lt, hIds, hBursts, List.length_append]
      exact Nat.succ_pos l.length
    have hCurr := h.current
    rw [hBursts, List.length_append] at hCurr
    have hPrevPkts : s.prevPktsInFrame ≠ 0 := fun hZero => by
      have hCount := hPrev.count
      rw [hZero] at hCount
      exact hSome (List.length_eq_zero_iff.mp hCount.symm)
    have hCurrPkts : s.currPktsInFrame ≠ 0 := fun hZero => by
      have hCount := hCurr.count
      rw [hZero] at hCount
      exact h.nonempty (List.length_eq_zero_iff.mp hCount.symm)
    have hMean := mean_le_mean hSome h.nonempty hPrev.sublist hBefore fun q hMem =>
      (h.span q hMem).1
    refine ⟨s.feedbacks ++ [s.burstFeedback p], ?_, ?_⟩
    · rw [BurstGrouping.report, if_pos hPos, if_neg (not_or.mpr ⟨hPrevPkts, hCurrPkts⟩)]
    · rw [List.map_append, h.feedbacks, hBursts, List.append_assoc, List.singleton_append,
        countedDifferences_append, List.map_singleton,
        burstFeedback_difference p hPrev hCurr hMean]
      rfl

theorem Tracks.newBurst (h : s.Tracks) (hFits : FitsBurst [p])
    (hBursts : s.bursts.length + 1 < 2 ^ 32)
    (hFar : s.groupstartTxTime.toNat + 10000 < p.txTime.toNat) :
    ∃ t, (s.report p).map (fun reported => (reported.newBurst p).addPkt p) = some t ∧
      t.Tracks := by
  obtain ⟨feedbacks, hReport, hFeedbacks⟩ := h.report p
  rw [hReport]
  refine ⟨_, rfl, ?_⟩
  refine {
    started := h.started
    groupId := ?_
    nonempty := List.cons_ne_nil p []
    current := ?_
    start := hFits.early p List.mem_cons_self
    span := ?_
    previous := ?_
    feedbacks := hFeedbacks }
  · change (s.groupId + 1).toNat = (s.bursts ++ [s.current]).length
    rw [UInt32.toNat_add, h.groupId, List.length_append]
    exact Nat.mod_eq_of_lt hBursts
  · have hAdd := Holds.nil.add hFits
    change Holds _ _ _ _ (BurstGrouping.summed (s.bursts ++ [s.current]).length ([] ++ [p])) _
    rw [List.length_append]
    exact hAdd
  · intro q hMem
    rw [List.mem_singleton.mp hMem]
    exact ⟨le_rfl, Nat.le_add_right _ 10000⟩
  · intro l b hEq
    obtain ⟨rfl, hLast⟩ := List.append_inj' hEq rfl
    cases hLast
    exact ⟨h.nonempty, h.current, fun q hMem => (h.span q hMem).2.trans_lt hFar⟩

/-- A packet whose burst fits keeps the state in step with the bursts. -/
theorem Tracks.step (h : s.Tracks) (hFits : s.Fits p) : ∃ t, step s p = some t ∧ t.Tracks := by
  rw [BurstGrouping.step, if_neg (by rw [h.started]; exact Bool.false_ne_true)]
  split
  · next hAccepts =>
    have hBurst := hFits.burst (Or.inr hAccepts)
    rw [burstWith, h.started, Bool.not_false, Bool.true_and] at hBurst
    split at hBurst
    · next hSwitches =>
      have hLe := h.start_le (hBurst.early p List.mem_cons_self) hAccepts
      rw [if_pos hSwitches]
      exact h.newBurst hBurst hFits.bursts ((switches_iff hLe).mp hSwitches)
    · next hSame =>
      have hLe := h.start_le (hBurst.early p (List.mem_append_right _ List.mem_cons_self)) hAccepts
      rw [if_neg hSame]
      rw [switches_iff hLe, Nat.not_lt] at hSame
      exact ⟨_, rfl, h.addPkt hBurst hLe hSame⟩
  · exact ⟨s, rfl, h⟩

theorem tracks_of_run {interval : UInt16} {items : List FedBackPkt}
    (hFits : StepsMeet step Fits (create interval) (p :: items)) :
    ∃ s, run step (create interval) (p :: items) = some s ∧ s.Tracks := by
  have hAdvances : Advances step Fits Tracks fun _ _ => True :=
    { refl := fun _ => trivial
      trans := fun _ _ _ _ _ => trivial
      advance := fun s q hTracks hFits => by
        obtain ⟨t, hStep, hNext⟩ := hTracks.step hFits
        exact ⟨t, hStep, hNext, trivial⟩ }
  obtain ⟨s, hRun, hTracks, -⟩ := hAdvances.run (tracks_first hFits.1) (hFits.2 _ rfl)
  exact ⟨s, hRun, hTracks⟩

/-- The floor means of the first of several bursts do without its first packet. -/
def FirstMeanKept : List (List FedBackPkt) → Prop
  | b' :: _ :: _ =>
    sumTx b'.tail / b'.length = sumTx b' / b'.length ∧
      sumRx b'.tail / b'.length = sumRx b' / b'.length
  | _ => True

theorem countedDifferences_eq_iff (bursts : List (List FedBackPkt)) :
    countedDifferences bursts = differences bursts ↔ FirstMeanKept bursts := by
  match bursts with
  | [] | [_] => exact iff_of_true rfl trivial
  | b' :: b :: rest =>
    rw [countedDifferences, differences, FirstMeanKept, List.cons.injEq,
      and_iff_left rfl, differenceOf, differenceOf, Difference.mk.injEq, sub_right_inj,
      sub_right_inj, Int.natCast_inj, Int.natCast_inj]
    exact ⟨fun h => ⟨h.2.1, h.1⟩, fun h => ⟨h.2, h.1, rfl⟩⟩

/-- As long as the counters hold the bursts, the calls tell the differences of consecutive bursts
exactly when the means of the first burst do without its first packet. -/
theorem feedbacks_right_iff (interval : UInt16) {items : List FedBackPkt}
    (hFits : StepsMeet step Fits (create interval) items) :
    ∃ s, run step (create interval) items = some s ∧
      (s.feedbacks.map BurstFeedback.difference = differences s.bursts ↔
        FirstMeanKept s.bursts) := by
  cases items with
  | nil => exact ⟨_, rfl, iff_of_true rfl trivial⟩
  | cons p items =>
    obtain ⟨s, hRun, hTracks⟩ := tracks_of_run hFits
    refine ⟨s, hRun, ?_⟩
    rw [hTracks.feedbacks, countedDifferences_eq_iff]

/-- Three bursts of a packet each, twenty milliseconds apart. -/
def threeBursts : List FedBackPkt :=
  [⟨1100000, 0, 1030000, 1000000, 1200⟩, ⟨1100000, 1, 1051000, 1020000, 1300⟩,
    ⟨1100000, 2, 1072000, 1040000, 1200⟩]

theorem feedbacks_threeBursts :
    ∃ s, run step (create 17) threeBursts = some s ∧
      (s.feedbacks.map BurstFeedback.difference = differences s.bursts ↔
        FirstMeanKept s.bursts) :=
  feedbacks_right_iff 17 (by decide)

/-- The first call takes the mean times of the first burst for zero. -/
theorem first_packet_not_summed :
    ∃ s, run step (create 17) threeBursts = some s ∧
      s.feedbacks.map BurstFeedback.difference = [⟨1051000, 1020000, 100⟩] ∧
      differences s.bursts = [⟨21000, 20000, 100⟩] :=
  ⟨_, rfl, by decide, by decide⟩

end BurstGrouping

end Bullet.Stream
