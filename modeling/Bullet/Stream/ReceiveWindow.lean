import Mathlib.Algebra.Group.Action.Defs
import Mathlib.Algebra.Order.BigOperators.Group.List
import Bullet.Stream.NetRecord

/-! # The window of received packets

The record holds the packets of the window in the order of their ids, with the sum of their sizes,
as long as the test in 32 bits tells the expired packets and the loop that erases them passes over
none of them.
-/

namespace Bullet.Stream

open Lib Lib.PartialRun Lib.SlidingWindow Lib.SerialNumber Lib.SortedInsert

variable {skips : SkipsNext} {expired : RecordedPkt → Bool} {before l : List RecordedPkt}
  {p q : RecordedPkt} {bytes : UInt32} {ids : List UInt16}

/-- All ids lie in the half of the id space that begins at one of them. -/
def InOneHalf (ids : List UInt16) : Prop :=
  ∃ base ∈ ids, ∀ id ∈ ids, InHalf base.toBitVec id.toBitVec

instance (ids : List UInt16) : Decidable (InOneHalf ids) :=
  have (base : UInt16) : Decidable (∀ id ∈ ids, InHalf base.toBitVec id.toBitVec) :=
    List.decidableBAll _ ids
  List.decidableBEx _ ids

theorem InOneHalf.perm {ids' : List UInt16} (hHalf : InOneHalf ids) (hPerm : ids.Perm ids') :
    InOneHalf ids' := by
  obtain ⟨base, hBase, hAll⟩ := hHalf
  exact ⟨base, hPerm.mem_iff.mp hBase, fun id hMem => hAll id (hPerm.mem_iff.mpr hMem)⟩

/-- Half of the id space has so many ids. -/
theorem InOneHalf.length_le (hHalf : InOneHalf ids) (hDistinct : ids.Nodup) :
    ids.length ≤ 32768 := by
  obtain ⟨base, -, hAll⟩ := hHalf
  have hOffsets : (ids.map fun id => ahead base.toBitVec id.toBitVec).Nodup := by
    refine hDistinct.map_on fun a _ b _ hEq => ?_
    exact UInt16.toBitVec_inj.mp (ahead_inj.mp hEq)
  have hRange : ids.map (fun id => ahead base.toBitVec id.toBitVec) ⊆ List.range 32768 := by
    intro n hMem
    obtain ⟨id, hId, rfl⟩ := List.mem_map.mp hMem
    have hOffset : 2 * ahead base.toBitVec id.toBitVec < 65536 := hAll id hId
    rw [List.mem_range]
    omega
  have hLength := (List.subperm_of_subset hOffsets hRange).length_le
  rwa [List.length_map, List.length_range] at hLength

/-- In one half of the id space the order of the record is transitive. -/
theorem transOn_of_inOneHalf (hHalf : InOneHalf (l.map RecordedPkt.pktId)) :
    TransOn IdOrder l := by
  obtain ⟨base, -, hAll⟩ := hHalf
  have hIn : ∀ p ∈ l, InHalf base.toBitVec p.pktId.toBitVec := fun p hMem =>
    hAll p.pktId (List.mem_map_of_mem hMem)
  intro p hP q hQ r hR hPq hQr
  exact lessThanSimple_iff.mpr ((hIn p hP).trans (hIn q hQ) (hIn r hR)
    (lessThanSimple_iff.mp hPq) (lessThanSimple_iff.mp hQr))

/-- Of two different ids in one half of the id space, one is before the other. -/
theorem idOrder_or (hHalf : InOneHalf (l.map RecordedPkt.pktId)) (hP : p ∈ l) (hQ : q ∈ l)
    (hNe : p.pktId ≠ q.pktId) : IdOrder p q ∨ IdOrder q p := by
  obtain ⟨base, -, hAll⟩ := hHalf
  have hConnex := (hAll p.pktId (List.mem_map_of_mem hP)).connex
    (hAll q.pktId (List.mem_map_of_mem hQ)) fun hEq => hNe (UInt16.toBitVec_inj.mp hEq)
  exact hConnex.imp lessThanSimple_iff.mpr lessThanSimple_iff.mpr

/-! ## The sliding of the window -/

/-- The bytes of a list of packets. -/
def totalSize (l : List RecordedPkt) : ℕ := (l.map fun p => p.pktSize.toNat).sum

@[simp] theorem totalSize_nil : totalSize [] = 0 := rfl

@[simp] theorem totalSize_cons (p : RecordedPkt) (l : List RecordedPkt) :
    totalSize (p :: l) = p.pktSize.toNat + totalSize l := List.sum_cons

@[simp] theorem totalSize_append (l m : List RecordedPkt) :
    totalSize (l ++ m) = totalSize l + totalSize m := by
  rw [totalSize, List.map_append, List.sum_append]
  rfl

theorem totalSize_perm {m : List RecordedPkt} (hPerm : l.Perm m) : totalSize l = totalSize m :=
  (hPerm.map _).sum_eq

/-- The entries that the loop passes over, after so many visited ones. -/
def passedBy (skips : SkipsNext) (expired : RecordedPkt → Bool) (visited : ℕ) :
    List RecordedPkt → List RecordedPkt
  | [] | [_] => []
  | p :: q :: rest =>
    if expired p then
      if skips visited (visited + (rest.length + 2)) then
        q :: passedBy skips expired (visited + 1) rest
      else passedBy skips expired visited (q :: rest)
    else passedBy skips expired (visited + 1) (q :: rest)

/-- A loop that passes over no expired entry erases the expired ones. -/
theorem slideOn_record
    (hPassed : ∀ q ∈ passedBy skips expired before.length l, expired q = false) :
    (slideOn skips expired before l bytes).1 = before ++ l.filter fun p => !expired p := by
  fun_induction slideOn skips expired before l bytes with
  | case1 before bytes => exact (List.append_nil before).symm
  | case2 before p bytes hExpired => simp [hExpired]
  | case3 before p bytes hExpired => simp [hExpired]
  | case4 before p q rest bytes hExpired hOver ih =>
    rw [passedBy, if_pos hExpired, if_pos hOver, List.forall_mem_cons] at hPassed
    rw [ih (by rw [List.length_append]; exact hPassed.2)]
    simp [hExpired, hPassed.1]
  | case5 before p q rest bytes hExpired hOver ih =>
    rw [passedBy, if_pos hExpired, if_neg hOver] at hPassed
    have hErased : (p :: q :: rest).filter (fun p => !expired p) =
        (q :: rest).filter fun p => !expired p := List.filter_cons_of_neg (by simp [hExpired])
    rw [ih hPassed, hErased]
  | case6 before p q rest bytes hExpired ih =>
    rw [passedBy, if_neg hExpired] at hPassed
    rw [ih (by rw [List.length_append]; exact hPassed)]
    simp [hExpired]

theorem toNat_sub_of_add {bytes x : UInt32} {n : ℕ} (hBytes : bytes.toNat = n + x.toNat) :
    (bytes - x).toNat = n := by
  have hLe : x ≤ bytes := UInt32.le_iff_toNat_le.mpr (by omega)
  rw [UInt32.toNat_sub_of_le _ _ hLe]
  omega

/-- The loop keeps the bytes those of the record, whatever it passes over. -/
theorem slideOn_bytes (hBytes : bytes.toNat = totalSize (before ++ l)) :
    (slideOn skips expired before l bytes).2.toNat =
      totalSize (slideOn skips expired before l bytes).1 := by
  fun_induction slideOn skips expired before l bytes with
  | case1 before bytes => rwa [List.append_nil] at hBytes
  | case2 before p bytes hExpired =>
    apply toNat_sub_of_add
    simpa using hBytes
  | case3 before p bytes hExpired => exact hBytes
  | case4 before p q rest bytes hExpired hOver ih =>
    refine ih (toNat_sub_of_add ?_)
    simp only [totalSize_append, totalSize_cons, totalSize_nil] at hBytes ⊢
    omega
  | case5 before p q rest bytes hExpired hOver ih =>
    refine ih (toNat_sub_of_add ?_)
    simp only [totalSize_append, totalSize_cons] at hBytes ⊢
    omega
  | case6 before p q rest bytes hExpired ih =>
    apply ih
    rwa [List.append_assoc]

/-! ## The record along a run -/

namespace NetReceiver

variable {s t : NetReceiver} {a : Arrival} {delay : ℕ} {pkt : VideoDatagram}

/-- The time of the newest arrival. -/
def lastRtUs (s : NetReceiver) : ℕ := (s.log.getLast?.map Arrival.rtUs).getD 0

/-- The packets received within the window before the newest one. -/
def windowNow (s : NetReceiver) : List Arrival :=
  window Arrival.rtUs s.net.timeWndSize.toNat s.lastRtUs s.log

def windowWith (s : NetReceiver) (a : Arrival) : List Arrival :=
  window Arrival.rtUs s.net.timeWndSize.toNat a.rtUs (s.log ++ [a])

structure RecordExact (s : NetReceiver) : Prop where
  kept : s.net.record.Perm (s.windowNow.map Arrival.recorded)
  sorted : s.net.record.Pairwise IdOrder
  bytes : s.net.bytesInWnd.toNat = (s.windowNow.map fun a => a.pkt.size.toNat).sum

instance (s : NetReceiver) : Decidable s.RecordExact :=
  decidable_of_iff
    (s.net.record.Perm (s.windowNow.map Arrival.recorded) ∧ s.net.record.Pairwise IdOrder ∧
      s.net.bytesInWnd.toNat = (s.windowNow.map fun a => a.pkt.size.toNat).sum)
    ⟨fun ⟨hKept, hSorted, hBytes⟩ => ⟨hKept, hSorted, hBytes⟩,
      fun h => ⟨h.kept, h.sorted, h.bytes⟩⟩

/-- The ids in the window are distinct and lie within half of the id space. -/
def IdsInHalf (s : NetReceiver) : Event → Prop
  | .recv delay pkt =>
    let ids := (s.windowWith (s.arrivalOf delay pkt)).map fun a => a.pkt.globalId
    ids.Nodup ∧ InOneHalf ids
  | .feedback _ _ => True

instance (s : NetReceiver) (e : Event) : Decidable (s.IdsInHalf e) :=
  match e with
  | .recv _ _ => inferInstanceAs (Decidable (_ ∧ _))
  | .feedback _ _ => inferInstanceAs (Decidable True)

/-- The test in 32 bits finds the packets of the window that are too old. -/
def TestsRight (s : NetReceiver) (a : Arrival) : Prop :=
  ∀ b ∈ s.windowNow, s.net.expired (UInt32.ofNat a.rtUs) b.recorded = true ↔
    b.rtUs + s.net.timeWndSize.toNat < a.rtUs

/-- The loop passes over no packet that is too old. -/
def PassesNone (skips : SkipsNext) (s : NetReceiver) (a : Arrival) : Prop :=
  ∀ q ∈ passedBy skips (s.net.expired (UInt32.ofNat a.rtUs)) 0 s.net.record,
    s.net.expired (UInt32.ofNat a.rtUs) q = false

def SlidesRight (skips : SkipsNext) (s : NetReceiver) : Event → Prop
  | .recv delay pkt =>
    s.TestsRight (s.arrivalOf delay pkt) ∧ s.PassesNone skips (s.arrivalOf delay pkt)
  | .feedback _ _ => True

instance (skips : SkipsNext) (s : NetReceiver) (e : Event) : Decidable (s.SlidesRight skips e) :=
  match e with
  | .recv delay pkt =>
    have : Decidable (s.TestsRight (s.arrivalOf delay pkt)) :=
      inferInstanceAs (Decidable (∀ b ∈ s.windowNow, _))
    have : Decidable (s.PassesNone skips (s.arrivalOf delay pkt)) :=
      inferInstanceAs (Decidable (∀ q ∈ passedBy _ _ _ _, _))
    inferInstanceAs (Decidable (_ ∧ _))
  | .feedback _ _ => inferInstanceAs (Decidable True)

theorem expired_recorded {r : NetRecord} {a b : Arrival} :
    r.expired (UInt32.ofNat a.rtUs) b.recorded = true ↔
      b.rtUs % 2 ^ 32 < (2 ^ 32 - r.timeWndSize.toNat + a.rtUs) % 2 ^ 32 := by
  rw [NetRecord.expired, decide_eq_true_iff, UInt32.lt_iff_toNat_lt, UInt32.toNat_sub,
    Arrival.recorded, UInt32.toNat_ofNat', UInt32.toNat_ofNat', Nat.add_mod_mod]

/-- In the first 2^32 microseconds the test is right once the clock has reached the length of the
window. -/
theorem testsRight_iff (hEarly : a.rtUs < 2 ^ 32) (hOrder : ∀ b ∈ s.windowNow, b.rtUs ≤ a.rtUs)
    (hSome : s.windowNow ≠ []) : s.TestsRight a ↔ s.net.timeWndSize.toNat ≤ a.rtUs := by
  have hWidth := s.net.timeWndSize.toNat_lt
  constructor
  · intro hRight
    obtain ⟨b, hMem⟩ := List.exists_mem_of_ne_nil _ hSome
    have hLate := hOrder b hMem
    have hTest := hRight b hMem
    rw [expired_recorded] at hTest
    omega
  · intro hReached b hMem
    have hLate := hOrder b hMem
    rw [expired_recorded]
    omega

@[simp] theorem recv_lastRtUs (skips : SkipsNext) (s : NetReceiver) (a : Arrival) :
    (s.recv skips a).lastRtUs = a.rtUs := by
  rw [lastRtUs, recv, List.getLast?_append_of_ne_nil _ (List.cons_ne_nil a [])]
  rfl

theorem onSocketRecv_timeWndSize (skips : SkipsNext) (r : NetRecord) (rxTime : UInt32)
    (pkt : VideoDatagram) : (r.onSocketRecv skips rxTime pkt).timeWndSize = r.timeWndSize := by
  rw [NetRecord.onSocketRecv_eq]

theorem recv_windowNow (skips : SkipsNext) (s : NetReceiver) (a : Arrival) :
    (s.recv skips a).windowNow = s.windowWith a := by
  rw [windowNow, recv_lastRtUs]
  exact congrArg (fun width => window Arrival.rtUs width a.rtUs (s.log ++ [a]))
    (congrArg UInt32.toNat (onSocketRecv_timeWndSize skips s.net _ a.pkt))

/-- The later window keeps the packets of the earlier one that are not too old. -/
theorem windowWith_eq (hLate : s.lastRtUs ≤ a.rtUs) :
    s.windowWith a = (s.windowNow.filter fun b =>
      decide (a.rtUs ≤ b.rtUs + s.net.timeWndSize.toNat)) ++ [a] := by
  rw [windowWith, window_append hLate, window, List.filter_append]
  congr 1
  exact List.filter_cons_of_pos (by simp)

/-- The record after the loop. -/
def slid (skips : SkipsNext) (s : NetReceiver) (a : Arrival) : List RecordedPkt :=
  (slideOn skips (s.net.expired (UInt32.ofNat a.rtUs)) [] s.net.record s.net.bytesInWnd).1

theorem slid_eq_filter (hPasses : s.PassesNone skips a) :
    s.slid skips a = s.net.record.filter fun p => !s.net.expired (UInt32.ofNat a.rtUs) p :=
  slideOn_record hPasses

/-- What the loop leaves are the packets of the earlier window that are not too old. -/
theorem slid_perm (hExact : s.RecordExact) (hTests : s.TestsRight a)
    (hPasses : s.PassesNone skips a) :
    (s.slid skips a).Perm ((s.windowNow.filter fun b =>
      decide (a.rtUs ≤ b.rtUs + s.net.timeWndSize.toNat)).map Arrival.recorded) := by
  rw [slid_eq_filter hPasses]
  refine (hExact.kept.filter _).trans (List.Perm.of_eq ?_)
  rw [List.filter_map]
  congr 1
  apply List.filter_congr
  intro b hMem
  have hTest := hTests b hMem
  rw [Function.comp_apply, Bool.eq_iff_iff, Bool.not_eq_true', ← Bool.not_eq_true, hTest,
    decide_eq_true_iff]
  exact Nat.not_lt

theorem recv_record (skips : SkipsNext) (s : NetReceiver) (a : Arrival) :
    (s.recv skips a).net.record = insertPkt a.recorded (s.slid skips a) := by
  rw [recv, NetRecord.onSocketRecv_eq]
  rfl

theorem totalSize_recorded (l : List Arrival) :
    totalSize (l.map Arrival.recorded) = (l.map fun a => a.pkt.size.toNat).sum := by
  rw [totalSize, List.map_map]
  rfl

/-- The sizes of the packets of one window fit in 32 bits. -/
theorem sum_size_lt {l : List Arrival} (hDistinct : (l.map fun a => a.pkt.globalId).Nodup)
    (hHalf : InOneHalf (l.map fun a => a.pkt.globalId)) :
    (l.map fun a => a.pkt.size.toNat).sum < 2 ^ 32 := by
  have hLength := hHalf.length_le hDistinct
  have hSum := List.sum_le_card_nsmul (l.map fun a => a.pkt.size.toNat) maxUdpDatagramSize (by
    intro n hMem
    obtain ⟨b, -, rfl⟩ := List.mem_map.mp hMem
    exact b.pkt.fits)
  rw [List.length_map] at hLength hSum
  rw [smul_eq_mul, maxUdpDatagramSize] at hSum
  omega

/-- With the new packet, the record after the loop holds the later window. -/
theorem cons_slid_perm (hExact : s.RecordExact) (hLate : s.lastRtUs ≤ a.rtUs)
    (hTests : s.TestsRight a) (hPasses : s.PassesNone skips a) :
    (a.recorded :: s.slid skips a).Perm ((s.windowWith a).map Arrival.recorded) := by
  rw [windowWith_eq hLate, List.map_append]
  exact ((slid_perm hExact hTests hPasses).cons a.recorded).trans
    (List.perm_append_singleton a.recorded _).symm

theorem recv_bytes (hExact : s.RecordExact)
    (hFits : totalSize (s.slid skips a) + a.pkt.size.toNat < 2 ^ 32) :
    (s.recv skips a).net.bytesInWnd.toNat = totalSize (s.slid skips a) + a.pkt.size.toNat := by
  have hBefore : s.net.bytesInWnd.toNat = totalSize ([] ++ s.net.record) := by
    rw [List.nil_append, totalSize_perm hExact.kept, totalSize_recorded]
    exact hExact.bytes
  have hSlid : (slideOn skips (s.net.expired (UInt32.ofNat a.rtUs)) [] s.net.record
      s.net.bytesInWnd).2.toNat = totalSize (s.slid skips a) := slideOn_bytes hBefore
  rw [recv, NetRecord.onSocketRecv_eq]
  change (_ + a.pkt.size).toNat = _
  rw [UInt32.toNat_add, hSlid]
  exact Nat.mod_eq_of_lt hFits

/-- A reception keeps the record exact. -/
theorem recv_recordExact (hExact : s.RecordExact) (hLate : s.lastRtUs ≤ a.rtUs)
    (hDistinct : ((s.windowWith a).map fun b => b.pkt.globalId).Nodup)
    (hHalf : InOneHalf ((s.windowWith a).map fun b => b.pkt.globalId))
    (hTests : s.TestsRight a) (hPasses : s.PassesNone skips a) :
    (s.recv skips a).RecordExact := by
  have hKept := cons_slid_perm hExact hLate hTests hPasses
  have hIds : ((a.recorded :: s.slid skips a).map RecordedPkt.pktId).Perm
      ((s.windowWith a).map fun b => b.pkt.globalId) := by
    have hMap := hKept.map RecordedPkt.pktId
    rwa [List.map_map] at hMap
  have hSlidHalf := hHalf.perm hIds.symm
  have hFresh := (List.nodup_cons.mp (hIds.nodup_iff.mpr hDistinct)).1
  have hNew : ∀ q ∈ s.slid skips a, IdOrder a.recorded q ∨ IdOrder q a.recorded := by
    intro q hMem
    refine idOrder_or hSlidHalf List.mem_cons_self (List.mem_cons_of_mem _ hMem) ?_
    intro hEq
    exact hFresh (hEq ▸ List.mem_map_of_mem hMem)
  have hSlidSorted : (s.slid skips a).Pairwise IdOrder := by
    rw [slid_eq_filter hPasses]
    exact hExact.sorted.filter _
  have hTotal : totalSize (s.slid skips a) + a.pkt.size.toNat =
      ((s.windowWith a).map fun b => b.pkt.size.toNat).sum := by
    rw [← totalSize_recorded, ← totalSize_perm hKept, totalSize_cons, Nat.add_comm]
    rfl
  refine ⟨?_, ?_, ?_⟩
  · rw [recv_record, recv_windowNow]
    exact (insertFromEnd_perm hNew).trans hKept
  · rw [recv_record]
    exact insertFromEnd_sorted (transOn_of_inOneHalf hSlidHalf) hNew hSlidSorted
  · rw [recv_windowNow, ← hTotal]
    exact recv_bytes hExact (hTotal ▸ sum_size_lt hDistinct hHalf)

/-- No packet was received after the present time. -/
def ClockOrdered (s : NetReceiver) : Prop := ∀ a ∈ s.log, a.time ≤ s.now

theorem lastRtUs_le (hClock : s.ClockOrdered) (delay : ℕ) (pkt : VideoDatagram) :
    s.lastRtUs ≤ (s.arrivalOf delay pkt).rtUs := by
  rw [lastRtUs]
  cases hLast : s.log.getLast? with
  | none => exact Nat.zero_le _
  | some b =>
    have hTime := hClock b (List.mem_of_getLast? hLast)
    exact Nat.div_le_div_right (hTime.trans (Nat.le_add_right s.now delay))

theorem step_clockOrdered {e : Event} (hClock : s.ClockOrdered) (hStep : step skips s e = some t) :
    t.ClockOrdered := by
  cases e with
  | recv delay pkt =>
    cases hStep
    intro a hMem
    obtain hMem | hMem := List.mem_append.mp hMem
    · exact (hClock a hMem).trans (Nat.le_add_right s.now delay)
    · rw [List.mem_singleton.mp hMem]
      exact le_rfl
  | feedback delay oneWayDispersion =>
    obtain ⟨⟨netstate, net⟩, -, hResult⟩ := Option.bind_eq_some_iff.mp hStep
    cases hResult
    exact fun a hMem => (hClock a hMem).trans (Nat.le_add_right s.now delay)

theorem feedback_recordExact {oneWayDispersion : Time} (hExact : s.RecordExact)
    (hStep : step skips s (.feedback delay oneWayDispersion) = some t) : t.RecordExact := by
  obtain ⟨⟨netstate, net⟩, hFeedback, hResult⟩ := Option.bind_eq_some_iff.mp hStep
  obtain ⟨hRecord, hWidth, hBytes⟩ := NetRecord.feedbackNetState_frame hFeedback
  cases hResult
  have hWindow : windowNow { s with
      net := net
      now := s.now + delay
      fedBack := s.fedBack ++ [netstate.recvtimeHist] } = s.windowNow :=
    congrArg (fun width => window Arrival.rtUs width s.lastRtUs s.log) (congrArg UInt32.toNat hWidth)
  refine ⟨?_, ?_, ?_⟩
  · rw [hWindow]
    exact hRecord ▸ hExact.kept
  · exact hRecord ▸ hExact.sorted
  · rw [hWindow]
    exact hBytes ▸ hExact.bytes

theorem create_recordExact (wndsize : UInt32) : (create wndsize).RecordExact :=
  ⟨List.Perm.refl _, List.Pairwise.nil, rfl⟩

/-- While the window slides right, the record holds the packets of the window. -/
theorem recordExact_of_slidesRight {skips : SkipsNext} {wndsize : UInt32} {events : List Event}
    {s : NetReceiver} (hRun : run (step skips) (create wndsize) events = some s)
    (hIds : StepsMeet (step skips) IdsInHalf (create wndsize) events)
    (hSlides : StepsMeet (step skips) (SlidesRight skips) (create wndsize) events) :
    s.RecordExact := by
  have hStep : ∀ u e t, (u.RecordExact ∧ u.ClockOrdered) →
      (u.IdsInHalf e ∧ u.SlidesRight skips e) → step skips u e = some t →
      t.RecordExact ∧ t.ClockOrdered := by
    rintro u e t ⟨hExact, hClock⟩ ⟨hIds, hSlides⟩ hNext
    refine ⟨?_, step_clockOrdered hClock hNext⟩
    cases e with
    | recv delay pkt =>
      cases hNext
      exact recv_recordExact hExact (lastRtUs_le hClock delay pkt) hIds.1 hIds.2 hSlides.1 hSlides.2
    | feedback delay oneWayDispersion => exact feedback_recordExact hExact hNext
  have hStart : (create wndsize).RecordExact ∧ (create wndsize).ClockOrdered :=
    ⟨create_recordExact wndsize, fun a hMem => by cases hMem⟩
  exact (invariant_of_run hStep hStart (hIds.and hSlides) hRun).1

theorem hundred_fits : UInt32.toNat 100 ≤ maxUdpDatagramSize := by decide

/-- A packet of some bytes. -/
def hundredBytes (globalId : UInt16) : VideoDatagram := ⟨globalId, 100, hundred_fits⟩

/-- Four packets in a window of a millisecond, the last two of them across the wrap of the ids. -/
def slidingRun : List Event :=
  [.recv 2000000 (hundredBytes 65534), .recv 600000 (hundredBytes 65535),
    .recv 600000 (hundredBytes 1), .recv 1000 (hundredBytes 0)]

theorem recordExact_sliding : (run (step dequeSkipsNext) (create 1000) slidingRun).isSome ∧
    ∀ s, run (step dequeSkipsNext) (create 1000) slidingRun = some s → s.RecordExact :=
  ⟨by decide, fun _ hRun => recordExact_of_slidesRight hRun (by decide) (by decide)⟩

/-- Within the first window's length, the second packet drives out the first one. -/
theorem second_packet_erases_first :
    ∃ s, run (step dequeSkipsNext) (create 34000)
        [.recv 0 (hundredBytes 0), .recv 5000 (hundredBytes 1)] = some s ∧
      StepsMeet (step dequeSkipsNext) IdsInHalf (create 34000)
        [.recv 0 (hundredBytes 0), .recv 5000 (hundredBytes 1)] ∧
      ¬ s.RecordExact := by
  refine ⟨_, rfl, by decide, by decide⟩

end NetReceiver

end Bullet.Stream
