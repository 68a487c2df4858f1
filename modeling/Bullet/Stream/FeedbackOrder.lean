import Mathlib.Data.List.Chain
import Bullet.Stream.FeedbackScan

/-! # The packets fed back

The cursor of the feedback only goes up: along a run the ids fed back ascend, each ahead of the one
before. Within half of the id space no id is fed back twice.
-/

namespace Bullet.Stream

open Lib Lib.PartialRun Lib.SerialNumber Lib.SortedInsert

variable {skips : SkipsNext} {expired : RecordedPkt → Bool} {before l : List RecordedPkt}
  {p : RecordedPkt} {bytes : UInt32}

/-- The loop of the sliding window only takes entries out. -/
theorem slideOn_sublist (skips : SkipsNext) (expired : RecordedPkt → Bool)
    (before l : List RecordedPkt) (bytes : UInt32) :
    (slideOn skips expired before l bytes).1.Sublist (before ++ l) := by
  fun_induction slideOn skips expired before l bytes with
  | case1 before bytes => exact List.sublist_append_left before []
  | case2 before p bytes hExpired => exact List.sublist_append_left before [p]
  | case3 before p bytes hExpired => exact List.Sublist.refl _
  | case4 before p q rest bytes hExpired hSkips ih =>
    rw [List.append_assoc] at ih
    exact ih.trans ((List.sublist_cons_self p (q :: rest)).append_left before)
  | case5 before p q rest bytes hExpired hSkips ih =>
    exact ih.trans ((List.sublist_cons_self p (q :: rest)).append_left before)
  | case6 before p q rest bytes hExpired ih => rwa [List.append_assoc] at ih

theorem mem_onSocketRecv {r : NetRecord} {rxTime : UInt32} {pkt : VideoDatagram}
    (hMem : p ∈ (r.onSocketRecv skips rxTime pkt).record) :
    p = ⟨pkt.globalId, rxTime, pkt.size⟩ ∨ p ∈ r.record := by
  rw [NetRecord.onSocketRecv_eq] at hMem
  obtain hEq | hMem := List.mem_cons.mp (mem_of_mem_insertFromEnd hMem)
  · exact Or.inl hEq
  · exact Or.inr ((slideOn_sublist skips _ [] r.record r.bytesInWnd).subset hMem)

/-- A chain goes on from its last element. -/
theorem isChain_append {R : UInt16 → UInt16 → Prop} {a : UInt16} {l m : List UInt16}
    (hFirst : (a :: l).IsChain R) (hNext : (l.getLastD a :: m).IsChain R) :
    (a :: (l ++ m)).IsChain R := by
  induction l generalizing a with
  | nil => exact hNext
  | cons b l ih =>
    obtain ⟨hRel, hRest⟩ := List.isChain_cons_cons.mp hFirst
    rw [List.getLastD_cons] at hNext
    exact List.isChain_cons_cons.mpr ⟨hRel, ih hRest hNext⟩

theorem getLastD_append (a : UInt16) (l m : List UInt16) :
    (l ++ m).getLastD a = m.getLastD (l.getLastD a) := by
  induction l generalizing a with
  | nil => rfl
  | cons b l ih =>
    rw [List.cons_append, List.getLastD_cons, List.getLastD_cons]
    exact ih b

namespace NetReceiver

variable {s t : NetReceiver}

/-- The ids fed back so far, oldest first. -/
def fedBackIds (s : NetReceiver) : List UInt16 :=
  s.fedBack.flatten.map fun rt => rt.pktId.toUInt16

def receivedIds (s : NetReceiver) : List UInt16 := s.log.map fun a => a.pkt.globalId

/-- The ids fed back ascend to the cursor, and the ids of the record are received ones. -/
structure FeedsBackUp (s : NetReceiver) : Prop where
  chain : ((65535 : UInt16) :: s.fedBackIds).IsChain fun a b => lessThanSimple a b = true
  cursor : s.fedBackIds.getLastD 65535 = s.net.lastFeedback
  received : s.fedBackIds ⊆ s.receivedIds
  record : recordIds s.net.record ⊆ s.receivedIds

theorem create_feedsBackUp (wndsize : UInt32) : (create wndsize).FeedsBackUp where
  chain := List.isChain_singleton _
  cursor := rfl
  received := List.nil_subset _
  record := List.nil_subset _

theorem recv_feedsBackUp (hUp : s.FeedsBackUp) (a : Arrival) : (s.recv skips a).FeedsBackUp where
  chain := hUp.chain
  cursor := by
    rw [recv, NetRecord.onSocketRecv_eq]
    exact hUp.cursor
  received id hMem := by
    rw [receivedIds, recv, List.map_append]
    exact List.mem_append_left _ (hUp.received hMem)
  record id hMem := by
    rw [receivedIds, recv, List.map_append]
    obtain ⟨p, hP, rfl⟩ := List.mem_map.mp hMem
    obtain rfl | hP := mem_onSocketRecv hP
    · exact List.mem_append_right _ (List.mem_singleton_self a.pkt.globalId)
    · exact List.mem_append_left _ (hUp.record (List.mem_map_of_mem hP))

/-- A feedback sends the packets ahead of the cursor and moves the cursor to their end. -/
theorem feedbackNetState_new {r r' : NetRecord} {oneWayDispersion : Time} {netstate : NetStates}
    (hFeedback : r.feedbackNetState oneWayDispersion = some (netstate, r')) :
    netstate.recvtimeHist =
        (FeedbackScan.newFrom r.lastFeedback r.record).map RecordedPkt.toRcvTime ∧
      r'.lastFeedback = FeedbackScan.cursorFrom r.lastFeedback r.record := by
  obtain ⟨t, hScan, hResult⟩ := Option.bind_eq_some_iff.mp hFeedback
  obtain ⟨hNew, hCursor⟩ := FeedbackScan.scan_new hScan
  cases hResult
  exact ⟨congrArg (List.map RecordedPkt.toRcvTime) hNew, hCursor⟩

theorem feedback_feedsBackUp (hUp : s.FeedsBackUp) {delay : ℕ} {oneWayDispersion : Time}
    (hStep : step skips s (.feedback delay oneWayDispersion) = some t) : t.FeedsBackUp := by
  obtain ⟨⟨netstate, net⟩, hFeedback, hResult⟩ := Option.bind_eq_some_iff.mp hStep
  obtain ⟨hRecord, -, -⟩ := NetRecord.feedbackNetState_frame hFeedback
  obtain ⟨hNew, hCursor⟩ := feedbackNetState_new hFeedback
  obtain ⟨hChain, hLast⟩ := FeedbackScan.newFrom_isChain s.net.lastFeedback s.net.record
  cases hResult
  have hIds : fedBackIds { s with
      net := net
      now := s.now + delay
      fedBack := s.fedBack ++ [netstate.recvtimeHist] } =
      s.fedBackIds ++ recordIds (FeedbackScan.newFrom s.net.lastFeedback s.net.record) := by
    rw [fedBackIds, List.flatten_append, List.flatten_singleton, List.map_append, hNew,
      List.map_map]
    congr 1
    refine List.map_congr_left fun p _ => ?_
    exact UInt16.toUInt16_toUInt32 p.pktId
  refine ⟨?_, ?_, ?_, ?_⟩
  · rw [hIds]
    exact isChain_append hUp.chain (hUp.cursor ▸ hChain)
  · rw [hIds, getLastD_append, hUp.cursor, hLast, hCursor]
  · rw [hIds]
    refine List.append_subset.mpr ⟨hUp.received, ?_⟩
    exact List.Subset.trans (List.map_subset _ (FeedbackScan.newFrom_subset _ _)) hUp.record
  · exact (congrArg recordIds hRecord) ▸ hUp.record

theorem feedsBackUp_of_run {wndsize : UInt32} {events : List Event}
    (hRun : run (step skips) (create wndsize) events = some s) : s.FeedsBackUp := by
  refine invariant_of_step (fun u e t hUp hStep => ?_) (create_feedsBackUp wndsize) hRun
  cases e with
  | recv delay pkt =>
    cases hStep
    exact recv_feedsBackUp hUp (u.arrivalOf delay pkt)
  | feedback delay oneWayDispersion => exact feedback_feedsBackUp hUp hStep

/-- When all ids received lie within half of the id space, the ids fed back ascend within and across
the feedbacks, so that each is fed back at most once. -/
theorem fedBackIds_ascend {skips : SkipsNext} {wndsize : UInt32} {events : List Event}
    {s : NetReceiver} (hRun : run (step skips) (create wndsize) events = some s)
    (hHalf : ∃ base : UInt16, ∀ id ∈ s.receivedIds, InHalf base.toBitVec id.toBitVec) :
    s.fedBackIds.Pairwise (fun a b => lessThanSimple a b = true) ∧ s.fedBackIds.Nodup ∧
      s.fedBackIds ⊆ s.receivedIds := by
  obtain ⟨base, hHalf⟩ := hHalf
  have hUp := feedsBackUp_of_run hRun
  have hIn : ∀ id ∈ s.fedBackIds, InHalf base.toBitVec id.toBitVec := fun id hMem =>
    hHalf id (hUp.received hMem)
  have hChain : s.fedBackIds.IsChain fun a b => idGap base a < idGap base b :=
    hUp.chain.tail.imp_of_mem_imp fun a b hA hB hLess =>
      ((hIn a hA).before_iff (hIn b hB)).mp (lessThanSimple_iff.mp hLess)
  have hOffsets : s.fedBackIds.Pairwise fun a b => idGap base a < idGap base b :=
    List.pairwise_map.mp (List.isChain_iff_pairwise.mp ((List.isChain_map (idGap base)).mpr hChain))
  refine ⟨?_, ?_, hUp.received⟩
  · refine hOffsets.imp_of_mem fun hA hB hLess => ?_
    exact lessThanSimple_iff.mpr (((hIn _ hA).before_iff (hIn _ hB)).mpr hLess)
  · refine hOffsets.imp fun hLess => ?_
    rintro rfl
    exact Nat.lt_irrefl _ hLess

/-- Two packets in the wrong order, a feedback, a late packet behind the cursor and one ahead. -/
def feedbackRun : List Event :=
  [.recv 40000000 ⟨1, 100, by decide⟩, .recv 1000 ⟨65535, 100, by decide⟩, .feedback 0 0,
    .recv 1000 ⟨0, 100, by decide⟩, .recv 1000 ⟨2, 100, by decide⟩, .feedback 0 0]

theorem fedBackIds_feedbackRun :
    ∃ s, run (step dequeSkipsNext) (create 34000) feedbackRun = some s ∧
      s.fedBackIds = [1, 2] ∧
      s.fedBackIds.Pairwise (fun a b => lessThanSimple a b = true) ∧ s.fedBackIds.Nodup ∧
      s.fedBackIds ⊆ s.receivedIds := by
  have hIds : (run (step dequeSkipsNext) (create 34000) feedbackRun).map
      (fun s => (s.fedBackIds, s.receivedIds)) = some ([1, 2], [1, 65535, 0, 2]) := by decide
  obtain ⟨s, hRun, hEq⟩ := Option.map_eq_some_iff.mp hIds
  obtain ⟨hFed, hReceived⟩ := Prod.mk.inj hEq
  refine ⟨s, hRun, hFed, fedBackIds_ascend hRun ⟨65535, fun id hMem => ?_⟩⟩
  rw [hReceived] at hMem
  simp only [List.mem_cons, List.not_mem_nil, or_false] at hMem
  obtain rfl | rfl | rfl | rfl := hMem <;> decide

end NetReceiver

end Bullet.Stream
