import Bullet.Lib.NestedMap
import Bullet.Lib.PartialRun
import Bullet.Lib.SlidingWindow
import Bullet.Stream.Packet
import Mathlib.Algebra.Group.Nat.Defs
import Mathlib.Algebra.GroupWithZero.Nat

/-! # The sender's windows

`SendPacket` remembers the last packets by their 16-bit ids, and sums the sizes of those of the last
50 ms. A window reads the history with `[]`, which makes a null entry for an id that is not there.
-/

namespace Bullet.Stream

open Lib Lib.PartialRun Lib.SlidingWindow

/-- Times are nanoseconds from the start. -/
structure SentPacketInfo where
  pktId : UInt16
  batchId : UInt16
  pktSendTime : ℕ
  isGoodput : Bool
  pktSize : UInt16
deriving DecidableEq, Repr

/-- `Time::GetMicroSeconds` -/
def SentPacketInfo.sendUs (info : SentPacketInfo) : ℕ := info.pktSendTime / 1000

/-- A call of `SendPacket` that finds a packet in the queue. -/
structure SendCall where
  delay : ℕ
  pkt : VideoPacket
  size : UInt32
deriving DecidableEq, Repr

def VideoPacket.isGoodput : VideoPacket → Bool
  | .data pkt => pkt.txCount == 0
  | .dupFec _ => false
  | .fec _ => false

/-- A packet that was sent, with its size on the wire. -/
structure WirePacket where
  info : SentPacketInfo
  size : ℕ
deriving DecidableEq, Repr

/-- The members of the sender that `SendPacket` keeps its statistics in, and what it has sent so far,
oldest first. -/
structure SenderWindows where
  now : ℕ
  ipidCounter : UInt16
  pktsHistory : AssocMap UInt16 SentPacketInfo
  sendWnd : List UInt16
  goodputWnd : List UInt16
  goodputPktsInWnd : UInt64
  totalPktsInWnd : UInt64
  sent : List WirePacket

namespace SenderWindows

def sendWndSize : ℕ := 10000

/-- in microseconds -/
def goodputWndSize : ℕ := 50000

def create : SenderWindows where
  now := 0
  ipidCounter := 0
  pktsHistory := AssocMap.empty
  sendWnd := []
  goodputWnd := []
  goodputPktsInWnd := 0
  totalPktsInWnd := 0
  sent := []

/-- The difference of two 64-bit numbers. -/
def sub64 (a b : ℕ) : ℕ := if b ≤ a then a - b else a + 2 ^ 64 - b

/-- The packet of the call, as the sender records it. -/
def wirePacket (s : SenderWindows) (call : SendCall) : WirePacket where
  info :=
    { pktId := s.ipidCounter
      batchId := call.pkt.header.batchId.toUInt16
      pktSendTime := s.now + call.delay
      isGoodput := call.pkt.isGoodput
      pktSize := call.size.toUInt16 }
  size := call.size.toNat

/-- `SendPacket` up to its loops. -/
def record (s : SenderWindows) (call : SendCall) : SenderWindows :=
  let info := (s.wirePacket call).info
  { s with
    now := s.now + call.delay
    goodputPktsInWnd :=
      if info.isGoodput then s.goodputPktsInWnd + info.pktSize.toUInt64 else s.goodputPktsInWnd
    totalPktsInWnd := s.totalPktsInWnd + info.pktSize.toUInt64
    pktsHistory := s.pktsHistory.set s.ipidCounter info
    sendWnd := s.sendWnd ++ [s.ipidCounter]
    goodputWnd := s.goodputWnd ++ [s.ipidCounter]
    sent := s.sent ++ [s.wirePacket call] }

/-- The packet is out of date, by an unsigned subtraction. -/
def outOfDate (s : SenderWindows) (info : SentPacketInfo) : Bool :=
  decide (info.sendUs < sub64 (s.now / 1000) goodputWndSize)

/-- The first packet of the goodput window leaves it. -/
def leave (s : SenderWindows) (info : SentPacketInfo) (wnd : List UInt16) : SenderWindows :=
  { s with
    totalPktsInWnd := s.totalPktsInWnd - info.pktSize.toUInt64
    goodputPktsInWnd :=
      if info.isGoodput then s.goodputPktsInWnd - info.pktSize.toUInt64 else s.goodputPktsInWnd
    goodputWnd := wnd }

/-- The loop over the goodput window; `none` reads through a null entry. -/
def dropOutOfDate : List UInt16 → SenderWindows → Option SenderWindows
  | [], s => some s
  | id :: wnd, s =>
    match s.pktsHistory.find id with
    | none => none
    | some info => if s.outOfDate info then dropOutOfDate wnd (s.leave info wnd) else some s

/-- The loop over the send window; `none` is its failed assertion. -/
def trim : List UInt16 → AssocMap UInt16 SentPacketInfo →
    Option (List UInt16 × AssocMap UInt16 SentPacketInfo)
  | [], history => some ([], history)
  | id :: wnd, history =>
    if sendWndSize < wnd.length + 1 then
      match history.find id with
      | none => none
      | some _ => trim wnd (history.erase id)
    else some (id :: wnd, history)

def sendPacket (s : SenderWindows) (call : SendCall) : Option SenderWindows := do
  let s ← dropOutOfDate (s.record call).goodputWnd (s.record call)
  let (sendWnd, pktsHistory) ← trim s.sendWnd s.pktsHistory
  some { s with
    sendWnd := sendWnd
    pktsHistory := pktsHistory
    ipidCounter := s.ipidCounter + 1 }

/-! ## The windows as they should be -/

/-- The packets sent within the last window. -/
def recent (s : SenderWindows) : List WirePacket :=
  window (fun pkt => pkt.info.sendUs) goodputWndSize (s.now / 1000) s.sent

def sizes (pkts : List WirePacket) : ℕ := (pkts.map WirePacket.size).sum

def goodputs (pkts : List WirePacket) : List WirePacket := pkts.filter fun pkt => pkt.info.isGoodput

structure Exact (s : SenderWindows) : Prop where
  real : ∀ id, id ∈ s.sendWnd ∨ id ∈ s.goodputWnd → s.pktsHistory.find id ≠ none
  goodputWnd : s.goodputWnd = s.recent.map fun pkt => pkt.info.pktId
  total : s.totalPktsInWnd.toNat = sizes s.recent
  goodput : s.goodputPktsInWnd.toNat = sizes (goodputs s.recent)

/-- No turn of the loop over the goodput window takes more from a sum than is in it. -/
def NeverBelowZero : List UInt16 → SenderWindows → Prop
  | [], _ => True
  | id :: wnd, s => ∀ info ∈ s.pktsHistory.find id, s.outOfDate info = true →
      info.pktSize.toNat ≤ s.totalPktsInWnd.toNat ∧
      (info.isGoodput = true → info.pktSize.toNat ≤ s.goodputPktsInWnd.toNat) ∧
      NeverBelowZero wnd (s.leave info wnd)

/-- The call sends its packet and leaves the windows as they should be. -/
structure Kept (s : SenderWindows) (call : SendCall) : Prop where
  noWrap : NeverBelowZero (s.record call).goodputWnd (s.record call)
  exact : ∃ t, s.sendPacket call = some t ∧ Exact t

/-- The packet is sent after a whole window, its size fits in 16 bits, and with it at most as many
packets are in the window as the history keeps. -/
structure WithinLimits (s : SenderWindows) (call : SendCall) : Prop where
  late : goodputWndSize ≤ (s.now + call.delay) / 1000
  size : call.size.toNat < 2 ^ 16
  count : (s.record call).recent.length ≤ sendWndSize

variable {s t : SenderWindows} {call : SendCall} {l w : List WirePacket}

/-! ## The loop over the goodput window -/

def ids (pkts : List WirePacket) : List UInt16 := pkts.map fun pkt => pkt.info.pktId

theorem ids_cons (pkt : WirePacket) (w : List WirePacket) :
    ids (pkt :: w) = pkt.info.pktId :: ids w := rfl

/-- The entries of the history for the packets. -/
def Recorded (history : AssocMap UInt16 SentPacketInfo) (pkts : List WirePacket) : Prop :=
  ∀ pkt ∈ pkts, history.find pkt.info.pktId = some pkt.info

/-- The sizes as the history has them, in 16 bits. -/
def recordedSizes (pkts : List WirePacket) : ℕ := (pkts.map fun pkt => pkt.info.pktSize.toNat).sum

@[simp] theorem recordedSizes_cons (pkt : WirePacket) (w : List WirePacket) :
    recordedSizes (pkt :: w) = pkt.info.pktSize.toNat + recordedSizes w := rfl

theorem goodputs_cons (pkt : WirePacket) (w : List WirePacket) :
    goodputs (pkt :: w) = if pkt.info.isGoodput then pkt :: goodputs w else goodputs w :=
  List.filter_cons

/-- The sums are those of the packets. -/
structure Sums (s : SenderWindows) (pkts : List WirePacket) : Prop where
  total : s.totalPktsInWnd.toNat = recordedSizes pkts
  goodput : s.goodputPktsInWnd.toNat = recordedSizes (goodputs pkts)

theorem Sums.le {pkt : WirePacket} (h : Sums s (pkt :: w)) :
    pkt.info.pktSize.toNat ≤ s.totalPktsInWnd.toNat ∧
      (pkt.info.isGoodput = true → pkt.info.pktSize.toNat ≤ s.goodputPktsInWnd.toNat) := by
  rw [h.total, h.goodput, recordedSizes_cons]
  refine ⟨Nat.le_add_right _ _, fun hGoodput => ?_⟩
  rw [goodputs_cons, if_pos hGoodput, recordedSizes_cons]
  exact Nat.le_add_right _ _

theorem toNat_sub_size {a : UInt64} {size : UInt16} (hLe : size.toNat ≤ a.toNat) :
    (a - size.toUInt64).toNat = a.toNat - size.toNat := by
  rw [UInt64.toNat_sub_of_le _ _ (by rwa [UInt64.le_iff_toNat_le, UInt16.toNat_toUInt64]),
    UInt16.toNat_toUInt64]

theorem Sums.leave {pkt : WirePacket} (h : Sums s (pkt :: w)) (wnd : List UInt16) :
    Sums (s.leave pkt.info wnd) w := by
  obtain ⟨hTotal, hGoodput⟩ := h.le
  constructor
  · rw [SenderWindows.leave, toNat_sub_size hTotal, h.total, recordedSizes_cons, Nat.add_sub_cancel_left]
  · have hSum := h.goodput
    rw [goodputs_cons] at hSum
    rw [SenderWindows.leave]
    cases hIs : pkt.info.isGoodput with
    | false =>
      rw [hIs] at hSum
      exact hSum
    | true =>
      rw [hIs, if_pos rfl, recordedSizes_cons] at hSum
      rw [if_pos rfl, toNat_sub_size (hGoodput hIs), hSum, Nat.add_sub_cancel_left]

theorem dropOutOfDate_eq {wnd : List UInt16} (h : dropOutOfDate wnd s = some t) :
    t = { s with
      goodputWnd := t.goodputWnd
      totalPktsInWnd := t.totalPktsInWnd
      goodputPktsInWnd := t.goodputPktsInWnd } := by
  induction wnd generalizing s with
  | nil =>
    cases h
    rfl
  | cons id wnd ih =>
    rw [dropOutOfDate] at h
    split at h
    · cases h
    · next info _ =>
      split at h
      · exact ih (s := s.leave info wnd) h
      · cases h
        rfl

/-- The packets in the window at the time of the call. -/
def young (s : SenderWindows) (pkts : List WirePacket) : List WirePacket :=
  window (fun pkt => pkt.info.sendUs) goodputWndSize (s.now / 1000) pkts

/-- After a whole window the loop leaves the packets of the last one. -/
theorem dropOutOfDate_spec (hLate : goodputWndSize ≤ s.now / 1000)
    (hOrdered : Ordered (fun pkt => pkt.info.sendUs) w) (hRecorded : Recorded s.pktsHistory w)
    (hWnd : s.goodputWnd = ids w) (hSums : Sums s w) :
    NeverBelowZero (ids w) s ∧ ∃ t, dropOutOfDate (ids w) s = some t ∧
      t.goodputWnd = ids (s.young w) ∧ Sums t (s.young w) := by
  induction w generalizing s with
  | nil => exact ⟨trivial, s, rfl, hWnd, hSums⟩
  | cons pkt w ih =>
    have hFind := hRecorded pkt List.mem_cons_self
    have hOld : s.outOfDate pkt.info = true ↔ pkt.info.sendUs + goodputWndSize < s.now / 1000 := by
      rw [outOfDate, decide_eq_true_iff, sub64, if_pos hLate]
      exact Nat.lt_sub_iff_add_lt
    rw [ids_cons, dropOutOfDate, hFind]
    obtain hLeaves | hStays := Nat.lt_or_ge (pkt.info.sendUs + goodputWndSize) (s.now / 1000)
    · obtain ⟨hRest, t, hDrop, hLeft, hLeftSums⟩ := ih (s := s.leave pkt.info (ids w)) hLate
        hOrdered.of_cons (fun other hMem => hRecorded other (List.mem_cons_of_mem _ hMem)) rfl
        (hSums.leave _)
      have hYoung : s.young (pkt :: w) = s.young w := window_cons_old hLeaves
      simp only [if_pos (hOld.mpr hLeaves)]
      rw [hYoung]
      refine ⟨?_, t, hDrop, hLeft, hLeftSums⟩
      intro info hInfo _
      rw [hFind] at hInfo
      cases hInfo
      exact ⟨hSums.le.1, hSums.le.2, hRest⟩
    · have hNot : ¬s.outOfDate pkt.info = true := fun h => absurd (hOld.mp h) (not_lt.mpr hStays)
      have hYoung : s.young (pkt :: w) = pkt :: w := window_cons_young hOrdered hStays
      simp only [if_neg hNot]
      rw [hYoung]
      refine ⟨?_, s, rfl, hWnd, hSums⟩
      intro info hInfo hGone
      rw [hFind] at hInfo
      cases hInfo
      exact absurd hGone hNot

/-- Before a whole window has passed the subtraction wraps around, and every packet leaves. -/
theorem goodputWnd_of_early (hEarly : s.now / 1000 < goodputWndSize)
    (hPast : ∀ pkt ∈ w, pkt.info.sendUs ≤ s.now / 1000) (hRecorded : Recorded s.pktsHistory w)
    (hWnd : s.goodputWnd = ids w) (hDrop : dropOutOfDate (ids w) s = some t) : t.goodputWnd = [] := by
  induction w generalizing s with
  | nil =>
    cases hDrop
    exact hWnd
  | cons pkt w ih =>
    have hOld : s.outOfDate pkt.info = true := by
      have hLe := hPast pkt List.mem_cons_self
      rw [goodputWndSize] at hEarly
      rw [outOfDate, decide_eq_true_iff, sub64, goodputWndSize, if_neg (not_le.mpr hEarly)]
      omega
    rw [ids_cons, dropOutOfDate, hRecorded pkt List.mem_cons_self] at hDrop
    simp only [if_pos hOld] at hDrop
    exact ih (s := s.leave pkt.info (ids w)) hEarly
      (fun other hMem => hPast other (List.mem_cons_of_mem _ hMem))
      (fun other hMem => hRecorded other (List.mem_cons_of_mem _ hMem)) rfl hDrop

/-! ## The loop over the send window -/

/-- Every packet carries the number of packets before it, in 16 bits. -/
def Numbered (pkts : List WirePacket) : Prop :=
  ∀ i, ∀ h : i < pkts.length, pkts[i].info.pktId = UInt16.ofNat i

/-- Fewer than 2^16 packets in a row have different ids. -/
theorem Numbered.nodup {k : ℕ} (h : Numbered l) (hShort : l.length ≤ k + 2 ^ 16) :
    (ids (l.drop k)).Nodup := by
  rw [List.Nodup, List.pairwise_iff_getElem]
  intro i j hI hJ hLt hEq
  simp only [ids, List.length_map, List.length_drop] at hI hJ
  simp only [ids, List.getElem_map, List.getElem_drop] at hEq
  rw [h (k + i) (by omega), h (k + j) (by omega)] at hEq
  have hMod := congrArg UInt16.toNat hEq
  simp only [UInt16.toNat_ofNat'] at hMod
  omega

theorem mem_ids {id : UInt16} : id ∈ ids l ↔ ∃ pkt ∈ l, pkt.info.pktId = id := List.mem_map

/-- The history knows the listed packets and no others. -/
structure Knows (history : AssocMap UInt16 SentPacketInfo) (pkts : List WirePacket) : Prop where
  recorded : Recorded history pkts
  only : ∀ id, history.find id ≠ none → id ∈ ids pkts

theorem Knows.find_ne_none {history : AssocMap UInt16 SentPacketInfo} (h : Knows history l)
    {id : UInt16} (hMem : id ∈ ids l) : history.find id ≠ none := by
  obtain ⟨pkt, hPkt, rfl⟩ := mem_ids.mp hMem
  rw [h.recorded pkt hPkt]
  exact Option.some_ne_none _

/-- A call adds one packet, so the loop forgets one packet at most. -/
theorem trim_spec {history : AssocMap UInt16 SentPacketInfo} (hKnows : Knows history l)
    (hNodup : (ids l).Nodup) (hLength : l.length ≤ sendWndSize + 1) :
    ∃ history', trim (ids l) history = some (ids (l.drop (l.length - sendWndSize)), history') ∧
      Knows history' (l.drop (l.length - sendWndSize)) := by
  obtain hShort | hLong := Nat.lt_or_ge sendWndSize l.length
  · obtain ⟨pkt, w, rfl⟩ := List.exists_cons_of_ne_nil (List.ne_nil_of_length_pos (Nat.zero_lt_of_lt hShort))
    rw [List.length_cons] at hShort hLength
    have hWnd : (ids w).length = w.length := List.length_map _
    have hOne : w.length + 1 - sendWndSize = 1 := by omega
    obtain ⟨hFirst, hRest⟩ := List.nodup_cons.mp (ids_cons pkt w ▸ hNodup)
    have hStop : trim (ids w) (history.erase pkt.info.pktId) =
        some (ids w, history.erase pkt.info.pktId) := by
      cases hCases : ids w with
      | nil => rfl
      | cons id wnd =>
        have hCount : wnd.length + 1 = w.length := by rw [← hWnd, hCases, List.length_cons]
        rw [trim, if_neg (by omega)]
    refine ⟨history.erase pkt.info.pktId, ?_, ?_, ?_⟩
    · rw [List.length_cons, hOne, ids_cons, trim, hWnd, if_pos hShort,
        hKnows.recorded pkt List.mem_cons_self, List.drop_one, List.tail_cons]
      exact hStop
    · rw [List.length_cons, hOne, List.drop_one, List.tail_cons]
      intro other hMem
      have hNe : other.info.pktId ≠ pkt.info.pktId :=
        fun hEq => hFirst (mem_ids.mpr ⟨other, hMem, hEq⟩)
      rw [AssocMap.find_erase, if_neg hNe]
      exact hKnows.recorded other (List.mem_cons_of_mem _ hMem)
    · intro id hFound
      rw [AssocMap.find_erase] at hFound
      rw [List.length_cons, hOne, List.drop_one, List.tail_cons]
      split at hFound
      · exact absurd rfl hFound
      · next hNe => exact (List.mem_cons.mp (hKnows.only id hFound)).resolve_left hNe
  · rw [Nat.sub_eq_zero_of_le hLong, List.drop_zero]
    refine ⟨history, ?_, hKnows⟩
    cases l with
    | nil => rfl
    | cons pkt w =>
      have hWnd : (ids w).length = w.length := List.length_map _
      rw [List.length_cons] at hLong
      rw [ids_cons, trim, hWnd, if_neg (not_lt.mpr hLong)]

/-! ## The invariant -/

/-- The packets that the history keeps. -/
def held (sent : List WirePacket) : List WirePacket := sent.drop (sent.length - sendWndSize)

/-- The windows follow what is sent, whatever its sizes and its number. -/
structure Tracks (s : SenderWindows) : Prop where
  counter : s.ipidCounter = UInt16.ofNat s.sent.length
  numbered : Numbered s.sent
  ordered : Ordered (fun pkt => pkt.info.sendUs) s.sent
  past : ∀ pkt ∈ s.sent, pkt.info.sendUs ≤ s.now / 1000
  sendWnd : s.sendWnd = ids (held s.sent)
  knows : Knows s.pktsHistory (held s.sent)
  goodputWnd : s.goodputWnd = ids s.recent
  sums : Sums s s.recent

structure WindowsInv (s : SenderWindows) : Prop extends Tracks s where
  narrow : ∀ pkt ∈ s.sent, pkt.info.pktSize.toNat = pkt.size
  count : s.recent.length ≤ sendWndSize

theorem windowsInv_create : WindowsInv create where
  counter := rfl
  numbered := fun i h => absurd h (Nat.not_lt_zero i)
  ordered := List.Pairwise.nil
  past := fun _ hMem => (List.not_mem_nil hMem).elim
  sendWnd := rfl
  knows := ⟨fun _ hMem => (List.not_mem_nil hMem).elim, fun _ hFound => absurd rfl hFound⟩
  goodputWnd := rfl
  sums := ⟨rfl, rfl⟩
  narrow := fun _ hMem => (List.not_mem_nil hMem).elim
  count := Nat.zero_le _

theorem recordedSizes_eq (h : ∀ pkt ∈ l, pkt.info.pktSize.toNat = pkt.size) :
    recordedSizes l = sizes l :=
  congrArg List.sum (List.map_congr_left h)

theorem recordedSizes_append (l w : List WirePacket) :
    recordedSizes (l ++ w) = recordedSizes l + recordedSizes w := by
  rw [recordedSizes, List.map_append, List.sum_append]
  rfl

theorem recordedSizes_lt (h : l.length ≤ sendWndSize) : recordedSizes l < 2 ^ 32 := by
  have hBound : ∀ w : List WirePacket, recordedSizes w ≤ w.length * 65535 := by
    intro w
    induction w with
    | nil => exact le_rfl
    | cons pkt w ih =>
      have hSize := UInt16.toNat_lt pkt.info.pktSize
      rw [recordedSizes_cons, List.length_cons]
      omega
  have hLe := hBound l
  rw [sendWndSize] at h
  omega

theorem Tracks.recent_subset_held (h : Tracks s) (hCount : s.recent.length ≤ sendWndSize) :
    s.recent <:+ held s.sent :=
  suffix_drop (window_suffix h.ordered) hCount

/-- Windows that follow packets of known sizes, few enough, are as they should be. -/
theorem WindowsInv.exact (h : WindowsInv s) : Exact s where
  real := by
    intro id hMem
    apply h.knows.find_ne_none
    obtain hSend | hGoodput := hMem
    · exact h.sendWnd ▸ hSend
    · obtain ⟨pkt, hPkt, hId⟩ := mem_ids.mp (h.goodputWnd ▸ hGoodput)
      exact mem_ids.mpr ⟨pkt, (h.recent_subset_held h.count).mem hPkt, hId⟩
  goodputWnd := h.goodputWnd
  total := by
    rw [h.sums.total]
    exact recordedSizes_eq fun pkt hMem => h.narrow pkt (mem_window.mp hMem).1
  goodput := by
    rw [h.sums.goodput]
    exact recordedSizes_eq fun pkt hMem =>
      h.narrow pkt (mem_window.mp (List.mem_filter.mp hMem).1).1

/-! ## A call -/

theorem toNat_add_size {a : UInt64} {size : UInt16} (hLt : a.toNat < 2 ^ 32) :
    (a + size.toUInt64).toNat = a.toNat + size.toNat := by
  have hSize := UInt16.toNat_lt size
  rw [UInt64.toNat_add, UInt16.toNat_toUInt64, Nat.mod_eq_of_lt (by omega)]

theorem Sums.record (h : Sums s w) (call : SendCall) (hCount : w.length ≤ sendWndSize) :
    Sums (s.record call) (w ++ [s.wirePacket call]) := by
  have hGoodputs : (goodputs w).length ≤ sendWndSize := (List.length_filter_le _ w).trans hCount
  constructor
  · rw [recordedSizes_append, ← h.total]
    exact toNat_add_size (h.total ▸ recordedSizes_lt hCount)
  · rw [goodputs, List.filter_append, recordedSizes_append, ← goodputs, ← h.goodput]
    simp only [SenderWindows.record]
    cases hIs : (s.wirePacket call).info.isGoodput with
    | false =>
      rw [List.filter_cons_of_neg (by simp [hIs])]
      rfl
    | true =>
      rw [List.filter_cons_of_pos (by simp [hIs])]
      exact toNat_add_size (h.goodput ▸ recordedSizes_lt hGoodputs)

theorem numbered_append {pkt : WirePacket} (h : Numbered l)
    (hId : pkt.info.pktId = UInt16.ofNat l.length) : Numbered (l ++ [pkt]) := by
  intro i hLt
  rw [List.getElem_append]
  split
  · next hOld => exact h i hOld
  · next hNew =>
    have hLast : i = l.length := by
      rw [List.length_append, List.length_singleton] at hLt
      omega
    rw [List.getElem_singleton, hId, hLast]

/-- What the loops find: one packet more than the history keeps, and one more than was in the window. -/
structure Ready (s : SenderWindows) (w : List WirePacket) : Prop where
  counter : s.ipidCounter + 1 = UInt16.ofNat s.sent.length
  numbered : Numbered s.sent
  ordered : Ordered (fun pkt => pkt.info.sendUs) s.sent
  past : ∀ pkt ∈ s.sent, pkt.info.sendUs ≤ s.now / 1000
  sendWnd : s.sendWnd = ids (s.sent.drop (s.sent.length - (sendWndSize + 1)))
  knows : Knows s.pktsHistory (s.sent.drop (s.sent.length - (sendWndSize + 1)))
  suffix : w <:+ s.sent
  count : w.length ≤ sendWndSize + 1
  goodputWnd : s.goodputWnd = ids w
  sums : Sums s w
  recent : s.recent = s.young w

theorem WindowsInv.record (h : WindowsInv s) (call : SendCall) :
    Ready (s.record call) (s.recent ++ [s.wirePacket call]) := by
  have hLater : s.now / 1000 ≤ (s.now + call.delay) / 1000 :=
    Nat.div_le_div_right (Nat.le_add_right _ _)
  have hNumbered : Numbered (s.sent ++ [s.wirePacket call]) := numbered_append h.numbered h.counter
  have hLength : (s.sent ++ [s.wirePacket call]).length = s.sent.length + 1 := by
    rw [List.length_append, List.length_singleton]
  have hHeld : (s.sent ++ [s.wirePacket call]).drop
      ((s.sent ++ [s.wirePacket call]).length - (sendWndSize + 1)) = held s.sent ++ [s.wirePacket call] := by
    rw [hLength, Nat.add_sub_add_right, List.drop_append_of_le_length (Nat.sub_le _ _)]
    rfl
  have hFresh : s.ipidCounter ∉ ids (held s.sent) := by
    have hNodup : (ids (held s.sent ++ [s.wirePacket call])).Nodup := by
      rw [← hHeld]
      apply hNumbered.nodup
      rw [hLength, sendWndSize]
      omega
    rw [ids, List.map_append, List.nodup_append] at hNodup
    exact fun hMem => hNodup.2.2 _ hMem _ (List.mem_singleton_self _) rfl
  constructor
  · change s.ipidCounter + 1 = UInt16.ofNat (s.sent ++ [s.wirePacket call]).length
    rw [hLength, h.counter, UInt16.ofNat_add]
    rfl
  · exact hNumbered
  · exact ordered_append h.ordered fun pkt hMem => (h.past pkt hMem).trans hLater
  · intro pkt hMem
    obtain hOld | hNew := List.mem_append.mp hMem
    · exact (h.past pkt hOld).trans hLater
    · rw [List.mem_singleton.mp hNew]
      exact le_rfl
  · change s.sendWnd ++ [s.ipidCounter] = ids _
    rw [SenderWindows.record, hHeld, h.sendWnd, ids, ids, List.map_append]
    rfl
  · rw [SenderWindows.record, hHeld]
    constructor
    · intro pkt hMem
      rw [AssocMap.find_set]
      obtain hOld | hNew := List.mem_append.mp hMem
      · rw [if_neg fun hEq => hFresh (mem_ids.mpr ⟨pkt, hOld, hEq⟩)]
        exact h.knows.recorded pkt hOld
      · rw [List.mem_singleton.mp hNew]
        exact if_pos rfl
    · intro id hFound
      rw [AssocMap.find_set] at hFound
      split at hFound
      · next hEq =>
        rw [hEq]
        exact mem_ids.mpr ⟨_, List.mem_append_right _ (List.mem_singleton_self _), rfl⟩
      · obtain ⟨pkt, hPkt, hId⟩ := mem_ids.mp (h.knows.only id hFound)
        exact mem_ids.mpr ⟨pkt, List.mem_append_left _ hPkt, hId⟩
  · exact List.suffix_append_self_iff.mpr (window_suffix h.ordered)
  · rw [List.length_append, List.length_singleton]
    exact Nat.succ_le_succ h.count
  · change s.goodputWnd ++ [s.ipidCounter] = ids _
    rw [h.goodputWnd, ids, ids, List.map_append]
    rfl
  · exact h.sums.record call h.count
  · exact window_append hLater _

theorem drop_drop_held (l : List WirePacket) :
    (l.drop (l.length - (sendWndSize + 1))).drop
        ((l.drop (l.length - (sendWndSize + 1))).length - sendWndSize) =
      held l := by
  have hCount : l.length - (sendWndSize + 1) +
      (l.length - (l.length - (sendWndSize + 1)) - sendWndSize) = l.length - sendWndSize := by
    omega
  rw [held, List.drop_drop, List.length_drop, hCount]

/-- The send window loses one packet at most; the loop over the other window is done before. -/
theorem Ready.sendPacket {w : List WirePacket} (h : Ready (s.record call) w)
    (hDrop : dropOutOfDate (s.record call).goodputWnd (s.record call) = some t) :
    ∃ history, s.sendPacket call = some { t with
        sendWnd := ids (held (s.record call).sent)
        pktsHistory := history
        ipidCounter := (s.record call).ipidCounter + 1 } ∧ Knows history (held (s.record call).sent) := by
  have hSame := dropOutOfDate_eq hDrop
  have hLength : ((s.record call).sent.drop
      ((s.record call).sent.length - (sendWndSize + 1))).length ≤ sendWndSize + 1 := by
    rw [List.length_drop]
    omega
  have hNodup := h.numbered.nodup (k := (s.record call).sent.length - (sendWndSize + 1))
    (by rw [sendWndSize]; omega)
  obtain ⟨history, hTrim, hKnows⟩ := trim_spec h.knows hNodup hLength
  rw [drop_drop_held] at hTrim hKnows
  refine ⟨history, ?_, hKnows⟩
  have hSendWnd : t.sendWnd = ids ((s.record call).sent.drop
      ((s.record call).sent.length - (sendWndSize + 1))) := by
    rw [hSame]
    exact h.sendWnd
  have hHistory : t.pktsHistory = (s.record call).pktsHistory := by
    rw [hSame]
  have hCounter : t.ipidCounter = (s.record call).ipidCounter := by
    rw [hSame]
  rw [SenderWindows.sendPacket, hDrop]
  simp only [bind, Option.bind_some, hSendWnd, hHistory, hTrim, hCounter]

theorem WindowsInv.sendPacket (h : WindowsInv s)
    (hLate : goodputWndSize ≤ (s.now + call.delay) / 1000) :
    NeverBelowZero (s.record call).goodputWnd (s.record call) ∧ ∃ t, s.sendPacket call = some t ∧
      Tracks t ∧ t.now = s.now + call.delay ∧ t.sent = s.sent ++ [s.wirePacket call] := by
  have hReady := h.record call
  have hOrdered : Ordered (fun pkt => pkt.info.sendUs) (s.recent ++ [s.wirePacket call]) :=
    List.Pairwise.sublist hReady.suffix.sublist hReady.ordered
  have hRecorded : Recorded (s.record call).pktsHistory (s.recent ++ [s.wirePacket call]) :=
    fun pkt hMem => hReady.knows.recorded pkt ((suffix_drop hReady.suffix hReady.count).mem hMem)
  obtain ⟨hNever, t, hDrop, hWnd, hSums⟩ :=
    dropOutOfDate_spec hLate hOrdered hRecorded hReady.goodputWnd hReady.sums
  rw [← hReady.goodputWnd] at hNever hDrop
  rw [← hReady.recent] at hWnd hSums
  obtain ⟨history, hSend, hKnows⟩ := hReady.sendPacket hDrop
  have hSent : t.sent = (s.record call).sent := by
    rw [dropOutOfDate_eq hDrop]
  have hNow : t.now = (s.record call).now := by
    rw [dropOutOfDate_eq hDrop]
  refine ⟨hNever, _, hSend, ?_, hNow, hSent⟩
  · constructor
    · simp only [hSent]
      exact hReady.counter
    · simp only [hSent]
      exact hReady.numbered
    · simp only [hSent]
      exact hReady.ordered
    · simp only [hSent, hNow]
      exact hReady.past
    · simp only [hSent]
    · simp only [hSent]
      exact hKnows
    · simp only [SenderWindows.recent, hSent, hNow]
      exact hWnd
    · simp only [SenderWindows.recent, hSent, hNow]
      exact ⟨hSums.total, hSums.goodput⟩

theorem WindowsInv.kept (h : WindowsInv s) (hLimits : WithinLimits s call) :
    Kept s call ∧ ∀ t, s.sendPacket call = some t → WindowsInv t := by
  obtain ⟨hNever, t, hSend, hTracks, hNow, hSent⟩ := h.sendPacket hLimits.late
  have hInv : WindowsInv t := by
    refine ⟨hTracks, ?_, ?_⟩
    · intro pkt hMem
      rw [hSent] at hMem
      obtain hOld | hNew := List.mem_append.mp hMem
      · exact h.narrow pkt hOld
      · rw [List.mem_singleton.mp hNew]
        exact Nat.mod_eq_of_lt hLimits.size
    · have hCount := hLimits.count
      rw [SenderWindows.recent] at hCount ⊢
      rw [hSent, hNow]
      exact hCount
  refine ⟨⟨hNever, t, hSend, hInv.exact⟩, ?_⟩
  intro u hOther
  rw [hSend] at hOther
  cases hOther
  exact hInv

/-! ## What the calls have to meet -/

theorem recent_append (hSent : t.sent = s.sent ++ [s.wirePacket call])
    (hNow : t.now = s.now + call.delay) :
    t.recent = window (fun pkt => pkt.info.sendUs) goodputWndSize (t.now / 1000) s.sent ++
      [s.wirePacket call] := by
  rw [SenderWindows.recent, hSent, window, List.filter_append, window]
  congr 1
  apply List.filter_cons_of_pos
  rw [decide_eq_true_iff, hNow]
  exact Nat.le_add_right _ _

theorem sizes_append (l w : List WirePacket) : sizes (l ++ w) = sizes l + sizes w := by
  rw [sizes, List.map_append, List.sum_append]
  rfl

theorem WindowsInv.late_of_kept (h : WindowsInv s) (hKept : Kept s call) :
    goodputWndSize ≤ (s.now + call.delay) / 1000 := by
  by_contra hEarly
  obtain ⟨u, hSend, hExact⟩ := hKept.exact
  have hReady := h.record call
  obtain ⟨t, hDrop, -⟩ := Option.bind_eq_some_iff.mp hSend
  have hWnd := hReady.goodputWnd
  rw [hWnd] at hDrop
  have hNil : t.goodputWnd = [] := goodputWnd_of_early (not_le.mp hEarly)
    (fun pkt hMem => hReady.past pkt (hReady.suffix.mem hMem))
    (fun pkt hMem => hReady.knows.recorded pkt ((suffix_drop hReady.suffix hReady.count).mem hMem))
    hWnd hDrop
  rw [← hWnd] at hDrop
  obtain ⟨history, hSame, -⟩ := hReady.sendPacket hDrop
  rw [hSend] at hSame
  have hSent : u.sent = s.sent ++ [s.wirePacket call] := by
    rw [Option.some.inj hSame, dropOutOfDate_eq hDrop]
    rfl
  have hNow : u.now = s.now + call.delay := by
    rw [Option.some.inj hSame, dropOutOfDate_eq hDrop]
    rfl
  have hGone : u.goodputWnd = [] := by
    rw [Option.some.inj hSame]
    exact hNil
  rw [hExact.goodputWnd, recent_append hSent hNow, List.map_append] at hGone
  exact List.append_ne_nil_of_right_ne_nil _ (List.cons_ne_nil _ _) hGone

/-- When more packets are in the window than the history keeps, the oldest of them is not known. -/
theorem Tracks.count_of_exact (h : Tracks t) (hExact : Exact t) :
    t.recent.length ≤ sendWndSize := by
  by_contra hShort
  have hSuffix : t.recent <:+ t.sent := window_suffix h.ordered
  have hLong : sendWndSize + 1 ≤ t.recent.length := by omega
  have hLength : sendWndSize + 1 ≤ t.sent.length := hLong.trans hSuffix.length_le
  have hOldest := drop_suffix hSuffix hLong
  have hLt : t.sent.length - (sendWndSize + 1) < t.sent.length := by omega
  have hNext : t.sent.length - (sendWndSize + 1) + 1 = t.sent.length - sendWndSize := by omega
  have hFirst : t.sent.drop (t.sent.length - (sendWndSize + 1)) =
      t.sent[t.sent.length - (sendWndSize + 1)] :: held t.sent := by
    rw [List.drop_eq_getElem_cons hLt, hNext, held]
  have hNodup := h.numbered.nodup (k := t.sent.length - (sendWndSize + 1))
    (by rw [sendWndSize]; omega)
  rw [hFirst] at hOldest hNodup
  rw [ids_cons] at hNodup
  apply (List.nodup_cons.mp hNodup).1
  apply h.knows.only
  apply hExact.real
  right
  rw [hExact.goodputWnd]
  exact List.mem_map_of_mem (hOldest.mem List.mem_cons_self)

theorem WindowsInv.withinLimits (h : WindowsInv s) (hKept : Kept s call) : WithinLimits s call := by
  have hLate := h.late_of_kept hKept
  obtain ⟨-, t, hSend, hTracks, hNow, hSent⟩ := h.sendPacket hLate
  obtain ⟨u, hOther, hExact⟩ := hKept.exact
  rw [hSend] at hOther
  cases hOther
  refine ⟨hLate, ?_, ?_⟩
  · have hSum := hTracks.sums.total.symm.trans hExact.total
    rw [recent_append hSent hNow, recordedSizes_append, sizes_append,
      recordedSizes_eq fun pkt hMem => h.narrow pkt (mem_window.mp hMem).1] at hSum
    have hSize : call.size.toUInt16.toNat = call.size.toNat := Nat.add_left_cancel hSum
    rw [← hSize]
    exact UInt16.toNat_lt _
  · have hCount := hTracks.count_of_exact hExact
    rw [SenderWindows.recent] at hCount ⊢
    rw [hSent, hNow] at hCount
    exact hCount

/-- In a run of calls the windows are kept at every call if and only if every call is within the
limits. -/
theorem kept_iff_withinLimits (calls : List SendCall) :
    StepsMeet sendPacket Kept create calls ↔ StepsMeet sendPacket WithinLimits create calls :=
  stepsMeet_congr_of_guard (fun _ _ t hInv hKept hSend => (hInv.kept (hInv.withinLimits hKept)).2 t hSend)
    (fun _ _ hInv => ⟨hInv.withinLimits, fun hLimits => (hInv.kept hLimits).1⟩) windowsInv_create

/-- A packet sent 40 ms after the start leaves the window at once. -/
theorem first_packet_out_of_date :
    ¬StepsMeet sendPacket Kept create
      [⟨40000000, .data (DataPacket.ofFrame 0 1 0 0), 1000⟩] := by
  intro hRun
  obtain ⟨t, hSend, hExact⟩ := hRun.1.exact
  cases hSend
  exact absurd hExact.goodputWnd (by decide)

end SenderWindows
end Bullet.Stream
