import Bullet.Stream.GroupDelivery

/-! # The statistics of a packet group

The group is initialised by its first packet, and again by every packet that comes while no data
packet is known. The statistics do not depend on the order of arrival as long as such a packet
changes nothing.
-/

namespace Bullet.Stream.PacketGroup

open Lib.PartialRun

variable {begin : FirstEntry} {s t : Delivery} {pkt : VideoPacket} {now : Time}
  {dataNum fecNum : UInt16}

/-- The largest transmission count of some packets. -/
def maxTx (pkts : List VideoPacket) : ℕ :=
  pkts.foldl (fun m pkt => max m pkt.header.txCount.toNat) 0

/-- The packet is one of a group that announces so many data and FEC packets. -/
def OfGroup (dataNum fecNum : UInt16) : GroupOp → Prop
  | .add pkt _ => pkt.header.groupDataNum = dataNum ∧ pkt.header.groupFecNum = fecNum
  | .get => True

instance (op : GroupOp) : Decidable (OfGroup dataNum fecNum op) :=
  match op with
  | .add _ _ => inferInstanceAs (Decidable (_ ∧ _))
  | .get => inferInstanceAs (Decidable True)

structure StatsRight (dataNum fecNum : UInt16) (s : Delivery) : Prop where
  firstRcvTime : ∀ pkt ∈ s.arrived.head?, s.group.firstRcvTime = pkt.header.rcvTime
  maxTxCount : s.group.maxTxCount.toNat = maxTx s.arrived
  dataNum : s.group.dataNum = dataNum
  fecNum : s.arrived ≠ [] → s.group.fecNum = fecNum

/-- The group knows no data packet, received or recovered. -/
def KnowsNone (g : PacketGroup) : Prop := g.decodedPkts.card + g.undecodedPkts.length = 0

instance (g : PacketGroup) : Decidable g.KnowsNone := inferInstanceAs (Decidable (_ = _))

/-- A later packet comes when a data packet is known, or brings nothing new to the statistics. -/
def KeepsStats (s : Delivery) : GroupOp → Prop
  | .add pkt _ => s.arrived = [] ∨ ¬ s.group.KnowsNone ∨
      (pkt.header.rcvTime = s.group.firstRcvTime ∧ s.group.maxTxCount ≤ pkt.header.txCount)
  | .get => True

instance (s : Delivery) (op : GroupOp) : Decidable (KeepsStats s op) :=
  match op with
  | .add _ _ => inferInstanceAs (Decidable (_ ∨ _))
  | .get => inferInstanceAs (Decidable True)

/-- The statistics that the initialisation sets. -/
structure SameStats (g g' : PacketGroup) : Prop where
  firstRcvTime : g'.firstRcvTime = g.firstRcvTime
  maxTxCount : g'.maxTxCount = g.maxTxCount
  dataNum : g'.dataNum = g.dataNum
  fecNum : g'.fecNum = g.fecNum

theorem storeBatch_sameStats (g : PacketGroup) (batchId : UInt32) (complete : Bool)
    (b : PacketBatch) : SameStats g (g.storeBatch batchId complete b) := by
  cases complete with
  | true => exact ⟨rfl, rfl, rfl, rfl⟩
  | false => exact ⟨rfl, rfl, rfl, rfl⟩

theorem addPacket_sameStats {g g' : PacketGroup} (hAdd : g.addPacket begin pkt now = some g') :
    SameStats (g.recordPacket pkt) g' := by
  rw [addPacket] at hAdd
  dsimp only at hAdd
  split at hAdd
  · cases hAdd
    exact ⟨rfl, rfl, rfl, rfl⟩
  · obtain ⟨b, -, hAdd⟩ := Option.bind_eq_some_iff.mp hAdd
    obtain ⟨⟨complete, b'⟩, -, hAdd⟩ := Option.bind_eq_some_iff.mp hAdd
    cases hAdd
    exact storeBatch_sameStats _ pkt.header.batchId complete b'

theorem countPacket_sameStats (g : PacketGroup) (pkt : VideoPacket) :
    SameStats g (g.countPacket pkt) := by
  unfold countPacket
  split
  · cases pkt <;> exact ⟨rfl, rfl, rfl, rfl⟩
  · cases pkt <;> exact ⟨rfl, rfl, rfl, rfl⟩

theorem updateTimes_stats (g : PacketGroup) (pkt : VideoPacket) :
    let g' := (g.countPacket pkt).updateTimes pkt.header
    g'.firstRcvTime = g.firstRcvTime ∧
      g'.maxTxCount.toNat = max g.maxTxCount.toNat pkt.header.txCount.toNat ∧
      g'.dataNum = g.dataNum ∧ g'.fecNum = g.fecNum := by
  obtain ⟨hFirst, hMax, hData, hFec⟩ := countPacket_sameStats g pkt
  refine ⟨hFirst, ?_, hData, hFec⟩
  change (if pkt.header.txCount > (g.countPacket pkt).maxTxCount then pkt.header.txCount
    else (g.countPacket pkt).maxTxCount).toNat = _
  rw [hMax]
  split
  · next hMore => exact (Nat.max_eq_right (UInt8.lt_iff_toNat_lt.mp hMore).le).symm
  · next hNot => exact (Nat.max_eq_left (UInt8.le_iff_toNat_le.mp (UInt8.not_lt.mp hNot))).symm

/-- A packet initialises the statistics when no data packet is known. -/
theorem recordPacket_init {g : PacketGroup} (hNone : g.KnowsNone) (pkt : VideoPacket) :
    (g.recordPacket pkt).firstRcvTime = pkt.header.rcvTime ∧
      (g.recordPacket pkt).maxTxCount.toNat = pkt.header.txCount.toNat ∧
      (g.recordPacket pkt).dataNum = g.dataNum ∧
      (g.recordPacket pkt).fecNum = pkt.header.groupFecNum := by
  obtain ⟨hFirst, hMax, hData, hFec⟩ := updateTimes_stats (g.initGroup pkt) pkt
  have hZero : g.decodedPkts.card + g.undecodedPkts.length = 0 := hNone
  rw [recordPacket, if_pos hZero]
  exact ⟨hFirst, hMax.trans (max_self _), hData, hFec⟩

/-- Else they go on from the packets before. -/
theorem recordPacket_update {g : PacketGroup} (hKnows : ¬ g.KnowsNone) (pkt : VideoPacket) :
    (g.recordPacket pkt).firstRcvTime = g.firstRcvTime ∧
      (g.recordPacket pkt).maxTxCount.toNat =
        max g.maxTxCount.toNat pkt.header.txCount.toNat ∧
      (g.recordPacket pkt).dataNum = g.dataNum ∧ (g.recordPacket pkt).fecNum = g.fecNum := by
  have hSome : ¬ g.decodedPkts.card + g.undecodedPkts.length = 0 := hKnows
  rw [recordPacket, if_neg hSome]
  exact updateTimes_stats g pkt

theorem maxTx_append (pkts : List VideoPacket) (pkt : VideoPacket) :
    maxTx (pkts ++ [pkt]) = max (maxTx pkts) pkt.header.txCount.toNat :=
  List.foldl_append

/-! ## Along a run -/

/-- Before the first packet the group knows no data packet. -/
def StartsEmpty (s : Delivery) : Prop :=
  s.arrived = [] → s.group.decodedPkts = ∅ ∧ s.group.undecodedPkts = []

/-- What the statistics are after an arrival. -/
theorem deliver_add_stats (hStep : deliver begin s (.add pkt now) = some t) :
    t.arrived = s.arrived ++ [pkt] ∧ SameStats (s.group.recordPacket pkt) t.group := by
  obtain ⟨group, hAdd, hResult⟩ := Option.bind_eq_some_iff.mp hStep
  cases hResult
  exact ⟨rfl, addPacket_sameStats hAdd⟩

theorem deliver_startsEmpty {op : GroupOp} (hStart : StartsEmpty s)
    (hStep : deliver begin s op = some t) : StartsEmpty t := by
  cases op with
  | add pkt now =>
    intro hNil
    rw [(deliver_add_stats hStep).1] at hNil
    exact absurd hNil (List.append_ne_nil_of_right_ne_nil _ (List.cons_ne_nil pkt []))
  | get =>
    cases hStep
    intro hNil
    obtain ⟨hDecoded, hUndecoded⟩ := hStart hNil
    refine ⟨?_, rfl⟩
    change s.group.decodedPkts ∪ (s.group.undecodedPkts.map (·.pktIdInGroup)).toFinset = ∅
    rw [hDecoded, hUndecoded]
    rfl

theorem deliver_add_maxTx (hRight : StatsRight dataNum fecNum s)
    (hArrived : t.arrived = s.arrived ++ [pkt]) :
    maxTx t.arrived = max s.group.maxTxCount.toNat pkt.header.txCount.toNat := by
  rw [hArrived, maxTx_append, hRight.maxTxCount]

/-- The first packet makes the statistics right. -/
theorem statsRight_first (hNil : s.arrived = []) (hNone : s.group.KnowsNone)
    (hRight : StatsRight dataNum fecNum s) (hGroup : OfGroup dataNum fecNum (.add pkt now))
    (hStep : deliver begin s (.add pkt now) = some t) : StatsRight dataNum fecNum t := by
  obtain ⟨hArrived, hFirst, hMax, hData, hFec⟩ := deliver_add_stats hStep
  obtain ⟨hRcv, hTx, hNum, hFecNum⟩ := recordPacket_init hNone pkt
  refine ⟨fun first hHead => ?_, ?_, hData.trans (hNum.trans hRight.dataNum),
    fun _ => hFec.trans (hFecNum.trans hGroup.2)⟩
  · rw [hArrived, hNil] at hHead
    cases hHead
    exact hFirst.trans hRcv
  · rw [hArrived, hNil, hMax]
    exact hTx.trans (Nat.zero_max _).symm

/-- A later packet that initialises them again keeps them right exactly when it was received no
later and transmitted no less often than the packets before. -/
theorem statsRight_again (hNil : s.arrived ≠ []) (hNone : s.group.KnowsNone)
    (hRight : StatsRight dataNum fecNum s) (hGroup : OfGroup dataNum fecNum (.add pkt now))
    (hStep : deliver begin s (.add pkt now) = some t) :
    StatsRight dataNum fecNum t ↔
      pkt.header.rcvTime = s.group.firstRcvTime ∧ s.group.maxTxCount ≤ pkt.header.txCount := by
  obtain ⟨hArrived, hFirst, hMax, hData, hFec⟩ := deliver_add_stats hStep
  obtain ⟨hRcv, hTx, hNum, hFecNum⟩ := recordPacket_init hNone pkt
  have hAll := deliver_add_maxTx hRight hArrived
  obtain ⟨first, rest, hCons⟩ := List.exists_cons_of_ne_nil hNil
  have hRcvS : s.group.firstRcvTime = first.header.rcvTime := by
    apply hRight.firstRcvTime
    rw [hCons]
    rfl
  have hHead : t.arrived.head? = some first := by
    rw [hArrived, hCons]
    rfl
  constructor
  · intro hRightT
    constructor
    · rw [← hRcv, ← hFirst, hRightT.firstRcvTime first hHead, hRcvS]
    · have hLe := hRightT.maxTxCount
      rw [hMax, hTx, hAll] at hLe
      exact UInt8.le_iff_toNat_le.mpr (hLe ▸ le_max_left _ _)
  · rintro ⟨hTime, hLe⟩
    refine ⟨fun first' hHead' => ?_, ?_, hData.trans (hNum.trans hRight.dataNum),
      fun _ => hFec.trans (hFecNum.trans hGroup.2)⟩
    · cases hHead.symm.trans hHead'
      rw [hFirst, hRcv, hTime, hRcvS]
    · rw [hMax, hTx, hAll]
      exact (max_eq_right (UInt8.le_iff_toNat_le.mp hLe)).symm

/-- A packet that comes when a data packet is known keeps the statistics right. -/
theorem statsRight_known (hNil : s.arrived ≠ []) (hKnows : ¬ s.group.KnowsNone)
    (hRight : StatsRight dataNum fecNum s)
    (hStep : deliver begin s (.add pkt now) = some t) : StatsRight dataNum fecNum t := by
  obtain ⟨hArrived, hFirst, hMax, hData, hFec⟩ := deliver_add_stats hStep
  obtain ⟨hRcv, hTx, hNum, hFecNum⟩ := recordPacket_update hKnows pkt
  obtain ⟨first, rest, hCons⟩ := List.exists_cons_of_ne_nil hNil
  refine ⟨fun first' hHead => ?_, ?_, hData.trans (hNum.trans hRight.dataNum),
    fun _ => hFec.trans (hFecNum.trans (hRight.fecNum hNil))⟩
  · rw [hArrived, hCons] at hHead
    cases hHead
    rw [hFirst, hRcv]
    apply hRight.firstRcvTime
    rw [hCons]
    rfl
  · rw [hMax, hTx, deliver_add_maxTx hRight hArrived]

/-- An arrival keeps the statistics right exactly when initialising them again changes nothing. -/
theorem deliver_statsRight_iff {op : GroupOp} (hStart : StartsEmpty s)
    (hRight : StatsRight dataNum fecNum s) (hGroup : OfGroup dataNum fecNum op)
    (hStep : deliver begin s op = some t) : StatsRight dataNum fecNum t ↔ KeepsStats s op := by
  cases op with
  | get =>
    cases hStep
    exact iff_of_true ⟨hRight.firstRcvTime, hRight.maxTxCount, hRight.dataNum, hRight.fecNum⟩
      trivial
  | add pkt now =>
    by_cases hNil : s.arrived = []
    · have hNone : s.group.KnowsNone := by
        obtain ⟨hDecoded, hUndecoded⟩ := hStart hNil
        rw [KnowsNone, hDecoded, hUndecoded]
        rfl
      exact iff_of_true (statsRight_first hNil hNone hRight hGroup hStep) (.inl hNil)
    · by_cases hNone : s.group.KnowsNone
      · rw [statsRight_again hNil hNone hRight hGroup hStep, KeepsStats, or_iff_right hNil,
          or_iff_right (not_not_intro hNone)]
      · exact iff_of_true (statsRight_known hNil hNone hRight hStep) (.inr (.inl hNone))

variable {groupId : UInt32} {encodeTime : Time} {ops : List GroupOp}

/-- In every order of arrival the statistics stay right exactly when every packet that comes while
no data packet is known brings nothing new to them. -/
theorem statistics_right_iff (hGroup : ∀ op ∈ ops, OfGroup dataNum fecNum op)
    (hRun : run (deliver begin) (.init groupId dataNum encodeTime) ops = some s) :
    (∀ p q, ops = p ++ q →
      ∀ t, run (deliver begin) (.init groupId dataNum encodeTime) p = some t →
        StatsRight dataNum fecNum t) ↔
      StepsMeet (deliver begin) KeepsStats (.init groupId dataNum encodeTime) ops := by
  have hStart : StartsEmpty (.init groupId dataNum encodeTime) := fun _ => ⟨rfl, rfl⟩
  have hFirst : StatsRight dataNum fecNum (.init groupId dataNum encodeTime) := by
    refine ⟨fun first hHead => ?_, rfl, rfl, fun hNil => absurd rfl hNil⟩
    cases hHead
  refine stepsMeet_iff_of_run ?_ ?_ hStart hFirst hGroup hRun
  · intro s op t hStart hStep
    exact deliver_startsEmpty hStart hStep
  · intro s op t hStart hRight hOf hStep
    exact deliver_statsRight_iff hStart hRight hOf hStep

/-- A data packet comes first, a FEC packet later. -/
def dataFirst : List GroupOp :=
  [dataArrival { batchHeader 0 2 1 0 0 with rcvTime := 1, txCount := 1 }, .get,
    fecArrival { batchHeader 0 2 1 2 2 with rcvTime := 2 } [0, 1]]

theorem statistics_dataFirst :
    ∃ t, run (deliver .newest) (.init 0 2 0) dataFirst = some t ∧ StatsRight 2 1 t := by
  have hRight : ∀ p q, dataFirst = p ++ q → ∀ t, run (deliver .newest) (.init 0 2 0) p = some t →
      StatsRight 2 1 t := (statistics_right_iff (by decide) rfl).mpr (by decide)
  exact ⟨_, rfl, hRight dataFirst [] (List.append_nil _).symm _ rfl⟩

/-- The retransmitted FEC packet comes first, a data packet later. -/
def fecFirst : List GroupOp :=
  [fecArrival { batchHeader 0 2 1 2 2 with rcvTime := 1, txCount := 1 } [0, 1],
    dataArrival { batchHeader 0 2 1 0 0 with rcvTime := 2 }]

theorem data_after_fec_resets :
    (∀ op ∈ fecFirst, OfGroup 2 1 op) ∧
      ∃ s, run (deliver .newest) (.init 0 2 0) fecFirst = some s ∧ s.group.firstRcvTime = 2 ∧
        s.group.maxTxCount = 0 ∧ ¬ StatsRight 2 1 s := by
  refine ⟨by decide, _, rfl, rfl, rfl, fun hRight => ?_⟩
  have hFirst := hRight.firstRcvTime _ rfl
  revert hFirst
  decide

end Bullet.Stream.PacketGroup
