import Bullet.Stream.PacketHeader

/-! # What the headers read back

A header announces as many bytes as it writes and reads back what it wrote. Only the loss rate may
come back as another one.
-/

namespace Bullet.Stream

open Lib Lib.Wire

/-- The header `a` is written in its announced size and read back as `b`. -/
structure Header.ReadsAs {α : Type} (H : Header α) (a b : α) : Prop where
  size : (H.getSerializedSize a).toNat = (H.serialize a).length
  reads : Reads H.deserialize (H.serialize a) (b, H.getSerializedSize a)

/-- A time that a 64-bit count of its unit holds. -/
def FitsTime (unit : Int) (t : Time) : Prop :=
  unit ∣ t ∧ -2 ^ 63 ≤ t ∧ t < 2 ^ 63

theorem toU64_toNat (i : Int) : ((toU64 i).toNat : Int) = i % (2 ^ 64 : ℕ) := by
  have hPos : (0 : Int) < (2 ^ 64 : ℕ) := by decide
  have hNonneg : 0 ≤ i % (2 ^ 64 : ℕ) := Int.emod_nonneg i hPos.ne'
  have hLt : (i % (2 ^ 64 : ℕ)).toNat < 2 ^ 64 :=
    (Int.toNat_lt hNonneg).mpr (Int.emod_lt_of_pos i hPos)
  change ((UInt64.ofNat (i % (2 ^ 64 : ℕ)).toNat).toNat : Int) = _
  rw [UInt64.toNat_ofNat', Nat.mod_eq_of_lt hLt, Int.toNat_of_nonneg hNonneg]

theorem bmod_mul_of_eq_emod {n : ℕ} {w i unit : Int} (h : w = i % n) :
    Int.bmod (w * unit) n = Int.bmod (i * unit) n := by
  rw [h, Int.emod_mul_bmod]

theorem timeOfInteger_toU64 {unit : ℕ} (hUnit : 0 < unit) {t : Time} (h : FitsTime unit t) :
    timeOfInteger (toU64 (t.tdiv unit)) unit = t := by
  obtain ⟨⟨i, rfl⟩, hLow, hHigh⟩ := h
  have hHalf : ((2 ^ 64 : ℕ) : Int) = 2 * 2 ^ 63 := by norm_num
  have hDiv : ((unit : Int) * i).tdiv unit = i := Int.mul_tdiv_cancel_left i (by omega)
  calc
    timeOfInteger (toU64 ((unit * i : Int).tdiv unit)) unit =
        timeOfInteger (toU64 i) unit := by rw [hDiv]
    _ = Int.bmod (i * unit) (2 ^ 64) := bmod_mul_of_eq_emod (toU64_toNat i)
    _ = i * unit := by
      apply Int.bmod_eq_of_le_mul_two
      · rw [hHalf]
        linarith
      · rw [hHalf]
        linarith
    _ = unit * i := Int.mul_comm ..

theorem PacketType.ofCode_code {type : PacketType} (h : ∀ c, type ≠ .other c) :
    ofCode type.code = type := by
  cases type with
  | other c => exact absurd rfl (h c)
  | _ => rfl

theorem networkPacketHeader_readsAs {type : PacketType} (h : ∀ c, type ≠ .other c) :
    networkPacketHeader.ReadsAs type type := by
  constructor
  · rfl
  · have hReads := (reads_u32 type.code).last (g := fun c => (PacketType.ofCode c, (4 : UInt32)))
    rwa [PacketType.ofCode_code h] at hReads

theorem videoPacketHeader_readsAs {h : VideoPacketHeader} (hTime : FitsTime 1000000 h.encodeTime) :
    videoPacketHeader.ReadsAs h h := by
  constructor
  · simp [videoPacketHeader]
  · have hBack : timeOfInteger (toU64 (getMilliSeconds h.encodeTime)) 1000000 = h.encodeTime :=
      timeOfInteger_toU64 (by decide) hTime
    have hReads : Reads videoPacketHeader.deserialize (videoPacketHeader.serialize h)
        (⟨timeOfInteger (toU64 (getMilliSeconds h.encodeTime)) 1000000, h.globalId, h.groupId,
          h.groupDataNum, h.groupFecNum, h.pktIdInGroup, h.batchId, h.batchDataNum, h.batchFecNum,
          h.pktIdInBatch, h.txCount⟩, 8 + 2 + 4 + 2 + 2 + 2 + 4 + 2 + 2 + 2 + 1) :=
      (reads_u64 _).bind <| (reads_u16 _).bind <| (reads_u32 _).bind <| (reads_u16 _).bind <|
        (reads_u16 _).bind <| (reads_u16 _).bind <| (reads_u32 _).bind <| (reads_u16 _).bind <|
        (reads_u16 _).bind <| (reads_u16 _).bind <| (reads_u8 _).last
    rwa [hBack] at hReads

theorem dataPacketHeader_readsAs (h : DataPacketHeader) : dataPacketHeader.ReadsAs h h := by
  constructor
  · simp [dataPacketHeader]
  · exact (reads_u32 _).bind <| (reads_u32 _).bind <| (reads_u16 _).bind <| (reads_u16 _).last

theorem toNat_ofNat_of_lt {n : ℕ} (h : n < 2 ^ 16) : (UInt16.ofNat n).toNat = n := by
  rw [UInt16.toNat_ofNat', Nat.mod_eq_of_lt h]

/-- The announced size of a list with entries of a few bytes does not wrap. -/
theorem announced_size {l : ℕ} (h : l ≤ 2 ^ 24) : (UInt32.ofNat l).toNat = l := by
  rw [UInt32.toNat_ofNat', Nat.mod_eq_of_lt (h.trans_lt (by decide))]

theorem DataPktDigest.reads (d : DataPktDigest) : Reads read d.write d :=
  (reads_u16 _).bind <| (reads_u16 _).bind <| (reads_u32 _).bind <| (reads_u16 _).bind <|
    (reads_u16 _).last

theorem DataPktDigest.length_write (d : DataPktDigest) : d.write.length = 12 := by
  simp [write]

theorem fecPacketHeader_readsAs {dataPkts : List DataPktDigest} (h : dataPkts.length < 2 ^ 16) :
    fecPacketHeader.ReadsAs dataPkts dataPkts := by
  have hCount := toNat_ofNat_of_lt h
  constructor
  · have hLength := length_flatMap_of_forall (l := dataPkts) DataPktDigest.length_write
    change (UInt32.ofNat (dataPkts.length * 12 + 2)).toNat = _
    rw [announced_size (by omega)]
    simp only [fecPacketHeader, List.length_append, length_writeU16, hLength]
    omega
  · have hList : Reads (readList DataPktDigest.read (UInt16.ofNat dataPkts.length).toNat)
        (dataPkts.flatMap DataPktDigest.write) dataPkts := by
      rw [hCount]
      exact reads_list fun d _ => d.reads
    have hSize : 2 + UInt32.ofNat (12 * (UInt16.ofNat dataPkts.length).toNat) =
        fecPacketHeader.getSerializedSize dataPkts := by
      rw [hCount, Nat.mul_comm]
      exact (UInt32.add_comm ..).trans (UInt32.ofNat_add ..).symm
    have hReads : Reads fecPacketHeader.deserialize (fecPacketHeader.serialize dataPkts)
        (dataPkts, 2 + UInt32.ofNat (12 * (UInt16.ofNat dataPkts.length).toNat)) :=
      (reads_u16 _).bind hList.last
    rwa [hSize] at hReads

theorem AckedPkt.reads (p : AckedPkt) : Reads read p.write p :=
  (reads_u32 _).bind (reads_u16 _).last

theorem AckedPkt.length_write (p : AckedPkt) : p.write.length = 6 := by
  simp [write]

theorem ackPacketHeader_readsAs {h : AckPacketHeader} (hFits : h.pktInfos.length < 2 ^ 16) :
    ackPacketHeader.ReadsAs h h := by
  have hCount : (UInt32.ofNat h.pktInfos.length).toNat = h.pktInfos.length :=
    announced_size (by omega)
  constructor
  · have hLength := length_flatMap_of_forall (l := h.pktInfos) AckedPkt.length_write
    change (UInt32.ofNat (4 + h.pktInfos.length * 6 + 2)).toNat = _
    rw [announced_size (by omega)]
    simp only [ackPacketHeader, List.length_append, length_writeU32, length_writeU16, hLength]
    omega
  · have hList : Reads (readList AckedPkt.read (UInt32.ofNat h.pktInfos.length).toNat)
        (h.pktInfos.flatMap AckedPkt.write) h.pktInfos := by
      rw [hCount]
      exact reads_list fun p _ => p.reads
    have hSize : 4 + UInt32.ofNat (6 * (UInt32.ofNat h.pktInfos.length).toNat) + 2 =
        ackPacketHeader.getSerializedSize h := by
      rw [hCount, Nat.mul_comm]
      change _ = UInt32.ofNat (4 + h.pktInfos.length * 6 + 2)
      rw [UInt32.ofNat_add, UInt32.ofNat_add]
      rfl
    have hReads : Reads ackPacketHeader.deserialize (ackPacketHeader.serialize h)
        (h, 4 + UInt32.ofNat (6 * (UInt32.ofNat h.pktInfos.length).toNat) + 2) :=
      (reads_u32 _).bind (hList.bind (reads_u16 _).last)
    rwa [hSize] at hReads

theorem frameAckPacketHeader_readsAs {h : FrameAckPacketHeader}
    (hTime : FitsTime 1000 h.frameEncodeTime) : frameAckPacketHeader.ReadsAs h h := by
  constructor
  · simp [frameAckPacketHeader]
  · have hBack : timeOfInteger (toU64 (getMicroSeconds h.frameEncodeTime)) 1000 =
        h.frameEncodeTime := timeOfInteger_toU64 (by decide) hTime
    have hReads : Reads frameAckPacketHeader.deserialize (frameAckPacketHeader.serialize h)
        (⟨h.frameId, timeOfInteger (toU64 (getMicroSeconds h.frameEncodeTime)) 1000⟩, 4 + 8) :=
      (reads_u32 _).bind (reads_u64 _).last
    rwa [hBack] at hReads

theorem RcvTime.reads (t : RcvTime) : Reads read t.write t :=
  (reads_u32 _).bind (reads_u32 _).last

theorem RcvTime.length_write (t : RcvTime) : t.write.length = 8 := by
  simp [write]

theorem reads_loss {loss : Int} (h : |loss| < 2 ^ 16) : Reads readLoss (writeLoss loss) loss := by
  obtain ⟨hLow, hHigh⟩ := abs_lt.mp h
  rcases Int.lt_or_le loss 0 with hNeg | hPos
  · have hValue : (UInt16.ofNat (-loss).toNat).toNat = (-loss).toNat :=
      toNat_ofNat_of_lt (by omega)
    have hReads : Reads readLoss (writeU16 0 ++ writeU16 (UInt16.ofNat (-loss).toNat))
        (if 0 < (0 : UInt16) then ((UInt16.ofNat (-loss).toNat).toNat : Int)
          else -((UInt16.ofNat (-loss).toNat).toNat : Int)) := (reads_u16 0).bind (reads_u16 _).last
    rw [if_neg (by decide), hValue, Int.toNat_of_nonneg (by omega), Int.neg_neg] at hReads
    rwa [writeLoss, if_pos hNeg]
  · have hValue : (UInt16.ofNat loss.toNat).toNat = loss.toNat := toNat_ofNat_of_lt (by omega)
    have hReads : Reads readLoss (writeU16 1 ++ writeU16 (UInt16.ofNat loss.toNat))
        (if 0 < (1 : UInt16) then ((UInt16.ofNat loss.toNat).toNat : Int)
          else -((UInt16.ofNat loss.toNat).toNat : Int)) := (reads_u16 1).bind (reads_u16 _).last
    rw [if_pos (by decide), hValue, Int.toNat_of_nonneg hPos] at hReads
    rwa [writeLoss, if_neg (not_lt.mpr hPos)]

theorem length_writeLoss (loss : Int) : (writeLoss loss).length = 4 := by
  rw [writeLoss]
  split <;> simp

/-- The entries of a network state that fit their words. -/
structure NetStates.Fits (h : NetStates) : Prop where
  lossSeq : h.lossSeq.length < 2 ^ 16
  loss : ∀ loss ∈ h.lossSeq, |loss| < 2 ^ 16
  recvtimeHist : h.recvtimeHist.length < 2 ^ 16

theorem netStatePacketHeader_readsAs {h : NetStates} (hFits : h.Fits) :
    netStatePacketHeader.ReadsAs h
      { h with lossRate := ofWireLossRate (wireLossRate h.lossRate) } := by
  have hLossCount := toNat_ofNat_of_lt hFits.lossSeq
  have hHistCount := toNat_ofNat_of_lt hFits.recvtimeHist
  have hLossLength := hFits.lossSeq
  have hHistLength := hFits.recvtimeHist
  constructor
  · have hLoss := length_flatMap_of_forall (l := h.lossSeq) length_writeLoss
    have hHist := length_flatMap_of_forall (l := h.recvtimeHist) RcvTime.length_write
    change (UInt32.ofNat (12 + 4 * h.lossSeq.length + 8 * h.recvtimeHist.length)).toNat = _
    rw [announced_size (by omega)]
    simp only [netStatePacketHeader, List.length_append, length_writeU32, length_writeU16, hLoss,
      hHist]
    omega
  · have hLoss : Reads (readList readLoss (UInt16.ofNat h.lossSeq.length).toNat)
        (h.lossSeq.flatMap writeLoss) h.lossSeq := by
      rw [hLossCount]
      exact reads_list fun loss hLoss => reads_loss (hFits.loss loss hLoss)
    have hHist : Reads (readList RcvTime.read (UInt16.ofNat h.recvtimeHist.length).toNat)
        (h.recvtimeHist.flatMap RcvTime.write) h.recvtimeHist := by
      rw [hHistCount]
      exact reads_list fun t _ => t.reads
    have hSize : 12 + UInt32.ofNat (4 * (UInt16.ofNat h.lossSeq.length).toNat) +
        UInt32.ofNat (8 * (UInt16.ofNat h.recvtimeHist.length).toNat) =
        netStatePacketHeader.getSerializedSize h := by
      rw [hLossCount, hHistCount]
      change _ = UInt32.ofNat (12 + 4 * h.lossSeq.length + 8 * h.recvtimeHist.length)
      rw [UInt32.ofNat_add, UInt32.ofNat_add]
      rfl
    have hReads : Reads netStatePacketHeader.deserialize (netStatePacketHeader.serialize h)
        ({ h with lossRate := ofWireLossRate (wireLossRate h.lossRate) },
          12 + UInt32.ofNat (4 * (UInt16.ofNat h.lossSeq.length).toNat) +
            UInt32.ofNat (8 * (UInt16.ofNat h.recvtimeHist.length).toNat)) :=
      (reads_u16 _).bind <| (reads_u32 _).bind <| (reads_u16 _).bind <| (reads_u16 _).bind <|
        hLoss.bind <| (reads_u16 _).bind <| hHist.last
    rwa [hSize] at hReads

end Bullet.Stream
