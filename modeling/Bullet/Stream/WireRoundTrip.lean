import Bullet.Stream.NetworkPacket

/-! # What survives the wire

Which packets come back as they were sent. A FEC packet must leave its payload a size, and the loss
rate of a network state must not be rounded below its number of ten-thousandths.
-/

namespace Bullet.Stream

open Lib Lib.Wire

/-! ## The loss rate -/

section

variable {k : ℕ}

theorem rate_error (hk : k < 2 ^ 16) :
    |Binary64.div k 10000 - k / 10000| ≤ 8 * 2 ^ (-53 : ℤ) := by
  have hK : (k : ℚ) < 2 ^ 16 := by exact_mod_cast hk
  have hNonneg : (0 : ℚ) ≤ k := Nat.cast_nonneg k
  apply Binary64.abs_round_sub_le_of_le
  rw [abs_of_nonneg (by linarith)]
  linarith

/-- The double product of a rate and 10000 is within one of the number of ten-thousandths. -/
theorem product_error (hk : k < 2 ^ 16) :
    |Binary64.mul (Binary64.div k 10000) 10000 - k| < 1 / 2 := by
  have hK : (k : ℚ) < 2 ^ 16 := by exact_mod_cast hk
  have hNonneg : (0 : ℚ) ≤ k := Nat.cast_nonneg k
  have hRate := abs_le.mp (rate_error hk)
  have hProduct := Binary64.abs_round_sub_le_of_le (b := 2 ^ 17)
    (x := Binary64.div k 10000 * 10000) (by
      rw [abs_le]
      constructor <;> norm_num at hRate ⊢ <;> linarith)
  rw [abs_lt]
  have hProduct := abs_le.mp hProduct
  rw [Binary64.mul]
  constructor <;> norm_num at hRate hProduct ⊢ <;> linarith

theorem pos_of_product_lt (h : ¬ (k : ℚ) ≤ Binary64.mul (Binary64.div k 10000) 10000) : 0 < k := by
  by_contra hZero
  have hK : k = 0 := by omega
  apply h
  simp [hK, Binary64.div, Binary64.mul, Binary64.round_zero]

theorem rate_strictMono {j : ℕ} (hj : j < k) (hk : k < 2 ^ 16) :
    Binary64.div j 10000 < Binary64.div k 10000 := by
  have hJ := abs_le.mp (rate_error (hj.trans hk))
  have hK := abs_le.mp (rate_error hk)
  have hStep : (j : ℚ) + 1 ≤ k := by exact_mod_cast hj
  norm_num at hJ hK
  linarith

/-- The wire holds the number of ten-thousandths, or one less after a rounding down. -/
theorem wireLossRate_eq (hk : k < 2 ^ 16) :
    (wireLossRate (Binary64.div k 10000)).toNat =
      if (k : ℚ) ≤ Binary64.mul (Binary64.div k 10000) 10000 then k else k - 1 := by
  have hError := abs_lt.mp (product_error hk)
  have hMod : ∀ n : ℕ, n < 2 ^ 16 → Binary64.truncate (Binary64.mul (Binary64.div k 10000) 10000) = n →
      (wireLossRate (Binary64.div k 10000)).toNat = n := by
    intro n hn hTruncate
    have hCast : ((n : Int) % 2 ^ 16).toNat = n := by omega
    rw [wireLossRate, hTruncate, hCast, toNat_ofNat_of_lt hn]
  split
  · rename_i hUp
    apply hMod k hk
    apply Binary64.truncate_eq_of_le hUp
    linarith
  · rename_i hDown
    have hPos := pos_of_product_lt hDown
    have hPred : ((k - 1 : ℕ) : ℚ) = k - 1 := by
      rw [Nat.cast_sub hPos, Nat.cast_one]
    apply hMod (k - 1) (by omega)
    apply Binary64.truncate_eq_of_le
    · rw [hPred]
      linarith
    · rw [hPred]
      linarith

theorem lossRate_restored_iff (hk : k < 2 ^ 16) :
    ofWireLossRate (wireLossRate (Binary64.div k 10000)) = Binary64.div k 10000 ↔
      (k : ℚ) ≤ Binary64.mul (Binary64.div k 10000) 10000 := by
  rw [ofWireLossRate, wireLossRate_eq hk]
  split
  · rename_i hUp
    exact iff_of_true rfl hUp
  · rename_i hDown
    have hPos := pos_of_product_lt hDown
    exact iff_of_false (rate_strictMono (by omega) hk).ne hDown

end

namespace NetworkPacket

/-! ## Packets -/

section

variable {α : Type} {H : Header α} {h back : α} {video : VideoPacketHeader}

theorem length_network (type : PacketType) : (networkPacketHeader.serialize type).length = 4 :=
  length_writeU32 _

theorem length_video (video : VideoPacketHeader) :
    (videoPacketHeader.serialize video).length = 31 := by
  simp [videoPacketHeader]

/-- The headers of a control packet come off as they were put on. -/
theorem control_restored (type : PacketType) (payload : List UInt8) (hType : ∀ c, type ≠ .other c)
    (hReads : H.ReadsAs h back)
    (hSize : (H.serialize h).length + payload.length < 2 ^ 31) :
    ∃ packet rest, ((addHeader H h payload).bind fun packet =>
        addHeader networkPacketHeader type packet) = some packet ∧
      removeHeader networkPacketHeader packet = some (type, rest) ∧
      removeHeader H rest = some (back, payload) := by
  have hNetwork := networkPacketHeader_readsAs hType
  refine ⟨_, _, ?_, removeHeader_eq _ hNetwork, removeHeader_eq _ hReads⟩
  rw [addHeader_eq hReads (by omega), Option.bind_some]
  apply addHeader_eq hNetwork
  rw [length_network, List.length_append]
  omega

/-- The headers of a video packet come off as they were put on. -/
theorem video_restored (type : PacketType) (payload : List UInt8) (hType : ∀ c, type ≠ .other c)
    (hTime : FitsTime 1000000 video.encodeTime)
    (hReads : H.ReadsAs h back) (hSize : (H.serialize h).length + payload.length < 2 ^ 31) :
    ∃ packet rest rest', ((addHeader H h payload).bind fun packet =>
        (addHeader videoPacketHeader video packet).bind fun packet =>
          addHeader networkPacketHeader type packet) = some packet ∧
      removeHeader networkPacketHeader packet = some (type, rest) ∧
      removeHeader videoPacketHeader rest = some (video, rest') ∧
      removeHeader H rest' = some (back, payload) := by
  have hNetwork := networkPacketHeader_readsAs hType
  have hVideo := videoPacketHeader_readsAs hTime
  refine ⟨_, _, _, ?_, removeHeader_eq _ hNetwork, removeHeader_eq _ hVideo, removeHeader_eq _ hReads⟩
  rw [addHeader_eq hReads (by omega), Option.bind_some, addHeader_eq hVideo, Option.bind_some]
  · apply addHeader_eq hNetwork
    rw [length_network, List.length_append, length_video, List.length_append]
    omega
  · rw [length_video, List.length_append]
    omega

end

theorem exact_network {type : PacketType} (hType : ∀ c, type ≠ .other c) :
    networkPacketHeader.Exact type :=
  (networkPacketHeader_readsAs hType).exact

/-- The headers of a packet of a frame come off as they were put on. -/
theorem frame_restored (type : PacketType) {video : VideoPacketHeader} {payloadSize : UInt32}
    (frame : DataPacketHeader) (hType : ∀ c, type ≠ .other c)
    (hTime : FitsTime 1000000 video.encodeTime)
    (hPayload : payloadSize.toNat ≤ dataMaxPayloadSize.toNat) :
    ∃ packet rest rest', ((addHeader dataPacketHeader frame (create payloadSize)).bind fun packet =>
        (addHeader videoPacketHeader video packet).bind fun packet =>
          addHeader networkPacketHeader type packet) = some packet ∧
      removeHeader networkPacketHeader packet = some (type, rest) ∧
      removeHeader videoPacketHeader rest = some (video, rest') ∧
      removeHeader dataPacketHeader rest' = some (frame, create payloadSize) := by
  have hFrame := dataPacketHeader_readsAs frame
  have hLength : (create payloadSize).length ≤ 1406 := by
    rw [create, List.length_replicate]
    exact hPayload
  have hSize : (dataPacketHeader.serialize frame).length = 12 := hFrame.size.symm
  exact video_restored type (create payloadSize) hType hTime hFrame (by omega)

theorem roundTrips_data {video : VideoPacketHeader} {frame : DataPacketHeader} {payloadSize : UInt32}
    (hFits : (NetworkPacket.data video frame payloadSize).FitsWire) :
    (NetworkPacket.data video frame payloadSize).RoundTrips := by
  obtain ⟨hTime, hPayload⟩ := hFits
  obtain ⟨packet, rest, rest', hPacket, hNetwork, hVideo, hInner⟩ :=
    frame_restored .dataPkt frame (fun c => by simp) hTime hPayload
  refine ⟨⟨packet, .data video frame 0, hPacket, ?_, rfl⟩, exact_network (fun c => by simp),
    (videoPacketHeader_readsAs hTime).exact, (dataPacketHeader_readsAs frame).exact⟩
  simp only [toInstance, hNetwork, hVideo, hInner, Option.bind_eq_bind, Option.bind_some]

theorem roundTrips_dupFec {video : VideoPacketHeader} {frame : DataPacketHeader}
    {payloadSize : UInt32} (hFits : (NetworkPacket.dupFec video frame payloadSize).FitsWire) :
    (NetworkPacket.dupFec video frame payloadSize).RoundTrips := by
  obtain ⟨hTime, hPayload⟩ := hFits
  obtain ⟨packet, rest, rest', hPacket, hNetwork, hVideo, hInner⟩ :=
    frame_restored .dupFecPkt frame (fun c => by simp) hTime hPayload
  refine ⟨⟨packet, .dupFec video frame 0, hPacket, ?_, rfl⟩, exact_network (fun c => by simp),
    (videoPacketHeader_readsAs hTime).exact, (dataPacketHeader_readsAs frame).exact⟩
  simp only [toInstance, hNetwork, hVideo, hInner, Option.bind_eq_bind, Option.bind_some]

theorem fecHeaderLength_toNat {dataPkts : List DataPktDigest} (h : dataPkts.length < 2 ^ 16) :
    (fecHeaderLength dataPkts).toNat = 2 + dataPkts.length * 12 :=
  announced_size (by omega)

/-- What a list leaves for the payload, in 32 bits. -/
theorem fec_payload_length {dataPkts : List DataPktDigest} (h : dataPkts.length < 2 ^ 16) :
    (create (-fecHeaderLength dataPkts + videoMaxPayloadSize.toUInt32)).length =
      (2 ^ 32 - (2 + dataPkts.length * 12) + 1418) % 2 ^ 32 := by
  have hMax : videoMaxPayloadSize.toUInt32.toNat = 1418 := by decide
  rw [create, List.length_replicate, UInt32.toNat_add, UInt32.toNat_neg, fecHeaderLength_toNat h,
    hMax, Nat.mod_add_mod]
  rfl

theorem roundTrips_fec_iff {video : VideoPacketHeader} {dataPkts : List DataPktDigest}
    (hFits : (NetworkPacket.fec video dataPkts).FitsWire) :
    (NetworkPacket.fec video dataPkts).RoundTrips ↔
      (NetworkPacket.fec video dataPkts).SurvivesWire := by
  obtain ⟨hTime, hCount⟩ := hFits
  have hFec := fecPacketHeader_readsAs hCount
  have hSize : (fecPacketHeader.serialize dataPkts).length = dataPkts.length * 12 + 2 :=
    hFec.size.symm.trans (announced_size (by omega))
  have hPayload := fec_payload_length hCount
  have hMax : videoMaxPayloadSize.toNat = 1418 := by decide
  rw [SurvivesWire, fecHeaderLength_toNat hCount, hMax]
  constructor
  · intro hRound
    by_contra hLong
    obtain ⟨packet, back, hPacket, -, -⟩ := hRound.restored
    have hFull : ¬ (fecPacketHeader.getSerializedSize dataPkts).toNat +
        (create (-fecHeaderLength dataPkts + videoMaxPayloadSize.toUInt32)).length < 2 ^ 32 := by
      rw [hFec.size, hSize, hPayload]
      omega
    simp only [toNetPacket, addHeader, if_neg hFull, Option.bind_eq_bind, Option.bind_none] at hPacket
    cases hPacket
  · intro hShort
    obtain ⟨packet, rest, rest', hPacket, hNetwork, hVideo, hInner⟩ :=
      video_restored .fecPkt (create (-fecHeaderLength dataPkts + videoMaxPayloadSize.toUInt32))
        (fun c => by simp) hTime hFec (by rw [hSize, hPayload]; omega)
    refine ⟨⟨packet, .fec video dataPkts, hPacket, ?_, rfl⟩, exact_network (fun c => by simp),
      (videoPacketHeader_readsAs hTime).exact, hFec.exact⟩
    simp only [toInstance, hNetwork, hVideo, hInner, Option.bind_eq_bind, Option.bind_some]

theorem roundTrips_ack {h : AckPacketHeader} (hFits : (NetworkPacket.ack h).FitsWire) :
    (NetworkPacket.ack h).RoundTrips := by
  have hCount : h.pktInfos.length < 2 ^ 16 := hFits
  have hAck := ackPacketHeader_readsAs hCount
  have hSize : (ackPacketHeader.serialize h).length = 4 + h.pktInfos.length * 6 + 2 :=
    hAck.size.symm.trans (announced_size (by omega))
  obtain ⟨packet, rest, hPacket, hNetwork, hInner⟩ := control_restored .ackPkt (create 0)
    (fun c => by simp) hAck (by rw [hSize]; simp [create]; omega)
  refine ⟨⟨packet, .ack h, hPacket, ?_, rfl⟩, exact_network (fun c => by simp), hAck.exact⟩
  simp only [toInstance, hNetwork, hInner, Option.bind_eq_bind, Option.bind_some]

theorem roundTrips_frameAck {h : FrameAckPacketHeader} (hFits : (NetworkPacket.frameAck h).FitsWire) :
    (NetworkPacket.frameAck h).RoundTrips := by
  have hAck := frameAckPacketHeader_readsAs hFits
  have hSize : (frameAckPacketHeader.serialize h).length = 12 := hAck.size.symm
  obtain ⟨packet, rest, hPacket, hNetwork, hInner⟩ := control_restored .frameAckPkt (create 0)
    (fun c => by simp) hAck (by rw [hSize]; simp [create])
  refine ⟨⟨packet, .frameAck h, hPacket, ?_, rfl⟩, exact_network (fun c => by simp), hAck.exact⟩
  simp only [toInstance, hNetwork, hInner, Option.bind_eq_bind, Option.bind_some]

theorem roundTrips_netState_iff {h : NetStates} (hFits : (NetworkPacket.netState h).FitsWire) :
    (NetworkPacket.netState h).RoundTrips ↔ (NetworkPacket.netState h).SurvivesWire := by
  obtain ⟨hEntries, k, hK, hRate⟩ := hFits
  have hState := netStatePacketHeader_readsAs hEntries
  have hLoss := hEntries.lossSeq
  have hHist := hEntries.recvtimeHist
  have hSize : (netStatePacketHeader.serialize h).length =
      12 + 4 * h.lossSeq.length + 8 * h.recvtimeHist.length :=
    hState.size.symm.trans (announced_size (by omega))
  obtain ⟨packet, rest, hPacket, hNetwork, hInner⟩ := control_restored .netStatePkt (create 0)
    (fun c => by simp) hState (by rw [hSize]; simp [create]; omega)
  have hBack : toInstance packet =
      some (some (.netState { h with lossRate := ofWireLossRate (wireLossRate h.lossRate) })) := by
    simp only [toInstance, hNetwork, hInner, Option.bind_eq_bind, Option.bind_some]
  have hRestored := lossRate_restored_iff hK
  rw [← hRate] at hRestored
  constructor
  · intro hRound j hJ hRateJ
    have hSame : j = k := by
      rcases Nat.lt_trichotomy j k with hLt | hEq | hGt
      · exact absurd (hRateJ.symm.trans hRate) (rate_strictMono hLt hK).ne
      · exact hEq
      · exact absurd (hRate.symm.trans hRateJ) (rate_strictMono hGt hJ).ne
    obtain ⟨packet', back, hPacket', hBack', hFields⟩ := hRound.restored
    have hPackets : packet = packet' := Option.some.inj (hPacket.symm.trans hPacket')
    rw [← hPackets, hBack, Option.some.injEq, Option.some.injEq] at hBack'
    rw [← hBack'] at hFields
    rw [hSame]
    apply hRestored.mp
    exact congrArg NetStates.lossRate (NetworkPacket.netState.inj hFields)
  · intro hUp
    have hLossRate := hRestored.mpr (hUp k hK hRate)
    refine ⟨⟨packet, _, hPacket, hBack, ?_⟩, exact_network (fun c => by simp), hState.exact⟩
    rw [hLossRate]

/-- A packet whose values fit the wire comes back exactly when it survives it. -/
theorem roundTrips_iff (p : NetworkPacket) (hFits : p.FitsWire) : p.RoundTrips ↔ p.SurvivesWire := by
  cases p with
  | data video frame payloadSize => exact iff_of_true (roundTrips_data hFits) trivial
  | dupFec video frame payloadSize => exact iff_of_true (roundTrips_dupFec hFits) trivial
  | fec video dataPkts => exact roundTrips_fec_iff hFits
  | ack h => exact iff_of_true (roundTrips_ack hFits) trivial
  | frameAck h => exact iff_of_true (roundTrips_frameAck hFits) trivial
  | netState h => exact roundTrips_netState_iff hFits

/-- A FEC packet of two data packets. -/
theorem roundTrips_two_digests :
    (NetworkPacket.fec ⟨milliSeconds 40, 7, 1, 2, 1, 2, 1, 2, 1, 2, 0⟩
      [⟨0, 0, 5, 2, 0⟩, ⟨1, 1, 5, 2, 1⟩]).RoundTrips := by
  apply (roundTrips_iff _ _).mpr
  · change (fecHeaderLength _).toNat ≤ videoMaxPayloadSize.toNat
    decide
  · exact ⟨⟨⟨40, rfl⟩, by decide, by decide⟩, by decide⟩

/-- The network state of a loss rate of `k` ten-thousandths. -/
def lossState (k : ℕ) : NetStates where
  lossRate := Binary64.div k 10000
  throughputKbps := 30000
  fecGroupDelayUs := 100
  lossSeq := [3, -1]
  recvtimeHist := [⟨9, 1000⟩]

theorem not_restored_three : ¬ ∀ p : NetworkPacket, p.FitsWire → p.RoundTrips := by
  intro hAll
  have hFits : (NetworkPacket.netState (lossState 3)).FitsWire := by
    refine ⟨⟨by decide, ?_, by decide⟩, 3, by decide, rfl⟩
    intro loss hLoss
    simp only [lossState, List.mem_cons, List.not_mem_nil, or_false] at hLoss
    rcases hLoss with rfl | rfl <;> decide
  have hUp := (roundTrips_netState_iff hFits).mp (hAll _ hFits) 3 (by decide) rfl
  have hRate : Binary64.div (3 : ℕ) 10000 = 5534023222112865 * 2 ^ (-64 : ℤ) := by
    exact_mod_cast Binary64.round_eq (x := (3 : ℕ) / 10000) (e := -64) (n := 5534023222112865)
      (by norm_num) (by norm_num) (by norm_num [abs_lt])
  have hProduct : Binary64.mul (Binary64.div (3 : ℕ) 10000) 10000 =
      6755399441055743 * 2 ^ (-51 : ℤ) := by
    rw [hRate]
    exact_mod_cast Binary64.round_eq (x := 5534023222112865 * 2 ^ (-64 : ℤ) * 10000) (e := -51)
      (n := 6755399441055743) (by norm_num) (by norm_num) (by norm_num [abs_lt])
  change ((3 : ℕ) : ℚ) ≤ Binary64.mul (Binary64.div (3 : ℕ) 10000) 10000 at hUp
  rw [hProduct] at hUp
  norm_num at hUp

end NetworkPacket
end Bullet.Stream
