import Bullet.Stream.HeaderFormat

/-! # Packets on the wire

How the application's packets become packets of the network and are rebuilt from them. A packet that
outgrows the 32-bit offsets of its buffer fails the bounds assertion of a write.
-/

namespace Bullet.Stream

open Lib Lib.Wire

section

variable {α : Type}

/-- Room for the announced size is made in front, and the header is written there. -/
def addHeader (H : Header α) (h : α) (packet : List UInt8) : Option (List UInt8) :=
  let size := (H.getSerializedSize h).toNat
  if size + packet.length < 2 ^ 32 then
    let written := H.serialize h
    some (written ++ (List.replicate size 0 ++ packet).drop written.length)
  else none

/-- As many bytes are removed as the header says it has read. -/
def removeHeader (H : Header α) (packet : List UInt8) : Option (α × List UInt8) := do
  let ((h, size), _) ← H.deserialize packet
  some (h, packet.drop size.toNat)

variable {H : Header α} {h back : α}

theorem addHeader_of_size {packet : List UInt8}
    (hAnnounced : (H.getSerializedSize h).toNat = (H.serialize h).length)
    (hSize : (H.serialize h).length + packet.length < 2 ^ 32) :
    addHeader H h packet = some (H.serialize h ++ packet) := by
  have hRoom : (List.replicate (H.serialize h).length 0 ++ packet).drop (H.serialize h).length =
      packet := by
    rw [List.drop_append_of_le_length (by simp), List.drop_of_length_le (by simp), List.nil_append]
  simp only [addHeader, hAnnounced, if_pos hSize, hRoom]

theorem addHeader_eq {packet : List UInt8} (hReads : H.ReadsAs h back)
    (hSize : (H.serialize h).length + packet.length < 2 ^ 32) :
    addHeader H h packet = some (H.serialize h ++ packet) :=
  addHeader_of_size hReads.size hSize

theorem removeHeader_eq (packet : List UInt8) (hReads : H.ReadsAs h back) :
    removeHeader H (H.serialize h ++ packet) = some (back, packet) := by
  have hDrop : (H.serialize h ++ packet).drop (H.getSerializedSize h).toNat = packet := by
    rw [hReads.size, List.drop_append_of_le_length (by simp), List.drop_of_length_le (by simp),
      List.nil_append]
  rw [removeHeader, hReads.reads]
  exact congrArg (fun l => some (back, l)) hDrop

/-- A header writes what it announces, and a fresh one reads exactly that. -/
structure Header.Exact (H : Header α) (h : α) : Prop where
  size : (H.getSerializedSize h).toNat = (H.serialize h).length
  consumed : ∃ back size, Reads H.deserialize (H.serialize h) (back, size) ∧
    size.toNat = (H.serialize h).length

theorem Header.ReadsAs.exact (hReads : H.ReadsAs h back) : H.Exact h :=
  ⟨hReads.size, back, _, hReads.reads, hReads.size⟩

end

/-- The instances of `NetworkPacket`, with their headers. -/
inductive NetworkPacket where
  | data (video : VideoPacketHeader) (frame : DataPacketHeader) (payloadSize : UInt32)
  | dupFec (video : VideoPacketHeader) (frame : DataPacketHeader) (payloadSize : UInt32)
  | fec (video : VideoPacketHeader) (dataPkts : List DataPktDigest)
  | ack (h : AckPacketHeader)
  | frameAck (h : FrameAckPacketHeader)
  | netState (h : NetStates)
deriving DecidableEq, Repr

namespace NetworkPacket

def maxPacketSize : UInt16 := 1460

/-- `VideoPacket::GetMaxPayloadSize`. -/
def videoMaxPayloadSize : UInt16 := maxPacketSize - 42

/-- `DataPacket::GetMaxPayloadSize`. -/
def dataMaxPayloadSize : UInt16 := videoMaxPayloadSize - 12

/-- `FECPacket::GetHeaderLength`. -/
def fecHeaderLength (dataPkts : List DataPktDigest) : UInt32 :=
  UInt32.ofNat (2 + dataPkts.length * (2 + 2 + 4 + 2 + 2))

/-- `Create<Packet>`: a payload of zeros. -/
def create (size : UInt32) : List UInt8 := List.replicate size.toNat 0

def toNetPacket : NetworkPacket → Option (List UInt8)
  | .data video frame payloadSize => do
    let packet ← addHeader dataPacketHeader frame (create payloadSize)
    let packet ← addHeader videoPacketHeader video packet
    addHeader networkPacketHeader .dataPkt packet
  | .dupFec video frame payloadSize => do
    let packet ← addHeader dataPacketHeader frame (create payloadSize)
    let packet ← addHeader videoPacketHeader video packet
    addHeader networkPacketHeader .dupFecPkt packet
  | .fec video dataPkts => do
    let packet ← addHeader fecPacketHeader dataPkts
      (create (-fecHeaderLength dataPkts + videoMaxPayloadSize.toUInt32))
    let packet ← addHeader videoPacketHeader video packet
    addHeader networkPacketHeader .fecPkt packet
  | .ack h => do
    let packet ← addHeader ackPacketHeader h (create 0)
    addHeader networkPacketHeader .ackPkt packet
  | .frameAck h => do
    let packet ← addHeader frameAckPacketHeader h (create 0)
    addHeader networkPacketHeader .frameAckPkt packet
  | .netState h => do
    let packet ← addHeader netStatePacketHeader h (create 0)
    addHeader networkPacketHeader .netStatePkt packet

/-- A type without a class gives a null pointer. A rebuilt packet has no payload. -/
def toInstance (packet : List UInt8) : Option (Option NetworkPacket) := do
  let (type, packet) ← removeHeader networkPacketHeader packet
  match type with
  | .dataPkt =>
    let (video, packet) ← removeHeader videoPacketHeader packet
    let (frame, _) ← removeHeader dataPacketHeader packet
    some (some (.data video frame 0))
  | .dupFecPkt =>
    let (video, packet) ← removeHeader videoPacketHeader packet
    let (frame, _) ← removeHeader dataPacketHeader packet
    some (some (.dupFec video frame 0))
  | .fecPkt =>
    let (video, packet) ← removeHeader videoPacketHeader packet
    let (dataPkts, _) ← removeHeader fecPacketHeader packet
    some (some (.fec video dataPkts))
  | .ackPkt =>
    let (h, _) ← removeHeader ackPacketHeader packet
    some (some (.ack h))
  | .frameAckPkt =>
    let (h, _) ← removeHeader frameAckPacketHeader packet
    some (some (.frameAck h))
  | .netStatePkt =>
    let (h, _) ← removeHeader netStatePacketHeader packet
    some (some (.netState h))
  | .rtxReqPkt => some none
  | .other _ => some none

/-- The packet without its payload, whose size is in no header. -/
def serialised : NetworkPacket → NetworkPacket
  | .data video frame _ => .data video frame 0
  | .dupFec video frame _ => .dupFec video frame 0
  | p => p

/-- The values that the wire fields hold. -/
def FitsWire : NetworkPacket → Prop
  | .data video _ payloadSize => FitsTime 1000000 video.encodeTime ∧
      payloadSize.toNat ≤ dataMaxPayloadSize.toNat
  | .dupFec video _ payloadSize => FitsTime 1000000 video.encodeTime ∧
      payloadSize.toNat ≤ dataMaxPayloadSize.toNat
  | .fec video dataPkts => FitsTime 1000000 video.encodeTime ∧ dataPkts.length < 2 ^ 16
  | .ack h => h.pktInfos.length < 2 ^ 16
  | .frameAck h => FitsTime 1000 h.frameEncodeTime
  | .netState h => h.Fits ∧ ∃ k : ℕ, k < 2 ^ 16 ∧ h.lossRate = Binary64.div k 10000

def HeadersExact : NetworkPacket → Prop
  | .data video frame _ => networkPacketHeader.Exact .dataPkt ∧ videoPacketHeader.Exact video ∧
      dataPacketHeader.Exact frame
  | .dupFec video frame _ => networkPacketHeader.Exact .dupFecPkt ∧ videoPacketHeader.Exact video ∧
      dataPacketHeader.Exact frame
  | .fec video dataPkts => networkPacketHeader.Exact .fecPkt ∧ videoPacketHeader.Exact video ∧
      fecPacketHeader.Exact dataPkts
  | .ack h => networkPacketHeader.Exact .ackPkt ∧ ackPacketHeader.Exact h
  | .frameAck h => networkPacketHeader.Exact .frameAckPkt ∧ frameAckPacketHeader.Exact h
  | .netState h => networkPacketHeader.Exact .netStatePkt ∧ netStatePacketHeader.Exact h

/-- Every serialised field comes back, and each header is as long as it says. -/
structure RoundTrips (p : NetworkPacket) : Prop where
  restored : ∃ packet back, p.toNetPacket = some packet ∧ toInstance packet = some (some back) ∧
    back.serialised = p.serialised
  exact : p.HeadersExact

/-- The list of a FEC packet leaves its payload a size, and the double product of a loss rate of `k`
ten-thousandths does not fall below `k`. -/
def SurvivesWire : NetworkPacket → Prop
  | .fec _ dataPkts => (fecHeaderLength dataPkts).toNat ≤ videoMaxPayloadSize.toNat
  | .netState h => ∀ k : ℕ, k < 2 ^ 16 → h.lossRate = Binary64.div k 10000 →
      (k : ℚ) ≤ Binary64.mul h.lossRate 10000
  | _ => True

end NetworkPacket
end Bullet.Stream
