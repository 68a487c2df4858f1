import Bullet.Lib.PartialRun
import Bullet.Stream.NetworkPacket

/-! # Frames over TCP

The sender writes each frame to its socket as a header and as many bytes as the header says. The
receiver is called when bytes have arrived and takes what it can of one frame. `none` is a null
pointer that is used or an assertion that fails.
-/

namespace Bullet.Stream

open Lib Lib.Wire

/-! ## The sender -/

/-- A data packet that carries a whole frame. -/
structure TcpFrame where
  header : DataPacketHeader
  payloadSize : UInt32
deriving DecidableEq, Repr

def TcpFrame.toTcpSendPacket (f : TcpFrame) : Option (List UInt8) :=
  addHeader dataPacketHeader f.header (NetworkPacket.create f.payloadSize)

/-- `stream` is what the socket has accepted, and `sent` the frames in it. -/
structure PacketSenderTcp where
  queue : List TcpFrame := []
  stream : List UInt8 := []
  sent : List DataPacketHeader := []
deriving DecidableEq, Repr

/-- The socket's answer to a packet is positive exactly when it accepts the packet. -/
inductive TcpSenderEvent where
  | createFrame (frameId : UInt32) (pktId : UInt16) (dataSize : UInt32)
  | sendPacket (connected : Bool) (sendif : Int)
deriving DecidableEq, Repr

namespace PacketSenderTcp

def createFrame (s : PacketSenderTcp) (frameId : UInt32) (pktId : UInt16) (dataSize : UInt32) :
    PacketSenderTcp :=
  { s with queue := s.queue ++ [⟨⟨frameId, dataSize, 1, pktId⟩, dataSize⟩] }

def sendPacket (s : PacketSenderTcp) (connected : Bool) (sendif : Int) : Option PacketSenderTcp :=
  match s.queue with
  | [] => some s
  | frame :: queue => do
    let pktToSend ← frame.toTcpSendPacket
    if connected ∧ 0 < sendif then
      some { queue := queue, stream := s.stream ++ pktToSend, sent := s.sent ++ [frame.header] }
    else some s

def step (s : PacketSenderTcp) : TcpSenderEvent → Option PacketSenderTcp
  | .createFrame frameId pktId dataSize => some (s.createFrame frameId pktId dataSize)
  | .sendPacket connected sendif => s.sendPacket connected sendif

end PacketSenderTcp

/-! ## The receiver -/

/-- Up to `maxSize` of the bytes that have arrived; a null pointer when there are none. -/
def recv (buffer : List UInt8) (maxSize : UInt32) : Option (List UInt8 × List UInt8) :=
  let pkt := buffer.take maxSize.toNat
  if pkt = [] then none else some (pkt, buffer.drop maxSize.toNat)

/-- `buffer` holds the bytes that have arrived and are not read, and `decoded` the frames that the
decoder has been given. -/
structure PacketReceiverTcp where
  recvPktStart : Bool := true
  bytesToRecv : UInt32 := 0
  curHdr : DataPacketHeader := ⟨0, 0, 0, 0⟩
  buffer : List UInt8 := []
  decoded : List DataPacketHeader := []
deriving DecidableEq, Repr

namespace PacketReceiverTcp

/-- The end of the callback. -/
def decode (r : PacketReceiverTcp) : PacketReceiverTcp :=
  if r.recvPktStart then { r with decoded := r.decoded ++ [r.curHdr] } else r

def onSocketRecv (r : PacketReceiverTcp) : Option PacketReceiverTcp :=
  if r.recvPktStart then do
    let (pkt, buffer) ← recv r.buffer 12
    let (curHdr, _) ← removeHeader dataPacketHeader pkt
    let frameSize := curHdr.frameSize
    let (pktPayload, buffer) ← recv buffer frameSize
    if pktPayload.length < frameSize.toNat then
      some (decode { r with
        recvPktStart := false
        bytesToRecv := frameSize - UInt32.ofNat pktPayload.length
        curHdr := curHdr
        buffer := buffer })
    else some (decode { r with curHdr := curHdr, buffer := buffer })
  else do
    let (pktPayload, buffer) ← recv r.buffer r.bytesToRecv
    if pktPayload.length < r.bytesToRecv.toNat then
      some (decode { r with
        bytesToRecv := r.bytesToRecv - UInt32.ofNat pktPayload.length
        buffer := buffer })
    else some (decode { r with recvPktStart := true, bytesToRecv := 0, buffer := buffer })

/-- Bytes arrive, and the socket calls the receiver. -/
def receive (r : PacketReceiverTcp) (segment : List UInt8) : Option PacketReceiverTcp :=
  onSocketRecv { r with buffer := r.buffer ++ segment }

end PacketReceiverTcp

/-! ## Callbacks that suffice -/

/-- The callbacks fall into one group for each frame, in order. The first callback of a group finds
at least the header and one byte of its frame, and the last is the first by which all of the frame
has arrived. `unread` bytes have arrived before, and each callback brings the listed number. -/
inductive InTurn : List ℕ → ℕ → List ℕ → Prop
  | done : InTurn [] 0 []
  | frame {size : ℕ} {sizes : List ℕ} {unread first : ℕ} {more rest : List ℕ} (hSize : 0 < size)
      (hFirst : 13 ≤ unread + first)
      (hPartial : ∀ i < more.length, unread + first + (more.take i).sum < 12 + size)
      (hWhole : 12 + size ≤ unread + first + more.sum)
      (hRest : InTurn sizes (unread + first + more.sum - (12 + size)) rest) :
      InTurn (size :: sizes) unread (first :: more ++ rest)

end Bullet.Stream
