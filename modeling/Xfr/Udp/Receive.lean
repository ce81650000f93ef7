import Xfr.Udp.Packet

-- What a decoder accepts. It fails on no datagram.
def accepted {π : Type} (decode : Bytes → Checked (Option π)) (datagram : Bytes) : Option π :=
  match decode datagram with
  | .ok p    => p
  | .error _ => none

theorem Reads.accepted_eq_some_iff {π : Type} {decode : Bytes → Checked (Option π)}
    {Looks : π → Bytes → Prop} {p : π} {datagram : Bytes} (r : Reads decode Looks) :
    accepted decode datagram = some p ↔ Looks p datagram := by
  have ⟨read, h⟩ := r.total datagram
  rw [← r.eq_some_iff, accepted, h, Except.ok.injEq]

def isFeedback (datagram : Bytes) : Bool :=
  datagram.length = UDP_FEEDBACK_SIZE ∧ datagram.take 4 = UDP_FEEDBACK_MAGIC

def isHello (datagram : Bytes) : Bool :=
  datagram.length = UDP_HELLO_SIZE ∧ datagram.take 4 = UDP_HELLO_MAGIC

-- What the receiver of a stream accounts for. The calculator of the jitter is given the timestamps.
structure UdpReceive where
  bytesReceived : Nat
  packetSize    : Option Nat
  receiver      : Receiver
  timestamps    : List UInt64

namespace UdpReceive

def new : UdpReceive where
  bytesReceived := 0
  packetSize    := none
  receiver      := .new
  timestamps    := []

def addBytesReceived (s : UdpReceive) (n : Nat) : UdpReceive :=
  { s with bytesReceived := U64.wrappingAdd s.bytesReceived n }

def seePacketSize (s : UdpReceive) (n : Nat) : UdpReceive :=
  { s with packetSize := some (max (s.packetSize.getD 0) n) }

-- The timestamp of a packet only counts if the tracker accepts its sequence number.
def record (s : UdpReceive) (call : Call) (timestampUs : UInt64) : UdpReceive where
  __ := s
  receiver   := s.receiver.record call
  timestamps :=
    if (s.receiver.tracker.record call).1 then s.timestamps ++ [timestampUs] else s.timestamps

-- A datagram during the test. Where a server has an acknowledgement for the stream, it is sent again
-- to answer a hello.
def receive (singlePortAck : Option Bytes) (s : UdpReceive) (datagram : Bytes) :
    Option Bytes × UdpReceive :=
  if isFeedback datagram then
    (none, s)
  else if isHello datagram then
    let answered := (accepted UdpHelloPacket.decode datagram).any (·.kind = UDP_HELLO_KIND_HELLO)
    (if answered then singlePortAck else none, s)
  else
    let s := s.addBytesReceived datagram.length
    match accepted UdpPacketHeader.decode datagram with
    | none        => (none, s)
    | some header =>
      (none, (s.seePacketSize datagram.length).record (.recordUnique header.sequence)
        header.timestampUs)

-- A datagram after the test, while some are missing. Only what the tracker accepts is counted.
def drain (s : UdpReceive) (datagram : Bytes) : UdpReceive :=
  if s.receiver.tracker.lost = 0 then s
  else
    match accepted UdpPacketHeader.decode datagram with
    | none        => s
    | some header =>
      let call := Call.recordStraggler header.sequence
      if (s.receiver.tracker.record call).1 then
        ((s.addBytesReceived datagram.length).seePacketSize datagram.length).record call
          header.timestampUs
      else
        s.record call header.timestampUs

-- A whole test with the window after it.
def run (singlePortAck : Option Bytes) (live tail : List Bytes) : UdpReceive :=
  tail.foldl drain <| live.foldl (fun s datagram => (s.receive singlePortAck datagram).2) new

end UdpReceive

def UDP_PAYLOAD_SIZE : Nat := 1400

-- A client which only sends reads nothing but feedback. Longer datagrams are cut off.
def receiveUdpFeedbackOnly (streamIndex : Nat) (slots : List UdpIntervalProgress)
    (datagram : Bytes) : List UdpIntervalProgress :=
  let buffer := datagram.take (UDP_PAYLOAD_SIZE + 100)
  if buffer.length ≠ UDP_FEEDBACK_SIZE then slots
  else
    match accepted UdpFeedbackPacket.decode buffer with
    | none     => slots
    | some pkt => (storeUdpFeedback slots streamIndex pkt).2

-- A server which only sends answers nothing but hellos.
def respondSinglePortHellos (ack datagram : Bytes) : Option Bytes :=
  let buffer := datagram.take (UDP_PAYLOAD_SIZE + 100)
  if (accepted UdpHelloPacket.decode buffer).any (·.kind = UDP_HELLO_KIND_HELLO) then some ack
  else none

-- Datagrams on the socket which all tests and QUIC share.
inductive SharedSocketLane
  | xfrHello
  | quic
  | xfrStray
  deriving DecidableEq

def classifySharedDatagram (datagram : Bytes) : SharedSocketLane :=
  if isHello datagram then .xfrHello
  else
    match datagram.head? with
    | some b => if b &&& 0x80 ≠ 0 then .quic else if b &&& 0x40 ≠ 0 then .quic else .xfrStray
    | none   => .xfrStray

-- What a client makes of the next datagram while it waits for an acknowledgement: hellos are taken
-- off the socket, and anything else is left there since the server has begun to send.
inductive Peeked
  | acknowledged
  | foreign
  | data
  deriving DecidableEq

def peek (token : TokenBytes) (streamIndex : UInt16) (datagram : Bytes) : Peeked :=
  if isHello datagram then
    let matched := (accepted UdpHelloPacket.decode datagram).any fun pkt =>
      pkt.kind = UDP_HELLO_KIND_ACK ∧ pkt.token = token ∧ pkt.streamIndex = streamIndex
    if matched then .acknowledged else .foreign
  else .data

namespace Peeked

def consumes : Peeked → Bool
  | acknowledged | foreign => true
  | data                   => false

def completes : Peeked → Bool
  | acknowledged | data => true
  | foreign             => false

end Peeked
