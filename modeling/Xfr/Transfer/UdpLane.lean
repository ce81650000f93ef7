import Xfr.Budget.Datagrams
import Xfr.Library.Interleaving
import Xfr.Udp.TailDrain

-- A stream of datagrams with both of its ends. On the wire is everything which was sent, by its
-- sequence number. What has arrived is only a record, first during the test and then after it.
structure UdpLane where
  source        : UdpSendLoop
  packet        : Bytes
  wire          : List Bytes
  singlePortAck : Option Bytes
  sink          : UdpReceive
  draining      : Bool
  arrivals      : List Nat
  late          : List Nat

inductive UdpLaneEvent
  | send (e : UdpSendEvent)
  | transmit (timestampUs : UInt64)
  -- The network loses, delays, reorders and duplicates what is on the wire.
  | arrive (sequence : Nat)
  -- A datagram of another lane, which shares the socket.
  | stray (datagram : Bytes)
  -- The test is cancelled, or there was nothing to receive for too long.
  | stop

-- A stream of a test. The payload is zero or random, and the same in all of its packets.
structure UdpLaneConfig where
  packetSize    : PayloadSize
  targetBitrate : UInt64
  finite        : Bool
  packet        : Vector UInt8 packetSize.bytes
  singlePortAck : Option Bytes

def UdpLaneConfig.start (config : UdpLaneConfig) : UdpLane where
  source        := .start config.packetSize config.targetBitrate config.finite
  packet        := config.packet.toList
  wire          := []
  singlePortAck := config.singlePortAck
  sink          := .new
  draining      := false
  arrivals      := []
  late          := []

namespace UdpLane

variable (l : UdpLane)

def header (timestampUs : UInt64) : UdpPacketHeader where
  sequence    := UInt64.ofNat l.source.datagrams.length
  timestampUs := timestampUs

def transmit (budget : Option ByteBudget) (timestampUs : UInt64) :
    Option (Option ByteBudget × UdpLane) :=
  match l.source.point, (l.header timestampUs).encode l.packet with
  | .sending _ sendLen, .ok (_, packet) => do
    let (budget, source) ← l.source.stepWithin budget .sent
    return (budget, { l with source, packet, wire := l.wire ++ [packet.take sendLen] })
  | _,                  _               => none

-- After the test the socket is only read while packets are missing.
def receive (datagram : Bytes) : UdpReceive :=
  if l.draining then l.sink.drain datagram else (l.sink.receive l.singlePortAck datagram).2

def arrive (sequence : Nat) : Option UdpLane := do
  let datagram ← l.wire[sequence]?
  return { l with
    sink     := l.receive datagram
    arrivals := if l.draining then l.arrivals else l.arrivals ++ [sequence]
    late     := if l.draining then l.late ++ [sequence] else l.late }

def step : System (Option ByteBudget × UdpLane) UdpLaneEvent
  | (b, l), .send e               =>
    if e = .sent then none else (l.source.stepWithin b e).map fun (b, source) => (b, { l with source })
  | (b, l), .transmit timestampUs => l.transmit b timestampUs
  | (b, l), .arrive sequence      => (l.arrive sequence).map (b, ·)
  | (b, l), .stray datagram       =>
    if isDiverted datagram then some (b, { l with sink := l.receive datagram }) else none
  | (b, l), .stop                 => some (b, { l with draining := true })

end UdpLane
