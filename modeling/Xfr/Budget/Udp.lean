import Xfr.Budget.Conservation

abbrev UDP_HEADER_SIZE : Nat := 16

abbrev MAX_UDP_PAYLOAD_SIZE : Nat := 65507

-- The size of a datagram, with the header of sequence number and timestamp.
structure PayloadSize where
  bytes     : Nat
  header_le : UDP_HEADER_SIZE ≤ bytes
  le_max    : bytes ≤ MAX_UDP_PAYLOAD_SIZE

def validatePayloadSize (size : Nat) : Except String PayloadSize :=
  if h : UDP_HEADER_SIZE ≤ size ∧ size ≤ MAX_UDP_PAYLOAD_SIZE then
    .ok ⟨size, h.left, h.right⟩
  else
    .error "UDP payload size must be between 16 and 65507 bytes"

def MAX_PACING_TICKS_PER_SEC : Nat := 10000

def MAX_PACED_PACKETS_PER_TICK : Nat := 1024

def UNLIMITED_BURST_PACKETS : Nat := 100

structure PacingSchedule where
  intervalNanos  : Nat
  packetsPerTick : Nat

-- A smooth schedule with a capped number of wakes: fast streams send a batch of packets per tick.
def pacingSchedule (targetBitrate packetSize : Nat) : PacingSchedule :=
  let bitsPerPacket  := U64.saturatingMul packetSize 8
  let bitratePerTick := U64.saturatingMul bitsPerPacket MAX_PACING_TICKS_PER_SEC
  let packetsPerTick :=
    max 1 (min (U64.divCeil targetBitrate bitratePerTick) MAX_PACED_PACKETS_PER_TICK)
  let nanos := min (min (packetsPerTick * bitsPerPacket) (2 ^ 128 - 1) * 1000000000) (2 ^ 128 - 1)
  {
    -- Rounding up never makes the sender faster than requested.
    intervalNanos  := max 1 (min (U64.divCeil nanos targetBitrate) U64.max)
    packetsPerTick := packetsPerTick
  }

-- Where a send loop is in its code. In a burst it has the given number of rounds left.
inductive UdpSendPoint
  | head
  | ticking
  | ready
  | burst      (left : Nat)
  | claiming   (left : Nat)
  | attempting (left current : Nat)
  | sending    (left sendLen : Nat)
  | refunding  (left sendLen : Nat)
  | spent      (leftover : Nat)
  | interrupted
  deriving DecidableEq

-- A send loop, what it has put on the wire, and how often it went to the budget for a datagram. A
-- target bitrate of zero means unlimited.
structure UdpSendLoop where
  packetSize    : PayloadSize
  targetBitrate : UInt64
  finite        : Bool
  datagrams     : List Nat
  errors        : Nat
  claims        : Nat
  point         : UdpSendPoint

inductive UdpSendEvent
  -- At the head of the loop. A pause may also end by a cancel.
  | cancel
  | resume
  | proceed
  -- The select of a paced loop, and what follows it.
  | cancelChanged (cancelled : Bool)
  | pauseChanged
  | tick
  | expire
  | start
  -- A round of the burst. It is left early when the test is cancelled, paused or over.
  | leave
  | claim
  | load
  | attempt (spurious : Bool)
  | sent
  | failed
  | refund
  deriving DecidableEq

namespace UdpSendLoop

def start (packetSize : PayloadSize) (targetBitrate : UInt64) (finite : Bool) : UdpSendLoop where
  packetSize    := packetSize
  targetBitrate := targetBitrate
  finite        := finite
  datagrams     := []
  errors        := 0
  claims        := 0
  point         := .head

def sendUdpPaced (targetBitrate : UInt64) (packetSize : Nat) (finite : Bool) :
    Except String UdpSendLoop :=
  (validatePayloadSize packetSize).map (start · targetBitrate finite)

-- The packet sizes for which a loop starts are the valid ones.
theorem sendUdpPaced_eq_ok_iff {targetBitrate : UInt64} {packetSize : Nat} {finite : Bool}
    {l : UdpSendLoop} : sendUdpPaced targetBitrate packetSize finite = .ok l ↔
      ∃ p : PayloadSize, p.bytes = packetSize ∧ start p targetBitrate finite = l := by
  unfold sendUdpPaced validatePayloadSize
  split
  case isTrue h =>
    constructor
    case mp  => exact fun hl => ⟨_, rfl, Except.ok.inj hl⟩
    case mpr => rintro ⟨p, rfl, rfl⟩; rfl
  case isFalse h =>
    refine iff_of_false (by simp [Except.map]) ?_
    rintro ⟨p, rfl, _⟩
    exact h ⟨p.header_le, p.le_max⟩

def goto (l : UdpSendLoop) (point : UdpSendPoint) : UdpSendLoop :=
  { l with point }

def bytesSent (l : UdpSendLoop) : Nat :=
  l.datagrams.sum

def burstLen (l : UdpSendLoop) : Nat :=
  if l.targetBitrate = 0 then
    UNLIMITED_BURST_PACKETS
  else
    (pacingSchedule l.targetBitrate.toNat l.packetSize.bytes).packetsPerTick

-- Without room for a header the budget counts as spent, and the leftover is dropped rather than
-- refunded.
def claimed (l : UdpSendLoop) (left n : Nat) : UdpSendLoop :=
  l.goto (if n ≥ UDP_HEADER_SIZE then .sending left n else .spent n)

def step : System (ByteBudget × UdpSendLoop) UdpSendEvent
  | (b, l), e =>
    match l.point, e with
    | .head,                    .cancel          => some (b, l.goto .interrupted)
    | .head,                    .resume          => some (b, l)
    | .head,                    .proceed         =>
      some (b, l.goto (if l.targetBitrate = 0 then .ready else .ticking))
    | .ticking,                 .cancelChanged c =>
      some (b, l.goto (if c then .interrupted else .head))
    | .ticking,                 .pauseChanged    => some (b, l.goto .head)
    | .ticking,                 .tick            => some (b, l.goto .ready)
    | .ready,                   .expire          =>
      if l.finite then some (b, l.goto .interrupted) else none
    | .ready,                   .start           => some (b, l.goto (.burst l.burstLen))
    | .burst _,                 .leave           => some (b, l.goto .head)
    | .burst (left + 1),        .claim           => some (b, l.goto (.claiming left))
    | .claiming left,           .load            =>
      some (b, { l with claims := l.claims + 1 }.goto (.attempting left b.remaining))
    | .attempting left current, .attempt spurious =>
      match b.attempt l.packetSize.bytes current spurious with
      | (b, .ok n)           => some (b, l.claimed left n)
      | (b, .error observed) => some (b, l.goto (.attempting left observed))
    | .sending left sendLen,    .sent            =>
      some (b, { l with datagrams := l.datagrams ++ [sendLen] }.goto (.burst left))
    | .sending left sendLen,    .failed          =>
      some (b, { l with errors := l.errors + 1 }.goto (.refunding left sendLen))
    | .refunding left sendLen,  .refund          => some (b.refund sendLen, l.goto (.burst left))
    | _,                        _                => none

end UdpSendLoop
