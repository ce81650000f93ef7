import Xfr.Report.Stats
import Xfr.Tracker.Basic

namespace UdpIntervalProgress

def zero : UdpIntervalProgress where
  packetsReceived := 0
  packetsLost     := 0

-- The number of packets which the receiver expected so far.
def expected (p : UdpIntervalProgress) : Nat :=
  U64.saturatingAdd p.packetsReceived p.packetsLost

def isAtLeastAsFreshAs (p previous : UdpIntervalProgress) : Bool :=
  p.packetsReceived ≥ previous.packetsReceived ∧ p.expected ≥ previous.expected

-- The sums over the streams of a test.
def total (ps : List UdpIntervalProgress) : UdpIntervalProgress :=
  ps.foldl (fun total p => {
    packetsReceived := U64.saturatingAdd total.packetsReceived p.packetsReceived
    packetsLost     := U64.saturatingAdd total.packetsLost p.packetsLost
  }) zero

def isEmpty (p : UdpIntervalProgress) : Bool :=
  p.packetsReceived = 0 ∧ p.packetsLost = 0

-- What an interval message says about the given readings of its streams. The field is left out
-- before any packet was seen.
def aggregate (ps : List UdpIntervalProgress) : Option UdpIntervalProgress :=
  if (total ps).isEmpty then none else some (total ps)

end UdpIntervalProgress

-- What the server knows about a stream it receives: its packet tracker, and the counters which it
-- last published to the rest of the server.
structure Receiver where
  tracker     : PacketTracker
  udpProgress : UdpIntervalProgress

-- The calls of a receiver, for datagrams before and after the end of the test.
inductive Call
  | recordUnique    (sequence : UInt64)
  | recordStraggler (sequence : UInt64)

namespace PacketTracker

def progress (t : PacketTracker) : UdpIntervalProgress where
  packetsReceived := t.received
  packetsLost     := t.lost

def record (t : PacketTracker) : Call → Bool × PacketTracker
  | .recordUnique sequence    => t.recordUnique sequence.toNat
  | .recordStraggler sequence => t.recordStraggler sequence.toNat

end PacketTracker

namespace Receiver

def new : Receiver where
  tracker     := .new
  udpProgress := .zero

-- Accounts for a datagram. Its counters are only published if the tracker accepted it.
def record (r : Receiver) (call : Call) : Receiver :=
  match r.tracker.record call with
  | (true, tracker)  => { tracker, udpProgress := tracker.progress }
  | (false, tracker) => { r with tracker }

end Receiver

structure UdpFeedbackPacket where
  streamId        : UInt16
  elapsedMs       : UInt64
  packetsReceived : Nat
  packetsLost     : Nat

namespace UdpFeedbackPacket

def toProgress (packet : UdpFeedbackPacket) : UdpIntervalProgress where
  packetsReceived := packet.packetsReceived
  packetsLost     := packet.packetsLost

-- The packet in which a stream's receiver sends a snapshot of its counters.
def ofSnapshot (streamId : Nat) (elapsedMs : UInt64) (snap : UdpIntervalProgress) :
    UdpFeedbackPacket where
  streamId        := UInt16.ofNat streamId
  elapsedMs       := elapsedMs
  packetsReceived := snap.packetsReceived
  packetsLost     := snap.packetsLost

end UdpFeedbackPacket

-- Stores a feedback snapshot only when it belongs to this socket's stream and is at least as fresh
-- as the slot.
def storeUdpFeedback (slots : List UdpIntervalProgress) (expectedStreamIndex : Nat)
    (packet : UdpFeedbackPacket) : Bool × List UdpIntervalProgress :=
  if packet.streamId.toNat ≠ expectedStreamIndex then
    (false, slots)
  else
    match slots[expectedStreamIndex]? with
    | none      => (false, slots)
    | some slot =>
      let next := packet.toProgress
      if next.isAtLeastAsFreshAs slot then
        (true, slots.set expectedStreamIndex next)
      else
        (false, slots)

-- Both the interval messages and the sums of the feedback slots go through this filter.
structure UdpProgressFilter where
  latest : Option UdpIntervalProgress

namespace UdpProgressFilter

def new : UdpProgressFilter where
  latest := none

def apply (f : UdpProgressFilter) (progress : UdpIntervalProgress) :
    Option UdpIntervalProgress × UdpProgressFilter :=
  if f.latest.any (!progress.isAtLeastAsFreshAs ·) then
    (none, f)
  else
    (some progress, { f with latest := some progress })

end UdpProgressFilter
