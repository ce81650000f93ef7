import Xfr.Library.Bitmap
import Xfr.Library.Mealy
import Xfr.Library.U64

-- Number of sequence positions retained for duplicate and reordering detection.
abbrev PACKET_TRACKER_WINDOW : Nat := 65536

abbrev PACKET_TRACKER_WORD_BITS : Nat := 64

-- Receiver-side packet tracker for loss and out-of-order detection. The counters are `u64`s, and
-- `seen` is a ring which holds the position `sequence mod PACKET_TRACKER_WINDOW` of a packet.
structure PacketTracker where
  received        : Nat
  lost            : Nat
  outOfOrder      : Nat
  highestSeen     : Option Nat
  unconfirmedJump : Option Nat
  seen            : Bitmap PACKET_TRACKER_WORD_BITS
                      (PACKET_TRACKER_WINDOW / PACKET_TRACKER_WORD_BITS)

namespace PacketTracker

def new : PacketTracker where
  received        := 0
  lost            := 0
  outOfOrder      := 0
  highestSeen     := none
  unconfirmedJump := none
  seen            := Bitmap.empty

-- The position of a sequence number in the ring.
def index (sequence : Nat) : Nat :=
  sequence &&& (PACKET_TRACKER_WINDOW - 1)

def clearRange (t : PacketTracker) (start stop : Nat) : PacketTracker :=
  { t with seen := t.seen.clearRange start stop }

def advanceWindow (t : PacketTracker) (previous next : Nat) : PacketTracker :=
  let distance := next - previous
  if distance ≥ PACKET_TRACKER_WINDOW then
    { t with seen := Bitmap.empty }
  else
    let start := index (previous + 1)
    let stop := start + distance
    let t := t.clearRange start (min stop PACKET_TRACKER_WINDOW)
    if stop > PACKET_TRACKER_WINDOW then t.clearRange 0 (stop - PACKET_TRACKER_WINDOW) else t

-- Marks the packet as seen and counts it.
def mark (t : PacketTracker) (sequence : Nat) : PacketTracker where
  __ := t
  seen     := t.seen.insert (index sequence)
  received := U64.saturatingAdd t.received 1

def recordTracked (t : PacketTracker) (sequence : Nat) : Bool × PacketTracker :=
  match t.highestSeen with
  | none =>
    -- Keep the initial gap: sequence numbering starts at zero.
    (true, { t with lost := sequence, highestSeen := some sequence }.mark sequence)
  | some highest =>
    if sequence > highest then
      let gap := sequence - highest - 1
      let t := t.advanceWindow highest sequence
      let t := { t with lost := U64.saturatingAdd t.lost gap, highestSeen := some sequence }
      (true, t.mark sequence)
    else if highest - sequence ≥ PACKET_TRACKER_WINDOW ∨ t.seen.test (index sequence) then
      (false, t)
    else
      let lost := U64.saturatingSub t.lost 1
      let outOfOrder := U64.saturatingAdd t.outOfOrder 1
      (true, { t with lost, outOfOrder }.mark sequence)

-- Accept a far jump only when it agrees with the previously held one.
def confirmJump (t : PacketTracker) (sequence : Nat) : Bool × PacketTracker :=
  match t.unconfirmedJump with
  | some held =>
    if U64.absDiff held sequence < PACKET_TRACKER_WINDOW then
      (true, ({ t with unconfirmedJump := none }.recordTracked held).2)
    else
      (false, { t with unconfirmedJump := some sequence })
  | none => (false, { t with unconfirmedJump := some sequence })

-- Distance past the high-water mark (sequence numbering starts at 0).
def jump (t : PacketTracker) (sequence : Nat) : Nat :=
  match t.highestSeen with
  | some highest => U64.saturatingSub sequence highest
  | none         => U64.saturatingAdd sequence 1

-- Returns true only for a new packet whose sequence can still be tracked.
def recordUnique (t : PacketTracker) (sequence : Nat) : Bool × PacketTracker :=
  if t.jump sequence > PACKET_TRACKER_WINDOW then
    match t.confirmJump sequence with
    | (true, t)  => t.recordTracked sequence
    | (false, t) => (false, t)
  else
    t.recordTracked sequence

-- Record a datagram that arrived after the test ended. It may only fill a gap below the high-water
-- mark: anything newer was sent after the receiver stopped.
def recordStraggler (t : PacketTracker) (sequence : Nat) : Bool × PacketTracker :=
  if t.highestSeen.any (sequence < ·) then t.recordTracked sequence else (false, t)

-- The tracker as a receiver uses it: each datagram carries a `u64` sequence number.
def machine : Mealy PacketTracker UInt64 Bool :=
  fun t sequence => t.recordUnique sequence.toNat

end PacketTracker
