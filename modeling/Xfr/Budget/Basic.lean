import Xfr.Library.Interleaving
import Xfr.Library.U64

-- The remaining bytes of a byte-budget test, shared by all of its send loops. A claim reserves bytes
-- before a write, and a refund returns what did not make it out.
structure ByteBudget where
  remaining : Nat
  deriving DecidableEq

namespace ByteBudget

def new (total : UInt64) : ByteBudget where
  remaining := total.toNat

-- The end of a claim, or another round of it. It succeeds when nothing got in between since the
-- `current` value was loaded, but it may also fail without a reason.
def attempt (b : ByteBudget) (want current : Nat) (spurious : Bool) : ByteBudget × Except Nat Nat :=
  let granted := min current want
  if granted = 0 then (b, .ok 0) else
    if b.remaining = current ∧ ¬spurious then
      ({ b with remaining := current - granted }, .ok granted)
    else
      (b, .error b.remaining)

def refund (b : ByteBudget) (bytes : Nat) : ByteBudget :=
  if bytes > 0 then { b with remaining := U64.wrappingAdd b.remaining bytes } else b

end ByteBudget

def DEFAULT_BUFFER_SIZE : Nat := 128 * 1024

structure TcpConfig where
  bufferSize     : Nat := DEFAULT_BUFFER_SIZE
  zerocopy       : Bool := false
  bufferSize_pos : 0 < bufferSize := by decide

-- Rate-limited sends have smaller buffers, for around ten writes a second.
def bufSize (bufferSize : Nat) : (bitrate : Option Nat) → Nat
  | some bps => if bps > 0 then min bufferSize (max (bps / 8 / 10) 1) else bufferSize
  | none     => bufferSize

theorem bufSize_pos {bufferSize : Nat} {bitrate : Option Nat} (h : 0 < bufferSize) :
    0 < bufSize bufferSize bitrate := by
  unfold bufSize
  split
  case h_2 => exact h
  case h_1 => split <;> omega

inductive Transport
  | tcp
  | quic
  deriving DecidableEq

-- Why a send loop stops before the budget is spent.
inductive Interruption
  | cancelled
  | deadline
  | failed
  deriving DecidableEq

-- Where a send loop goes after a refund.
inductive Next
  | head
  | pacing
  | interrupted (why : Interruption)
  deriving DecidableEq

inductive SendPoint
  | head
  | claiming
  | attempting (current : Nat)
  | writing (claimed : Nat)
  | refunding (bytes : Nat) (next : Next)
  | pacing
  | spent
  | interrupted (why : Interruption)
  deriving DecidableEq

def Next.point : Next → SendPoint
  | head            => .head
  | pacing          => .pacing
  | interrupted why => .interrupted why

-- A send loop, and where it is in its code. Its next write is what the buffer holds after the offset.
structure SendLoop where
  transport       : Transport
  bufferLen       : Nat
  finite          : Bool
  zerocopy        : Bool
  chunkOffset     : Nat
  written         : Nat
  point           : SendPoint
  chunkOffset_lt  : chunkOffset < bufferLen

inductive SendEvent
  -- At the head of the loop.
  | cancel
  | resume
  | expire
  | claim
  | load
  | attempt (spurious : Bool)
  -- The branches of the select which races the write against everything else.
  | cancelChanged (cancelled : Bool)
  | pauseChanged
  | deadline
  | written (n : Nat)
  | rejected
  | failed
  | refund
  | paced (cancelled : Bool)
  deriving DecidableEq

namespace SendLoop

def start (transport : Transport) (bufferLen : Nat) (finite zerocopy : Bool)
    (h : 0 < bufferLen) : SendLoop where
  transport      := transport
  bufferLen      := bufferLen
  finite         := finite
  zerocopy       := zerocopy
  chunkOffset    := 0
  written        := 0
  point          := .head
  chunkOffset_lt := h

def sendData (config : TcpConfig) (finite : Bool) (bitrate : Option Nat) : SendLoop :=
  start .tcp (bufSize config.bufferSize bitrate) finite config.zerocopy
    (bufSize_pos config.bufferSize_pos)

def sendDataHalf (config : TcpConfig) (finite : Bool) (bitrate : Option Nat) : SendLoop :=
  start .tcp (bufSize config.bufferSize bitrate) finite config.zerocopy
    (bufSize_pos config.bufferSize_pos)

def sendQuicData (finite : Bool) (bitrate : Option Nat) : SendLoop :=
  start .quic (bufSize DEFAULT_BUFFER_SIZE bitrate) finite false (bufSize_pos (by decide))

def goto (l : SendLoop) (point : SendPoint) : SendLoop :=
  { l with point }

-- A write over QUIC starts with the buffer.
def want (l : SendLoop) : Nat :=
  match l.transport with
  | .tcp  => l.bufferLen - l.chunkOffset
  | .quic => l.bufferLen

def wrote (l : SendLoop) (n : Nat) : SendLoop :=
  match l.transport with
  | .quic => { l with written := l.written + n }
  | .tcp  =>
    if h : l.chunkOffset + n ≥ l.bufferLen then
      { l with
        written        := l.written + n
        chunkOffset    := 0
        chunkOffset_lt := Nat.zero_lt_of_lt l.chunkOffset_lt }
    else
      { l with
        written        := l.written + n
        chunkOffset    := l.chunkOffset + n
        chunkOffset_lt := Nat.lt_of_not_ge h }

-- TCP takes any signal of the cancel channel for a cancel, QUIC looks at it.
def afterCancel (l : SendLoop) (cancelled : Bool) : Next :=
  match l.transport with
  | .tcp  => .interrupted .cancelled
  | .quic => if cancelled then .interrupted .cancelled else .head

def step : System (ByteBudget × SendLoop) SendEvent
  | (b, l), e =>
    match l.point, e with
    | .head,               .cancel           => some (b, l.goto (.interrupted .cancelled))
    | .head,               .resume           => some (b, l)
    | .head,               .expire           =>
      if l.finite then some (b, l.goto (.interrupted .deadline)) else none
    | .head,               .claim            => some (b, l.goto .claiming)
    | .claiming,           .load             => some (b, l.goto (.attempting b.remaining))
    | .attempting current, .attempt spurious =>
      match b.attempt l.want current spurious with
      | (b, .ok 0)           => some (b, l.goto .spent)
      | (b, .ok claimed)     => some (b, l.goto (.writing claimed))
      | (b, .error observed) => some (b, l.goto (.attempting observed))
    | .writing claimed,    .cancelChanged c  =>
      some (b, l.goto (.refunding claimed (l.afterCancel c)))
    | .writing claimed,    .pauseChanged     => some (b, l.goto (.refunding claimed .head))
    | .writing claimed,    .deadline         =>
      if l.finite then some (b, l.goto (.refunding claimed (.interrupted .deadline))) else none
    | .writing claimed,    .written n        =>
      if n ≤ claimed then some (b, (l.wrote n).goto (.refunding (claimed - n) .pacing)) else none
    -- The socket does not support zero-copy sends.
    | .writing claimed,    .rejected         =>
      if l.zerocopy then
        some (b, { l with zerocopy := false }.goto (.refunding claimed .head))
      else
        none
    | .writing claimed,    .failed           =>
      some (b, l.goto (.refunding claimed (.interrupted .failed)))
    | .refunding bytes next, .refund         => some (b.refund bytes, l.goto next.point)
    | .pacing,             .paced cancelled  =>
      some (b, l.goto (if cancelled then .interrupted .cancelled else .head))
    | _,                   _                 => none

end SendLoop
