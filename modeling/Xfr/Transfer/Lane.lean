import Xfr.Budget.ByteStream
import Xfr.Budget.Conservation
import Xfr.Client.StreamTasks
import Xfr.Control.Framing
import Xfr.Handshake.Server
import Xfr.Library.Conduit
import Xfr.Transfer.Receive

open Utf8 (Text)

-- What is left of a stream's first line, which tells the server where it belongs, and what came of the
-- stream when it was left: how much was acknowledged, if this is known.
inductive Outbound
  | greeting (rest : Bytes)
  | sending
  | closed (failed : Bool) (acked : Option Nat)
  deriving DecidableEq

inductive Inbound
  | greeting (line : Bytes)
  | routed (text : Text)
  | refused
  | receiving (loop : ReceiveLoop)

-- One direction of a data stream, with both of its ends.
structure Lane where
  sender    : SendLoop
  bytesSent : Nat
  outbound  : Outbound
  conduit   : Conduit UInt8
  receiver  : ReceiveLoop
  inbound   : Inbound

-- What the streams of a test have in common.
structure Traffic where
  budget : Option ByteBudget
  cancel : Bool
  now    : Nat

inductive LaneEvent
  | greet (n : Nat)
  | send (e : SendEvent)
  | write (bytes : Bytes)
  -- The send loop is left, in the regular way or with an error.
  | close (acked : Option Nat)
  | fail (acked : Option Nat)
  | arrive (n : Nat)
  | readByte
  -- The stream is handed to the test, or there is none for it.
  | serve
  | refuse
  | receive (e : ReceiveEvent)
  | cancel
  | tick (elapsed : Nat)

def SendEvent.isWritten : SendEvent → Bool
  | written _ => true
  | _         => false

-- Bytes which the peer has not acknowledged are lost when the connection is aborted.
def clampBytesSentToAcked (bytesSent : Nat) : (acked : Option Nat) → Nat
  | some acked => if acked < bytesSent then acked else bytesSent
  | none       => bytesSent

-- What a read leaves of the stream. It does not get past what has arrived, and the end comes after
-- everything else. An error can come at any time.
def ReceiveEvent.takeFrom (c : Conduit UInt8) : ReceiveEvent → Option (Conduit UInt8)
  | .read (.data n) => (c.take n).map (·.2)
  | .read .eof      => if c.atEnd then some c else none
  | _               => some c

namespace Lane

variable (linux : Bool) (t : Traffic) (l : Lane)

-- The first line is written before anything else.
def greet (n : Nat) : Option Lane :=
  match l.outbound with
  | .greeting rest =>
    (l.conduit.write (rest.take n)).map fun conduit =>
      { l with
        conduit
        outbound := if rest.drop n = [] then .sending else .greeting (rest.drop n) }
  | _              => none

def send (e : SendEvent) : Option (Traffic × Lane) :=
  if l.outbound = .sending ∧ e.isWritten = false then
    (l.sender.stepWithin t.budget e).map fun (budget, sender) =>
      ({ t with budget }, { l with sender })
  else
    none

def write (bytes : Bytes) : Option (Traffic × Lane) :=
  if l.outbound = .sending then do
    let (budget, sender) ← l.sender.stepWithin t.budget (.written bytes.length)
    let conduit ← l.conduit.write bytes
    return ({ t with budget },
      { l with sender, conduit, bytesSent := U64.wrappingAdd l.bytesSent bytes.length })
  else
    none

-- Timed tests end their TCP streams with a reset on Linux, where the bytes which are lost are known.
def abortive : Bool :=
  linux ∧ t.budget = none ∧ l.sender.transport = .tcp

def hangUp : Conduit UInt8 :=
  if l.abortive linux t then l.conduit.sever else l.conduit.finish

-- The peer acknowledges only what has arrived. No other system tells.
def acknowledges (acked : Option Nat) : Bool :=
  acked.all fun a => linux ∧ a ≤ l.conduit.arrived

def close (acked : Option Nat) : Option Lane :=
  if l.outbound = .sending ∧ l.sender.exit.isSome ∧ l.acknowledges linux acked then
    some { l with
      bytesSent :=
        if t.budget = none ∧ l.sender.transport = .tcp then
          clampBytesSentToAcked l.bytesSent acked
        else
          l.bytesSent
      outbound  := .closed false acked
      conduit   := l.hangUp linux t }
  else
    none

def fail (acked : Option Nat) : Option Lane :=
  if l.outbound = .sending ∧ l.sender.exit = some .failed ∧ l.acknowledges linux acked then
    some { l with
      bytesSent :=
        if l.sender.transport = .tcp then clampBytesSentToAcked l.bytesSent acked else l.bytesSent
      outbound  := .closed true acked
      conduit   := l.hangUp linux t }
  else
    none

-- One more byte of the first line.
def greeted (line : Bytes) (b : UInt8) : Inbound :=
  if b = newline then
    .routed (Utf8.decodeLossy line)
  else if (line ++ [b]).length ≥ MAX_LINE_LENGTH then
    .refused
  else
    .greeting (line ++ [b])

def readByte : Option Lane :=
  match l.inbound with
  | .greeting line => do
    let (bytes, conduit) ← l.conduit.take 1
    let b ← bytes.head?
    return { l with conduit, inbound := greeted line b }
  | _              => none

-- The stream is handed to the test with nothing read of what follows the first line.
def serve : Option Lane :=
  match l.inbound with
  | .routed _ => some { l with inbound := .receiving { l.receiver with start := t.now } }
  | _         => none

def refuse : Option Lane :=
  match l.inbound with
  | .greeting _ | .routed _ => some { l with inbound := .refused }
  | _                       => none

def receive (e : ReceiveEvent) : Option Lane :=
  match l.inbound with
  | .receiving loop => do
    let loop ← loop.step t.cancel t.now e
    let conduit ← e.takeFrom l.conduit
    return { l with conduit, inbound := .receiving loop }
  | _               => none

def step : System (Traffic × Lane) LaneEvent
  | (t, l), .greet n     => (l.greet n).map (t, ·)
  | (t, l), .send e      => l.send t e
  | (t, l), .write bytes => l.write t bytes
  | (t, l), .close acked => (l.close linux t acked).map (t, ·)
  | (t, l), .fail acked  => (l.fail linux t acked).map (t, ·)
  | (t, l), .arrive n    => (l.conduit.arrive n).map fun conduit => (t, { l with conduit })
  | (t, l), .readByte    => l.readByte.map (t, ·)
  | (t, l), .serve       => (l.serve t).map (t, ·)
  | (t, l), .refuse      => l.refuse.map (t, ·)
  | (t, l), .receive e   => (l.receive t e).map (t, ·)
  | (t, l), .cancel      => some ({ t with cancel := true }, l)
  | (t, l), .tick n      => some ({ t with now := t.now + n }, l)

end Lane

-- The three receive functions.
inductive StreamReceiver
  | receiveData (config : TcpConfig) (duration : Nat)
  | receiveDataHalf (config : TcpConfig) (duration : Nat)
  | receiveQuicData

def StreamReceiver.start (now : Nat) : StreamReceiver → ReceiveLoop
  | receiveData config duration     => .receiveData config now duration
  | receiveDataHalf config duration => .receiveDataHalf config now duration
  | receiveQuicData                 => .receiveQuicData now

-- A stream of a test. Only on a shared port its first line tells the server where it belongs.
structure LaneConfig where
  sender   : Sender
  receiver : StreamReceiver
  hello    : Option (Line MAX_LINE_LENGTH)

namespace LaneConfig

def greeting (config : LaneConfig) : Bytes :=
  config.hello.elim [] (line ·.text)

def start (now : Nat) (config : LaneConfig) : Lane where
  sender    := config.sender.start
  bytesSent := 0
  outbound  := if config.greeting = [] then .sending else .greeting config.greeting
  conduit   := .new
  receiver  := config.receiver.start now
  inbound   :=
    if config.greeting = [] then .receiving (config.receiver.start now) else .greeting []

end LaneConfig
