import Mathlib.Logic.Function.Basic
import Xfr.Library.System
import Xfr.Library.Utf8
import Xfr.Report.Sample
import Xfr.Access.Address

open Utf8 (Text)

-- The last value which was sent on a watch channel, and whether there is still a sender.
structure Watch where
  value  : Bool
  isOpen : Bool
  deriving DecidableEq

namespace Watch

def channel (value : Bool) : Watch where
  value  := value
  isOpen := true

def send (w : Watch) (value : Bool) : Watch :=
  { w with value }

def drop (w : Watch) : Watch :=
  { w with isOpen := false }

end Watch

-- What a client asks for, and where it connects from. The client chooses the identifier.
structure TestStart where
  id         : Text
  protocol   : Protocol
  singlePort : Bool
  streams    : Nat
  peerIp     : IpAddr

-- The entry of a running test. Its senders belong to the channels of a session.
structure ActiveTest (ι : Type*) where
  cancelTx        : ι
  pauseTx         : ι
  dataStreamTx    : Option ι
  controlPeerIp   : IpAddr
  expectedStreams : Nat

-- Only data connections of TCP which share the port with the control connection are routed.
def TestStart.activeTest {ι : Type*} (t : TestStart) (x : ι) : ActiveTest ι where
  cancelTx        := x
  pauseTx         := x
  dataStreamTx    := if t.protocol = .tcp ∧ t.singlePort then some x else none
  controlPeerIp   := t.peerIp
  expectedStreams := t.streams

inductive Stage
  | handshake
  | running
  | left
  | closed
  deriving DecidableEq

-- The sessions of a server, their channels, and the data connections which were routed to each of
-- them, with the session whose client opened the connection.
structure Server (ι : Type*) where
  activeTests : Text → Option (ActiveTest ι)
  stage       : ι → Stage
  cancel      : ι → Watch
  pause       : ι → Watch
  dataStreams : ι → List (ι × Nat)

namespace Server

variable {ι : Type*} [DecidableEq ι]

def init : Server ι where
  activeTests _ := none
  stage _       := .handshake
  cancel _      := .channel false
  pause _       := .channel false
  dataStreams _ := []

def goto (s : Server ι) (x : ι) (stage : Stage) : Server ι :=
  { s with stage := Function.update s.stage x stage }

def sendCancel (s : Server ι) (t : ActiveTest ι) : Server ι :=
  { s with cancel := Function.update s.cancel t.cancelTx ((s.cancel t.cancelTx).send true) }

def sendPause (s : Server ι) (t : ActiveTest ι) (paused : Bool) : Server ι :=
  { s with pause := Function.update s.pause t.pauseTx ((s.pause t.pauseTx).send paused) }

-- An entry takes its senders with it.
def dropTest (s : Server ι) (t : ActiveTest ι) : Server ι :=
  { s with
    cancel := Function.update s.cancel t.cancelTx (s.cancel t.cancelTx).drop
    pause  := Function.update s.pause t.pauseTx (s.pause t.pauseTx).drop }

-- Storing a test drops an entry with the same identifier.
def insert (s : Server ι) (id : Text) (t : ActiveTest ι) : Server ι :=
  let s' := (s.activeTests id).elim s s.dropTest
  { s' with activeTests := Function.update s.activeTests id (some t) }

def removeActiveTest (s : Server ι) (id : Text) : Server ι :=
  match s.activeTests id with
  | none   => s
  | some t =>
    let s' := (s.sendCancel t).dropTest t
    { s' with activeTests := Function.update s.activeTests id none }

def signalCancel (s : Server ι) (id : Text) : Server ι :=
  (s.activeTests id).elim s s.sendCancel

def signalPause (s : Server ι) (id : Text) (paused : Bool) : Server ι :=
  (s.activeTests id).elim s (s.sendPause · paused)

-- A data connection has to come from where the control connection came from.
def routeDataHello (s : Server ι) (x : ι) (peerIp : IpAddr) (id : Text) (streamIndex : Nat) :
    Server ι :=
  match s.activeTests id with
  | none   => s
  | some t =>
    if t.controlPeerIp.normalize ≠ peerIp.normalize then s else
      match t.dataStreamTx with
      | none   => s
      | some y =>
        { s with
          dataStreams := Function.update s.dataStreams y (s.dataStreams y ++ [(x, streamIndex)]) }

inductive Event
  | start
  | ackFailed
  | pause
  | resume
  -- The report loop is left, after a cancel or in another way.
  | leave
  | stopHandlers
  | cleanup
  | dataHello (streamIndex : Nat)
  deriving DecidableEq

-- The next step of a session's task, or a data connection of its client.
def step (tests : ι → TestStart) : System (Server ι) (ι × Event)
  | s, (x, e) =>
    let test := tests x
    match e, s.stage x with
    | .start,        .handshake => some <| (s.insert test.id (test.activeTest x)).goto x .running
    | .ackFailed,    .running   =>
      if test.protocol ≠ .quic then some <| (s.removeActiveTest test.id).goto x .closed else none
    | .pause,        .running   => some <| s.signalPause test.id true
    | .resume,       .running   => some <| s.signalPause test.id false
    | .leave,        .running   => some <| (s.signalCancel test.id).goto x .left
    | .stopHandlers, .left      => some <| s.signalCancel test.id
    | .cleanup,      .left      => some <| (s.removeActiveTest test.id).goto x .closed
    | .dataHello i,  _          => some <| s.routeDataHello x test.peerIp test.id i
    | _,             _          => none

end Server
