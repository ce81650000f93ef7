import Mathlib.Logic.Function.Basic
import Xfr.Serve.ActiveTests

open Utf8 (Text)

abbrev HelloToken := BitVec 128

-- Where the hellos of a test are routed to. The sender belongs to the channel of a session, and there
-- is a socket for each stream whose hello was accepted.
structure UdpHelloRoute (ι : Type*) where
  socketTx        : ι
  controlPeerIp   : IpAddr
  expectedStreams : Nat
  sockets         : List Bool

def TestStart.udpHelloRoute {ι : Type*} (t : TestStart) (x : ι) : UdpHelloRoute ι where
  socketTx        := x
  controlPeerIp   := t.peerIp
  expectedStreams := t.streams
  sockets         := List.replicate t.streams false

inductive AckFailure
  | serialization
  | write

inductive FinishFailure
  | serialization
  | write
  | timeout
  -- Only over QUIC, where the control stream is finished on its own.
  | stream

-- Where a call of the function which runs a test is. Behind the cleanup, it is known whether the
-- test was registered.
inductive RunPoint
  | idle
  | preparing
  | registered
  | running
  | reported
  | stopped
  | finished
  | unwinding (registered : Bool)
  | returned (registered : Bool)
  deriving DecidableEq

inductive RunEvent
  | call
  | route (token : HelloToken)
  | prepareFailed
  | register
  | ackFailed (why : AckFailure)
  | ackWritten
  | pause
  | resume
  -- The report loop is left, after a cancel or in another way, maybe with an error.
  | reported (failed : Bool)
  | stopHandlers
  -- All handlers are joined, whether their streams were collected or not.
  | finish (failed : Option FinishFailure)
  | cleanup
  | dropGuard

-- The tables of a server, and the calls which use them.
structure Host (ι : Type*) where
  server : Server ι
  routes : HelloToken → Option (UdpHelloRoute ι)
  guard  : ι → Option HelloToken
  point  : ι → RunPoint

inductive HostEvent (ι : Type*)
  -- The dispatcher stores the socket for a hello which it has accepted before.
  | store (token : HelloToken) (streamIndex : Nat)
  | session (x : ι) (e : RunEvent)

namespace Host

variable {ι : Type*} [DecidableEq ι]

def init : Host ι where
  server   := .init
  routes _ := none
  guard _  := none
  point _  := .idle

def goto (s : Host ι) (x : ι) (point : RunPoint) : Host ι :=
  { s with point := Function.update s.point x point }

-- The route may be gone by now.
def storeSocket (s : Host ι) (token : HelloToken) (streamIndex : Nat) : Host ι :=
  match s.routes token with
  | none   => s
  | some r =>
    { s with
      routes := Function.update s.routes token
        (some { r with sockets := r.sockets.set streamIndex true }) }

def registerRoute (s : Host ι) (x : ι) (t : TestStart) (token : HelloToken) : Host ι :=
  { s with
    routes := Function.update s.routes token (some (t.udpHelloRoute x))
    guard  := Function.update s.guard x (some token) }

def dropGuard (s : Host ι) (x : ι) : Host ι :=
  match s.guard x with
  | none       => s
  | some token =>
    { s with
      routes := Function.update s.routes token none
      guard  := Function.update s.guard x none }

-- An operation on the active tests.
def serve (tests : ι → TestStart) (s : Host ι) (x : ι) (e : Server.Event) (point : RunPoint) :
    Option (Host ι) :=
  (Server.step tests s.server (x, e)).map fun server => { s with server }.goto x point

-- A token is taken only if it is vacant. Over QUIC the test is acknowledged before the call.
def step (tests : ι → TestStart) : System (Host ι) (HostEvent ι)
  | s, .store token i => some (s.storeSocket token i)
  | s, .session x e   =>
    match s.point x, e with
    | .idle,                 .call            => some (s.goto x .preparing)
    | .preparing,            .route token     =>
      if (tests x).protocol = .udp ∧ s.guard x = none ∧ (s.routes token).isNone then
        some (s.registerRoute x (tests x) token)
      else
        none
    | .preparing,            .prepareFailed   => some (s.goto x (.unwinding false))
    | .preparing,            .register        =>
      s.serve tests x .start (if (tests x).protocol = .quic then .running else .registered)
    | .registered,           .ackFailed _     => s.serve tests x .ackFailed (.unwinding true)
    | .registered,           .ackWritten      => some (s.goto x .running)
    | .running,              .pause           => s.serve tests x .pause .running
    | .running,              .resume          => s.serve tests x .resume .running
    | .running,              .reported failed =>
      s.serve tests x .leave (if failed then .finished else .reported)
    | .reported,             .stopHandlers    => s.serve tests x .stopHandlers .stopped
    | .stopped,              .finish _        => some (s.goto x .finished)
    | .finished,             .cleanup         => s.serve tests x .cleanup (.unwinding true)
    | .unwinding registered, .dropGuard       =>
      some ((s.dropGuard x).goto x (.returned registered))
    | _,                     _                => none

-- A test is registered under an identifier which no live test has.
def fits (tests : ι → TestStart) (s : Host ι) : HostEvent ι → Bool
  | .session x .register => (s.server.activeTests (tests x).id).isNone
  | _                    => true

end Host
