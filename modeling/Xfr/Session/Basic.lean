import Xfr.Library.System
import Xfr.Library.Whitespace
import Xfr.Session.Endpoint

open Utf8 (Text)

-- What decides which control messages a client sends in a test.
structure ClientConfig where
  id             : Text
  protocol       : Protocol
  mtuProbe       : Bool
  finishOnBudget : Bool
  supportsPause  : Bool

-- Probing is part of the run over TCP and UDP only.
def ClientConfig.probes (config : ClientConfig) : Bool :=
  config.mtuProbe && config.protocol ≠ .quic

namespace Client

inductive Stage
  | authenticated
  | awaitingAck
  | acknowledged
  -- The cancel was sent because the UDP streams could not be set up.
  | fetching
  -- The cancel was sent because the MTU probe is complete.
  | draining
  | running
  | ended
  deriving DecidableEq

inductive Event
  | start
  | receive
  | setupFailed
  | probed
  | setup
  | cancel
  | pause (paused : Bool)
  | finish
  -- The run is left: by an error, by a timeout, with the result, or because it is dropped.
  | leave
  deriving DecidableEq

end Client

-- The client of a session, from the point on where its transport is installed. While the test is
-- running, messages are read by a task of their own.
structure Client where
  stage    : Client.Stage
  reading  : Bool
  endpoint : Endpoint

namespace Client

variable (aead : Aead) (json : Json) (config : ClientConfig) (taken : Nat)

def start (transport : ProtectedControl) : Client where
  stage    := .authenticated
  reading  := false
  endpoint := .start transport

def goto (c : Client) (stage : Stage) : Client :=
  { c with stage }

-- Sends a message which the run depends on. A write which is cut off is the end of it.
def send (c : Client) (message : Message) (next : Stage) : Client :=
  match json.serialize message with
  | none      => c.goto .ended
  | some text =>
    let (endpoint, sent) := c.endpoint.write aead taken text
    { c with endpoint, stage := if sent then next else .ended }

-- Sends a message which the run can do without. Nothing is made of a write which is cut off: by the
-- deadline of a cancel, or by an error.
def notify (c : Client) (message : Message) (unserialized : Stage) : Client :=
  match json.serialize message with
  | none      => c.goto unserialized
  | some text => { c with endpoint := (c.endpoint.write aead taken text).1 }

def receiveAck (c : Client) : Client :=
  match c.endpoint.read aead with
  | none                  => c.goto .ended
  | some (text, endpoint) =>
    match json.deserialize text with
    | some (.testAck _) => { c with endpoint, stage := .acknowledged }
    | _                 => { c with endpoint, stage := .ended }

-- Intervals are skipped until the server's result.
def receiveFetching (c : Client) : Client :=
  match c.endpoint.read aead with
  | none                  => c.goto .ended
  | some (text, endpoint) =>
    if text = [] then { c with endpoint, stage := .ended } else
      match json.deserialize text with
      | some (.result _) => { c with endpoint, stage := .ended }
      | _                => { c with endpoint }

def probeCancel : Message :=
  .cancel config.id "MTU probe complete".toList

-- The exchange of the MTU probe does not know the transport.
def probed (c : Client) : Client :=
  match json.serialize (probeCancel config) with
  | none      => c.goto .ended
  | some text =>
    let (endpoint, sent) := c.endpoint.writeLine taken text
    { c with endpoint, stage := if sent then .draining else .ended }

def receiveDraining (c : Client) : Client :=
  match c.endpoint.readLine with
  | none                     => c.goto .ended
  | some (text, n, endpoint) =>
    if n = 0 then { c with endpoint, stage := .ended } else
      match json.deserialize text with
      | none             => { c with endpoint, stage := .ended }
      | some (.result _) => { c with endpoint, stage := .ended }
      | some (.error _)  => { c with endpoint, stage := .ended }
      | some _           => { c with endpoint }

-- The reader's task stops at the first message which it cannot read.
def receiveRunning (c : Client) : Client :=
  match c.endpoint.read aead with
  | none                  => { c with reading := false }
  | some (text, endpoint) =>
    let blank := (Utf8.trim text).isEmpty
    { c with endpoint, reading := !blank && (json.deserialize text).isSome }

def pauseMessage (paused : Bool) : Message :=
  if paused then .pause config.id else .resume config.id

-- What the stream takes of a message which is written does not matter to the other events.
def step : System Client Event
  | c, e =>
    match c.stage, e with
    | .ended,         _            => none
    | .authenticated, .start       =>
      some <| c.send aead json taken (.testStart config.id config.protocol) .awaitingAck
    | .awaitingAck,   .receive     => some <| c.receiveAck aead json
    | .acknowledged,  .probed      => if config.probes then some <| c.probed json config taken else none
    | .acknowledged,  .setup       =>
      if config.probes then none else
        some { c with stage := .running, reading := true, endpoint := c.endpoint.split }
    | .acknowledged,  .setupFailed =>
      if config.probes ∨ config.protocol ≠ .udp then none else
        some <| c.send aead json taken (.cancel config.id "UDP stream setup failed".toList) .fetching
    | .fetching,      .receive     => some <| c.receiveFetching aead json
    | .draining,      .receive     => some <| c.receiveDraining json
    | .running,       .receive     => if c.reading then some <| c.receiveRunning aead json else none
    | .running,       .cancel      =>
      some <| c.notify aead json taken (.cancel config.id "User requested cancellation".toList) .ended
    | .running,       .pause p     =>
      if config.supportsPause then some <| c.notify aead json taken (pauseMessage config p) .ended
      else some c
    | .running,       .finish      =>
      if config.finishOnBudget then some <| c.notify aead json taken (.finish config.id) .running else none
    | _,              .leave       => some <| c.goto .ended
    | _,              _            => none

end Client

namespace Handler

inductive Stage
  | awaitingStart
  | starting (id : Text)
  | running (id : Text)
  | ended
  deriving DecidableEq

inductive Event
  | receive
  -- One of the checks of the request fails.
  | reject (message : Text)
  | acknowledge
  -- The report loop encodes an interval, a cancelled message or the result.
  | report (message : Message)
  | leave
  deriving DecidableEq

end Handler

-- The server's task for a session, from the point on where its transport is installed.
structure Handler where
  stage    : Handler.Stage
  reading  : Bool
  endpoint : Endpoint

namespace Handler

variable (aead : Aead) (json : Json) (taken : Nat)

def start (transport : ProtectedControl) : Handler where
  stage    := .awaitingStart
  reading  := false
  endpoint := .start transport

def goto (s : Handler) (stage : Stage) : Handler :=
  { s with stage }

def send (s : Handler) (message : Message) (next : Stage) : Handler :=
  match json.serialize message with
  | none      => s.goto .ended
  | some text =>
    let (endpoint, sent) := s.endpoint.write aead taken text
    { s with endpoint, stage := if sent then next else .ended }

def receiveStart (s : Handler) : Handler :=
  match s.endpoint.read aead with
  | none                  => s.goto .ended
  | some (text, endpoint) =>
    match json.deserialize text with
    | none                   => { s with endpoint, stage := .ended }
    | some (.testStart id _) => { s with endpoint, stage := .starting id }
    | some _                 =>
      send aead json taken { s with endpoint } (.error "Expected test_start message".toList) .ended

-- A message which is no command is skipped.
def receiveRunning (s : Handler) : Handler :=
  match s.endpoint.read aead with
  | none                  => { s with reading := false }
  | some (text, endpoint) => { s with endpoint, reading := !(Utf8.trim text).isEmpty }

def acknowledge (s : Handler) (id : Text) : Handler :=
  let s := s.send aead json taken (.testAck id) (.running id)
  { s with reading := true, endpoint := s.endpoint.split }

def step : System Handler Event
  | s, e =>
    match s.stage, e with
    | .ended,         _               => none
    | .awaitingStart, .receive        => some <| s.receiveStart aead json taken
    | .starting _,    .reject message => some <| s.send aead json taken (.error message) .ended
    | .starting id,   .acknowledge    => some <| s.acknowledge aead json taken id
    | .running _,     .receive        =>
      if s.reading then some <| s.receiveRunning aead else none
    | .running id,    .report message => some <| s.send aead json taken message (.running id)
    | _,              .leave          => some <| s.goto .ended
    | _,              _               => none

end Handler

-- Both sides of a session. What one side reads is up to the network.
structure Session where
  client : Client
  server : Handler

namespace Session

-- A step of one side, with what its stream takes of a message which is written in it.
inductive Event
  | client (e : Client.Event) (taken : Nat)
  | server (e : Handler.Event) (taken : Nat)
  | deliverClient (fill : Bytes)
  | deliverServer (fill : Bytes)

-- Both sides install the codecs which they derived from the key and the nonces.
def start (c2s s2c : ControlCodec) : Session where
  client := .start (.protectedClient c2s s2c)
  server := .start (.protectedServer c2s s2c)

def step (aead : Aead) (json : Json) (config : ClientConfig) : System Session Event
  | s, .client e taken     => (s.client.step aead json config taken e).map ({ s with client := · })
  | s, .server e taken     => (s.server.step aead json taken e).map ({ s with server := · })
  | s, .deliverClient fill =>
    some { s with client := { s.client with endpoint := s.client.endpoint.deliver fill } }
  | s, .deliverServer fill =>
    some { s with server := { s.server with endpoint := s.server.endpoint.deliver fill } }

end Session
