import Xfr.Control.Transport
import Xfr.Session.Message

open Utf8 (Text)

-- The control transport of one side, in one piece at first, and split once a task of its own reads.
inductive Control
  | whole (transport : ProtectedControl)
  | halves (reader : ControlReader) (writer : ControlWriter)

namespace Control

def split : Control → Control
  | whole transport      => let (reader, writer) := transport.split; halves reader writer
  | halves reader writer => halves reader writer

def write (aead : Aead) (text : Text) : Control → Except CodecError Bytes × Control
  | whole transport      =>
    let (frame, transport) := transport.writeMessage aead text
    (frame, whole transport)
  | halves reader writer =>
    let (frame, writer) := writer.encodeMessage aead text
    (frame, halves reader writer)

def read (aead : Aead) (fills : Fills) : Control → Except ReadError (Text × Control × Fills)
  | whole transport      => do
    let (text, transport, fills) ← transport.readMessage aead fills
    return (text, whole transport, fills)
  | halves reader writer => do
    let (text, reader, fills) ← reader.readMessage aead fills
    return (text, halves reader writer, fills)

end Control

-- A message which was handed to the stream, and how many bytes of its frame the stream has taken: a
-- write which fails or is given up leaves off in the middle, or has not even begun.
structure Sent where
  text  : Text
  frame : Bytes
  taken : Nat

namespace Sent

def bytes (w : Sent) : Bytes :=
  w.frame.take w.taken

def Whole (w : Sent) : Prop :=
  w.frame.length ≤ w.taken

instance {w : Sent} : Decidable w.Whole :=
  inferInstanceAs <| Decidable (_ ≤ _)

end Sent

-- One side of a control connection after the handshake. Next to the transport and what its buffered
-- reader is going to yield, we remember what was handed to the stream for each message, what was
-- taken from it for each message, and the lines which passed the transport by.
structure Endpoint where
  control  : Control
  inbox    : Fills
  written  : List Sent
  accepted : List (Text × Bytes)
  lines    : List Bytes

namespace Endpoint

def start (transport : ProtectedControl) : Endpoint where
  control  := .whole transport
  inbox    := []
  written  := []
  accepted := []
  lines    := []

def deliver (p : Endpoint) (fill : Bytes) : Endpoint :=
  { p with inbox := p.inbox ++ [fill] }

def split (p : Endpoint) : Endpoint :=
  { p with control := p.control.split }

-- What a reader took from the stream.
def consumed (p : Endpoint) (rest : Fills) : Bytes :=
  p.inbox.flatten.take (p.inbox.flatten.length - rest.flatten.length)

-- The number of the frame is used up even if the stream does not take it.
def write (aead : Aead) (taken : Nat) (p : Endpoint) (text : Text) : Endpoint × Bool :=
  match p.control.write aead text with
  | (.ok frame, control) =>
    let w : Sent := ⟨text, frame, taken⟩
    ({ p with control, written := p.written ++ [w] }, w.Whole)
  | (.error _, control)  => ({ p with control }, false)

def read (aead : Aead) (p : Endpoint) : Option (Text × Endpoint) :=
  match p.control.read aead p.inbox with
  | .error _                   => none
  | .ok (text, control, inbox) =>
    some (text, { p with control, inbox, accepted := p.accepted ++ [(text, p.consumed inbox)] })

-- Writing to and reading from the stream itself.
def writeLine (taken : Nat) (p : Endpoint) (text : Text) : Endpoint × Bool :=
  let w : Sent := ⟨text, line text, taken⟩
  if taken = 0 then
    (p, false)
  else
    ({ p with written := p.written ++ [w], lines := p.lines ++ [w.bytes] }, w.Whole)

def readLine (p : Endpoint) : Option (Text × Nat × Endpoint) :=
  match readBoundedLine p.inbox with
  | .error _             => none
  | .ok (text, n, inbox) =>
    let bytes := p.consumed inbox
    some (text, n, {
      p with
      inbox
      accepted := p.accepted ++ [(text, bytes)]
      lines    := p.lines ++ [bytes] })

end Endpoint
