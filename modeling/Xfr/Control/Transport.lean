import Xfr.Control.Codec
import Xfr.Library.Chunks
import Xfr.Library.Utf8

open Utf8 (Text)

def newline : UInt8 := 0x0A

-- What the buffered reader of a connection is going to yield: each fill of the buffer which is not
-- consumed yet, up to the end of the stream.
abbrev Fills := Chunks UInt8

inductive ReadError
  | lineTooLong
  | frameTooLarge (length : Nat)
  | unexpectedEof
  | codec (e : CodecError)
  deriving DecidableEq

def ReadError.message : ReadError → String
  | lineTooLong          => "Line exceeds maximum length"
  | frameTooLarge length => "protected frame too large: " ++ toString length ++ " bytes"
  | unexpectedEof        => "early eof"
  | codec e              => e.message

-- Reads up to and including the next newline. Each fill is converted to text on its own, and the
-- limit is checked on the bytes, before they are consumed.
def readLine (limit : Nat) : Fills → (total : Nat) → (line : Text) →
    Except ReadError (Text × Nat × Fills)
  | [],             total, line => .ok (line, total, [])
  | bytes :: fills, total, line =>
    match bytes.findIdx? (· = newline) with
    | some pos =>
      let toRead := pos + 1
      if total + toRead > limit then .error .lineTooLong else
        let line := line ++ Utf8.decodeLossy (bytes.take toRead)
        .ok (line, total + toRead, Chunks.drop toRead (bytes :: fills))
    | none =>
      let len := bytes.length
      if total + len > limit then .error .lineTooLong else
        readLine limit fills (total + len) (line ++ Utf8.decodeLossy bytes)

def readExact (n : Nat) (fills : Fills) : Except ReadError (Bytes × Fills) :=
  let bytes := (fills.take n).flatten
  if bytes.length < n then .error .unexpectedEof else .ok (bytes, fills.drop n)

-- Reads a length prefix, the frame of this length, and opens it.
def readFrame (aead : Aead) (recv : ControlCodec) (fills : Fills) :
    Except ReadError (Text × ControlCodec × Fills) := do
  let (prefixBytes, fills) ← readExact 4 fills
  let len := Bytes.ofBe prefixBytes
  if len > 1024 * 1024 then throw <| .frameTooLarge len
  let (payload, fills) ← readExact len fills
  match recv.openPayload aead payload with
  | (.ok plaintext, recv) => return (Utf8.decodeLossy plaintext, recv, fills)
  | (.error e, _)         => throw <| .codec e

def sealFrame (aead : Aead) (send : ControlCodec) (serialized : Text) :
    Except CodecError Bytes × ControlCodec :=
  match send.sealMessage aead (Utf8.encode serialized) with
  | (.ok payload, send) => (.ok (Bytes.toBe 4 payload.length ++ payload), send)
  | (.error e, send)    => (.error e, send)

def line (serialized : Text) : Bytes :=
  Utf8.encode serialized ++ [newline]

inductive ControlReader
  | plaintext
  | protectedBy (recv : ControlCodec)

def ControlReader.readMessage (aead : Aead) (fills : Fills) :
    ControlReader → Except ReadError (Text × ControlReader × Fills)
  | plaintext        => do
    let (text, _, fills) ← readLine (1024 * 1024) fills 0 []
    return (text, plaintext, fills)
  | protectedBy recv => do
    let (text, recv, fills) ← readFrame aead recv fills
    return (text, protectedBy recv, fills)

inductive ControlWriter
  | plaintext
  | protectedBy (send : ControlCodec)

-- Encodes one complete message without writing it. A protected frame takes up one sequence number.
def ControlWriter.encodeMessage (aead : Aead) (serialized : Text) :
    ControlWriter → Except CodecError Bytes × ControlWriter
  | plaintext        => (.ok (line serialized), plaintext)
  | protectedBy send =>
    let (frame, send) := sealFrame aead send serialized
    (frame, protectedBy send)

-- Control messages after the handshake are either lines of text or protected frames.
inductive ProtectedControl
  | plaintext
  | protectedBy (codecs : Codecs)

namespace ProtectedControl

def protectedClient (c2s s2c : ControlCodec) : ProtectedControl :=
  protectedBy (.protectedClient c2s s2c)

def protectedServer (c2s s2c : ControlCodec) : ProtectedControl :=
  protectedBy (.protectedServer c2s s2c)

def split : ProtectedControl → ControlReader × ControlWriter
  | plaintext          => (.plaintext, .plaintext)
  | protectedBy codecs => (.protectedBy codecs.recv, .protectedBy codecs.send)

def readMessage (aead : Aead) (fills : Fills) :
    ProtectedControl → Except ReadError (Text × ProtectedControl × Fills)
  | plaintext          => do
    let (text, _, fills) ← readLine (1024 * 1024) fills 0 []
    return (text, plaintext, fills)
  | protectedBy codecs => do
    let (text, recv, fills) ← readFrame aead codecs.recv fills
    return (text, protectedBy { codecs with recv }, fills)

def writeMessage (aead : Aead) (serialized : Text) :
    ProtectedControl → Except CodecError Bytes × ProtectedControl
  | plaintext          => (.ok (line serialized), plaintext)
  | protectedBy codecs =>
    let (frame, send) := sealFrame aead codecs.send serialized
    (frame, protectedBy { codecs with send })

end ProtectedControl

-- Lines of the handshake are read before there is a transport.
def MAX_LINE_LENGTH : Nat := 65536

def readBoundedLine (fills : Fills) : Except ReadError (Text × Nat × Fills) :=
  readLine MAX_LINE_LENGTH fills 0 []
