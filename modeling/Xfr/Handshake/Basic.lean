import Mathlib
import Xfr.Control.Transport
import Xfr.Handshake.Auth
import Xfr.Library.Whitespace

open Utf8 (Text)
open Std.Do

set_option mvcgen.warning false

-- Errors keep the texts of the source. The text of a broken stream is up to the system.
inductive HandshakeError
  | text (message : Text)
  | io (message : Text)
  | json
  | read (e : ReadError)
  | codec (e : CodecError)
  | sessionKey (e : SessionKeyError)
  | payloadSize (message : String)

namespace Handshake

-- What happens in a handshake, in order. A message is heard once its text is accepted.
inductive Event
  | sent (text : Text) (message : Message)
  | heard (text : Text) (message : Message)
  | registered (id : Text)
  | removed (id : Text)
  deriving DecidableEq

inductive Fault
  | timeout
  | io (message : Text)

-- One side of a control connection: what its reader is going to yield, and which operations of the
-- stream are going to fail.
structure Wire where
  inbox  : Fills
  faults : List (Option Fault)
  trace  : List Event

def Wire.start (inbox : Fills) (faults : List (Option Fault)) : Wire where
  inbox  := inbox
  faults := faults
  trace  := []

end Handshake

abbrev Handshake := ExceptT HandshakeError (StateM Handshake.Wire)

namespace Handshake

section Operations

variable {α : Type}

def record (e : Event) : Handshake Unit :=
  modify fun w => { w with trace := w.trace ++ [e] }

-- Every operation of the stream may fail.
def fault : Handshake (Option Fault) :=
  modifyGet fun w => (w.faults.head?.join, { w with faults := w.faults.tail })

def operate : Handshake Unit := do
  match ← fault with
  | some (.io e) => throw <| .io e
  | _            => return

-- The time to read is limited in some places. Reaching the limit is reported on its own, the other
-- errors are left to the caller.
def read (limit : Option String) (next : Fills → Except HandshakeError (α × Fills)) :
    Handshake (Except HandshakeError α) := do
  match ← fault, limit with
  | some .timeout, some limit => throw <| .text limit.toList
  | some (.io e), _           => return .error <| .io e
  | _, _                      =>
    let w ← get
    match next w.inbox with
    | .error e       => return .error e
    | .ok (a, inbox) => do
      set { w with inbox }
      return .ok a

-- A message may have arrived even if writing it fails.
def write (text : Text) (message : Message) : Handshake Unit := do
  record <| .sent text message
  operate

def orThrow (a : Option α) (message : Text) : Handshake α :=
  match a with
  | none   => throw <| .text message
  | some a => return a

def ofExcept {ε : Type} (error : ε → HandshakeError) (r : Except ε α) : Handshake α :=
  match r with
  | .error e => throw <| error e
  | .ok a    => return a

def ensure (ok : Bool) (message : Text) : Handshake Unit :=
  if ok then return else throw <| .text message

end Operations

section Messages

variable (aead : Aead) (json : Json) {α : Type}

def receiveLine (limit : Option String) : Handshake (Except HandshakeError Text) :=
  read limit fun fills => do
    let (line, _, fills) ← (readBoundedLine fills).mapError .read
    return (line, fills)

def receive (transport : ProtectedControl) (limit : Option String) :
    Handshake (Except HandshakeError (Text × ProtectedControl)) :=
  read limit fun fills => do
    let (line, transport, fills) ← (transport.readMessage aead fills).mapError .read
    return ((line, transport), fills)

def parse (line : Text) : Handshake Message :=
  match json.deserialize (Utf8.trim line) with
  | none         => throw .json
  | some message => do
    record <| .heard (Utf8.trim line) message
    return message

-- Sends a line, and yields what was written.
def send (message : Message) : Handshake Text :=
  match json.serialize message with
  | none      => throw .json
  | some text => do
    write text message
    return text

def sendProtected (transport : ProtectedControl) (message : Message) :
    Handshake ProtectedControl :=
  match json.serialize message with
  | none      => throw .json
  | some text =>
    match transport.writeMessage aead text with
    | (.error e, _)      => throw <| .codec e
    | (.ok _, transport) => do
      write text message
      return transport

-- The other side is told what is wrong, and the connection is given up.
def refuse (message error : Text) : Handshake α := do
  let _ ← send json (.error message)
  throw <| .text error

def refuseUnless (ok : Bool) (message error : Text) : Handshake Unit :=
  if ok then return else refuse json message error

def refuseProtected (transport : ProtectedControl) (message error : Text) : Handshake α := do
  let _ ← sendProtected aead json transport (.error message)
  throw <| .text error

-- What fails a check comes with what the other side is told, and with the error.
def refuseProtectedOn (transport : ProtectedControl) (check : Except (Text × Text) Unit) :
    Handshake Unit :=
  match check with
  | .ok ()                  => return
  | .error (message, error) => refuseProtected aead json transport message error

end Messages

section Specs

variable {aead : Aead} {json : Json} {α : Type} {t : List Event}

@[spec]
theorem record_spec {e : Event} :
    ⦃fun w => ⌜w.trace = t⌝⦄ record e
    ⦃post⟨fun _ w => ⌜w.trace = t ++ [e]⌝, fun _ _ => ⌜False⌝⟩⦄ := by
  mvcgen [record]
  case vc1 h _ => exact congrArg (· ++ [e]) h

@[spec]
theorem fault_spec :
    ⦃fun w => ⌜w.trace = t⌝⦄ fault ⦃post⟨fun _ w => ⌜w.trace = t⌝, fun _ _ => ⌜False⌝⟩⦄ := by
  mvcgen [fault]

@[spec]
theorem operate_spec :
    ⦃fun w => ⌜w.trace = t⌝⦄ operate
    ⦃post⟨fun _ w => ⌜w.trace = t⌝, fun _ w => ⌜w.trace = t⌝⟩⦄ := by
  mvcgen [operate] <;> simp_all

@[spec]
theorem read_spec {limit : Option String} {next : Fills → Except HandshakeError (α × Fills)} :
    ⦃fun w => ⌜w.trace = t⌝⦄ read limit next
    ⦃post⟨fun _ w => ⌜w.trace = t⌝, fun _ w => ⌜w.trace = t⌝⟩⦄ := by
  mvcgen [read] <;> simp_all

@[spec]
theorem write_spec {text : Text} {message : Message} :
    ⦃fun w => ⌜w.trace = t⌝⦄ write text message
    ⦃post⟨fun _ w => ⌜w.trace = t ++ [.sent text message]⌝,
      fun _ w => ⌜w.trace = t ++ [.sent text message]⌝⟩⦄ := by
  mvcgen [write]
  simp_all

@[spec]
theorem orThrow_spec {a : Option α} {message : Text} :
    ⦃fun w => ⌜w.trace = t⌝⦄ orThrow a message
    ⦃post⟨fun b w => ⌜a = some b ∧ w.trace = t⌝, fun _ w => ⌜w.trace = t⌝⟩⦄ := by
  mvcgen [orThrow]

@[spec]
theorem ofExcept_spec {ε : Type} {error : ε → HandshakeError} {r : Except ε α} :
    ⦃fun w => ⌜w.trace = t⌝⦄ ofExcept error r
    ⦃post⟨fun a w => ⌜r = .ok a ∧ w.trace = t⌝, fun _ w => ⌜w.trace = t⌝⟩⦄ := by
  mvcgen [ofExcept]

@[spec]
theorem ensure_spec {ok : Bool} {message : Text} :
    ⦃fun w => ⌜w.trace = t⌝⦄ ensure ok message
    ⦃post⟨fun _ w => ⌜ok = true ∧ w.trace = t⌝, fun _ w => ⌜w.trace = t⌝⟩⦄ := by
  mvcgen [ensure]

@[spec]
theorem receiveLine_spec {limit : Option String} :
    ⦃fun w => ⌜w.trace = t⌝⦄ receiveLine limit
    ⦃post⟨fun _ w => ⌜w.trace = t⌝, fun _ w => ⌜w.trace = t⌝⟩⦄ :=
  read_spec

@[spec]
theorem receive_spec {transport : ProtectedControl} {limit : Option String} :
    ⦃fun w => ⌜w.trace = t⌝⦄ receive aead transport limit
    ⦃post⟨fun _ w => ⌜w.trace = t⌝, fun _ w => ⌜w.trace = t⌝⟩⦄ :=
  read_spec

@[spec]
theorem parse_spec {line : Text} :
    ⦃fun w => ⌜w.trace = t⌝⦄ parse json line
    ⦃post⟨fun m w => ⌜json.deserialize (Utf8.trim line) = some m ∧
        w.trace = t ++ [.heard (Utf8.trim line) m]⌝,
      fun _ w => ⌜w.trace = t⌝⟩⦄ := by
  mvcgen [parse]
  simp_all

@[spec]
theorem send_spec {message : Message} :
    ⦃fun w => ⌜w.trace = t⌝⦄ send json message
    ⦃post⟨fun text w => ⌜json.serialize message = some text ∧
        w.trace = t ++ [.sent text message]⌝,
      fun _ w => ⌜w.trace = t ∨ ∃ text, w.trace = t ++ [.sent text message]⌝⟩⦄ := by
  mvcgen [send] <;> simp_all

@[spec]
theorem sendProtected_spec {transport : ProtectedControl} {message : Message} :
    ⦃fun w => ⌜w.trace = t⌝⦄ sendProtected aead json transport message
    ⦃post⟨fun _ w => ⌜∃ text, w.trace = t ++ [.sent text message]⌝,
      fun _ w => ⌜w.trace = t ∨ ∃ text, w.trace = t ++ [.sent text message]⌝⟩⦄ := by
  mvcgen [sendProtected] <;> simp_all

@[spec]
theorem refuse_spec {message error : Text} :
    ⦃fun w => ⌜w.trace = t⌝⦄ (refuse json message error : Handshake α)
    ⦃post⟨fun _ _ => ⌜False⌝,
      fun _ w => ⌜w.trace = t ∨ ∃ text, w.trace = t ++ [.sent text (.error message)]⌝⟩⦄ := by
  mvcgen [refuse] <;> simp_all

@[spec]
theorem refuseUnless_spec {ok : Bool} {message error : Text} :
    ⦃fun w => ⌜w.trace = t⌝⦄ refuseUnless json ok message error
    ⦃post⟨fun _ w => ⌜ok = true ∧ w.trace = t⌝,
      fun _ w => ⌜w.trace = t ∨ ∃ text, w.trace = t ++ [.sent text (.error message)]⌝⟩⦄ := by
  mvcgen [refuseUnless] <;> simp_all

@[spec]
theorem refuseProtected_spec {transport : ProtectedControl} {message error : Text} :
    ⦃fun w => ⌜w.trace = t⌝⦄ (refuseProtected aead json transport message error : Handshake α)
    ⦃post⟨fun _ _ => ⌜False⌝,
      fun _ w => ⌜w.trace = t ∨ ∃ text, w.trace = t ++ [.sent text (.error message)]⌝⟩⦄ := by
  mvcgen [refuseProtected] <;> simp_all

@[spec]
theorem refuseProtectedOn_spec {transport : ProtectedControl} {check : Except (Text × Text) Unit} :
    ⦃fun w => ⌜w.trace = t⌝⦄ refuseProtectedOn aead json transport check
    ⦃post⟨fun _ w => ⌜w.trace = t⌝,
      fun _ w => ⌜w.trace = t ∨ ∃ text message, w.trace = t ++ [.sent text (.error message)]⌝⟩⦄ := by
  mvcgen [refuseProtectedOn]
  all_goals grind

end Specs

end Handshake
