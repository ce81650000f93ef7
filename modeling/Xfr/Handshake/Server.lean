import Xfr.Budget.Udp
import Xfr.Handshake.Basic

open Utf8 (Text)

-- What a test start asks for next to its identifier and protocol, as far as it is checked.
structure TestParameters where
  streams        : Nat
  congestion     : Option Text
  mtuProbe       : Bool
  udpPayloadSize : Option Nat

-- What a server knows when a connection arrives. Its nonce is fresh for each of them, and whether
-- the limiter and the semaphore let it in is decided in between.
structure SecurityContext where
  psk                : Option Text
  capabilities       : List Text
  nonce              : Text
  acquired           : Bool
  parameters         : Text → TestParameters
  validateCongestion : Text → Except Text Unit

namespace Handshake

def MAX_STREAMS : Nat := 128

variable (crypto : Crypto) (json : Json) (security : SecurityContext)

-- A client whose key does not match hangs up right after the hello. The mismatch is named instead.
def explainPskHangup {α : Type} (line : α → Text) (clientHasPsk serverHasPsk : Bool)
    (read : Except HandshakeError α) : Except HandshakeError α :=
  let hangup :=
    match read with
    | .error _ => true
    | .ok a    => line a = []
  match hangup, clientHasPsk, serverHasPsk with
  | true, false, true =>
    .error <| .text "authentication failed: the client sent no pre-shared key".toList
  | true, true, false =>
    .error <| .text <| "the client uses a pre-shared key but this server does not; ".toList ++
      "configure the server with --psk/--psk-file or remove it from the client".toList
  | _, _, _ => read

def incompatibleVersion (version : Text) : Text :=
  "Incompatible protocol version: ".toList ++ version ++ " (server: ".toList ++
    PROTOCOL_VERSION ++ ")".toList

-- The first line is read byte by byte, so that nothing behind it is taken.
def readFirstLineUnbuffered (maxLen : Nat) :
    Bytes → (line : Bytes) → Except HandshakeError (Text × Bytes)
  | [],         _    => .error <| .text "Connection closed".toList
  | b :: bytes, line =>
    if b = newline then .ok (Utf8.decodeLossy line, bytes) else
      let line := line ++ [b]
      if line.length ≥ maxLen then
        .error <| .text <| "Line exceeds maximum length of ".toList ++ (toString maxLen).toList ++
          " bytes".toList
      else
        readFirstLineUnbuffered maxLen bytes line

def checkStreams (streams : Nat) : Except (Text × Text) Unit :=
  if 1 ≤ streams ∧ streams ≤ MAX_STREAMS then .ok () else
    .error ("Invalid stream count ".toList ++ (toString streams).toList ++ " (must be 1-".toList ++
      (toString MAX_STREAMS).toList ++ ")".toList, "Invalid stream count".toList)

namespace TcpServer

def checkPayloadSize (protocol : Protocol) (p : TestParameters) : Except (Text × Text) Unit :=
  let validation : Except String Unit :=
    match p.udpPayloadSize with
    | none      => .ok ()
    | some size =>
      if protocol ≠ .udp ∨ p.mtuProbe then
        .error "UDP payload size requires a UDP throughput test"
      else
        (validatePayloadSize size).map fun _ => ()
  validation.mapError fun e => (e.toList, e.toList)

def checkCongestion (protocol : Protocol) (p : TestParameters) : Except (Text × Text) Unit :=
  match protocol, p.congestion with
  | .tcp, some algo =>
    (security.validateCongestion algo).mapError fun e =>
      ("Unsupported congestion control algorithm '".toList ++ algo ++ "': ".toList ++ e,
        "Invalid congestion algorithm".toList)
  | _, _ => .ok ()

def writeAckOrCleanup (id : Text) (transport : ProtectedControl) : Handshake Unit :=
  match json.serialize (.testAck id) with
  | none      => do
    record (.removed id)
    throw .json
  | some text =>
    match transport.writeMessage crypto.aead text with
    | (.error e, _) => do
      record (.removed id)
      throw <| .codec e
    | (.ok _, _)    => do
      record <| .sent text (.testAck id)
      match ← fault with
      | some (.io e) => do
        record (.removed id)
        throw <| .io e
      | _            => return

-- The test is registered before it is acknowledged, since its data connections may follow at once.
-- Setting up its ports may fail before.
def runTest (id : Text) (protocol : Protocol) (transport : ProtectedControl) : Handshake Unit := do
  ensure (protocol ≠ .quic) "QUIC protocol requires QUIC endpoint, not TCP control".toList
  operate
  record (.registered id)
  writeAckOrCleanup crypto json id transport

def handleTestRequest (clientHasPsk : Bool) (transport : ProtectedControl) : Handshake Unit := do
  let read ← receive crypto.aead transport (some "Handshake timeout waiting for test start")
  let (line, transport) ←
    ofExcept id <| explainPskHangup Prod.fst clientHasPsk security.psk.isSome read
  match ← parse json line with
  | .testStart id protocol => do
    let p := security.parameters (Utf8.trim line)
    refuseProtectedOn crypto.aead json transport (checkPayloadSize protocol p)
    refuseProtectedOn crypto.aead json transport (checkStreams p.streams)
    refuseProtectedOn crypto.aead json transport (checkCongestion security protocol p)
    runTest crypto json id protocol transport
  | _ =>
    refuseProtected crypto.aead json transport "Expected test_start message".toList
      "Expected test_start".toList

-- Answers the hello. With a key, the nonce of the challenge is yielded and the hello as it was sent.
def answerHello (firstMsg : Message) : Handshake (Option (Text × Text) × Option Text) :=
  match firstMsg with
  | .hello version capabilities _ clientNonce => do
    refuseUnless json (versionsCompatible version PROTOCOL_VERSION) (incompatibleVersion version)
      "Protocol version mismatch".toList
    match security.psk with
    | some _ => do
      refuseUnless json (capabilityAdvertised capabilities PROTECTED_CONTROL_CAPABILITY)
        "PSK authentication requires protected_control_v1 capability".toList
        "Client lacks protected_control_v1 — refusing PSK session".toList
      let serverHelloJson ← send json <|
        .serverHelloWithAuthAndCapabilities security.nonce security.capabilities
      return (some (security.nonce, serverHelloJson), clientNonce)
    | none   => do
      let _ ← send json <| .serverHelloWithCapabilities security.capabilities
      return (none, clientNonce)
  | _ => throw <| .text "Expected Hello message".toList

def authenticate (rawClientHello : Text) (clientNonce : Option Text) :
    (authNonce : Option (Text × Text)) → Handshake ProtectedControl
  | none                          => return .plaintext
  | some (nonce, serverHelloJson) => do
    let read ← receiveLine (some "Handshake timeout waiting for auth")
    let line ← ofExcept id <| explainPskHangup id clientNonce.isSome true read
    match ← parse json line with
    | .authResponse response => do
      let psk ← orThrow security.psk "PSK required for authentication but not configured".toList
      refuseUnless json (Auth.verifyResponse crypto.hmac nonce psk response)
        "Authentication failed".toList
        "authentication failed: PSK mismatch (the client sent a different pre-shared key)".toList
      let clientNonce ← orThrow clientNonce
        "PSK session requires client_nonce in Hello for protected control".toList
      let (c2s, s2c) ← ofExcept .codec <| ControlCodec.derivePair crypto.hkdf
        (Utf8.encode clientNonce) (Utf8.encode nonce) (Utf8.encode psk)
      -- The proof is over the lines as they were received and sent.
      let serverProof ← ofExcept .codec <| ServerProof.compute crypto
        (Utf8.encode rawClientHello) (Utf8.encode serverHelloJson) clientNonce nonce psk
      let _ ← send json (.authSuccess (some serverProof))
      return .protectedServer c2s s2c
    | _ => refuse json "Expected auth response".toList "Expected auth response".toList

def handleClientWithFirstMessage (firstMsg : Message) (rawClientHello : Text) :
    Handshake Unit := do
  let (authNonce, clientNonce) ← answerHello json security firstMsg
  let transport ← authenticate crypto json security rawClientHello clientNonce authNonce
  handleTestRequest crypto json security clientNonce.isSome transport

def handleNewConnection : Handshake Unit := do
  let line ← read (some "Initial read timeout") fun fills => do
    let (line, rest) ← readFirstLineUnbuffered MAX_LINE_LENGTH fills.flatten []
    return (line, fills.drop (fills.flatten.length - rest.length))
  let line ← ofExcept id line
  let msg ← parse json line
  match msg with
  -- Data connections are routed to their tests.
  | .dataHello _ => return
  | .hello ..    =>
    if security.acquired then handleClientWithFirstMessage crypto json security msg line else return
  | _            => return

end TcpServer

namespace QuicServer

def checkPayloadSize (p : TestParameters) : Except (Text × Text) Unit :=
  if p.udpPayloadSize = none then .ok () else
    .error ("UDP payload size requires a UDP throughput test".toList,
      "UDP payload size requested for QUIC".toList)

def checkProtocol (protocol : Protocol) : Except (Text × Text) Unit :=
  if protocol = .quic then .ok () else
    .error ("Expected QUIC protocol for QUIC connection".toList, "Protocol mismatch".toList)

-- Here, the test is acknowledged before it is registered.
def runQuicTest (id : Text) : Handshake Unit :=
  record (.registered id)

def handleTestRequest (clientHasPsk : Bool) (transport : ProtectedControl) : Handshake Unit := do
  let read ← receive crypto.aead transport (some "Handshake timeout waiting for test start")
  let (line, transport) ←
    ofExcept id <| explainPskHangup Prod.fst clientHasPsk security.psk.isSome read
  match ← parse json line with
  | .testStart id protocol => do
    let p := security.parameters (Utf8.trim line)
    refuseProtectedOn crypto.aead json transport (checkPayloadSize p)
    refuseProtectedOn crypto.aead json transport (checkProtocol protocol)
    refuseProtectedOn crypto.aead json transport (checkStreams p.streams)
    let _ ← sendProtected crypto.aead json transport (.testAck id)
    runQuicTest id
  | _ =>
    refuseProtected crypto.aead json transport "Expected test_start message".toList
      "Expected test_start".toList

def answerHello (msg : Message) : Handshake (Option (Text × Text) × Option Text) :=
  match msg with
  | .hello version capabilities _ clientNonce => do
    refuseUnless json (versionsCompatible version PROTOCOL_VERSION) (incompatibleVersion version)
      "Protocol version mismatch".toList
    match security.psk with
    | some _ => do
      refuseUnless json (capabilityAdvertised capabilities PROTECTED_CONTROL_CAPABILITY)
        "PSK authentication requires protected_control_v1 capability".toList
        "Client lacks protected_control_v1 — refusing PSK session".toList
      refuseUnless json (capabilityAdvertised capabilities QUIC_CHANNEL_BINDING_CAPABILITY)
        "QUIC PSK authentication requires quic_channel_binding_v1 capability".toList
        "Client lacks quic_channel_binding_v1 — refusing QUIC PSK session".toList
      let serverHelloJson ← send json <|
        .serverHelloWithAuthAndCapabilities security.nonce security.capabilities
      return (some (security.nonce, serverHelloJson), clientNonce)
    | none   => do
      let _ ← send json <| .serverHelloWithCapabilities security.capabilities
      return (none, clientNonce)
  | _ => refuse json "Expected hello message".toList "Expected hello message".toList

def authenticate (quicSessionPsk : Option Bytes) (rawClientHello : Text)
    (clientNonce : Option Text) : (authNonce : Option (Text × Text)) → Handshake ProtectedControl
  | none                          => return .plaintext
  | some (nonce, serverHelloJson) => do
    let read ← receiveLine (some "Handshake timeout waiting for auth")
    let line ← ofExcept id <| explainPskHangup id clientNonce.isSome true read
    match ← parse json line with
    | .authResponse response => do
      let sessionPsk ← orThrow quicSessionPsk "QUIC PSK session key was not derived".toList
      refuseUnless json (Auth.verifyResponseWithKey crypto.hmac nonce sessionPsk response)
        "Authentication failed".toList
        "authentication failed: PSK mismatch (the client sent a different pre-shared key)".toList
      let clientNonce ← orThrow clientNonce
        "PSK session requires client_nonce in Hello for protected control".toList
      let (c2s, s2c) ← ofExcept .codec <| ControlCodec.derivePair crypto.hkdf
        (Utf8.encode clientNonce) (Utf8.encode nonce) sessionPsk
      let serverProof ← ofExcept .codec <| ServerProof.computeWithKey crypto
        (Utf8.encode rawClientHello) (Utf8.encode serverHelloJson) clientNonce nonce sessionPsk
      let _ ← send json (.authSuccess (some serverProof))
      return .protectedServer c2s s2c
    | _ => refuse json "Expected auth response".toList "Expected auth response".toList

def handleQuicClient : Handshake Unit := do
  let quicSessionPsk ← ofExcept .sessionKey <| security.psk.mapM (derivePskSessionKey crypto)
  let stream ← read (some "Handshake timeout waiting for control stream") fun fills => .ok ((), fills)
  ofExcept id stream
  let line ← receiveLine (some "Handshake timeout waiting for hello")
  let line ← ofExcept id line
  let rawClientHello := Utf8.trim line
  let msg ← parse json line
  let (authNonce, clientNonce) ← answerHello json security msg
  let transport ←
    authenticate crypto json quicSessionPsk rawClientHello clientNonce authNonce
  handleTestRequest crypto json security clientNonce.isSome transport

end QuicServer

end Handshake
