import Xfr.Handshake.Basic

open Utf8 (Text)

-- What a client was asked to do, as far as its handshake looks at it. Its nonce and the identifier of
-- its test are fresh.
structure ClientOptions where
  psk                : Option Text
  nonce              : Text
  id                 : Text
  protocol           : Protocol
  udpPayloadSize     : Option Nat
  mtuProbe           : Bool
  byteBudget         : Option Nat
  tcpCongestion      : Option Text
  validateCongestion : Text → Except Text Unit

namespace ClientOptions

-- The hello has a nonce exactly if there is a key.
def clientNonce (options : ClientOptions) : Option Text :=
  if options.psk.isSome then some options.nonce else none

def hello (options : ClientOptions) : Message :=
  match options.clientNonce with
  | some nonce => .clientHelloWithNonce nonce
  | none       => .clientHello

end ClientOptions

namespace Handshake

variable (crypto : Crypto) (json : Json) (options : ClientOptions)

def authRejectedError (message : Text) : Text :=
  if message = "Authentication failed".toList then
    "authentication failed: the server rejected the pre-shared key (check --psk/--psk-file)".toList
  else
    "authentication failed: ".toList ++ message

def pskRequiredError : Text :=
  "authentication failed: the server requires a pre-shared key (set --psk/--psk-file)".toList

def pskNotUsedError : Text :=
  "the server does not use a pre-shared key; ".toList ++
    "remove --psk/--psk-file or configure the server with one".toList

def incompatibleServerVersion (version : Text) : Text :=
  "Incompatible protocol version: ".toList ++ version ++ " (client: ".toList ++
    PROTOCOL_VERSION ++ ")".toList

-- What a feature needs of the server is checked before the test is started.
def ensureByteBudget (capabilities : Option (List Text)) : Handshake Unit :=
  ensure (options.byteBudget = none ∨ capabilityAdvertised capabilities BYTE_BUDGET_CAPABILITY)
    ("Server does not support byte-budget tests (byte_budget_v1 capability missing); " ++
      "upgrade the server to use -n/--bytes").toList

namespace TcpClient

-- Answers a challenge, and yields its nonce once the server has proved that it knows the key.
def authenticate (clientHelloJson rawServerHello : Text) (capabilities : Option (List Text)) :
    (auth : Option AuthChallenge) → Handshake (Option Text)
  | some challenge => do
    let psk ← orThrow options.psk pskRequiredError
    ensure (capabilityAdvertised capabilities PROTECTED_CONTROL_CAPABILITY)
      "Server does not support protected_control_v1 — refusing PSK session".toList
    let _ ← send json <| .authResponse (Auth.computeResponse crypto.hmac challenge.nonce psk)
    let read ← receiveLine none
    let line ← ofExcept id read
    match ← parse json line with
    | .authSuccess serverProof => do
      let clientNonce ← orThrow options.clientNonce
        "PSK session but client_nonce was not generated".toList
      let proof ← orThrow serverProof "PSK session requires server_proof in AuthSuccess".toList
      let verified ← ofExcept .codec <| ServerProof.verify crypto (Utf8.encode clientHelloJson)
        (Utf8.encode rawServerHello) clientNonce challenge.nonce psk proof
      ensure verified "Server proof verification failed — possible MITM".toList
      return some challenge.nonce
    | .error message => throw <| .text <| authRejectedError message
    | _              => throw <| .text "Unexpected auth response".toList
  | none => do
    ensure options.psk.isNone pskNotUsedError
    return none

def installTransport (serverNonce : Option Text) : Handshake ProtectedControl :=
  match options.psk with
  | none     => return .plaintext
  | some psk => do
    let clientNonce ← orThrow options.clientNonce "PSK session but no client_nonce".toList
    let serverNonce ← orThrow serverNonce "PSK session but no server nonce".toList
    let (c2s, s2c) ← ofExcept .codec <| ControlCodec.derivePair crypto.hkdf
      (Utf8.encode clientNonce) (Utf8.encode serverNonce) (Utf8.encode psk)
    return .protectedClient c2s s2c

def checkCongestion : Except Text Unit :=
  match options.protocol, options.tcpCongestion with
  | .tcp, some algo =>
    (options.validateCongestion algo).mapError fun e =>
      "Unsupported congestion control algorithm '".toList ++ algo ++ "': ".toList ++ e
  | _, _ => .ok ()

def startTest (capabilities : Option (List Text)) (transport : ProtectedControl) :
    Handshake ProtectedControl := do
  ensure (options.udpPayloadSize = none ∨ options.protocol ≠ .udp ∨
      capabilityAdvertised capabilities UDP_PAYLOAD_SIZE_CAPABILITY)
    ("Server does not support UDP payload sizes (udp_payload_size_v1 capability missing); " ++
      "upgrade the server to use -l/--length").toList
  ensure (!options.mtuProbe || capabilityAdvertised capabilities "mtu_probe_v1".toList)
    ("Server does not support MTU probing (mtu_probe_v1 capability missing); " ++
      "upgrade the server to use --probe-mtu").toList
  ensureByteBudget options capabilities
  ofExcept .text (checkCongestion options)
  sendProtected crypto.aead json transport (.testStart options.id options.protocol)

-- Everything up to where the channel may be protected. Yields the capabilities of the server and the
-- nonce of its challenge.
def greet : Handshake (Option (List Text) × Option Text) := do
  let clientHelloJson ← send json options.hello
  let read ← receiveLine none
  let line ← ofExcept id read
  let rawServerHello := Utf8.trim line
  match ← parse json line with
  | .hello version capabilities auth _ => do
    ensure (versionsCompatible version PROTOCOL_VERSION) (incompatibleServerVersion version)
    let serverNonce ←
      authenticate crypto json options clientHelloJson rawServerHello capabilities auth
    return (capabilities, serverNonce)
  | .error message => throw <| .text <| "Server error: ".toList ++ message
  | _              => throw <| .text "Unexpected response from server".toList

def runTest : Handshake ProtectedControl := do
  let (capabilities, serverNonce) ← greet crypto json options
  let transport ← installTransport crypto options serverNonce
  startTest crypto json options capabilities transport

end TcpClient

namespace QuicClient

-- Yields the key of the session along with the nonce.
def authenticate (clientHelloJson rawServerHello : Text) (capabilities : Option (List Text)) :
    (auth : Option AuthChallenge) → Handshake (Option Text × Option Bytes)
  | some challenge => do
    let psk ← orThrow options.psk pskRequiredError
    ensure (capabilityAdvertised capabilities PROTECTED_CONTROL_CAPABILITY)
      "Server does not support protected_control_v1 — refusing PSK session".toList
    ensure (capabilityAdvertised capabilities QUIC_CHANNEL_BINDING_CAPABILITY)
      "Server does not support quic_channel_binding_v1 — refusing QUIC PSK session".toList
    let sessionPsk ← ofExcept .sessionKey <| derivePskSessionKey crypto psk
    let _ ← send json <| .authResponse <|
      Auth.computeResponseWithKey crypto.hmac challenge.nonce sessionPsk
    let read ← receiveLine none
    let line ← ofExcept id read
    match ← parse json line with
    | .authSuccess serverProof => do
      let clientNonce ← orThrow options.clientNonce
        "PSK session but client_nonce was not generated".toList
      let proof ← orThrow serverProof "PSK session requires server_proof in AuthSuccess".toList
      let verified ← ofExcept .codec <| ServerProof.verifyWithKey crypto
        (Utf8.encode clientHelloJson) (Utf8.encode rawServerHello) clientNonce challenge.nonce
        sessionPsk proof
      ensure verified "Server proof verification failed — possible MITM".toList
      return (some challenge.nonce, some sessionPsk)
    | .error message => throw <| .text <| authRejectedError message
    | _              => throw <| .text "Unexpected auth response".toList
  | none => do
    ensure options.psk.isNone pskNotUsedError
    return (none, none)

def installTransport (serverNonce : Option Text) (quicSessionPsk : Option Bytes) :
    Handshake ProtectedControl :=
  match options.psk with
  | none   => return .plaintext
  | some _ => do
    let sessionPsk ← orThrow quicSessionPsk "QUIC PSK session key was not derived".toList
    let clientNonce ← orThrow options.clientNonce "PSK session but no client_nonce".toList
    let serverNonce ← orThrow serverNonce "PSK session but no server nonce".toList
    let (c2s, s2c) ← ofExcept .codec <| ControlCodec.derivePair crypto.hkdf
      (Utf8.encode clientNonce) (Utf8.encode serverNonce) sessionPsk
    return .protectedClient c2s s2c

def greet : Handshake (Option (List Text) × Option Text × Option Bytes) := do
  operate
  let clientHelloJson ← send json options.hello
  let read ← receiveLine none
  let line ← ofExcept id read
  let rawServerHello := Utf8.trim line
  match ← parse json line with
  | .hello version capabilities auth _ => do
    ensure (versionsCompatible version PROTOCOL_VERSION) (incompatibleServerVersion version)
    let (serverNonce, quicSessionPsk) ←
      authenticate crypto json options clientHelloJson rawServerHello capabilities auth
    return (capabilities, serverNonce, quicSessionPsk)
  | .error message => throw <| .text <| "Server error: ".toList ++ message
  | _              => throw <| .text "Unexpected response from server".toList

def runQuicSession : Handshake ProtectedControl := do
  let (capabilities, serverNonce, quicSessionPsk) ← greet crypto json options
  let transport ← installTransport crypto options serverNonce quicSessionPsk
  ensureByteBudget options capabilities
  sendProtected crypto.aead json transport (.testStart options.id .quic)

end QuicClient

end Handshake
