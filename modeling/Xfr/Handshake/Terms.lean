import Xfr.Handshake.Running

open Utf8 (Text)

-- How a server answers the hello of a client.
def SecurityContext.greeting (security : SecurityContext) : Message :=
  if security.psk.isSome then security.challenge else
    .serverHelloWithCapabilities security.capabilities

namespace Handshake

-- The texts of the messages of a handshake.
structure Script where
  hello    : Text
  greeting : Text
  response : Text
  success  : Text
  start    : Text
  ack      : Text

-- What each side says is understood on the other side. Whether a server has single-port UDP depends on
-- its system.
structure Understood (json : Json) (options : ClientOptions) (protocol : Protocol)
    (security : SecurityContext) (script : Script) : Prop where
  hello    : Carries json options.hello script.hello
  greeting : Carries json security.greeting script.greeting
  start    : Carries json (.testStart options.id protocol) script.start
  ack      : Carries json (.testAck options.id) script.ack
  features : ∀ name ∈ SUPPORTED_CAPABILITIES, name ≠ SINGLE_PORT_UDP_CAPABILITY →
               name ∈ security.capabilities

-- What a client with a key responds to a challenge.
abbrev responseTo (crypto : Crypto) (security : SecurityContext) (key : Bytes) : Message :=
  .authResponse (Auth.computeResponseWithKey crypto.hmac security.nonce key)

-- Both sides have the same key, and what is derived from it.
structure Keyed (crypto : Crypto) (json : Json) (options : ClientOptions)
    (security : SecurityContext) (script : Script) (key : Bytes) (proof : Text)
    (keys : ControlCodec × ControlCodec) : Prop where
  response : Carries json (responseTo crypto security key) script.response
  success  : Carries json (.authSuccess (some proof)) script.success
  proof    : ServerProof.computeWithKey crypto (Utf8.encode script.hello)
               (Utf8.encode script.greeting) options.nonce security.nonce key = .ok proof
  derived  : ControlCodec.derivePair crypto.hkdf (Utf8.encode options.nonce)
               (Utf8.encode security.nonce) key = .ok keys
  encrypts : ∀ c ∈ [keys.1, keys.2], ∀ msg : Bytes, msg.length < MAX_LINE_LENGTH →
               ∃ ciphertext, crypto.aead.encrypt c.key c.nonce c.aad msg = some ciphertext

variable {crypto : Crypto} {json : Json} {options : ClientOptions} {protocol : Protocol}
  {security : SecurityContext} {script : Script} {key : Bytes} {proof psk name : Text}
  {keys : ControlCodec × ControlCodec} {c r : ControlCodec}

theorem hello_offers : options.hello =
    .hello PROTOCOL_VERSION (some SUPPORTED_CAPABILITIES) none options.clientNonce := by
  unfold ClientOptions.hello
  split
  case h_1 h => rw [h]; rfl
  case h_2 h => rw [h]; rfl

theorem clientNonce_keyed (h : options.psk = some psk) :
    options.clientNonce = some options.nonce := by
  rw [ClientOptions.clientNonce, h]
  rfl

theorem clientNonce_keyless (h : options.psk = none) : options.clientNonce = none := by
  rw [ClientOptions.clientNonce, h]
  rfl

theorem greeting_keyed (h : security.psk = some psk) : security.greeting =
    .serverHelloWithAuthAndCapabilities security.nonce security.capabilities := by
  rw [SecurityContext.greeting, h]
  rfl

theorem greeting_keyless (h : security.psk = none) :
    security.greeting = .serverHelloWithCapabilities security.capabilities := by
  rw [SecurityContext.greeting, h]
  rfl

theorem Understood.advertises (u : Understood json options protocol security script)
    (h : name ∈ SUPPORTED_CAPABILITIES ∧ name ≠ SINGLE_PORT_UDP_CAPABILITY) :
    capabilityAdvertised (some security.capabilities) name = true := by
  simpa [capabilityAdvertised] using u.features name h.left h.right

theorem verifyWithKey_computed {clientHello serverHello : Bytes} {clientNonce serverNonce : Text}
    (h : ServerProof.computeWithKey crypto clientHello serverHello clientNonce serverNonce key =
      .ok proof) :
    ServerProof.verifyWithKey crypto clientHello serverHello clientNonce serverNonce key proof =
      .ok true := by
  rw [ServerProof.verifyWithKey, h]
  exact congrArg Except.ok (constantTimeEq_iff.mpr rfl)

theorem verifyResponseWithKey_computed {nonce : Text} :
    Auth.verifyResponseWithKey crypto.hmac nonce key
      (Auth.computeResponseWithKey crypto.hmac nonce key) = true :=
  constantTimeEq_iff.mpr rfl

namespace Keyed

variable (k : Keyed crypto json options security script key proof keys)
include k

theorem seq (h : c ∈ [keys.1, keys.2]) : c.seq = 0 := by
  obtain ⟨h₁, h₂⟩ := Channel.derivePair_eq k.derived
  rcases List.mem_pair.mp h with rfl | rfl
  case inl => rw [h₁]; rfl
  case inr => rw [h₂]; rfl

theorem writes (h : c ∈ [keys.1, keys.2]) :
    ProtectedControl.Writes crypto.aead (.protectedBy ⟨c, r⟩) := by
  intro text hl
  obtain ⟨ciphertext, he⟩ := k.encrypts c h (Utf8.encode text) hl
  have ha : c.advance = some { c with seq := c.seq + 1 } :=
    ControlCodec.advance_eq_some_iff.mpr ⟨by rw [k.seq h]; decide, rfl⟩
  have hs := ControlCodec.sealMessage_eq_ok_iff.mpr ⟨ha, ciphertext, he, rfl⟩
  simp only [ProtectedControl.writeMessage, sealFrame, hs]
  exact ⟨_, rfl⟩

end Keyed
end Handshake
