import Xfr.Handshake.Server
import Xfr.Library.Trace

open Utf8 (Text)
open Std.Do

set_option mvcgen.warning false

-- The hello of a server with a key.
def SecurityContext.challenge (security : SecurityContext) : Message :=
  .serverHelloWithAuthAndCapabilities security.nonce security.capabilities

namespace Handshake

variable (crypto : Crypto) (json : Json) (security : SecurityContext)

-- The hello of the client is accepted and answered with a challenge. A handshake is told by the text
-- of each message and by the message.
inductive Greeted (required : List Text) (raw : Text) (clientNonce : Option Text) :
    (authNonce : Option (Text × Text)) → List Event → Prop
  | intro {challenge version : Text} {capabilities : Option (List Text)}
    {offered : Option AuthChallenge} :
    json.deserialize (Utf8.trim raw) = some (.hello version capabilities offered clientNonce) →
    json.serialize security.challenge = some challenge →
    versionsCompatible version PROTOCOL_VERSION = true →
    (∀ name ∈ required, capabilityAdvertised capabilities name = true) →
    Greeted required raw clientNonce (some (security.nonce, challenge))
      [.heard (Utf8.trim raw) (.hello version capabilities offered clientNonce),
        .sent challenge security.challenge]

-- The client passed all checks up to its response.
inductive Admitted (required : List Text) (key : Bytes) : List Event → Prop
  | intro {hello challenge auth version clientNonce response : Text}
    {capabilities : Option (List Text)} {offered : Option AuthChallenge} {rest : List Event} :
    versionsCompatible version PROTOCOL_VERSION = true →
    (∀ name ∈ required, capabilityAdvertised capabilities name = true) →
    Auth.verifyResponseWithKey crypto.hmac security.nonce key response = true →
    Admitted required key
      (.heard hello (.hello version capabilities offered (some clientNonce)) ::
        .sent challenge security.challenge :: .heard auth (.authResponse response) :: rest)

-- The proof is over both hellos, as the server received and sent them.
inductive Proved (required : List Text) (key : Bytes) (proof : Text) : List Event → Prop
  | intro {raw challenge clientNonce auth response : Text} {greeting : List Event} :
    Greeted json security required raw (some clientNonce) (some (security.nonce, challenge))
      greeting →
    ServerProof.computeWithKey crypto (Utf8.encode raw) (Utf8.encode challenge) clientNonce
      security.nonce key = .ok proof →
    Proved required key proof (greeting ++ [.heard auth (.authResponse response)])

-- What a server does once it trusts the client.
def Event.Gated : Event → Prop
  | .registered _         => True
  | .sent _ (.testAck _)  => True
  | _                     => False

def serverMay (required : List Text) (key : Bytes) (before : List Event) : Event → Prop
  | .registered _                     => Admitted crypto security required key before
  | .sent _ (.testAck _)              => Admitted crypto security required key before
  | .sent _ (.authSuccess (some p))   => Proved crypto json security required key p before
  | _                                 => True

def Event.isProof : Event → Bool
  | .sent _ (.authSuccess (some _)) => true
  | _                               => false

-- A server without a key has nothing to prove.
def Proofless (t : List Event) : Prop :=
  ∀ e ∈ t, e.isProof = false

variable {crypto : Crypto} {json : Json} {security : SecurityContext} {required : List Text}
  {key : Bytes} {t : List Event}

theorem proofless_nil : Proofless [] :=
  fun _ h => by simp at h

theorem proofless_concat_iff {e : Event} :
    Proofless (t ++ [e]) ↔ Proofless t ∧ e.isProof = false := by
  simp [Proofless, or_imp, forall_and]

namespace Greeted

variable {raw challenge auth response : Text} {clientNonce : Option Text}
  {authNonce : Option (Text × Text)}

theorem of_sent {version : Text} {capabilities : Option (List Text)}
    {offered : Option AuthChallenge}
    (hd : json.deserialize (Utf8.trim raw) =
      some (.hello version capabilities offered clientNonce))
    (hs : json.serialize security.challenge = some challenge)
    (hv : versionsCompatible version PROTOCOL_VERSION = true)
    (hc : required.all (capabilityAdvertised capabilities) = true)
    (ht : t = [.heard (Utf8.trim raw) (.hello version capabilities offered clientNonce)] ++
      [.sent challenge security.challenge]) :
    Greeted json security required raw clientNonce (some (security.nonce, challenge)) t :=
  ht ▸ .intro hd hs hv (List.all_eq_true.mp hc)

theorem authNonce_eq (g : Greeted json security required raw clientNonce authNonce t) :
    ∃ challenge, authNonce = some (security.nonce, challenge) := by
  cases g
  exact ⟨_, rfl⟩

theorem justified (g : Greeted json security required raw clientNonce authNonce t) :
    Justified (serverMay crypto json security required key) t := by
  cases g
  exact Justified.concat_iff.mpr ⟨Justified.singleton_iff.mpr trivial, trivial⟩

theorem admitted {clientNonce : Text}
    (g : Greeted json security required raw (some clientNonce) authNonce t)
    (h : Auth.verifyResponseWithKey crypto.hmac security.nonce key response = true) :
    Admitted crypto security required key (t ++ [.heard auth (.authResponse response)]) := by
  cases g
  case intro hv hc => exact .intro hv hc h

end Greeted

theorem Admitted.append {t' : List Event} (h : Admitted crypto security required key t) :
    Admitted crypto security required key (t ++ t') := by
  cases h
  case intro hv hc hr => exact .intro hv hc hr

section Servers

variable {psk raw : Text} {msg : Message} {clientNonce : Option Text}
  {authNonce : Option (Text × Text)} {clientHasPsk : Bool} {transport : ProtectedControl}

namespace TcpServer

def capabilities : List Text :=
  [PROTECTED_CONTROL_CAPABILITY]

theorem answerHello_spec (hp : security.psk.isSome = true) :
    ⦃fun w => ⌜w.trace = t⌝⦄ answerHello json security msg
    ⦃post⟨fun (authNonce, clientNonce) w => ⌜∀ raw, json.deserialize (Utf8.trim raw) = some msg →
        t = [.heard (Utf8.trim raw) msg] →
        Greeted json security capabilities raw clientNonce authNonce w.trace⌝,
      fun _ w => ⌜∀ crypto required key, Justified (serverMay crypto json security required key) t →
        Justified (serverMay crypto json security required key) w.trace⌝⟩⦄ := by
  -- The texts of errors stay literals here and below. None of them matters, and they are long.
  mvcgen [answerHello, -String.reduceToList, -String.reduceAppend]
  all_goals grind [Justified.concat_iff, serverMay, Greeted.of_sent, SecurityContext.challenge,
    Message.serverHelloWithAuthAndCapabilities, capabilities]

theorem authenticate_spec (hp : security.psk = some psk)
    (hg : Greeted json security required raw clientNonce authNonce t) :
    ⦃fun w => ⌜w.trace = t⌝⦄ authenticate crypto json security raw clientNonce authNonce
    ⦃post⟨fun _ w => ⌜Admitted crypto security required (Utf8.encode psk) w.trace ∧
        Justified (serverMay crypto json security required (Utf8.encode psk)) w.trace⌝,
      fun _ w => ⌜Justified (serverMay crypto json security required (Utf8.encode psk))
        w.trace⌝⟩⦄ := by
  have hj : Justified (serverMay crypto json security required (Utf8.encode psk)) t := hg.justified
  have ⟨challenge, ha⟩ := hg.authNonce_eq
  subst ha
  mvcgen [authenticate, -String.reduceToList, -String.reduceAppend]
  all_goals grind [Justified.concat_iff, serverMay, Greeted.admitted, Admitted.append,
    Proved.intro, Auth.verifyResponse, ServerProof.compute]

-- Once the client is admitted, everything that follows is justified.
theorem handleTestRequest_spec (ha : Admitted crypto security required key t)
    (hj : Justified (serverMay crypto json security required key) t) :
    ⦃fun w => ⌜w.trace = t⌝⦄ handleTestRequest crypto json security clientHasPsk transport
    ⦃post⟨fun _ w => ⌜Justified (serverMay crypto json security required key) w.trace⌝,
      fun _ w => ⌜Justified (serverMay crypto json security required key) w.trace⌝⟩⦄ := by
  mvcgen [handleTestRequest, runTest, writeAckOrCleanup, -String.reduceToList, -String.reduceAppend]
  all_goals grind [Justified.concat_iff, serverMay, Admitted.append]

theorem handleClientWithFirstMessage_spec (hp : security.psk = some psk)
    (hd : json.deserialize (Utf8.trim raw) = some msg) :
    ⦃fun w => ⌜w.trace = [.heard (Utf8.trim raw) msg]⌝⦄
    handleClientWithFirstMessage crypto json security msg raw
    ⦃post⟨fun _ w =>
        ⌜Justified (serverMay crypto json security capabilities (Utf8.encode psk)) w.trace⌝,
      fun _ w =>
        ⌜Justified (serverMay crypto json security capabilities (Utf8.encode psk)) w.trace⌝⟩⦄ := by
  mvcgen [handleClientWithFirstMessage, answerHello_spec, authenticate_spec,
    handleTestRequest_spec]
  all_goals grind [Justified.singleton_iff, serverMay]

theorem handleNewConnection_spec (hp : security.psk = some psk) :
    ⦃fun w => ⌜w.trace = []⌝⦄ handleNewConnection crypto json security
    ⦃post⟨fun _ w =>
        ⌜Justified (serverMay crypto json security capabilities (Utf8.encode psk)) w.trace⌝,
      fun _ w =>
        ⌜Justified (serverMay crypto json security capabilities (Utf8.encode psk)) w.trace⌝⟩⦄ := by
  mvcgen [handleNewConnection, handleClientWithFirstMessage_spec,
    -String.reduceToList, -String.reduceAppend]
  all_goals grind [Justified.nil, Justified.singleton_iff, serverMay]

theorem answerHello_keyless (hp : security.psk = none) (ht : Proofless t) :
    ⦃fun w => ⌜w.trace = t⌝⦄ answerHello json security msg
    ⦃post⟨fun (authNonce, _) w => ⌜authNonce = none ∧ Proofless w.trace⌝,
      fun _ w => ⌜Proofless w.trace⌝⟩⦄ := by
  mvcgen [answerHello, -String.reduceToList, -String.reduceAppend]
  all_goals grind [proofless_concat_iff, Event.isProof, Message.serverHelloWithCapabilities]

theorem authenticate_keyless (ha : authNonce = none) :
    ⦃fun w => ⌜w.trace = t⌝⦄ authenticate crypto json security raw clientNonce authNonce
    ⦃post⟨fun _ w => ⌜w.trace = t⌝, fun _ _ => ⌜False⌝⟩⦄ := by
  subst ha
  mvcgen [authenticate, -String.reduceToList, -String.reduceAppend]

theorem handleTestRequest_keyless (ht : Proofless t) :
    ⦃fun w => ⌜w.trace = t⌝⦄ handleTestRequest crypto json security clientHasPsk transport
    ⦃post⟨fun _ w => ⌜Proofless w.trace⌝, fun _ w => ⌜Proofless w.trace⌝⟩⦄ := by
  mvcgen [handleTestRequest, runTest, writeAckOrCleanup, -String.reduceToList, -String.reduceAppend]
  all_goals grind [proofless_concat_iff, Event.isProof]

theorem handleNewConnection_keyless (hp : security.psk = none) :
    ⦃fun w => ⌜w.trace = []⌝⦄ handleNewConnection crypto json security
    ⦃post⟨fun _ w => ⌜Proofless w.trace⌝, fun _ w => ⌜Proofless w.trace⌝⟩⦄ := by
  mvcgen [handleNewConnection, handleClientWithFirstMessage, answerHello_keyless,
    authenticate_keyless, handleTestRequest_keyless, -String.reduceToList, -String.reduceAppend]
  all_goals grind [proofless_nil, proofless_concat_iff, Event.isProof]

end TcpServer

namespace QuicServer

def capabilities : List Text :=
  [PROTECTED_CONTROL_CAPABILITY, QUIC_CHANNEL_BINDING_CAPABILITY]

theorem answerHello_spec (hp : security.psk.isSome = true) :
    ⦃fun w => ⌜w.trace = t⌝⦄ answerHello json security msg
    ⦃post⟨fun (authNonce, clientNonce) w => ⌜∀ raw, json.deserialize (Utf8.trim raw) = some msg →
        t = [.heard (Utf8.trim raw) msg] →
        Greeted json security capabilities raw clientNonce authNonce w.trace⌝,
      fun _ w => ⌜∀ crypto required key, Justified (serverMay crypto json security required key) t →
        Justified (serverMay crypto json security required key) w.trace⌝⟩⦄ := by
  mvcgen [answerHello, -String.reduceToList, -String.reduceAppend]
  all_goals grind [Justified.concat_iff, serverMay, Greeted.of_sent, SecurityContext.challenge,
    Message.serverHelloWithAuthAndCapabilities, capabilities]

theorem authenticate_spec
    (hg : Greeted json security required raw clientNonce authNonce t) :
    ⦃fun w => ⌜w.trace = t⌝⦄
    authenticate crypto json (some key) raw clientNonce authNonce
    ⦃post⟨fun _ w => ⌜Admitted crypto security required key w.trace ∧
        Justified (serverMay crypto json security required key) w.trace⌝,
      fun _ w => ⌜Justified (serverMay crypto json security required key) w.trace⌝⟩⦄ := by
  have hj : Justified (serverMay crypto json security required key) t := hg.justified
  have ⟨challenge, ha⟩ := hg.authNonce_eq
  subst ha
  mvcgen [authenticate, -String.reduceToList, -String.reduceAppend]
  all_goals grind [Justified.concat_iff, serverMay, Greeted.admitted, Admitted.append,
    Proved.intro]

theorem handleTestRequest_spec (ha : Admitted crypto security required key t)
    (hj : Justified (serverMay crypto json security required key) t) :
    ⦃fun w => ⌜w.trace = t⌝⦄ handleTestRequest crypto json security clientHasPsk transport
    ⦃post⟨fun _ w => ⌜Justified (serverMay crypto json security required key) w.trace⌝,
      fun _ w => ⌜Justified (serverMay crypto json security required key) w.trace⌝⟩⦄ := by
  mvcgen [handleTestRequest, runQuicTest, -String.reduceToList, -String.reduceAppend]
  all_goals grind [Justified.concat_iff, serverMay, Admitted.append]

theorem handleQuicClient_spec (hp : security.psk = some psk)
    (hk : derivePskSessionKey crypto psk = .ok key) :
    ⦃fun w => ⌜w.trace = []⌝⦄ handleQuicClient crypto json security
    ⦃post⟨fun _ w => ⌜Justified (serverMay crypto json security capabilities key) w.trace⌝,
      fun _ w => ⌜Justified (serverMay crypto json security capabilities key) w.trace⌝⟩⦄ := by
  have derived : ofExcept .sessionKey (security.psk.mapM (derivePskSessionKey crypto)) =
      (pure (some key) : Handshake (Option Bytes)) := by
    rw [hp, Option.mapM, hk]
    rfl
  rw [handleQuicClient, derived, pure_bind]
  mvcgen [answerHello_spec, authenticate_spec, handleTestRequest_spec]
  all_goals grind [Justified.nil, Justified.singleton_iff, serverMay, Utf8.trim_trim]

-- Without a key of the session, nothing happens at all.
theorem handleQuicClient_error {e : SessionKeyError} (hp : security.psk = some psk)
    (hk : derivePskSessionKey crypto psk = .error e) :
    ⦃fun w => ⌜w.trace = []⌝⦄ handleQuicClient crypto json security
    ⦃post⟨fun _ _ => ⌜False⌝, fun _ w => ⌜w.trace = []⌝⟩⦄ := by
  have failed : ofExcept .sessionKey (security.psk.mapM (derivePskSessionKey crypto)) =
      (throw (.sessionKey e) : Handshake (Option Bytes)) := by
    rw [hp, Option.mapM, hk]
    rfl
  rw [handleQuicClient, failed]
  mvcgen

theorem answerHello_keyless (hp : security.psk = none) (ht : Proofless t) :
    ⦃fun w => ⌜w.trace = t⌝⦄ answerHello json security msg
    ⦃post⟨fun (authNonce, _) w => ⌜authNonce = none ∧ Proofless w.trace⌝,
      fun _ w => ⌜Proofless w.trace⌝⟩⦄ := by
  mvcgen [answerHello, -String.reduceToList, -String.reduceAppend]
  all_goals grind [proofless_concat_iff, Event.isProof, Message.serverHelloWithCapabilities]

theorem authenticate_keyless {sessionKey : Option Bytes} (ha : authNonce = none) :
    ⦃fun w => ⌜w.trace = t⌝⦄ authenticate crypto json sessionKey raw clientNonce authNonce
    ⦃post⟨fun _ w => ⌜w.trace = t⌝, fun _ _ => ⌜False⌝⟩⦄ := by
  subst ha
  mvcgen [authenticate, -String.reduceToList, -String.reduceAppend]

theorem handleTestRequest_keyless (ht : Proofless t) :
    ⦃fun w => ⌜w.trace = t⌝⦄ handleTestRequest crypto json security clientHasPsk transport
    ⦃post⟨fun _ w => ⌜Proofless w.trace⌝, fun _ w => ⌜Proofless w.trace⌝⟩⦄ := by
  mvcgen [handleTestRequest, runQuicTest, -String.reduceToList, -String.reduceAppend]
  all_goals grind [proofless_concat_iff, Event.isProof]

theorem handleQuicClient_keyless (hp : security.psk = none) :
    ⦃fun w => ⌜w.trace = []⌝⦄ handleQuicClient crypto json security
    ⦃post⟨fun _ w => ⌜Proofless w.trace⌝, fun _ w => ⌜Proofless w.trace⌝⟩⦄ := by
  mvcgen [handleQuicClient, answerHello_keyless, authenticate_keyless, handleTestRequest_keyless,
    -String.reduceToList, -String.reduceAppend]
  all_goals grind [proofless_nil, proofless_concat_iff, Event.isProof]

end QuicServer

end Servers

end Handshake
