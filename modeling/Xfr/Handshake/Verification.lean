import Xfr.Handshake.Client
import Xfr.Library.Trace

open Utf8 (Text)
open Std.Do

set_option mvcgen.warning false

namespace Handshake

variable (crypto : Crypto) (json : Json) (options : ClientOptions)

-- The server challenged the client, and its proof over both hellos is the right one.
inductive Verified (key : Bytes) (proof : Text) : List Event → Prop
  | intro {hello line version response auth success : Text} {capabilities : Option (List Text)}
    {challenge : AuthChallenge} {clientNonce : Option Text} :
    json.serialize options.hello = some hello →
    json.deserialize (Utf8.trim line) =
      some (.hello version capabilities (some challenge) clientNonce) →
    ServerProof.verifyWithKey crypto (Utf8.encode hello) (Utf8.encode (Utf8.trim line))
      options.nonce challenge.nonce key proof = .ok true →
    Verified key proof
      [.sent hello options.hello,
        .heard (Utf8.trim line) (.hello version capabilities (some challenge) clientNonce),
        .sent auth (.authResponse response), .heard success (.authSuccess (some proof))]

-- A client with a key starts a test only if it verified the server.
def Trusting (key : Except SessionKeyError Bytes) (before : List Event) : Prop :=
  ∃ k proof, key = .ok k ∧ Verified crypto json options k proof before

def clientMay (key : Except SessionKeyError Bytes) (before : List Event) : Event → Prop
  | .sent _ (.testStart ..) => Trusting crypto json options key before
  | _                       => True

def Event.isChallenge : Event → Bool
  | .heard _ (.hello _ _ (some _) _) => true
  | _                                => false

def Unchallenged (t : List Event) : Prop :=
  ∀ e ∈ t, e.isChallenge = false

-- A client without a key does nothing any more once it is challenged.
def keylessMay (before : List Event) (_ : Event) : Prop :=
  Unchallenged before

variable {crypto : Crypto} {json : Json} {options : ClientOptions} {psk : Text}
  {key : Except SessionKeyError Bytes} {t : List Event}

theorem unchallenged_nil : Unchallenged [] :=
  fun _ h => by simp at h

theorem unchallenged_concat_iff {e : Event} :
    Unchallenged (t ++ [e]) ↔ Unchallenged t ∧ e.isChallenge = false := by
  simp [Unchallenged, or_imp, forall_and]

theorem hello_eq : ∃ clientNonce, options.hello =
    .hello PROTOCOL_VERSION (some SUPPORTED_CAPABILITIES) none clientNonce := by
  unfold ClientOptions.hello
  split <;> exact ⟨_, rfl⟩

theorem clientMay_hello {text : Text} :
    clientMay crypto json options key t (.sent text options.hello) := by
  have ⟨_, hh⟩ := @hello_eq options
  rw [hh]
  trivial

-- The hellos are exchanged, and the server may have challenged the client.
inductive Offered (json : Json) (options : ClientOptions) (hello line : Text)
    (auth : Option AuthChallenge) : List Event → Prop
  | intro {version : Text} {capabilities : Option (List Text)} {clientNonce : Option Text} :
    json.serialize options.hello = some hello →
    json.deserialize (Utf8.trim line) = some (.hello version capabilities auth clientNonce) →
    Offered json options hello line auth
      [.sent hello options.hello,
        .heard (Utf8.trim line) (.hello version capabilities auth clientNonce)]

namespace Offered

variable {hello line : Text} {auth : Option AuthChallenge}

theorem of_heard {version : Text} {capabilities : Option (List Text)} {clientNonce : Option Text}
    (hs : json.serialize options.hello = some hello)
    (hd : json.deserialize (Utf8.trim line) = some (.hello version capabilities auth clientNonce))
    (ht : t = [.sent hello options.hello] ++
      [.heard (Utf8.trim line) (.hello version capabilities auth clientNonce)]) :
    Offered json options hello line auth t :=
  ht ▸ .intro hs hd

theorem justified (o : Offered json options hello line auth t) :
    Justified (clientMay crypto json options key) t := by
  cases o
  refine Justified.concat_iff.mpr ⟨Justified.singleton_iff.mpr clientMay_hello, ?_⟩
  trivial

theorem verified {response text success proof : Text} {challenge : AuthChallenge} {key : Bytes}
    (o : Offered json options hello line (some challenge) t)
    (h : ServerProof.verifyWithKey crypto (Utf8.encode hello) (Utf8.encode (Utf8.trim line))
      options.nonce challenge.nonce key proof = .ok true) :
    Verified crypto json options key proof
      (t ++ [.sent text (.authResponse response)] ++
        [.heard success (.authSuccess (some proof))]) := by
  cases o
  case intro hs hd => exact .intro hs hd h

grind_pattern verified =>
  Offered json options hello line (some challenge) t,
  ServerProof.verifyWithKey crypto (Utf8.encode hello) (Utf8.encode (Utf8.trim line))
    options.nonce challenge.nonce key proof,
  t ++ [Event.sent text (.authResponse response)] ++
    [Event.heard success (.authSuccess (some proof))]

end Offered

namespace TcpClient

section Keyed

variable {hello line : Text} {capabilities : Option (List Text)}
  {auth : Option AuthChallenge} {serverNonce : Option Text} {transport : ProtectedControl}

theorem authenticate_spec (hp : options.psk = some psk)
    (ho : Offered json options hello line auth t) :
    ⦃fun w => ⌜w.trace = t⌝⦄
    authenticate crypto json options hello (Utf8.trim line) capabilities auth
    ⦃post⟨fun _ w => ⌜Trusting crypto json options (.ok (Utf8.encode psk)) w.trace ∧
        Justified (clientMay crypto json options (.ok (Utf8.encode psk))) w.trace⌝,
      fun _ w => ⌜Justified (clientMay crypto json options (.ok (Utf8.encode psk))) w.trace⌝⟩⦄ := by
  have hj : Justified (clientMay crypto json options (.ok (Utf8.encode psk))) t := ho.justified
  -- The texts of errors stay literals here and below. None of them matters, and they are long.
  mvcgen [authenticate, -String.reduceToList, -String.reduceAppend]
  all_goals grind [Justified.concat_iff, clientMay, Trusting, ServerProof.verify,
    ClientOptions.clientNonce]

@[spec]
theorem installTransport_spec :
    ⦃fun w => ⌜w.trace = t⌝⦄ installTransport crypto options serverNonce
    ⦃post⟨fun _ w => ⌜w.trace = t⌝, fun _ w => ⌜w.trace = t⌝⟩⦄ := by
  mvcgen [installTransport, -String.reduceToList, -String.reduceAppend] <;> simp_all

@[spec]
theorem startTest_spec :
    ⦃fun w => ⌜w.trace = t⌝⦄ startTest crypto json options capabilities transport
    ⦃post⟨fun _ w => ⌜∃ text, w.trace = t ++ [.sent text (.testStart options.id options.protocol)]⌝,
      fun _ w => ⌜w.trace = t ∨
        ∃ text, w.trace = t ++ [.sent text (.testStart options.id options.protocol)]⌝⟩⦄ := by
  mvcgen [startTest, ensureByteBudget, -String.reduceToList, -String.reduceAppend] <;> simp_all

theorem greet_spec (hp : options.psk = some psk) :
    ⦃fun w => ⌜w.trace = []⌝⦄ greet crypto json options
    ⦃post⟨fun _ w => ⌜Trusting crypto json options (.ok (Utf8.encode psk)) w.trace ∧
        Justified (clientMay crypto json options (.ok (Utf8.encode psk))) w.trace⌝,
      fun _ w => ⌜Justified (clientMay crypto json options (.ok (Utf8.encode psk))) w.trace⌝⟩⦄ := by
  mvcgen [greet, authenticate_spec, -String.reduceToList, -String.reduceAppend]
  all_goals grind [Justified.concat_iff, Justified.nil, clientMay, clientMay_hello,
    Offered.of_heard]

theorem runTest_spec (hp : options.psk = some psk) :
    ⦃fun w => ⌜w.trace = []⌝⦄ runTest crypto json options
    ⦃post⟨fun _ w => ⌜Justified (clientMay crypto json options (.ok (Utf8.encode psk))) w.trace⌝,
      fun _ w => ⌜Justified (clientMay crypto json options (.ok (Utf8.encode psk))) w.trace⌝⟩⦄ := by
  mvcgen [runTest, greet_spec]
  all_goals grind [Justified.concat_iff, clientMay]

end Keyed

section Keyless

variable {hello line : Text} {capabilities : Option (List Text)} {auth : Option AuthChallenge}

theorem authenticate_keyless (hp : options.psk = none) :
    ⦃fun w => ⌜w.trace = t⌝⦄ authenticate crypto json options hello line capabilities auth
    ⦃post⟨fun nonce w => ⌜auth = none ∧ nonce = none ∧ w.trace = t⌝, fun _ w => ⌜w.trace = t⌝⟩⦄ := by
  mvcgen [authenticate, -String.reduceToList, -String.reduceAppend] <;> simp_all

theorem greet_keyless (hp : options.psk = none) :
    ⦃fun w => ⌜w.trace = []⌝⦄ greet crypto json options
    ⦃post⟨fun r w =>
        ⌜r.2 = none ∧ Unchallenged w.trace ∧ Justified keylessMay w.trace⌝,
      fun _ w => ⌜Justified keylessMay w.trace⌝⟩⦄ := by
  mvcgen [greet, authenticate_keyless, -String.reduceToList, -String.reduceAppend]
  all_goals grind [Justified.concat_iff, Justified.nil, keylessMay, unchallenged_nil,
    unchallenged_concat_iff, Event.isChallenge]

theorem runTest_keyless (hp : options.psk = none) :
    ⦃fun w => ⌜w.trace = []⌝⦄ runTest crypto json options
    ⦃post⟨fun _ w => ⌜Unchallenged w.trace ∧ Justified keylessMay w.trace⌝,
      fun _ w => ⌜Justified keylessMay w.trace⌝⟩⦄ := by
  mvcgen [runTest, greet_keyless]
  all_goals grind [Justified.concat_iff, keylessMay, unchallenged_concat_iff, Event.isChallenge]

end Keyless

end TcpClient

namespace QuicClient

section Keyed

variable {hello line : Text} {capabilities : Option (List Text)} {auth : Option AuthChallenge}
  {serverNonce : Option Text} {quicSessionPsk : Option Bytes}

theorem authenticate_spec (hp : options.psk = some psk)
    (ho : Offered json options hello line auth t) :
    ⦃fun w => ⌜w.trace = t⌝⦄
    authenticate crypto json options hello (Utf8.trim line) capabilities auth
    ⦃post⟨fun _ w => ⌜Trusting crypto json options (derivePskSessionKey crypto psk) w.trace ∧
        Justified (clientMay crypto json options (derivePskSessionKey crypto psk)) w.trace⌝,
      fun _ w =>
        ⌜Justified (clientMay crypto json options (derivePskSessionKey crypto psk)) w.trace⌝⟩⦄ := by
  have hj : Justified (clientMay crypto json options (derivePskSessionKey crypto psk)) t :=
    ho.justified
  mvcgen [authenticate, -String.reduceToList, -String.reduceAppend]
  all_goals grind [Justified.concat_iff, clientMay, Trusting, ClientOptions.clientNonce]

@[spec]
theorem installTransport_spec :
    ⦃fun w => ⌜w.trace = t⌝⦄ installTransport crypto options serverNonce quicSessionPsk
    ⦃post⟨fun _ w => ⌜w.trace = t⌝, fun _ w => ⌜w.trace = t⌝⟩⦄ := by
  mvcgen [installTransport, -String.reduceToList, -String.reduceAppend] <;> simp_all

theorem greet_spec (hp : options.psk = some psk) :
    ⦃fun w => ⌜w.trace = []⌝⦄ greet crypto json options
    ⦃post⟨fun _ w => ⌜Trusting crypto json options (derivePskSessionKey crypto psk) w.trace ∧
        Justified (clientMay crypto json options (derivePskSessionKey crypto psk)) w.trace⌝,
      fun _ w =>
        ⌜Justified (clientMay crypto json options (derivePskSessionKey crypto psk)) w.trace⌝⟩⦄ := by
  mvcgen [greet, authenticate_spec, -String.reduceToList, -String.reduceAppend]
  all_goals grind [Justified.concat_iff, Justified.nil, clientMay, clientMay_hello,
    Offered.of_heard]

theorem runQuicSession_spec (hp : options.psk = some psk) :
    ⦃fun w => ⌜w.trace = []⌝⦄ runQuicSession crypto json options
    ⦃post⟨fun _ w =>
        ⌜Justified (clientMay crypto json options (derivePskSessionKey crypto psk)) w.trace⌝,
      fun _ w =>
        ⌜Justified (clientMay crypto json options (derivePskSessionKey crypto psk)) w.trace⌝⟩⦄ := by
  mvcgen [runQuicSession, ensureByteBudget, greet_spec, -String.reduceToList, -String.reduceAppend]
  all_goals grind [Justified.concat_iff, clientMay]

end Keyed

section Keyless

variable {hello line : Text} {capabilities : Option (List Text)} {auth : Option AuthChallenge}

theorem authenticate_keyless (hp : options.psk = none) :
    ⦃fun w => ⌜w.trace = t⌝⦄ authenticate crypto json options hello line capabilities auth
    ⦃post⟨fun r w => ⌜auth = none ∧ r.1 = none ∧ w.trace = t⌝,
      fun _ w => ⌜w.trace = t⌝⟩⦄ := by
  mvcgen [authenticate, -String.reduceToList, -String.reduceAppend] <;> simp_all

theorem greet_keyless (hp : options.psk = none) :
    ⦃fun w => ⌜w.trace = []⌝⦄ greet crypto json options
    ⦃post⟨fun r w =>
        ⌜r.2.1 = none ∧ Unchallenged w.trace ∧ Justified keylessMay w.trace⌝,
      fun _ w => ⌜Justified keylessMay w.trace⌝⟩⦄ := by
  mvcgen [greet, authenticate_keyless, -String.reduceToList, -String.reduceAppend]
  all_goals grind [Justified.concat_iff, Justified.nil, keylessMay, unchallenged_nil,
    unchallenged_concat_iff, Event.isChallenge]

theorem runQuicSession_keyless (hp : options.psk = none) :
    ⦃fun w => ⌜w.trace = []⌝⦄ runQuicSession crypto json options
    ⦃post⟨fun _ w => ⌜Unchallenged w.trace ∧ Justified keylessMay w.trace⌝,
      fun _ w => ⌜Justified keylessMay w.trace⌝⟩⦄ := by
  mvcgen [runQuicSession, ensureByteBudget, greet_keyless,
    -String.reduceToList, -String.reduceAppend]
  all_goals grind [Justified.concat_iff, keylessMay, unchallenged_concat_iff, Event.isChallenge]

end Keyless

end QuicClient

end Handshake
