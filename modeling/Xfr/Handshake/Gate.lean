import Xfr.Control.Channel
import Xfr.Handshake.Admission
import Xfr.Handshake.Verification

open Utf8 (Text)
open Std.Do

namespace Handshake

section Outcome

variable {α : Type}

-- A whole handshake, with what its side reads and which of its operations fail.
def outcome (m : Handshake α) (inbox : Fills) (faults : List (Option Fault)) :
    Except HandshakeError α × Wire :=
  m.run.run (.start inbox faults)

def trace (m : Handshake α) (inbox : Fills) (faults : List (Option Fault)) : List Event :=
  (outcome m inbox faults).2.trace

variable {m : Handshake α} {inbox : Fills} {faults : List (Option Fault)}
  {before after : List Event} {e : Event}

theorem outcome_ok {P : α → Wire → Prop} {Q : Wire → Prop} {a : α} {w : Wire}
    (h : ⦃fun w => ⌜w.trace = []⌝⦄ m ⦃post⟨fun a w => ⌜P a w⌝, fun _ w => ⌜Q w⌝⟩⦄)
    (ho : outcome m inbox faults = (.ok a, w)) : P a w := by
  have h := h (.start inbox faults) rfl
  have ho : m.run.run (.start inbox faults) = (.ok a, w) := ho
  simp only [wp, ho, PredTrans.apply_pushExcept, PredTrans.apply_pushArg] at h
  exact h

theorem outcome_cases {P Q : Wire → Prop}
    (h : ⦃fun w => ⌜w.trace = []⌝⦄ m ⦃post⟨fun _ w => ⌜P w⌝, fun _ w => ⌜Q w⌝⟩⦄) :
    P (outcome m inbox faults).2 ∨
      Q (outcome m inbox faults).2 ∧ ∃ err, (outcome m inbox faults).1 = .error err := by
  have h := h (.start inbox faults) rfl
  cases ho : outcome m inbox faults with | mk r w =>
  have hr : m.run.run (.start inbox faults) = (r, w) := ho
  simp only [wp, hr, PredTrans.apply_pushExcept, PredTrans.apply_pushArg] at h
  cases r
  case ok a      => exact .inl h
  case error err => exact .inr ⟨h, err, rfl⟩

theorem justified_at {may : List Event → Event → Prop}
    (ht : trace m inbox faults = before ++ e :: after)
    (h : ⦃fun w => ⌜w.trace = []⌝⦄ m
      ⦃post⟨fun _ w => ⌜Justified may w.trace⌝, fun _ w => ⌜Justified may w.trace⌝⟩⦄) :
    may before e :=
  have hj : Justified may (trace m inbox faults) := (outcome_cases h).elim id And.left
  hj before e after ht

-- Once a client without a key is challenged, its handshake is over.
theorem challenge_ends
    (h : ⦃fun w => ⌜w.trace = []⌝⦄ m
      ⦃post⟨fun _ w => ⌜Unchallenged w.trace ∧ Justified keylessMay w.trace⌝,
        fun _ w => ⌜Justified keylessMay w.trace⌝⟩⦄)
    (ht : trace m inbox faults = before ++ e :: after) (he : e.isChallenge = true) :
    after = [] ∧ ∃ err, (outcome m inbox faults).1 = .error err := by
  have hc : Unchallenged (trace m inbox faults) ∧ Justified keylessMay (trace m inbox faults) ∨
      Justified keylessMay (trace m inbox faults) ∧
        ∃ err, (outcome m inbox faults).1 = .error err := outcome_cases h
  rcases hc with hu | ⟨hj, hr⟩
  case inl =>
    have hn : e.isChallenge = false := hu.left e (by rw [ht]; simp)
    simp [he] at hn
  case inr =>
    refine ⟨?_, hr⟩
    cases after
    case nil           => rfl
    case cons e' after =>
      have hn : e.isChallenge = false :=
        hj (before ++ [e]) e' after (by rw [ht]; simp) e (by simp)
      simp [he] at hn

end Outcome

section Gate

variable (crypto : Crypto) (json : Json)

theorem Admitted.of_gated {security : SecurityContext} {required : List Text} {key : Bytes}
    {before : List Event} {e : Event} (he : e.Gated)
    (h : serverMay crypto json security required key before e) :
    Admitted crypto security required key before := by
  unfold Event.Gated at he
  split at he
  case h_1 | h_2 => exact h
  case h_3       => exact he.elim

-- A server with a key registers and acknowledges tests only for clients which passed all checks, a
-- client with a key starts tests only on servers which proved that they have the key, and a client
-- without a key gives up when it is challenged.
theorem authentication_gate :
    (∀ security psk inbox faults before e after, security.psk = some psk → e.Gated →
      trace (TcpServer.handleNewConnection crypto json security) inbox faults =
        before ++ e :: after →
      Admitted crypto security [PROTECTED_CONTROL_CAPABILITY] (Utf8.encode psk) before) ∧
    (∀ security psk inbox faults before e after, security.psk = some psk → e.Gated →
      trace (QuicServer.handleQuicClient crypto json security) inbox faults =
        before ++ e :: after →
      ∃ key, derivePskSessionKey crypto psk = .ok key ∧
        Admitted crypto security [PROTECTED_CONTROL_CAPABILITY, QUIC_CHANNEL_BINDING_CAPABILITY]
          key before) ∧
    (∀ options psk inbox faults before text id protocol after, options.psk = some psk →
      trace (TcpClient.runTest crypto json options) inbox faults =
        before ++ .sent text (.testStart id protocol) :: after →
      ∃ proof, Verified crypto json options (Utf8.encode psk) proof before) ∧
    (∀ options psk inbox faults before text id protocol after, options.psk = some psk →
      trace (QuicClient.runQuicSession crypto json options) inbox faults =
        before ++ .sent text (.testStart id protocol) :: after →
      ∃ key proof, derivePskSessionKey crypto psk = .ok key ∧
        Verified crypto json options key proof before) ∧
    (∀ options inbox faults before e after, options.psk = none → e.isChallenge = true →
      (trace (TcpClient.runTest crypto json options) inbox faults = before ++ e :: after →
        after = [] ∧
        ∃ err, (outcome (TcpClient.runTest crypto json options) inbox faults).1 = .error err) ∧
      (trace (QuicClient.runQuicSession crypto json options) inbox faults =
          before ++ e :: after →
        after = [] ∧
        ∃ err, (outcome (QuicClient.runQuicSession crypto json options) inbox faults).1 =
          .error err)) := by
  refine ⟨?_, ?_, ?_, ?_, ?_⟩
  · intro security psk inbox faults before e after hp he ht
    exact .of_gated crypto json he (justified_at ht (TcpServer.handleNewConnection_spec hp))
  · intro security psk inbox faults before e after hp he ht
    cases hk : derivePskSessionKey crypto psk
    case ok key  =>
      have hm := justified_at ht (QuicServer.handleQuicClient_spec hp hk)
      exact ⟨key, rfl, .of_gated crypto json he hm⟩
    case error err =>
      have hn : trace (QuicServer.handleQuicClient crypto json security) inbox faults = [] :=
        (outcome_cases (QuicServer.handleQuicClient_error hp hk)).elim False.elim And.left
      simp [ht] at hn
  · intro options psk inbox faults before text id protocol after hp ht
    have ⟨key, proof, hk, hv⟩ := justified_at ht (TcpClient.runTest_spec hp)
    cases hk
    exact ⟨proof, hv⟩
  · intro options psk inbox faults before text id protocol after hp ht
    exact justified_at ht (QuicClient.runQuicSession_spec hp)
  · intro options inbox faults before e after hp he
    exact ⟨(challenge_ends (TcpClient.runTest_keyless hp) · he),
      (challenge_ends (QuicClient.runQuicSession_keyless hp) · he)⟩

end Gate

namespace Sample

-- A JSON library which knows a few texts.
def ofTable (table : List (Text × Message)) : Json where
  serialize m   := (table.find? (·.2 = m)).map Prod.fst
  deserialize t := (table.find? (·.1 = t)).map Prod.snd

def crypto : Crypto where
  hmac key _   := key
  hkdf         :=
    { extract := fun salt ikm => salt ++ ikm, expand := fun prk info _ => some (info ++ prk) }
  aead         := Channel.transparent
  exporter _ _ := some []

def security : SecurityContext where
  psk                  := some "k".toList
  capabilities         := [PROTECTED_CONTROL_CAPABILITY]
  nonce                := "n".toList
  acquired             := true
  parameters _         := ⟨1, none, false, none⟩
  validateCongestion _ := .ok ()

def hello : Message :=
  .hello "1.1".toList (some [PROTECTED_CONTROL_CAPABILITY]) none (some "c".toList)

def keys : ControlCodec × ControlCodec :=
  match ControlCodec.derivePair crypto.hkdf (Utf8.encode "c".toList) (Utf8.encode "n".toList)
      (Utf8.encode "k".toList) with
  | .ok keys => keys
  | .error _ => (.new [] .c2s, .new [] .s2c)

def helloText : Text :=
  "\x7b\"type\":\"hello\",\"version\":\"1.1\",".toList ++
    "\"capabilities\":[\"protected_control_v1\"],\"client_nonce\":\"c\"\x7d".toList

def challengeText : Text :=
  "\x7b\"type\":\"hello\",\"version\":\"1.1\",".toList ++
    "\"capabilities\":[\"protected_control_v1\"],".toList ++
    "\"auth\":\x7b\"method\":\"psk\",\"nonce\":\"n\"\x7d\x7d".toList

def responseText : Text :=
  "\x7b\"type\":\"auth_response\",\"response\":\"6b\"\x7d".toList

def startText : Text :=
  "\x7b\"type\":\"test_start\",\"id\":\"t\",\"protocol\":\"tcp\"\x7d".toList

def proof : Text :=
  match ServerProof.compute crypto (Utf8.encode helloText) (Utf8.encode challengeText)
      "c".toList "n".toList "k".toList with
  | .ok proof => proof
  | .error _  => []

def json : Json := ofTable [
  (helloText, hello),
  (challengeText, security.challenge),
  (responseText, .authResponse "6b".toList),
  ("\x7b\"type\":\"auth_success\",\"server_proof\":\"".toList ++ proof ++ "\"\x7d".toList,
    .authSuccess (some proof)),
  (startText, .testStart "t".toList .tcp),
  ("\x7b\"type\":\"test_ack\",\"id\":\"t\",\"data_ports\":[]\x7d".toList,
    .testAck "t".toList)]

def start : Bytes :=
  match (sealFrame crypto.aead keys.1 startText).1 with
  | .ok frame => frame
  | .error _  => []

def inbox : Fills :=
  [line helloText ++ line responseText ++ start]

end Sample

set_option maxRecDepth 100000 in
theorem authentication_gate_at_registration :
    ∃ before after,
      trace (TcpServer.handleNewConnection Sample.crypto Sample.json Sample.security) Sample.inbox
        [] = before ++ .registered "t".toList :: after ∧
      Admitted Sample.crypto Sample.security [PROTECTED_CONTROL_CAPABILITY]
        (Utf8.encode "k".toList) before := by
  have hm : .registered "t".toList ∈
      trace (TcpServer.handleNewConnection Sample.crypto Sample.json Sample.security) Sample.inbox
        [] := by
    decide +kernel
  have ⟨before, after, ht⟩ := List.mem_iff_append.mp hm
  exact ⟨before, after, ht, (authentication_gate Sample.crypto Sample.json).left Sample.security
    "k".toList Sample.inbox [] before (.registered "t".toList) after rfl trivial ht⟩

end Handshake
