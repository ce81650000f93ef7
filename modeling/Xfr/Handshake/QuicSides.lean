import Xfr.Handshake.Terms

open Utf8 (Text)
open ExceptT (Fails Passes Relates Runs)

namespace Handshake

variable {crypto : Crypto} {json : Json} {options : ClientOptions} {security : SecurityContext}
  {script : Script} {psk proof : Text} {key : Bytes} {keys : ControlCodec × ControlCodec}
  {inbox : Fills} {t : List Event} {rest : Bytes}

namespace QuicClient

section Grows

theorem grows_authenticate {hello line : Text} {capabilities : Option (List Text)}
    {auth : Option AuthChallenge} :
    Grows (authenticate crypto json options hello line capabilities auth) := by
  cases auth
  case none => exact .bind grows_ensure fun _ => .pure
  case some =>
    refine .bind grows_orThrow fun _ => .bind grows_ensure fun _ => .bind grows_ensure fun _ =>
      .bind grows_ofExcept fun _ => .bind grows_send fun _ => grows_reply fun _ m => ?_
    split
    case h_2 | h_3 => exact .throw
    case h_1 =>
      exact .bind grows_orThrow fun _ => .bind grows_orThrow fun _ => .bind grows_ofExcept fun _ =>
        .bind grows_ensure fun _ => .pure

theorem grows_installTransport {serverNonce : Option Text} {quicSessionPsk : Option Bytes} :
    Grows (installTransport crypto options serverNonce quicSessionPsk) := by
  unfold installTransport
  split
  case h_1 => exact .pure
  case h_2 =>
    exact .bind grows_orThrow fun _ => .bind grows_orThrow fun _ => .bind grows_orThrow fun _ =>
      .bind grows_ofExcept fun _ => .pure

-- What comes after the greeting.
theorem grows_runQuicSession {r : Option (List Text) × Option Text × Option Bytes} :
    Grows (do
      let transport ← installTransport crypto options r.2.1 r.2.2
      ensureByteBudget options r.1
      sendProtected crypto.aead json transport (.testStart options.id .quic)) :=
  .bind grows_installTransport fun _ => .bind grows_ensure fun _ => grows_sendProtected

end Grows

section Steps

theorem passes_hello (u : Understood json options .quic security script) :
    Passes Wire.Before (runQuicSession crypto json options) ⟨inbox, [], []⟩
      ⟨inbox, [], [.sent script.hello options.hello]⟩ := by
  refine .within (.bind runs_operate <| .bind (runs_send u.hello)
    (Relates.passes <| grows_reply fun _ m => ?_)) fun _ => grows_runQuicSession
  split
  case h_1       => exact .bind grows_ensure fun _ => .bind grows_authenticate fun _ => .pure
  case h_2 | h_3 => exact .throw

theorem passes_response (u : Understood json options .quic security script)
    (hp : options.psk = some psk) (hk : derivePskSessionKey crypto psk = .ok key)
    (hs : security.psk.isSome = true)
    (c : Carries json (responseTo crypto security key) script.response)
    (h : Holds inbox (line script.greeting ++ rest)) :
    Passes Wire.Before (runQuicSession crypto json options) ⟨inbox, [], []⟩
      ⟨inbox.drop (line script.greeting).length, [],
        [.sent script.hello options.hello, .heard script.greeting security.greeting,
          .sent script.response (responseTo crypto security key)]⟩ := by
  have hg := u.greeting
  rw [SecurityContext.greeting, if_pos hs] at hg ⊢
  refine .within (.bind runs_operate <| .bind (runs_send u.hello) <| .bind (runs_receiveLine hg h) <|
    .bind (runs_ofExcept rfl) <| .bind (runs_parse hg hg.trim_line) <|
    .bind (runs_ensure (by decide)) <| .within ?_ fun _ => .pure) fun _ => grows_runQuicSession
  simp only [authenticate, hp]
  refine .bind runs_orThrow <| .bind (runs_ensure (u.advertises (by decide))) <|
    .bind (runs_ensure (u.advertises (by decide))) <| .bind (runs_ofExcept hk) <|
    .bind (runs_send c) (Relates.passes <| grows_reply fun _ m => ?_)
  split
  case h_2 | h_3 => exact .throw
  case h_1 =>
    exact .bind grows_orThrow fun _ => .bind grows_orThrow fun _ => .bind grows_ofExcept fun _ =>
      .bind grows_ensure fun _ => .pure

theorem runs_greet (u : Understood json options .quic security script)
    (k : Keyed crypto json options security script key proof keys)
    (hp : options.psk = some psk) (hk : derivePskSessionKey crypto psk = .ok key)
    (hs : security.psk.isSome = true)
    (h : Holds inbox (line script.greeting ++ (line script.success ++ rest))) :
    Runs (greet crypto json options) ⟨inbox, [], []⟩
      (some security.capabilities, some security.nonce, some key)
      ⟨(inbox.drop (line script.greeting).length).drop (line script.success).length, [],
        [.sent script.hello options.hello, .heard script.greeting security.greeting,
          .sent script.response (responseTo crypto security key),
          .heard script.success (.authSuccess (some proof))]⟩ := by
  have hg := u.greeting
  rw [SecurityContext.greeting, if_pos hs] at hg ⊢
  refine .bind runs_operate <| .bind (runs_send u.hello) <| .bind (runs_receiveLine hg h) <|
    .bind (runs_ofExcept rfl) <| .bind (runs_parse hg hg.trim_line) <|
    .bind (runs_ensure (by decide)) <| .bind (a := (some security.nonce, some key)) ?_ .pure
  simp only [authenticate, hp, hg.trim_line]
  refine .bind runs_orThrow <| .bind (runs_ensure (u.advertises (by decide))) <|
    .bind (runs_ensure (u.advertises (by decide))) <| .bind (runs_ofExcept hk) <|
    .bind (runs_send k.response) <| .bind (runs_receiveLine k.success h.drop) <|
    .bind (runs_ofExcept rfl) <| .bind (runs_parse k.success k.success.trim_line) ?_
  simp only [clientNonce_keyed hp]
  exact .bind runs_orThrow <| .bind runs_orThrow <|
    .bind (runs_ofExcept (verifyWithKey_computed k.proof)) <| .bind (runs_ensure rfl) .pure

-- A client on a server with the same key.
theorem runs_runQuicSession {transport : ProtectedControl} {bytes : Bytes}
    (u : Understood json options .quic security script)
    (k : Keyed crypto json options security script key proof keys)
    (hp : options.psk = some psk) (hk : derivePskSessionKey crypto psk = .ok key)
    (hs : security.psk.isSome = true)
    (hw : (ProtectedControl.protectedClient keys.1 keys.2).writeMessage crypto.aead script.start =
      (.ok bytes, transport))
    (h : Holds inbox (line script.greeting ++ (line script.success ++ rest))) :
    Runs (runQuicSession crypto json options) ⟨inbox, [], []⟩ transport
      ⟨(inbox.drop (line script.greeting).length).drop (line script.success).length, [],
        [.sent script.hello options.hello, .heard script.greeting security.greeting,
          .sent script.response (responseTo crypto security key),
          .heard script.success (.authSuccess (some proof)),
          .sent script.start (.testStart options.id .quic)]⟩ := by
  have install {w : Wire} :
      Runs (installTransport crypto options (some security.nonce) (some key)) w
        (.protectedClient keys.1 keys.2) w := by
    simp only [installTransport, hp, clientNonce_keyed hp]
    exact .bind runs_orThrow <| .bind runs_orThrow <| .bind runs_orThrow <|
      .bind (runs_ofExcept k.derived) .pure
  have budget : capabilityAdvertised (some security.capabilities) BYTE_BUDGET_CAPABILITY = true :=
    u.advertises (by decide)
  exact .bind (runs_greet u k hp hk hs h) <| .bind install <|
    .bind (runs_ensure (by simp [budget])) <| runs_sendProtected u.start hw

theorem runs_runQuicSession_keyless (u : Understood json options .quic security script)
    (hp : options.psk = none) (hs : security.psk = none)
    (h : Holds inbox (line script.greeting ++ rest)) :
    Runs (runQuicSession crypto json options) ⟨inbox, [], []⟩ .plaintext
      ⟨inbox.drop (line script.greeting).length, [],
        [.sent script.hello options.hello, .heard script.greeting security.greeting,
          .sent script.start (.testStart options.id .quic)]⟩ := by
  have hg := u.greeting
  rw [greeting_keyless hs] at hg ⊢
  have install {w : Wire} : Runs (installTransport crypto options none none) w .plaintext w := by
    simp only [installTransport, hp]
    exact .pure
  have greet : Runs (greet crypto json options) ⟨inbox, [], []⟩
      (some security.capabilities, none, none)
      ⟨inbox.drop (line script.greeting).length, [], [.sent script.hello options.hello,
        .heard script.greeting (.serverHelloWithCapabilities security.capabilities)]⟩ :=
    .bind runs_operate <| .bind (runs_send u.hello) <| .bind (runs_receiveLine hg h) <|
      .bind (runs_ofExcept rfl) <| .bind (runs_parse hg hg.trim_line) <|
      .bind (runs_ensure (by decide)) <| .bind (.bind (runs_ensure (by simp [hp])) .pure) .pure
  have budget : capabilityAdvertised (some security.capabilities) BYTE_BUDGET_CAPABILITY = true :=
    u.advertises (by decide)
  exact .bind greet <| .bind install <| .bind (runs_ensure (by simp [budget])) <|
    runs_sendProtected u.start rfl

end Steps
end QuicClient

namespace QuicServer

-- The checks which a test over QUIC has to pass.
structure Accepts (security : SecurityContext) (start : Text) : Prop where
  payload : checkPayloadSize (security.parameters start) = .ok ()
  streams : checkStreams (security.parameters start).streams = .ok ()

section Grows

variable {transport : ProtectedControl}

theorem grows_handleTestRequest {clientHasPsk : Bool} :
    Grows (handleTestRequest crypto json security clientHasPsk transport) := by
  refine .bind grows_read fun _ => .bind grows_ofExcept fun _ => .bind grows_parse fun m => ?_
  split
  case h_1 =>
    exact .bind grows_refuseProtectedOn fun _ => .bind grows_refuseProtectedOn fun _ =>
      .bind grows_refuseProtectedOn fun _ => .bind grows_sendProtected fun _ => grows_record
  case h_2 => exact grows_refuseProtected

theorem grows_authenticate {raw : Text} {quicSessionPsk : Option Bytes} {clientNonce : Option Text}
    {authNonce : Option (Text × Text)} :
    Grows (authenticate crypto json quicSessionPsk raw clientNonce authNonce) := by
  unfold authenticate
  split
  case h_1 => exact .pure
  case h_2 =>
    refine .bind grows_read fun _ => .bind grows_ofExcept fun _ => .bind grows_parse fun m => ?_
    split
    case h_1 =>
      exact .bind grows_orThrow fun _ => .bind grows_refuseUnless fun _ => .bind grows_orThrow fun _ =>
        .bind grows_ofExcept fun _ => .bind grows_ofExcept fun _ => .bind grows_send fun _ => .pure
    case h_2 => exact grows_refuse

end Grows

section Steps

variable {clientNonce : Option Text} {transport : ProtectedControl} {bytes : Bytes}
  {quicSessionPsk : Option Bytes}

theorem runs_answerHello (c : Carries json security.greeting script.greeting) :
    Runs (answerHello json security
        (.hello PROTOCOL_VERSION (some SUPPORTED_CAPABILITIES) none clientNonce)) ⟨inbox, [], t⟩
      (security.psk.map fun _ => (security.nonce, script.greeting), clientNonce)
      ⟨inbox, [], t ++ [.sent script.greeting security.greeting]⟩ := by
  refine .bind (runs_refuseUnless (by decide)) ?_
  unfold SecurityContext.greeting at c ⊢
  cases hp : security.psk
  case none =>
    rw [hp] at c
    exact .bind (runs_send c) .pure
  case some psk =>
    rw [hp] at c
    exact .bind (runs_refuseUnless (by decide)) <| .bind (runs_refuseUnless (by decide)) <|
      .bind (runs_send c) .pure

-- What comes after the greeting.
theorem handleQuicClient_eq (u : Understood json options .quic security script)
    (hq : security.psk.mapM (derivePskSessionKey crypto) = .ok quicSessionPsk)
    (h : Holds inbox (line script.hello ++ rest)) :
    (handleQuicClient crypto json security).run.run ⟨inbox, [], []⟩ =
      (do
        let transport ← authenticate crypto json quicSessionPsk script.hello
          options.clientNonce (security.psk.map fun _ => (security.nonce, script.greeting))
        handleTestRequest crypto json security options.clientNonce.isSome
          transport : Handshake Unit).run.run
        ⟨inbox.drop (line script.hello).length, [],
          [.heard script.hello options.hello, .sent script.greeting security.greeting]⟩ := by
  have c := u.hello
  rw [hello_offers] at c ⊢
  refine (ExceptT.run_bind_ok (runs_ofExcept hq)).trans ?_
  refine (ExceptT.run_bind_ok (runs_read (a := ()) rfl)).trans ?_
  refine (ExceptT.run_bind_ok (runs_ofExcept rfl)).trans ?_
  refine (ExceptT.run_bind_ok (runs_receiveLine c h)).trans ?_
  refine (ExceptT.run_bind_ok (runs_ofExcept rfl)).trans ?_
  simp only [c.trim_line]
  refine (ExceptT.run_bind_ok (runs_parse c c.trim_line)).trans ?_
  refine (ExceptT.run_bind_ok (runs_answerHello u.greeting)).trans ?_
  rfl

theorem passes_greeting (u : Understood json options .quic security script)
    (hq : security.psk.mapM (derivePskSessionKey crypto) = .ok quicSessionPsk)
    (h : Holds inbox (line script.hello ++ rest)) :
    Passes Wire.Before (handleQuicClient crypto json security) ⟨inbox, [], []⟩
      ⟨inbox.drop (line script.hello).length, [],
        [.heard script.hello options.hello, .sent script.greeting security.greeting]⟩ := by
  rw [Passes, handleQuicClient_eq u hq h]
  exact Relates.bind grows_authenticate (fun _ => grows_handleTestRequest) _

theorem runs_authenticate (k : Keyed crypto json options security script key proof keys)
    (h : Holds inbox (line script.response ++ rest)) :
    Runs (authenticate crypto json (some key) script.hello (some options.nonce)
        (some (security.nonce, script.greeting))) ⟨inbox, [], t⟩ (.protectedServer keys.1 keys.2)
      ⟨inbox.drop (line script.response).length, [],
        t ++ [.heard script.response (responseTo crypto security key)] ++
          [.sent script.success (.authSuccess (some proof))]⟩ := by
  have hr : explainPskHangup id true true
      (.ok (script.response ++ ['\n']) : Except HandshakeError Text) =
        .ok (script.response ++ ['\n']) := by
    simp [explainPskHangup]
  exact .bind (runs_receiveLine k.response h) <| .bind (runs_ofExcept hr) <|
    .bind (runs_parse k.response k.response.trim_line) <| .bind runs_orThrow <|
    .bind (runs_refuseUnless verifyResponseWithKey_computed) <| .bind runs_orThrow <|
    .bind (runs_ofExcept k.derived) <| .bind (runs_ofExcept k.proof) <| .bind (runs_send k.success) .pure

-- A client with the same key gets to its test.
theorem handleQuicClient_eq_keyed (u : Understood json options .quic security script)
    (k : Keyed crypto json options security script key proof keys)
    (hq : security.psk.mapM (derivePskSessionKey crypto) = .ok (some key))
    (hp : options.psk.isSome = true) (hs : security.psk.isSome = true)
    (h : Holds inbox (line script.hello ++ (line script.response ++ rest))) :
    (handleQuicClient crypto json security).run.run ⟨inbox, [], []⟩ =
      (handleTestRequest crypto json security true (.protectedServer keys.1 keys.2)).run.run
        ⟨(inbox.drop (line script.hello).length).drop (line script.response).length, [],
          [.heard script.hello options.hello, .sent script.greeting security.greeting,
            .heard script.response (responseTo crypto security key),
            .sent script.success (.authSuccess (some proof))]⟩ := by
  obtain ⟨_, hp⟩ := Option.isSome_iff_exists.mp hp
  obtain ⟨_, hs⟩ := Option.isSome_iff_exists.mp hs
  rw [handleQuicClient_eq u hq h, hs, clientNonce_keyed hp]
  exact ExceptT.run_bind_ok (runs_authenticate k h.drop)

theorem passes_success (u : Understood json options .quic security script)
    (k : Keyed crypto json options security script key proof keys)
    (hq : security.psk.mapM (derivePskSessionKey crypto) = .ok (some key))
    (hp : options.psk.isSome = true) (hs : security.psk.isSome = true)
    (h : Holds inbox (line script.hello ++ (line script.response ++ rest))) :
    Passes Wire.Before (handleQuicClient crypto json security) ⟨inbox, [], []⟩
      ⟨(inbox.drop (line script.hello).length).drop (line script.response).length, [],
        [.heard script.hello options.hello, .sent script.greeting security.greeting,
          .heard script.response (responseTo crypto security key),
          .sent script.success (.authSuccess (some proof))]⟩ := by
  rw [Passes, handleQuicClient_eq_keyed u k hq hp hs h]
  exact grows_handleTestRequest _

theorem handleQuicClient_eq_keyless (u : Understood json options .quic security script)
    (hs : security.psk = none) (h : Holds inbox (line script.hello ++ rest)) :
    (handleQuicClient crypto json security).run.run ⟨inbox, [], []⟩ =
      (handleTestRequest crypto json security options.clientNonce.isSome .plaintext).run.run
        ⟨inbox.drop (line script.hello).length, [],
          [.heard script.hello options.hello, .sent script.greeting security.greeting]⟩ := by
  have hq : security.psk.mapM (derivePskSessionKey crypto) = .ok none := by rw [hs]; rfl
  rw [handleQuicClient_eq u hq h, hs]
  exact ExceptT.run_bind_ok .pure

theorem runs_handleTestRequest {peer : ProtectedControl} (clientHasPsk : Bool)
    (u : Understood json options .quic security script) (a : Accepts security script.start)
    (tagged : crypto.aead.Tagged) (p : ProtectedControl.Peers peer transport)
    (writes : transport.Writes crypto.aead)
    (hw : (peer.writeMessage crypto.aead script.start).1 = .ok bytes)
    (h : Holds inbox (bytes ++ rest)) :
    ∃ inbox', inbox'.flatten = rest ∧
      Runs (handleTestRequest crypto json security clientHasPsk transport) ⟨inbox, [], t⟩ ()
        ⟨inbox', [], t ++ [.heard script.start (.testStart options.id .quic)] ++
          [.sent script.ack (.testAck options.id)] ++ [.registered options.id]⟩ := by
  obtain ⟨read, transport', inbox', hread, ht, hne, hrest, hw'⟩ := u.start.readMessage tagged p hw h
  obtain ⟨ackBytes, hack⟩ := writes script.ack u.ack.fits
  have hr : explainPskHangup Prod.fst clientHasPsk security.psk.isSome
      (.ok (read, transport') : Except HandshakeError (Text × ProtectedControl)) =
        .ok (read, transport') := by
    simp [explainPskHangup, hne]
  refine ⟨inbox', hrest, .bind (runs_receive hread) <| .bind (runs_ofExcept hr) <|
    .bind (runs_parse u.start ht) ?_⟩
  simp only [ht]
  exact .bind (runs_refuseProtectedOn a.payload) <| .bind (runs_refuseProtectedOn rfl) <|
    .bind (runs_refuseProtectedOn a.streams) <|
    .bind (runs_sendProtected u.ack (Prod.ext ((hw' script.ack).trans hack) rfl)) runs_record

end Steps
end QuicServer
end Handshake
