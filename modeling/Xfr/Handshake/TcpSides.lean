import Xfr.Handshake.Terms

open Utf8 (Text)
open ExceptT (Fails Passes Relates Runs)

namespace Handshake

variable {crypto : Crypto} {json : Json} {options : ClientOptions} {security : SecurityContext}
  {script : Script} {psk proof : Text} {keys : ControlCodec × ControlCodec} {inbox : Fills}
  {t : List Event} {rest : Bytes}

namespace TcpClient

section Grows

variable {capabilities : Option (List Text)} {transport : ProtectedControl}

theorem grows_authenticate {hello line : Text} {auth : Option AuthChallenge} :
    Grows (authenticate crypto json options hello line capabilities auth) := by
  cases auth
  case none => exact .bind grows_ensure fun _ => .pure
  case some =>
    refine .bind grows_orThrow fun _ => .bind grows_ensure fun _ => .bind grows_send fun _ =>
      grows_reply fun _ m => ?_
    split
    case h_2 | h_3 => exact .throw
    case h_1 =>
      exact .bind grows_orThrow fun _ => .bind grows_orThrow fun _ => .bind grows_ofExcept fun _ =>
        .bind grows_ensure fun _ => .pure

theorem grows_installTransport {serverNonce : Option Text} :
    Grows (installTransport crypto options serverNonce) := by
  unfold installTransport
  split
  case h_1 => exact .pure
  case h_2 =>
    exact .bind grows_orThrow fun _ => .bind grows_orThrow fun _ => .bind grows_ofExcept fun _ => .pure

theorem grows_startTest : Grows (startTest crypto json options capabilities transport) :=
  .bind grows_ensure fun _ => .bind grows_ensure fun _ => .bind grows_ensure fun _ =>
    .bind grows_ofExcept fun _ => grows_sendProtected

-- What comes after the greeting.
theorem grows_runTest {r : Option (List Text) × Option Text} :
    Grows (do
      let transport ← installTransport crypto options r.2
      startTest crypto json options r.1 transport) :=
  .bind grows_installTransport fun _ => grows_startTest

end Grows

section Steps

theorem passes_hello (u : Understood json options options.protocol security script) :
    Passes Wire.Before (runTest crypto json options) ⟨inbox, [], []⟩
      ⟨inbox, [], [.sent script.hello options.hello]⟩ := by
  refine .within (.bind (runs_send u.hello) (Relates.passes <| grows_reply fun _ m => ?_))
    fun _ => grows_runTest
  split
  case h_1       => exact .bind grows_ensure fun _ => .bind grows_authenticate fun _ => .pure
  case h_2 | h_3 => exact .throw

theorem passes_response (u : Understood json options options.protocol security script)
    (hp : options.psk = some psk) (hs : security.psk.isSome = true)
    (c : Carries json (responseTo crypto security (Utf8.encode psk)) script.response)
    (h : Holds inbox (line script.greeting ++ rest)) :
    Passes Wire.Before (runTest crypto json options) ⟨inbox, [], []⟩
      ⟨inbox.drop (line script.greeting).length, [],
        [.sent script.hello options.hello, .heard script.greeting security.greeting,
          .sent script.response (responseTo crypto security (Utf8.encode psk))]⟩ := by
  have hg := u.greeting
  rw [SecurityContext.greeting, if_pos hs] at hg ⊢
  refine .within (.bind (runs_send u.hello) <| .bind (runs_receiveLine hg h) <|
    .bind (runs_ofExcept rfl) <| .bind (runs_parse hg hg.trim_line) <|
    .bind (runs_ensure (by decide)) <| .within ?_ fun _ => .pure) fun _ => grows_runTest
  simp only [authenticate, hp]
  refine .bind runs_orThrow <| .bind (runs_ensure (u.advertises (by decide))) <|
    .bind (runs_send c) (Relates.passes <| grows_reply fun _ m => ?_)
  split
  case h_2 | h_3 => exact .throw
  case h_1 =>
    exact .bind grows_orThrow fun _ => .bind grows_orThrow fun _ => .bind grows_ofExcept fun _ =>
      .bind grows_ensure fun _ => .pure

theorem runs_installTransport {w : Wire}
    (k : Keyed crypto json options security script (Utf8.encode psk) proof keys)
    (hp : options.psk = some psk) :
    Runs (installTransport crypto options (some security.nonce)) w
      (.protectedClient keys.1 keys.2) w := by
  simp only [installTransport, hp, clientNonce_keyed hp]
  exact .bind runs_orThrow <| .bind runs_orThrow <| .bind (runs_ofExcept k.derived) .pure

theorem runs_startTest {transport transport' : ProtectedControl} {bytes : Bytes}
    (u : Understood json options options.protocol security script)
    (ready : checkCongestion options = .ok ())
    (hw : transport.writeMessage crypto.aead script.start = (.ok bytes, transport')) :
    Runs (startTest crypto json options (some security.capabilities) transport) ⟨inbox, [], t⟩
      transport' ⟨inbox, [], t ++ [.sent script.start (.testStart options.id options.protocol)]⟩ := by
  have payload : capabilityAdvertised (some security.capabilities) UDP_PAYLOAD_SIZE_CAPABILITY = true :=
    u.advertises (by decide)
  have budget : capabilityAdvertised (some security.capabilities) BYTE_BUDGET_CAPABILITY = true :=
    u.advertises (by decide)
  exact .bind (runs_ensure (by simp [payload])) <|
    .bind (runs_ensure (by rw [u.advertises (by decide), Bool.or_true])) <|
    .bind (runs_ensure (by simp [budget])) <| .bind (runs_ofExcept ready) <|
    runs_sendProtected u.start hw

theorem runs_greet (u : Understood json options options.protocol security script)
    (k : Keyed crypto json options security script (Utf8.encode psk) proof keys)
    (hp : options.psk = some psk) (hs : security.psk.isSome = true)
    (h : Holds inbox (line script.greeting ++ (line script.success ++ rest))) :
    Runs (greet crypto json options) ⟨inbox, [], []⟩
      (some security.capabilities, some security.nonce)
      ⟨(inbox.drop (line script.greeting).length).drop (line script.success).length, [],
        [.sent script.hello options.hello, .heard script.greeting security.greeting,
          .sent script.response (responseTo crypto security (Utf8.encode psk)),
          .heard script.success (.authSuccess (some proof))]⟩ := by
  have hg := u.greeting
  rw [SecurityContext.greeting, if_pos hs] at hg ⊢
  refine .bind (runs_send u.hello) <| .bind (runs_receiveLine hg h) <| .bind (runs_ofExcept rfl) <|
    .bind (runs_parse hg hg.trim_line) <| .bind (runs_ensure (by decide)) <| .bind ?_ .pure
  simp only [authenticate, hp, hg.trim_line]
  refine .bind runs_orThrow <| .bind (runs_ensure (u.advertises (by decide))) <|
    .bind (runs_send k.response) <| .bind (runs_receiveLine k.success h.drop) <|
    .bind (runs_ofExcept rfl) <| .bind (runs_parse k.success k.success.trim_line) ?_
  simp only [clientNonce_keyed hp]
  exact .bind runs_orThrow <| .bind runs_orThrow <|
    .bind (runs_ofExcept (verifyWithKey_computed k.proof)) <| .bind (runs_ensure rfl) .pure

-- A client on a server with the same key.
theorem runs_runTest {transport : ProtectedControl} {bytes : Bytes}
    (u : Understood json options options.protocol security script)
    (k : Keyed crypto json options security script (Utf8.encode psk) proof keys)
    (hp : options.psk = some psk) (hs : security.psk.isSome = true)
    (ready : checkCongestion options = .ok ())
    (hw : (ProtectedControl.protectedClient keys.1 keys.2).writeMessage crypto.aead script.start =
      (.ok bytes, transport))
    (h : Holds inbox (line script.greeting ++ (line script.success ++ rest))) :
    Runs (runTest crypto json options) ⟨inbox, [], []⟩ transport
      ⟨(inbox.drop (line script.greeting).length).drop (line script.success).length, [],
        [.sent script.hello options.hello, .heard script.greeting security.greeting,
          .sent script.response (responseTo crypto security (Utf8.encode psk)),
          .heard script.success (.authSuccess (some proof)),
          .sent script.start (.testStart options.id options.protocol)]⟩ :=
  .bind (runs_greet u k hp hs h) <| .bind (runs_installTransport k hp) (runs_startTest u ready hw)

theorem runs_runTest_keyless (u : Understood json options options.protocol security script)
    (hp : options.psk = none) (hs : security.psk = none) (ready : checkCongestion options = .ok ())
    (h : Holds inbox (line script.greeting ++ rest)) :
    Runs (runTest crypto json options) ⟨inbox, [], []⟩ .plaintext
      ⟨inbox.drop (line script.greeting).length, [],
        [.sent script.hello options.hello, .heard script.greeting security.greeting,
          .sent script.start (.testStart options.id options.protocol)]⟩ := by
  have hg := u.greeting
  rw [greeting_keyless hs] at hg ⊢
  have install {w : Wire} {serverNonce : Option Text} :
      Runs (installTransport crypto options serverNonce) w .plaintext w := by
    simp only [installTransport, hp]
    exact .pure
  have greet : Runs (greet crypto json options) ⟨inbox, [], []⟩ (some security.capabilities, none)
      ⟨inbox.drop (line script.greeting).length, [], [.sent script.hello options.hello,
        .heard script.greeting (.serverHelloWithCapabilities security.capabilities)]⟩ :=
    .bind (runs_send u.hello) <| .bind (runs_receiveLine hg h) <| .bind (runs_ofExcept rfl) <|
      .bind (runs_parse hg hg.trim_line) <| .bind (runs_ensure (by decide)) <|
      .bind (.bind (runs_ensure (by simp [hp])) .pure) .pure
  exact .bind greet <| .bind install (runs_startTest u ready rfl)

end Steps
end TcpClient

namespace TcpServer

-- The checks which a test over TCP or UDP has to pass.
structure Accepts (security : SecurityContext) (start : Text) (protocol : Protocol) : Prop where
  acquired   : security.acquired = true
  payload    : checkPayloadSize protocol (security.parameters start) = .ok ()
  streams    : checkStreams (security.parameters start).streams = .ok ()
  congestion : checkCongestion security protocol (security.parameters start) = .ok ()
  tcp        : protocol ≠ .quic

section Grows

variable {transport : ProtectedControl}

theorem grows_writeAckOrCleanup {id : Text} :
    Grows (writeAckOrCleanup crypto json id transport) := by
  unfold writeAckOrCleanup
  split
  case h_1 => exact .bind grows_record fun _ => .throw
  case h_2 =>
    split
    case h_1 => exact .bind grows_record fun _ => .throw
    case h_2 =>
      refine .bind grows_record fun _ => .bind grows_fault fun _ => ?_
      split
      case h_1 => exact .bind grows_record fun _ => .throw
      case h_2 => exact .pure

theorem grows_handleTestRequest {clientHasPsk : Bool} :
    Grows (handleTestRequest crypto json security clientHasPsk transport) := by
  refine .bind grows_read fun _ => .bind grows_ofExcept fun _ => .bind grows_parse fun m => ?_
  split
  case h_1 =>
    exact .bind grows_refuseProtectedOn fun _ => .bind grows_refuseProtectedOn fun _ =>
      .bind grows_refuseProtectedOn fun _ => .bind grows_ensure fun _ => .bind grows_operate fun _ =>
      .bind grows_record fun _ => grows_writeAckOrCleanup
  case h_2 => exact grows_refuseProtected

theorem grows_authenticate {raw : Text} {clientNonce : Option Text}
    {authNonce : Option (Text × Text)} :
    Grows (authenticate crypto json security raw clientNonce authNonce) := by
  unfold authenticate
  split
  case h_1 => exact .pure
  case h_2 =>
    refine .bind grows_read fun _ => .bind grows_ofExcept fun _ => .bind grows_parse fun m => ?_
    split
    case h_1 =>
      exact .bind grows_orThrow fun _ => .bind grows_refuseUnless fun _ => .bind grows_orThrow fun _ =>
        .bind grows_ofExcept fun _ => .bind grows_ofExcept fun _ => .bind grows_send fun _ => .pure
    case h_2 => exact grows_refuse

end Grows

-- The first line ends where the first newline is.
theorem readFirstLineUnbuffered_eq {maxLen : Nat} {bytes read : Bytes} (hn : newline ∉ bytes)
    (hl : read.length + bytes.length < maxLen) :
    readFirstLineUnbuffered maxLen (bytes ++ newline :: rest) read =
      .ok (Utf8.decodeLossy (read ++ bytes), rest) := by
  induction bytes generalizing read
  case nil => simp [readFirstLineUnbuffered]
  case cons b bytes hi =>
    have ⟨hb, hn⟩ := List.ne_and_not_mem_of_not_mem_cons hn
    have hr : (read ++ [b]).length = read.length + 1 := List.length_append
    rw [List.length_cons] at hl
    rw [List.cons_append, readFirstLineUnbuffered, if_neg hb.symm]
    dsimp only
    rw [if_neg (by omega), hi hn (by omega), List.append_assoc]
    rfl

section Steps

variable {m : Message} {hello : Text} {clientNonce : Option Text} {transport : ProtectedControl}
  {bytes : Bytes}

theorem runs_firstLine (c : Carries json m hello) (h : Holds inbox (line hello ++ rest)) :
    Runs (read (some "Initial read timeout") fun fills => do
        let (line, rest) ← readFirstLineUnbuffered MAX_LINE_LENGTH fills.flatten []
        return (line, fills.drop (fills.flatten.length - rest.length)))
      ⟨inbox, [], t⟩ (.ok hello) ⟨inbox.drop (line hello).length, [], t⟩ := by
  have hf : inbox.flatten = Utf8.encode hello ++ newline :: rest := by simp [h.flatten, line]
  have hl : ([] : Bytes).length + (Utf8.encode hello).length < MAX_LINE_LENGTH := by
    simpa using c.fits
  have hd : (Utf8.encode hello ++ newline :: rest).length - rest.length = (line hello).length := by
    simp only [line, List.length_append, List.length_cons, List.length_nil]
    omega
  refine runs_read ?_
  rw [hf, readFirstLineUnbuffered_eq (Framing.newline_notMem_encode c.no_newline) hl, List.nil_append,
    Utf8.decodeLossy_encode]
  simp only [bind, Except.bind, hd]
  rfl

theorem runs_answerHello (c : Carries json security.greeting script.greeting) :
    Runs (answerHello json security
        (.hello PROTOCOL_VERSION (some SUPPORTED_CAPABILITIES) none clientNonce)) ⟨inbox, [], t⟩
      (security.psk.map fun _ => (security.nonce, script.greeting), clientNonce)
      ⟨inbox, [], t ++ [.sent script.greeting security.greeting]⟩ := by
  refine .bind (runs_refuseUnless (by decide)) ?_
  unfold SecurityContext.greeting at c ⊢
  cases hp : security.psk
  case none =>
    rw [hp] at c
    exact .bind (runs_send c) .pure
  case some psk =>
    rw [hp] at c
    exact .bind (runs_refuseUnless (by decide)) <| .bind (runs_send c) .pure

-- What comes after the greeting. How it goes is told by what happens there.
theorem handleNewConnection_eq (u : Understood json options options.protocol security script)
    (ha : security.acquired = true) (h : Holds inbox (line script.hello ++ rest)) :
    (handleNewConnection crypto json security).run.run ⟨inbox, [], []⟩ =
      (do
        let transport ← authenticate crypto json security script.hello options.clientNonce
          (security.psk.map fun _ => (security.nonce, script.greeting))
        handleTestRequest crypto json security options.clientNonce.isSome
          transport : Handshake Unit).run.run
        ⟨inbox.drop (line script.hello).length, [],
          [.heard script.hello options.hello, .sent script.greeting security.greeting]⟩ := by
  have c := u.hello
  rw [hello_offers] at c ⊢
  refine (ExceptT.run_bind_ok (runs_firstLine c h)).trans ?_
  refine (ExceptT.run_bind_ok (runs_ofExcept rfl)).trans ?_
  refine (ExceptT.run_bind_ok (runs_parse c c.trim)).trans ?_
  simp only [ha, if_true]
  refine (ExceptT.run_bind_ok (runs_answerHello u.greeting)).trans ?_
  rfl

theorem passes_greeting (u : Understood json options options.protocol security script)
    (ha : security.acquired = true) (h : Holds inbox (line script.hello ++ rest)) :
    Passes Wire.Before (handleNewConnection crypto json security) ⟨inbox, [], []⟩
      ⟨inbox.drop (line script.hello).length, [],
        [.heard script.hello options.hello, .sent script.greeting security.greeting]⟩ := by
  rw [Passes, handleNewConnection_eq u ha h]
  exact Relates.bind grows_authenticate (fun _ => grows_handleTestRequest) _

theorem runs_authenticate
    (k : Keyed crypto json options security script (Utf8.encode psk) proof keys)
    (hs : security.psk = some psk) (h : Holds inbox (line script.response ++ rest)) :
    Runs (authenticate crypto json security script.hello (some options.nonce)
        (some (security.nonce, script.greeting))) ⟨inbox, [], t⟩ (.protectedServer keys.1 keys.2)
      ⟨inbox.drop (line script.response).length, [],
        t ++ [.heard script.response (responseTo crypto security (Utf8.encode psk))] ++
          [.sent script.success (.authSuccess (some proof))]⟩ := by
  have hr : explainPskHangup id true true
      (.ok (script.response ++ ['\n']) : Except HandshakeError Text) =
        .ok (script.response ++ ['\n']) := by
    simp [explainPskHangup]
  refine .bind (runs_receiveLine k.response h) <| .bind (runs_ofExcept hr) <|
    .bind (runs_parse k.response k.response.trim_line) ?_
  simp only [hs]
  exact .bind runs_orThrow <| .bind (runs_refuseUnless verifyResponseWithKey_computed) <|
    .bind runs_orThrow <| .bind (runs_ofExcept k.derived) <| .bind (runs_ofExcept k.proof) <|
    .bind (runs_send k.success) .pure

-- A client with the same key gets to its test.
theorem handleNewConnection_eq_keyed (u : Understood json options options.protocol security script)
    (k : Keyed crypto json options security script (Utf8.encode psk) proof keys)
    (ha : security.acquired = true) (hp : options.psk = some psk) (hs : security.psk = some psk)
    (h : Holds inbox (line script.hello ++ (line script.response ++ rest))) :
    (handleNewConnection crypto json security).run.run ⟨inbox, [], []⟩ =
      (handleTestRequest crypto json security true (.protectedServer keys.1 keys.2)).run.run
        ⟨(inbox.drop (line script.hello).length).drop (line script.response).length, [],
          [.heard script.hello options.hello, .sent script.greeting security.greeting,
            .heard script.response (responseTo crypto security (Utf8.encode psk)),
            .sent script.success (.authSuccess (some proof))]⟩ := by
  rw [handleNewConnection_eq u ha h, hs, clientNonce_keyed hp]
  exact ExceptT.run_bind_ok (runs_authenticate k hs h.drop)

theorem passes_success (u : Understood json options options.protocol security script)
    (k : Keyed crypto json options security script (Utf8.encode psk) proof keys)
    (ha : security.acquired = true) (hp : options.psk = some psk) (hs : security.psk = some psk)
    (h : Holds inbox (line script.hello ++ (line script.response ++ rest))) :
    Passes Wire.Before (handleNewConnection crypto json security) ⟨inbox, [], []⟩
      ⟨(inbox.drop (line script.hello).length).drop (line script.response).length, [],
        [.heard script.hello options.hello, .sent script.greeting security.greeting,
          .heard script.response (responseTo crypto security (Utf8.encode psk)),
          .sent script.success (.authSuccess (some proof))]⟩ := by
  rw [Passes, handleNewConnection_eq_keyed u k ha hp hs h]
  exact grows_handleTestRequest _

theorem handleNewConnection_eq_keyless (u : Understood json options options.protocol security script)
    (ha : security.acquired = true) (hs : security.psk = none)
    (h : Holds inbox (line script.hello ++ rest)) :
    (handleNewConnection crypto json security).run.run ⟨inbox, [], []⟩ =
      (handleTestRequest crypto json security options.clientNonce.isSome .plaintext).run.run
        ⟨inbox.drop (line script.hello).length, [],
          [.heard script.hello options.hello, .sent script.greeting security.greeting]⟩ := by
  rw [handleNewConnection_eq u ha h, hs]
  exact ExceptT.run_bind_ok .pure

theorem runs_writeAckOrCleanup {ack id : Text} (c : Carries json (.testAck id) ack)
    (h : (transport.writeMessage crypto.aead ack).1 = .ok bytes) :
    Runs (writeAckOrCleanup crypto json id transport) ⟨inbox, [], t⟩ ()
      ⟨inbox, [], t ++ [.sent ack (.testAck id)]⟩ := by
  unfold writeAckOrCleanup
  rw [c.serialize]
  cases hw : transport.writeMessage crypto.aead ack with | mk r transport' =>
  rw [hw] at h
  subst h
  simp only [hw]
  rfl

theorem runs_handleTestRequest {peer : ProtectedControl} (clientHasPsk : Bool)
    (u : Understood json options options.protocol security script)
    (a : Accepts security script.start options.protocol) (tagged : crypto.aead.Tagged)
    (p : ProtectedControl.Peers peer transport) (writes : transport.Writes crypto.aead)
    (hw : (peer.writeMessage crypto.aead script.start).1 = .ok bytes)
    (h : Holds inbox (bytes ++ rest)) :
    ∃ inbox', inbox'.flatten = rest ∧
      Runs (handleTestRequest crypto json security clientHasPsk transport) ⟨inbox, [], t⟩ ()
        ⟨inbox', [], t ++ [.heard script.start (.testStart options.id options.protocol)] ++
          [.registered options.id] ++ [.sent script.ack (.testAck options.id)]⟩ := by
  obtain ⟨read, transport', inbox', hread, ht, hne, hrest, hw'⟩ := u.start.readMessage tagged p hw h
  obtain ⟨ackBytes, hack⟩ := writes script.ack u.ack.fits
  have hr : explainPskHangup Prod.fst clientHasPsk security.psk.isSome
      (.ok (read, transport') : Except HandshakeError (Text × ProtectedControl)) =
        .ok (read, transport') := by
    simp [explainPskHangup, hne]
  refine ⟨inbox', hrest, .bind (runs_receive hread) <| .bind (runs_ofExcept hr) <|
    .bind (runs_parse u.start ht) ?_⟩
  simp only [ht]
  exact .bind (runs_refuseProtectedOn a.payload) <| .bind (runs_refuseProtectedOn a.streams) <|
    .bind (runs_refuseProtectedOn a.congestion) <| .bind (runs_ensure (by simpa using a.tcp)) <|
    .bind runs_operate <| .bind runs_record <|
    runs_writeAckOrCleanup u.ack ((hw' script.ack).trans hack)

end Steps
end TcpServer
end Handshake
