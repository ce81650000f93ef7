import Xfr.Handshake.Agreement

open Utf8 (Text)
open ExceptT (Fails Passes Relates Runs)

namespace Handshake

-- What the server makes of it when the keys do not fit.
def missingKeyError : Text :=
  "authentication failed: the client sent no pre-shared key".toList

def unusedKeyError : Text :=
  "the client uses a pre-shared key but this server does not; ".toList ++
    "configure the server with --psk/--psk-file or remove it from the client".toList

def wrongKeyError : Text :=
  "authentication failed: PSK mismatch (the client sent a different pre-shared key)".toList

-- What a user is told on each side.
def mismatchErrors (clientPsk serverPsk : Option Text) : Text × Text :=
  match clientPsk, serverPsk with
  | none,   _      => (pskRequiredError, missingKeyError)
  | some _, none   => (pskNotUsedError, unusedKeyError)
  | some _, some _ => (authRejectedError "Authentication failed".toList, wrongKeyError)

-- Both sides give up, each with an error of its own, and there is no test.
structure Mismatched (errors : Text × Text)
    (client : Except HandshakeError ProtectedControl × Wire)
    (server : Except HandshakeError Unit × Wire) : Prop where
  clientError  : client.1 = .error (.text errors.1)
  serverError  : server.1 = .error (.text errors.2)
  unstarted    : ∀ text id protocol, .sent text (.testStart id protocol) ∉ client.2.trace
  unregistered : ∀ id, .registered id ∉ server.2.trace

-- The response of the client is one which the server does not accept.
structure Distinguished (clientCrypto serverCrypto : Crypto) (json : Json)
    (security : SecurityContext) (script : Script) (clientKey serverKey : Bytes) : Prop where
  response : Carries json (responseTo clientCrypto security clientKey) script.response
  refusal  : Carries json (.error "Authentication failed".toList) script.success
  differs  : Auth.verifyResponseWithKey serverCrypto.hmac security.nonce serverKey
               (Auth.computeResponseWithKey clientCrypto.hmac security.nonce clientKey) = false

section Sides

variable {crypto clientCrypto serverCrypto : Crypto} {json : Json} {options : ClientOptions}
  {security : SecurityContext} {script : Script} {psk psk' : Text} {key key' : Bytes} {inbox : Fills}
  {t : List Event} {rest : Bytes} {limit : Option String}

-- A connection which is closed before there is a line.
theorem Holds.eq_nil (h : Holds inbox []) : inbox = [] :=
  List.eq_nil_iff_forall_not_mem.mpr fun fill hf =>
    h.ne_nil fill hf (List.flatten_eq_nil_iff.mp h.flatten fill hf)

theorem runs_receiveLine_nil : Runs (receiveLine limit) ⟨[], [], t⟩ (.ok []) ⟨[], [], t⟩ :=
  runs_read rfl

theorem runs_receive_nil {aead : Aead} :
    Runs (receive aead .plaintext limit) ⟨[], [], t⟩ (.ok ([], .plaintext)) ⟨[], [], t⟩ :=
  runs_read rfl

namespace TcpClient

theorem fails_challenged (u : Understood json options options.protocol security script)
    (hp : options.psk = none) (hs : security.psk.isSome = true)
    (h : Holds inbox (line script.greeting ++ rest)) :
    Fails (runTest crypto json options) ⟨inbox, [], []⟩ (.text pskRequiredError)
      ⟨inbox.drop (line script.greeting).length, [],
        [.sent script.hello options.hello, .heard script.greeting security.greeting]⟩ := by
  have hg := u.greeting
  rw [SecurityContext.greeting, if_pos hs] at hg ⊢
  refine .bind <| .after (runs_send u.hello) <| .after (runs_receiveLine hg h) <|
    .after (runs_ofExcept rfl) <| .after (runs_parse hg hg.trim_line) <|
    .after (runs_ensure (by decide)) <| .bind ?_
  simp only [authenticate, hp]
  exact .bind fails_orThrow

theorem fails_unchallenged (u : Understood json options options.protocol security script)
    (hp : options.psk = some psk) (hs : security.psk = none)
    (h : Holds inbox (line script.greeting ++ rest)) :
    Fails (runTest crypto json options) ⟨inbox, [], []⟩ (.text pskNotUsedError)
      ⟨inbox.drop (line script.greeting).length, [],
        [.sent script.hello options.hello, .heard script.greeting security.greeting]⟩ := by
  have hg := u.greeting
  rw [greeting_keyless hs] at hg ⊢
  exact .bind <| .after (runs_send u.hello) <| .after (runs_receiveLine hg h) <|
    .after (runs_ofExcept rfl) <| .after (runs_parse hg hg.trim_line) <|
    .after (runs_ensure (by decide)) <| .bind <| .bind <| fails_ensure (by simp [hp])

theorem fails_rejected (u : Understood json options options.protocol security script)
    (hp : options.psk = some psk) (hs : security.psk.isSome = true)
    (c : Carries json (responseTo crypto security (Utf8.encode psk)) script.response)
    (c' : Carries json (.error "Authentication failed".toList) script.success)
    (h : Holds inbox (line script.greeting ++ (line script.success ++ rest))) :
    Fails (runTest crypto json options) ⟨inbox, [], []⟩
      (.text (authRejectedError "Authentication failed".toList))
      ⟨(inbox.drop (line script.greeting).length).drop (line script.success).length, [],
        [.sent script.hello options.hello, .heard script.greeting security.greeting,
          .sent script.response (responseTo crypto security (Utf8.encode psk)),
          .heard script.success (.error "Authentication failed".toList)]⟩ := by
  have hg := u.greeting
  rw [SecurityContext.greeting, if_pos hs] at hg ⊢
  refine .bind <| .after (runs_send u.hello) <| .after (runs_receiveLine hg h) <|
    .after (runs_ofExcept rfl) <| .after (runs_parse hg hg.trim_line) <|
    .after (runs_ensure (by decide)) <| .bind ?_
  simp only [authenticate, hp]
  exact .after runs_orThrow <| .after (runs_ensure (u.advertises (by decide))) <|
    .after (runs_send c) <| .after (runs_receiveLine c' h.drop) <| .after (runs_ofExcept rfl) <|
    .after (runs_parse c' c'.trim_line) .throw

end TcpClient

namespace TcpServer

-- A client without a key hangs up when it is challenged.
theorem fails_missing (u : Understood json options options.protocol security script)
    (ha : security.acquired = true) (hp : options.psk = none) (hs : security.psk = some psk)
    (h : Holds inbox (line script.hello ++ [])) :
    Fails (handleNewConnection crypto json security) ⟨inbox, [], []⟩ (.text missingKeyError)
      ⟨[], [], [.heard script.hello options.hello, .sent script.greeting security.greeting]⟩ := by
  rw [Fails, handleNewConnection_eq u ha h, h.drop.eq_nil, hs, clientNonce_keyless hp]
  exact Fails.bind <| .after runs_receiveLine_nil <| .bind <| fails_ofExcept rfl

-- A client with a key hangs up when it is not challenged.
theorem fails_unused (u : Understood json options options.protocol security script)
    (ha : security.acquired = true) (hp : options.psk = some psk) (hs : security.psk = none)
    (h : Holds inbox (line script.hello ++ [])) :
    Fails (handleNewConnection crypto json security) ⟨inbox, [], []⟩ (.text unusedKeyError)
      ⟨[], [], [.heard script.hello options.hello, .sent script.greeting security.greeting]⟩ := by
  have hr : explainPskHangup Prod.fst true security.psk.isSome
      (.ok ([], .plaintext) : Except HandshakeError (Text × ProtectedControl)) =
        .error (.text unusedKeyError) := by
    rw [hs]
    rfl
  rw [Fails, handleNewConnection_eq_keyless u ha hs h, h.drop.eq_nil, clientNonce_keyed hp]
  exact Fails.after runs_receive_nil <| .bind <| fails_ofExcept hr

theorem fails_wrong (u : Understood json options options.protocol security script)
    (d : Distinguished crypto crypto json security script (Utf8.encode psk) (Utf8.encode psk'))
    (ha : security.acquired = true) (hs : security.psk = some psk')
    (h : Holds inbox (line script.hello ++ (line script.response ++ rest))) :
    Fails (handleNewConnection crypto json security) ⟨inbox, [], []⟩ (.text wrongKeyError)
      ⟨(inbox.drop (line script.hello).length).drop (line script.response).length, [],
        [.heard script.hello options.hello, .sent script.greeting security.greeting,
          .heard script.response (responseTo crypto security (Utf8.encode psk)),
          .sent script.success (.error "Authentication failed".toList)]⟩ := by
  have hr : explainPskHangup id options.clientNonce.isSome true
      (.ok (script.response ++ ['\n']) : Except HandshakeError Text) =
        .ok (script.response ++ ['\n']) := by
    simp [explainPskHangup]
  have hv : Auth.verifyResponse crypto.hmac security.nonce psk'
      (Auth.computeResponseWithKey crypto.hmac security.nonce (Utf8.encode psk)) = false := d.differs
  rw [Fails, handleNewConnection_eq u ha h, hs]
  refine Fails.bind <| .after (runs_receiveLine d.response h.drop) <| .after (runs_ofExcept hr) <|
    .after (runs_parse d.response d.response.trim_line) ?_
  simp only [hs]
  refine .after runs_orThrow <| .bind ?_
  rw [refuseUnless, if_neg (by simp [hv])]
  exact fails_refuse d.refusal

end TcpServer

namespace QuicClient

theorem fails_challenged (u : Understood json options .quic security script)
    (hp : options.psk = none) (hs : security.psk.isSome = true)
    (h : Holds inbox (line script.greeting ++ rest)) :
    Fails (runQuicSession crypto json options) ⟨inbox, [], []⟩ (.text pskRequiredError)
      ⟨inbox.drop (line script.greeting).length, [],
        [.sent script.hello options.hello, .heard script.greeting security.greeting]⟩ := by
  have hg := u.greeting
  rw [SecurityContext.greeting, if_pos hs] at hg ⊢
  refine .bind <| .after runs_operate <| .after (runs_send u.hello) <|
    .after (runs_receiveLine hg h) <| .after (runs_ofExcept rfl) <|
    .after (runs_parse hg hg.trim_line) <| .after (runs_ensure (by decide)) <| .bind ?_
  simp only [authenticate, hp]
  exact .bind fails_orThrow

theorem fails_unchallenged (u : Understood json options .quic security script)
    (hp : options.psk = some psk) (hs : security.psk = none)
    (h : Holds inbox (line script.greeting ++ rest)) :
    Fails (runQuicSession crypto json options) ⟨inbox, [], []⟩ (.text pskNotUsedError)
      ⟨inbox.drop (line script.greeting).length, [],
        [.sent script.hello options.hello, .heard script.greeting security.greeting]⟩ := by
  have hg := u.greeting
  rw [greeting_keyless hs] at hg ⊢
  exact .bind <| .after runs_operate <| .after (runs_send u.hello) <| .after (runs_receiveLine hg h) <|
    .after (runs_ofExcept rfl) <| .after (runs_parse hg hg.trim_line) <|
    .after (runs_ensure (by decide)) <| .bind <| .bind <| fails_ensure (by simp [hp])

theorem fails_rejected (u : Understood json options .quic security script)
    (hp : options.psk = some psk) (hk : derivePskSessionKey crypto psk = .ok key)
    (hs : security.psk.isSome = true)
    (c : Carries json (responseTo crypto security key) script.response)
    (c' : Carries json (.error "Authentication failed".toList) script.success)
    (h : Holds inbox (line script.greeting ++ (line script.success ++ rest))) :
    Fails (runQuicSession crypto json options) ⟨inbox, [], []⟩
      (.text (authRejectedError "Authentication failed".toList))
      ⟨(inbox.drop (line script.greeting).length).drop (line script.success).length, [],
        [.sent script.hello options.hello, .heard script.greeting security.greeting,
          .sent script.response (responseTo crypto security key),
          .heard script.success (.error "Authentication failed".toList)]⟩ := by
  have hg := u.greeting
  rw [SecurityContext.greeting, if_pos hs] at hg ⊢
  refine .bind <| .after runs_operate <| .after (runs_send u.hello) <|
    .after (runs_receiveLine hg h) <| .after (runs_ofExcept rfl) <|
    .after (runs_parse hg hg.trim_line) <| .after (runs_ensure (by decide)) <| .bind ?_
  simp only [authenticate, hp]
  exact .after runs_orThrow <| .after (runs_ensure (u.advertises (by decide))) <|
    .after (runs_ensure (u.advertises (by decide))) <| .after (runs_ofExcept hk) <|
    .after (runs_send c) <| .after (runs_receiveLine c' h.drop) <| .after (runs_ofExcept rfl) <|
    .after (runs_parse c' c'.trim_line) .throw

end QuicClient

namespace QuicServer

variable {quicSessionPsk : Option Bytes}

theorem fails_missing (u : Understood json options .quic security script)
    (hq : security.psk.mapM (derivePskSessionKey crypto) = .ok quicSessionPsk)
    (hp : options.psk = none) (hs : security.psk = some psk)
    (h : Holds inbox (line script.hello ++ [])) :
    Fails (handleQuicClient crypto json security) ⟨inbox, [], []⟩ (.text missingKeyError)
      ⟨[], [], [.heard script.hello options.hello, .sent script.greeting security.greeting]⟩ := by
  rw [Fails, handleQuicClient_eq u hq h, h.drop.eq_nil, hs, clientNonce_keyless hp]
  exact Fails.bind <| .after runs_receiveLine_nil <| .bind <| fails_ofExcept rfl

theorem fails_unused (u : Understood json options .quic security script)
    (hp : options.psk = some psk) (hs : security.psk = none)
    (h : Holds inbox (line script.hello ++ [])) :
    Fails (handleQuicClient crypto json security) ⟨inbox, [], []⟩ (.text unusedKeyError)
      ⟨[], [], [.heard script.hello options.hello, .sent script.greeting security.greeting]⟩ := by
  have hr : explainPskHangup Prod.fst true security.psk.isSome
      (.ok ([], .plaintext) : Except HandshakeError (Text × ProtectedControl)) =
        .error (.text unusedKeyError) := by
    rw [hs]
    rfl
  rw [Fails, handleQuicClient_eq_keyless u hs h, h.drop.eq_nil, clientNonce_keyed hp]
  exact Fails.after runs_receive_nil <| .bind <| fails_ofExcept hr

theorem fails_wrong (u : Understood json options .quic security script)
    (d : Distinguished clientCrypto serverCrypto json security script key key')
    (hq : security.psk.mapM (derivePskSessionKey serverCrypto) = .ok (some key'))
    (hs : security.psk.isSome = true)
    (h : Holds inbox (line script.hello ++ (line script.response ++ rest))) :
    Fails (handleQuicClient serverCrypto json security) ⟨inbox, [], []⟩ (.text wrongKeyError)
      ⟨(inbox.drop (line script.hello).length).drop (line script.response).length, [],
        [.heard script.hello options.hello, .sent script.greeting security.greeting,
          .heard script.response (responseTo clientCrypto security key),
          .sent script.success (.error "Authentication failed".toList)]⟩ := by
  have hr : explainPskHangup id options.clientNonce.isSome true
      (.ok (script.response ++ ['\n']) : Except HandshakeError Text) =
        .ok (script.response ++ ['\n']) := by
    simp [explainPskHangup]
  obtain ⟨_, hs⟩ := Option.isSome_iff_exists.mp hs
  rw [Fails, handleQuicClient_eq u hq h, hs]
  refine Fails.bind <| .after (runs_receiveLine d.response h.drop) <| .after (runs_ofExcept hr) <|
    .after (runs_parse d.response d.response.trim_line) <| .after runs_orThrow <| .bind ?_
  rw [refuseUnless, if_neg (by simp [d.differs])]
  exact fails_refuse d.refusal

end QuicServer

end Sides

section Tcp

variable {crypto : Crypto} {json : Json} {options : ClientOptions} {security : SecurityContext}
  {script : Script} {psk psk' : Text} {keys : ControlCodec × ControlCodec}
  {clientInbox serverInbox : Fills}
  (connection : TcpConnection crypto json options security keys clientInbox serverInbox)
  (u : Understood json options options.protocol security script)
include connection u

theorem tcp_mismatched_missing (ha : security.acquired = true) (hp : options.psk = none)
    (hs : security.psk = some psk) :
    Mismatched (pskRequiredError, missingKeyError)
      (outcome (TcpClient.runTest crypto json options) clientInbox [])
      (outcome (TcpServer.handleNewConnection crypto json security) serverInbox []) := by
  obtain ⟨_, h⟩ := tcp_greeted connection u ha
  have client : outcome (TcpClient.runTest crypto json options) clientInbox [] = _ :=
    TcpClient.fails_challenged u hp (hs ▸ rfl) h
  have arrived := connection.server
  rw [trace, client, written_line protects_hello, written_heard protects_greeting.right] at arrived
  have server : outcome (TcpServer.handleNewConnection crypto json security) serverInbox [] = _ :=
    TcpServer.fails_missing u ha hp hs arrived
  rw [client, server, hello_offers, greeting_keyed hs]
  exact ⟨rfl, rfl, by simp, by simp⟩

theorem tcp_mismatched_unused (ha : security.acquired = true) (hp : options.psk = some psk)
    (hs : security.psk = none) :
    Mismatched (pskNotUsedError, unusedKeyError)
      (outcome (TcpClient.runTest crypto json options) clientInbox [])
      (outcome (TcpServer.handleNewConnection crypto json security) serverInbox []) := by
  obtain ⟨_, h⟩ := tcp_greeted connection u ha
  have client : outcome (TcpClient.runTest crypto json options) clientInbox [] = _ :=
    TcpClient.fails_unchallenged u hp hs h
  have arrived := connection.server
  rw [trace, client, written_line protects_hello, written_heard protects_greeting.right] at arrived
  have server : outcome (TcpServer.handleNewConnection crypto json security) serverInbox [] = _ :=
    TcpServer.fails_unused u ha hp hs arrived
  rw [client, server, hello_offers, greeting_keyless hs]
  exact ⟨rfl, rfl, by simp, by simp⟩

theorem tcp_mismatched_wrong (ha : security.acquired = true)
    (d : Distinguished crypto crypto json security script (Utf8.encode psk) (Utf8.encode psk'))
    (hp : options.psk = some psk) (hs : security.psk = some psk') :
    Mismatched (authRejectedError "Authentication failed".toList, wrongKeyError)
      (outcome (TcpClient.runTest crypto json options) clientInbox [])
      (outcome (TcpServer.handleNewConnection crypto json security) serverInbox []) := by
  obtain ⟨_, h⟩ := tcp_responded connection u hp (hs ▸ rfl) d.response ha
  have server : outcome (TcpServer.handleNewConnection crypto json security) serverInbox [] = _ :=
    TcpServer.fails_wrong u d ha hs h
  have answer := connection.client
  rw [trace, server, written_heard protects_heard_hello, written_line protects_greeting.left,
    written_heard rfl, written_line rfl] at answer
  have client : outcome (TcpClient.runTest crypto json options) clientInbox [] = _ :=
    TcpClient.fails_rejected u hp (hs ▸ rfl) d.response d.refusal answer
  rw [client, server, hello_offers, greeting_keyed hs]
  exact ⟨rfl, rfl, by simp, by simp⟩

-- Two sides of which only one has a key, or which have different keys: once each side has read what
-- the other one wrote, both have given up, and both name the mismatch.
theorem tcp_mismatched (acquired : security.acquired = true)
    (differ : options.psk.isSome ≠ security.psk.isSome ∨
      ∃ psk ∈ options.psk, ∃ psk' ∈ security.psk,
        Distinguished crypto crypto json security script (Utf8.encode psk) (Utf8.encode psk')) :
    Mismatched (mismatchErrors options.psk security.psk)
      (outcome (TcpClient.runTest crypto json options) clientInbox [])
      (outcome (TcpServer.handleNewConnection crypto json security) serverInbox []) := by
  cases hp : options.psk <;> cases hs : security.psk
  case none.none           => simp [hp, hs] at differ
  case none.some psk'      => exact tcp_mismatched_missing connection u acquired hp hs
  case some.none psk       => exact tcp_mismatched_unused connection u acquired hp hs
  case some.some psk psk'  =>
    have d : Distinguished crypto crypto json security script (Utf8.encode psk) (Utf8.encode psk') := by
      simpa [hp, hs] using differ
    exact tcp_mismatched_wrong connection u acquired d hp hs

end Tcp

namespace Dialogue

def refusal : Line :=
  (.error ⟨"Authentication failed"⟩, .error "Authentication failed".toList)

theorem distinguished {serverCrypto : Crypto} {psk : Text} {key key' : Bytes} {protocol : Protocol}
    (h : readable (lines psk key protocol refusal) = true)
    (hd : Auth.verifyResponseWithKey serverCrypto.hmac security.nonce key'
      (Auth.computeResponseWithKey crypto.hmac security.nonce key) = false) :
    Distinguished crypto serverCrypto (json (lines psk key protocol refusal)) security
      (script key protocol refusal) key key' where
  response := carries h (by simp [lines])
  refusal  := carries h (by simp [lines, refusal])
  differs  := hd

def wrongKey : Bytes :=
  Utf8.encode "x".toList

def wrongLines : List Line :=
  lines "x".toList wrongKey .tcp refusal

def wrongScript : Script :=
  script wrongKey .tcp refusal

def wrongClientInbox : Fills :=
  pieces (line wrongScript.greeting ++ line wrongScript.success)

def wrongServerInbox : Fills :=
  pieces (line wrongScript.hello ++ line wrongScript.response)

set_option maxRecDepth 100000 in
theorem readable_wrong : readable wrongLines = true := by
  decide +kernel

set_option maxRecDepth 100000 in
theorem wrong_connection : TcpConnection crypto (json wrongLines) (options "x".toList) security
    (keys wrongKey) wrongClientInbox wrongServerInbox where
  client := ⟨by decide +kernel, by decide +kernel⟩
  server := ⟨by decide +kernel, by decide +kernel⟩

end Dialogue

theorem tcp_mismatched_pieces :
    Mismatched (mismatchErrors (some "x".toList) (some "k".toList))
      (outcome (TcpClient.runTest Dialogue.crypto (Dialogue.json Dialogue.wrongLines)
        (Dialogue.options "x".toList)) Dialogue.wrongClientInbox [])
      (outcome (TcpServer.handleNewConnection Dialogue.crypto (Dialogue.json Dialogue.wrongLines)
        Dialogue.security) Dialogue.wrongServerInbox []) := by
  have d : Distinguished Dialogue.crypto Dialogue.crypto (Dialogue.json Dialogue.wrongLines)
      Dialogue.security Dialogue.wrongScript (Utf8.encode "x".toList) (Utf8.encode "k".toList) :=
    Dialogue.distinguished Dialogue.readable_wrong (by decide +kernel)
  exact tcp_mismatched Dialogue.wrong_connection (Dialogue.understood Dialogue.readable_wrong) rfl
    (.inr ⟨_, rfl, _, rfl, d⟩)

section Quic

variable {clientCrypto serverCrypto : Crypto} {json : Json} {options : ClientOptions}
  {security : SecurityContext} {script : Script} {psk psk' : Text} {key key' : Bytes}
  {keys : ControlCodec × ControlCodec} {clientInbox serverInbox : Fills}
  {quicSessionPsk : Option Bytes}
  (connection :
    QuicConnection clientCrypto serverCrypto json options security keys clientInbox serverInbox)
  (u : Understood json options .quic security script)
include connection u

theorem quic_mismatched_missing
    (hq : security.psk.mapM (derivePskSessionKey serverCrypto) = .ok quicSessionPsk)
    (hp : options.psk = none) (hs : security.psk = some psk) :
    Mismatched (pskRequiredError, missingKeyError)
      (outcome (QuicClient.runQuicSession clientCrypto json options) clientInbox [])
      (outcome (QuicServer.handleQuicClient serverCrypto json security) serverInbox []) := by
  obtain ⟨_, h⟩ := quic_greeted connection u hq
  have client : outcome (QuicClient.runQuicSession clientCrypto json options) clientInbox [] = _ :=
    QuicClient.fails_challenged u hp (hs ▸ rfl) h
  have arrived := connection.server
  rw [trace, client, written_line protects_hello, written_heard protects_greeting.right] at arrived
  have server : outcome (QuicServer.handleQuicClient serverCrypto json security) serverInbox [] = _ :=
    QuicServer.fails_missing u hq hp hs arrived
  rw [client, server, hello_offers, greeting_keyed hs]
  exact ⟨rfl, rfl, by simp, by simp⟩

theorem quic_mismatched_unused (hp : options.psk = some psk) (hs : security.psk = none) :
    Mismatched (pskNotUsedError, unusedKeyError)
      (outcome (QuicClient.runQuicSession clientCrypto json options) clientInbox [])
      (outcome (QuicServer.handleQuicClient serverCrypto json security) serverInbox []) := by
  have hq : security.psk.mapM (derivePskSessionKey serverCrypto) = .ok none := by rw [hs]; rfl
  obtain ⟨_, h⟩ := quic_greeted connection u hq
  have client : outcome (QuicClient.runQuicSession clientCrypto json options) clientInbox [] = _ :=
    QuicClient.fails_unchallenged u hp hs h
  have arrived := connection.server
  rw [trace, client, written_line protects_hello, written_heard protects_greeting.right] at arrived
  have server : outcome (QuicServer.handleQuicClient serverCrypto json security) serverInbox [] = _ :=
    QuicServer.fails_unused u hp hs arrived
  rw [client, server, hello_offers, greeting_keyless hs]
  exact ⟨rfl, rfl, by simp, by simp⟩

theorem quic_mismatched_wrong
    (hq : security.psk.mapM (derivePskSessionKey serverCrypto) = .ok (some key'))
    (hk : derivePskSessionKey clientCrypto psk = .ok key)
    (d : Distinguished clientCrypto serverCrypto json security script key key')
    (hp : options.psk = some psk) (hs : security.psk = some psk') :
    Mismatched (authRejectedError "Authentication failed".toList, wrongKeyError)
      (outcome (QuicClient.runQuicSession clientCrypto json options) clientInbox [])
      (outcome (QuicServer.handleQuicClient serverCrypto json security) serverInbox []) := by
  obtain ⟨_, h⟩ := quic_responded connection u hp hk (hs ▸ rfl) hq d.response
  have server : outcome (QuicServer.handleQuicClient serverCrypto json security) serverInbox [] = _ :=
    QuicServer.fails_wrong u d hq (hs ▸ rfl) h
  have answer := connection.client
  rw [trace, server, written_heard protects_heard_hello, written_line protects_greeting.left,
    written_heard rfl, written_line rfl] at answer
  have client : outcome (QuicClient.runQuicSession clientCrypto json options) clientInbox [] = _ :=
    QuicClient.fails_rejected u hp hk (hs ▸ rfl) d.response d.refusal answer
  rw [client, server, hello_offers, greeting_keyed hs]
  exact ⟨rfl, rfl, by simp, by simp⟩

-- The same over QUIC. The keys of two TLS sessions are told apart as well, so that nobody who passes
-- on the messages between a session with the client and one with the server gets a test.
theorem quic_mismatched
    (derived : security.psk.mapM (derivePskSessionKey serverCrypto) = .ok quicSessionPsk)
    (differ : options.psk.isSome ≠ security.psk.isSome ∨
      ∃ psk ∈ options.psk, ∃ key, derivePskSessionKey clientCrypto psk = .ok key ∧
        ∃ key' ∈ quicSessionPsk,
          Distinguished clientCrypto serverCrypto json security script key key') :
    Mismatched (mismatchErrors options.psk security.psk)
      (outcome (QuicClient.runQuicSession clientCrypto json options) clientInbox [])
      (outcome (QuicServer.handleQuicClient serverCrypto json security) serverInbox []) := by
  cases hp : options.psk <;> cases hs : security.psk
  case none.none          => simp [hp, hs] at differ
  case none.some psk'     => exact quic_mismatched_missing connection u derived hp hs
  case some.none psk      => exact quic_mismatched_unused connection u hp hs
  case some.some psk psk' =>
    obtain ⟨_, rfl, key, hk, key', hq, d⟩ : ∃ p, p = psk ∧ ∃ key,
        derivePskSessionKey clientCrypto p = .ok key ∧ ∃ key' ∈ quicSessionPsk,
          Distinguished clientCrypto serverCrypto json security script key key' := by
      simpa [hp, hs, eq_comm] using differ
    exact quic_mismatched_wrong connection u (Option.mem_def.mp hq ▸ derived) hk d hp hs

end Quic

namespace Dialogue

-- The session with the server is not the one with the client.
def relayed : Crypto :=
  { crypto with exporter := fun _ _ => some [1] }

def relayedKey : Bytes :=
  match derivePskSessionKey relayed "k".toList with
  | .ok key  => key
  | .error _ => []

def relayedLines : List Line :=
  lines "k".toList quicKey .quic refusal

def relayedScript : Script :=
  script quicKey .quic refusal

def relayedClientInbox : Fills :=
  pieces (line relayedScript.greeting ++ line relayedScript.success)

def relayedServerInbox : Fills :=
  pieces (line relayedScript.hello ++ line relayedScript.response)

set_option maxRecDepth 100000 in
theorem readable_relayed : readable relayedLines = true := by
  decide +kernel

set_option maxRecDepth 100000 in
theorem relayed_connection : QuicConnection crypto relayed (json relayedLines)
    (options "k".toList) security (keys quicKey) relayedClientInbox relayedServerInbox where
  client := ⟨by decide +kernel, by decide +kernel⟩
  server := ⟨by decide +kernel, by decide +kernel⟩

end Dialogue

theorem quic_mismatched_relayed :
    Mismatched (mismatchErrors (some "k".toList) (some "k".toList))
      (outcome (QuicClient.runQuicSession Dialogue.crypto (Dialogue.json Dialogue.relayedLines)
        (Dialogue.options "k".toList)) Dialogue.relayedClientInbox [])
      (outcome (QuicServer.handleQuicClient Dialogue.relayed (Dialogue.json Dialogue.relayedLines)
        Dialogue.security) Dialogue.relayedServerInbox []) := by
  have d : Distinguished Dialogue.crypto Dialogue.relayed (Dialogue.json Dialogue.relayedLines)
      Dialogue.security Dialogue.relayedScript Dialogue.quicKey Dialogue.relayedKey :=
    Dialogue.distinguished Dialogue.readable_relayed (by decide +kernel)
  have derived : Dialogue.security.psk.mapM (derivePskSessionKey Dialogue.relayed) =
      .ok (some Dialogue.relayedKey) := by
    decide +kernel
  exact quic_mismatched Dialogue.relayed_connection (Dialogue.understood Dialogue.readable_relayed)
    derived (.inr ⟨_, rfl, _, by decide +kernel, _, rfl, d⟩)
end Handshake
