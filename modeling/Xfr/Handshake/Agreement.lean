import Xfr.Control.ReaderTasks
import Xfr.Handshake.QuicSides
import Xfr.Handshake.TcpSides

open Utf8 (Text)
open ExceptT (Passes Runs)
open Messages (Tenths)

namespace Handshake

-- From here on, the channel is protected.
def Event.protects : Event → Bool
  | .sent _ (.authSuccess _)  => true
  | .heard _ (.authSuccess _) => true
  | _                         => false

-- What the transport of a side has made of the messages it sent.
def written (aead : Aead) (installed : ProtectedControl) : ProtectedControl → List Event → Bytes
  | _,         []      => []
  | transport, e :: es =>
    let (bytes, next) :=
      match e with
      | .sent text _ => transport.writeMessage aead text
      | _            => (.ok [], transport)
    bytes.toOption.getD [] ++ written aead installed (if e.protects then installed else next) es

def Event.sent? : Event → Option (Text × Message)
  | .sent text message => some (text, message)
  | _                  => none

def Event.heard? : Event → Option (Text × Message)
  | .heard text message => some (text, message)
  | _                   => none

def Event.registers : Event → Bool
  | .registered _ => true
  | .removed _    => true
  | _             => false

-- Both sides have come to the same test. The server has heard all of what the client sent, the client
-- has heard all but the acknowledgement, which it reads next, and nothing else is on its way.
structure Established (aead : Aead) (options : ClientOptions) (script : Script)
    (client : Except HandshakeError ProtectedControl × Wire)
    (server : Except HandshakeError Unit × Wire) : Prop where
  heard      : server.2.trace.filterMap Event.heard? = client.2.trace.filterMap Event.sent?
  answered   : server.2.trace.filterMap Event.sent? =
                 client.2.trace.filterMap Event.heard? ++ [(script.ack, .testAck options.id)]
  registered : server.2.trace.filter Event.registers = [.registered options.id]
  served     : server.1 = .ok () ∧ server.2.inbox.flatten = []
  started    : ∃ transport read transport' rest, client.1 = .ok transport ∧
                 (transport = .plaintext ↔ options.psk = none) ∧
                 transport.readMessage aead client.2.inbox = .ok (read, transport', rest) ∧
                 Utf8.trim read = script.ack ∧ rest.flatten = []

section Written

variable {α : Type} {aead : Aead} {installed transport : ProtectedControl} {t t' : List Event}
  {m : Handshake α} {inbox inbox' inbox'' : Fills}

theorem written_prefix (h : t <+: t') :
    written aead installed transport t <+: written aead installed transport t' := by
  induction t generalizing t' transport
  case nil => exact List.nil_prefix
  case cons e es hi =>
    obtain ⟨es', rfl⟩ := h
    exact List.prefix_append_right_inj _ |>.mpr (hi (List.prefix_append es es'))

variable {text : Text} {message : Message} {es : List Event} {bytes : Bytes}

theorem written_line (h : (Event.sent text message).protects = false) :
    written aead installed .plaintext (.sent text message :: es) =
      line text ++ written aead installed .plaintext es := by
  simp [written, h, ProtectedControl.writeMessage, Except.toOption]

theorem written_heard (h : (Event.heard text message).protects = false) :
    written aead installed transport (.heard text message :: es) =
      written aead installed transport es := by
  simp [written, h, Except.toOption]

theorem written_registered :
    written aead installed transport (.registered text :: es) =
      written aead installed transport es := by
  simp [written, Event.protects, Except.toOption]

-- With its last line, the server tells that the channel is protected from now on.
theorem written_success {proof : Option Text} :
    written aead installed .plaintext (.sent text (.authSuccess proof) :: es) =
        line text ++ written aead installed installed es ∧
      written aead installed .plaintext (.heard text (.authSuccess proof) :: es) =
        written aead installed installed es := by
  simp [written, Event.protects, ProtectedControl.writeMessage, Except.toOption]

theorem written_last (h : (transport.writeMessage aead text).1 = .ok bytes) :
    written aead installed transport [.sent text message] = bytes := by
  simp [written, h, Except.toOption]

theorem written_acknowledged {id : Text} (h : (transport.writeMessage aead text).1 = .ok bytes) :
    written aead installed transport [.sent text (.testAck id), .registered id] = bytes := by
  simp [written, h, Except.toOption]

-- What a side has passed has arrived on the other side.
theorem Holds.of_passes (p : Passes Wire.Before m ⟨inbox', [], []⟩ ⟨inbox'', [], t⟩)
    (h : Holds inbox (written aead installed transport (trace m inbox' []))) :
    ∃ rest, Holds inbox (written aead installed transport t ++ rest) := by
  obtain ⟨rest, hr⟩ : written aead installed transport t <+:
      written aead installed transport (trace m inbox' []) := written_prefix p
  exact ⟨rest, hr ▸ h.flatten, h.ne_nil⟩

end Written

section Messages

variable {options : ClientOptions} {security : SecurityContext} {text : Text}

theorem protects_hello : (Event.sent text options.hello).protects = false := by
  rw [hello_offers]
  rfl

theorem protects_greeting : (Event.sent text security.greeting).protects = false ∧
    (Event.heard text security.greeting).protects = false := by
  unfold SecurityContext.greeting
  split
  case isTrue  => exact ⟨rfl, rfl⟩
  case isFalse => exact ⟨rfl, rfl⟩

theorem protects_heard_hello : (Event.heard text options.hello).protects = false := by
  rw [hello_offers]
  rfl

end Messages

-- Messages with the texts which the serializer gives. What is long is left out of them.
namespace Dialogue

abbrev Line := Messages.ControlMessage Tenths × Message

def json (lines : List Line) : Json :=
  Sample.ofTable (lines.map fun (m, message) => (m.serialize, message))

def readable (lines : List Line) : Bool :=
  lines.all fun (m, message) =>
    (json lines).serialize message = some m.serialize &&
    (json lines).deserialize m.serialize = some message &&
    m.serialize.all (·.toNat < 128) && (Utf8.encode m.serialize).length < MAX_LINE_LENGTH

theorem carries {lines : List Line} {m : Messages.ControlMessage Tenths} {message : Message}
    (h : readable lines = true) (hm : (m, message) ∈ lines) :
    Carries (json lines) message m.serialize := by
  have h := List.all_eq_true.mp h _ hm
  simp only [Bool.and_eq_true, decide_eq_true_eq, List.all_eq_true] at h
  exact {
    serialize   := h.left.left.left
    deserialize := h.left.left.right
    enclosed    := JsonText.enclosed_of_composite Messages.serialize_composite
    no_newline  := Serde.newline_not_mem_text
    ascii       := h.left.right
    fits        := h.right }

def crypto : Crypto :=
  { Sample.crypto with aead := .tagging }

def options (psk : Text) : ClientOptions where
  psk                  := some psk
  nonce                := "c".toList
  id                   := "t".toList
  protocol             := .tcp
  udpPayloadSize       := none
  mtuProbe             := false
  byteBudget           := none
  tcpCongestion        := none
  validateCongestion _ := .ok ()

def security : SecurityContext :=
  { Sample.security with capabilities := SUPPORTED_CAPABILITIES.erase SINGLE_PORT_UDP_CAPABILITY }

theorem features : ∀ name ∈ SUPPORTED_CAPABILITIES, name ≠ SINGLE_PORT_UDP_CAPABILITY →
    name ∈ security.capabilities := by
  decide +kernel

def keys (key : Bytes) : ControlCodec × ControlCodec :=
  match ControlCodec.derivePair crypto.hkdf (Utf8.encode "c".toList) (Utf8.encode "n".toList) key with
  | .ok keys => keys
  | .error _ => (.new [] .c2s, .new [] .s2c)

def hello : Messages.ControlMessage Tenths :=
  .hello ⟨"1.1", none, none, none, none, some "c"⟩

def greeting : Messages.ControlMessage Tenths :=
  .hello ⟨"1.1", none, none, none, some ⟨"psk", "n"⟩, none⟩

def proof (key : Bytes) : Text :=
  match ServerProof.computeWithKey crypto (Utf8.encode hello.serialize)
      (Utf8.encode greeting.serialize) "c".toList "n".toList key with
  | .ok proof => proof
  | .error _  => []

def response (key : Bytes) : Text :=
  Auth.computeResponseWithKey crypto.hmac "n".toList key

def start (protocol : Protocol) : Messages.ControlMessage Tenths :=
  .testStart
    { id             := "t"
      protocol       := protocol
      streams        := 1
      durationSecs   := 10
      direction      := .upload
      bitrate        := none
      congestion     := none
      mptcp          := false
      dscp           := none
      windowSize     := none
      zerocopy       := false
      mtuProbe       := false
      tcpNodelay     := false
      byteBudget     := none
      udpPayloadSize := none }

-- The fourth message is the one which answers the response.
def lines (psk : Text) (key : Bytes) (protocol : Protocol) (answer : Line) : List Line := [
  (hello, (options psk).hello),
  (greeting, security.greeting),
  (.authResponse ⟨String.ofList (response key)⟩, responseTo crypto security key),
  answer,
  (start protocol, .testStart (options psk).id protocol),
  (.testAck ⟨"t", [], none⟩, .testAck (options psk).id)]

def script (key : Bytes) (protocol : Protocol) (answer : Line) : Script where
  hello    := hello.serialize
  greeting := greeting.serialize
  response := (Messages.ControlMessage.authResponse ⟨String.ofList (response key)⟩ :
                Messages.ControlMessage Tenths).serialize
  success  := answer.1.serialize
  start    := (start protocol).serialize
  ack      := (Messages.ControlMessage.testAck ⟨"t", [], none⟩ :
                Messages.ControlMessage Tenths).serialize

def success (key : Bytes) : Line :=
  (.authSuccess ⟨some (String.ofList (proof key))⟩, .authSuccess (some (proof key)))

theorem understood {psk : Text} {key : Bytes} {protocol : Protocol} {answer : Line}
    (h : readable (lines psk key protocol answer) = true) :
    Understood (json (lines psk key protocol answer)) (options psk) protocol security
      (script key protocol answer) where
  hello    := carries h (by simp [lines])
  greeting := carries h (by simp [lines])
  start    := carries h (by simp [lines])
  ack      := carries h (by simp [lines])
  features := features

theorem keyed {psk : Text} {key : Bytes} {protocol : Protocol}
    (h : readable (lines psk key protocol (success key)) = true)
    (hk : ControlCodec.derivePair crypto.hkdf (Utf8.encode "c".toList) (Utf8.encode "n".toList) key =
      .ok (keys key))
    (hp : ServerProof.computeWithKey crypto (Utf8.encode hello.serialize)
      (Utf8.encode greeting.serialize) "c".toList "n".toList key = .ok (proof key)) :
    Keyed crypto (json (lines psk key protocol (success key))) (options psk) security
      (script key protocol (success key)) key (proof key) (keys key) where
  response := carries h (by simp [lines])
  success  := carries h (by simp [lines, success])
  proof    := hp
  derived  := hk
  encrypts := fun _ _ _ _ => ⟨_, rfl⟩

def frame (codec : ControlCodec) (text : Text) : Bytes :=
  (sealFrame crypto.aead codec text).1.toOption.getD []

theorem writeMessage_eq_frame {text : Text} {send recv : ControlCodec}
    (writes : ProtectedControl.Writes crypto.aead (.protectedBy ⟨send, recv⟩))
    (fits : (Utf8.encode text).length < MAX_LINE_LENGTH) :
    (ProtectedControl.writeMessage crypto.aead text (.protectedBy ⟨send, recv⟩)).1 =
      .ok (frame send text) := by
  obtain ⟨bytes, hw⟩ := writes text fits
  have hs : (sealFrame crypto.aead send text).1 = .ok bytes := hw
  rw [hw, frame, hs]
  rfl

-- A stream which arrives in two pieces.
def pieces (bytes : Bytes) : Fills :=
  [bytes.take 20, bytes.drop 20]

theorem holds_pieces {bytes rest : Bytes} (h : 20 < bytes.length) :
    Holds (pieces (bytes ++ rest)) (bytes ++ rest) where
  flatten := by simp only [pieces, List.flatten_cons, List.flatten_nil, List.append_nil,
    List.take_append_drop]
  ne_nil fill hf := by
    have hl : (bytes ++ rest).length = bytes.length + rest.length := List.length_append
    rcases List.mem_pair.mp hf with rfl | rfl
    · exact List.ne_nil_of_length_pos (by rw [List.length_take]; omega)
    · exact List.ne_nil_of_length_pos (by rw [List.length_drop]; omega)

end Dialogue

section Tcp

variable {crypto : Crypto} {json : Json} {options : ClientOptions} {security : SecurityContext}
  {script : Script} {proof psk : Text} {keys : ControlCodec × ControlCodec}
  {clientInbox serverInbox : Fills}

-- What the two sides of a connection over TCP write and read.
structure TcpConnection (crypto : Crypto) (json : Json) (options : ClientOptions)
    (security : SecurityContext) (keys : ControlCodec × ControlCodec)
    (clientInbox serverInbox : Fills) : Prop where
  client : Holds clientInbox (written crypto.aead (.protectedServer keys.1 keys.2) .plaintext
             (trace (TcpServer.handleNewConnection crypto json security) serverInbox []))
  server : Holds serverInbox (written crypto.aead (.protectedClient keys.1 keys.2) .plaintext
             (trace (TcpClient.runTest crypto json options) clientInbox []))

section Writes

variable {start ack rest : Bytes} (u : Understood json options options.protocol security script)
  (k : Keyed crypto json options security script (Utf8.encode psk) proof keys)
  (hp : options.psk = some psk) (hs : security.psk = some psk)
  (hstart : ((ProtectedControl.protectedClient keys.1 keys.2).writeMessage crypto.aead
    script.start).1 = .ok start)
include u k hp hs hstart

theorem tcp_client_writes (ready : TcpClient.checkCongestion options = .ok ())
    (h : Holds clientInbox (line script.greeting ++ (line script.success ++ rest))) :
    written crypto.aead (.protectedClient keys.1 keys.2) .plaintext
        (trace (TcpClient.runTest crypto json options) clientInbox []) =
      line script.hello ++ (line script.response ++ start) := by
  have client : outcome (TcpClient.runTest crypto json options) clientInbox [] = _ :=
    TcpClient.runs_runTest u k hp (hs ▸ rfl) ready (Prod.ext hstart rfl) h
  rw [trace, client, written_line protects_hello, written_heard protects_greeting.right,
    written_line rfl, written_success.right, written_last hstart]

theorem tcp_server_answers (tagged : crypto.aead.Tagged)
    (accepts : TcpServer.Accepts security script.start options.protocol)
    (h : Holds serverInbox (line script.hello ++ (line script.response ++ (start ++ [])))) :
    ∃ inbox, inbox.flatten = [] ∧
      outcome (TcpServer.handleNewConnection crypto json security) serverInbox [] =
        (.ok (), ⟨inbox, [], [.heard script.hello options.hello,
          .sent script.greeting security.greeting,
          .heard script.response (responseTo crypto security (Utf8.encode psk)),
          .sent script.success (.authSuccess (some proof)),
          .heard script.start (.testStart options.id options.protocol), .registered options.id,
          .sent script.ack (.testAck options.id)]⟩) := by
  have peers : (ProtectedControl.protectedClient keys.1 keys.2).Peers
      (.protectedServer keys.1 keys.2) := .protectedBy rfl
  obtain ⟨inbox, hi, request⟩ := TcpServer.runs_handleTestRequest true u accepts tagged peers
    (k.writes (by simp)) hstart h.drop.drop
  exact ⟨inbox, hi,
    (TcpServer.handleNewConnection_eq_keyed u k accepts.acquired hp hs h).trans request⟩

theorem tcp_server_writes (tagged : crypto.aead.Tagged)
    (accepts : TcpServer.Accepts security script.start options.protocol)
    (hack : ((ProtectedControl.protectedServer keys.1 keys.2).writeMessage crypto.aead
      script.ack).1 = .ok ack)
    (h : Holds serverInbox (line script.hello ++ (line script.response ++ (start ++ [])))) :
    written crypto.aead (.protectedServer keys.1 keys.2) .plaintext
        (trace (TcpServer.handleNewConnection crypto json security) serverInbox []) =
      line script.greeting ++ (line script.success ++ ack) := by
  obtain ⟨_, _, server⟩ := tcp_server_answers u k hp hs hstart tagged accepts h
  rw [trace, server, written_heard protects_heard_hello, written_line protects_greeting.left,
    written_heard rfl, written_success.left, written_heard rfl, written_registered, written_last hack]

-- However what they write is cut, there is such a connection.
theorem TcpConnection.of_holds (tagged : crypto.aead.Tagged)
    (ready : TcpClient.checkCongestion options = .ok ())
    (accepts : TcpServer.Accepts security script.start options.protocol)
    (hack : ((ProtectedControl.protectedServer keys.1 keys.2).writeMessage crypto.aead
      script.ack).1 = .ok ack)
    (client : Holds clientInbox (line script.greeting ++ (line script.success ++ ack)))
    (server : Holds serverInbox (line script.hello ++ (line script.response ++ start))) :
    TcpConnection crypto json options security keys clientInbox serverInbox where
  client := by
    rw [tcp_server_writes u k hp hs hstart tagged accepts hack
      ((List.append_nil start).symm ▸ server)]
    exact client
  server := by
    rw [tcp_client_writes u k hp hs hstart ready client]
    exact server

end Writes

variable (connection : TcpConnection crypto json options security keys clientInbox serverInbox)
  (u : Understood json options options.protocol security script)
include connection u

-- The client says hello without being asked, and is answered.
theorem tcp_greeted (ha : security.acquired = true) :
    ∃ rest, Holds clientInbox (line script.greeting ++ rest) := by
  obtain ⟨_, h⟩ := connection.server.of_passes (TcpClient.passes_hello u)
  rw [written_line protects_hello, List.append_assoc] at h
  obtain ⟨_, h⟩ := connection.client.of_passes (TcpServer.passes_greeting u ha h)
  rw [written_heard protects_heard_hello, written_line protects_greeting.left, List.append_assoc] at h
  exact ⟨_, h⟩

-- It responds to a challenge.
theorem tcp_responded (hp : options.psk = some psk) (hs : security.psk.isSome = true)
    (c : Carries json (responseTo crypto security (Utf8.encode psk)) script.response)
    (ha : security.acquired = true) :
    ∃ rest, Holds serverInbox (line script.hello ++ (line script.response ++ rest)) := by
  obtain ⟨_, h⟩ := tcp_greeted connection u ha
  obtain ⟨_, h⟩ := connection.server.of_passes (TcpClient.passes_response u hp hs c h)
  rw [written_line protects_hello, written_heard protects_greeting.right, written_line rfl,
    List.append_assoc, List.append_assoc] at h
  exact ⟨_, h⟩

-- The response to the right key is answered again.
theorem tcp_proved (k : Keyed crypto json options security script (Utf8.encode psk) proof keys)
    (hp : options.psk = some psk) (hs : security.psk = some psk) (ha : security.acquired = true) :
    ∃ rest, Holds clientInbox (line script.greeting ++ (line script.success ++ rest)) := by
  obtain ⟨_, h⟩ := tcp_responded connection u hp (hs ▸ rfl) k.response ha
  obtain ⟨_, h⟩ := connection.client.of_passes (TcpServer.passes_success u k ha hp hs h)
  rw [written_heard protects_heard_hello, written_line protects_greeting.left, written_heard rfl,
    written_success.left, List.append_assoc, List.append_assoc] at h
  exact ⟨_, h⟩

theorem tcp_established_keyed (tagged : crypto.aead.Tagged)
    (k : Keyed crypto json options security script (Utf8.encode psk) proof keys)
    (hp : options.psk = some psk) (hs : security.psk = some psk)
    (ready : TcpClient.checkCongestion options = .ok ())
    (accepts : TcpServer.Accepts security script.start options.protocol) :
    Established crypto.aead options script
      (outcome (TcpClient.runTest crypto json options) clientInbox [])
      (outcome (TcpServer.handleNewConnection crypto json security) serverInbox []) := by
  -- The client gets to its end,
  obtain ⟨start, hstart⟩ : ∃ bytes,
      ((ProtectedControl.protectedClient keys.1 keys.2).writeMessage crypto.aead script.start).1 =
        .ok bytes :=
    k.writes (by simp) script.start u.start.fits
  let transport :=
    ((ProtectedControl.protectedClient keys.1 keys.2).writeMessage crypto.aead script.start).2
  obtain ⟨_, h⟩ := tcp_proved connection u k hp hs accepts.acquired
  have client : outcome (TcpClient.runTest crypto json options) clientInbox [] = _ :=
    TcpClient.runs_runTest u k hp (hs ▸ rfl) ready (Prod.ext hstart rfl) h
  have arrived := connection.server
  rw [tcp_client_writes u k hp hs hstart ready h, ← List.append_nil start] at arrived
  -- and so does the server.
  obtain ⟨left, hleft, server⟩ := tcp_server_answers u k hp hs hstart tagged accepts arrived
  have writes : (ProtectedControl.protectedServer keys.1 keys.2).Writes crypto.aead :=
    k.writes (by simp)
  obtain ⟨ack, hack⟩ := writes script.ack u.ack.fits
  have answer := connection.client
  rw [tcp_server_writes u k hp hs hstart tagged accepts hack arrived, ← List.append_nil ack]
    at answer
  -- The client reads the acknowledgement next.
  have peers : (ProtectedControl.protectedServer keys.1 keys.2).Peers transport :=
    ProtectedControl.Peers.writeMessage (.protectedBy rfl)
  obtain ⟨read, transport', rest, hread, htrim, _, hrest, _⟩ :=
    u.ack.readMessage tagged peers hack answer.drop.drop
  rw [client, server]
  refine ⟨rfl, rfl, rfl, ⟨rfl, hleft⟩, transport, read, transport', rest, rfl, ?_, hread, htrim, hrest⟩
  simp [hp, transport, ProtectedControl.writeMessage, ProtectedControl.protectedClient]

theorem tcp_established_keyless (tagged : crypto.aead.Tagged)
    (hp : options.psk = none) (hs : security.psk = none)
    (ready : TcpClient.checkCongestion options = .ok ())
    (accepts : TcpServer.Accepts security script.start options.protocol) :
    Established crypto.aead options script
      (outcome (TcpClient.runTest crypto json options) clientInbox [])
      (outcome (TcpServer.handleNewConnection crypto json security) serverInbox []) := by
  obtain ⟨_, h⟩ := tcp_greeted connection u accepts.acquired
  have client : outcome (TcpClient.runTest crypto json options) clientInbox [] = _ :=
    TcpClient.runs_runTest_keyless u hp hs ready h
  have arrived := connection.server
  rw [trace, client, written_line protects_hello, written_heard protects_greeting.right,
    written_last rfl, ← List.append_nil (line script.start)] at arrived
  have writes : ProtectedControl.plaintext.Writes crypto.aead := fun text _ => ⟨line text, rfl⟩
  obtain ⟨left, hleft, request⟩ := TcpServer.runs_handleTestRequest options.clientNonce.isSome u accepts
    tagged .plaintext writes rfl arrived.drop
  have server : outcome (TcpServer.handleNewConnection crypto json security) serverInbox [] = _ :=
    (TcpServer.handleNewConnection_eq_keyless u accepts.acquired hs arrived).trans request
  have answer := connection.client
  simp only [trace, server, List.cons_append, List.nil_append] at answer
  rw [written_heard protects_heard_hello, written_line protects_greeting.left, written_heard rfl,
    written_registered, written_last rfl, ← List.append_nil (line script.ack)] at answer
  obtain ⟨read, transport', rest, hread, htrim, _, hrest, _⟩ :=
    u.ack.readMessage tagged .plaintext rfl answer.drop
  rw [client, server]
  exact ⟨rfl, rfl, rfl, ⟨rfl, hleft⟩, .plaintext, read, transport', rest, rfl, by simp [hp], hread,
    htrim, hrest⟩

-- Two sides which agree on whether there is a key, and on which one: whatever else happens on the
-- connection, once each side has read what the other one wrote, both have come to the same test.
theorem tcp_established (tagged : crypto.aead.Tagged) (same : options.psk = security.psk)
    (keyed : ∀ psk ∈ options.psk,
      Keyed crypto json options security script (Utf8.encode psk) proof keys)
    (ready : TcpClient.checkCongestion options = .ok ())
    (accepts : TcpServer.Accepts security script.start options.protocol) :
    Established crypto.aead options script
      (outcome (TcpClient.runTest crypto json options) clientInbox [])
      (outcome (TcpServer.handleNewConnection crypto json security) serverInbox []) := by
  cases hp : options.psk
  case none =>
    exact tcp_established_keyless connection u tagged hp (same ▸ hp) ready accepts
  case some psk =>
    exact tcp_established_keyed connection u tagged (keyed psk hp) hp (same ▸ hp) ready accepts

end Tcp

namespace Dialogue

def tcpKey : Bytes :=
  Utf8.encode "k".toList

def tcpLines : List Line :=
  lines "k".toList tcpKey .tcp (success tcpKey)

def tcpScript : Script :=
  script tcpKey .tcp (success tcpKey)

def tcpClientInbox : Fills :=
  pieces (line tcpScript.greeting ++ line tcpScript.success ++ frame (keys tcpKey).2 tcpScript.ack)

def tcpServerInbox : Fills :=
  pieces (line tcpScript.hello ++ line tcpScript.response ++ frame (keys tcpKey).1 tcpScript.start)

set_option maxRecDepth 100000 in
theorem readable_tcp : readable tcpLines = true := by
  decide +kernel

theorem tcp_keyed : Keyed crypto (json tcpLines) (options "k".toList) security tcpScript tcpKey
    (proof tcpKey) (keys tcpKey) :=
  keyed readable_tcp (by decide +kernel) (by decide +kernel)

theorem tcp_accepts : TcpServer.Accepts security tcpScript.start .tcp :=
  ⟨rfl, rfl, rfl, rfl, by decide⟩

theorem tcp_connection : TcpConnection crypto (json tcpLines) (options "k".toList) security
    (keys tcpKey) tcpClientInbox tcpServerInbox := by
  have u := understood readable_tcp
  refine .of_holds u tcp_keyed rfl rfl
    (writeMessage_eq_frame (tcp_keyed.writes (by simp)) u.start.fits) Aead.tagging_tagged rfl
    tcp_accepts (writeMessage_eq_frame (tcp_keyed.writes (by simp)) u.ack.fits) ?_ ?_
  · rw [tcpClientInbox, List.append_assoc]
    exact holds_pieces (by decide +kernel)
  · rw [tcpServerInbox, List.append_assoc]
    exact holds_pieces (by decide +kernel)

end Dialogue

theorem tcp_established_pieces :
    Established Dialogue.crypto.aead (Dialogue.options "k".toList) Dialogue.tcpScript
      (outcome (TcpClient.runTest Dialogue.crypto (Dialogue.json Dialogue.tcpLines)
        (Dialogue.options "k".toList)) Dialogue.tcpClientInbox [])
      (outcome (TcpServer.handleNewConnection Dialogue.crypto (Dialogue.json Dialogue.tcpLines)
        Dialogue.security) Dialogue.tcpServerInbox []) := by
  have keyed : ∀ psk ∈ (Dialogue.options "k".toList).psk,
      Keyed Dialogue.crypto (Dialogue.json Dialogue.tcpLines) (Dialogue.options "k".toList)
        Dialogue.security Dialogue.tcpScript (Utf8.encode psk) (Dialogue.proof Dialogue.tcpKey)
        (Dialogue.keys Dialogue.tcpKey) := by
    intro psk hp
    obtain rfl : "k".toList = psk := Option.some_inj.mp hp
    exact Dialogue.tcp_keyed
  exact tcp_established Dialogue.tcp_connection (Dialogue.understood Dialogue.readable_tcp)
    Aead.tagging_tagged rfl keyed rfl Dialogue.tcp_accepts

section Quic

variable {clientCrypto serverCrypto crypto : Crypto} {json : Json} {options : ClientOptions}
  {security : SecurityContext} {script : Script} {proof psk : Text} {key : Bytes}
  {quicSessionPsk : Option Bytes} {keys : ControlCodec × ControlCodec}
  {clientInbox serverInbox : Fills}

-- What the two sides of a connection over QUIC write and read. They need not have the same TLS session.
structure QuicConnection (clientCrypto serverCrypto : Crypto) (json : Json)
    (options : ClientOptions) (security : SecurityContext) (keys : ControlCodec × ControlCodec)
    (clientInbox serverInbox : Fills) : Prop where
  client : Holds clientInbox (written serverCrypto.aead (.protectedServer keys.1 keys.2) .plaintext
             (trace (QuicServer.handleQuicClient serverCrypto json security) serverInbox []))
  server : Holds serverInbox (written clientCrypto.aead (.protectedClient keys.1 keys.2) .plaintext
             (trace (QuicClient.runQuicSession clientCrypto json options) clientInbox []))

section Steps

variable (connection :
    QuicConnection clientCrypto serverCrypto json options security keys clientInbox serverInbox)
  (u : Understood json options .quic security script)
include connection u

theorem quic_greeted
    (hq : security.psk.mapM (derivePskSessionKey serverCrypto) = .ok quicSessionPsk) :
    ∃ rest, Holds clientInbox (line script.greeting ++ rest) := by
  obtain ⟨_, h⟩ := connection.server.of_passes (QuicClient.passes_hello u)
  rw [written_line protects_hello, List.append_assoc] at h
  obtain ⟨_, h⟩ := connection.client.of_passes (QuicServer.passes_greeting u hq h)
  rw [written_heard protects_heard_hello, written_line protects_greeting.left, List.append_assoc] at h
  exact ⟨_, h⟩

theorem quic_responded (hp : options.psk = some psk)
    (hk : derivePskSessionKey clientCrypto psk = .ok key) (hs : security.psk.isSome = true)
    (hq : security.psk.mapM (derivePskSessionKey serverCrypto) = .ok quicSessionPsk)
    (c : Carries json (responseTo clientCrypto security key) script.response) :
    ∃ rest, Holds serverInbox (line script.hello ++ (line script.response ++ rest)) := by
  obtain ⟨_, h⟩ := quic_greeted connection u hq
  obtain ⟨_, h⟩ := connection.server.of_passes (QuicClient.passes_response u hp hk hs c h)
  rw [written_line protects_hello, written_heard protects_greeting.right, written_line rfl,
    List.append_assoc, List.append_assoc] at h
  exact ⟨_, h⟩

end Steps

section Writes

variable {start ack rest : Bytes} (u : Understood json options .quic security script)
  (k : Keyed crypto json options security script key proof keys)
  (hp : options.psk = some psk) (hs : security.psk = some psk)
  (hk : derivePskSessionKey crypto psk = .ok key)
  (hstart : ((ProtectedControl.protectedClient keys.1 keys.2).writeMessage crypto.aead
    script.start).1 = .ok start)
include u k hp hs hk hstart

theorem quic_client_writes
    (h : Holds clientInbox (line script.greeting ++ (line script.success ++ rest))) :
    written crypto.aead (.protectedClient keys.1 keys.2) .plaintext
        (trace (QuicClient.runQuicSession crypto json options) clientInbox []) =
      line script.hello ++ (line script.response ++ start) := by
  have client : outcome (QuicClient.runQuicSession crypto json options) clientInbox [] = _ :=
    QuicClient.runs_runQuicSession u k hp hk (hs ▸ rfl) (Prod.ext hstart rfl) h
  rw [trace, client, written_line protects_hello, written_heard protects_greeting.right,
    written_line rfl, written_success.right, written_last hstart]

theorem quic_server_answers (tagged : crypto.aead.Tagged)
    (accepts : QuicServer.Accepts security script.start)
    (h : Holds serverInbox (line script.hello ++ (line script.response ++ (start ++ [])))) :
    ∃ inbox, inbox.flatten = [] ∧
      outcome (QuicServer.handleQuicClient crypto json security) serverInbox [] =
        (.ok (), ⟨inbox, [], [.heard script.hello options.hello,
          .sent script.greeting security.greeting,
          .heard script.response (responseTo crypto security key),
          .sent script.success (.authSuccess (some proof)),
          .heard script.start (.testStart options.id .quic),
          .sent script.ack (.testAck options.id), .registered options.id]⟩) := by
  have hq : security.psk.mapM (derivePskSessionKey crypto) = .ok (some key) := by rw [hs]; simp [hk]
  have peers : (ProtectedControl.protectedClient keys.1 keys.2).Peers
      (.protectedServer keys.1 keys.2) := .protectedBy rfl
  obtain ⟨inbox, hi, request⟩ := QuicServer.runs_handleTestRequest true u accepts tagged peers
    (k.writes (by simp)) hstart h.drop.drop
  exact ⟨inbox, hi,
    (QuicServer.handleQuicClient_eq_keyed u k hq (hp ▸ rfl) (hs ▸ rfl) h).trans request⟩

theorem quic_server_writes (tagged : crypto.aead.Tagged)
    (accepts : QuicServer.Accepts security script.start)
    (hack : ((ProtectedControl.protectedServer keys.1 keys.2).writeMessage crypto.aead
      script.ack).1 = .ok ack)
    (h : Holds serverInbox (line script.hello ++ (line script.response ++ (start ++ [])))) :
    written crypto.aead (.protectedServer keys.1 keys.2) .plaintext
        (trace (QuicServer.handleQuicClient crypto json security) serverInbox []) =
      line script.greeting ++ (line script.success ++ ack) := by
  obtain ⟨_, _, server⟩ := quic_server_answers u k hp hs hk hstart tagged accepts h
  rw [trace, server, written_heard protects_heard_hello, written_line protects_greeting.left,
    written_heard rfl, written_success.left, written_heard rfl, written_acknowledged hack]

theorem QuicConnection.of_holds (tagged : crypto.aead.Tagged)
    (accepts : QuicServer.Accepts security script.start)
    (hack : ((ProtectedControl.protectedServer keys.1 keys.2).writeMessage crypto.aead
      script.ack).1 = .ok ack)
    (client : Holds clientInbox (line script.greeting ++ (line script.success ++ ack)))
    (server : Holds serverInbox (line script.hello ++ (line script.response ++ start))) :
    QuicConnection crypto crypto json options security keys clientInbox serverInbox where
  client := by
    rw [quic_server_writes u k hp hs hk hstart tagged accepts hack
      ((List.append_nil start).symm ▸ server)]
    exact client
  server := by
    rw [quic_client_writes u k hp hs hk hstart client]
    exact server

end Writes

variable (connection : QuicConnection crypto crypto json options security keys clientInbox serverInbox)
  (u : Understood json options .quic security script)
include connection u

theorem quic_proved (k : Keyed crypto json options security script key proof keys)
    (hp : options.psk = some psk) (hs : security.psk = some psk)
    (hk : derivePskSessionKey crypto psk = .ok key) :
    ∃ rest, Holds clientInbox (line script.greeting ++ (line script.success ++ rest)) := by
  have hq : security.psk.mapM (derivePskSessionKey crypto) = .ok (some key) := by rw [hs]; simp [hk]
  obtain ⟨_, h⟩ := quic_responded connection u hp hk (hs ▸ rfl) hq k.response
  obtain ⟨_, h⟩ := connection.client.of_passes
    (QuicServer.passes_success u k hq (hp ▸ rfl) (hs ▸ rfl) h)
  rw [written_heard protects_heard_hello, written_line protects_greeting.left, written_heard rfl,
    written_success.left, List.append_assoc, List.append_assoc] at h
  exact ⟨_, h⟩

theorem quic_established_keyed (tagged : crypto.aead.Tagged)
    (k : Keyed crypto json options security script key proof keys)
    (hp : options.psk = some psk) (hs : security.psk = some psk)
    (hk : derivePskSessionKey crypto psk = .ok key)
    (accepts : QuicServer.Accepts security script.start) :
    Established crypto.aead options script
      (outcome (QuicClient.runQuicSession crypto json options) clientInbox [])
      (outcome (QuicServer.handleQuicClient crypto json security) serverInbox []) := by
  obtain ⟨start, hstart⟩ : ∃ bytes,
      ((ProtectedControl.protectedClient keys.1 keys.2).writeMessage crypto.aead script.start).1 =
        .ok bytes :=
    k.writes (by simp) script.start u.start.fits
  let transport :=
    ((ProtectedControl.protectedClient keys.1 keys.2).writeMessage crypto.aead script.start).2
  obtain ⟨_, h⟩ := quic_proved connection u k hp hs hk
  have client : outcome (QuicClient.runQuicSession crypto json options) clientInbox [] = _ :=
    QuicClient.runs_runQuicSession u k hp hk (hs ▸ rfl) (Prod.ext hstart rfl) h
  have arrived := connection.server
  rw [quic_client_writes u k hp hs hk hstart h, ← List.append_nil start] at arrived
  obtain ⟨left, hleft, server⟩ := quic_server_answers u k hp hs hk hstart tagged accepts arrived
  have writes : (ProtectedControl.protectedServer keys.1 keys.2).Writes crypto.aead :=
    k.writes (by simp)
  obtain ⟨ack, hack⟩ := writes script.ack u.ack.fits
  have answer := connection.client
  rw [quic_server_writes u k hp hs hk hstart tagged accepts hack arrived, ← List.append_nil ack]
    at answer
  have peers : (ProtectedControl.protectedServer keys.1 keys.2).Peers transport :=
    ProtectedControl.Peers.writeMessage (.protectedBy rfl)
  obtain ⟨read, transport', rest, hread, htrim, _, hrest, _⟩ :=
    u.ack.readMessage tagged peers hack answer.drop.drop
  rw [client, server]
  refine ⟨rfl, rfl, rfl, ⟨rfl, hleft⟩, transport, read, transport', rest, rfl, ?_, hread, htrim, hrest⟩
  simp [hp, transport, ProtectedControl.writeMessage, ProtectedControl.protectedClient]

theorem quic_established_keyless (tagged : crypto.aead.Tagged)
    (hp : options.psk = none) (hs : security.psk = none)
    (accepts : QuicServer.Accepts security script.start) :
    Established crypto.aead options script
      (outcome (QuicClient.runQuicSession crypto json options) clientInbox [])
      (outcome (QuicServer.handleQuicClient crypto json security) serverInbox []) := by
  have hq : security.psk.mapM (derivePskSessionKey crypto) = .ok none := by rw [hs]; rfl
  obtain ⟨_, h⟩ := quic_greeted connection u hq
  have client : outcome (QuicClient.runQuicSession crypto json options) clientInbox [] = _ :=
    QuicClient.runs_runQuicSession_keyless u hp hs h
  have arrived := connection.server
  rw [trace, client, written_line protects_hello, written_heard protects_greeting.right,
    written_last rfl, ← List.append_nil (line script.start)] at arrived
  have writes : ProtectedControl.plaintext.Writes crypto.aead := fun text _ => ⟨line text, rfl⟩
  obtain ⟨left, hleft, request⟩ := QuicServer.runs_handleTestRequest options.clientNonce.isSome u accepts
    tagged .plaintext writes rfl arrived.drop
  have server : outcome (QuicServer.handleQuicClient crypto json security) serverInbox [] = _ :=
    (QuicServer.handleQuicClient_eq_keyless u hs arrived).trans request
  have answer := connection.client
  simp only [trace, server, List.cons_append, List.nil_append] at answer
  rw [written_heard protects_heard_hello, written_line protects_greeting.left, written_heard rfl,
    written_acknowledged rfl, ← List.append_nil (line script.ack)] at answer
  obtain ⟨read, transport', rest, hread, htrim, _, hrest, _⟩ :=
    u.ack.readMessage tagged .plaintext rfl answer.drop
  rw [client, server]
  exact ⟨rfl, rfl, rfl, ⟨rfl, hleft⟩, .plaintext, read, transport', rest, rfl, by simp [hp], hread,
    htrim, hrest⟩

-- The same over QUIC, where the key is bound to the TLS session.
theorem quic_established (tagged : crypto.aead.Tagged) (same : options.psk = security.psk)
    (keyed : ∀ psk ∈ options.psk, derivePskSessionKey crypto psk = .ok key ∧
      Keyed crypto json options security script key proof keys)
    (accepts : QuicServer.Accepts security script.start) :
    Established crypto.aead options script
      (outcome (QuicClient.runQuicSession crypto json options) clientInbox [])
      (outcome (QuicServer.handleQuicClient crypto json security) serverInbox []) := by
  cases hp : options.psk
  case none =>
    exact quic_established_keyless connection u tagged hp (same ▸ hp) accepts
  case some psk =>
    obtain ⟨hk, k⟩ := keyed psk hp
    exact quic_established_keyed connection u tagged k hp (same ▸ hp) hk accepts

end Quic

namespace Dialogue

def quicKey : Bytes :=
  match derivePskSessionKey crypto "k".toList with
  | .ok key  => key
  | .error _ => []

def quicLines : List Line :=
  lines "k".toList quicKey .quic (success quicKey)

def quicScript : Script :=
  script quicKey .quic (success quicKey)

def quicClientInbox : Fills :=
  pieces (line quicScript.greeting ++ line quicScript.success ++
    frame (keys quicKey).2 quicScript.ack)

def quicServerInbox : Fills :=
  pieces (line quicScript.hello ++ line quicScript.response ++
    frame (keys quicKey).1 quicScript.start)

set_option maxRecDepth 100000 in
theorem readable_quic : readable quicLines = true := by
  decide +kernel

theorem quic_derived : derivePskSessionKey crypto "k".toList = .ok quicKey := by
  decide +kernel

theorem quic_keyed : Keyed crypto (json quicLines) (options "k".toList) security quicScript quicKey
    (proof quicKey) (keys quicKey) :=
  keyed readable_quic (by decide +kernel) (by decide +kernel)

theorem quic_connection : QuicConnection crypto crypto (json quicLines) (options "k".toList) security
    (keys quicKey) quicClientInbox quicServerInbox := by
  have u := understood readable_quic
  refine .of_holds u quic_keyed rfl rfl quic_derived
    (writeMessage_eq_frame (quic_keyed.writes (by simp)) u.start.fits) Aead.tagging_tagged ⟨rfl, rfl⟩
    (writeMessage_eq_frame (quic_keyed.writes (by simp)) u.ack.fits) ?_ ?_
  · rw [quicClientInbox, List.append_assoc]
    exact holds_pieces (by decide +kernel)
  · rw [quicServerInbox, List.append_assoc]
    exact holds_pieces (by decide +kernel)

end Dialogue

theorem quic_established_pieces :
    Established Dialogue.crypto.aead (Dialogue.options "k".toList) Dialogue.quicScript
      (outcome (QuicClient.runQuicSession Dialogue.crypto (Dialogue.json Dialogue.quicLines)
        (Dialogue.options "k".toList)) Dialogue.quicClientInbox [])
      (outcome (QuicServer.handleQuicClient Dialogue.crypto (Dialogue.json Dialogue.quicLines)
        Dialogue.security) Dialogue.quicServerInbox []) := by
  have keyed : ∀ psk ∈ (Dialogue.options "k".toList).psk,
      derivePskSessionKey Dialogue.crypto psk = .ok Dialogue.quicKey ∧
      Keyed Dialogue.crypto (Dialogue.json Dialogue.quicLines) (Dialogue.options "k".toList)
        Dialogue.security Dialogue.quicScript Dialogue.quicKey (Dialogue.proof Dialogue.quicKey)
        (Dialogue.keys Dialogue.quicKey) := by
    intro psk hp
    obtain rfl : "k".toList = psk := Option.some_inj.mp hp
    exact ⟨Dialogue.quic_derived, Dialogue.quic_keyed⟩
  exact quic_established Dialogue.quic_connection (Dialogue.understood Dialogue.readable_quic)
    Aead.tagging_tagged rfl keyed ⟨rfl, rfl⟩
end Handshake
