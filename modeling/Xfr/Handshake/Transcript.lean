import Xfr.Handshake.Gate
import Xfr.Library.JsonText

open Utf8 (Text)

-- What the JSON library promises for tagged enumerations: they are written as objects, and read from
-- single values with at most blanks around them.
structure Json.Standard (json : Json) : Prop where
  serialize   : ∀ {message text}, json.serialize message = some text → text ∈ JsonText.composites
  deserialize : ∀ {text message}, json.deserialize text = some message → text ∈ JsonText.documents

-- Different messages have different codes, under whatever keys.
def Hmac.Ideal (hmac : (key msg : Bytes) → Bytes) : Prop :=
  ∀ k k' m m', hmac k m = hmac k' m' → m = m'

namespace Handshake

-- A trimmed text which a peer accepts.
def Acceptable (json : Json) (text : Text) : Prop :=
  Utf8.trim text = text ∧ ∃ message, json.deserialize text = some message

variable {crypto : Crypto} {json : Json} {hmac : (key msg : Bytes) → Bytes} {hkdf : Hkdf}
  {aead : Aead} {exporter exporter' : (label context : Bytes) → Option Bytes}
  {options : ClientOptions} {security : SecurityContext} {proof : Text} {client server : List Event}

-- A client accepts a proof: it gets past the point where it may protect the channel, and was
-- challenged.
inductive Accepts (crypto : Crypto) (json : Json) (options : ClientOptions) (proof : Text) :
    List Event → Prop
  | tcp {inbox : Fills} {faults : List (Option Fault)} {capabilities : Option (List Text)}
    {nonce success : Text} {w : Wire} :
    outcome (TcpClient.greet crypto json options) inbox faults =
      (.ok (capabilities, some nonce), w) →
    .heard success (.authSuccess (some proof)) ∈ w.trace →
    Accepts crypto json options proof w.trace
  | quic {inbox : Fills} {faults : List (Option Fault)} {capabilities : Option (List Text)}
    {nonce success : Text} {sessionPsk : Option Bytes} {w : Wire} :
    outcome (QuicClient.greet crypto json options) inbox faults =
      (.ok (capabilities, some nonce, sessionPsk), w) →
    .heard success (.authSuccess (some proof)) ∈ w.trace →
    Accepts crypto json options proof w.trace

-- A server sends a proof.
inductive Issues (crypto : Crypto) (json : Json) (security : SecurityContext) (proof : Text) :
    List Event → Prop
  | tcp {inbox : Fills} {faults : List (Option Fault)} {success : Text} :
    .sent success (.authSuccess (some proof)) ∈
      trace (TcpServer.handleNewConnection crypto json security) inbox faults →
    Issues crypto json security proof
      (trace (TcpServer.handleNewConnection crypto json security) inbox faults)
  | quic {inbox : Fills} {faults : List (Option Fault)} {success : Text} :
    .sent success (.authSuccess (some proof)) ∈
      trace (QuicServer.handleQuicClient crypto json security) inbox faults →
    Issues crypto json security proof
      (trace (QuicServer.handleQuicClient crypto json security) inbox faults)

-- Each side got the hello which the other one sent.
def SameHellos (client server : List Event) : Prop :=
  ∃ clientHello serverHello m₁ m₂ n₁ n₂ clientRest serverRest,
    client = .sent clientHello m₁ :: .heard serverHello m₂ :: clientRest ∧
    server = .heard clientHello n₁ :: .sent serverHello n₂ :: serverRest

-- What is trimmed and accepted is an object or an array, and nothing else.
theorem trim_accepted {text : Text} {message : Message} (standard : json.Standard)
    (h : json.deserialize (Utf8.trim text) = some message) :
    Utf8.trim text ∈ JsonText.composites :=
  @Utf8.trim_trim text ▸ JsonText.trim_document (standard.deserialize h)

theorem Acceptable.composite {text : Text} (standard : json.Standard) (h : Acceptable json text) :
    text ∈ JsonText.composites := by
  have ⟨ht, _, hd⟩ := h
  exact ht ▸ JsonText.trim_document (standard.deserialize hd)

-- There is no separator between the hellos, and none is needed.
theorem hellos_inj {ch sh ch' sh' : Text} (hc : Utf8.trim ch ∈ JsonText.composites)
    (hs : sh ∈ JsonText.composites) (hc' : ch' ∈ JsonText.composites)
    (hs' : sh' ∈ JsonText.composites)
    (he : Utf8.encode ch ++ Utf8.encode sh = Utf8.encode ch' ++ Utf8.encode sh') :
    ch = ch' ∧ sh = sh' := by
  rw [← Utf8.encode_append, ← Utf8.encode_append] at he
  exact JsonText.append_inj hc hc' hs hs' (Utf8.encode_injective he)

theorem Verified.proof_eq {key : Bytes} {success proof' : Text} {t : List Event}
    (h : Verified crypto json options key proof t)
    (hm : .heard success (.authSuccess (some proof')) ∈ t) : proof' = proof := by
  cases h
  simp at hm
  exact hm.right

namespace Accepts

theorem of_outcome {inbox : Fills} {faults : List (Option Fault)}
    {capabilities : Option (List Text)} {nonce success : Text}
    (ho : (outcome (TcpClient.greet crypto json options) inbox faults).1.toOption =
      some (capabilities, some nonce))
    (hm : .heard success (.authSuccess (some proof)) ∈
      trace (TcpClient.greet crypto json options) inbox faults) :
    Accepts crypto json options proof
      (trace (TcpClient.greet crypto json options) inbox faults) := by
  unfold trace at hm ⊢
  cases hr : outcome (TcpClient.greet crypto json options) inbox faults with | mk r w =>
  rw [hr] at ho hm
  cases r
  case error => exact nomatch ho
  case ok result =>
    obtain rfl := Option.some_inj.mp ho
    exact .tcp hr hm

theorem verified (h : Accepts crypto json options proof client) :
    ∃ key, Verified crypto json options key proof client := by
  cases h
  case tcp nonce _ w ho hm =>
    cases hp : options.psk
    case none     =>
      have ⟨hn, _⟩ := outcome_ok (TcpClient.greet_keyless hp) ho
      simp at hn
    case some psk =>
      have ⟨⟨key, _, _, hv⟩, _⟩ := outcome_ok (TcpClient.greet_spec hp) ho
      exact ⟨key, hv.proof_eq hm ▸ hv⟩
  case quic nonce _ _ w ho hm =>
    cases hp : options.psk
    case none     =>
      have ⟨hn, _⟩ := outcome_ok (QuicClient.greet_keyless hp) ho
      simp at hn
    case some psk =>
      have ⟨⟨key, _, _, hv⟩, _⟩ := outcome_ok (QuicClient.greet_spec hp) ho
      exact ⟨key, hv.proof_eq hm ▸ hv⟩

end Accepts

namespace Issues

theorem proved (h : Issues crypto json security proof server) :
    ∃ required key before, before <+: server ∧
      Proved crypto json security required key proof before := by
  cases h
  case tcp inbox faults success hm =>
    cases hp : security.psk
    case none     =>
      have hn : Proofless (trace (TcpServer.handleNewConnection crypto json security) inbox faults) :=
        (outcome_cases (TcpServer.handleNewConnection_keyless hp)).elim id And.left
      exact absurd (hn _ hm) (by simp [Event.isProof])
    case some psk =>
      obtain ⟨before, _, ht⟩ := List.mem_iff_append.mp hm
      exact ⟨_, _, before, ⟨_, ht.symm⟩, justified_at ht (TcpServer.handleNewConnection_spec hp)⟩
  case quic inbox faults success hm =>
    cases hp : security.psk
    case none     =>
      have hn : Proofless (trace (QuicServer.handleQuicClient crypto json security) inbox faults) :=
        (outcome_cases (QuicServer.handleQuicClient_keyless hp)).elim id And.left
      exact absurd (hn _ hm) (by simp [Event.isProof])
    case some psk =>
      cases hk : derivePskSessionKey crypto psk
      case error e =>
        have hn : trace (QuicServer.handleQuicClient crypto json security) inbox faults = [] :=
          (outcome_cases (QuicServer.handleQuicClient_error hp hk)).elim False.elim And.left
        simp [hn] at hm
      case ok key  =>
        obtain ⟨before, _, ht⟩ := List.mem_iff_append.mp hm
        exact ⟨_, _, before, ⟨_, ht.symm⟩,
          justified_at ht (QuicServer.handleQuicClient_spec hp hk)⟩

end Issues

-- With an ideal code, the transcripts of both sides are the same, and so are their parts.
theorem same_hellos {required : List Text} {key key' : Bytes} {before rest : List Event}
    (standard : json.Standard) (ideal : Hmac.Ideal hmac)
    (hv : Verified ⟨hmac, hkdf, aead, exporter⟩ json options key proof client)
    (hp : Proved ⟨hmac, hkdf, aead, exporter'⟩ json security required key' proof before) :
    SameHellos client (before ++ rest) := by
  cases hv
  case intro hello line _ _ _ _ _ _ _ hs hd hv =>
    cases hp
    case intro raw challenge _ _ _ _ hg hp =>
      cases hg
      case intro hd' _ _ hs' =>
        have ⟨_, hc⟩ := ServerProof.computeWithKey_ok (ServerProof.computeWithKey_of_verify hv)
        have ⟨_, hc'⟩ := ServerProof.computeWithKey_ok hp
        have he : Utf8.encode raw ++ Utf8.encode challenge =
            Utf8.encode hello ++ Utf8.encode (Utf8.trim line) :=
          ideal _ _ _ _ (Hex.encode_injective (hc'.symm.trans hc))
        have hh : hello ∈ JsonText.composites := standard.serialize hs
        have ⟨hr, hl⟩ := hellos_inj (trim_accepted standard hd') (standard.serialize hs') hh
          (trim_accepted standard hd) he
        have hr : Utf8.trim raw = hello := hr ▸ JsonText.trim_composite (hr ▸ hh)
        exact ⟨hello, Utf8.trim line, _, _, _, _, _, _, rfl, by rw [hr, hl]; rfl⟩

-- The transcript is unambiguous, so that a proof which one side accepts and the other one issued
-- binds both to the same hellos.
theorem transcript_binding (standard : json.Standard) (ideal : Hmac.Ideal hmac) :
    (∀ ch sh ch' sh', Acceptable json ch → Acceptable json sh → Acceptable json ch' →
      Acceptable json sh' →
      Utf8.encode ch ++ Utf8.encode sh = Utf8.encode ch' ++ Utf8.encode sh' →
      ch = ch' ∧ sh = sh') ∧
    (∀ options security proof client server,
      Accepts ⟨hmac, hkdf, aead, exporter⟩ json options proof client →
      Issues ⟨hmac, hkdf, aead, exporter'⟩ json security proof server →
      SameHellos client server) := by
  refine ⟨?_, ?_⟩
  · intro ch sh ch' sh' hc hs hc' hs' he
    exact hellos_inj (hc.left.symm ▸ hc.composite standard) (hs.composite standard)
      (hc'.composite standard) (hs'.composite standard) he
  · intro options security proof client server ha hi
    have ⟨_, hv⟩ := ha.verified
    have ⟨_, _, before, ⟨rest, hr⟩, hp⟩ := hi.proved
    exact hr ▸ same_hellos standard ideal hv hp

theorem standard_ofTable {table : List (Text × Message)}
    (h : ∀ row ∈ table, row.1 ∈ JsonText.composites) : (Sample.ofTable table).Standard where
  serialize hs := by
    have ⟨row, hr, ht⟩ := Option.map_eq_some_iff.mp hs
    exact ht ▸ h row (List.mem_of_find?_eq_some hr)
  deserialize hd := by
    have ⟨row, hr, _⟩ := Option.map_eq_some_iff.mp hd
    have ht := List.find?_some hr
    simp only [decide_eq_true_eq] at ht
    exact ⟨[], [], row.1, h row (List.mem_of_find?_eq_some hr), by simp [ht]⟩

namespace Sample

open JsonText (Piece Tree)

def pieces (text : Text) : List Piece :=
  text.filterMap fun c =>
    if h : 0x20 ≤ c.toNat ∧ c ≠ '"' ∧ c ≠ '\\' then some (.plain c h) else none

def item (name : String) (value : Tree .value) : Tree .member :=
  .member [] (pieces name.toList) [] (.element [] value [])

def string (name : String) (value : Text) : Tree .member :=
  item name (.string (pieces value))

-- Hellos of a library which leaves out all but the nonces.
def clientHelloTree : Tree .value :=
  .object <| .members (string "type" "hello".toList) <| .lastMember (string "client_nonce" "c".toList)

def serverHelloTree : Tree .value :=
  .object <| .members (string "type" "hello".toList) <|
    .lastMember (string "nonce" Sample.security.nonce)

def responseTree : Tree .value :=
  .object <| .members (string "type" "auth_response".toList) <|
    .lastMember (string "response" "6e".toList)

-- A code which does not compress at all.
def idealCrypto : Crypto where
  hmac _ msg := msg
  hkdf       := Sample.crypto.hkdf
  aead       := Sample.crypto.aead
  exporter   := Sample.crypto.exporter

def idealProof : Text :=
  match ServerProof.compute idealCrypto (Utf8.encode clientHelloTree.text)
      (Utf8.encode serverHelloTree.text) "c".toList Sample.security.nonce "k".toList with
  | .ok proof => proof
  | .error _  => []

def successTree : Tree .value :=
  .object <| .members (string "type" "auth_success".toList) <|
    .lastMember (string "server_proof" idealProof)

def idealTable : List (Tree .value × Message) := [
  (clientHelloTree, .clientHelloWithNonce "c".toList),
  (serverHelloTree, Sample.security.challenge),
  (responseTree, .authResponse "6e".toList),
  (successTree, .authSuccess (some idealProof))]

def idealJson : Json :=
  ofTable (idealTable.map fun (tree, message) => (tree.text, message))

theorem standard_idealJson : idealJson.Standard := by
  apply standard_ofTable
  have hc : ∀ row ∈ idealTable, row.1.isComposite = true := by
    simp [idealTable, clientHelloTree, serverHelloTree, responseTree, successTree, Tree.isComposite]
  intro row h
  obtain ⟨⟨tree, _⟩, ht, he⟩ := List.mem_map.mp h
  exact he ▸ ⟨tree, hc _ ht, rfl⟩

def idealOptions : ClientOptions where
  psk                  := some "k".toList
  nonce                := "c".toList
  id                   := "t".toList
  protocol             := .tcp
  udpPayloadSize       := none
  mtuProbe             := false
  byteBudget           := none
  tcpCongestion        := none
  validateCongestion _ := .ok ()

def clientInbox : Fills :=
  [line serverHelloTree.text ++ line successTree.text]

def serverInbox : Fills :=
  [line clientHelloTree.text ++ line responseTree.text]

theorem composite_clientHello : clientHelloTree.text ∈ JsonText.composites :=
  ⟨clientHelloTree, rfl, rfl⟩

theorem composite_serverHello : serverHelloTree.text ∈ JsonText.composites :=
  ⟨serverHelloTree, rfl, rfl⟩

set_option maxRecDepth 100000 in
theorem accepts_ideal :
    Accepts idealCrypto idealJson idealOptions idealProof
      (trace (TcpClient.greet idealCrypto idealJson idealOptions) clientInbox []) := by
  have ⟨ho, hm⟩ : (outcome (TcpClient.greet idealCrypto idealJson idealOptions)
        clientInbox []).1.toOption =
        some (some Sample.security.capabilities, some Sample.security.nonce) ∧
      .heard successTree.text (.authSuccess (some idealProof)) ∈
        trace (TcpClient.greet idealCrypto idealJson idealOptions) clientInbox [] := by
    decide +kernel
  exact .of_outcome ho hm

set_option maxRecDepth 100000 in
theorem issues_ideal :
    Issues idealCrypto idealJson Sample.security idealProof
      (trace (TcpServer.handleNewConnection idealCrypto idealJson Sample.security) serverInbox
        []) := by
  have hm : .sent successTree.text (.authSuccess (some idealProof)) ∈
      trace (TcpServer.handleNewConnection idealCrypto idealJson Sample.security) serverInbox
        [] := by
    decide +kernel
  exact .tcp hm

end Sample

-- The hellos cannot change places, for example, and a handshake with a proof is about the same ones.
theorem transcript_binding_of_hellos :
    Utf8.encode Sample.clientHelloTree.text ++ Utf8.encode Sample.serverHelloTree.text ≠
      Utf8.encode Sample.serverHelloTree.text ++ Utf8.encode Sample.clientHelloTree.text ∧
    ∃ client server,
      Accepts Sample.idealCrypto Sample.idealJson Sample.idealOptions Sample.idealProof client ∧
      Issues Sample.idealCrypto Sample.idealJson Sample.security Sample.idealProof server ∧
      SameHellos client server := by
  have ideal : Hmac.Ideal (fun _ msg => msg) := fun _ _ _ _ => id
  have ⟨unambiguous, binding⟩ := @transcript_binding Sample.idealJson (fun _ msg => msg)
    Sample.crypto.hkdf Sample.crypto.aead Sample.crypto.exporter Sample.crypto.exporter
    Sample.standard_idealJson ideal
  refine ⟨fun he => ?_, _, _, Sample.accepts_ideal, Sample.issues_ideal, ?_⟩
  · have client : Acceptable Sample.idealJson Sample.clientHelloTree.text :=
      ⟨JsonText.trim_composite Sample.composite_clientHello, .clientHelloWithNonce "c".toList,
        by decide +kernel⟩
    have server : Acceptable Sample.idealJson Sample.serverHelloTree.text :=
      ⟨JsonText.trim_composite Sample.composite_serverHello, Sample.security.challenge,
        by decide +kernel⟩
    have ⟨hn, _⟩ := unambiguous _ _ _ _ client server server client he
    exact absurd hn (by decide +kernel)
  · exact binding _ _ _ _ _ Sample.accepts_ideal Sample.issues_ideal

end Handshake
