import Xfr.Client.UdpHandshake
import Xfr.Report.Sample
import Xfr.Serve.HelloAgreement

def HelloToken.toBytes (token : HelloToken) : TokenBytes :=
  ⟨(Bytes.toBe UDP_HELLO_TOKEN_LEN token.toNat).toArray, Bytes.length_toBe⟩

def helloAck (token : TokenBytes) (streamIndex : UInt16) : UdpHelloPacket where
  kind        := UDP_HELLO_KIND_ACK
  streamIndex := streamIndex
  token       := token

def UdpHelloPacket.ack (pkt : UdpHelloPacket) : UdpHelloPacket :=
  helloAck pkt.token pkt.streamIndex

-- The answer of the handler of a stream to a datagram, whatever the handler is there for.
def singlePortReply (mtuProbe : Bool) (direction : Protocol.Direction) (ack datagram : Bytes) :
    Option Bytes :=
  if mtuProbe then
    let hello := (accepted UdpHelloPacket.decode datagram).any (·.kind = UDP_HELLO_KIND_HELLO)
    if hello then some ack else none
  else
    match direction with
    | .upload | .bidir => (UdpReceive.new.receive (some ack) datagram).1
    | .download        => respondSinglePortHellos ack datagram

-- A client runs the test `x` on a server among other tests. The server has sent it the token.
structure SinglePortTest (ι : Type*) where
  tests     : ι → TestStart
  direction : ι → Protocol.Direction
  mtuProbe  : ι → Bool
  x         : ι
  token     : TokenBytes
  addrs     : StreamAddrs

-- Whatever was sent may arrive at any time, in any order, any number of times or never. `data` is
-- what the streams send after their handshakes, and `queue` what has arrived at a socket.
structure SinglePort (ι : Type*) where
  server   : HelloDispatch ι
  streams  : UInt16 → Option UdpHandshake
  data     : UInt16 → List Bytes
  toClient : List (SocketAddr × Bytes)
  queue    : Nat → List Bytes

inductive SinglePortEvent (ι : Type*)
  | server (e : DispatchEvent ι)
  | start (i : UInt16)
  | client (i : UInt16) (e : HandshakeEvent)
  | data (i : UInt16) (datagram : Bytes)
  | hello (i : UInt16) (datagram : Bytes)
  | arrive (k : Nat) (i : UInt16) (datagram : Bytes)
  | answer (y : ι) (k : Nat) (i : UInt16)
  | transmit (y : ι) (k : Nat) (i : UInt16) (datagram : Bytes)
  | deliver (i : UInt16) (datagram : Bytes)

-- Nobody else sends hellos from the addresses of the client.
def DispatchEvent.isForeign {ι : Type*} (addrs : StreamAddrs) : DispatchEvent ι → Bool
  | .hello _ src => (addrs.streamOf src).isNone
  | _            => true

namespace HelloDispatch

variable {ι : Type*}

def sendFrom (s : HelloDispatch ι) (k : Nat) (datagram : Bytes) : List (SocketAddr × Bytes) :=
  match s.sockets[k]? with
  | some sock => [(sock.peer, datagram)]
  | none      => []

-- What the dispatcher itself sends.
def acks (s : HelloDispatch ι) : DispatchEvent ι → List (SocketAddr × Bytes)
  | .ack true =>
    match s.dispatcher with
    | .holding .acking k pkt _ => s.sendFrom k pkt.ack.datagram
    | _                        => []
  | .resend true =>
    match s.dispatcher with
    | .resending k pkt => s.sendFrom k pkt.ack.datagram
    | _                => []
  | _ => []

end HelloDispatch

namespace SinglePort

variable {ι : Type*} [DecidableEq ι]

def init : SinglePort ι where
  server    := .init
  streams _ := none
  data _    := []
  toClient  := []
  queue _   := []

def setStream (s : SinglePort ι) (i : UInt16) (h : UdpHandshake) : SinglePort ι :=
  { s with streams := Function.update s.streams i (some h) }

-- What a stream has sent by now.
def sentBy (s : SinglePort ι) (i : UInt16) : List Bytes :=
  (s.streams i).elim [] (·.sent) ++ s.data i

def step (t : SinglePortTest ι) : System (SinglePort ι) (SinglePortEvent ι)
  | s, .server e =>
    if e.isForeign t.addrs then
      (HelloDispatch.step t.tests s.server e).map fun server =>
        { s with server, toClient := s.toClient ++ s.server.acks e }
    else
      none
  | s, .start i =>
    match s.streams i with
    | some _ => none
    | none   =>
      if s.server.udpToken t.x = some (.ofBytes t.token) then some (s.setStream i .new) else none
  | s, .client i e =>
    (s.streams i).bind fun h => (UdpHandshake.step t.token i h e).map (s.setStream i)
  | s, .data i datagram =>
    if (s.streams i).any (·.point = .returned true) ∧ ¬isHello datagram then
      some { s with data := Function.update s.data i (s.data i ++ [datagram]) }
    else
      none
  | s, .hello i datagram =>
    if datagram ∈ s.sentBy i ∧ classifySharedDatagram datagram = .xfrHello then
      (HelloDispatch.step t.tests s.server (.hello datagram (t.addrs.addr i))).map fun server =>
        { s with server }
    else
      none
  | s, .arrive k i datagram =>
    if datagram ∈ s.sentBy i then
      some { s with queue := Function.update s.queue k (s.queue k ++ [datagram]) }
    else
      none
  | s, .answer y k i =>
    match s.server.udpToken y, s.queue k with
    | some token, datagram :: queue =>
      if (k, i) ∈ s.server.taken y then
        let ack   := (helloAck token.toBytes i).datagram
        let reply := singlePortReply (t.mtuProbe y) (t.direction y) ack datagram
        some { s with
          queue    := Function.update s.queue k queue
          toClient := s.toClient ++ reply.toList.flatMap (s.server.sendFrom k) }
      else
        none
    | _, _ => none
  | s, .transmit y k i datagram =>
    if (k, i) ∈ s.server.taken y ∧ ¬isHello datagram then
      some { s with toClient := s.toClient ++ s.server.sendFrom k datagram }
    else
      none
  | s, .deliver i datagram =>
    if (t.addrs.addr i, datagram) ∈ s.toClient then
      (s.streams i).map fun h => s.setStream i (h.arrive datagram)
    else
      none

end SinglePort

namespace HelloDispatch

variable {ι : Type*} {s s' : HelloDispatch ι} {a : SocketAddr} {k : Nat} {datagram : Bytes}
  {p : SocketAddr × Bytes}

def HasPeer (s : HelloDispatch ι) (a : SocketAddr) : Prop :=
  ∃ (k : Nat) (sock : DataSocket), s.sockets[k]? = some sock ∧ sock.peer = a

-- The server only sends from sockets which it has.
theorem hasPeer_of_mem_sendFrom (h : p ∈ s.sendFrom k datagram) : s.HasPeer p.1 := by
  unfold sendFrom at h
  split at h
  case h_1 sock hk => exact ⟨k, sock, hk, by rw [List.mem_singleton.mp h]⟩
  case h_2         => simp at h

theorem hasPeer_of_mem_acks {e : DispatchEvent ι} (h : p ∈ s.acks e) : s.HasPeer p.1 := by
  unfold acks at h
  split at h
  case h_3 => simp at h
  all_goals
    split at h
    case h_1 => exact hasPeer_of_mem_sendFrom h
    case h_2 => simp at h

end HelloDispatch

namespace SinglePort

variable {ι : Type*} {t : SinglePortTest ι} {s s' : SinglePort ι} {i : UInt16}

structure Inv (t : SinglePortTest ι) (s : SinglePort ι) : Prop where
  server   : HelloDispatch.Inv t.tests s.server
  agrees   : s.server.Agrees t.addrs t.token t.x
  streams  : ∀ i h, s.streams i = some h → h.Sound t.token i ∧
               s.server.udpToken t.x = some (.ofBytes t.token) ∧
               (h.inbox ≠ [] ∨ h.point = .returned true → s.server.HasPeer (t.addrs.addr i))
  data     : ∀ i, ∀ datagram ∈ s.data i, isHello datagram = false
  toClient : ∀ p ∈ s.toClient, s.server.HasPeer p.1

namespace Inv

theorem init : Inv t init where
  server   := .init
  agrees   := .init
  streams  := by simp [SinglePort.init]
  data     := by simp [SinglePort.init]
  toClient := by simp [SinglePort.init]

theorem serve [DecidableEq ι] {server : HelloDispatch ι} {e : DispatchEvent ι} (inv : Inv t s)
    (h : HelloDispatch.step t.tests s.server e = some server)
    (honest : ∀ data src, e = .hello data src → s.server.Honest t.addrs t.token t.x data src) :
    Inv t { s with server } := by
  have ⟨sockets, udpToken⟩ := HelloDispatch.step_persists inv.server h
  have persists {a : SocketAddr} (hp : s.server.HasPeer a) : server.HasPeer a := by
    have ⟨k, sock, hk, ha⟩ := hp
    exact ⟨k, sock, sockets k sock hk, ha⟩
  refine { inv with
    server   := inv.server.step h
    agrees   := inv.agrees.step inv.server h honest
    streams  := fun i st hi => ?_
    toClient := fun p hp => persists (inv.toClient p hp) }
  have ⟨sound, known, heard⟩ := inv.streams i st hi
  exact ⟨sound, udpToken _ _ known, fun h => persists (heard h)⟩

theorem setStream {h : UdpHandshake} (inv : Inv t s) (sound : h.Sound t.token i)
    (known : s.server.udpToken t.x = some (.ofBytes t.token))
    (heard : h.inbox ≠ [] ∨ h.point = .returned true → s.server.HasPeer (t.addrs.addr i)) :
    Inv t (s.setStream i h) := by
  refine { inv with streams := fun j h' hj => ?_ }
  rcases update_some_eq_some.mp hj with ⟨rfl, rfl⟩ | ⟨_, hj⟩
  · exact ⟨sound, known, heard⟩
  · exact inv.streams j h' hj

theorem send {sent : List (SocketAddr × Bytes)} {queue : Nat → List Bytes} (inv : Inv t s)
    (h : ∀ p ∈ sent, s.server.HasPeer p.1) :
    Inv t { s with queue, toClient := s.toClient ++ sent } := by
  refine { inv with toClient := fun p hp => ?_ }
  cases List.mem_append.mp hp
  case inl hp => exact inv.toClient p hp
  case inr hp => exact h p hp

-- What a stream sends are its own hellos, and no others.
theorem honest {datagram : Bytes} (inv : Inv t s) (h : datagram ∈ s.sentBy i) :
    s.server.Honest t.addrs t.token t.x datagram (t.addrs.addr i) := by
  intro j pkt ha hp
  obtain rfl := StreamAddrs.inj ha
  cases List.mem_append.mp h
  case inr hd => exact nomatch (isHello_of_accepted hp).symm.trans (inv.data i datagram hd)
  case inl hd =>
    cases hs : s.streams i
    case none => simp [hs] at hd
    case some st =>
      have ⟨sound, known, _⟩ := inv.streams i st hs
      have hd := sound.sent datagram (by simpa [hs] using hd)
      have hello : UdpHelloPacket.IsKnown (UdpHandshake.hello t.token i) := .inl rfl
      rw [hd, UdpHelloPacket.accepted_datagram hello] at hp
      exact Option.some_inj.mp hp ▸ ⟨rfl, rfl, known⟩

variable [DecidableEq ι]

theorem step {e : SinglePortEvent ι} (inv : Inv t s) (h : step t s e = some s') : Inv t s' := by
  cases e
  all_goals
    unfold SinglePort.step at h
    dsimp only at h
  case server e =>
    obtain ⟨foreign, h⟩ := Option.ite_none_right_eq_some.mp h
    obtain ⟨server, hs, h⟩ := Option.map_eq_some_iff.mp h
    have served := inv.serve hs fun data src he i pkt ha _ => by
      subst he
      simp [DispatchEvent.isForeign, (t.addrs.isStream src i).mpr ha.symm] at foreign
    obtain ⟨sockets, _⟩ := HelloDispatch.step_persists inv.server hs
    refine h ▸ served.send fun p hp => ?_
    obtain ⟨k, sock, hk, ha⟩ := HelloDispatch.hasPeer_of_mem_acks hp
    exact ⟨k, sock, sockets k sock hk, ha⟩
  case start i =>
    split at h
    case h_1 => contradiction
    case h_2 =>
      obtain ⟨known, h⟩ := Option.ite_none_right_eq_some.mp h
      exact Option.some_inj.mp h ▸ inv.setStream .new known (by simp [UdpHandshake.new])
  case client i e =>
    obtain ⟨st, hi, h⟩ := Option.bind_eq_some_iff.mp h
    obtain ⟨st', hs, h⟩ := Option.map_eq_some_iff.mp h
    obtain ⟨sound, known, heard⟩ := inv.streams i st hi
    exact h ▸ inv.setStream (sound.step hs) known fun h => heard (UdpHandshake.step_heard hs h)
  case data i datagram =>
    obtain ⟨⟨_, hello⟩, h⟩ := Option.ite_none_right_eq_some.mp h
    refine Option.some_inj.mp h ▸ { inv with data := fun j d hd => ?_ }
    by_cases hj : j = i
    case neg => exact inv.data j d (by simpa [hj] using hd)
    case pos =>
      subst hj
      have hd : d ∈ s.data j ++ [datagram] := by simpa using hd
      cases List.mem_append.mp hd
      case inl hd => exact inv.data j d hd
      case inr hd => simpa [List.mem_singleton.mp hd] using hello
  case hello i datagram =>
    obtain ⟨⟨sent, _⟩, h⟩ := Option.ite_none_right_eq_some.mp h
    obtain ⟨server, hs, h⟩ := Option.map_eq_some_iff.mp h
    refine h ▸ inv.serve hs fun data src he => ?_
    obtain ⟨rfl, rfl⟩ := DispatchEvent.hello.inj he
    exact inv.honest sent
  case arrive k i datagram =>
    obtain ⟨_, h⟩ := Option.ite_none_right_eq_some.mp h
    exact Option.some_inj.mp h ▸ { inv with }
  case answer y k i =>
    split at h
    case h_2 => contradiction
    case h_1 =>
      obtain ⟨_, h⟩ := Option.ite_none_right_eq_some.mp h
      refine Option.some_inj.mp h ▸ inv.send fun p hp => ?_
      obtain ⟨_, _, hp⟩ := List.mem_flatMap.mp hp
      exact HelloDispatch.hasPeer_of_mem_sendFrom hp
  case transmit y k i datagram =>
    obtain ⟨_, h⟩ := Option.ite_none_right_eq_some.mp h
    exact Option.some_inj.mp h ▸ inv.send fun p hp => HelloDispatch.hasPeer_of_mem_sendFrom hp
  case deliver i datagram =>
    obtain ⟨sent, h⟩ := Option.ite_none_right_eq_some.mp h
    obtain ⟨st, hi, h⟩ := Option.map_eq_some_iff.mp h
    obtain ⟨sound, known, _⟩ := inv.streams i st hi
    exact h ▸ inv.setStream sound.arrive known fun _ => inv.toClient _ sent

theorem run {events : List (SinglePortEvent ι)}
    (h : (SinglePort.step t).run SinglePort.init events = some s) : Inv t s :=
  System.run_invariant (fun inv hs => step inv hs) init h

end Inv

variable [DecidableEq ι]

-- Whatever gets lost, is duplicated, delayed or reordered: where a handshake has returned with
-- success, the socket of its stream is there. As long as the route of the test is, it is the only
-- socket which the test can get for the stream, and the test gets it unless its collection has ended.
theorem handshake_agreement (t : SinglePortTest ι) (events : List (SinglePortEvent ι))
    (s : SinglePort ι) (h : (step t).run init events = some s) :
    (∀ i st, s.streams i = some st →
      (st.point = .returned true → ∃ (k : Nat) (sock : DataSocket),
        s.server.sockets[k]? = some sock ∧ sock.peer = t.addrs.addr i ∧ sock.token = t.token ∧
        sock.streamIndex = i ∧ s.server.udpToken t.x = some (.ofBytes t.token) ∧
        (s.server.Routed t.x (.ofBytes t.token) →
          (∀ k', (k', i) ∈ s.server.handed t.x → k' = k) ∧
          ((k, i) ∈ s.server.handed t.x ∨ s.server.HandsOver t.tests t.x k i ∨
            s.server.collection t.x = .done))) ∧
      (∀ d ∈ st.consumed, isHello d = true ∧ ∀ header, ¬IsData d header) ∧
      st.sent.length ≤ UDP_HELLO_MAX_ATTEMPTS) ∧
    ∀ k i j y z, (k, i) ∈ s.server.handed y → (k, j) ∈ s.server.handed z → i = j := by
  have inv := Inv.run h
  refine ⟨fun i st hi => ?_, fun k i j y z hy hz => ?_⟩
  case refine_2 =>
    have ⟨sock, hk, hi, _⟩ := inv.server.handed y _ hy
    have ⟨sock', hk', hj, _⟩ := inv.server.handed z _ hz
    obtain rfl := Option.some_inj.mp (hk.symm.trans hk')
    exact hi.symm.trans hj
  case refine_1 =>
    have ⟨sound, known, heard⟩ := inv.streams i st hi
    refine ⟨fun hp => ?_, fun d hd => ?_, sound.attempts.le⟩
    case refine_2 =>
      have hello := sound.consumed d hd
      exact ⟨hello, fun header data => by simp [data.not_lane.left] at hello⟩
    case refine_1 =>
      have ⟨k, sock, hk, ha⟩ := heard (.inr hp)
      have ⟨ht, hs, _, owned⟩ := inv.agrees.sockets k sock i hk ha
      refine ⟨k, sock, hk, ha, ht, hs, known, fun routed => ⟨(owned routed).only, ?_⟩⟩
      by_cases hc : s.server.collection t.x = .done
      case pos => exact .inr (.inr hc)
      case neg =>
        rcases (owned routed).placed with hc' | ⟨stage, pkt, hd⟩ | hm
        · exact absurd hc' hc
        · have ⟨sock', hk', hi', _, token⟩ := inv.server.held hd
          obtain rfl := Option.some_inj.mp (hk.symm.trans hk')
          have hkey := Option.some_inj.mp (token.symm.trans known)
          have handover := HelloDispatch.handsOver inv.server hd (hkey ▸ routed) hc
          exact .inr (.inl (hs ▸ hi' ▸ handover))
        · exact .inl hm

def lateAddrs : StreamAddrs where
  addr i       := { ip := .v4 1, port := i }
  streamOf a   := if a.ip = .v4 1 then some a.port else none
  isStream a i := by
    cases a
    simp only [Option.ite_none_right_eq_some, Option.some_inj, SocketAddr.mk.injEq]
    exact ⟨fun ⟨hi, hp⟩ => ⟨hi.symm, hp.symm⟩, fun ⟨hi, hp⟩ => ⟨hi.symm, hp.symm⟩⟩

def lateTest : SinglePortTest Unit where
  tests     := HelloDispatch.lateTest
  direction := fun _ => .upload
  mtuProbe  := fun _ => false
  x         := ()
  token     := Vector.replicate 16 0
  addrs     := lateAddrs

-- The collection has timed out before the first hello arrives.
def lateEvents : List (SinglePortEvent Unit) :=
  [ .server (.session () .call), .server (.session () (.route 0)), .server (.session () .register),
    .server (.session () .ackWritten), .server (.collect ()), .server (.stopCollecting ()), .start 0,
    .client 0 (.send true), .hello 0 (UdpHandshake.hello lateTest.token 0).datagram,
    .server (.create true), .server (.ack true), .deliver 0 (helloAck lateTest.token 0).datagram,
    .client 0 (.peek true), .server .store, .server .send ]

-- The handshake has succeeded and the route is there, but the test does not get the socket.
theorem lost_after_collection : ∃ (s : SinglePort Unit) (st : UdpHandshake),
    (step lateTest).run init lateEvents = some s ∧ s.streams 0 = some st ∧
    st.point = .returned true ∧ s.server.Routed () 0 ∧ s.server.dispatcher = .idle ∧
    s.server.handed () = [] :=
  ⟨_, _, rfl, rfl, rfl, ⟨_, rfl, rfl⟩, rfl, rfl⟩

theorem handshake_agreement_late : ∃ (s : SinglePort Unit),
    (step lateTest).run init lateEvents = some s ∧
    ∀ st, s.streams 0 = some st → st.sent.length ≤ UDP_HELLO_MAX_ATTEMPTS :=
  ⟨_, rfl, fun st hs => ((handshake_agreement lateTest lateEvents _ rfl).left 0 st hs).right.right⟩

end SinglePort
