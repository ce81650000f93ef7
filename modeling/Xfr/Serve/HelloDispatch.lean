import Xfr.Serve.DataStreams
import Xfr.Udp.Receive

-- The main UDP port of a server: hellos come in from anywhere, and the streams of tests get sockets
-- of their own, on the same port.

structure SocketAddr where
  ip   : IpAddr
  port : UInt16
  deriving DecidableEq

def HelloToken.ofBytes (token : TokenBytes) : HelloToken :=
  BitVec.ofNat 128 (Bytes.ofBe token.toList)

def UdpHelloPacket.helloToken (pkt : UdpHelloPacket) : HelloToken :=
  .ofBytes pkt.token

inductive UdpHelloVerdict
  | accept
  | resend
  | unknownToken
  | ipMismatch
  | badStreamIndex
  deriving DecidableEq

def checkUdpHello {ι : Type*} (route : Option (UdpHelloRoute ι)) (pkt : UdpHelloPacket)
    (srcIp : IpAddr) : UdpHelloVerdict :=
  match route with
  | none       => .unknownToken
  | some route =>
    if srcIp.normalize ≠ route.controlPeerIp.normalize then .ipMismatch
    else if pkt.streamIndex.toNat ≥ route.expectedStreams then .badStreamIndex
    else if route.sockets[pkt.streamIndex.toNat]? = some true then .resend
    else .accept

-- A socket which is connected to the sender of a hello, and the stream which that hello was for.
structure DataSocket where
  peer        : SocketAddr
  token       : TokenBytes
  streamIndex : UInt16

inductive HandOff
  | acking
  | storing
  | sending
  deriving DecidableEq

-- What the one task is doing which reads the hellos. Sockets are known by their positions.
inductive Dispatcher (ι : Type*)
  | idle
  | creating (pkt : UdpHelloPacket) (src : SocketAddr) (tx : ι)
  | holding (stage : HandOff) (socket : Nat) (pkt : UdpHelloPacket) (tx : ι)
  | resending (socket : Nat) (pkt : UdpHelloPacket)
  | panicked

-- `stored` has the sockets of a route, and `handed` all the sockets which were ever sent to a test.
structure HelloDispatch (ι : Type*) where
  host       : Host ι
  udpToken   : ι → Option HelloToken
  stored     : HelloToken → List (Option Nat)
  dispatcher : Dispatcher ι
  sockets    : List DataSocket
  channel    : ι → List (Nat × UInt16)
  collection : ι → Collection
  handed     : ι → List (Nat × UInt16)
  taken      : ι → List (Nat × UInt16)

inductive DispatchEvent (ι : Type*)
  | session (x : ι) (e : RunEvent)
  | hello (data : Bytes) (src : SocketAddr)
  | create (ok : Bool)
  | ack (ok : Bool)
  | store
  | send
  | resend (ok : Bool)
  | collect (x : ι)
  | receive (x : ι)
  | stopCollecting (x : ι)

namespace HelloDispatch

variable {ι : Type*} [DecidableEq ι]

def init : HelloDispatch ι where
  host         := .init
  udpToken _   := none
  stored _     := []
  dispatcher   := .idle
  sockets      := []
  channel _    := []
  collection _ := .idle
  handed _     := []
  taken _      := []

def goto (s : HelloDispatch ι) (dispatcher : Dispatcher ι) : HelloDispatch ι :=
  { s with dispatcher }

-- A route begins without sockets.
def registered (s : HelloDispatch ι) (x : ι) (streams : Nat) (token : HelloToken) :
    HelloDispatch ι :=
  { s with
    udpToken := Function.update s.udpToken x (some token)
    stored   := Function.update s.stored token (List.replicate streams none) }

-- All the checks are made under the lock.
def dispatch (s : HelloDispatch ι) (data : Bytes) (src : SocketAddr) : HelloDispatch ι :=
  match accepted UdpHelloPacket.decode data with
  | none     => s
  | some pkt =>
    if pkt.kind ≠ UDP_HELLO_KIND_HELLO then s else
      let route := s.host.routes pkt.helloToken
      match checkUdpHello route pkt src.ip with
      | .accept =>
        match route with
        | some route => s.goto (.creating pkt src route.socketTx)
        | none       => s.goto .panicked
      | .resend =>
        match (s.stored pkt.helloToken)[pkt.streamIndex.toNat]? with
        | some (some socket) => s.goto (.resending socket pkt)
        | _                  => s.goto .panicked
      | _ => s

def create (s : HelloDispatch ι) (pkt : UdpHelloPacket) (src : SocketAddr) (tx : ι) :
    HelloDispatch ι where
  __ := s
  sockets    := s.sockets ++ [{ peer := src, token := pkt.token, streamIndex := pkt.streamIndex }]
  dispatcher := .holding .acking s.sockets.length pkt tx

-- The route may be gone by now. The index was checked against the route as it was before.
def store (s : HelloDispatch ι) (socket : Nat) (pkt : UdpHelloPacket) (tx : ι) : HelloDispatch ι :=
  match s.host.routes pkt.helloToken with
  | none   => s.goto .idle
  | some r =>
    if pkt.streamIndex.toNat < r.sockets.length then
      { s with
        host       := s.host.storeSocket pkt.helloToken pkt.streamIndex.toNat
        stored     := Function.update s.stored pkt.helloToken
                        ((s.stored pkt.helloToken).set pkt.streamIndex.toNat (some socket))
        dispatcher := .holding .sending socket pkt tx }
    else
      s.goto .panicked

def send (s : HelloDispatch ι) (socket : Nat) (pkt : UdpHelloPacket) (tx : ι) :
    HelloDispatch ι where
  __ := s
  dispatcher := .idle
  channel    := Function.update s.channel tx (s.channel tx ++ [(socket, pkt.streamIndex)])
  handed     := Function.update s.handed tx (s.handed tx ++ [(socket, pkt.streamIndex)])

def collect (s : HelloDispatch ι) (x : ι) (collection : Collection) : HelloDispatch ι :=
  { s with collection := Function.update s.collection x collection }

def stopCollecting (s : HelloDispatch ι) (x : ι) : HelloDispatch ι :=
  { s.collect x .done with channel := Function.update s.channel x [] }

-- The next socket of a test. It is dropped if its stream is out of range or already there.
def accept (s : HelloDispatch ι) (x : ι) (numStreams : Nat) (received : List Bool)
    (socket : Nat × UInt16) : HelloDispatch ι :=
  let i := socket.snd.toNat
  if i ≥ numStreams then s
  else if received[i]? = some true then s
  else
    { s.collect x (.collecting (received.set i true)) with
      taken := Function.update s.taken x (s.taken x ++ [socket]) }

-- Handlers are joined after the collection has ended. A call which never got to collect anything
-- drops the receiver last.
def step (tests : ι → TestStart) : System (HelloDispatch ι) (DispatchEvent ι)
  | s, .session x e =>
    (Host.step tests s.host (.session x e)).bind fun host =>
      let s' := { s with host }
      match e with
      | .route token => some (s'.registered x (tests x).streams token)
      | .finish _    =>
        match s.collection x with
        | .collecting _ => none
        | _             => some s'
      | _ => some s'
  | s, .hello data src =>
    match s.dispatcher with
    | .idle => some (s.dispatch data src)
    | _     => none
  | s, .create ok =>
    match s.dispatcher with
    | .creating pkt src tx => some (if ok then s.create pkt src tx else s.goto .idle)
    | _                    => none
  | s, .ack _ =>
    match s.dispatcher with
    | .holding .acking socket pkt tx => some (s.goto (.holding .storing socket pkt tx))
    | _                              => none
  | s, .store =>
    match s.dispatcher with
    | .holding .storing socket pkt tx => some (s.store socket pkt tx)
    | _                               => none
  | s, .send =>
    match s.dispatcher with
    | .holding .sending socket pkt tx =>
      match s.collection tx with
      | .done => some (s.goto .idle)
      | _     =>
        if (s.channel tx).length < (tests tx).streams then some (s.send socket pkt tx) else none
    | _ => none
  | s, .resend _ =>
    match s.dispatcher with
    | .resending _ _ => some (s.goto .idle)
    | _              => none
  | s, .collect x =>
    match s.host.point x, s.udpToken x, s.collection x with
    | .running, some _, .idle =>
      some (s.collect x (.collecting (List.replicate (tests x).streams false)))
    | _, _, _ => none
  | s, .receive x =>
    match s.collection x, s.channel x with
    | .collecting received, socket :: channel =>
      if received.any (!·) then
        some <| accept { s with channel := Function.update s.channel x channel } x
          (tests x).streams received socket
      else
        none
    | _, _ => none
  | s, .stopCollecting x =>
    match s.collection x, s.host.point x with
    | .collecting _, _       => some (s.stopCollecting x)
    | .idle,    .returned _  => some (s.stopCollecting x)
    | _, _                   => none

end HelloDispatch
