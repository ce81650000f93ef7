import Xfr.Serve.HelloRoutes

namespace HelloDispatch

variable {ι : Type*} {tests : ι → TestStart} {s s' : HelloDispatch ι} {x : ι} {data : Bytes}
  {src : SocketAddr} {pkt : UdpHelloPacket} {k : Nat} {tx : ι}

-- A hello for a stream of a route which has no socket for it yet.
structure Accepts (s : HelloDispatch ι) (data : Bytes) (src : SocketAddr) (pkt : UdpHelloPacket)
    (r : UdpHelloRoute ι) : Prop where
  packet : accepted UdpHelloPacket.decode data = some pkt
  kind   : pkt.kind = UDP_HELLO_KIND_HELLO
  route  : s.host.routes pkt.helloToken = some r
  peerIp : src.ip.normalize = r.controlPeerIp.normalize
  lt     : pkt.streamIndex.toNat < r.expectedStreams
  vacant : r.sockets[pkt.streamIndex.toNat]? ≠ some true

theorem checkUdpHello_accept {route : Option (UdpHelloRoute ι)}
    (h : checkUdpHello route pkt src.ip = .accept) : ∃ r, route = some r ∧
      src.ip.normalize = r.controlPeerIp.normalize ∧ pkt.streamIndex.toNat < r.expectedStreams ∧
      r.sockets[pkt.streamIndex.toNat]? ≠ some true := by
  unfold checkUdpHello at h
  split at h
  case h_1 => contradiction
  case h_2 r =>
    split_ifs at h with hip hi hs
    exact ⟨r, rfl, not_not.mp hip, Nat.lt_of_not_ge hi, hs⟩

-- What becomes of a hello.
inductive Dispatched (s : HelloDispatch ι) (data : Bytes) (src : SocketAddr) :
    HelloDispatch ι → Prop
  | ignored : Dispatched s data src s
  | accepts {pkt : UdpHelloPacket} {r : UdpHelloRoute ι} : s.Accepts data src pkt r →
      Dispatched s data src (s.goto (.creating pkt src r.socketTx))
  | resends {pkt : UdpHelloPacket} {socket : Nat} : some socket ∈ s.stored pkt.helloToken →
      Dispatched s data src (s.goto (.resending socket pkt))
  | panics : Dispatched s data src (s.goto .panicked)

theorem dispatch_cases (s : HelloDispatch ι) (data : Bytes) (src : SocketAddr) :
    s.Dispatched data src (s.dispatch data src) := by
  unfold HelloDispatch.dispatch
  split
  case h_1 => exact .ignored
  case h_2 pkt hp =>
    split
    case isTrue => exact .ignored
    case isFalse hk =>
      dsimp only
      split
      case h_1 hc =>
        have ⟨r, hr, hip, hi, hs⟩ := checkUdpHello_accept hc
        rw [hr]
        exact .accepts ⟨hp, not_not.mp hk, hr, hip, hi, hs⟩
      case h_2 =>
        split
        case h_1 socket hk => exact .resends (List.mem_of_getElem? hk)
        case h_2 => exact .panics
      case h_3 => exact .ignored

-- What becomes of a new socket after its acknowledgement.
inductive Placed (s : HelloDispatch ι) (k : Nat) (pkt : UdpHelloPacket) (tx : ι) :
    HelloDispatch ι → Prop
  | unrouted : s.host.routes pkt.helloToken = none → Placed s k pkt tx (s.goto .idle)
  | panics {r : UdpHelloRoute ι} : s.host.routes pkt.helloToken = some r →
      r.sockets.length ≤ pkt.streamIndex.toNat → Placed s k pkt tx (s.goto .panicked)
  | stores {r : UdpHelloRoute ι} : s.host.routes pkt.helloToken = some r →
      pkt.streamIndex.toNat < r.sockets.length →
      Placed s k pkt tx
        { s with
          host       := s.host.storeSocket pkt.helloToken pkt.streamIndex.toNat
          stored     := Function.update s.stored pkt.helloToken
                          ((s.stored pkt.helloToken).set pkt.streamIndex.toNat (some k))
          dispatcher := .holding .sending k pkt tx }

theorem store_cases (s : HelloDispatch ι) (k : Nat) (pkt : UdpHelloPacket) (tx : ι) :
    s.Placed k pkt tx (s.store k pkt tx) := by
  unfold HelloDispatch.store
  split
  case h_1 hr => exact .unrouted hr
  case h_2 r hr =>
    split
    case isTrue hl => exact .stores hr hl
    case isFalse h => exact .panics hr (Nat.le_of_not_lt h)

variable [DecidableEq ι]

inductive Step (tests : ι → TestStart) (s : HelloDispatch ι) :
    DispatchEvent ι → HelloDispatch ι → Prop
  | registers {x : ι} {token : HelloToken} {host : Host ι} :
      Host.step tests s.host (.session x (.route token)) = some host →
      s.host.Registers tests host x token →
      Step tests s (.session x (.route token))
        (registered { s with host } x (tests x).streams token)
  | advances {x : ι} {e : RunEvent} {host : Host ι} :
      (∀ token, e ≠ .route token) → Host.step tests s.host (.session x e) = some host →
      s.host.Advances host → Step tests s (.session x e) { s with host }
  | hello {data : Bytes} {src : SocketAddr} :
      s.dispatcher = .idle → Step tests s (.hello data src) (s.dispatch data src)
  | create {pkt : UdpHelloPacket} {src : SocketAddr} {tx : ι} :
      s.dispatcher = .creating pkt src tx → Step tests s (.create true) (s.create pkt src tx)
  | createFailed {pkt : UdpHelloPacket} {src : SocketAddr} {tx : ι} :
      s.dispatcher = .creating pkt src tx → Step tests s (.create false) (s.goto .idle)
  | ack {ok : Bool} {k : Nat} {pkt : UdpHelloPacket} {tx : ι} :
      s.dispatcher = .holding .acking k pkt tx →
      Step tests s (.ack ok) (s.goto (.holding .storing k pkt tx))
  | store {k : Nat} {pkt : UdpHelloPacket} {tx : ι} :
      s.dispatcher = .holding .storing k pkt tx → Step tests s .store (s.store k pkt tx)
  | sendFailed {k : Nat} {pkt : UdpHelloPacket} {tx : ι} :
      s.dispatcher = .holding .sending k pkt tx → s.collection tx = .done →
      Step tests s .send (s.goto .idle)
  | send {k : Nat} {pkt : UdpHelloPacket} {tx : ι} :
      s.dispatcher = .holding .sending k pkt tx → s.collection tx ≠ .done →
      Step tests s .send (s.send k pkt tx)
  | resend {ok : Bool} {k : Nat} {pkt : UdpHelloPacket} :
      s.dispatcher = .resending k pkt → Step tests s (.resend ok) (s.goto .idle)
  | collect {x : ι} :
      s.host.point x = .running → s.collection x = .idle →
      Step tests s (.collect x) (s.collect x (.collecting (List.replicate (tests x).streams false)))
  | receive {x : ι} {received : List Bool} {socket : Nat × UInt16} {channel : List (Nat × UInt16)} :
      s.collection x = .collecting received → s.channel x = socket :: channel →
      Step tests s (.receive x) (accept { s with channel := Function.update s.channel x channel } x
        (tests x).streams received socket)
  | stopCollecting {x : ι} :
      s.collection x ≠ .done → Step tests s (.stopCollecting x) (s.stopCollecting x)

theorem step_cases {e : DispatchEvent ι} (h : step tests s e = some s') : Step tests s e s' := by
  cases e
  case session x e =>
    have ⟨host, hh, h⟩ := Option.bind_eq_some_iff.mp h
    rcases Host.session_cases hh with ⟨token, rfl, r⟩ | ⟨hne, a⟩
    case inl => exact Option.some_inj.mp h ▸ .registers hh r
    case inr =>
      have advances : Step tests s (.session x e) { s with host } := .advances hne hh a
      cases e
      case route => exact absurd rfl (hne _)
      case finish failed =>
        dsimp only at h
        split at h
        case h_1 => contradiction
        case h_2 => exact Option.some_inj.mp h ▸ advances
      all_goals exact Option.some_inj.mp h ▸ advances
  all_goals
    unfold HelloDispatch.step at h
    dsimp only at h
  case hello data src =>
    split at h
    case h_1 hd => exact Option.some_inj.mp h ▸ .hello hd
    case h_2    => contradiction
  case create ok =>
    split at h
    case h_2 => contradiction
    case h_1 pkt src tx hd =>
      cases ok
      case true  => exact Option.some_inj.mp h ▸ .create hd
      case false => exact Option.some_inj.mp h ▸ .createFailed hd
  case ack ok =>
    split at h
    case h_1 hd => exact Option.some_inj.mp h ▸ .ack hd
    case h_2    => contradiction
  case store =>
    split at h
    case h_1 hd => exact Option.some_inj.mp h ▸ .store hd
    case h_2    => contradiction
  case send =>
    split at h
    case h_2 => contradiction
    case h_1 hd =>
      split at h
      case h_1 hc => exact Option.some_inj.mp h ▸ .sendFailed hd hc
      case h_2 hc =>
        split at h
        case isTrue  => exact Option.some_inj.mp h ▸ .send hd hc
        case isFalse => contradiction
  case resend ok =>
    split at h
    case h_1 hd => exact Option.some_inj.mp h ▸ .resend hd
    case h_2    => contradiction
  case collect x =>
    split at h
    case h_1 hp _ hc => exact Option.some_inj.mp h ▸ .collect hp hc
    case h_2         => contradiction
  case receive x =>
    split at h
    case h_2 => contradiction
    case h_1 received socket channel hx hc =>
      split at h
      case isTrue  => exact Option.some_inj.mp h ▸ .receive hx hc
      case isFalse => contradiction
  case stopCollecting x =>
    split at h
    case h_1 hc   => exact Option.some_inj.mp h ▸ .stopCollecting (by simp [hc])
    case h_2 hc _ => exact Option.some_inj.mp h ▸ .stopCollecting (by simp [hc])
    case h_3      => contradiction

end HelloDispatch
