import Xfr.Serve.HelloSteps

-- A socket for a stream of a test, connected to where its control connection comes from.
structure DataSocket.Fits (sock : DataSocket) (test : TestStart) (token : Option HelloToken) :
    Prop where
  token  : token = some (.ofBytes sock.token)
  peerIp : sock.peer.ip.normalize = test.peerIp.normalize
  lt     : sock.streamIndex.toNat < test.streams

namespace HelloDispatch

variable {ι : Type*} {tests : ι → TestStart} {s s' : HelloDispatch ι} {x y : ι} {sock : DataSocket}

-- No socket for this stream was sent to the test.
def Fresh (s : HelloDispatch ι) (x : ι) (streamIndex : UInt16) : Prop :=
  ∀ p ∈ s.handed x, p.2 ≠ streamIndex

-- While a route is there, it tells which sockets have been sent.
def Stored (s : HelloDispatch ι) (x : ι) (token : HelloToken) (streamIndex : UInt16) : Prop :=
  ∀ r, s.host.routes token = some r → r.socketTx = x → r.sockets[streamIndex.toNat]? = some true

namespace Stored

variable {token : HelloToken} {i : UInt16} {pkt : UdpHelloPacket}

theorem storeSocket (h : s.Stored x token i) :
    Stored { s with host := s.host.storeSocket pkt.helloToken pkt.streamIndex.toNat } x token i := by
  intro r hr hx
  have ⟨r₀, hr₀, he⟩ := Host.routes_storeSocket.mp hr
  split at he
  case isFalse => exact he ▸ h r₀ hr₀ (he ▸ hx)
  case isTrue =>
    have hs := h r₀ hr₀ (by rw [← hx, he])
    rw [he]
    by_cases hi : pkt.streamIndex.toNat = i.toNat
    case neg => exact (List.getElem?_set_ne hi).trans hs
    case pos =>
      have hl := (List.getElem?_eq_some_iff.mp hs).choose
      rw [hi]
      exact List.getElem?_set_self hl

theorem of_storeSocket {r : UdpHelloRoute ι} (hr : s.host.routes pkt.helloToken = some r)
    (hl : pkt.streamIndex.toNat < r.sockets.length) :
    Stored { s with host := s.host.storeSocket pkt.helloToken pkt.streamIndex.toNat } x
      pkt.helloToken pkt.streamIndex := by
  intro r' hr' _
  have ⟨r₀, hr₀, he⟩ := Host.routes_storeSocket.mp hr'
  obtain rfl := Option.some_inj.mp (hr.symm.trans hr₀)
  rw [if_pos rfl] at he
  rw [he]
  exact List.getElem?_set_self hl

end Stored

-- What is known while a hello is dealt with.
def Dispatcher.Sound (tests : ι → TestStart) (s : HelloDispatch ι) : Dispatcher ι → Prop
  | .creating pkt src tx =>
    DataSocket.Fits { peer := src, token := pkt.token, streamIndex := pkt.streamIndex } (tests tx)
      (s.udpToken tx) ∧ s.Fresh tx pkt.streamIndex
  | .holding stage socket pkt tx =>
    (∃ sock, s.sockets[socket]? = some sock ∧ sock.token = pkt.token ∧
      sock.streamIndex = pkt.streamIndex ∧ sock.Fits (tests tx) (s.udpToken tx)) ∧
    s.Fresh tx pkt.streamIndex ∧
    (stage = .sending → s.Stored tx pkt.helloToken pkt.streamIndex)
  | .resending socket _ => socket < s.sockets.length
  | _ => True

-- What is known survives whatever else goes on.
structure Keeps (s s' : HelloDispatch ι) : Prop where
  sockets  : ∀ (k : Nat) (sock : DataSocket), s.sockets[k]? = some sock → s'.sockets[k]? = some sock
  udpToken : ∀ y token, s.udpToken y = some token → s'.udpToken y = some token
  handed   : ∀ y, s'.handed y = s.handed y
  stored   : ∀ y token i, s.udpToken y = some token → s.Stored y token i → s'.Stored y token i

theorem Keeps.fits (k : Keeps s s') (h : sock.Fits (tests x) (s.udpToken x)) :
    sock.Fits (tests x) (s'.udpToken x) :=
  ⟨k.udpToken _ _ h.token, h.peerIp, h.lt⟩

theorem Keeps.sound {d : Dispatcher ι} (k : Keeps s s') (h : Dispatcher.Sound tests s d) :
    Dispatcher.Sound tests s' d := by
  cases d
  case creating pkt src tx =>
    have ⟨fits, fresh⟩ := h
    refine ⟨k.fits fits, fun p hp => fresh p (k.handed tx ▸ hp)⟩
  case holding stage socket pkt tx =>
    have ⟨⟨sock, hs, ht, hi, fits⟩, fresh, stored⟩ := h
    have token : s.udpToken tx = some pkt.helloToken :=
      fits.token.trans (by rw [ht, UdpHelloPacket.helloToken])
    exact ⟨⟨sock, k.sockets _ _ hs, ht, hi, k.fits fits⟩, fun p hp => fresh p (k.handed tx ▸ hp),
      fun he => k.stored _ _ _ token (stored he)⟩
  case resending socket pkt =>
    have hs := k.sockets socket s.sockets[socket] (List.getElem?_eq_getElem h)
    exact (List.getElem?_eq_some_iff.mp hs).choose
  all_goals trivial

structure Inv (tests : ι → TestStart) (s : HelloDispatch ι) : Prop where
  tied       : s.host.Tied tests
  udpToken   : ∀ y token, s.host.guard y = some token → s.udpToken y = some token
  early      : ∀ y, s.host.point y = .idle ∨ s.host.point y = .preparing →
                 s.host.guard y = none → s.udpToken y = none
  routes     : ∀ token r, s.host.routes token = some r →
                 ∃ sockets, sockets.length = (tests r.socketTx).streams ∧
                   r = { (tests r.socketTx).udpHelloRoute r.socketTx with sockets }
  dispatcher : Dispatcher.Sound tests s s.dispatcher
  handed     : ∀ x, ∀ p ∈ s.handed x, ∃ sock, s.sockets[p.1]? = some sock ∧
                 sock.streamIndex = p.2 ∧ sock.Fits (tests x) (s.udpToken x)
  nodup      : ∀ x, ((s.handed x).map (·.2)).Nodup
  stored     : ∀ x token, s.udpToken x = some token → ∀ p ∈ s.handed x, s.Stored x token p.2
  sockets    : ∀ token, ∀ k, some k ∈ s.stored token → k < s.sockets.length
  channel    : ∀ x, (s.channel x).Sublist (s.handed x)
  begun      : ∀ x received, s.collection x = .collecting received →
                 (s.host.point x).stage ≠ .handshake

namespace Inv

theorem init : Inv tests init where
  tied         := .init
  udpToken     := by simp [HelloDispatch.init, Host.init]
  early _ _ _  := rfl
  routes       := by simp [HelloDispatch.init, Host.init]
  dispatcher   := trivial
  handed       := by simp [HelloDispatch.init]
  nodup        := by simp [HelloDispatch.init]
  stored       := by simp [HelloDispatch.init]
  sockets      := by simp [HelloDispatch.init]
  channel _    := List.Sublist.slnil
  begun        := by simp [HelloDispatch.init]

theorem goto {dispatcher : Dispatcher ι} (inv : Inv tests s)
    (h : Dispatcher.Sound tests s dispatcher) : Inv tests (s.goto dispatcher) :=
  { inv with dispatcher := h }

-- What a socket is which is on its way to a test.
theorem held {stage : HandOff} {k : Nat} {pkt : UdpHelloPacket} (inv : Inv tests s)
    (h : s.dispatcher = .holding stage k pkt x) : ∃ sock, s.sockets[k]? = some sock ∧
      sock.streamIndex = pkt.streamIndex ∧ sock.Fits (tests x) (s.udpToken x) ∧
      s.udpToken x = some pkt.helloToken := by
  have hd := inv.dispatcher
  rw [h] at hd
  have ⟨⟨sock, hk, ht, hi, fits⟩, _, _⟩ := hd
  exact ⟨sock, hk, hi, fits, fits.token.trans (by rw [ht, UdpHelloPacket.helloToken])⟩

-- The room in a channel: one place for each stream.
theorem room {k : Nat} {pkt : UdpHelloPacket} (inv : Inv tests s)
    (h : s.dispatcher = .holding .sending k pkt x) : (s.channel x).length < (tests x).streams := by
  have hd := inv.dispatcher
  rw [h] at hd
  have ⟨⟨sock, _, _, hi, fits⟩, fresh, _⟩ := hd
  let streams := ((s.handed x).map (·.2.toNat)) ++ [pkt.streamIndex.toNat]
  have nodup : streams.Nodup := by
    rw [List.nodup_append]
    refine ⟨?_, List.nodup_singleton _, fun i hi j hj => ?_⟩
    · have hn := (inv.nodup x).map (f := UInt16.toNat) fun _ _ h => UInt16.toNat_inj.mp h
      rwa [List.map_map] at hn
    · have ⟨p, hp, he⟩ := List.mem_map.mp hi
      intro hij
      exact fresh p hp (UInt16.toNat_inj.mp (he.trans (hij.trans (List.mem_singleton.mp hj))))
  have below : streams ⊆ List.range (tests x).streams := by
    intro i hm
    rw [List.mem_range]
    cases List.mem_append.mp hm
    case inl hm =>
      have ⟨p, hp, he⟩ := List.mem_map.mp hm
      have ⟨sock, _, hs, fits⟩ := inv.handed x p hp
      exact he ▸ hs ▸ fits.lt
    case inr hm => exact List.mem_singleton.mp hm ▸ hi ▸ fits.lt
  have hl := (nodup.subperm below).length_le
  have hc := (inv.channel x).length_le
  simp only [streams, List.length_append, List.length_map, List.length_singleton,
    List.length_range] at hl
  omega

theorem advance {host : Host ι} (inv : Inv tests s) (tied : host.Tied tests)
    (a : s.host.Advances host) : Inv tests { s with host } where
  __ := inv
  tied           := tied
  udpToken y t h := inv.udpToken y t (a.guard y t h)
  early y hy hg  := by
    have ⟨hy, hg⟩ := a.early y hy hg
    exact inv.early y hy hg
  routes t r h   := inv.routes t r (a.routes t r h)
  stored y t ht p hp r hr := inv.stored y t ht p hp r (a.routes t r hr)
  begun y l hy   := a.begun y (inv.begun y l hy)
  dispatcher     := by
    have keeps : Keeps s { s with host } :=
      ⟨fun _ _ h => h, fun _ _ h => h, fun _ => rfl, fun _ t _ _ h r hr => h r (a.routes t r hr)⟩
    exact keeps.sound inv.dispatcher

theorem registers [DecidableEq ι] {host : Host ι} {token : HelloToken} (inv : Inv tests s)
    (tied : host.Tied tests) (r : s.host.Registers tests host x token) :
    Inv tests (registered { s with host } x (tests x).streams token) := by
  have hx : s.udpToken x = none := inv.early x (.inr r.point) r.guard
  have hne {y : ι} {t : HelloToken} (h : s.udpToken y = some t) : y ≠ x := by
    intro hy
    simp [hy, hx] at h
  have keeps : Keeps s (registered { s with host } x (tests x).streams token) := by
    refine ⟨fun _ _ h => h, fun y t h => (Function.update_of_ne (hne h) ..).trans h, fun _ => rfl,
      fun y t i ht h r' hr hy => ?_⟩
    have hr : host.routes t = some r' := hr
    rw [r.eq] at hr
    rcases update_some_eq_some.mp hr with ⟨rfl, rfl⟩ | ⟨_, hr⟩
    · exact absurd hy (hne ht).symm
    · exact h r' hr hy
  refine {
    tied := tied
    udpToken := fun y t h => ?_
    early := fun y hy hg => ?_
    routes := fun t r' hr => ?_
    dispatcher := keeps.sound inv.dispatcher
    handed := fun y p hp => ?_
    nodup := inv.nodup
    stored := fun y t ht p hp => ?_
    sockets := fun t k hk => ?_
    channel := inv.channel
    begun := fun y l hy => ?_ }
  all_goals
    obtain rfl := r.eq
  case refine_1 =>
    rcases update_some_eq_some.mp h with ⟨rfl, rfl⟩ | ⟨hy, h⟩
    · exact Function.update_self ..
    · exact keeps.udpToken y t (inv.udpToken y t h)
  case refine_2 =>
    have hg : (s.host.registerRoute x (tests x) token).guard y = none := hg
    have hyx : y ≠ x := fun he => by simp [Host.registerRoute, he] at hg
    have hg : s.host.guard y = none := by simpa [Host.registerRoute, hyx] using hg
    exact (Function.update_of_ne hyx ..).trans (inv.early y hy hg)
  case refine_3 =>
    rcases update_some_eq_some.mp hr with ⟨rfl, rfl⟩ | ⟨_, hr⟩
    · exact ⟨_, List.length_replicate, rfl⟩
    · exact inv.routes t r' hr
  case refine_4 =>
    obtain ⟨sock, hs, hi, fits⟩ := inv.handed y p hp
    exact ⟨sock, hs, hi, keeps.fits fits⟩
  case refine_5 =>
    obtain ⟨_, _, _, fits⟩ := inv.handed y p hp
    have token := (keeps.udpToken y _ fits.token).symm.trans ht
    exact keeps.stored y t p.2 (fits.token.trans token) (inv.stored y t (fits.token.trans token) p hp)
  case refine_6 =>
    by_cases ht : t = token
    case pos => simp [HelloDispatch.registered, ht] at hk
    case neg => exact inv.sockets t k (by simpa [HelloDispatch.registered, ht] using hk)
  case refine_7 => exact inv.begun y l hy

section Dispatch

variable {data : Bytes} {src : SocketAddr} {pkt : UdpHelloPacket} {k : Nat}

theorem create {tx : ι} (inv : Inv tests s) (h : s.dispatcher = .creating pkt src tx) :
    Inv tests (s.create pkt src tx) := by
  have hd := inv.dispatcher
  rw [h] at hd
  have ⟨fits, fresh⟩ := hd
  have grows (k : Nat) (sock : DataSocket) (hk : s.sockets[k]? = some sock) :
      (s.create pkt src tx).sockets[k]? = some sock := by
    have hl := (List.getElem?_eq_some_iff.mp hk).choose
    exact (List.getElem?_append_left hl).trans hk
  have new : (s.create pkt src tx).sockets[s.sockets.length]? =
      some { peer := src, token := pkt.token, streamIndex := pkt.streamIndex } := by
    simp [HelloDispatch.create]
  refine { inv with
    dispatcher := ⟨⟨_, new, rfl, rfl, fits⟩, fresh, fun h => nomatch h⟩
    handed := fun y p hp => ?_
    sockets := fun t k hk => ?_ }
  case refine_1 =>
    have ⟨sock, hs, h⟩ := inv.handed y p hp
    exact ⟨sock, grows _ _ hs, h⟩
  case refine_2 =>
    have hl := inv.sockets t k hk
    simp only [HelloDispatch.create, List.length_append, List.length_singleton]
    omega

theorem accepts {r : UdpHelloRoute ι} (inv : Inv tests s) (a : s.Accepts data src pkt r) :
    Inv tests (s.goto (.creating pkt src r.socketTx)) := by
  have ⟨sockets, _, he⟩ := inv.routes _ r a.route
  have token := inv.udpToken _ _ (inv.tied.guarded.owner _ r a.route)
  refine inv.goto ⟨⟨token, ?_, ?_⟩, fun p hp hi => a.vacant ?_⟩
  · exact a.peerIp.trans (by rw [he]; rfl)
  · exact Nat.lt_of_lt_of_eq a.lt (by rw [he]; rfl)
  · exact hi ▸ inv.stored _ _ token p hp r a.route rfl

theorem dispatch (inv : Inv tests s) : Inv tests (s.dispatch data src) := by
  have cases := s.dispatch_cases data src
  generalize s.dispatch data src = s' at cases
  cases cases
  case ignored    => exact inv
  case accepts a  => exact inv.accepts a
  case resends hk => exact inv.goto (inv.sockets _ _ hk)
  case panics     => exact inv.goto trivial

theorem store {tx : ι} (inv : Inv tests s) (h : s.dispatcher = .holding .storing k pkt tx) :
    Inv tests (s.store k pkt tx) := by
  have hd := inv.dispatcher
  rw [h] at hd
  have ⟨⟨sock, hk, ht, hi, fits⟩, fresh, _⟩ := hd
  have cases := s.store_cases k pkt tx
  generalize s.store k pkt tx = s' at cases
  cases cases
  case unrouted => exact inv.goto trivial
  case panics   => exact inv.goto trivial
  case stores r hr hl =>
    have keeps (y : ι) (t : HelloToken) (i : UInt16) (hs : s.Stored y t i) :
        Stored { s with host := s.host.storeSocket pkt.helloToken pkt.streamIndex.toNat } y t i :=
      hs.storeSocket
    refine { inv with
      tied := inv.tied.storeSocket
      udpToken := by simpa using inv.udpToken
      early := by simpa using inv.early
      routes := fun t r' hr' => ?_
      dispatcher := ⟨⟨sock, hk, ht, hi, fits⟩, fresh, fun _ => Stored.of_storeSocket hr hl⟩
      stored := fun y t ht p hp => keeps y t p.2 (inv.stored y t ht p hp)
      sockets := fun t k' hk' => ?_
      begun := by simpa using inv.begun }
    case refine_1 =>
      have ⟨r₀, hr₀, he⟩ := Host.routes_storeSocket.mp hr'
      have ⟨sockets, hn, hs⟩ := inv.routes t r₀ hr₀
      split at he
      case isTrue =>
        have htx : r'.socketTx = r₀.socketTx := he ▸ rfl
        refine ⟨sockets.set pkt.streamIndex.toNat true, ?_, ?_⟩
        · rw [List.length_set, hn, htx]
        · rw [htx, he, hs]
          rfl
      case isFalse => exact he ▸ ⟨sockets, hn, hs⟩
    case refine_2 =>
      by_cases ht : t = pkt.helloToken
      case neg => exact inv.sockets t k' (by simpa [ht] using hk')
      case pos =>
        subst ht
        have hk' : some k' ∈ (s.stored pkt.helloToken).set pkt.streamIndex.toNat (some k) := by
          simpa using hk'
        cases List.mem_or_eq_of_mem_set hk'
        case inl hm => exact inv.sockets _ k' hm
        case inr he => exact Option.some_inj.mp he ▸ (List.getElem?_eq_some_iff.mp hk).choose

variable [DecidableEq ι]

theorem send {tx : ι} (inv : Inv tests s) (h : s.dispatcher = .holding .sending k pkt tx) :
    Inv tests (s.send k pkt tx) := by
  have hd := inv.dispatcher
  rw [h] at hd
  have ⟨_, fresh, stored⟩ := hd
  have ⟨sock, hk, hi, fits, token⟩ := inv.held h
  have mem {y : ι} {p : Nat × UInt16} (hp : p ∈ (s.send k pkt tx).handed y) :
      p ∈ s.handed y ∨ (y = tx ∧ p = (k, pkt.streamIndex)) := by
    by_cases hy : y = tx
    case neg => exact .inl (by simpa [HelloDispatch.send, hy] using hp)
    case pos =>
      subst hy
      simpa [HelloDispatch.send] using hp
  refine { inv with
    dispatcher := trivial
    handed := fun y p hp => ?_
    nodup := fun y => ?_
    stored := fun y t ht p hp => ?_
    channel := fun y => ?_ }
  case refine_1 =>
    rcases mem hp with hp | ⟨rfl, rfl⟩
    · exact inv.handed y p hp
    · exact ⟨sock, hk, hi, fits⟩
  case refine_2 =>
    by_cases hy : y = tx
    case neg => simpa [HelloDispatch.send, hy] using inv.nodup y
    case pos =>
      subst hy
      simp only [HelloDispatch.send, Function.update_self, List.map_append, List.map_singleton,
        List.nodup_append]
      refine ⟨inv.nodup y, List.nodup_singleton _, fun i hi j hj => ?_⟩
      have ⟨p, hp, he⟩ := List.mem_map.mp hi
      exact List.mem_singleton.mp hj ▸ he ▸ fresh p hp
  case refine_3 =>
    rcases mem hp with hp | ⟨rfl, rfl⟩
    · exact inv.stored y t ht p hp
    · exact Option.some_inj.mp (token.symm.trans ht) ▸ stored rfl
  case refine_4 =>
    by_cases hy : y = tx
    case neg => simpa [HelloDispatch.send, hy] using inv.channel y
    case pos =>
      subst hy
      simpa [HelloDispatch.send] using inv.channel y

theorem collect {collection : Collection} (inv : Inv tests s)
    (h : ∀ received, collection = .collecting received → (s.host.point x).stage ≠ .handshake) :
    Inv tests (s.collect x collection) := by
  refine { inv with begun := fun y received hy => ?_ }
  by_cases hyx : y = x
  case neg => exact inv.begun y received (by simpa [HelloDispatch.collect, hyx] using hy)
  case pos =>
    subst hyx
    exact h received (by simpa [HelloDispatch.collect] using hy)

theorem setChannel {channel : List (Nat × UInt16)} (inv : Inv tests s)
    (h : channel.Sublist (s.channel x)) :
    Inv tests { s with channel := Function.update s.channel x channel } := by
  refine { inv with channel := fun y => ?_ }
  by_cases hy : y = x
  case neg => simpa [hy] using inv.channel y
  case pos =>
    subst hy
    simpa using h.trans (inv.channel y)

theorem accept {received : List Bool} {numStreams : Nat} {socket : Nat × UInt16} (inv : Inv tests s)
    (h : s.collection x = .collecting received) :
    Inv tests (s.accept x numStreams received socket) := by
  unfold HelloDispatch.accept
  dsimp only
  split
  case isTrue => exact inv
  case isFalse =>
    split
    case isTrue  => exact inv
    case isFalse =>
      have inv : Inv tests (s.collect x (.collecting (received.set socket.2.toNat true))) :=
        inv.collect fun _ _ => inv.begun x received h
      exact { inv with }

theorem step {e : DispatchEvent ι} (inv : Inv tests s) (h : step tests s e = some s') :
    Inv tests s' := by
  cases step_cases h
  case registers hh r    => exact inv.registers (inv.tied.session hh) r
  case advances _ hh a   => exact inv.advance (inv.tied.session hh) a
  case hello             => exact inv.dispatch
  case create hd         => exact inv.create hd
  case createFailed      => exact inv.goto trivial
  case ack hd =>
    obtain ⟨hs, hf, _⟩ := hd ▸ inv.dispatcher
    exact inv.goto ⟨hs, hf, by simp⟩
  case store hd          => exact inv.store hd
  case sendFailed        => exact inv.goto trivial
  case send hd _         => exact inv.send hd
  case resend            => exact inv.goto trivial
  case collect hp _      => exact inv.collect fun _ _ => by simp [hp, RunPoint.stage]
  case receive received socket channel hx hc =>
    have inv : Inv tests { s with channel := Function.update s.channel _ channel } :=
      inv.setChannel (hc ▸ List.sublist_cons_self ..)
    exact inv.accept hx
  case stopCollecting x _ =>
    have done : Inv tests (s.collect x .done) := inv.collect (by simp)
    exact done.setChannel (List.nil_sublist _)

theorem run {events : List (DispatchEvent ι)}
    (h : (HelloDispatch.step tests).run HelloDispatch.init events = some s) : Inv tests s :=
  System.run_invariant (fun inv hs => step inv hs) init h

end Dispatch

end Inv
-- The route of a test was removed, and no socket is past the last look at the routes.
structure Removed (s : HelloDispatch ι) (x : ι) (token : HelloToken) : Prop where
  drawn  : s.udpToken x = some token
  route  : s.host.routes token = none
  unsent : ∀ k pkt, s.dispatcher ≠ .holding .sending k pkt x

namespace Removed

variable {token : HelloToken} {d : Dispatcher ι} {data : Bytes} {src : SocketAddr}

theorem goto (r : s.Removed x token) (h : ∀ k pkt, d ≠ .holding .sending k pkt x) :
    (s.goto d).Removed x token :=
  { r with unsent := h }

theorem dispatch (r : s.Removed x token) :
    (s.dispatch data src).Removed x token ∧ (s.dispatch data src).handed = s.handed := by
  have cases := s.dispatch_cases data src
  generalize s.dispatch data src = s' at cases
  cases cases
  case ignored => exact ⟨r, rfl⟩
  all_goals exact ⟨r.goto (by simp), rfl⟩

theorem store {k : Nat} {pkt : UdpHelloPacket} {tx : ι} (r : s.Removed x token)
    (h : s.udpToken tx = some pkt.helloToken) :
    (s.store k pkt tx).Removed x token ∧ (s.store k pkt tx).handed = s.handed := by
  have cases := s.store_cases k pkt tx
  generalize s.store k pkt tx = s' at cases
  cases cases
  case unrouted => exact ⟨r.goto (by simp), rfl⟩
  case panics   => exact ⟨r.goto (by simp), rfl⟩
  case stores route hr _ =>
    refine ⟨⟨r.drawn, ?_, fun k' pkt' he => ?_⟩, rfl⟩
    · refine Option.eq_none_iff_forall_ne_some.mpr fun route' hr' => ?_
      have ⟨r₀, hr₀, _⟩ := Host.routes_storeSocket.mp hr'
      exact nomatch r.route.symm.trans hr₀
    · have ⟨_, _, _, hx⟩ := Dispatcher.holding.inj he
      have ht := Option.some_inj.mp ((hx ▸ h).symm.trans r.drawn)
      rw [ht, r.route] at hr
      exact nomatch hr

variable [DecidableEq ι]

theorem step {e : DispatchEvent ι} (r : s.Removed x token) (inv : Inv tests s)
    (h : step tests s e = some s') (he : ∀ y, e ≠ .session y (.route token)) :
    s'.Removed x token ∧ s'.handed x = s.handed x := by
  cases step_cases h
  case registers y token' host hh reg =>
    have hy := inv.early y (.inr reg.point) reg.guard
    have hyx : x ≠ y := fun he => nomatch (he ▸ r.drawn).symm.trans hy
    have ht : token ≠ token' := fun ht => he y (ht ▸ rfl)
    refine ⟨⟨(Function.update_of_ne hyx ..).trans r.drawn, ?_, r.unsent⟩, rfl⟩
    have hr : host.routes token = none := by
      rw [reg.eq]
      exact (Function.update_of_ne ht ..).trans r.route
    exact hr
  case advances host _ _ a =>
    have hr : host.routes token = none := by
      refine Option.eq_none_iff_forall_ne_some.mpr fun route hr => ?_
      exact nomatch r.route.symm.trans (a.routes token route hr)
    exact ⟨⟨r.drawn, hr, r.unsent⟩, rfl⟩
  case hello data src _ =>
    have ⟨removed, hh⟩ := @dispatch _ _ _ _ data src r
    exact ⟨removed, congrFun hh x⟩
  case create       => exact ⟨{ r with unsent := by simp [HelloDispatch.create] }, rfl⟩
  case createFailed => exact ⟨r.goto (by simp), rfl⟩
  case ack          => exact ⟨r.goto (by simp), rfl⟩
  case store k pkt tx hd =>
    have ⟨_, _, _, _, token⟩ := inv.held hd
    have ⟨removed, hh⟩ := @store _ _ _ _ k _ _ r token
    exact ⟨removed, congrFun hh x⟩
  case sendFailed => exact ⟨r.goto (by simp), rfl⟩
  case send k pkt tx hd _ =>
    have hx : x ≠ tx := fun he => r.unsent k pkt (he ▸ hd)
    refine ⟨{ r with unsent := by simp [HelloDispatch.send] }, ?_⟩
    exact Function.update_of_ne hx ..
  case resend  => exact ⟨r.goto (by simp), rfl⟩
  case collect => exact ⟨{ r with }, rfl⟩
  case receive =>
    rw [accept]
    dsimp only
    repeat' split
    all_goals exact ⟨{ r with }, rfl⟩
  case stopCollecting => exact ⟨{ r with }, rfl⟩

theorem run {events : List (DispatchEvent ι)} (r : s.Removed x token) (inv : Inv tests s)
    (he : ∀ y, .session y (.route token) ∉ events)
    (h : (HelloDispatch.step tests).run s events = some s') : s'.handed x = s.handed x := by
  induction events generalizing s
  case nil => exact congrFun (congrArg handed (Option.some_inj.mp h)).symm x
  case cons e events hi =>
    have ⟨s₁, hs, h⟩ := Option.bind_eq_some_iff.mp h
    have ⟨r₁, hh⟩ := r.step inv hs fun y hy => he y (hy ▸ List.mem_cons_self)
    have hi := hi r₁ (inv.step hs) (fun y hy => he y (List.mem_cons_of_mem e hy)) h
    exact hi.trans hh

end Removed

variable [DecidableEq ι]

-- Whatever hellos there are, and from wherever: at most one socket for each stream of a test is sent
-- to it, for its own streams and its own client, and there is always room for it. Once the route of
-- the test is gone, nothing is sent to it any more but what was stored in the route before. By then
-- its collection has ended, never begins, or has been cancelled.
theorem dispatch_sound (tests : ι → TestStart) (events : List (DispatchEvent ι))
    (s : HelloDispatch ι) (h : (step tests).run init events = some s) (x : ι) :
    ((s.handed x).map (·.2)).Nodup ∧
    (∀ p ∈ s.handed x, ∃ sock, s.sockets[p.1]? = some sock ∧ sock.streamIndex = p.2 ∧
      s.udpToken x = some (.ofBytes sock.token) ∧ p.2.toNat < (tests x).streams ∧
      sock.peer.ip.normalize = (tests x).peerIp.normalize) ∧
    (∀ k pkt, s.dispatcher = .holding .sending k pkt x → ∃ s', step tests s .send = some s') ∧
    (∀ token, s.Removed x token → ∀ events' s', (∀ y, .session y (.route token) ∉ events') →
      (step tests).run s events' = some s' → s'.handed x = s.handed x) ∧
    ∀ registered, s.host.point x = .returned registered →
      (∀ received, s.collection x ≠ .collecting received) ∨ s.host.server.Cancelled x := by
  have inv := Inv.run h
  refine ⟨inv.nodup x, fun p hp => ?_, fun k pkt hd => ?_,
    fun token r events' s' he h' => r.run inv he h', fun registered hp => ?_⟩
  · have ⟨sock, hs, hi, fits⟩ := inv.handed x p hp
    exact ⟨sock, hs, hi, fits.token, hi ▸ fits.lt, fits.peerIp⟩
  · have room := inv.room hd
    unfold step
    simp only [hd]
    split
    case h_1 => exact ⟨_, rfl⟩
    case h_2 => exact ⟨_, if_pos room⟩
  · cases registered
    case true => exact .inr (inv.tied.cancelled x (by simp [hp, RunPoint.stage]))
    case false =>
      refine .inl fun received hc => inv.begun x received hc ?_
      simp [hp, RunPoint.stage]

def lateTest : Unit → TestStart :=
  fun _ => { id := ['a'], protocol := .udp, singlePort := true, streams := 1, peerIp := .v4 1 }

def lateHello : Bytes :=
  UDP_HELLO_MAGIC ++ [UDP_HELLO_VERSION, UDP_HELLO_KIND_HELLO] ++ List.replicate 18 0

-- The report of a test fails while the socket of its stream is about to be sent.
def lateEvents : List (DispatchEvent Unit) :=
  [ .session () .call, .session () (.route 0), .session () .register, .session () .ackWritten,
    .collect (), .hello lateHello { ip := .v4 1, port := 5000 }, .create true, .ack true, .store,
    .session () (.reported true), .session () .cleanup, .session () .dropGuard ]

-- The receiver is still there, and gets the socket.
theorem sent_after_removal : ∃ s s' : HelloDispatch Unit,
    (step lateTest).run init lateEvents = some s ∧ s.udpToken () = some 0 ∧
    s.host.routes 0 = none ∧ step lateTest s .send = some s' ∧
    s.handed () = [] ∧ s'.handed () = [(0, 0)] ∧ s'.channel () = [(0, 0)] :=
  ⟨_, _, rfl, rfl, rfl, rfl, rfl, rfl, rfl⟩

theorem dispatch_sound_late : ∃ s : HelloDispatch Unit,
    (step lateTest).run init (lateEvents ++ [.send]) = some s ∧ (s.handed ()).length = 1 ∧
    ((s.handed ()).map (·.2)).Nodup :=
  ⟨_, rfl, rfl, (dispatch_sound lateTest (lateEvents ++ [.send]) _ rfl ()).left⟩

end HelloDispatch
