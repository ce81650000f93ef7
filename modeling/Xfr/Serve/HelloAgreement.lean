import Xfr.Serve.HelloSockets

-- Where the streams of a client are. Each of them has an address of its own.
structure StreamAddrs where
  addr     : UInt16 → SocketAddr
  streamOf : SocketAddr → Option UInt16
  isStream : ∀ a i, streamOf a = some i ↔ addr i = a

theorem StreamAddrs.inj {addrs : StreamAddrs} {i j : UInt16} (h : addrs.addr i = addrs.addr j) :
    i = j := by
  have hi := (addrs.isStream _ i).mpr h
  have hj := (addrs.isStream _ j).mpr rfl
  exact Option.some_inj.mp (hi.symm.trans hj)

namespace HelloDispatch

variable {ι : Type*} {tests : ι → TestStart} {s s' : HelloDispatch ι} {x : ι} {key : HelloToken}
  {k : Nat} {i : UInt16} {d : Dispatcher ι}

-- The route of a test is there.
def Routed (s : HelloDispatch ι) (x : ι) (key : HelloToken) : Prop :=
  ∃ r, s.host.routes key = some r ∧ r.socketTx = x

-- A socket is on its way to a test.
def Holds (s : HelloDispatch ι) (x : ι) (k : Nat) : Prop :=
  ∃ stage pkt, s.dispatcher = .holding stage k pkt x

def Unstored (s : HelloDispatch ι) (x : ι) (k : Nat) : Prop :=
  ∃ stage pkt, s.dispatcher = .holding stage k pkt x ∧ stage ≠ .sending

-- A socket of a stream is the one which its test gets, if the test wants it at all.
structure Owned (s : HelloDispatch ι) (x : ι) (key : HelloToken) (k : Nat) (i : UInt16) : Prop where
  placed : s.collection x = .done ∨ s.Holds x k ∨ (k, i) ∈ s.handed x
  stored : s.Unstored x k ∨ s.Stored x key i
  only   : ∀ k', (k', i) ∈ s.handed x → k' = k
  held   : ∀ stage k' pkt, s.dispatcher = .holding stage k' pkt x → pkt.streamIndex = i → k' = k
  vacant : ∀ pkt src, s.dispatcher = .creating pkt src x → pkt.streamIndex ≠ i

namespace Owned

-- Nothing but the way of the dispatcher matters.
theorem goto (o : s.Owned x key k i)
    (placed : s.Holds x k → s.collection x = .done ∨ (s.goto d).Holds x k)
    (stored : s.Unstored x k → (s.goto d).Unstored x k)
    (held : ∀ stage k' pkt, d = .holding stage k' pkt x → pkt.streamIndex = i → k' = k)
    (vacant : ∀ pkt src, d = .creating pkt src x → pkt.streamIndex ≠ i) :
    (s.goto d).Owned x key k i where
  placed := by
    rcases o.placed with hc | hk | hh
    · exact .inl hc
    · exact (placed hk).imp_right .inl
    · exact .inr (.inr hh)
  stored := o.stored.imp_left stored
  only   := o.only
  held   := held
  vacant := vacant

-- A dispatcher without a socket for the test turns to something else.
theorem turn (o : s.Owned x key k i) (hs : ¬s.Holds x k)
    (hd : ∀ stage k' pkt, d ≠ .holding stage k' pkt x) (hc : ∀ pkt src, d ≠ .creating pkt src x) :
    (s.goto d).Owned x key k i :=
  o.goto (fun hk => absurd hk hs) (fun ⟨stage, pkt, hd, _⟩ => absurd ⟨stage, pkt, hd⟩ hs)
    (fun stage k' pkt h => absurd h (hd stage k' pkt)) (fun pkt src h => absurd h (hc pkt src))

-- The dispatcher goes on with a socket.
theorem keep {stage stage' : HandOff} {k' : Nat} {pkt : UdpHelloPacket} {tx : ι}
    (o : s.Owned x key k i) (hd : s.dispatcher = .holding stage k' pkt tx)
    (hs : stage' ≠ .sending) : (s.goto (.holding stage' k' pkt tx)).Owned x key k i := by
  have same {stage₀ : HandOff} {pkt₀ : UdpHelloPacket}
      (h : s.dispatcher = .holding stage₀ k pkt₀ x) : k' = k ∧ tx = x := by
    have ⟨_, hk, _, hx⟩ := Dispatcher.holding.inj (hd.symm.trans h)
    exact ⟨hk, hx⟩
  refine o.goto (fun ⟨_, _, h⟩ => .inr ?_) (fun ⟨_, _, h, _⟩ => ?_) (fun _ k₀ _ h hi => ?_) (by simp)
  case refine_1 =>
    have ⟨hk, hx⟩ := same h
    exact ⟨stage', pkt, by rw [← hk, ← hx, HelloDispatch.goto]⟩
  case refine_2 =>
    have ⟨hk, hx⟩ := same h
    exact ⟨stage', pkt, by rw [← hk, ← hx, HelloDispatch.goto], hs⟩
  case refine_3 =>
    have ⟨_, hk, hp, hx⟩ := Dispatcher.holding.inj h
    exact o.held stage k₀ pkt (by rw [hd, hk, hx]) (hp ▸ hi)

-- What goes on around the dispatcher.
theorem beside (o : s.Owned x key k i) (hd : s'.dispatcher = s.dispatcher)
    (hh : s'.handed = s.handed) (hc : s.collection x = .done → s'.collection x = .done)
    (hs : s.Stored x key i → s'.Stored x key i) : s'.Owned x key k i where
  placed := by
    rcases o.placed with hd' | ⟨stage, pkt, hk⟩ | hm
    · exact .inl (hc hd')
    · exact .inr (.inl ⟨stage, pkt, hd.trans hk⟩)
    · exact .inr (.inr (hh ▸ hm))
  stored := by
    rcases o.stored with ⟨stage, pkt, hk, hne⟩ | hs'
    · exact .inl ⟨stage, pkt, hd.trans hk, hne⟩
    · exact .inr (hs hs')
  only   := hh ▸ o.only
  held   := hd ▸ o.held
  vacant := hd ▸ o.vacant

end Owned

-- The streams of a client agree with a server, for the test `x` with the token `token`.
structure Agrees (addrs : StreamAddrs) (token : TokenBytes) (x : ι) (s : HelloDispatch ι) :
    Prop where
  creating : ∀ pkt i tx, s.dispatcher = .creating pkt (addrs.addr i) tx →
               pkt.token = token ∧ pkt.streamIndex = i ∧ s.udpToken x = some (.ofBytes token) ∧
               (s.Routed x (.ofBytes token) → tx = x)
  sockets  : ∀ (k : Nat) (sock : DataSocket) i, s.sockets[k]? = some sock → sock.peer = addrs.addr i →
               sock.token = token ∧ sock.streamIndex = i ∧ s.udpToken x = some (.ofBytes token) ∧
               (s.Routed x (.ofBytes token) → s.Owned x (.ofBytes token) k i)

variable {addrs : StreamAddrs} {token : TokenBytes} {pkt : UdpHelloPacket} {src : SocketAddr}
  {data : Bytes} {tx : ι}

-- A hello from a stream of the client is a hello of that stream.
def Honest (addrs : StreamAddrs) (token : TokenBytes) (x : ι) (s : HelloDispatch ι) (data : Bytes)
    (src : SocketAddr) : Prop :=
  ∀ i pkt, src = addrs.addr i → accepted UdpHelloPacket.decode data = some pkt →
    pkt.token = token ∧ pkt.streamIndex = i ∧ s.udpToken x = some (.ofBytes token)

namespace Agrees

theorem init : Agrees addrs token x init where
  creating _ _ _ h   := by simp [HelloDispatch.init] at h
  sockets  _ _ _ h _ := by simp [HelloDispatch.init] at h

theorem beside (a : s.Agrees addrs token x) (hd : s'.dispatcher = s.dispatcher)
    (hk : s'.sockets = s.sockets) (hh : s'.handed = s.handed)
    (hu : ∀ y key, s.udpToken y = some key → s'.udpToken y = some key)
    (hr : ∀ key, s.udpToken x = some key → s'.Routed x key → s.Routed x key)
    (hc : s.collection x = .done → s'.collection x = .done)
    (hs : ∀ key i, s.udpToken x = some key → s.Stored x key i → s'.Stored x key i) :
    s'.Agrees addrs token x where
  creating pkt i tx h := by
    have ⟨ht, hi, known, htx⟩ := a.creating pkt i tx (hd ▸ h)
    exact ⟨ht, hi, hu _ _ known, fun r => htx (hr _ known r)⟩
  sockets k sock i h hp := by
    have ⟨ht, hi, known, owned⟩ := a.sockets k sock i (hk ▸ h) hp
    exact ⟨ht, hi, hu _ _ known, fun r => (owned (hr _ known r)).beside hd hh hc (hs _ _ known)⟩

theorem goto (a : s.Agrees addrs token x)
    (creating : ∀ pkt i tx, d = .creating pkt (addrs.addr i) tx →
      pkt.token = token ∧ pkt.streamIndex = i ∧ s.udpToken x = some (.ofBytes token) ∧
        (s.Routed x (.ofBytes token) → tx = x))
    (owned : ∀ k i, s.udpToken x = some (.ofBytes token) → s.Routed x (.ofBytes token) →
      s.Owned x (.ofBytes token) k i → (s.goto d).Owned x (.ofBytes token) k i) :
    (s.goto d).Agrees addrs token x where
  creating := creating
  sockets k sock i h hp := by
    have ⟨ht, hi, known, o⟩ := a.sockets k sock i h hp
    exact ⟨ht, hi, known, fun r => owned k i known r (o r)⟩

-- A dispatcher without a socket for the test turns to something else.
theorem turn (a : s.Agrees addrs token x)
    (hs : s.udpToken x = some (.ofBytes token) → s.Routed x (.ofBytes token) → ∀ k, ¬s.Holds x k)
    (hd : ∀ stage k' pkt, d ≠ .holding stage k' pkt x) (hc : ∀ pkt src tx, d ≠ .creating pkt src tx) :
    (s.goto d).Agrees addrs token x :=
  a.goto (fun pkt _ tx h => absurd h (hc pkt _ tx))
    fun k _ known r o => o.turn (hs known r k) hd fun pkt src => hc pkt src x

theorem accepts {r : UdpHelloRoute ι} (a : s.Agrees addrs token x) (inv : Inv tests s)
    (hd : s.dispatcher = .idle) (h : s.Accepts data src pkt r)
    (honest : s.Honest addrs token x data src) :
    (s.goto (.creating pkt src r.socketTx)).Agrees addrs token x := by
  refine a.goto (fun pkt' _ tx he => ?_) fun k _ known _ o => ?_
  case refine_1 =>
    obtain ⟨rfl, hs, rfl⟩ := Dispatcher.creating.inj he
    obtain ⟨ht, hi, known⟩ := honest _ pkt hs h.packet
    refine ⟨ht, hi, known, ?_⟩
    rintro ⟨r', hr, hx⟩
    have hr' := h.route
    rw [UdpHelloPacket.helloToken, ht, hr] at hr'
    exact Option.some_inj.mp hr' ▸ hx
  case refine_2 =>
    refine o.goto ?_ ?_ (by simp) fun pkt' src' he hi => ?_
    · rintro ⟨_, _, hk⟩
      simp [hd] at hk
    · rintro ⟨_, _, hk, _⟩
      simp [hd] at hk
    · obtain ⟨rfl, _, hx⟩ := Dispatcher.creating.inj he
      have htoken := inv.udpToken _ _ (inv.tied.guarded.owner _ r h.route)
      have hkey := Option.some_inj.mp ((hx ▸ htoken).symm.trans known)
      rcases o.stored with ⟨_, _, hk, _⟩ | stored
      · simp [hd] at hk
      · exact h.vacant (hi ▸ stored r (hkey ▸ h.route) hx)

theorem dispatch (a : s.Agrees addrs token x) (inv : Inv tests s) (hd : s.dispatcher = .idle)
    (honest : s.Honest addrs token x data src) : (s.dispatch data src).Agrees addrs token x := by
  have idle (k : Nat) : ¬s.Holds x k := fun ⟨_, _, hk⟩ => by simp [hd] at hk
  have cases := s.dispatch_cases data src
  generalize s.dispatch data src = s' at cases
  cases cases
  case ignored   => exact a
  case accepts h => exact a.accepts inv hd h honest
  case resends   => exact a.turn (fun _ _ => idle) (by simp) (by simp)
  case panics    => exact a.turn (fun _ _ => idle) (by simp) (by simp)

theorem create (a : s.Agrees addrs token x) (inv : Inv tests s)
    (hd : s.dispatcher = .creating pkt src tx) : (s.create pkt src tx).Agrees addrs token x := by
  have fresh : s.Fresh tx pkt.streamIndex := by
    have h := inv.dispatcher
    rw [hd] at h
    exact h.right
  have idle (k : Nat) : ¬s.Holds x k := by
    rintro ⟨_, _, hk⟩
    simp [hd] at hk
  refine ⟨fun pkt' i tx' he => ?_, fun k sock i hk hp => ?_⟩
  case refine_1 => simp [HelloDispatch.create] at he
  case refine_2 =>
    by_cases hl : k < s.sockets.length
    case pos =>
      have hk : s.sockets[k]? = some sock := (List.getElem?_append_left hl).symm.trans hk
      obtain ⟨ht, hi, known, owned⟩ := a.sockets k sock i hk hp
      refine ⟨ht, hi, known, fun r => ?_⟩
      have o : (s.goto (.holding .acking s.sockets.length pkt tx)).Owned x (.ofBytes token) k i := by
        refine (owned r).goto (fun h => absurd h (idle k)) ?_ (fun stage k' pkt' he hi => ?_)
          (by simp)
        · rintro ⟨_, _, h, _⟩
          simp [hd] at h
        · obtain ⟨_, _, hpkt, hx⟩ := Dispatcher.holding.inj he
          exact absurd (hpkt ▸ hi) ((owned r).vacant pkt src (hx ▸ hd))
      exact { o with }
    case neg =>
      have new : k = s.sockets.length ∧
          { peer := src, token := pkt.token, streamIndex := pkt.streamIndex } = sock := by
        have hk : (s.sockets ++ [_])[k]? = some sock := hk
        rw [List.getElem?_append_right (Nat.le_of_not_lt hl)] at hk
        obtain ⟨hlt, hs⟩ := List.getElem?_eq_some_iff.mp hk
        simp at hlt
        exact ⟨by omega, by simpa using hs⟩
      obtain ⟨rfl, rfl⟩ := new
      have hp : src = addrs.addr i := hp
      obtain ⟨ht, hi, known, htx⟩ := a.creating pkt i tx (hp ▸ hd)
      refine ⟨ht, hi, known, fun r => ?_⟩
      obtain rfl := htx r
      have holding : (s.create pkt src tx).dispatcher = .holding .acking s.sockets.length pkt tx := rfl
      refine ⟨.inr (.inl ⟨_, _, holding⟩), .inl ⟨_, _, holding, by simp⟩, fun k' hm => ?_,
        fun _ k' _ h _ => ?_, fun _ _ h => ?_⟩
      · exact absurd hi.symm (fresh (k', i) hm)
      · obtain ⟨_, hk, _⟩ := Dispatcher.holding.inj (holding.symm.trans h)
        exact hk.symm
      · simp [holding] at h

-- What the dispatcher holds for the test is on its way to the route of the test.
theorem not_holds {stage : HandOff} (hd : s.dispatcher = .holding stage k pkt tx) (hx : tx ≠ x)
    (k' : Nat) : ¬s.Holds x k' := by
  intro ⟨_, _, h⟩
  have ⟨_, _, _, hx'⟩ := Dispatcher.holding.inj (hd.symm.trans h)
  exact hx hx'

theorem store (a : s.Agrees addrs token x) (inv : Inv tests s)
    (hd : s.dispatcher = .holding .storing k pkt tx) : (s.store k pkt tx).Agrees addrs token x := by
  have ⟨sock, hk, hi, fits, drawn⟩ := inv.held hd
  have key (hx : tx = x) (known : s.udpToken x = some (.ofBytes token)) :
      pkt.helloToken = .ofBytes token :=
    Option.some_inj.mp (drawn.symm.trans (hx ▸ known))
  have cases := s.store_cases k pkt tx
  generalize s.store k pkt tx = s' at cases
  cases cases
  case unrouted hr =>
    refine a.turn (fun known ⟨r, hr', hx'⟩ => not_holds hd fun hx => ?_) (by simp) (by simp)
    rw [key hx known, hr'] at hr
    contradiction
  case panics r hr hl =>
    refine a.turn (fun known ⟨r', hr', hx'⟩ => not_holds hd fun hx => ?_) (by simp) (by simp)
    rw [key hx known, hr'] at hr
    obtain rfl := Option.some_inj.mp hr
    have ⟨sockets, hn, he⟩ := inv.routes _ r' hr'
    have hn : r'.sockets.length = (tests r'.socketTx).streams :=
      (congrArg (·.sockets.length) he).trans hn
    have lt := fits.lt
    rw [hi, hx, ← hx'] at lt
    omega
  case stores r hr hl =>
    refine ⟨fun pkt' i tx' h => by simp at h, fun k' sock' i hk' hp => ?_⟩
    have ⟨ht, hi', known, owned⟩ := a.sockets k' sock' i hk' hp
    refine ⟨ht, hi', known, fun ⟨r', hr', hx'⟩ => ?_⟩
    have ⟨r₀, hr₀, he⟩ := Host.routes_storeSocket.mp hr'
    have o := owned ⟨r₀, hr₀, by split at he <;> simp [he, ← hx']⟩
    refine ⟨?_, ?_, o.only, fun _ k₀ _ h hi₀ => ?_, by simp⟩
    case refine_1 =>
      rcases o.placed with hc | ⟨_, _, h⟩ | hm
      · exact .inl hc
      · have ⟨_, hk, _, hx⟩ := Dispatcher.holding.inj (hd.symm.trans h)
        exact .inr (.inl ⟨.sending, pkt, by rw [hk, hx]⟩)
      · exact .inr (.inr hm)
    case refine_2 =>
      refine .inr ?_
      rcases o.stored with ⟨_, _, h, _⟩ | hs
      · have ⟨_, hkk, _, hx⟩ := Dispatcher.holding.inj (hd.symm.trans h)
        rw [hkk, hk'] at hk
        obtain rfl := Option.some_inj.mp hk
        rw [← key hx known, ← hi', hi]
        exact Stored.of_storeSocket hr hl
      · exact hs.storeSocket
    case refine_3 =>
      have ⟨_, hk, hp, hx⟩ := Dispatcher.holding.inj h
      exact o.held .storing k₀ pkt (by rw [hd, hk, hx]) (hp ▸ hi₀)

variable [DecidableEq ι]

theorem send (a : s.Agrees addrs token x) (inv : Inv tests s)
    (hd : s.dispatcher = .holding .sending k pkt tx) : (s.send k pkt tx).Agrees addrs token x := by
  obtain ⟨sock, hk, hi, _, _⟩ := inv.held hd
  have handed : (s.send k pkt tx).handed x =
      if x = tx then s.handed x ++ [(k, pkt.streamIndex)] else s.handed x := by
    by_cases hx : x = tx <;> simp [HelloDispatch.send, hx]
  refine ⟨fun pkt' i tx' h => ?_, fun k' sock' i hk' hp => ?_⟩
  case refine_1 => simp [HelloDispatch.send] at h
  case refine_2 =>
    have hk' : s.sockets[k']? = some sock' := hk'
    obtain ⟨ht, hi', known, owned⟩ := a.sockets k' sock' i hk' hp
    refine ⟨ht, hi', known, fun r => ?_⟩
    have o := owned r
    refine ⟨?_, ?_, fun k₀ hm => ?_, fun _ _ _ h => ?_, fun _ _ h => ?_⟩
    case refine_1 =>
      rcases o.placed with hc | ⟨_, _, h⟩ | hm
      · exact .inl hc
      · obtain ⟨_, hkk, _, hx⟩ := Dispatcher.holding.inj (hd.symm.trans h)
        rw [hkk, hk'] at hk
        obtain rfl := Option.some_inj.mp hk
        have hm : (k', i) ∈ s.handed x ++ [(k, pkt.streamIndex)] := by
          simp [hkk, ← hi', hi]
        exact .inr (.inr (by rwa [handed, if_pos hx.symm]))
      · refine .inr (.inr ?_)
        rw [handed]
        split
        · exact List.mem_append_left _ hm
        · exact hm
    case refine_2 =>
      rcases o.stored with ⟨stage, _, h, hne⟩ | hs
      · obtain ⟨he, _⟩ := Dispatcher.holding.inj (hd.symm.trans h)
        exact absurd he.symm hne
      · exact .inr hs
    case refine_3 =>
      rw [handed] at hm
      split at hm
      case isFalse => exact o.only k₀ hm
      case isTrue hx =>
        rcases List.mem_append.mp hm with hm | hm
        · exact o.only k₀ hm
        · obtain ⟨hk₀, hi₀⟩ := Prod.mk.inj (List.mem_singleton.mp hm)
          exact o.held .sending k₀ pkt (by rw [hd, hk₀, hx]) hi₀.symm
    all_goals simp [HelloDispatch.send] at h

-- Nothing but the call of the test itself adds a route for it.
theorem routed_of_registers {host : Host ι} {y : ι} {token' : HelloToken} (inv : Inv tests s)
    (r : s.host.Registers tests host y token') (known : s.udpToken x = some key)
    (h : (registered { s with host } y (tests y).streams token').Routed x key) :
    x ≠ y ∧ s.Routed x key := by
  have hxy : x ≠ y := fun he => nomatch (he ▸ known).symm.trans (inv.early y (.inr r.point) r.guard)
  refine ⟨hxy, ?_⟩
  have ⟨r', hr, hx⟩ := h
  have hr : host.routes key = some r' := hr
  rw [r.eq] at hr
  rcases update_some_eq_some.mp hr with ⟨_, rfl⟩ | ⟨_, hr⟩
  · exact absurd hx hxy.symm
  · exact ⟨r', hr, hx⟩

theorem step {e : DispatchEvent ι} (a : s.Agrees addrs token x) (inv : Inv tests s)
    (h : step tests s e = some s')
    (honest : ∀ data src, e = .hello data src → s.Honest addrs token x data src) :
    s'.Agrees addrs token x := by
  cases step_cases h
  case registers y token' host _ r =>
    have hne {y' : ι} {key : HelloToken} (hy : s.udpToken y' = some key) : y' ≠ y :=
      fun he => nomatch (he ▸ hy).symm.trans (inv.early y (.inr r.point) r.guard)
    refine a.beside rfl rfl rfl (fun _ _ hy => (Function.update_of_ne (hne hy) ..).trans hy)
      (fun _ known hr => (routed_of_registers inv r known hr).right) id fun key i known hs => ?_
    intro r' hr hx
    have hr : host.routes key = some r' := hr
    rw [r.eq] at hr
    rcases update_some_eq_some.mp hr with ⟨_, rfl⟩ | ⟨_, hr⟩
    · exact absurd hx (hne known).symm
    · exact hs r' hr hx
  case advances host _ _ adv =>
    exact a.beside rfl rfl rfl (fun _ _ h => h) (fun _ _ ⟨r, hr, hx⟩ => ⟨r, adv.routes _ r hr, hx⟩) id
      fun _ _ _ hs r hr => hs r (adv.routes _ r hr)
  case hello data src hd    => exact a.dispatch inv hd (honest data src rfl)
  case create hd            => exact a.create inv hd
  case createFailed hd =>
    refine a.turn (fun _ _ k ⟨_, _, hk⟩ => ?_) (by simp) (by simp)
    simp [hd] at hk
  case ack hd => exact a.goto (by simp) fun k i _ _ o => o.keep hd (by simp)
  case store hd => exact a.store inv hd
  case sendFailed k pkt tx hd hc =>
    refine a.goto (by simp) fun k i _ _ o => o.goto (fun ⟨_, _, h⟩ => ?_) (fun ⟨_, _, h, hne⟩ => ?_)
      (by simp) (by simp)
    · have ⟨_, _, _, hx⟩ := Dispatcher.holding.inj (hd.symm.trans h)
      exact .inl (hx ▸ hc)
    · have ⟨he, _⟩ := Dispatcher.holding.inj (hd.symm.trans h)
      exact absurd he.symm hne
  case send hd _ => exact a.send inv hd
  case resend hd =>
    refine a.turn (fun _ _ k ⟨_, _, hk⟩ => ?_) (by simp) (by simp)
    simp [hd] at hk
  case collect y _ hc =>
    refine a.beside rfl rfl rfl (fun _ _ h => h) (fun _ _ h => h) (fun hx => ?_) fun _ _ _ h => h
    have hy : x ≠ y := fun he => nomatch (he ▸ hx).symm.trans hc
    exact (Function.update_of_ne hy ..).trans hx
  case receive y received socket channel hc _ =>
    have hy (hx : s.collection x = .done) : x ≠ y := fun he => nomatch (he ▸ hx).symm.trans hc
    unfold accept
    dsimp only
    repeat' split
    all_goals refine a.beside rfl rfl rfl (fun _ _ h => h) (fun _ _ h => h) ?_ fun _ _ _ h => h
    case isTrue           => exact id
    case isFalse.isTrue   => exact id
    case isFalse.isFalse  => exact fun hx => (Function.update_of_ne (hy hx) ..).trans hx
  case stopCollecting y hc =>
    refine a.beside rfl rfl rfl (fun _ _ h => h) (fun _ _ h => h) (fun hx => ?_) fun _ _ _ h => h
    by_cases hy : x = y
    case pos => exact absurd (hy ▸ hx) hc
    case neg => exact (Function.update_of_ne hy ..).trans hx

end Agrees

section HandOver

variable [DecidableEq ι]

-- The dispatcher can hand a socket over to a test by its own steps.
def HandsOver (tests : ι → TestStart) (s : HelloDispatch ι) (x : ι) (k : Nat) (i : UInt16) : Prop :=
  ∃ events s', events <:+ [.ack true, .store, .send] ∧ (step tests).run s events = some s' ∧
    (k, i) ∈ s'.handed x

theorem handsOver_of_sending (inv : Inv tests s) (hd : s.dispatcher = .holding .sending k pkt x)
    (hc : s.collection x ≠ .done) : ∃ s', (step tests).run s [.send] = some s' ∧
      (k, pkt.streamIndex) ∈ s'.handed x := by
  have room := inv.room hd
  have hs : step tests s .send = some (s.send k pkt x) := by
    unfold step
    simp only [hd, if_pos room]
  refine ⟨s.send k pkt x, by simp [System.run_cons, hs], ?_⟩
  simp [HelloDispatch.send]

theorem handsOver_of_storing (inv : Inv tests s) (hd : s.dispatcher = .holding .storing k pkt x)
    (routed : s.Routed x pkt.helloToken) (hc : s.collection x ≠ .done) :
    ∃ s', (step tests).run s [.store, .send] = some s' ∧ (k, pkt.streamIndex) ∈ s'.handed x := by
  have hs : step tests s .store = some (s.store k pkt x) := by
    unfold step
    simp only [hd]
  have inv' := inv.step hs
  have ⟨sock, _, hi, fits, _⟩ := inv.held hd
  have ⟨r, hr, hx⟩ := routed
  have ⟨sockets, hn, he⟩ := inv.routes _ r hr
  have hl : pkt.streamIndex.toNat < r.sockets.length := by
    have hn : r.sockets.length = (tests r.socketTx).streams :=
      (congrArg (·.sockets.length) he).trans hn
    rw [hn, hx, ← hi]
    exact fits.lt
  have cases := s.store_cases k pkt x
  generalize s.store k pkt x = s₁ at cases hs inv'
  cases cases
  case unrouted hn => exact nomatch hn.symm.trans hr
  case panics r' hr' hl' =>
    obtain rfl := Option.some_inj.mp (hr'.symm.trans hr)
    omega
  case stores =>
    have ⟨s', hs', hm⟩ := handsOver_of_sending inv' rfl hc
    exact ⟨s', by simp only [System.run_cons, hs, Option.bind_some] at hs' ⊢; exact hs', hm⟩

theorem handsOver {stage : HandOff} (inv : Inv tests s) (hd : s.dispatcher = .holding stage k pkt x)
    (routed : s.Routed x pkt.helloToken) (hc : s.collection x ≠ .done) :
    s.HandsOver tests x k pkt.streamIndex := by
  cases stage
  case sending =>
    have ⟨s', hs, hm⟩ := handsOver_of_sending inv hd hc
    exact ⟨_, s', ⟨[.ack true, .store], rfl⟩, hs, hm⟩
  case storing =>
    have ⟨s', hs, hm⟩ := handsOver_of_storing inv hd routed hc
    exact ⟨_, s', ⟨[.ack true], rfl⟩, hs, hm⟩
  case acking =>
    have ha : step tests s (.ack true) = some (s.goto (.holding .storing k pkt x)) := by
      unfold step
      simp only [hd]
    have ⟨s', hs, hm⟩ := handsOver_of_storing (inv.step ha) rfl routed hc
    refine ⟨_, s', List.suffix_refl _, ?_, hm⟩
    rw [System.run_cons, ha]
    exact hs

end HandOver

-- Sockets stay, and so do the tokens of tests.
theorem step_persists [DecidableEq ι] {e : DispatchEvent ι} (inv : Inv tests s)
    (h : step tests s e = some s') :
    (∀ (k : Nat) sock, s.sockets[k]? = some sock → s'.sockets[k]? = some sock) ∧
    ∀ y key, s.udpToken y = some key → s'.udpToken y = some key := by
  cases step_cases h
  case registers y token' host _ r =>
    refine ⟨fun _ _ h => h, fun y' key hy => ?_⟩
    have hne : y' ≠ y := fun he => nomatch (he ▸ hy).symm.trans (inv.early y (.inr r.point) r.guard)
    exact (Function.update_of_ne hne ..).trans hy
  case hello data src _ =>
    have cases := s.dispatch_cases data src
    generalize s.dispatch data src = s' at cases
    cases cases <;> exact ⟨fun _ _ h => h, fun _ _ h => h⟩
  case create =>
    refine ⟨fun k sock hk => ?_, fun _ _ h => h⟩
    exact (List.getElem?_append_left (List.getElem?_eq_some_iff.mp hk).choose).trans hk
  case store k pkt tx _ =>
    have cases := s.store_cases k pkt tx
    generalize s.store k pkt tx = s' at cases
    cases cases <;> exact ⟨fun _ _ h => h, fun _ _ h => h⟩
  case receive =>
    rw [accept]
    dsimp only
    repeat' split
    all_goals exact ⟨fun _ _ h => h, fun _ _ h => h⟩
  all_goals exact ⟨fun _ _ h => h, fun _ _ h => h⟩

end HelloDispatch
