import Xfr.Serve.Lifecycle
import Xfr.Serve.Slots

namespace Connection

variable {l l' : Listener} {c c' : Connection} {e : ConnectionEvent} {now : Nat} {ip : IpAddr}

-- A handler has a permit from its start to its end.
def Permitted (c : Connection) : Prop :=
  match c.point with
  | .accepted  => c.permit = false
  | .checked   => c.permit = false
  | .permitted => c.permit = true
  | .handling  => c.permit = true
  | .handled   => c.permit = true
  | .ended     => True

-- The handler has ended.
def Over (c : Connection) : Prop :=
  c.point = .handled ∨ c.point = .ended

-- What a step of a connection leaves as it was, and where the permits go.
structure Carries (l : Listener) (c : Connection) (e : ConnectionEvent) (l' : Listener)
    (c' : Connection) : Prop where
  transport : c'.transport = c.transport
  peerIp    : c'.peerIp = c.peerIp
  moved     : c'.point ≠ .accepted
  permitted : c'.Permitted
  permits   : l'.permits + c'.permit.toNat = l.permits + c.permit.toNat
  isOver    : c.Over ∨ e.outcome.isSome → c'.Over
  finishes  : e.outcome.isSome → c.point = .handling
  ended     : c.point = .ended → c'.point = .ended

theorem check_permits {r : Except RateLimitError Bool} (h : l.check ip now = (l', r)) :
    l'.permits = l.permits := by
  unfold Listener.check at h
  split at h
  · cases h
    rfl
  · split at h <;> cases h <;> rfl

theorem carries_check (hp : c.Permitted)
    (ht : c.point = .accepted ∧ c.transport = .tcp ∨ c.point = .permitted ∧ c.transport = .quic)
    (h : (match l.check c.peerIp now with
      | (l', .ok slot) => some (l', c.enter slot)
      | (l', .error _) => some (l', c.goto .ended)) = some (l', c')) :
    Carries l c (.check now) l' c' := by
  split at h
  case h_1 l₁ slot hk =>
    cases h
    have hl := check_permits hk
    rcases ht with ⟨hp', ht⟩ | ⟨hp', ht⟩ <;> rw [Permitted, hp'] at hp
    all_goals
      constructor <;>
        simp [enter, ht, Permitted, hp, hl, Over, hp', ConnectionEvent.outcome]
  case h_2 l₁ e hk =>
    cases h
    have hl := check_permits hk
    constructor <;> simp [goto, Permitted, hl, Over, ConnectionEvent.outcome]

theorem carries_acquire (hp : c.permit = false) (ho : ¬c.Over)
    (h : (if l.permits > 0 then some ({ l with permits := l.permits - 1 }, c.acquire)
      else some (l, c.goto .ended)) = some (l', c')) : Carries l c .acquire l' c' := by
  split at h
  case isTrue hl =>
    cases h
    have hl' : l.permits - 1 + 1 = l.permits := Nat.sub_add_cancel hl
    have he : c.point ≠ .ended := fun he => ho (.inr he)
    cases ht : c.transport <;> constructor <;>
      simp [acquire, ht, Permitted, hp, hl', ho, he, ConnectionEvent.outcome]
  case isFalse =>
    cases h
    constructor <;> simp [goto, Permitted, Over, ConnectionEvent.outcome]

theorem step_carries (hp : c.Permitted) (h : step (l, c) e = some (l', c')) :
    Carries l c e l' c' := by
  unfold step at h
  dsimp only at h
  split at h
  case h_1 =>
    cases h
    constructor <;> simp [goto, Permitted, Over, ConnectionEvent.outcome]
  case h_2 hpt ht => exact carries_check hp (.inl ⟨hpt, ht⟩) h
  case h_3 hpt ht => exact carries_check hp (.inr ⟨hpt, ht⟩) h
  case h_4 hpt _ | h_5 hpt _ =>
    rw [Permitted, hpt] at hp
    exact carries_acquire hp (by simp [Over, hpt]) h
  case h_6 o hpt =>
    cases h
    rw [Permitted, hpt] at hp
    cases ht : c.transport <;> cases o <;> constructor <;>
      simp [finish, goto, ht, Permitted, hp, Over, hpt]
  case h_7 hpt _ =>
    cases h
    rw [Permitted, hpt] at hp
    constructor <;> simp [Permitted, hp, Listener.release, Over, ConnectionEvent.outcome]
  case h_8 hpt =>
    obtain ⟨hg, h⟩ := Option.ite_none_right_eq_some.mp h
    cases h
    constructor <;> simp [Permitted, hpt, Listener.release, Over, ConnectionEvent.outcome]
  case h_9 hpt =>
    obtain ⟨hg, h⟩ := Option.ite_none_right_eq_some.mp h
    cases h
    constructor <;> simp [Permitted, hpt, hg.left, Over, ConnectionEvent.outcome]
  case h_10 => cases h

end Connection

namespace ConnectionTask

variable {ν ε : Type*} {net : IpNetwork ν ε} {setup : ServerSetup ν} {oneOff : Bool}
  {s s' : Acceptor} {t t' : ConnectionTask} {e : ConnectionTaskEvent}

-- What a task has at each point of its code.
structure Ok (net : IpNetwork ν ε) (setup : ServerSetup ν) (t : ConnectionTask) : Prop where
  admits    : setup.admits net t.connection.peerIp
  permitted : t.connection.Permitted
  reading   : t.connection.transport = .tcp → t.connection.point = .accepted → t.connPermit
  isOver    : t.outcome.isSome → t.connection.Over

-- What becomes of the connection of a task: nothing, or what becomes of any connection.
inductive Moves (s : Acceptor) (t : ConnectionTask) (s' : Acceptor) (t' : ConnectionTask) : Prop
  | quiet (hl : s'.listener = s.listener) (hc : t'.connection = t.connection)
  | connection (e : ConnectionEvent)
    (h : Connection.step (s.listener, t.connection) e = some (s'.listener, t'.connection))

structure Keeps (net : IpNetwork ν ε) (setup : ServerSetup ν) (s : Acceptor) (t : ConnectionTask)
    (s' : Acceptor) (t' : ConnectionTask) : Prop where
  ok          : t'.Ok net setup
  moves       : Moves s t s' t'
  connPermits : s'.connPermits + t'.connPermit.toNat = s.connPermits + t.connPermit.toNat
  permits     : s'.listener.permits + t'.connection.permit.toNat =
    s.listener.permits + t.connection.permit.toNat
  success     : t.outcome = some .success → t'.outcome = some .success

theorem not_accepted_of_ready (ok : t.Ok net setup) (h : t.ready oneOff) :
    ¬(t.connection.transport = .tcp ∧ t.connection.point = .accepted) := by
  rintro ⟨ht, hp⟩
  rw [ready, ht] at h
  have hn : ¬t.outcome.isSome := fun ho => by simpa [Connection.Over, hp] using ok.isOver ho
  simp [gone, spawned, hp, hn] at h

theorem step_keeps (ok : t.Ok net setup) (h : step oneOff (s, t) e = some (s', t')) :
    Keeps net setup s t s' t' := by
  cases e
  case firstLine line =>
    have ⟨⟨ht, hp, _⟩, h⟩ := Option.ite_none_right_eq_some.mp h
    have hf : ¬t.outcome.isSome := fun ho => by simpa [Connection.Over, hp] using ok.isOver ho
    split at h
    · cases h
      exact ⟨⟨ok.admits, ok.permitted, ok.reading, ok.isOver⟩, .quiet rfl rfl, rfl, rfl, id⟩
    · cases h
      refine ⟨⟨ok.admits, trivial, nofun, fun ho => absurd ho hf⟩, ?_, rfl, rfl, id⟩
      refine .connection .turnAway ?_
      simp [Connection.step, hp]
  case connection e =>
    have ⟨_, h⟩ := Option.ite_none_right_eq_some.mp h
    have ⟨⟨l, c⟩, hs, h⟩ := Option.map_eq_some_iff.mp h
    have carries := Connection.step_carries ok.permitted hs
    cases h
    refine ⟨⟨?_, carries.permitted, ?_, ?_⟩, .connection e hs, rfl, carries.permits, ?_⟩
    case refine_1 => exact carries.peerIp ▸ ok.admits
    case refine_2 => exact fun _ hp => absurd hp carries.moved
    case refine_3 =>
      intro ho
      refine carries.isOver ?_
      cases he : e.outcome
      case none   => exact .inl <| ok.isOver (by simpa [take, he] using ho)
      case some o => exact .inr rfl
    case refine_4 =>
      intro ho
      have hn : e.outcome = none := by
        by_contra hn
        have hp := carries.finishes (Option.isSome_iff_ne_none.mpr hn)
        simpa [Connection.Over, hp] using ok.isOver (Option.isSome_of_eq_some ho)
      simpa [take, hn] using ho
  case settle =>
    have ⟨⟨_, hr⟩, h⟩ := Option.ite_none_right_eq_some.mp h
    have hn := not_accepted_of_ready ok hr
    cases h
    refine ⟨⟨ok.admits, ok.permitted, fun ht hp => absurd ⟨ht, hp⟩ hn, ok.isOver⟩, .quiet rfl rfl, ?_,
      rfl, id⟩
    cases t.connPermit <;> rfl

-- Nothing but its first line can tell what a connection is for.
def isReading (t : ConnectionTask) : Bool :=
  t.connection.transport = .tcp ∧ t.connection.point = .accepted

def isHandling (t : ConnectionTask) : Bool :=
  t.connection.point = .handling ∨ t.connection.point = .handled

theorem Ok.permit (ok : t.Ok net setup) (h : t.isHandling) : t.connection.permit := by
  have hp := ok.permitted
  cases hpt : t.connection.point <;> simp [isHandling, hpt, Connection.Permitted] at h hp
  all_goals exact hp

theorem occupies_of_isHandling (ok : t.connection.Ok true) (h : t.isHandling) :
    t.connection.occupies t.connection.peerIp := by
  rw [Connection.occupies_iff]
  cases hpt : t.connection.point <;> simp [isHandling, hpt, Connection.Ok] at h ok
  case handling => exact ⟨rfl, ok.left, ok.right.right⟩
  case handled  => exact ⟨rfl, ok.right.left, ok.right.right.right⟩

end ConnectionTask

namespace Lifecycle

variable {ν ε : Type*} {net : IpNetwork ν ε} {setup : ServerSetup ν}
  {s s' : Acceptor × List ConnectionTask} {e : LifecycleEvent} {es : List LifecycleEvent}

-- What the server is for the limiter: the listener and its connections.
def project (s : Acceptor × List ConnectionTask) : Listener × List Connection :=
  (s.1.listener, s.2.map (·.connection))

structure Inv (net : IpNetwork ν ε) (setup : ServerSetup ν) (s : Acceptor × List ConnectionTask) :
    Prop where
  ok          : ∀ t ∈ s.2, t.Ok net setup
  connPermits : s.1.connPermits + s.2.countP (·.connPermit) = setup.maxConcurrent.toNat * 4
  permits     : s.1.listener.permits + s.2.countP (·.connection.permit) =
    setup.maxConcurrent.toNat
  slots       : AcceptLoop.Inv setup.rateLimit (project s)

theorem Inv.init : Inv net setup (init setup) where
  ok          := List.forall_mem_nil _
  connPermits := rfl
  permits     := rfl
  slots       :=
    show AcceptLoop.Inv _ (AcceptLoop.init _ setup.maxConcurrent.toNat) from AcceptLoop.Inv.init

-- What none of the permits depends on.
theorem Inv.congr (inv : Inv net setup s) (hl : s'.1.listener = s.1.listener)
    (hc : s'.1.connPermits = s.1.connPermits) (ht : s'.2 = s.2) : Inv net setup s' := by
  obtain ⟨s, ts⟩ := s
  obtain ⟨s', ts'⟩ := s'
  obtain rfl : ts' = ts := ht
  refine ⟨inv.ok, hc ▸ inv.connPermits, hl ▸ inv.permits, ?_⟩
  have he : project (s', ts') = project (s, ts') := congrArg (·, _) hl
  exact he ▸ inv.slots

-- A task which is new has no permit of a handler yet.
theorem Inv.accept {t : ConnectionTask} {transport : Transport} {peerIp : IpAddr}
    (inv : Inv net setup s) (hl : s'.1.listener = s.1.listener)
    (ht : s'.2 = s.2 ++ [t]) (hc : t.connection = { transport, peerIp })
    (hp : s'.1.connPermits + t.connPermit.toNat = s.1.connPermits) (ok : t.Ok net setup) :
    Inv net setup s' := by
  obtain ⟨s, ts⟩ := s
  obtain ⟨s', ts'⟩ := s'
  obtain rfl : ts' = ts ++ [t] := ht
  have count (p : ConnectionTask → Bool) : (ts ++ [t]).countP p = ts.countP p + (p t).toNat := by
    rw [List.countP_append]
    cases h : p t <;> simp [h]
  constructor
  case ok          => exact List.forall_mem_append.mpr ⟨inv.ok, List.forall_mem_singleton.mpr ok⟩
  case connPermits =>
    have := inv.connPermits
    rw [count]
    dsimp only at *
    omega
  case permits =>
    rw [count, hc]
    exact hl ▸ inv.permits
  case slots =>
    have hl : s'.listener = s.listener := hl
    have h : AcceptLoop.step (project (s, ts)) (.accept transport peerIp) =
        some (project (s', ts ++ [t])) := by
      simp only [AcceptLoop.step, project, List.map_append, List.map_cons, List.map_nil, hl, hc]
    exact inv.slots.step h

theorem Inv.task {i : Nat} {e : ConnectionTaskEvent} (inv : Inv net setup s)
    (h : (ConnectionTask.step setup.oneOff).interleave s (i, e) = some s') : Inv net setup s' := by
  obtain ⟨s, ts⟩ := s
  obtain ⟨s', ts'⟩ := s'
  obtain ⟨t, t', hi, hs, rfl⟩ := System.interleave_cases h
  have keeps := ConnectionTask.step_keeps (inv.ok t (List.mem_of_getElem? hi)) hs
  constructor
  case ok =>
    intro u hu
    rcases List.mem_or_eq_of_mem_set hu with hu | rfl
    · exact inv.ok u hu
    · exact keeps.ok
  case connPermits =>
    have := AcceptLoop.countP_set (p := (·.connPermit)) (y := t') hi
    have := keeps.connPermits
    have := inv.connPermits
    dsimp only at *
    omega
  case permits =>
    have := AcceptLoop.countP_set (p := (·.connection.permit)) (y := t') hi
    have := keeps.permits
    have := inv.permits
    dsimp only at *
    omega
  case slots =>
    have hm : (ts.map (·.connection))[i]? = some t.connection := by rw [List.getElem?_map, hi]; rfl
    have hset : (ts.set i t').map (·.connection) = (ts.map (·.connection)).set i t'.connection :=
      List.map_set
    cases keeps.moves
    case quiet hl hc =>
      obtain ⟨hlt, hm⟩ := List.getElem?_eq_some_iff.mp hm
      have he : project (s', ts.set i t') = project (s, ts) := by
        rw [project, hset, hl, hc, ← hm, List.set_getElem_self]
        rfl
      exact he ▸ inv.slots
    case connection e hc =>
      rw [project, hset]
      exact inv.slots.connection hm hc

theorem Inv.step (inv : Inv net setup s) (h : step net setup s e = some s') :
    Inv net setup s' := by
  cases e
  case tcpAccept peerIp =>
    have ⟨_, h⟩ := Option.ite_none_right_eq_some.mp h
    split at h
    case isTrue ha =>
      obtain rfl := Option.some_inj.mp h
      refine inv.accept rfl rfl rfl (Nat.sub_add_cancel ha.right) ?_
      exact ⟨ha.left, rfl, fun _ _ => rfl, nofun⟩
    case isFalse => exact Option.some_inj.mp h ▸ inv
  case quicAccept peerIp =>
    have ⟨_, h⟩ := Option.ite_none_right_eq_some.mp h
    split at h
    case isTrue ha =>
      obtain rfl := Option.some_inj.mp h
      exact inv.accept rfl rfl rfl rfl ⟨ha, rfl, nofun, nofun⟩
    case isFalse => exact Option.some_inj.mp h ▸ inv
  case tcpError | signal | quicClosed =>
    have ⟨_, h⟩ := Option.ite_none_right_eq_some.mp h
    obtain rfl := Option.some_inj.mp h
    exact inv.congr rfl rfl rfl
  case tcpChanged | quicChanged =>
    have ⟨_, _, h⟩ := Option.bind_eq_some_iff.mp h
    obtain rfl := Option.some_inj.mp h
    exact inv.congr rfl rfl rfl
  case task i e => exact inv.task h
  case cleanup now shard =>
    obtain rfl := Option.some_inj.mp h
    refine ⟨inv.ok, inv.connPermits, inv.permits, ?_⟩
    exact inv.slots.step (e := .cleanup now shard) rfl

-- What the server lets in, at any time and over both transports.
structure Capacity (net : IpNetwork ν ε) (setup : ServerSetup ν)
    (s : Acceptor × List ConnectionTask) : Prop where
  admitted : ∀ t ∈ s.2, setup.admits net t.connection.peerIp
  reading  : s.2.countP (·.isReading) ≤ setup.maxConcurrent.toNat * 4
  handling : s.2.countP (·.isHandling) ≤ setup.maxConcurrent.toNat
  perPeer  : ∀ n ∈ setup.rateLimit.maxPerIp, ∀ ip,
    s.2.countP (fun t => t.isHandling ∧ t.connection.peerIp = ip) ≤ n
  restored : (∀ t ∈ s.2, t.gone ∧ ¬t.connPermit) →
    s.1.listener.permits = setup.maxConcurrent.toNat ∧
    s.1.connPermits = setup.maxConcurrent.toNat * 4

theorem Inv.perPeer (inv : Inv net setup s) {n : Nat} (hn : n ∈ setup.rateLimit.maxPerIp)
    (ip : IpAddr) : s.2.countP (fun t => t.isHandling ∧ t.connection.peerIp = ip) ≤ n := by
  have ⟨events, he⟩ := inv.slots.limiter
  have hb : setup.rateLimit.build = some (.new n (setup.rateLimit.windowSecs * 10 ^ 9)) := by
    rw [RateLimitConfig.build, Option.mem_def.mp hn]
    rfl
  rw [hb, Option.map_some] at he
  have hl : (project s).1.rateLimiter.isSome = true := Option.isSome_of_eq_some he
  calc
    s.2.countP (fun t => t.isHandling ∧ t.connection.peerIp = ip)
    _ ≤ s.2.countP (fun t => t.connection.occupies ip) := by
      refine List.countP_mono_left fun t ht h => ?_
      have ⟨hh, hi⟩ := of_decide_eq_true h
      have ok := inv.slots.ok t.connection (List.mem_map_of_mem ht)
      exact hi ▸ ConnectionTask.occupies_of_isHandling (hl ▸ ok) hh
    _ = (project s).2.countP (·.occupies ip) := by
      rw [project, List.countP_map]
      rfl
    _ = _ := (inv.slots.counted _ he ip).symm
    _ ≤ n := (RateLimiter.bounded (Nat.zero_le _)).trans_eq rfl

theorem Inv.capacity (inv : Inv net setup s) : Capacity net setup s where
  admitted t ht := (inv.ok t ht).admits
  reading := by
    have hp := inv.connPermits
    refine Nat.le_trans (List.countP_mono_left fun t ht h => ?_) (hp ▸ Nat.le_add_left _ _)
    have ⟨htr, hpt⟩ := of_decide_eq_true h
    exact (inv.ok t ht).reading htr hpt
  handling := by
    have hp := inv.permits
    refine Nat.le_trans (List.countP_mono_left fun t ht h => ?_) (hp ▸ Nat.le_add_left _ _)
    exact (inv.ok t ht).permit h
  perPeer n hn ip := inv.perPeer hn ip
  restored := by
    intro h
    have hp : s.2.countP (·.connection.permit) = 0 :=
      List.countP_eq_zero.mpr fun t ht => by
        have := (h t ht).left
        simp only [ConnectionTask.gone, decide_eq_true_eq] at this
        exact this.right.right
    have hc : s.2.countP (·.connPermit) = 0 :=
      List.countP_eq_zero.mpr fun t ht => (h t ht).right
    have := inv.permits
    have := inv.connPermits
    omega

-- Whatever peers do, and in whichever order the tasks take their turns.
theorem capacity_run (net : IpNetwork ν ε) (setup : ServerSetup ν) (es : List LifecycleEvent)
    (s : Acceptor × List ConnectionTask) (h : (step net setup).run (init setup) es = some s) :
    Capacity net setup s :=
  (System.run_invariant (I := Inv net setup) Inv.step .init h).capacity

-- Networks of a single address each.
def hosts : IpNetwork IpAddr Unit where
  parse _       := .error ()
  display _     := []
  contains n ip := n = ip

def oneTest : ServerSetup IpAddr where
  acl           := { allow := [], deny := [.v4 9] }
  presetAcl     := none
  rateLimit     := { maxPerIp := some 1 }
  maxConcurrent := 1
  oneOff        := true
  enableQuic    := true

-- A peer which is denied, one which finds no permit any more, and one which comes to its end.
def served : List LifecycleEvent :=
  [.tcpAccept (.v4 9), .tcpAccept (.v4 1), .task 0 (.firstLine .hello), .quicAccept (.v4 2),
    .task 1 (.connection .acquire), .task 1 (.connection (.check 0)),
    .task 0 (.connection (.check 1)), .task 0 (.connection .acquire),
    .task 1 (.connection (.finish .success)), .task 1 (.connection .release),
    .task 1 (.connection .dropPermit)]

theorem capacity_run_served : ∃ s, (step hosts oneTest).run (init oneTest) served = some s ∧
    Capacity hosts oneTest s := by
  have h : (step hosts oneTest).run (init oneTest) served = some _ := rfl
  exact ⟨_, h, capacity_run hosts oneTest _ _ h⟩

end Lifecycle
