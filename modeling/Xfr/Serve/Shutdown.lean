import Xfr.Serve.Capacity

namespace LoopTask

-- An accept loop has a reason to be over, and one which is not has seen no shutdown yet.
structure Notices (shutdown : WatchChannel Bool) (other : Prop) (loop : LoopTask) : Prop where
  stopped : loop.point = .stopped → shutdown.value ∨ other
  fresh   : loop.point ≠ .stopped → loop.seen = 0

variable {shutdown shutdown' : WatchChannel Bool} {other other' : Prop} {loop loop' : LoopTask}

theorem Notices.mono (h : loop.Notices shutdown other) (hs : shutdown.value → shutdown'.value)
    (ho : other → other') : loop.Notices shutdown' other' where
  stopped hp := (h.stopped hp).imp hs ho
  fresh      := h.fresh

theorem Notices.goto {point : LoopPoint} (h : loop.Notices shutdown other)
    (hp : loop.point ≠ .stopped) (hn : point ≠ .stopped) :
    { loop with point }.Notices shutdown other where
  stopped hs := absurd hs hn
  fresh _    := h.fresh hp

theorem Notices.stop (h : shutdown.value ∨ other) :
    { loop with point := .stopped }.Notices shutdown other where
  stopped _ := h
  fresh hn  := absurd rfl hn

theorem Notices.changed (h : loop.changed shutdown = some loop')
    (hv : ¬shutdown.value → shutdown.version = 0) : loop'.Notices shutdown other := by
  have ⟨_, h⟩ := Option.ite_none_right_eq_some.mp h
  split at h
  case h_1 seen hc =>
    obtain ⟨_, rfl⟩ := WatchChannel.changed_ok hc
    obtain rfl := Option.some_inj.mp h
    cases hs : shutdown.value
    case true  => exact ⟨fun _ => .inl hs, fun hn => absurd rfl hn⟩
    case false => exact ⟨nofun, fun _ => hv (by simp [hs])⟩
  case h_2 => cases h

end LoopTask

namespace ConnectionTask

variable {ν ε : Type*} {net : IpNetwork ν ε} {setup : ServerSetup ν} {oneOff : Bool}
  {s s' : Acceptor} {t t' : ConnectionTask} {e : ConnectionTaskEvent}

-- In one-off mode a handler is waited for, and its success is passed on.
def Waits (shutdown : WatchChannel Bool) (t : ConnectionTask) : Prop :=
  t.awaited ∨ (t.connection.point = .ended ∧ (t.outcome = some .success → shutdown.value))

-- What a task can do to the loops and to the shutdown channel.
structure Signals (oneOff : Bool) (s : Acceptor) (t : ConnectionTask) (s' : Acceptor)
    (t' : ConnectionTask) : Prop where
  tcp       : s'.tcp = s.tcp
  quic      : s'.quic = s.quic ∨
    (s.quic.point = .admitting ∧ s'.quic = { s.quic with point := .selecting })
  records   : s'.signalled = s.signalled ∧ s'.failed = s.failed ∧ s'.closed = s.closed
  shutdown  : s'.shutdown = s.shutdown ∨
    (oneOff ∧ t.outcome = some .success ∧ s'.shutdown = s.shutdown.send true)
  waits     : oneOff → t.Waits s.shutdown → t'.Waits s'.shutdown

theorem Waits.mono {shutdown shutdown' : WatchChannel Bool} (h : t.Waits shutdown)
    (hs : shutdown.value → shutdown'.value) : t.Waits shutdown' :=
  h.imp id fun ⟨hp, ho⟩ => ⟨hp, fun h => hs (ho h)⟩

theorem step_signals (ok : t.Ok net setup) (h : step oneOff (s, t) e = some (s', t')) :
    Signals oneOff s t s' t' := by
  cases e
  case firstLine line =>
    obtain ⟨⟨_, hp, _⟩, h⟩ := Option.ite_none_right_eq_some.mp h
    split at h <;> cases h
    · exact ⟨rfl, .inl rfl, ⟨rfl, rfl, rfl⟩, .inl rfl, fun _ hw => hw⟩
    · refine ⟨rfl, .inl rfl, ⟨rfl, rfl, rfl⟩, .inl rfl, fun _ hw => ?_⟩
      exact hw.imp id fun h => ⟨rfl, h.right⟩
  case connection e =>
    obtain ⟨hm, h⟩ := Option.ite_none_right_eq_some.mp h
    obtain ⟨⟨l, c⟩, hs, h⟩ := Option.map_eq_some_iff.mp h
    have carries := Connection.step_carries ok.permitted hs
    cases h
    refine ⟨rfl, ?_, ⟨rfl, rfl, rfl⟩, .inl rfl, fun _ hw => ?_⟩
    case refine_1 =>
      dsimp only
      split
      case isFalse => exact .inl rfl
      case isTrue hq =>
        rw [mayTake, ← carries.transport, hq.left] at hm
        have ha : s.quic.point = .admitting := (of_decide_eq_true hm).right hq.right
        unfold LoopTask.proceed
        split
        · exact .inr ⟨ha, rfl⟩
        · exact .inl rfl
    case refine_2 =>
      refine hw.imp id fun hw => ⟨carries.ended hw.left, fun h => ?_⟩
      cases he : e.outcome
      case none   => exact hw.right (by simpa [take, he] using h)
      case some o => cases hw.left.symm.trans (carries.finishes (by simp [he]))
  case settle =>
    obtain ⟨⟨_, hr⟩, h⟩ := Option.ite_none_right_eq_some.mp h
    cases h
    refine ⟨rfl, .inl rfl, ⟨rfl, rfl, rfl⟩, ?_, fun ho _ => .inr ⟨?_, fun hs => ?_⟩⟩
    case refine_1 =>
      dsimp only
      split
      case isTrue h  => exact .inr ⟨h.left, h.right, rfl⟩
      case isFalse   => exact .inl rfl
    case refine_2 =>
      have hg : t.gone := by
        unfold ready at hr
        split at hr <;> simp [ho] at hr
        · exact hr
        · exact hr.left
      exact (of_decide_eq_true hg).left
    case refine_3 =>
      have hs : t.outcome = some .success := hs
      dsimp only
      rw [if_pos ⟨ho, hs⟩]
      rfl

end ConnectionTask

namespace Lifecycle

variable {ν ε : Type*} {net : IpNetwork ν ε} {setup : ServerSetup ν}
  {s s' : Acceptor × List ConnectionTask} {e : LifecycleEvent} {es : List LifecycleEvent}

def Succeeded (ts : List ConnectionTask) : Prop :=
  ∃ t ∈ ts, t.outcome = some .success

structure Watched (net : IpNetwork ν ε) (setup : ServerSetup ν)
    (s : Acceptor × List ConnectionTask) : Prop where
  inv       : Inv net setup s
  tcp       : s.1.tcp.Notices s.1.shutdown s.1.failed
  quic      : s.1.quic.Notices s.1.shutdown (s.1.closed ∨ ¬setup.enableQuic)
  cause     : s.1.shutdown.value → s.1.signalled ∨ (setup.oneOff ∧ Succeeded s.2)
  version   : s.1.shutdown.value ↔ 0 < s.1.shutdown.version
  waits     : setup.oneOff → ∀ t ∈ s.2, t.Waits s.1.shutdown

theorem Watched.init : Watched net setup (init setup) where
  inv       := .init
  tcp       := ⟨nofun, fun _ => rfl⟩
  quic      := by
    refine ⟨fun h => ?_, fun _ => rfl⟩
    cases hq : setup.enableQuic
    case true  => simp [Lifecycle.init, hq] at h
    case false => simp
  cause     := nofun
  version   := by simp [Lifecycle.init]
  waits _   := List.forall_mem_nil _

theorem Watched.unset (w : Watched net setup s) (h : ¬s.1.shutdown.value) :
    s.1.shutdown.version = 0 :=
  Nat.eq_zero_of_not_pos fun hp => h (w.version.mpr hp)

theorem Watched.accept {t : ConnectionTask} {acceptor : Acceptor}
    (w : Watched net setup s) (inv : Inv net setup (acceptor, s.2 ++ [t]))
    (hs : acceptor.shutdown = s.1.shutdown)
    (tcp : acceptor.tcp.Notices acceptor.shutdown acceptor.failed)
    (quic : acceptor.quic.Notices acceptor.shutdown (acceptor.closed ∨ ¬setup.enableQuic))
    (hr : acceptor.signalled = s.1.signalled) (ht : setup.oneOff → t.awaited) :
    Watched net setup (acceptor, s.2 ++ [t]) where
  inv       := inv
  tcp       := tcp
  quic      := quic
  cause h   := by
    refine (w.cause (hs ▸ h)).imp (hr ▸ ·) fun ⟨ho, u, hu, hs⟩ => ⟨ho, u, ?_, hs⟩
    exact List.mem_append_left _ hu
  version   := hs ▸ w.version
  waits ho  := by
    refine List.forall_mem_append.mpr ⟨?_, List.forall_mem_singleton.mpr (.inl (ht ho))⟩
    exact hs ▸ w.waits ho

theorem Watched.task {i : Nat} {e : ConnectionTaskEvent} (w : Watched net setup s)
    (h : (ConnectionTask.step setup.oneOff).interleave s (i, e) = some s') :
    Watched net setup s' := by
  have inv := w.inv.task h
  obtain ⟨s, ts⟩ := s
  obtain ⟨s', ts'⟩ := s'
  obtain ⟨t, t', hi, hs, rfl⟩ := System.interleave_cases h
  have hm := List.mem_of_getElem? hi
  have keeps := ConnectionTask.step_keeps (w.inv.ok t hm) hs
  have signals := ConnectionTask.step_signals (w.inv.ok t hm) hs
  have ⟨hg, hf, hc⟩ := signals.records
  have hv : s.shutdown.value → s'.shutdown.value := by
    rcases signals.shutdown with h | ⟨_, _, h⟩ <;> rw [h]
    · exact id
    · exact fun _ => rfl
  have ⟨hlt, _⟩ := List.getElem?_eq_some_iff.mp hi
  have succeeded : Succeeded ts → Succeeded (ts.set i t') := by
    intro ⟨u, hu, ho⟩
    have ⟨j, hj⟩ := List.mem_iff_getElem?.mp hu
    by_cases hij : i = j
    case pos =>
      obtain rfl : t = u := Option.some_inj.mp (hi.symm.trans (hij ▸ hj))
      exact ⟨t', List.mem_set hlt t', keeps.success ho⟩
    case neg =>
      exact ⟨u, List.mem_of_getElem? (i := j) ((List.getElem?_set_ne hij).trans hj), ho⟩
  constructor
  case inv  => exact inv
  case tcp  => exact signals.tcp ▸ w.tcp.mono hv (hf ▸ id)
  case quic =>
    have hq := w.quic.mono hv (fun h => show s'.closed ∨ ¬setup.enableQuic from hc ▸ h)
    rcases signals.quic with h | ⟨ha, h⟩
    · exact h ▸ hq
    · exact h ▸ hq.goto (by rw [ha]; decide) (by decide)
  case cause =>
    intro h
    rcases signals.shutdown with hw | ⟨ho, hsuc, _⟩
    case inl => exact (w.cause (hw ▸ h)).imp (hg ▸ ·) fun ⟨ho, hs⟩ => ⟨ho, succeeded hs⟩
    case inr => exact .inr ⟨ho, succeeded ⟨t, hm, hsuc⟩⟩
  case version =>
    rcases signals.shutdown with hw | ⟨_, _, hw⟩
    case inl => exact hw ▸ w.version
    case inr =>
      dsimp only
      rw [hw]
      exact iff_of_true rfl (Nat.succ_pos _)
  case waits =>
    intro ho u hu
    rcases List.mem_or_eq_of_mem_set hu with hu | rfl
    · exact (w.waits ho u hu).mono hv
    · exact signals.waits ho (w.waits ho t hm)

theorem Watched.step (w : Watched net setup s) (h : step net setup s e = some s') :
    Watched net setup s' := by
  have inv := w.inv.step h
  cases e
  case tcpAccept peerIp =>
    have ⟨_, h⟩ := Option.ite_none_right_eq_some.mp h
    split at h
    case isFalse => exact Option.some_inj.mp h ▸ w
    case isTrue  =>
      obtain rfl := Option.some_inj.mp h
      exact w.accept inv rfl w.tcp w.quic rfl fun _ => rfl
  case quicAccept peerIp =>
    have ⟨hp, h⟩ := Option.ite_none_right_eq_some.mp h
    split at h
    case isFalse => exact Option.some_inj.mp h ▸ w
    case isTrue  =>
      obtain rfl := Option.some_inj.mp h
      exact w.accept inv rfl w.tcp (w.quic.goto (by rw [hp]; decide) (by decide)) rfl id
  case tcpError =>
    have ⟨_, h⟩ := Option.ite_none_right_eq_some.mp h
    obtain rfl := Option.some_inj.mp h
    exact ⟨inv, .stop (.inr rfl), w.quic, w.cause, w.version, w.waits⟩
  case quicClosed =>
    have ⟨_, h⟩ := Option.ite_none_right_eq_some.mp h
    obtain rfl := Option.some_inj.mp h
    exact ⟨inv, w.tcp, .stop (.inr (.inl rfl)), w.cause, w.version, w.waits⟩
  case signal =>
    have ⟨_, h⟩ := Option.ite_none_right_eq_some.mp h
    obtain rfl := Option.some_inj.mp h
    refine ⟨inv, .stop (.inl rfl), w.quic.mono (fun _ => rfl) id, fun _ => .inl rfl, ?_, ?_⟩
    · exact iff_of_true rfl (Nat.succ_pos _)
    · exact fun ho t ht => (w.waits ho t ht).mono fun _ => rfl
  case tcpChanged =>
    have ⟨tcp, hc, h⟩ := Option.bind_eq_some_iff.mp h
    obtain rfl := Option.some_inj.mp h
    exact ⟨inv, .changed hc w.unset, w.quic, w.cause, w.version, w.waits⟩
  case quicChanged =>
    have ⟨quic, hc, h⟩ := Option.bind_eq_some_iff.mp h
    obtain rfl := Option.some_inj.mp h
    exact ⟨inv, w.tcp, .changed hc w.unset, w.cause, w.version, w.waits⟩
  case task i e => exact w.task h
  case cleanup now shard =>
    obtain rfl := Option.some_inj.mp h
    exact ⟨inv, w.tcp, w.quic, w.cause, w.version, w.waits⟩

-- The peers which were let in.
def peers (s : Acceptor × List ConnectionTask) : List IpAddr :=
  s.2.map (·.connection.peerIp)

def Closed (s : Acceptor × List ConnectionTask) : Prop :=
  s.1.tcp.point = .stopped ∧ s.1.quic.point = .stopped

theorem peers_task {i : Nat} {e : ConnectionTaskEvent} (w : Watched net setup s)
    (h : (ConnectionTask.step setup.oneOff).interleave s (i, e) = some s') :
    peers s' = peers s := by
  obtain ⟨s, ts⟩ := s
  obtain ⟨s', ts'⟩ := s'
  obtain ⟨t, t', hi, hs, rfl⟩ := System.interleave_cases h
  have ok := w.inv.ok t (List.mem_of_getElem? hi)
  have hp : t'.connection.peerIp = t.connection.peerIp := by
    cases (ConnectionTask.step_keeps ok hs).moves
    case quiet hc        => rw [hc]
    case connection e hc => exact (Connection.step_carries ok.permitted hc).peerIp
  have hm : (ts.map (·.connection.peerIp))[i]? = some t.connection.peerIp := by
    rw [List.getElem?_map, hi]
    rfl
  obtain ⟨_, hm⟩ := List.getElem?_eq_some_iff.mp hm
  rw [peers, List.map_set, hp, ← hm, List.set_getElem_self]
  rfl

-- When both loops are over, no step lets anyone in or starts a loop again.
theorem Closed.step (hc : Closed s) (w : Watched net setup s) (h : step net setup s e = some s') :
    Closed s' ∧ peers s' = peers s := by
  have ⟨ht, hq⟩ := hc
  cases e
  case tcpAccept | tcpError | signal =>
    have ⟨hs, _⟩ := Option.ite_none_right_eq_some.mp h
    exact nomatch ht.symm.trans hs
  case quicAccept | quicClosed =>
    have ⟨hs, _⟩ := Option.ite_none_right_eq_some.mp h
    exact nomatch hq.symm.trans hs
  case tcpChanged =>
    have ⟨_, hl, _⟩ := Option.bind_eq_some_iff.mp h
    exact nomatch ht.symm.trans (Option.ite_none_right_eq_some.mp hl).left
  case quicChanged =>
    have ⟨_, hl, _⟩ := Option.bind_eq_some_iff.mp h
    exact nomatch hq.symm.trans (Option.ite_none_right_eq_some.mp hl).left
  case task i e =>
    refine ⟨?_, peers_task w h⟩
    obtain ⟨s, ts⟩ := s
    obtain ⟨s', ts'⟩ := s'
    replace h : (ConnectionTask.step setup.oneOff).interleave (s, ts) (i, e) = some (s', ts') := h
    obtain ⟨t, t', hi, hs, _⟩ := System.interleave_cases h
    have signals := ConnectionTask.step_signals (w.inv.ok t (List.mem_of_getElem? hi)) hs
    refine ⟨signals.tcp ▸ ht, ?_⟩
    rcases signals.quic with he | ⟨ha, _⟩
    · exact he ▸ hq
    · exact nomatch hq.symm.trans ha
  case cleanup =>
    obtain rfl := Option.some_inj.mp h
    exact ⟨hc, rfl⟩

theorem Closed.run (hc : Closed s) (w : Watched net setup s)
    (h : (Lifecycle.step net setup).run s es = some s') : Closed s' ∧ peers s' = peers s := by
  have ⟨_, hc, hp⟩ := System.run_invariant
    (I := fun s₁ => Watched net setup s₁ ∧ Closed s₁ ∧ peers s₁ = peers s)
    (fun ⟨w, hc, hp⟩ h => by
      have ⟨hc, hp'⟩ := hc.step w h
      exact ⟨w.step h, hc, hp'.trans hp⟩) ⟨w, hc, rfl⟩ h
  exact ⟨hc, hp⟩

-- Why a server shuts down, and that it does: a loop which has not seen the shutdown yet is stopped
-- by the next turn of its channel.
structure ShutsDown (net : IpNetwork ν ε) (setup : ServerSetup ν)
    (s : Acceptor × List ConnectionTask) : Prop where
  cause     : s.1.shutdown.value → s.1.signalled ∨ (setup.oneOff ∧ Succeeded s.2)
  passedOn  : setup.oneOff → ∀ t ∈ s.2, t.outcome = some .success →
    t.awaited ∨ s.1.shutdown.value
  tcp       : s.1.tcp.point = .stopped → s.1.shutdown.value ∨ s.1.failed
  quic      : s.1.quic.point = .stopped →
    s.1.shutdown.value ∨ s.1.closed ∨ ¬setup.enableQuic
  tcpStops  : s.1.shutdown.value → s.1.tcp.point = .selecting →
    ∃ s', step net setup s .tcpChanged = some s' ∧ s'.1.tcp.point = .stopped
  quicStops : s.1.shutdown.value → s.1.quic.point = .selecting →
    ∃ s', step net setup s .quicChanged = some s' ∧ s'.1.quic.point = .stopped
  closed    : Closed s → ∀ es s', (step net setup).run s es = some s' →
    Closed s' ∧ peers s' = peers s

theorem changed_eq_some {loop : LoopTask} {shutdown : WatchChannel Bool} {other : Prop}
    (h : loop.Notices shutdown other) (hp : loop.point = .selecting) (hv : shutdown.value)
    (hn : 0 < shutdown.version) :
    loop.changed shutdown = some { point := .stopped, seen := shutdown.version } := by
  have hs : loop.seen = 0 := h.fresh (by rw [hp]; decide)
  rw [LoopTask.changed, if_pos hp, WatchChannel.changed_of_ne (hs ▸ hn.ne), if_pos hv]

theorem Watched.shutsDown (w : Watched net setup s) : ShutsDown net setup s where
  cause     := w.cause
  passedOn ho t ht hs := (w.waits ho t ht).imp id fun ⟨_, h⟩ => h hs
  tcp       := w.tcp.stopped
  quic      := w.quic.stopped
  tcpStops hv hp := by
    have hc := changed_eq_some w.tcp hp hv (w.version.mp hv)
    exact ⟨_, Option.bind_eq_some_iff.mpr ⟨_, hc, rfl⟩, rfl⟩
  quicStops hv hp := by
    have hc := changed_eq_some w.quic hp hv (w.version.mp hv)
    exact ⟨_, Option.bind_eq_some_iff.mpr ⟨_, hc, rfl⟩, rfl⟩
  closed hc _ _ h := hc.run w h

theorem shutdown_run (net : IpNetwork ν ε) (setup : ServerSetup ν) (es : List LifecycleEvent)
    (s : Acceptor × List ConnectionTask) (h : (step net setup).run (init setup) es = some s) :
    ShutsDown net setup s :=
  (System.run_invariant (I := Watched net setup) Watched.step .init h).shutsDown

def finished : List LifecycleEvent :=
  [.task 1 .settle, .tcpChanged, .quicChanged, .task 0 (.connection .dropGuard), .task 0 .settle]

theorem shutdown_run_oneOff : ∃ s, (step hosts oneTest).run (init oneTest) (served ++ finished) = some s ∧
    ShutsDown hosts oneTest s := by
  have h : (step hosts oneTest).run (init oneTest) (served ++ finished) = some _ := rfl
  exact ⟨_, h, shutdown_run hosts oneTest _ _ h⟩

end Lifecycle
