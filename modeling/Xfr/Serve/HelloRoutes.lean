import Xfr.Serve.HelloDispatch

open Utf8 (Text)

namespace Server

variable {ι : Type*} {tests : ι → TestStart} {s s' s'' : Server ι} {x y : ι} {e : Event}

-- The data tasks of a session have been told to stop, or will be as soon as they look.
def Cancelled (s : Server ι) (x : ι) : Prop :=
  (s.cancel x).value = true ∨ (s.cancel x).isOpen = false

-- Cancels are never taken back, and a test which loses its entry is cancelled.
structure Cancels (s s' : Server ι) : Prop where
  cancel      : ∀ x, s'.cancel x = s.cancel x ∨ s'.Cancelled x
  activeTests : ∀ id t, s.activeTests id = some t →
                  s'.activeTests id = some t ∨ s'.Cancelled t.cancelTx

theorem Cancels.cancelled (c : Cancels s s') (h : s.Cancelled x) : s'.Cancelled x := by
  cases c.cancel x
  case inl he => rwa [Cancelled, he]
  case inr h' => exact h'

theorem Cancels.of_eq (hc : s'.cancel = s.cancel) (ht : s'.activeTests = s.activeTests) :
    Cancels s s' where
  cancel _          := .inl (hc ▸ rfl)
  activeTests _ _ h := .inl (ht ▸ h)

theorem Cancels.trans (c : Cancels s s') (c' : Cancels s' s'') : Cancels s s'' where
  cancel x := by
    cases c'.cancel x
    case inr h => exact .inr h
    case inl h =>
      rw [Cancelled, h]
      exact c.cancel x
  activeTests id t h := by
    cases c.activeTests id t h
    case inl h => exact c'.activeTests id t h
    case inr h => exact .inr (c'.cancelled h)

section Operations

variable [DecidableEq ι] {id : Text} {t : ActiveTest ι} {stage : Stage} {paused : Bool}

theorem cancel_sendCancel : (s.sendCancel t).cancel x = s.cancel x ∨ (s.sendCancel t).Cancelled x := by
  by_cases hx : x = t.cancelTx
  case pos => exact .inr <| .inl (by simp [sendCancel, hx, Watch.send])
  case neg => exact .inl (by simp [sendCancel, hx])

theorem cancel_dropTest : (s.dropTest t).cancel x = s.cancel x ∨ (s.dropTest t).Cancelled x := by
  by_cases hx : x = t.cancelTx
  case pos => exact .inr <| .inr (by simp [dropTest, hx, Watch.drop])
  case neg => exact .inl (by simp [dropTest, hx])

theorem cancelled_dropTest : (s.dropTest t).Cancelled t.cancelTx :=
  .inr (by simp [dropTest, Watch.drop])

theorem Cancels.goto : Cancels s (s.goto x stage) :=
  .of_eq rfl rfl

theorem Cancels.signalPause : Cancels s (s.signalPause id paused) where
  activeTests _ _ h := .inl (by simpa using h)
  cancel x := by cases h : s.activeTests id <;> simp [Server.signalPause, sendPause, h]

theorem Cancels.signalCancel : Cancels s (s.signalCancel id) where
  activeTests _ _ h := .inl (by simpa using h)
  cancel x := by
    cases h : s.activeTests id
    case none   => exact .inl (by simp [Server.signalCancel, h])
    case some t => simpa [Server.signalCancel, h] using cancel_sendCancel

theorem Cancels.insert : Cancels s (s.insert id t) where
  cancel x := by
    cases h : s.activeTests id
    case none   => exact .inl (by simp [Server.insert, h])
    case some t' =>
      have hd : (s.insert id t).cancel = (s.dropTest t').cancel := by simp [Server.insert, h]
      simpa [Cancelled, hd] using cancel_dropTest (s := s) (t := t') (x := x)
  activeTests id' t' h := by
    by_cases hid : id' = id
    case neg => exact .inl (by simpa [hid] using h)
    case pos =>
      have hd : (s.insert id t).cancel = (s.dropTest t').cancel := by
        simp [Server.insert, hid ▸ h]
      exact .inr (by simpa [Cancelled, hd] using cancelled_dropTest (s := s) (t := t'))

theorem Cancels.removeActiveTest : Cancels s (s.removeActiveTest id) where
  cancel x := by
    cases h : s.activeTests id
    case none   => exact .inl (by simp [Server.removeActiveTest, h])
    case some t =>
      have hd : (s.removeActiveTest id).cancel = ((s.sendCancel t).dropTest t).cancel := by
        simp [Server.removeActiveTest, h]
      simp only [Cancelled, hd]
      cases cancel_dropTest (s := s.sendCancel t) (t := t) (x := x)
      case inr hc => exact .inr hc
      case inl hc =>
        rw [hc]
        exact cancel_sendCancel
  activeTests id' t' h := by
    by_cases hid : id' = id
    case neg => exact .inl (by simpa [hid] using h)
    case pos =>
      have hd : (s.removeActiveTest id).cancel = ((s.sendCancel t').dropTest t').cancel := by
        simp [Server.removeActiveTest, hid ▸ h]
      exact .inr (by simpa [Cancelled, hd] using cancelled_dropTest (s := s.sendCancel t') (t := t'))

theorem step_cancels (h : step tests s (x, e) = some s') (hd : ∀ i, e ≠ .dataHello i) :
    Cancels s s' := by
  cases step_cases h
  case start        => exact Cancels.insert.trans .goto
  case ackFailed    => exact Cancels.removeActiveTest.trans .goto
  case cleanup      => exact Cancels.removeActiveTest.trans .goto
  case pause        => exact .signalPause
  case resume       => exact .signalPause
  case leave        => exact Cancels.signalCancel.trans .goto
  case stopHandlers => exact .signalCancel
  case dataHello i  => exact absurd rfl (hd i)

end Operations

-- Nobody can take the entry of a test away without a cancel.
def Linked (tests : ι → TestStart) (s : Server ι) (x : ι) : Prop :=
  s.activeTests (tests x).id = some ((tests x).activeTest x) ∨ s.Cancelled x

theorem Linked.after (l : Linked tests s x) (c : Cancels s s') : Linked tests s' x := by
  cases l
  case inl h => exact c.activeTests _ _ h
  case inr h => exact .inr (c.cancelled h)

variable [DecidableEq ι]

theorem Linked.start (h : Server.step tests s (x, .start) = some s') : Linked tests s' x := by
  cases step_cases h
  exact .inl (by simp)

theorem Linked.removed (l : Linked tests s x) :
    (s.removeActiveTest (tests x).id).Cancelled x := by
  cases l
  case inr h => exact Cancels.removeActiveTest.cancelled h
  case inl h =>
    cases Cancels.removeActiveTest.activeTests _ _ h
    case inr h' => exact h'
    case inl h' => simp at h'

end Server

namespace Host

variable {ι : Type*} [DecidableEq ι] {tests : ι → TestStart} {s s' : Host ι} {x y : ι}
  {e : RunEvent} {p q : RunPoint}

-- A call only returns from a test whose tasks have been cancelled.
structure Tied (tests : ι → TestStart) (s : Host ι) : Prop where
  guarded   : s.Guarded
  linked    : ∀ x, (s.point x).stage.IsActive → Server.Linked tests s.server x
  cancelled : ∀ x, (s.point x).stage = .closed → s.server.Cancelled x

omit [DecidableEq ι] in
theorem plan_serve_active {e' : Server.Event} {protocol : Protocol}
    (h : plan protocol p e = some (.serve e' q)) : e' = .start ∨ p.stage.IsActive := by
  cases p <;> cases e <;> simp [plan] at h <;> simp [← h, RunPoint.stage, Stage.IsActive]

theorem goto_point : (s.goto x p).point y = if y = x then p else s.point y := by
  by_cases h : y = x <;> simp [Host.goto, h]

namespace Tied

omit [DecidableEq ι] in
theorem init : Tied tests init where
  guarded       := ⟨nofun, nofun, fun _ _ => rfl, fun _ _ _ => rfl⟩
  linked _ h    := by simp [Host.init, RunPoint.stage, Stage.IsActive] at h
  cancelled _ h := by simp [Host.init, RunPoint.stage] at h

omit [DecidableEq ι] in
theorem storeSocket {token : HelloToken} {i : Nat} (t : s.Tied tests) :
    (s.storeSocket token i).Tied tests where
  guarded   := t.guarded.storeSocket
  linked    := by simpa using t.linked
  cancelled := by simpa using t.cancelled

theorem perform {pl : Plan} (t : s.Tied tests)
    (hp : plan (tests x).protocol (s.point x) e = some pl)
    (h : s.perform tests x pl = some s') : s'.Tied tests := by
  cases pl
  case move p =>
    obtain rfl := Option.some_inj.mp h
    have ⟨hs, hi, hr⟩ := plan_move hp
    have hst (y : ι) : ((s.goto x p).point y).stage = (s.point y).stage := by
      by_cases hy : y = x <;> simp [goto_point, hy, hs]
    exact ⟨t.guarded.goto hi hr, fun y hy => t.linked y (hst y ▸ hy),
      fun y hy => t.cancelled y (hst y ▸ hy)⟩
  case route token =>
    have ⟨⟨hg, hv⟩, h⟩ := Option.ite_none_right_eq_some.mp h
    obtain rfl := Option.some_inj.mp h
    have vacant := Option.isNone_iff_eq_none.mp hv
    exact ⟨t.guarded.registerRoute (plan_route hp) hg vacant, t.linked, t.cancelled⟩
  case serve e' p =>
    have ⟨server, hs, h⟩ := Option.map_eq_some_iff.mp h
    subst h
    have ⟨⟨hst, hi, hr⟩, _, hd⟩ := plan_serve hp
    have cancels := Server.step_cancels hs hd
    have hg : ({ s with server } : Host ι).Guarded :=
      ⟨t.guarded.owner, t.guarded.route, t.guarded.idle, t.guarded.nothing⟩
    refine ⟨hg.goto hi hr, fun y hy => ?_, fun y hy => ?_⟩
    case refine_1 =>
      by_cases hyx : y = x
      case neg => exact (t.linked y (goto_point_of_ne hyx ▸ hy)).after cancels
      case pos =>
        subst hyx
        cases plan_serve_active hp
        case inl he => exact Server.Linked.start (he ▸ hs)
        case inr ha => exact (t.linked y ha).after cancels
    case refine_2 =>
      by_cases hyx : y = x
      case neg => exact cancels.cancelled (t.cancelled y (goto_point_of_ne hyx ▸ hy))
      case pos =>
        subst hyx
        rw [goto_point_self, hst] at hy
        cases plan_serve_active hp
        case inl he => simp [he, Server.Event.stage] at hy
        case inr ha =>
          have linked := t.linked y ha
          cases Server.step_cases hs
          case ackFailed => exact Server.Cancels.goto.cancelled linked.removed
          case cleanup   => exact Server.Cancels.goto.cancelled linked.removed
          all_goals
            simp only [Server.Event.stage, reduceCtorEq] at hy
            try simp [hy, Stage.IsActive] at ha
  case dropGuard b =>
    obtain rfl := Option.some_inj.mp h
    have hu := plan_dropGuard hp
    have hst (y : ι) : (((s.dropGuard x).goto x (.returned b)).point y).stage = (s.point y).stage := by
      by_cases hy : y = x
      case pos =>
        subst hy
        cases b <;> simp [hu, RunPoint.stage]
      case neg => rw [goto_point_of_ne hy, point_dropGuard]
    have hs : ((s.dropGuard x).goto x (.returned b)).server = s.server := server_dropGuard
    exact ⟨t.guarded.dropGuard, fun y hy => hs ▸ t.linked y (hst y ▸ hy),
      fun y hy => hs ▸ t.cancelled y (hst y ▸ hy)⟩

theorem session (t : s.Tied tests) (h : step tests s (.session x e) = some s') :
    s'.Tied tests := by
  rw [step_eq_plan] at h
  have ⟨pl, hp, h⟩ := Option.bind_eq_some_iff.mp h
  exact t.perform hp h

end Tied
end Host

namespace Host

variable {ι : Type*} [DecidableEq ι] {tests : ι → TestStart} {s s' : Host ι} {x y : ι}
  {e : RunEvent} {p q : RunPoint}

-- Apart from the step which adds a route, the calls only take routes away.
structure Advances (s s' : Host ι) : Prop where
  routes : ∀ token r, s'.routes token = some r → s.routes token = some r
  guard  : ∀ y token, s'.guard y = some token → s.guard y = some token
  begun  : ∀ y, (s.point y).stage ≠ .handshake → (s'.point y).stage ≠ .handshake
  early  : ∀ y, s'.point y = .idle ∨ s'.point y = .preparing → s'.guard y = none →
             (s.point y = .idle ∨ s.point y = .preparing) ∧ s.guard y = none

-- A route is added for a call which has none, under a token which is vacant.
structure Registers (tests : ι → TestStart) (s s' : Host ι) (x : ι) (token : HelloToken) : Prop where
  point  : s.point x = .preparing
  guard  : s.guard x = none
  vacant : s.routes token = none
  eq     : s' = s.registerRoute x (tests x) token

omit [DecidableEq ι] in
theorem plan_begun {protocol : Protocol} {e' : Server.Event}
    (h : plan protocol p e = some (.serve e' q)) : q.stage ≠ .handshake ∧ q ≠ .preparing := by
  cases p <;> cases e <;> simp only [plan, reduceCtorEq, Option.some_inj, Plan.serve.injEq,
    Option.ite_none_right_eq_some, and_false] at h <;> obtain ⟨rfl, rfl⟩ := h
  case preparing.register =>
    by_cases hq : protocol = .quic <;> simp [hq, RunPoint.stage]
  case running.reported failed => cases failed <;> simp [RunPoint.stage]
  all_goals simp [RunPoint.stage]

omit [DecidableEq ι] in
theorem plan_move_preparing {protocol : Protocol}
    (h : plan protocol p e = some (.move .preparing)) : p = .idle := by
  cases p <;> cases e <;> simp [plan] at h
  rfl

theorem session_cases (h : step tests s (.session x e) = some s') :
    (∃ token, e = .route token ∧ Registers tests s s' x token) ∨
    ((∀ token, e ≠ .route token) ∧ Advances s s') := by
  rw [step_eq_plan] at h
  obtain ⟨pl, hp, h⟩ := Option.bind_eq_some_iff.mp h
  cases pl
  case route token =>
    obtain ⟨⟨hg, hv⟩, h⟩ := Option.ite_none_right_eq_some.mp h
    have vacant := Option.isNone_iff_eq_none.mp hv
    have he : e = .route token := by
      have hr := plan_route hp
      rw [hr] at hp
      cases e <;> simp [plan] at hp
      rw [hp.right]
    exact .inl ⟨token, he, plan_route hp, hg, vacant, (Option.some_inj.mp h).symm⟩
  case move p =>
    obtain rfl := Option.some_inj.mp h
    obtain ⟨hs, hi, _⟩ := plan_move hp
    refine .inr ⟨fun token he => ?_, fun _ _ hr => hr, fun _ _ hg => hg, fun y hy => ?_,
      fun y hy hg => ?_⟩
    · subst he
      cases hx : s.point x <;> simp [plan, hx] at hp
    · by_cases hyx : y = x
      case neg => rwa [goto_point_of_ne hyx]
      case pos => rwa [hyx, goto_point_self, hs, ← hyx]
    · by_cases hyx : y = x
      case neg => exact ⟨goto_point_of_ne hyx ▸ hy, hg⟩
      case pos =>
        subst hyx
        rw [goto_point_self] at hy
        have hp' : p = .preparing := hy.resolve_left hi
        exact ⟨.inl (plan_move_preparing (hp' ▸ hp)), hg⟩
  case serve e' p =>
    obtain ⟨server, hs, h⟩ := Option.map_eq_some_iff.mp h
    subst h
    obtain ⟨⟨_, hi, _⟩, _, _⟩ := plan_serve hp
    obtain ⟨hb, hn⟩ := plan_begun hp
    refine .inr ⟨fun token he => ?_, fun _ _ hr => hr, fun _ _ hg => hg, fun y hy => ?_,
      fun y hy hg => ?_⟩
    · subst he
      cases hx : s.point x <;> simp [plan, hx] at hp
    · by_cases hyx : y = x
      case neg => rwa [goto_point_of_ne hyx]
      case pos => rwa [hyx, goto_point_self]
    · by_cases hyx : y = x
      case neg => exact ⟨goto_point_of_ne (s := { s with server }) hyx ▸ hy, hg⟩
      case pos =>
        subst hyx
        rw [goto_point_self] at hy
        exact absurd hy (by simp [hi, hn])
  case dropGuard b =>
    obtain rfl := Option.some_inj.mp h
    have hu := plan_dropGuard hp
    have hroutes (token : HelloToken) : (s.dropGuard x).routes token = none ∨
        (s.dropGuard x).routes token = s.routes token := by
      unfold Host.dropGuard
      split
      case h_1 => exact .inr rfl
      case h_2 token' _ =>
        by_cases ht : token = token' <;> simp [ht]
    have hguard (y : ι) : (s.dropGuard x).guard y = if y = x then none else s.guard y := by
      rw [guard_dropGuard]
      by_cases hyx : y = x <;> simp [hyx]
    refine .inr ⟨fun token he => ?_, fun token r hr => ?_, fun y token hg => ?_, fun y hy => ?_,
      fun y hy hg => ?_⟩
    · subst he
      simp [plan, hu] at hp
    · cases hroutes token
      case inl hn => exact absurd (hn.symm.trans hr) (by simp)
      case inr he => exact he ▸ hr
    · have hg := (hguard y).symm.trans hg
      split at hg
      case isTrue  => simp at hg
      case isFalse => exact hg
    · by_cases hyx : y = x
      case neg => rwa [goto_point_of_ne hyx, point_dropGuard]
      case pos =>
        subst hyx
        rw [hu] at hy
        cases b <;> simp_all [RunPoint.stage]
    · by_cases hyx : y = x
      case pos => simp [hyx] at hy
      case neg =>
        rw [goto_point_of_ne hyx, point_dropGuard] at hy
        exact ⟨hy, by simpa [hyx] using (hguard y).symm.trans hg⟩

end Host
