import Xfr.Serve.Isolation
import Xfr.Serve.TestRun

open Utf8 (Text)

section Update

variable {κ α : Type*} [DecidableEq κ] {f : κ → Option α} {k k' : κ} {v w : α}

theorem update_some_eq_some :
    Function.update f k (some v) k' = some w ↔ (k' = k ∧ v = w) ∨ (k' ≠ k ∧ f k' = some w) := by
  by_cases h : k' = k <;> simp [h]

theorem update_none_eq_some : Function.update f k none k' = some w ↔ k' ≠ k ∧ f k' = some w := by
  by_cases h : k' = k <;> simp [h]

end Update

namespace Server

variable {ι : Type*} [DecidableEq ι] {tests : ι → TestStart} {s s' s₁ : Server ι} {x y : ι}
  {e : Event}

-- What a step does to the stage and to the channels of its own session.
def Event.stage (stage : Stage) : Event → Stage
  | start               => .running
  | leave               => .left
  | ackFailed | cleanup => .closed
  | _                   => stage

def Event.cancel (w : Watch) : Event → Watch
  | ackFailed | cleanup  => (w.send true).drop
  | leave | stopHandlers => w.send true
  | _                    => w

def Event.pause' (w : Watch) : Event → Watch
  | ackFailed | cleanup => w.drop
  | pause               => w.send true
  | resume              => w.send false
  | _                   => w

structure Own (s : Server ι) (x : ι) (e : Event) (s' : Server ι) : Prop where
  stage  : s'.stage x = e.stage (s.stage x)
  cancel : s'.cancel x = e.cancel (s.cancel x)
  pause  : s'.pause x = e.pause' (s.pause x)

section Channels

variable {t : TestStart} {id : Text} {paused : Bool}

theorem signalCancel_own (h : s.activeTests id = some (t.activeTest x)) :
    (s.signalCancel id).cancel x = (s.cancel x).send true ∧
      (s.signalCancel id).pause x = s.pause x := by
  simp only [signalCancel, h, Option.elim_some]
  exact ⟨Function.update_self .., rfl⟩

theorem signalPause_own (h : s.activeTests id = some (t.activeTest x)) :
    (s.signalPause id paused).cancel x = s.cancel x ∧
      (s.signalPause id paused).pause x = (s.pause x).send paused := by
  simp only [signalPause, h, Option.elim_some]
  exact ⟨rfl, Function.update_self ..⟩

-- The last signal, after which there is nobody to send any more.
theorem removeActiveTest_own (h : s.activeTests id = some (t.activeTest x)) :
    (s.removeActiveTest id).cancel x = ((s.cancel x).send true).drop ∧
      (s.removeActiveTest id).pause x = (s.pause x).drop := by
  simp [removeActiveTest, h, sendCancel, dropTest, TestStart.activeTest]

theorem routeDataHello_own {peerIp : IpAddr} {i : Nat} :
    (s.routeDataHello x peerIp id i).cancel x = s.cancel x ∧
      (s.routeDataHello x peerIp id i).pause x = s.pause x := by
  unfold routeDataHello
  repeat' split
  all_goals exact ⟨rfl, rfl⟩

end Channels

theorem step_own (h : Exclusive tests s) (fit : fits tests s (x, e))
    (step : Step tests s x e s') : Own s x e s' := by
  have entry (hx : (s.stage x).IsActive) := h.entry hx
  have goto {s' : Server ι} {stage : Stage} : (s'.goto x stage).stage x = stage :=
    Function.update_self ..
  cases step
  case start hs =>
    have vacant : s.activeTests (tests x).id = none := Option.isNone_iff_eq_none.mp fit
    refine ⟨goto, ?_, ?_⟩ <;> simp only [insert, vacant, Option.elim_none] <;> rfl
  case ackFailed hs =>
    obtain ⟨hc, hp⟩ := removeActiveTest_own (entry (.inl hs))
    exact ⟨goto, hc, hp⟩
  case cleanup hs =>
    obtain ⟨hc, hp⟩ := removeActiveTest_own (entry (.inr hs))
    exact ⟨goto, hc, hp⟩
  case pause hs =>
    have hx := entry (.inl hs)
    exact ⟨congrFun signalPause_stage x, (signalPause_own hx).left, (signalPause_own hx).right⟩
  case resume hs =>
    have hx := entry (.inl hs)
    exact ⟨congrFun signalPause_stage x, (signalPause_own hx).left, (signalPause_own hx).right⟩
  case leave hs =>
    obtain ⟨hc, hp⟩ := signalCancel_own (entry (.inl hs))
    exact ⟨goto, hc, hp⟩
  case stopHandlers hs =>
    obtain ⟨hc, hp⟩ := signalCancel_own (entry (.inr hs))
    exact ⟨congrFun signalCancel_stage x, hc, hp⟩
  case dataHello i =>
    obtain ⟨hc, hp⟩ := @routeDataHello_own ι _ s x (tests x).id (tests x).peerIp i
    exact ⟨congrFun routeDataHello_stage x, hc, hp⟩

theorem step_stage_of_ne (step : Step tests s x e s') (hy : y ≠ x) : s'.stage y = s.stage y := by
  cases step <;> simp [hy]

theorem step_enabled (hs : s₁.stage x = s.stage x) (h : step tests s (x, e) = some s') :
    ∃ s₁', step tests s₁ (x, e) = some s₁' := by
  cases e <;> cases hx : s.stage x <;> simp_all [step]

-- The other sessions are where they are, and this one has no test on the other server.
structure Without (x : ι) (s s₁ : Server ι) : Prop where
  stage  : ∀ y ≠ x, s₁.stage y = s.stage y
  cancel : ∀ y ≠ x, s₁.cancel y = s.cancel y
  pause  : ∀ y ≠ x, s₁.pause y = s.pause y
  away   : ¬(s₁.stage x).IsActive

namespace Without

omit [DecidableEq ι] in
theorem vacant {id : Text} (w : Without x s s₁) (h : Exclusive tests s) (h₁ : Exclusive tests s₁)
    (hid : s.activeTests id = none) : s₁.activeTests id = none := by
  apply Option.eq_none_iff_forall_ne_some.mpr
  intro t ht
  have ⟨y, hy, hyt, active⟩ := (h₁ id t).mp ht
  have hne : y ≠ x := fun hyx => w.away (hyx ▸ active)
  have := (h id t).mpr ⟨y, hy, hyt, w.stage y hne ▸ active⟩
  simp [hid] at this

theorem activeTests_eq (w : Without x s s₁) (h : Exclusive tests s) (h₁ : Exclusive tests s₁)
    (away : ¬(s.stage x).IsActive) : s₁.activeTests = s.activeTests := by
  funext id
  apply Option.ext
  intro t
  rw [h₁ id t, h id t]
  apply exists_congr
  intro y
  by_cases hy : y = x
  case pos => simp [hy, w.away, away]
  case neg => rw [w.stage y hy]

theorem own (w : Without x s s₁) (h : Exclusive tests s) (fit : fits tests s (x, e))
    (step : Step tests s x e s') : Without x s' s₁ where
  stage y hy  := (w.stage y hy).trans (step_stage_of_ne step hy).symm
  cancel y hy := (w.cancel y hy).trans ((step_spares h fit step).cancel y hy).symm
  pause y hy  := (w.pause y hy).trans ((step_spares h fit step).pause y hy).symm
  away        := w.away

theorem other (w : Without x s s₁) (h : Exclusive tests s) (h₁ : Exclusive tests s₁) (hy : y ≠ x)
    (fit : fits tests s (y, e)) (fit₁ : fits tests s₁ (y, e))
    (hs : Server.step tests s (y, e) = some s') :
    ∃ s₁', Server.step tests s₁ (y, e) = some s₁' ∧ Without x s' s₁' := by
  have ⟨s₁', hs₁⟩ := step_enabled (w.stage y hy) hs
  have step := step_cases hs
  have step₁ := step_cases hs₁
  have own := step_own h fit step
  have own₁ := step_own h₁ fit₁ step₁
  have spares := step_spares h fit step
  have spares₁ := step_spares h₁ fit₁ step₁
  refine ⟨s₁', hs₁, ?_, ?_, ?_, ?_⟩
  case refine_1 =>
    intro z hz
    by_cases hzy : z = y
    case pos => rw [hzy, own.stage, own₁.stage, w.stage y hy]
    case neg => rw [step_stage_of_ne step hzy, step_stage_of_ne step₁ hzy, w.stage z hz]
  case refine_2 =>
    intro z hz
    by_cases hzy : z = y
    case pos => rw [hzy, own.cancel, own₁.cancel, w.cancel y hy]
    case neg => rw [spares.cancel z hzy, spares₁.cancel z hzy, w.cancel z hz]
  case refine_3 =>
    intro z hz
    by_cases hzy : z = y
    case pos => rw [hzy, own.pause, own₁.pause, w.pause y hy]
    case neg => rw [spares.pause z hzy, spares₁.pause z hzy, w.pause z hz]
  case refine_4 => exact step_stage_of_ne step₁ hy.symm ▸ w.away

end Without

end Server

-- The stage of a session on the server.
def RunPoint.stage : RunPoint → Stage
  | idle | preparing | unwinding false | returned false => .handshake
  | registered | running                                => .running
  | reported | stopped | finished                       => .left
  | unwinding true | returned true                      => .closed

namespace Host

variable {ι : Type*} [DecidableEq ι] {tests : ι → TestStart} {s s' s₁ : Host ι} {x y : ι}
  {e : RunEvent} {p q : RunPoint}

-- There is a guard for a route, and only in the middle of a call.
structure Guarded (s : Host ι) : Prop where
  owner   : ∀ token r, s.routes token = some r → s.guard r.socketTx = some token
  route   : ∀ y token, s.guard y = some token → ∃ r, s.routes token = some r ∧ r.socketTx = y
  idle    : ∀ y, s.point y = .idle → s.guard y = none
  nothing : ∀ y b, s.point y = .returned b → s.guard y = none

structure Inv (tests : ι → TestStart) (s : Host ι) : Prop where
  exclusive : Server.Exclusive tests s.server
  stage     : ∀ y, s.server.stage y = (s.point y).stage
  cancelled : ∀ y, s.server.stage y = .closed → (s.server.cancel y).value = true
  guarded   : s.Guarded

-- What a call does next.
inductive Plan
  | move (p : RunPoint)
  | route (token : HelloToken)
  | serve (e : Server.Event) (p : RunPoint)
  | dropGuard (registered : Bool)

def plan (protocol : Protocol) : RunPoint → RunEvent → Option Plan
  | .idle,      .call            => some (.move .preparing)
  | .preparing, .route token     => if protocol = .udp then some (.route token) else none
  | .preparing, .prepareFailed   => some (.move (.unwinding false))
  | .preparing, .register        =>
    some (.serve .start (if protocol = .quic then .running else .registered))
  | .registered, .ackFailed _    => some (.serve .ackFailed (.unwinding true))
  | .registered, .ackWritten     => some (.move .running)
  | .running,   .pause           => some (.serve .pause .running)
  | .running,   .resume          => some (.serve .resume .running)
  | .running,   .reported failed => some (.serve .leave (if failed then .finished else .reported))
  | .reported,  .stopHandlers    => some (.serve .stopHandlers .stopped)
  | .stopped,   .finish _        => some (.move .finished)
  | .finished,  .cleanup         => some (.serve .cleanup (.unwinding true))
  | .unwinding b, .dropGuard     => some (.dropGuard b)
  | _, _                         => none

def perform (tests : ι → TestStart) (s : Host ι) (x : ι) : Plan → Option (Host ι)
  | .move p      => some (s.goto x p)
  | .route token =>
    if s.guard x = none ∧ (s.routes token).isNone then
      some (s.registerRoute x (tests x) token)
    else
      none
  | .serve e p   => s.serve tests x e p
  | .dropGuard b => some ((s.dropGuard x).goto x (.returned b))

theorem step_eq_plan : step tests s (.session x e) =
    (plan (tests x).protocol (s.point x) e).bind (s.perform tests x) := by
  cases hp : s.point x <;> cases e <;> simp only [step, plan, hp, Option.bind_none, Option.bind_some,
    perform]
  case preparing.route token =>
    by_cases h : (tests x).protocol = .udp <;> simp [h, perform]

section Plan

variable {protocol : Protocol}

theorem plan_move (h : plan protocol p e = some (.move q)) :
    q.stage = p.stage ∧ q ≠ .idle ∧ ∀ b, q ≠ .returned b := by
  cases p <;> cases e <;> simp [plan] at h <;> subst h <;> simp [RunPoint.stage]

theorem plan_route {token : HelloToken} (h : plan protocol p e = some (.route token)) :
    p = .preparing := by
  cases p <;> cases e <;> simp [plan] at h
  rfl

theorem plan_dropGuard {b : Bool} (h : plan protocol p e = some (.dropGuard b)) :
    p = .unwinding b := by
  cases p <;> cases e <;> simp [plan] at h
  rw [h]

theorem plan_serve {e' : Server.Event} (h : plan protocol p e = some (.serve e' q)) :
    (q.stage = e'.stage p.stage ∧ q ≠ .idle ∧ ∀ b, q ≠ .returned b) ∧
      (e' = .start → e = .register) ∧ ∀ i, e' ≠ .dataHello i := by
  cases p <;> cases e <;> simp only [plan, reduceCtorEq, Option.some_inj, Plan.serve.injEq,
    Option.ite_none_right_eq_some, and_false] at h <;> obtain ⟨rfl, rfl⟩ := h
  case preparing.register =>
    by_cases hq : protocol = .quic <;> simp [hq, RunPoint.stage, Server.Event.stage]
  case running.reported failed =>
    cases failed <;> simp [RunPoint.stage, Server.Event.stage]
  all_goals simp [RunPoint.stage, Server.Event.stage]

end Plan

theorem goto_point_of_ne (hy : y ≠ x) : (s.goto x p).point y = s.point y :=
  Function.update_of_ne hy ..

@[simp]
theorem goto_point_self : (s.goto x p).point x = p :=
  Function.update_self ..

@[simp]
theorem point_dropGuard : (s.dropGuard x).point = s.point := by
  unfold dropGuard
  split <;> rfl

@[simp]
theorem server_dropGuard : (s.dropGuard x).server = s.server := by
  unfold dropGuard
  split <;> rfl

-- After a call there is neither its guard nor its route.
theorem guard_dropGuard : (s.dropGuard x).guard = Function.update s.guard x none := by
  unfold dropGuard
  split
  case h_1 h => exact (Function.update_eq_self_iff.mpr h.symm).symm
  case h_2   => rfl

theorem routes_dropGuard {token : HelloToken} {r : UdpHelloRoute ι} (h : s.Guarded) :
    (s.dropGuard x).routes token = some r ↔ s.routes token = some r ∧ r.socketTx ≠ x := by
  unfold dropGuard
  split
  case h_1 hg =>
    have hne (hr : s.routes token = some r) : r.socketTx ≠ x :=
      fun hx => by simpa [hx, hg] using h.owner token r hr
    exact ⟨fun hr => ⟨hr, hne hr⟩, And.left⟩
  case h_2 token' hg =>
    have ⟨r', hr', ho⟩ := h.route x token' hg
    by_cases ht : token = token'
    case pos =>
      subst ht
      have hn : s.routes token = some r → r.socketTx = x :=
        fun hr => Option.some_inj.mp (hr'.symm.trans hr) ▸ ho
      simp only [Function.update_self, reduceCtorEq, false_iff]
      exact fun ⟨hr, hne⟩ => hne (hn hr)
    case neg =>
      have hne (hr : s.routes token = some r) : r.socketTx ≠ x := by
        intro hx
        have := h.owner token r hr
        exact ht (Option.some_inj.mp ((hx ▸ this).symm.trans hg))
      simp only [Function.update_of_ne ht]
      exact ⟨fun hr => ⟨hr, hne hr⟩, And.left⟩

namespace Guarded

-- Only the guards of calls which begin and end are looked at.
theorem goto (h : s.Guarded) (idle : p ≠ .idle) (returned : ∀ b, p ≠ .returned b) :
    (s.goto x p).Guarded where
  owner := h.owner
  route := h.route
  idle y hy := by
    by_cases hyx : y = x
    case pos => exact absurd (by simpa [hyx] using hy) idle
    case neg => exact h.idle y (goto_point_of_ne hyx ▸ hy)
  nothing y b hy := by
    by_cases hyx : y = x
    case pos => exact absurd (by simpa [hyx] using hy) (returned b)
    case neg => exact h.nothing y b (goto_point_of_ne hyx ▸ hy)

omit [DecidableEq ι] in
theorem storeSocket {token : HelloToken} {i : Nat} (h : s.Guarded) :
    (s.storeSocket token i).Guarded := by
  unfold Host.storeSocket
  split
  case h_1 => exact h
  case h_2 r hr =>
    refine ⟨fun token' r' hr' => ?_, fun y token' hy => ?_, h.idle, h.nothing⟩
    case refine_1 =>
      rcases update_some_eq_some.mp hr' with ⟨rfl, rfl⟩ | ⟨_, hr'⟩
      · exact h.owner token' r hr
      · exact h.owner token' r' hr'
    case refine_2 =>
      have ⟨r', hr', ho⟩ := h.route y token' hy
      by_cases ht : token' = token
      case pos =>
        subst ht
        obtain rfl := Option.some_inj.mp (hr.symm.trans hr')
        exact ⟨_, Function.update_self .., ho⟩
      case neg => exact ⟨r', (Function.update_of_ne ht ..).trans hr', ho⟩

theorem registerRoute {token : HelloToken} {t : TestStart} (h : s.Guarded)
    (hp : s.point x = .preparing) (hg : s.guard x = none) (vacant : s.routes token = none) :
    (s.registerRoute x t token).Guarded where
  owner token' r hr := by
    rcases update_some_eq_some.mp hr with ⟨rfl, rfl⟩ | ⟨_, hr⟩
    case inl => exact Function.update_self ..
    case inr =>
      have hr := h.owner token' r hr
      have hne : r.socketTx ≠ x := fun hx => by simp [hx, hg] at hr
      exact (Function.update_of_ne hne ..).trans hr
  route y token' hy := by
    rcases update_some_eq_some.mp hy with ⟨rfl, rfl⟩ | ⟨_, hy⟩
    case inl => exact ⟨_, Function.update_self .., rfl⟩
    case inr =>
      have ⟨r, hr, ho⟩ := h.route y token' hy
      have hne : token' ≠ token := fun ht => by simp [ht, vacant] at hr
      exact ⟨r, (Function.update_of_ne hne ..).trans hr, ho⟩
  idle y hy := by
    have hne : y ≠ x := fun hx => by subst hx; exact nomatch hp.symm.trans hy
    exact (Function.update_of_ne hne ..).trans (h.idle y hy)
  nothing y b hy := by
    have hne : y ≠ x := fun hx => by subst hx; exact nomatch hp.symm.trans hy
    exact (Function.update_of_ne hne ..).trans (h.nothing y b hy)

theorem dropGuard {b : Bool} (h : s.Guarded) :
    ((s.dropGuard x).goto x (.returned b)).Guarded where
  owner token r hr := by
    have ⟨hr, hne⟩ := (routes_dropGuard h).mp hr
    exact (congrFun guard_dropGuard _).trans <|
      (Function.update_of_ne hne ..).trans (h.owner token r hr)
  route y token hy := by
    have ⟨hyx, hy⟩ := update_none_eq_some.mp ((congrFun guard_dropGuard y).symm.trans hy)
    have ⟨r, hr, ho⟩ := h.route y token hy
    exact ⟨r, (routes_dropGuard h).mpr ⟨hr, ho ▸ hyx⟩, ho⟩
  idle y hy := by
    have hyx : y ≠ x := fun hx => by simp [hx] at hy
    rw [goto_point_of_ne hyx, point_dropGuard] at hy
    exact (congrFun guard_dropGuard y).trans <|
      (Function.update_of_ne hyx ..).trans (h.idle y hy)
  nothing y b' hy := by
    by_cases hyx : y = x
    case pos => exact (congrFun guard_dropGuard y).trans (hyx ▸ Function.update_self ..)
    case neg =>
      rw [goto_point_of_ne hyx, point_dropGuard] at hy
      exact (congrFun guard_dropGuard y).trans <|
        (Function.update_of_ne hyx ..).trans (h.nothing y b' hy)

end Guarded

section StoreSocket

omit [DecidableEq ι]

variable {token token' : HelloToken} {i : Nat} {r : UdpHelloRoute ι}

@[simp]
theorem server_storeSocket : (s.storeSocket token i).server = s.server := by
  unfold storeSocket
  split <;> rfl

@[simp]
theorem point_storeSocket : (s.storeSocket token i).point = s.point := by
  unfold storeSocket
  split <;> rfl

@[simp]
theorem guard_storeSocket : (s.storeSocket token i).guard = s.guard := by
  unfold storeSocket
  split <;> rfl

-- A route which gets a socket stays with its session.
theorem routes_storeSocket : (s.storeSocket token i).routes token' = some r ↔
    ∃ r', s.routes token' = some r' ∧
      r = if token' = token then { r' with sockets := r'.sockets.set i true } else r' := by
  unfold storeSocket
  split
  case h_1 h =>
    by_cases ht : token' = token
    case pos => simp [ht, h]
    case neg => simp [ht, eq_comm]
  case h_2 r₀ h =>
    rw [update_some_eq_some]
    by_cases ht : token' = token
    case pos => simp [ht, h, eq_comm]
    case neg => simp [ht, eq_comm]

end StoreSocket

-- The cancel signal of a test which was removed is raised.
theorem cancel_of_closed {e' : Server.Event} {server : Server ι}
    (h : Server.Exclusive tests s.server) (fit : Server.fits tests s.server (x, e'))
    (hc : ∀ y, s.server.stage y = .closed → (s.server.cancel y).value = true)
    (step : Server.Step tests s.server x e' server) (hd : ∀ i, e' ≠ .dataHello i) (y : ι)
    (hy : server.stage y = .closed) : (server.cancel y).value = true := by
  by_cases hyx : y = x
  case neg =>
    rw [(Server.step_spares h fit step).cancel y hyx]
    exact hc y (Server.step_stage_of_ne step hyx ▸ hy)
  case pos =>
    subst hyx
    have own := Server.step_own h fit step
    rw [own.cancel]
    rw [own.stage] at hy
    cases step
    case ackFailed | cleanup => rfl
    case start | leave => cases hy
    case pause hs | resume hs | stopHandlers hs => exact nomatch hs.symm.trans hy
    case dataHello i => exact absurd rfl (hd i)

theorem fits_server {e' : Server.Event} (fit : fits tests s (.session x e))
    (start : e' = .start → e = .register) (dataHello : ∀ i, e' ≠ .dataHello i) :
    Server.fits tests s.server (x, e') = true := by
  cases e'
  case start =>
    obtain rfl := start rfl
    exact fit
  case dataHello i => exact absurd rfl (dataHello i)
  all_goals rfl

namespace Inv

omit [DecidableEq ι] in
theorem init : Inv tests Host.init where
  exclusive   := .init
  stage _     := rfl
  cancelled _ := nofun
  guarded     := ⟨nofun, nofun, fun _ _ => rfl, fun _ _ _ => rfl⟩

theorem perform {pl : Plan} (inv : Inv tests s) (fit : fits tests s (.session x e))
    (hp : plan (tests x).protocol (s.point x) e = some pl)
    (h : s.perform tests x pl = some s') : Inv tests s' := by
  cases pl
  case move p =>
    obtain rfl := Option.some_inj.mp h
    have ⟨hs, hi, hr⟩ := plan_move hp
    refine ⟨inv.exclusive, fun y => ?_, inv.cancelled, inv.guarded.goto hi hr⟩
    by_cases hyx : y = x
    case pos => rw [hyx, goto_point_self, hs]; exact inv.stage x
    case neg => rw [goto_point_of_ne hyx]; exact inv.stage y
  case route token =>
    have ⟨⟨hg, hv⟩, h⟩ := Option.ite_none_right_eq_some.mp h
    obtain rfl := Option.some_inj.mp h
    have vacant := Option.isNone_iff_eq_none.mp hv
    exact ⟨inv.exclusive, inv.stage, inv.cancelled,
      inv.guarded.registerRoute (plan_route hp) hg vacant⟩
  case serve e' p =>
    have ⟨server, hs, h⟩ := Option.map_eq_some_iff.mp h
    subst h
    have ⟨⟨hst, hi, hr⟩, hstart, hd⟩ := plan_serve hp
    have fit := fits_server fit hstart hd
    have step := Server.step_cases hs
    refine ⟨Server.step_exclusive inv.exclusive fit step, fun y => ?_,
      cancel_of_closed inv.exclusive fit inv.cancelled step hd, ?_⟩
    case refine_1 =>
      by_cases hyx : y = x
      case pos =>
        rw [hyx, goto_point_self, hst, ← inv.stage x]
        exact (Server.step_own inv.exclusive fit step).stage
      case neg =>
        rw [goto_point_of_ne hyx]
        exact (Server.step_stage_of_ne step hyx).trans (inv.stage y)
    case refine_2 =>
      have hg : ({ s with server } : Host ι).Guarded :=
        ⟨inv.guarded.owner, inv.guarded.route, inv.guarded.idle, inv.guarded.nothing⟩
      exact hg.goto hi hr
  case dropGuard b =>
    obtain rfl := Option.some_inj.mp h
    have hu := plan_dropGuard hp
    have hs : ((s.dropGuard x).goto x (.returned b)).server = s.server := server_dropGuard
    refine ⟨hs ▸ inv.exclusive, fun y => ?_, hs ▸ inv.cancelled, inv.guarded.dropGuard⟩
    rw [hs, inv.stage y]
    by_cases hyx : y = x
    case pos => rw [hyx, goto_point_self, hu]; cases b <;> rfl
    case neg => rw [goto_point_of_ne hyx, point_dropGuard]

theorem step {e : HostEvent ι} (inv : Inv tests s) (fit : fits tests s e)
    (h : step tests s e = some s') : Inv tests s' := by
  cases e
  case store token i =>
    obtain rfl := Option.some_inj.mp h
    exact ⟨by simpa using inv.exclusive, by simpa using inv.stage, by simpa using inv.cancelled,
      inv.guarded.storeSocket⟩
  case session x e =>
    rw [step_eq_plan] at h
    have ⟨pl, hp, h⟩ := Option.bind_eq_some_iff.mp h
    exact inv.perform fit hp h

theorem run {events : List (HostEvent ι)} (inv : Inv tests s)
    (h : ((Host.step tests).guard (fits tests)).run s events = some s') : Inv tests s' := by
  refine System.run_invariant (I := Inv tests) (fun {s e s'} inv hs => ?_) inv h
  have ⟨fit, hs⟩ := System.guard_eq_some.mp hs
  exact inv.step fit hs

end Inv

-- The same host without one of its calls.
structure Without (x : ι) (s s₁ : Host ι) : Prop where
  server : Server.Without x s.server s₁.server
  point  : ∀ y ≠ x, s₁.point y = s.point y
  guard  : ∀ y ≠ x, s₁.guard y = s.guard y
  routes : ∀ token r, s₁.routes token = some r ↔ s.routes token = some r ∧ r.socketTx ≠ x

namespace Without

omit [DecidableEq ι] in
theorem vacant {token : HelloToken} (w : Without x s s₁) (h : s.routes token = none) :
    s₁.routes token = none := by
  apply Option.eq_none_iff_forall_ne_some.mpr
  intro r hr
  simpa [h] using (w.routes token r).mp hr

theorem goto_other (w : Without x s s₁) : Without x (s.goto y p) (s₁.goto y p) where
  server  := w.server
  guard   := w.guard
  routes  := w.routes
  point z hz := by
    by_cases hzy : z = y
    case pos => rw [hzy, goto_point_self, goto_point_self]
    case neg => rw [goto_point_of_ne hzy, goto_point_of_ne hzy, w.point z hz]

theorem goto_own (w : Without x s s₁) : Without x (s.goto x p) s₁ where
  server     := w.server
  guard      := w.guard
  routes     := w.routes
  point z hz := (w.point z hz).trans (goto_point_of_ne hz).symm

theorem own {pl : Plan} (w : Without x s s₁) (inv : Inv tests s)
    (fit : fits tests s (.session x e)) (hp : plan (tests x).protocol (s.point x) e = some pl)
    (h : s.perform tests x pl = some s') : Without x s' s₁ := by
  cases pl
  case move p =>
    obtain rfl := Option.some_inj.mp h
    exact w.goto_own
  case route token =>
    have ⟨⟨_, hv⟩, h⟩ := Option.ite_none_right_eq_some.mp h
    obtain rfl := Option.some_inj.mp h
    have vacant := Option.isNone_iff_eq_none.mp hv
    refine ⟨w.server, w.point, fun y hy => (w.guard y hy).trans (Function.update_of_ne hy ..).symm,
      fun token' r => ?_⟩
    rw [w.routes token' r, registerRoute, update_some_eq_some]
    constructor
    case mp  =>
      intro ⟨hr, hne⟩
      exact ⟨.inr ⟨fun ht => by simp [ht, vacant] at hr, hr⟩, hne⟩
    case mpr =>
      rintro ⟨⟨_, rfl⟩ | ⟨_, hr⟩, hne⟩
      · exact absurd rfl hne
      · exact ⟨hr, hne⟩
  case serve e' p =>
    have ⟨server, hs, h⟩ := Option.map_eq_some_iff.mp h
    subst h
    have ⟨_, hstart, hd⟩ := plan_serve hp
    have fit := fits_server fit hstart hd
    have ws := w.server.own inv.exclusive fit (Server.step_cases hs)
    have w' : Without x { s with server } s₁ := ⟨ws, w.point, w.guard, w.routes⟩
    exact w'.goto_own
  case dropGuard b =>
    obtain rfl := Option.some_inj.mp h
    have w' : Without x (s.dropGuard x) s₁ := by
      refine ⟨by rw [server_dropGuard]; exact w.server, by rw [point_dropGuard]; exact w.point,
        fun y hy => ?_, fun token r => ?_⟩
      · exact (w.guard y hy).trans
          ((congrFun guard_dropGuard y).trans (Function.update_of_ne hy ..)).symm
      · rw [w.routes token r, routes_dropGuard inv.guarded, and_assoc, and_self_iff]
    exact w'.goto_own

theorem other {pl : Plan} (w : Without x s s₁) (inv : Inv tests s) (inv₁ : Inv tests s₁)
    (hy : y ≠ x) (fit : fits tests s (.session y e))
    (hp : plan (tests y).protocol (s.point y) e = some pl)
    (h : s.perform tests y pl = some s') :
    fits tests s₁ (.session y e) ∧ ∃ s₁', s₁.perform tests y pl = some s₁' ∧ Without x s' s₁' := by
  have fit₁ : fits tests s₁ (.session y e) = true := by
    cases e
    case register =>
      apply Option.isNone_iff_eq_none.mpr
      exact w.server.vacant inv.exclusive inv₁.exclusive (Option.isNone_iff_eq_none.mp fit)
    all_goals rfl
  refine ⟨fit₁, ?_⟩
  cases pl
  case move p =>
    obtain rfl := Option.some_inj.mp h
    exact ⟨_, rfl, w.goto_other⟩
  case route token =>
    have ⟨⟨hg, hv⟩, h⟩ := Option.ite_none_right_eq_some.mp h
    obtain rfl := Option.some_inj.mp h
    have vacant := Option.isNone_iff_eq_none.mp hv
    have vacant₁ := w.vacant vacant
    refine ⟨_, if_pos ⟨(w.guard y hy).trans hg, by simp [vacant₁]⟩, w.server, w.point,
      fun z hz => ?_, fun token' r => ?_⟩
    case refine_1 =>
      simp only [registerRoute]
      by_cases hzy : z = y
      case pos => rw [hzy, Function.update_self, Function.update_self]
      case neg => rw [Function.update_of_ne hzy, Function.update_of_ne hzy, w.guard z hz]
    case refine_2 =>
      rw [registerRoute, registerRoute, update_some_eq_some, update_some_eq_some, w.routes]
      constructor
      case mp =>
        rintro (⟨rfl, rfl⟩ | ⟨ht, hr, hne⟩)
        · exact ⟨.inl ⟨rfl, rfl⟩, hy⟩
        · exact ⟨.inr ⟨ht, hr⟩, hne⟩
      case mpr =>
        rintro ⟨h | ⟨ht, hr⟩, hne⟩
        · exact .inl h
        · exact .inr ⟨ht, hr, hne⟩
  case serve e' p =>
    have ⟨server, hs, h⟩ := Option.map_eq_some_iff.mp h
    subst h
    have ⟨_, hstart, hd⟩ := plan_serve hp
    have ⟨server₁, hs₁, ws⟩ := w.server.other inv.exclusive inv₁.exclusive hy
      (fits_server fit hstart hd) (fits_server fit₁ hstart hd) hs
    refine ⟨_, Option.map_eq_some_iff.mpr ⟨server₁, hs₁, rfl⟩, ?_⟩
    have w' : Without x { s with server } { s₁ with server := server₁ } :=
      ⟨ws, w.point, w.guard, w.routes⟩
    exact w'.goto_other
  case dropGuard b =>
    obtain rfl := Option.some_inj.mp h
    refine ⟨_, rfl, ?_⟩
    have w' : Without x (s.dropGuard y) (s₁.dropGuard y) := by
      refine ⟨by simpa only [server_dropGuard] using w.server,
        by simpa only [point_dropGuard] using w.point, fun z hz => ?_, fun token r => ?_⟩
      case refine_1 =>
        rw [guard_dropGuard, guard_dropGuard]
        by_cases hzy : z = y
        case pos => rw [hzy, Function.update_self, Function.update_self]
        case neg => rw [Function.update_of_ne hzy, Function.update_of_ne hzy, w.guard z hz]
      case refine_2 =>
        rw [routes_dropGuard inv.guarded, routes_dropGuard inv₁.guarded, w.routes]
        exact and_right_comm
    exact w'.goto_other

omit [DecidableEq ι] in
theorem store {token : HelloToken} {i : Nat} (w : Without x s s₁) :
    Without x (s.storeSocket token i) (s₁.storeSocket token i) where
  server := by simpa only [server_storeSocket] using w.server
  point  := by simpa only [point_storeSocket] using w.point
  guard  := by simpa only [guard_storeSocket] using w.guard
  routes token' r := by
    rw [routes_storeSocket, routes_storeSocket]
    constructor
    case mp =>
      intro ⟨r', hr', h⟩
      have ⟨hr', hne⟩ := (w.routes token' r').mp hr'
      refine ⟨⟨r', hr', h⟩, ?_⟩
      rw [h]
      split <;> exact hne
    case mpr =>
      intro ⟨⟨r', hr', h⟩, hne⟩
      refine ⟨r', (w.routes token' r').mpr ⟨hr', ?_⟩, h⟩
      rw [h] at hne
      split at hne <;> exact hne

end Without

-- The events of a run without those of a session.
def others (x : ι) (events : List (HostEvent ι)) : List (HostEvent ι) :=
  events.filter fun
    | .store .. => true
    | .session y _ => y ≠ x

theorem Without.run {events : List (HostEvent ι)} (w : Without x s s₁) (inv : Inv tests s)
    (inv₁ : Inv tests s₁) (h : ((step tests).guard (fits tests)).run s events = some s') :
    ∃ s₁', ((step tests).guard (fits tests)).run s₁ (others x events) = some s₁' ∧
      Without x s' s₁' := by
  induction events generalizing s s₁
  case nil => exact ⟨s₁, rfl, Option.some_inj.mp h ▸ w⟩
  case cons e events hi =>
    have ⟨s₂, hg, hr⟩ := Option.bind_eq_some_iff.mp h
    have ⟨fit, hs⟩ := System.guard_eq_some.mp hg
    have inv₂ := inv.step fit hs
    cases e
    case store token i =>
      obtain rfl := Option.some_inj.mp hs
      have hs₁ : step tests s₁ (.store token i) = some (s₁.storeSocket token i) := rfl
      have ⟨s₁', h₁, w'⟩ := hi w.store inv₂ (inv₁.step rfl hs₁) hr
      have hg₁ : (step tests).guard (fits tests) s₁ (.store token i) =
          some (s₁.storeSocket token i) := rfl
      exact ⟨s₁', by simpa [others, System.run_cons, hg₁] using h₁, w'⟩
    case session y e =>
      rw [step_eq_plan] at hs
      have ⟨pl, hp, hpl⟩ := Option.bind_eq_some_iff.mp hs
      by_cases hy : y = x
      case pos =>
        subst hy
        have ⟨s₁', h₁, w'⟩ := hi (w.own inv fit hp hpl) inv₂ inv₁ hr
        exact ⟨s₁', by simpa [others] using h₁, w'⟩
      case neg =>
        have ⟨fit₁, s₃, hpl₁, w₃⟩ := w.other inv inv₁ hy fit hp hpl
        have hs₁ : step tests s₁ (.session y e) = some s₃ := by
          rw [step_eq_plan, w.point y hy, hp]
          exact hpl₁
        have ⟨s₁', h₁, w'⟩ := hi w₃ inv₂ (inv₁.step fit₁ hs₁) hr
        have hg₁ : (step tests).guard (fits tests) s₁ (.session y e) = some s₃ :=
          System.guard_eq_some.mpr ⟨fit₁, hs₁⟩
        exact ⟨s₁', by simpa [others, hy, System.run_cons, hg₁] using h₁, w'⟩

omit [DecidableEq ι] in
theorem Without.refl (inv : Inv tests s) (hx : s.point x = .idle) : Without x s s where
  server := {
    stage  := fun _ _ => rfl
    cancel := fun _ _ => rfl
    pause  := fun _ _ => rfl
    away   := by simp [inv.stage, hx, RunPoint.stage, Stage.IsActive]
  }
  point _ _      := rfl
  guard _ _      := rfl
  routes token r := by
    refine ⟨fun hr => ⟨hr, fun ho => ?_⟩, And.left⟩
    simpa [ho, inv.guarded.idle x hx] using inv.guarded.owner token r hr

-- After a call in which a test was registered, whatever way it went, the test is cancelled, and both
-- tables are as if there had been no call: as they were before, if nothing else happened.
theorem run_restores {ι : Type*} [DecidableEq ι] (tests : ι → TestStart) (x : ι)
    {before events : List (HostEvent ι)} {s s' : Host ι}
    (hb : ((step tests).guard (fits tests)).run init before = some s) (hx : s.point x = .idle)
    (h : ((step tests).guard (fits tests)).run s events = some s')
    (hr : s'.point x = .returned true) :
    (∃ s₁, ((step tests).guard (fits tests)).run s (others x events) = some s₁ ∧
      s'.server.activeTests = s₁.server.activeTests ∧ s'.routes = s₁.routes) ∧
    (others x events = [] →
      s'.server.activeTests = s.server.activeTests ∧ s'.routes = s.routes) ∧
    (s'.server.cancel x).value = true := by
  have inv : Inv tests s := Inv.init.run hb
  have inv' : Inv tests s' := inv.run h
  have ⟨s₁, h₁, w⟩ := (Without.refl inv hx).run inv inv h
  have inv₁ : Inv tests s₁ := inv.run h₁
  have closed : s'.server.stage x = .closed := by rw [inv'.stage, hr]; rfl
  have ha : s'.server.activeTests = s₁.server.activeTests := by
    apply (w.server.activeTests_eq inv'.exclusive inv₁.exclusive _).symm
    simp [closed, Stage.IsActive]
  have hro : s'.routes = s₁.routes := by
    funext token
    apply Option.ext
    intro r
    rw [w.routes token r]
    refine ⟨fun hr' => ⟨hr', fun ho => ?_⟩, And.left⟩
    simpa [ho, inv'.guarded.nothing x true hr] using inv'.guarded.owner token r hr'
  refine ⟨⟨s₁, h₁, ha, hro⟩, fun hn => ?_, inv'.cancelled x closed⟩
  rw [hn] at h₁
  obtain rfl := Option.some_inj.mp h₁
  exact ⟨ha, hro⟩

-- A test over UDP whose acknowledgement is not written, during a test over TCP.
def twoTests : Bool → TestStart
  | false => { id := ['a'], protocol := .udp, singlePort := true, streams := 2, peerIp := .v4 1 }
  | true  => { id := ['b'], protocol := .tcp, singlePort := true, streams := 1, peerIp := .v4 2 }

def unacknowledged : List (HostEvent Bool) :=
  [.session false .call, .session false (.route 7), .store 7 1, .session false .register,
    .session true .pause, .session false (.ackFailed .write), .session false .dropGuard]

theorem run_restores_unacknowledged : ∃ s s',
    ((step twoTests).guard (fits twoTests)).run init
      [.session true .call, .session true .register, .session true .ackWritten] = some s ∧
    ((step twoTests).guard (fits twoTests)).run s unacknowledged = some s' ∧
    ∃ s₁, ((step twoTests).guard (fits twoTests)).run s (others false unacknowledged) = some s₁ ∧
      s'.server.activeTests = s₁.server.activeTests ∧ s'.routes = s₁.routes := by
  have hb : ((step twoTests).guard (fits twoTests)).run init
      [.session true .call, .session true .register, .session true .ackWritten] = some _ := rfl
  refine ⟨_, _, hb, rfl, ?_⟩
  exact (run_restores twoTests false hb rfl rfl rfl).left

end Host
