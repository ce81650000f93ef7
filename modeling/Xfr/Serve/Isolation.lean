import Xfr.Serve.ActiveTests

open Utf8 (Text)

def Stage.IsActive (stage : Stage) : Prop :=
  stage = .running ∨ stage = .left

theorem TestStart.dataStreamTx_eq {ι : Type*} {t : TestStart} {x y : ι}
    (h : (t.activeTest x).dataStreamTx = some y) : y = x := by
  simp only [activeTest, Option.ite_none_right_eq_some, Option.some_inj] at h
  exact h.right.symm

namespace Server

variable {ι : Type*} {tests : ι → TestStart} {s s' s'' : Server ι} {x y : ι}

-- A step of one session neither cancels nor pauses the test of another one, it leaves its entry
-- where it is, and routes no data connection to it.
structure Spares (x : ι) (s s' : Server ι) : Prop where
  cancel      : ∀ y ≠ x, s'.cancel y = s.cancel y
  pause       : ∀ y ≠ x, s'.pause y = s.pause y
  activeTests : ∀ y ≠ x, ∀ id t, s.activeTests id = some t → t.cancelTx = y →
                  s'.activeTests id = some t
  dataStreams : ∀ y ≠ x, s'.dataStreams y = s.dataStreams y

-- Every session spares all the others, in any order of their steps.
def Isolated (sys : System (Server ι) (ι × Event)) : Prop :=
  ∀ events s x e s', sys.run init events = some s → sys s (x, e) = some s' → Spares x s s'

namespace Spares

theorem refl : Spares x s s :=
  ⟨fun _ _ => rfl, fun _ _ => rfl, fun _ _ _ _ h _ => h, fun _ _ => rfl⟩

theorem trans (h : Spares x s s') (h' : Spares x s' s'') : Spares x s s'' where
  cancel y hy           := (h'.cancel y hy).trans (h.cancel y hy)
  pause y hy            := (h'.pause y hy).trans (h.pause y hy)
  activeTests y hy id t := fun hs ht => h'.activeTests y hy id t (h.activeTests y hy id t hs ht) ht
  dataStreams y hy      := (h'.dataStreams y hy).trans (h.dataStreams y hy)

theorem update {id : Text} {entry : Option (ActiveTest ι)}
    (own : ∀ t, s.activeTests id = some t → t.cancelTx = x) :
    Spares x s { s with activeTests := Function.update s.activeTests id entry } where
  cancel _ _      := rfl
  pause _ _       := rfl
  dataStreams _ _ := rfl
  activeTests y hy id' t h ht := by
    have hne : id' ≠ id := by
      intro hid
      exact hy (ht ▸ own t (hid ▸ h))
    exact (Function.update_of_ne hne ..).trans h

end Spares

-- The entries are exactly those of the sessions with a test, each under its own identifier. There is
-- one entry for an identifier, so no two of these sessions share theirs.
def Exclusive (tests : ι → TestStart) (s : Server ι) : Prop :=
  ∀ id t, s.activeTests id = some t ↔
    ∃ x, (tests x).id = id ∧ (tests x).activeTest x = t ∧ (s.stage x).IsActive

namespace Exclusive

theorem init : Exclusive tests init := by
  intro id t
  constructor
  case mp  => intro h; simp [Server.init] at h
  case mpr => rintro ⟨x, -, -, h⟩; simp [Server.init, Stage.IsActive] at h

theorem entry (h : Exclusive tests s) (hx : (s.stage x).IsActive) :
    s.activeTests (tests x).id = some ((tests x).activeTest x) :=
  (h ..).mpr ⟨x, rfl, rfl, hx⟩

theorem congr (h : Exclusive tests s) (ht : s'.activeTests = s.activeTests)
    (hs : ∀ y, (s'.stage y).IsActive ↔ (s.stage y).IsActive) : Exclusive tests s' := by
  intro id t
  simp only [ht, hs]
  exact h id t

-- A session gets an entry when it starts its test.
theorem start (h : Exclusive tests s) (vacant : s.activeTests (tests x).id = none)
    (ht : s'.activeTests =
      Function.update s.activeTests (tests x).id (some ((tests x).activeTest x)))
    (hs : ∀ y, (s'.stage y).IsActive ↔ y = x ∨ (s.stage y).IsActive) : Exclusive tests s' := by
  intro id t
  by_cases hid : id = (tests x).id
  case pos =>
    subst hid
    simp only [ht, hs, Function.update_self, Option.some_inj]
    constructor
    case mp  => exact fun h => ⟨x, rfl, h, .inl rfl⟩
    case mpr =>
      rintro ⟨y, hy, rfl, rfl | active⟩
      case inl => rfl
      case inr =>
        have := h.entry active
        simp [hy, vacant] at this
  case neg =>
    simp only [ht, hs, Function.update_of_ne hid]
    rw [h id t]
    constructor
    case mp  => exact fun ⟨y, hy, hyt, active⟩ => ⟨y, hy, hyt, .inr active⟩
    case mpr =>
      rintro ⟨y, hy, hyt, rfl | active⟩
      case inl => exact absurd hy.symm hid
      case inr => exact ⟨y, hy, hyt, active⟩

-- It takes the entry away when it ends.
theorem close (h : Exclusive tests s) (hx : (s.stage x).IsActive)
    (ht : s'.activeTests = Function.update s.activeTests (tests x).id none)
    (hs : ∀ y, (s'.stage y).IsActive ↔ y ≠ x ∧ (s.stage y).IsActive) : Exclusive tests s' := by
  intro id t
  by_cases hid : id = (tests x).id
  case pos =>
    subst hid
    simp only [ht, hs, Function.update_self]
    constructor
    case mp  => exact nofun
    case mpr =>
      rintro ⟨y, hy, -, hne, active⟩
      have same := (h.entry hx).symm.trans (hy ▸ h.entry active)
      exact absurd (congrArg ActiveTest.cancelTx (Option.some_inj.mp same)).symm hne
  case neg =>
    simp only [ht, hs, Function.update_of_ne hid]
    rw [h id t]
    constructor
    case mpr => exact fun ⟨y, hy, hyt, _, active⟩ => ⟨y, hy, hyt, active⟩
    case mp  =>
      rintro ⟨y, hy, hyt, active⟩
      refine ⟨y, hy, hyt, ?_, active⟩
      rintro rfl
      exact hid hy.symm

end Exclusive

variable [DecidableEq ι]

namespace Spares

theorem goto {stage : Stage} : Spares x s (s.goto x stage) :=
  ⟨fun _ _ => rfl, fun _ _ => rfl, fun _ _ _ _ h _ => h, fun _ _ => rfl⟩

theorem sendCancel {t : ActiveTest ι} (ht : t.cancelTx = x) : Spares x s (s.sendCancel t) where
  cancel _ hy         := Function.update_of_ne (ht ▸ hy) ..
  pause _ _           := rfl
  activeTests _ _ _ _ := fun h _ => h
  dataStreams _ _     := rfl

theorem sendPause {t : ActiveTest ι} {paused : Bool} (ht : t.pauseTx = x) :
    Spares x s (s.sendPause t paused) where
  cancel _ _          := rfl
  pause _ hy          := Function.update_of_ne (ht ▸ hy) ..
  activeTests _ _ _ _ := fun h _ => h
  dataStreams _ _     := rfl

theorem dropTest {t : ActiveTest ι} (hc : t.cancelTx = x) (hp : t.pauseTx = x) :
    Spares x s (s.dropTest t) where
  cancel _ hy         := Function.update_of_ne (hc ▸ hy) ..
  pause _ hy          := Function.update_of_ne (hp ▸ hy) ..
  activeTests _ _ _ _ := fun h _ => h
  dataStreams _ _     := rfl

theorem insert {id : Text} {t : ActiveTest ι} (vacant : s.activeTests id = none) :
    Spares x s (s.insert id t) := by
  simp only [Server.insert, vacant, Option.elim_none]
  apply update
  simp [vacant]

variable {t : TestStart} {id : Text}

theorem removeActiveTest (h : s.activeTests id = some (t.activeTest x)) :
    Spares x s (s.removeActiveTest id) := by
  simp only [Server.removeActiveTest, h]
  have sent : Spares x s (s.sendCancel (t.activeTest x)) := sendCancel rfl
  have dropped := sent.trans (dropTest (t := t.activeTest x) rfl rfl)
  apply dropped.trans
  apply update
  intro t' ht'
  exact Option.some_inj.mp (h.symm.trans ht') ▸ rfl

theorem signalCancel (h : s.activeTests id = some (t.activeTest x)) :
    Spares x s (s.signalCancel id) := by
  simp only [Server.signalCancel, h, Option.elim_some]
  exact sendCancel rfl

theorem signalPause {paused : Bool} (h : s.activeTests id = some (t.activeTest x)) :
    Spares x s (s.signalPause id paused) := by
  simp only [Server.signalPause, h, Option.elim_some]
  exact sendPause rfl

theorem routeDataHello {peerIp : IpAddr} {i : Nat}
    (own : ∀ t, s.activeTests id = some t → ∀ y, t.dataStreamTx = some y → y = x) :
    Spares x s (s.routeDataHello x peerIp id i) := by
  unfold Server.routeDataHello
  split
  case h_1 => exact refl
  case h_2 t ht =>
    split
    case isTrue => exact refl
    case isFalse =>
      split
      case h_1 => exact refl
      case h_2 y hy =>
        have hy : y = x := own t ht y hy
        exact ⟨fun _ _ => rfl, fun _ _ => rfl, fun _ _ _ _ h _ => h,
          fun _ hne => Function.update_of_ne (hy ▸ hne) ..⟩

end Spares

section Fields

variable {id : Text} {t : ActiveTest ι} {stage : Stage} {paused : Bool} {peerIp : IpAddr} {i : Nat}

@[simp]
theorem goto_activeTests : (s.goto x stage).activeTests = s.activeTests :=
  rfl

@[simp]
theorem goto_stage : (s.goto x stage).stage = Function.update s.stage x stage :=
  rfl

@[simp]
theorem insert_activeTests :
    (s.insert id t).activeTests = Function.update s.activeTests id (some t) :=
  rfl

@[simp]
theorem insert_stage : (s.insert id t).stage = s.stage := by
  cases h : s.activeTests id <;> simp [insert, dropTest, h]

@[simp]
theorem removeActiveTest_activeTests :
    (s.removeActiveTest id).activeTests = Function.update s.activeTests id none := by
  cases h : s.activeTests id
  case none =>
    simp only [removeActiveTest, h]
    exact (Function.update_eq_self_iff.mpr h.symm).symm
  case some t => simp [removeActiveTest, h]

@[simp]
theorem removeActiveTest_stage : (s.removeActiveTest id).stage = s.stage := by
  cases h : s.activeTests id <;> simp [removeActiveTest, sendCancel, dropTest, h]

@[simp]
theorem signalCancel_activeTests : (s.signalCancel id).activeTests = s.activeTests := by
  cases h : s.activeTests id <;> simp [signalCancel, sendCancel, h]

@[simp]
theorem signalCancel_stage : (s.signalCancel id).stage = s.stage := by
  cases h : s.activeTests id <;> simp [signalCancel, sendCancel, h]

@[simp]
theorem signalPause_activeTests : (s.signalPause id paused).activeTests = s.activeTests := by
  cases h : s.activeTests id <;> simp [signalPause, sendPause, h]

@[simp]
theorem signalPause_stage : (s.signalPause id paused).stage = s.stage := by
  cases h : s.activeTests id <;> simp [signalPause, sendPause, h]

@[simp]
theorem routeDataHello_activeTests :
    (s.routeDataHello x peerIp id i).activeTests = s.activeTests := by
  unfold routeDataHello
  repeat' split
  all_goals rfl

@[simp]
theorem routeDataHello_stage : (s.routeDataHello x peerIp id i).stage = s.stage := by
  unfold routeDataHello
  repeat' split
  all_goals rfl

end Fields

-- A test starts under an identifier which no running test has, and a data connection names the test
-- of its own client, if it names one at all.
def fits (tests : ι → TestStart) (s : Server ι) : ι × Event → Bool
  | (x, .start)       => (s.activeTests (tests x).id).isNone
  | (x, .dataHello _) => (s.activeTests (tests x).id).all (·.cancelTx = x)
  | _                 => true

-- What a step can do to the entries, the channels and the stage of its session.
inductive Step (tests : ι → TestStart) (s : Server ι) (x : ι) : Event → Server ι → Prop
  | start :
    s.stage x = .handshake →
    Step tests s x .start ((s.insert (tests x).id ((tests x).activeTest x)).goto x .running)
  | ackFailed :
    s.stage x = .running →
    Step tests s x .ackFailed ((s.removeActiveTest (tests x).id).goto x .closed)
  | pause :
    s.stage x = .running → Step tests s x .pause (s.signalPause (tests x).id true)
  | resume :
    s.stage x = .running → Step tests s x .resume (s.signalPause (tests x).id false)
  | leave :
    s.stage x = .running → Step tests s x .leave ((s.signalCancel (tests x).id).goto x .left)
  | stopHandlers :
    s.stage x = .left → Step tests s x .stopHandlers (s.signalCancel (tests x).id)
  | cleanup :
    s.stage x = .left → Step tests s x .cleanup ((s.removeActiveTest (tests x).id).goto x .closed)
  | dataHello {i} :
    Step tests s x (.dataHello i) (s.routeDataHello x (tests x).peerIp (tests x).id i)

variable {e : Event}

theorem step_cases (h : step tests s (x, e) = some s') : Step tests s x e s' := by
  unfold step at h
  dsimp only at h
  split at h
  case h_1 hs => exact Option.some_inj.mp h ▸ .start hs
  case h_2 hs =>
    split at h
    case isTrue  => exact Option.some_inj.mp h ▸ .ackFailed hs
    case isFalse => contradiction
  case h_3 hs => exact Option.some_inj.mp h ▸ .pause hs
  case h_4 hs => exact Option.some_inj.mp h ▸ .resume hs
  case h_5 hs => exact Option.some_inj.mp h ▸ .leave hs
  case h_6 hs => exact Option.some_inj.mp h ▸ .stopHandlers hs
  case h_7 hs => exact Option.some_inj.mp h ▸ .cleanup hs
  case h_8    => exact Option.some_inj.mp h ▸ .dataHello
  case h_9    => contradiction

theorem close_isActive {id : Text} :
    (((s.removeActiveTest id).goto x .closed).stage y).IsActive ↔
      y ≠ x ∧ (s.stage y).IsActive := by
  by_cases hy : y = x <;> simp [hy, Stage.IsActive]

theorem step_exclusive (h : Exclusive tests s) (fit : fits tests s (x, e))
    (step : Step tests s x e s') : Exclusive tests s' := by
  cases step
  case start =>
    apply h.start (x := x)
    case vacant => exact Option.isNone_iff_eq_none.mp fit
    case ht     => rfl
    case hs     =>
      intro y
      by_cases hy : y = x <;> simp [hy, Stage.IsActive]
  case ackFailed hs => exact h.close (.inl hs) (by simp) fun _ => close_isActive
  case cleanup hs   => exact h.close (.inr hs) (by simp) fun _ => close_isActive
  case leave hs =>
    apply h.congr
    case ht => simp
    case hs =>
      intro y
      by_cases hy : y = x <;> simp [hy, hs, Stage.IsActive]
  all_goals exact h.congr (by simp) (by simp)

theorem step_spares (h : Exclusive tests s) (fit : fits tests s (x, e))
    (step : Step tests s x e s') : Spares x s s' := by
  cases step
  case start           => exact (Spares.insert (Option.isNone_iff_eq_none.mp fit)).trans .goto
  case ackFailed hs    => exact (Spares.removeActiveTest (h.entry (.inl hs))).trans .goto
  case cleanup hs      => exact (Spares.removeActiveTest (h.entry (.inr hs))).trans .goto
  case pause hs        => exact .signalPause (h.entry (.inl hs))
  case resume hs       => exact .signalPause (h.entry (.inl hs))
  case leave hs        => exact (Spares.signalCancel (h.entry (.inl hs))).trans .goto
  case stopHandlers hs => exact .signalCancel (h.entry (.inr hs))
  case dataHello i     =>
    apply Spares.routeDataHello
    intro t ht y hy
    have hx : t.cancelTx = x := by simpa [fits, ht] using fit
    have ⟨z, _, hz, _⟩ := (h _ t).mp ht
    exact (TestStart.dataStreamTx_eq (hz ▸ hy)).trans ((congrArg _ hz).trans hx)

theorem run_exclusive {events : List (ι × Event)}
    (h : ((step tests).guard (fits tests)).run init events = some s) : Exclusive tests s := by
  refine System.run_invariant (I := Exclusive tests) (fun {s e s'} hi hs => ?_) .init h
  obtain ⟨fit, hs⟩ := System.guard_eq_some.mp hs
  exact step_exclusive hi fit (step_cases hs)

theorem isolated_guard : Isolated ((step tests).guard (fits tests)) := by
  intro events s x e s' hr hs
  obtain ⟨fit, hs⟩ := System.guard_eq_some.mp hs
  exact step_spares (run_exclusive hr) fit (step_cases hs)

-- When all identifiers are different, every step fits.
theorem fits_of_injective (h : Exclusive tests s) (hs : step tests s (x, e) = some s')
    (inj : Function.Injective fun x => (tests x).id) : fits tests s (x, e) := by
  have own : ∀ t, s.activeTests (tests x).id = some t →
      t = (tests x).activeTest x ∧ (s.stage x).IsActive := by
    intro t ht
    have ⟨z, hid, hz, active⟩ := (h _ t).mp ht
    have hz' : z = x := inj hid
    exact ⟨hz' ▸ hz.symm, hz' ▸ active⟩
  cases step_cases hs
  case start hx =>
    apply Option.isNone_iff_eq_none.mpr
    apply Option.eq_none_iff_forall_ne_some.mpr
    intro t ht
    simpa [hx, Stage.IsActive] using (own t ht).right
  case dataHello =>
    cases ht : s.activeTests (tests x).id
    case none   => simp [fits, ht]
    case some t => simp [fits, ht, own t ht, TestStart.activeTest]
  all_goals rfl

theorem isolated_of_injective (inj : Function.Injective fun x => (tests x).id) :
    Isolated (step tests) := by
  intro events s x e s' hr hs
  have exclusive : Exclusive tests s := by
    refine System.run_invariant (I := Exclusive tests) (fun {s e s'} hi hs => ?_) .init hr
    exact step_exclusive hi (fits_of_injective hi hs inj) (step_cases hs)
  exact step_spares exclusive (fits_of_injective exclusive hs inj) (step_cases hs)

-- The second of two sessions with the same identifier takes the place of the first one.
theorem not_isolated (hne : x ≠ y) (hid : (tests x).id = (tests y).id) :
    ¬Isolated (step tests) := by
  intro h
  let s := (init.insert (tests x).id ((tests x).activeTest x)).goto x .running
  have spares : Spares y s ((s.insert (tests y).id ((tests y).activeTest y)).goto y .running) := by
    apply h [(x, .start)] s y .start
    case a => simp [System.run_cons, step, init, s]
    case a => simp [step, init, s, insert, hne.symm]
  have entry := spares.activeTests x hne (tests x).id ((tests x).activeTest x) (by simp [s]) rfl
  rw [hid] at entry
  simp only [goto_activeTests, insert_activeTests, Function.update_self] at entry
  exact hne (congrArg ActiveTest.cancelTx (Option.some_inj.mp entry)).symm

theorem isolated_iff (tests : ι → TestStart) :
    (Isolated (step tests) ↔ Function.Injective fun x => (tests x).id) ∧
    Isolated ((step tests).guard (fits tests)) := by
  refine ⟨⟨?mp, isolated_of_injective⟩, isolated_guard⟩
  case mp =>
    intro h x y hid
    by_contra hne
    exact not_isolated hne hid h

-- Two clients with one identifier, the first one over TCP and the second one over QUIC.
def duplicate : Bool → TestStart
  | false => { id := ['a'], protocol := .tcp,  singlePort := true,  streams := 1, peerIp := .v4 1 }
  | true  => { id := ['a'], protocol := .quic, singlePort := false, streams := 1, peerIp := .v4 2 }

-- The start of the second session drops the senders of the first one, which stops its data tasks.
-- From then on the first client pauses the test of the second one.
theorem duplicate_not_isolated :
    ¬Isolated (step duplicate) ∧
    ((step duplicate).run init [(false, .start)]).map (·.cancel false) = some ⟨false, true⟩ ∧
    ((step duplicate).run init [(false, .start), (true, .start)]).map (·.cancel false) =
      some ⟨false, false⟩ ∧
    ((step duplicate).run init [(false, .start), (true, .start), (false, .pause)]).map (·.pause true) =
      some ⟨true, true⟩ :=
  ⟨not_isolated (x := false) (y := true) nofun rfl, rfl, rfl, rfl⟩

end Server
