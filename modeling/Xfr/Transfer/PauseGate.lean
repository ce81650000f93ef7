import Xfr.Library.System
import Xfr.Library.WatchChannel

-- How a stream waits while its test is paused. The senders of both channels go on at any time.
inductive GatePoint
  | head
  | selecting
  | returned (cancelled : Bool)
  deriving DecidableEq

def GatePoint.isReturned : GatePoint → Bool
  | .returned _ => true
  | _           => false

structure PauseGate where
  pause      : WatchChannel Bool
  cancel     : WatchChannel Bool
  pauseSeen  : Nat
  cancelSeen : Nat
  point      : GatePoint := .head

inductive GateEvent
  | sendPause (paused : Bool)
  | dropPause
  | sendCancel (cancelled : Bool)
  | dropCancel
  | turn
  deriving DecidableEq

def GateEvent.isSend : GateEvent → Bool
  | .sendPause _  => true
  | .sendCancel _ => true
  | _             => false

namespace PauseGate

def channelIsOpen (pause : WatchChannel Bool) : Bool :=
  !pause.closed

-- The value of a closed channel would never change any more.
def isPaused (pause : WatchChannel Bool) : Bool :=
  pause.value && channelIsOpen pause

-- The cancel comes first.
def select (g : PauseGate) : Option PauseGate :=
  match g.cancel.changed g.cancelSeen with
  | some (.error ()) => some { g with point := .returned true }
  | some (.ok seen)  =>
    let point := if g.cancel.value then .returned true else .head
    some { g with cancelSeen := seen, point }
  | none             =>
    match g.pause.changed g.pauseSeen with
    | some (.error ()) => some { g with point := .returned false }
    | some (.ok seen)  => some { g with pauseSeen := seen, point := .head }
    | none             => none

def waitWhilePaused (g : PauseGate) : Option PauseGate :=
  match g.point with
  | .head       =>
    some { g with point := if isPaused g.pause then .selecting else .returned false }
  | .selecting  => g.select
  | .returned _ => none

-- A channel which is closed has no senders.
def step : System PauseGate GateEvent
  | g, .sendPause paused     =>
    if g.pause.closed then none else some { g with pause := g.pause.send paused }
  | g, .dropPause            => some { g with pause := g.pause.close }
  | g, .sendCancel cancelled =>
    if g.cancel.closed then none else some { g with cancel := g.cancel.send cancelled }
  | g, .dropCancel           => some { g with cancel := g.cancel.close }
  | g, .turn                 => g.waitWhilePaused

variable {g g' : PauseGate} {e : GateEvent} {es : List GateEvent} {cancelled : Bool}

-- What is the case between two turns: a channel which has nothing new for the stream says that it is
-- to wait.
structure Waiting (g : PauseGate) : Prop where
  pauseSeen  : g.pauseSeen ≤ g.pause.version
  cancelSeen : g.cancelSeen ≤ g.cancel.version
  cancelNews : ¬g.point.isReturned → g.cancel.value → g.cancelSeen ≠ g.cancel.version
  pauseNews  : g.point = .selecting → g.pauseSeen = g.pause.version → g.pause.value

def Cancelled (g : PauseGate) : Prop :=
  g.cancel.value ∨ g.cancel.closed

-- What there has to be for the stream to go on or to end.
inductive Returns (g : PauseGate) : Bool → Prop
  | cancelled (h : Cancelled g) : Returns g true
  | resumed (h : ¬isPaused g.pause) : Returns g false

-- The turns which are left if nothing more is sent.
def work (g : PauseGate) : Nat :=
  2 * (g.pause.unseen g.pauseSeen + g.cancel.unseen g.cancelSeen) +
    match g.point with
    | .head       => 2
    | .selecting  => 1
    | .returned _ => 0

-- What a turn does: it uses up a version or gets closer to the end, and leaves the channels alone.
structure Turns (g g' : PauseGate) : Prop where
  waiting : g'.Waiting
  work    : g'.work < g.work
  returns : ∀ c, g'.point = .returned c → g.Returns c

theorem not_isPaused_of_closed {pause : WatchChannel Bool} (h : pause.closed) : ¬isPaused pause := by
  simp [isPaused, channelIsOpen, h]

theorem unseen_pos {w : WatchChannel Bool} {seen : Nat} (hl : seen ≤ w.version)
    (hn : seen ≠ w.version) : 0 < w.unseen seen :=
  Nat.sub_pos_of_lt (Nat.lt_of_le_of_ne hl hn)

theorem turns_select (w : g.Waiting) (hp : g.point = .selecting) (h : g.select = some g') :
    Turns g g' := by
  have hr : ¬g.point.isReturned := by rw [hp]; nofun
  unfold select at h
  split at h
  case h_1 hc =>
    have ⟨_, hclosed⟩ := WatchChannel.changed_error hc
    obtain rfl := Option.some_inj.mp h
    refine ⟨⟨w.pauseSeen, w.cancelSeen, fun hr => absurd rfl hr, nofun⟩, ?_, ?_⟩
    · simp [work, hp]
    · intro c hc
      obtain rfl := GatePoint.returned.inj hc
      exact .cancelled (.inr hclosed)
  case h_2 seen hc =>
    obtain ⟨hn, rfl⟩ := WatchChannel.changed_ok hc
    have hu := unseen_pos w.cancelSeen hn
    obtain rfl := Option.some_inj.mp h
    refine ⟨⟨w.pauseSeen, Nat.le_refl _, fun hr hv => ?_, fun hs => ?_⟩, ?_, fun c hc => ?_⟩
    case refine_1 =>
      dsimp only at hr hv
      rw [if_pos hv] at hr
      exact absurd rfl hr
    case refine_2 =>
      dsimp only at hs
      split at hs <;> cases hs
    case refine_3 =>
      simp only [work, hp, WatchChannel.unseen_version]
      split <;> omega
    case refine_4 =>
      dsimp only at hc
      split at hc
      case isTrue hv =>
        obtain rfl := GatePoint.returned.inj hc
        exact .cancelled (.inl hv)
      case isFalse => cases hc
  case h_3 hc =>
    have ⟨hs, _⟩ := WatchChannel.changed_none hc
    have hv : ¬g.cancel.value := fun hv => w.cancelNews hr hv hs
    split at h
    case h_1 hp' =>
      have ⟨_, hclosed⟩ := WatchChannel.changed_error hp'
      obtain rfl := Option.some_inj.mp h
      refine ⟨⟨w.pauseSeen, w.cancelSeen, fun hr => absurd rfl hr, nofun⟩, ?_, ?_⟩
      · simp [work, hp]
      · intro c hc
        obtain rfl := GatePoint.returned.inj hc
        exact .resumed (not_isPaused_of_closed hclosed)
    case h_2 seen hp' =>
      obtain ⟨hn, rfl⟩ := WatchChannel.changed_ok hp'
      have hu := unseen_pos w.pauseSeen hn
      obtain rfl := Option.some_inj.mp h
      refine ⟨⟨Nat.le_refl _, w.cancelSeen, fun _ h => absurd h hv, nofun⟩, ?_, nofun⟩
      simp only [work, hp, WatchChannel.unseen_version]
      omega
    case h_3 => cases h

theorem turns_waitWhilePaused (w : g.Waiting) (h : g.waitWhilePaused = some g') : Turns g g' := by
  unfold waitWhilePaused at h
  split at h
  case h_1 hp =>
    have hr : ¬g.point.isReturned := by rw [hp]; nofun
    obtain rfl := Option.some_inj.mp h
    cases hi : isPaused g.pause
    case true =>
      have hv : g.pause.value := (Bool.and_eq_true _ _ ▸ hi).left
      refine ⟨⟨w.pauseSeen, w.cancelSeen, fun _ => w.cancelNews hr, fun _ _ => hv⟩, ?_, nofun⟩
      simp [work, hp]
    case false =>
      refine ⟨⟨w.pauseSeen, w.cancelSeen, fun hr => absurd rfl hr, nofun⟩, ?_, fun c hc => ?_⟩
      · simp [work, hp]
      · obtain rfl := GatePoint.returned.inj hc
        exact .resumed (by simp [hi])
  case h_2 hp => exact turns_select w hp h
  case h_3 => cases h

theorem Waiting.step (w : g.Waiting) (h : step g e = some g') : g'.Waiting := by
  cases e
  case sendPause paused =>
    have ⟨_, h⟩ := Option.ite_none_left_eq_some.mp h
    obtain rfl := Option.some_inj.mp h
    refine ⟨Nat.le_succ_of_le w.pauseSeen, w.cancelSeen, w.cancelNews, fun _ he => ?_⟩
    exact absurd (he ▸ w.pauseSeen) (Nat.not_succ_le_self _)
  case dropPause =>
    obtain rfl := Option.some_inj.mp h
    exact ⟨w.pauseSeen, w.cancelSeen, w.cancelNews, w.pauseNews⟩
  case sendCancel cancelled =>
    have ⟨_, h⟩ := Option.ite_none_left_eq_some.mp h
    obtain rfl := Option.some_inj.mp h
    refine ⟨w.pauseSeen, Nat.le_succ_of_le w.cancelSeen, fun _ _ he => ?_, w.pauseNews⟩
    exact absurd (he ▸ w.cancelSeen) (Nat.not_succ_le_self _)
  case dropCancel =>
    obtain rfl := Option.some_inj.mp h
    exact ⟨w.pauseSeen, w.cancelSeen, w.cancelNews, w.pauseNews⟩
  case turn => exact (turns_waitWhilePaused w h).waiting

-- Whether the stream can take another turn is up to the channels.
theorem select_isSome (w : g.Waiting) (hp : g.point = .selecting)
    (h : Cancelled g ∨ ¬isPaused g.pause) : ∃ g', g.select = some g' := by
  unfold select
  split
  case h_1 | h_2 => exact ⟨_, rfl⟩
  case h_3 hc =>
    have ⟨hs, hn⟩ := WatchChannel.changed_none hc
    have hr : ¬g.point.isReturned := by rw [hp]; nofun
    have hi := h.resolve_left fun hc => hc.elim (fun hv => w.cancelNews hr hv hs) hn
    split
    case h_1 | h_2 => exact ⟨_, rfl⟩
    case h_3 hc =>
      have ⟨hs, hn⟩ := WatchChannel.changed_none hc
      exact absurd (by simp [isPaused, channelIsOpen, hn, w.pauseNews hp hs]) hi

-- A turn of the stream on its own leaves the channels alone.
theorem channels_waitWhilePaused (h : g.waitWhilePaused = some g') :
    g'.pause = g.pause ∧ g'.cancel = g.cancel := by
  unfold waitWhilePaused at h
  split at h
  case h_1 =>
    obtain rfl := Option.some_inj.mp h
    exact ⟨rfl, rfl⟩
  case h_2 =>
    unfold select at h
    split at h
    case h_1 | h_2 =>
      obtain rfl := Option.some_inj.mp h
      exact ⟨rfl, rfl⟩
    case h_3 =>
      split at h
      case h_1 | h_2 =>
        obtain rfl := Option.some_inj.mp h
        exact ⟨rfl, rfl⟩
      case h_3 => cases h
  case h_3 => cases h

-- Once there is a reason to, the stream returns by a number of its own turns.
theorem exists_returned (w : g.Waiting) (h : Cancelled g ∨ ¬isPaused g.pause) :
    ∃ n c g', step.run g (List.replicate n .turn) = some g' ∧ n ≤ g.work ∧
      g'.point = .returned c := by
  generalize hk : g.work = k
  induction k using Nat.strongRecOn generalizing g
  case ind k hi =>
    by_cases hr : g.point.isReturned
    case pos =>
      cases hp : g.point <;> rw [hp] at hr <;> cases hr
      case returned c => exact ⟨0, c, g, rfl, Nat.zero_le k, hp⟩
    case neg =>
      obtain ⟨g₁, hg⟩ : ∃ g₁, g.waitWhilePaused = some g₁ := by
        unfold waitWhilePaused
        cases hp : g.point
        case head       => exact ⟨_, rfl⟩
        case selecting  => exact select_isSome w hp h
        case returned c => exact absurd (hp ▸ rfl) hr
      have turns := turns_waitWhilePaused w hg
      have ⟨hpause, hcancel⟩ := channels_waitWhilePaused hg
      have h₁ : Cancelled g₁ ∨ ¬isPaused g₁.pause := by rwa [Cancelled, hpause, hcancel]
      have hl := turns.work
      obtain ⟨n, c, g', hg', hn, hc⟩ := hi g₁.work (hk ▸ hl) turns.waiting h₁ rfl
      refine ⟨n + 1, c, g', ?_, by omega, hc⟩
      rw [List.replicate_succ, System.run_cons]
      exact Option.bind_eq_some_iff.mpr ⟨g₁, hg, hg'⟩

theorem work_send (h : step g e = some g') (he : e ≠ .turn) :
    g'.work ≤ g.work + 2 * e.isSend.toNat := by
  cases e
  case sendPause =>
    have ⟨_, h⟩ := Option.ite_none_left_eq_some.mp h
    obtain rfl := Option.some_inj.mp h
    simp only [work, WatchChannel.unseen, WatchChannel.version_send, GateEvent.isSend, Bool.toNat_true]
    omega
  case sendCancel =>
    have ⟨_, h⟩ := Option.ite_none_left_eq_some.mp h
    obtain rfl := Option.some_inj.mp h
    simp only [work, WatchChannel.unseen, WatchChannel.version_send, GateEvent.isSend, Bool.toNat_true]
    omega
  case dropPause | dropCancel =>
    obtain rfl := Option.some_inj.mp h
    exact Nat.le_refl _
  case turn => contradiction

-- Each turn is paid for by something that was sent. A stream which waits does not spin.
theorem turns_le (w : g.Waiting) (h : step.run g es = some g') :
    es.countP (· = .turn) + g'.work ≤ g.work + 2 * es.countP (·.isSend) := by
  induction es generalizing g
  case nil =>
    obtain rfl := Option.some_inj.mp h
    simp
  case cons e es hi =>
    have ⟨g₁, he, h⟩ := Option.bind_eq_some_iff.mp h
    have hi := hi (w.step he) h
    by_cases ht : e = .turn
    case pos =>
      subst ht
      have := (turns_waitWhilePaused w he).work
      simp only [List.countP_cons, GateEvent.isSend] at *
      simp only [decide_true, if_true] at *
      omega
    case neg =>
      have := work_send he ht
      cases hs : e.isSend <;> simp only [List.countP_cons, hs, ht] at * <;> simp at * <;> omega

theorem point_send (h : step g e = some g') (he : e ≠ .turn) : g'.point = g.point := by
  cases e
  case sendPause | sendCancel =>
    have ⟨_, h⟩ := Option.ite_none_left_eq_some.mp h
    obtain rfl := Option.some_inj.mp h
    rfl
  case dropPause | dropCancel =>
    obtain rfl := Option.some_inj.mp h
    rfl
  case turn => contradiction

theorem point_returned (hp : g.point = .returned cancelled) (h : step.run g es = some g') :
    g'.point = .returned cancelled := by
  refine System.run_invariant (I := fun g => g.point = .returned cancelled) ?_ hp h
  intro g e g' hp h
  by_cases he : e = .turn
  case neg => exact (point_send h he).trans hp
  case pos =>
    subst he
    replace h : g.waitWhilePaused = some g' := h
    rw [waitWhilePaused, hp] at h
    cases h

theorem exists_returns (w : g.Waiting) (hp : ¬g.point.isReturned) (h : step.run g es = some g')
    (hr : g'.point = .returned cancelled) : ∃ es₁ g₁ es₂,
    es = es₁ ++ .turn :: es₂ ∧ step.run g es₁ = some g₁ ∧ g₁.Returns cancelled := by
  induction es generalizing g
  case nil =>
    obtain rfl := Option.some_inj.mp h
    exact absurd (hr ▸ rfl) hp
  case cons e es hi =>
    have ⟨g₁, he, h⟩ := Option.bind_eq_some_iff.mp h
    by_cases hp₁ : g₁.point.isReturned
    case neg =>
      obtain ⟨es₁, g₂, es₂, rfl, hg, hr⟩ := hi (w.step he) hp₁ h
      exact ⟨e :: es₁, g₂, es₂, rfl, Option.bind_eq_some_iff.mpr ⟨g₁, he, hg⟩, hr⟩
    case pos =>
      obtain ⟨c, hc⟩ : ∃ c, g₁.point = .returned c := by
        cases hg : g₁.point <;> rw [hg] at hp₁ <;> cases hp₁
        exact ⟨_, rfl⟩
      obtain rfl : c = cancelled :=
        GatePoint.returned.inj ((point_returned hc h).symm.trans hr)
      obtain rfl : e = .turn := by
        by_contra hn
        exact hp (point_send he hn ▸ hp₁)
      exact ⟨[], g, es, rfl, rfl, (turns_waitWhilePaused w he).returns c hc⟩

-- How a wait goes, whatever is sent in the meantime: it takes at most two turns for each thing which
-- was sent, it has a reason to be over, and it gets over as soon as there is one.
structure Gated (g : PauseGate) (es : List GateEvent) (g' : PauseGate) : Prop where
  turns   : es.countP (· = .turn) ≤ g.work + 2 * es.countP (·.isSend)
  reason  : ∀ c, g'.point = .returned c → ∃ es₁ g₁ es₂,
    es = es₁ ++ .turn :: es₂ ∧ step.run g es₁ = some g₁ ∧ g₁.Returns c
  prompt  : Cancelled g' ∨ ¬isPaused g'.pause → ∃ n c g'',
    step.run g' (List.replicate n .turn) = some g'' ∧ n ≤ g'.work ∧ g''.point = .returned c
  waits   : ¬Cancelled g' → isPaused g'.pause → ∀ g'', step g' .turn = some g'' →
    ∀ c, g''.point ≠ .returned c

-- A cancel which was seen is one the stream has already stopped for.
theorem gated_run (g g' : PauseGate) (es : List GateEvent) (hp : g.point = .head)
    (hs : g.pauseSeen ≤ g.pause.version ∧ g.cancelSeen ≤ g.cancel.version)
    (hc : g.cancel.value → g.cancelSeen ≠ g.cancel.version) (h : step.run g es = some g') :
    Gated g es g' := by
  have w : g.Waiting := ⟨hs.left, hs.right, fun _ => hc, fun hg => nomatch hp.symm.trans hg⟩
  have w' : g'.Waiting := System.run_invariant (I := Waiting) Waiting.step w h
  refine ⟨by have := turns_le w h; omega, fun c hr => ?_, exists_returned w', ?_⟩
  case refine_1 => exact exists_returns w (by rw [hp]; nofun) h hr
  case refine_2 =>
    intro hn hi g'' h c hr
    rcases (turns_waitWhilePaused w' h).returns c hr with hc | hu
    · exact hn hc
    · exact hu hi

-- A test which is paused, resumed and paused again before the stream takes its turn.
def paused : PauseGate where
  pause      := { value := true, version := 1 }
  cancel     := { value := false }
  pauseSeen  := 0
  cancelSeen := 0

def toggled : List GateEvent :=
  [.turn, .sendPause false, .sendPause true, .turn, .turn, .sendPause false, .turn, .turn]

theorem gated_run_toggled : ∃ g', step.run paused toggled = some g' ∧
    g'.point = .returned false ∧ Gated paused toggled g' := by
  have h : step.run paused toggled = some _ := rfl
  exact ⟨_, h, rfl, gated_run paused _ toggled rfl (by decide) (by decide) h⟩

end PauseGate
