import Xfr.Client.ControlLoop

open Utf8 (Text)

namespace ControlLoop

variable {run : ClientRun} {s s' : ControlLoop} {a : ControlArm} {e : ControlEvent} {d t : Nat}

-- The deadline which a cancel has fixed is in force, and the loop is over at it: no time passes any
-- more, and the select finds that its deadline branch is ready, which leaves the loop.
structure InForce (run : ClientRun) (s : ControlLoop) (d : Nat) : Prop where
  enabled : s.pauseStartedAt = none
  fixed   : s.deadline = d
  running : s.now ≤ d
  ends    : d ≤ s.now → s.point = .select → ∃ s', s.step run (.arm .deadline) = some s' ∧
    s'.outcome.isSome = true

-- What a step has to do behind a cancel. Every branch which is taken at the deadline ends the loop.
structure Bounded (run : ClientRun) (s : ControlLoop) (e : ControlEvent) (s' : ControlLoop) :
    Prop where
  inForce : s'.outcome = none → ∀ d, s'.cancelDeadline = some d → s'.InForce run d
  ends    : ∀ a, e = .arm a → ∀ d, s.cancelDeadline = some d → d ≤ s.now → s'.outcome.isSome = true

-- The branches which leave the loop.
def leaves (run : ClientRun) : ControlArm → Bool
  | .eof | .readerGone | .readError _ | .deadline => true
  | .message (.result _) | .message (.error _)    => true
  | .cancelRequest true                           =>
    (run.serialize (.cancel run.testId "User requested cancellation".toList)).toOption.isNone
  | .pauseRequest paused                          =>
    run.supportsPause ∧
      (run.serialize (if paused then .pause run.testId else .resume run.testId)).toOption.isNone
  | _                                             => false

-- Behind a cancel, no write without a limit is still blocked when the deadline has passed, the test
-- is not paused, and of the branches which are ready at the deadline one is taken that leaves the loop.
def spares (run : ClientRun) (s : ControlLoop) : ControlEvent → Bool
  | .wait t                   => s.point = .select ∨ s.cancelDeadline.all (t ≤ ·)
  | .arm (.pauseRequest true) => s.cancelDeadline.isNone ∨ leaves run (.pauseRequest true)
  | .arm a                    => s.cancelDeadline.all (s.now < ·) ∨ leaves run a
  | .written                  => true

-- What a step needs and keeps. A write with a limit is given up when the deadline is due.
structure Kept (s : ControlLoop) : Prop where
  clocks : ∀ d, s.cancelDeadline = some d → s.pauseStartedAt = none ∧ s.deadline = d ∧ s.now ≤ d
  limit  : ∀ l, s.point = .write (some l) → s.cancelDeadline = some l

theorem step_deadline (run : ClientRun) (ho : s.outcome = none) (hp : s.point = .select)
    (he : s.pauseStartedAt = none) (hd : s.deadline ≤ s.now) :
    ∃ s', s.step run (.arm .deadline) = some s' ∧ s'.outcome.isSome = true :=
  ⟨_, by simp [step, ho, hp, arm, he, hd]; rfl, rfl⟩

theorem inForce_iff (ho : s.outcome = none) :
    s.InForce run d ↔ s.pauseStartedAt = none ∧ s.deadline = d ∧ s.now ≤ d where
  mp h := ⟨h.enabled, h.fixed, h.running⟩
  mpr h := by
    have ⟨he, hf, hn⟩ := h
    exact ⟨he, hf, hn, fun hd hp => step_deadline run ho hp he (hf.trans_le hd)⟩

theorem bounded_iff : Bounded run s e s' ↔
    (s'.outcome = none → ∀ d, s'.cancelDeadline = some d →
      s'.pauseStartedAt = none ∧ s'.deadline = d ∧ s'.now ≤ d) ∧
    (∀ a, e = .arm a → ∀ d, s.cancelDeadline = some d → d ≤ s.now → s'.outcome.isSome = true) where
  mp h  := ⟨fun ho d hd => (inForce_iff ho).mp (h.inForce ho d hd), h.ends⟩
  mpr h := ⟨fun ho d hd => (inForce_iff ho).mpr (h.left ho d hd), h.right⟩

namespace Kept

-- The clocks stay, and no write with a limit begins.
theorem of_eq (kept : s.Kept) (hc : s'.cancelDeadline = s.cancelDeadline)
    (hp : s'.pauseStartedAt = s.pauseStartedAt) (hd : s'.deadline = s.deadline)
    (hn : s'.now = s.now) (hw : ∀ l, s'.point ≠ .write (some l)) : s'.Kept where
  clocks d h := by
    rw [hp, hd, hn]
    exact kept.clocks d (hc ▸ h)
  limit l h  := absurd h (hw l)

theorem of_fixed (hp : s.pauseStartedAt = none) (hc : s.cancelDeadline = some s.deadline)
    (hn : s.now ≤ s.deadline) (hw : ∀ l, s.point = .write (some l) → s.deadline = l) : s.Kept where
  clocks d h := by
    obtain rfl := Option.some_inj.mp (hc.symm.trans h)
    exact ⟨hp, rfl, hn⟩
  limit l h  := by rw [hc, hw l h]

theorem of_none (hc : s.cancelDeadline = none) (hw : ∀ l, s.point ≠ .write (some l)) : s.Kept where
  clocks d h := by simp [hc] at h
  limit l h  := absurd h (hw l)

end Kept

-- What a toggle of the pause leaves alone.
theorem togglePause_frame (s : ControlLoop) (paused : Bool) :
    (s.togglePause paused).outcome = s.outcome ∧ (s.togglePause paused).point = s.point ∧
    (s.togglePause paused).cancelDeadline = s.cancelDeadline ∧
    (s.togglePause paused).now = s.now := by
  unfold togglePause
  cases paused <;> cases s.pauseStartedAt <;> exact ⟨rfl, rfl, rfl, rfl⟩

theorem togglePause_true : (s.togglePause true).pauseStartedAt.isSome = true := by
  unfold togglePause
  cases h : s.pauseStartedAt <;> simp [h]

theorem togglePause_false (h : s.pauseStartedAt = none) :
    s.togglePause false = { s with pauseTx := false } := by
  simp [togglePause, h]

-- A request which does not leave the loop toggles the pause, and may begin a write.
theorem onPauseRequest_cases {paused : Bool} (h : leaves run (.pauseRequest paused) = false) :
    s.onPauseRequest run paused = s.togglePause paused ∨
    ∃ line, s.onPauseRequest run paused = (s.togglePause paused).writeMessage none line := by
  unfold onPauseRequest
  dsimp only
  split
  case isFalse => exact .inl rfl
  case isTrue hs =>
    split
    case h_1 line _ => exact .inr ⟨line, rfl⟩
    case h_2 he     => simp [leaves, hs, he, Except.toOption] at h

theorem onPauseRequest_ended {paused : Bool} (h : leaves run (.pauseRequest paused) = true) :
    (s.onPauseRequest run paused).outcome.isSome = true := by
  have ⟨hs, he⟩ := of_decide_eq_true h
  unfold onPauseRequest
  dsimp only
  rw [if_pos hs]
  split
  case h_1 hl => simp [hl, Except.toOption] at he
  case h_2    => split <;> rfl

theorem onCancelRequest_cases (run : ClientRun) (s : ControlLoop) :
    leaves run (.cancelRequest true) = true ∧ (s.onCancelRequest run).outcome.isSome = true ∨
    leaves run (.cancelRequest true) = false ∧
      ∃ line, s.onCancelRequest run = s.sendControlCancel line := by
  unfold onCancelRequest
  split
  case h_1 line h =>
    refine .inr ⟨?_, line, rfl⟩
    change (run.serialize _).toOption.isNone = false
    rw [h]
    rfl
  case h_2 h =>
    refine .inl ⟨?_, by split <;> rfl⟩
    change (run.serialize _).toOption.isNone = true
    rw [h]
    rfl

theorem onSendingDone_cases (run : ClientRun) (s : ControlLoop) :
    s.onSendingDone run = { s with finishSent := true } ∨
    ∃ line, s.onSendingDone run = { s with finishSent := true }.writeMessage none line := by
  unfold onSendingDone
  dsimp only
  split
  case h_1 line _ => exact .inr ⟨line, rfl⟩
  case h_2        => exact .inl rfl

theorem arm_outcome (ho : s.outcome = none) (h : s.arm run a = some s') :
    s'.outcome.isSome = leaves run a := by
  cases a
  case eof | readerGone | readError =>
    obtain rfl := Option.some_inj.mp h
    rfl
  case message m =>
    obtain rfl := Option.some_inj.mp h
    cases m
    case result | error => rfl
    case cancelled      => cases hr : run.transport <;> simp [onMessage, stopStreams, hr, ho, leaves,
      startControlCancelWait]
    all_goals simp [onMessage, ho, leaves]
  case cancelRequest cancel =>
    have ⟨_, h⟩ := Option.ite_none_right_eq_some.mp h
    obtain rfl := Option.some_inj.mp h
    cases cancel
    case false => simp [ho, leaves]
    case true =>
      rcases onCancelRequest_cases run s with ⟨hl, hs⟩ | ⟨hl, line, hs⟩
      case inl => exact hs.trans hl.symm
      case inr => simp [hl, hs, sendControlCancel, writeMessage, startControlCancelWait, ho]
  case pauseRequest paused =>
    have ⟨_, h⟩ := Option.ite_none_right_eq_some.mp h
    obtain rfl := Option.some_inj.mp h
    cases hl : leaves run (.pauseRequest paused)
    case true  => exact onPauseRequest_ended hl
    case false =>
      have hf := (togglePause_frame s paused).left.trans ho
      rcases onPauseRequest_cases (s := s) hl with hs | ⟨line, hs⟩
      case inl => simp [hs, hf]
      case inr => simp [hs, hf, writeMessage]
  case cancelRequestDropped | pauseRequestDropped | localEnd =>
    have ⟨_, h⟩ := Option.ite_none_right_eq_some.mp h
    obtain rfl := Option.some_inj.mp h
    simp [ho, leaves]
  case sendingDone =>
    have ⟨_, h⟩ := Option.ite_none_right_eq_some.mp h
    obtain rfl := Option.some_inj.mp h
    rcases onSendingDone_cases run s with hs | ⟨line, hs⟩ <;> simp [hs, writeMessage, ho, leaves]
  case deadline =>
    have ⟨_, h⟩ := Option.ite_none_right_eq_some.mp h
    obtain rfl := Option.some_inj.mp h
    rfl

-- A branch which lets the loop go on, and is no pause.
theorem Kept.arm (kept : s.Kept) (hp : s.point = .select) (hl : leaves run a = false)
    (ha : a ≠ .pauseRequest true) (h : s.arm run a = some s') : s'.Kept := by
  have idle : ∀ l, s.point ≠ .write (some l) := by simp [hp]
  cases a
  case eof | readerGone | readError | deadline => cases hl
  case message m =>
    obtain rfl := Option.some_inj.mp h
    cases m
    case result | error => cases hl
    case cancelled      =>
      refine .of_fixed rfl rfl (Nat.le_add_right _ _) fun l h => ?_
      cases hr : run.transport <;> simp [onMessage, stopStreams, hr, startControlCancelWait, hp] at h
    all_goals exact kept
  case cancelRequest cancel =>
    have ⟨_, h⟩ := Option.ite_none_right_eq_some.mp h
    obtain rfl := Option.some_inj.mp h
    cases cancel
    case false => exact kept
    case true =>
      rcases onCancelRequest_cases run s with ⟨hl', _⟩ | ⟨_, line, hs⟩
      case inl => cases hl'.symm.trans hl
      case inr =>
        rw [if_pos rfl, hs]
        exact .of_fixed rfl rfl (Nat.le_add_right _ _) fun l h => by
          simpa [sendControlCancel, writeMessage, startControlCancelWait] using h
  case pauseRequest paused =>
    have ⟨_, h⟩ := Option.ite_none_right_eq_some.mp h
    obtain rfl := Option.some_inj.mp h
    obtain rfl : paused = false := by simpa using ha
    have hf := togglePause_frame s false
    have idle' : ∀ l, (s.togglePause false).point ≠ .write (some l) := by simpa [hf] using idle
    have kept' : (s.togglePause false).Kept := by
      cases hd : s.cancelDeadline
      case none   => exact .of_none (hf.right.right.left.trans hd) idle'
      case some d =>
        rw [togglePause_false (kept.clocks d hd).left]
        exact kept.of_eq rfl rfl rfl rfl idle
    rcases onPauseRequest_cases (s := s) hl with hs | ⟨line, hs⟩
    case inl => exact hs ▸ kept'
    case inr => exact hs ▸ kept'.of_eq rfl rfl rfl rfl (by simp [writeMessage])
  case cancelRequestDropped | pauseRequestDropped | localEnd =>
    have ⟨_, h⟩ := Option.ite_none_right_eq_some.mp h
    obtain rfl := Option.some_inj.mp h
    exact kept.of_eq rfl rfl rfl rfl idle
  case sendingDone =>
    have ⟨_, h⟩ := Option.ite_none_right_eq_some.mp h
    obtain rfl := Option.some_inj.mp h
    rcases onSendingDone_cases run s with hs | ⟨line, hs⟩
    case inl => exact hs ▸ kept.of_eq rfl rfl rfl rfl idle
    case inr => exact hs ▸ kept.of_eq rfl rfl rfl rfl (by simp [writeMessage])

-- A pause behind a cancel switches the deadline off.
theorem arm_pause (hp : s.point = .select) (hl : leaves run (.pauseRequest true) = false)
    (h : s.arm run (.pauseRequest true) = some s') :
    s'.cancelDeadline = s.cancelDeadline ∧ s'.pauseStartedAt.isSome = true ∧
      ∀ l, s'.point ≠ .write (some l) := by
  have ⟨_, h⟩ := Option.ite_none_right_eq_some.mp h
  obtain rfl := Option.some_inj.mp h
  have hf := togglePause_frame s true
  rcases onPauseRequest_cases (s := s) hl with hs | ⟨line, hs⟩
  case inl =>
    rw [hs]
    exact ⟨hf.right.right.left, togglePause_true, by simp [hf, hp]⟩
  case inr =>
    rw [hs]
    exact ⟨hf.right.right.left, togglePause_true, by simp [writeMessage]⟩

theorem arm_bounded (kept : s.Kept) (ho : s.outcome = none) (hp : s.point = .select)
    (h : s.arm run a = some s') :
    (Bounded run s (.arm a) s' ↔ s.spares run (.arm a) = true) ∧
      (Bounded run s (.arm a) s' → s'.outcome = none → s'.Kept) := by
  have he := arm_outcome ho h
  cases hl : leaves run a
  case true =>
    rw [hl] at he
    have hb : Bounded run s (.arm a) s' :=
      bounded_iff.mpr ⟨fun ho' => by simp [ho'] at he, fun _ _ _ _ _ => he⟩
    refine ⟨iff_of_true hb ?_, fun _ ho' => by simp [ho'] at he⟩
    unfold spares
    split <;> simp_all
  case false =>
    rw [hl] at he
    have ho' : s'.outcome = none := by simpa using he
    by_cases ha : a = .pauseRequest true
    case pos =>
      subst ha
      have ⟨hc, hs, idle⟩ := arm_pause hp hl h
      cases hd : s.cancelDeadline
      case none =>
        rw [hd] at hc
        refine ⟨iff_of_true (bounded_iff.mpr ⟨?_, ?_⟩) ?_, fun _ _ => .of_none hc idle⟩
        · simp [hc]
        · simp [hd]
        · simp [spares, hd]
      case some d =>
        have hb : ¬Bounded run s (.arm (.pauseRequest true)) s' := fun hb => by
          simp [((bounded_iff.mp hb).left ho' d (hc.trans hd)).left] at hs
        exact ⟨iff_of_false hb (by simp [spares, hd, hl]), fun h => absurd h hb⟩
    case neg =>
      have kept' := kept.arm hp hl ha h
      have hs : s.spares run (.arm a) = true ↔ ∀ d, s.cancelDeadline = some d → s.now < d := by
        cases hd : s.cancelDeadline <;> simp [spares, hl, hd]
      rw [hs, bounded_iff]
      refine ⟨⟨fun hb d hd => ?_, fun hd => ⟨fun _ => kept'.clocks, ?_⟩⟩, fun _ _ => kept'⟩
      case refine_1 => exact Nat.lt_of_not_le fun hn => by simp [hb.right a rfl d hd hn] at he
      case refine_2 => exact fun _ _ d hd' hn => absurd hn (Nat.not_le.mpr (hd d hd'))

theorem wait_bounded (run : ClientRun) (kept : s.Kept) (ho : s.outcome = none)
    (ht : ∀ timer ∈ s.timers, t ≤ timer) :
    (Bounded run s (.wait t) { s with now := t } ↔ s.spares run (.wait t) = true) ∧
      (Bounded run s (.wait t) { s with now := t } → { s with now := t }.Kept) := by
  obtain hd | ⟨d, hd⟩ := Option.eq_none_or_eq_some s.cancelDeadline
  case inl =>
    have kept' : { s with now := t }.Kept := ⟨fun d h => by simp [hd] at h, kept.limit⟩
    exact ⟨iff_of_true (bounded_iff.mpr ⟨fun _ => kept'.clocks, nofun⟩) (by simp [spares, hd]),
      fun _ => kept'⟩
  case inr =>
    have ⟨hp, hf, _⟩ := kept.clocks d hd
    have clocks : Bounded run s (.wait t) { s with now := t } ↔ t ≤ d := by
      rw [bounded_iff]
      refine ⟨fun hb => (hb.left ho d hd).right.right, fun hn => ⟨fun _ d' hd' => ?_, nofun⟩⟩
      obtain rfl := Option.some_inj.mp (hd.symm.trans hd')
      exact ⟨hp, hf, hn⟩
    refine ⟨clocks.trans ?_, fun hb => ⟨(bounded_iff.mp hb).left ho, kept.limit⟩⟩
    simp only [spares, hd, Option.all_some]
    -- Only a write without a limit lets the time pass the deadline.
    cases hw : s.point
    case select =>
      have hn : t ≤ s.deadline := ht _ (by simp [timers, hw, hp])
      simp [hf ▸ hn]
    case write limit =>
      cases limit
      case none   => simp
      case some l =>
        obtain rfl := Option.some_inj.mp (hd.symm.trans (kept.limit l hw))
        have hn : t ≤ d := ht _ (by simp [timers, hw])
        simp [hn]

theorem step_bounded (kept : s.outcome = none → s.Kept) (h : s.step run e = some s') :
    (Bounded run s e s' ↔ s.spares run e = true) ∧
      (Bounded run s e s' → s'.outcome = none → s'.Kept) := by
  have ⟨hr, he⟩ := Option.ite_none_left_eq_some.mp h
  have ho : s.outcome = none := by simpa using hr
  have kept := kept ho
  split at he
  case h_1 t =>
    have ⟨⟨_, ht⟩, he⟩ := Option.ite_none_right_eq_some.mp he
    obtain rfl := Option.some_inj.mp he
    have ⟨hb, kept'⟩ := wait_bounded run kept ho ht
    exact ⟨hb, fun h _ => kept' h⟩
  case h_2 a hp => exact arm_bounded kept ho hp he
  case h_3 limit _ =>
    obtain rfl := Option.some_inj.mp he
    exact ⟨iff_of_true (bounded_iff.mpr ⟨fun _ => kept.clocks, nofun⟩) rfl,
      fun _ _ => kept.of_eq rfl rfl rfl rfl (by simp)⟩
  case h_4 => cases he

-- What the messages to the server are serialized to, if there is nothing to escape in them.
def serializeRequest : Message → Except Text Text
  | .cancel id reason =>
    .ok ("\x7b\"type\":\"cancel\",\"id\":\"".toList ++ id ++ "\",\"reason\":\"".toList ++ reason ++
      "\"\x7d".toList)
  | .pause id         => .ok ("\x7b\"type\":\"pause\",\"id\":\"".toList ++ id ++ "\"\x7d".toList)
  | .resume id        => .ok ("\x7b\"type\":\"resume\",\"id\":\"".toList ++ id ++ "\"\x7d".toList)
  | _                 => .error []

def tenSeconds (transport : Transport) : ClientRun where
  transport
  testId         := ['t']
  duration       := 10 * 10 ^ 9
  supportsPause  := true
  finishOnBudget := false
  serialize      := serializeRequest

-- A minute after the cancel, the loop still waits.
def Hangs (run : ClientRun) (es : List ControlEvent) : Prop :=
  ∃ s, System.run (step run) (run.start 0) es = some s ∧
    s.cancelDeadline = some CONTROL_CANCEL_RESULT_TIMEOUT ∧ s.now = 60 * 10 ^ 9 ∧ s.outcome = none

-- The user resumes the test after the cancel, and the server does not read.
def resumeAfterCancel : List ControlEvent :=
  [.arm (.pauseRequest true), .written, .arm (.cancelRequest true), .written,
    .arm (.pauseRequest false), .wait (60 * 10 ^ 9)]

theorem blocked_resume_unbounds :
    Hangs (tenSeconds .tcp) resumeAfterCancel ∧ Hangs (tenSeconds .quic) resumeAfterCancel :=
  ⟨⟨_, rfl, rfl, rfl, rfl⟩, ⟨_, rfl, rfl, rfl, rfl⟩⟩

end ControlLoop
