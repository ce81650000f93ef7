import Xfr.Library.Stopwatch
import Xfr.Report.Drain
import Xfr.Report.Turn

open Utf8 (Text)

-- A stopwatch which is paused and resumed by the commands of the client.
def Stopwatch.observe (w : Stopwatch) : Event → Stopwatch
  | .command (some .pause)  => w.pause
  | .command (some .resume) => w.resume
  | _                       => w

def Stopwatch.follow (w : Stopwatch) (e : Nat × Event) : Stopwatch :=
  (w.advance e.1).observe e.2

@[simp]
theorem Stopwatch.observe_now {w : Stopwatch} {e : Event} : (w.observe e).now = w.now := by
  unfold observe
  split <;> rfl

-- The commands change what the stopwatch is going to show, but not what it shows.
@[simp]
theorem Stopwatch.observe_active {w : Stopwatch} {e : Event} : (w.observe e).active = w.active := by
  unfold observe
  split <;> rfl

def Outcome.loop : Outcome → Loop
  | next l | leave _ l => l

@[simp]
theorem Outcome.loop_next {l : Loop} : (next l).loop = l :=
  rfl

@[simp]
theorem Outcome.loop_leave {ending : Ending} {l : Loop} : (leave ending l).loop = l :=
  rfl

namespace Loop

variable {config : ReportLoopConfig} {l : Loop} {w : Stopwatch} {origin now t : Nat} {e : Event}
variable {o : Outcome}

-- The variables of the loop agree with a stopwatch.
structure Clocked (origin : Nat) (w : Stopwatch) (l : Loop) : Prop where
  start   : l.start = origin
  wall    : origin + (w.active + w.paused) = w.now
  running : w.running = l.pauseStart.isNone
  paused  : l.pausedTotal + l.pauseStart.elim 0 (w.now - ·) = w.paused
  pausing : ∀ p ∈ l.pauseStart, p ≤ w.now

namespace Clocked

theorem init {codec : ControlWriter} : (init now codec).Clocked now (.start now) where
  start   := rfl
  wall    := rfl
  running := rfl
  paused  := rfl
  pausing := nofun

theorem advance (h : l.Clocked origin w) (ht : w.now ≤ t) : l.Clocked origin (w.advance t) where
  start   := h.start
  running := Stopwatch.advance_running.trans h.running
  pausing := fun p hp => Stopwatch.advance_now ▸ (h.pausing p hp).trans ht
  wall    := by
    have := h.wall
    rw [Stopwatch.advance_active_add_paused, Stopwatch.advance_now]
    omega
  paused  := by
    have hr := h.running
    have hp := h.paused
    cases hs : l.pauseStart
    all_goals
      simp only [hs, Option.isNone_none, Option.isNone_some, Option.elim] at hr hp ⊢
    case none   => simpa [Stopwatch.advance, hr] using hp
    case some p =>
      have hle := h.pausing p hs
      simp only [Stopwatch.advance, hr, Bool.false_eq_true, if_false]
      omega

-- What the loop computes is what the stopwatch shows.
theorem elapsed_now (h : l.Clocked origin w) : l.elapsed w.now = w.active := by
  have hw := h.wall
  rw [elapsed, activeElapsed, h.start, h.paused]
  omega

theorem elapsed (h : l.Clocked origin w) (ht : w.now ≤ t) :
    l.elapsed t = (w.advance t).active := by
  have := (h.advance ht).elapsed_now
  rwa [Stopwatch.advance_now] at this

theorem timedOut_iff (h : l.Clocked origin w) (ht : w.now ≤ t) :
    l.timedOut config t ↔ config.duration ≠ 0 ∧ config.duration ≤ (w.advance t).active := by
  simp [timedOut, h.elapsed ht]

-- While the stopwatch is running, its deadline is where the loop wakes up.
theorem durationUntil_iff (h : l.Clocked origin w) (hr : w.running) (ht : w.now ≤ t) :
    (l.durationUntil config).any (· ≤ t) ↔ l.timedOut config t := by
  have hs : l.pauseStart = none := by simpa [h.running] using hr
  have hp := h.paused
  have hw := h.wall
  simp only [hs, Option.elim] at hp
  rw [h.timedOut_iff ht]
  by_cases hd : config.duration = 0
  case pos => simp [durationUntil, hd]
  case neg =>
    simp only [durationUntil, hd, hs, h.start, Option.isSome, Bool.false_eq_true, or_self, if_false,
      Option.any, decide_eq_true_eq, ne_eq, not_false_iff, true_and, Stopwatch.advance, hr, if_true]
    omega

theorem running_of_durationUntil (h : l.Clocked origin w)
    (hd : (l.durationUntil config).any (· ≤ t)) : w.running := by
  rw [h.running]
  cases hs : l.pauseStart
  case none   => rfl
  case some _ => simp [durationUntil, hs] at hd

theorem congr {l' : Loop} (h : l.Clocked origin w) (hs : l'.start = l.start)
    (ht : l'.pausedTotal = l.pausedTotal) (hp : l'.pauseStart = l.pauseStart) :
    l'.Clocked origin w where
  start   := hs.trans h.start
  wall    := h.wall
  running := hp ▸ h.running
  paused  := ht ▸ hp ▸ h.paused
  pausing := hp ▸ h.pausing

-- A second pause changes nothing.
theorem pause (h : l.Clocked origin w) :
    Clocked origin w.pause { l with pauseStart := l.pauseStart.or (some w.now) } := by
  have hr := h.running
  have hp := h.paused
  cases hs : l.pauseStart
  all_goals
    simp only [hs, Option.isNone_none, Option.isNone_some, Option.elim] at hr hp
    constructor
  case some.pausing => simpa [hs, Stopwatch.pause] using h.pausing
  case none.pausing => simp [Stopwatch.pause]
  case none.paused  => simpa [Stopwatch.pause] using hp
  case some.paused  => exact hp
  all_goals first | exact h.start | exact h.wall | rfl

theorem resume (h : l.Clocked origin w) {p : Nat} (hs : l.pauseStart = some p) :
    Clocked origin w.resume
      { l with pausedTotal := l.pausedTotal + (w.now - p), pauseStart := none } where
  start   := h.start
  wall    := h.wall
  running := rfl
  paused  := by simpa [Stopwatch.resume, hs] using h.paused
  pausing := nofun

theorem resume_running (h : l.Clocked origin w) (hs : l.pauseStart = none) :
    l.Clocked origin w.resume where
  start   := h.start
  wall    := h.wall
  running := by simp [Stopwatch.resume, hs]
  paused  := h.paused
  pausing := h.pausing

theorem command {cmd : Option ControlCommand} (h : l.Clocked origin w) :
    (l.command config w.now cmd).loop.Clocked origin (w.observe (.command cmd)) := by
  unfold Loop.command
  split
  case h_1 => split <;> exact h.congr rfl rfl rfl
  case h_2 => exact h.congr rfl rfl rfl
  case h_3 => exact h.pause
  case h_4 =>
    split
    case h_1 hs => exact h.resume hs
    case h_2 hs => exact h.resume_running hs
  case h_5 => exact h.congr rfl rfl rfl

theorem turn (h : l.Clocked origin w) (ht : l.Turn config now e o) (hn : now = w.now) :
    o.loop.Clocked origin (w.observe e) := by
  subst hn
  cases ht
  case command => exact h.command
  case head    => exact h.congr rfl rfl rfl
  case tick    => exact h.congr rfl rfl rfl
  case written => exact h.congr rfl rfl rfl
  case deadline => exact h
  case timedOut _ he => rcases he with rfl | ⟨_, rfl⟩ <;> exact h
  case drain =>
    unfold drain
    dsimp only
    split <;> exact h.congr rfl rfl rfl
  case receiveDone =>
    unfold receiveDone
    dsimp only
    split
    case isFalse => exact h.congr rfl rfl rfl
    case isTrue  => split <;> exact h.congr rfl rfl rfl
  case sendingDone =>
    unfold sendingDone
    dsimp only
    split <;> exact h.congr rfl rfl rfl

end Clocked
end Loop

namespace Report

variable {aead : Aead} {serialize : ControlMessage → Option Text} {config : ReportLoopConfig}
variable {s s' : Report} {l : Loop} {w : Stopwatch} {origin t : Nat} {e : Event}

-- A loop which waits while it is paused has not reached its deadline.
structure Clocked (config : ReportLoopConfig) (origin : Nat) (w : Stopwatch) (s : Report) : Prop where
  now    : w.now = s.now
  loop   : ∀ l, s.phase.loop? = some l → l.Clocked origin w
  paused : ∀ l, s.phase = .select l → w.running = false → l.timedOut config s.now = false

theorem Clocked.init {streams : List StreamStats} {codec : ControlWriter}
    {recvClosed sendClosed : Bool} :
    Clocked config t (.start t) (.init t streams codec recvClosed sendClosed) where
  now    := rfl
  paused := fun _ hp => nomatch hp
  loop   := fun l hl => by
    obtain rfl := Option.some_inj.mp hl
    exact .init

theorem loop?_eq_none (hl : s.phase.loop? = none) (h : Step aead serialize config s e s') :
    s'.phase.loop? = none := by
  cases h
  case closeReceive => exact hl
  case closeSend    => exact hl
  case head hp      => simp [hp, Phase.loop?] at hl
  case loop hp _    => simp [hp, Phase.loop?] at hl
  case finish hp    =>
    unfold Report.finish
    split
    case h_1 => exact hl
    case h_2 => rfl
  case flush h =>
    obtain ⟨_, hp⟩ := (flushStep_flushed h).phase
    simp [hp, Phase.loop?]

namespace Clocked

theorem advance (h : Clocked config origin w s) (ht : s.now ≤ t) :
    Clocked config origin (w.advance t) { s with now := t } where
  now    := Stopwatch.advance_now
  loop   := fun l hl => (h.loop l hl).advance (h.now ▸ ht)
  paused := fun l hp hr => by
    have hr : w.running = false := by simpa using hr
    have hl : l.Clocked origin w := h.loop l (by rw [hp]; rfl)
    have hn : w.now ≤ t := h.now ▸ ht
    have := h.paused l hp hr
    rw [← Bool.not_eq_true, hl.timedOut_iff (h.now ▸ Nat.le_refl _)] at this
    rw [← Bool.not_eq_true, hl.timedOut_iff hn]
    rwa [Stopwatch.active_of_paused hr] at this ⊢

theorem turn (h : Clocked config origin w s) (hs : Step aead serialize config s e s') :
    Clocked config origin (w.observe e) s' := by
  have hn : (w.observe e).now = s'.now := by
    rw [step_now hs, ← h.now, Stopwatch.observe_now]
  cases hl : s.phase.loop?
  case none =>
    have hl' := loop?_eq_none hl hs
    refine ⟨hn, by simp [hl'], fun l hp => ?_⟩
    simp [hp, Phase.loop?] at hl'
  case some l =>
    rcases step_turn hs hl with ⟨hp, he⟩ | ⟨_, hp⟩ | ⟨o, ht, hf⟩
    case inl =>
      have hw : w.observe e = w := by rcases he with rfl | rfl <;> rfl
      rw [hw] at hn ⊢
      exact ⟨hn, hp ▸ h.loop, fun l hs hr => by
        rw [← hn, h.now]
        exact h.paused l (hp ▸ hs) hr⟩
    case inr.inl => exact ⟨hn, by simp [hp, Phase.loop?], by simp [hp]⟩
    case inr.inr =>
      have hc := (h.loop l hl).turn ht h.now.symm
      cases o
      case leave =>
        obtain ⟨_, hp, _⟩ := hf
        exact ⟨hn, by simp [hp, Phase.loop?], by simp [hp]⟩
      case next l' =>
        rcases hf.next with ⟨he, hp⟩ | ⟨_, hp⟩
        case inl =>
          subst he
          cases ht
          case head ht =>
            refine ⟨hn, fun _ hs => ?_, fun _ hs _ => ?_⟩
            · obtain rfl := Option.some_inj.mp (hp ▸ hs)
              exact hc
            · obtain rfl := Phase.select.inj (hp.symm.trans hs)
              rw [← hn]
              exact h.now ▸ ht
        case inr =>
          refine ⟨hn, fun _ hs => ?_, by simp [hp]⟩
          obtain rfl := Option.some_inj.mp (hp ▸ hs)
          exact hc

theorem step (h : Clocked config origin w s)
    (hs : Report.step aead serialize config s (t, e) = some s') :
    Clocked config origin (w.follow (t, e)) s' :=
  have ⟨ht, hs⟩ := step_cases hs
  (h.advance ht).turn hs

end Clocked

-- The active time reaches the duration of the test.
def Reached (config : ReportLoopConfig) (w : Stopwatch) (t : Nat) : Prop :=
  config.duration ≠ 0 ∧ config.duration ≤ (w.advance t).active

instance : Decidable (Reached config w t) :=
  inferInstanceAs <| Decidable (_ ∧ _)

theorem leave_ending (serializes : ∀ message, (serialize message).isSome) {ending : Ending} :
    (s.leave serialize config ending l).phase.ending? = some (ending, s.now) := by
  have ⟨_, ht⟩ : ∃ t, s.terminal serialize config l = some t :=
    Option.isSome_iff_exists.mp (terminal_isSome serializes)
  unfold leave
  rw [ht]
  rfl

-- A loop is not left by its deadline before it has been active for long enough.
theorem reached_of_deadline (h : Clocked config origin w s) (hl : s.phase.loop? = some l)
    {endedAt : Nat} (hs : step aead serialize config s (t, e) = some s')
    (hd : s'.phase.ending? = some (.deadline, endedAt)) : endedAt = t ∧ Reached config w t := by
  obtain ⟨ht, hs⟩ := step_cases hs
  have hw : w.now ≤ t := h.now ▸ ht
  have hc := h.loop l hl
  rcases step_turn hs hl with ⟨hp, _⟩ | ⟨_, hp⟩ | ⟨o, hturn, hf⟩
  case inl =>
    rw [hp] at hd
    cases hph : s.phase <;> simp [hph, Phase.ending?, Phase.loop?] at hd hl
  case inr.inl => simp [hp, Phase.ending?] at hd
  case inr.inr =>
    cases o
    case next l' =>
      rcases hf.next with ⟨_, hp⟩ | ⟨_, hp⟩ <;> simp [hp, Phase.ending?] at hd
    case leave ending l' =>
      obtain ⟨_, hp, _⟩ := hf
      simp only [hp, Phase.ending?, Option.some_inj, Prod.mk.injEq] at hd
      obtain ⟨rfl, rfl⟩ := hd
      have hto : l.timedOut config t := by
        rcases hturn.leave with ⟨_, hto | hdl⟩ | ⟨hne, _⟩ | hne | ⟨hne, _⟩
        case inl.inl => exact hto
        case inl.inr =>
          exact (hc.durationUntil_iff (hc.running_of_durationUntil hdl) hw).mp hdl
        all_goals contradiction
      exact ⟨rfl, (hc.timedOut_iff hw).mp hto⟩

-- Once it has been active for long enough, the deadline is next, and no other turn but this one is
-- left to the loop.
theorem deadline_of_reached (serializes : ∀ message, (serialize message).isSome)
    (h : Clocked config origin w s) (hl : s.phase.loop? = some l) (ht : s.now ≤ t)
    (reached : Reached config w t) :
    ∃ e s', step aead serialize config s (t, e) = some s' ∧
      s'.phase.ending? = some (.deadline, t) := by
  have hw : w.now ≤ t := h.now ▸ ht
  have hc := h.loop l hl
  have hto : l.timedOut config t := (hc.timedOut_iff hw).mpr reached
  cases hp : s.phase <;> simp only [hp, Phase.loop?, reduceCtorEq, Option.some_inj] at hl
  case head l' =>
    subst hl
    refine ⟨.head, Report.head aead serialize config { s with now := t } l', ?_, ?_⟩
    · simp [step, Nat.not_lt.mpr ht, hp]
    · rw [Report.head, if_pos hto]
      exact leave_ending serializes
  case select l' =>
    subst hl
    have hr : w.running := by
      by_contra hr
      have hr : w.running = false := by simpa using hr
      have := (h.advance ht).paused l' hp (by simpa using hr)
      simp [hto] at this
    have hd : (l'.durationUntil config).any (· ≤ t) := (hc.durationUntil_iff hr hw).mpr hto
    refine ⟨.deadline, Report.leave serialize config { s with now := t } .deadline l', ?_, ?_⟩
    · simp only [step, Nat.not_lt.mpr ht, if_false, hp, loopStep, hd, if_true]
    · exact leave_ending serializes

theorem overdue_of_reached (h : Clocked config origin w s) (hl : s.phase.loop? = some l)
    (reached : Reached config w t) (hs : step aead serialize config s (t, e) = some s')
    (he : e ≠ .closeReceive ∧ e ≠ .closeSend) :
    s'.phase.loop? = none ∨ ∃ l', s'.phase = .head l' ∧ l'.timedOut config t := by
  obtain ⟨ht, hst⟩ := step_cases hs
  have hw : w.now ≤ t := h.now ▸ ht
  have h' := (h.advance ht).turn hst
  have hn : s'.now = t := step_now hst
  rcases step_turn hst hl with ⟨_, hclose | hclose⟩ | ⟨_, hp⟩ | ⟨o, hturn, hf⟩
  case inl.inl   => exact absurd hclose he.left
  case inl.inr   => exact absurd hclose he.right
  case inr.inl   => exact .inl (by simp [hp, Phase.loop?])
  case inr.inr   =>
    cases o
    case leave =>
      obtain ⟨_, hp, _⟩ := hf
      exact .inl (by simp [hp, Phase.loop?])
    case next l' =>
      rcases hf.next with ⟨rfl, hp⟩ | ⟨_, hp⟩
      case inl =>
        cases hturn
        case head hto => simp [((h.loop l hl).timedOut_iff hw).mpr reached] at hto
      case inr =>
        refine .inr ⟨l', hp, ?_⟩
        have hc' := h'.loop l' (by rw [hp]; rfl)
        have hn' : ((w.advance t).observe e).now = t := h'.now.trans hn
        rw [hc'.timedOut_iff (Nat.le_of_eq hn'), Stopwatch.active_of_le (Nat.le_of_eq hn'.symm),
          Stopwatch.observe_active]
        exact reached

-- The active time of a loop, after any commands at any times, is what a stopwatch shows which the
-- commands pause and resume. It never decreases, and does not change during a pause. The deadline
-- ends the loop when the active time reaches the duration, and neither earlier nor later.
theorem active_run (aead : Aead) {serialize : ControlMessage → Option Text}
    (serializes : ∀ message, (serialize message).isSome) (config : ReportLoopConfig)
    {codec : ControlWriter} {start : Nat} {streams : List StreamStats}
    {recvClosed sendClosed : Bool} {events : List (Nat × Event)} {s : Report} {l : Loop}
    (run : (step aead serialize config).run
      (.init start streams codec recvClosed sendClosed) events = some s)
    (loop : s.phase.loop? = some l) :
    let w := events.foldl Stopwatch.follow (.start start)
    (∀ t, s.now ≤ t → l.elapsed t = (w.advance t).active ∧
      l.elapsed t + (w.advance t).paused = t - start) ∧
    (∀ t t', s.now ≤ t → t ≤ t' → l.elapsed t ≤ l.elapsed t' ∧
      (w.running = false → l.elapsed t' = l.elapsed t)) ∧
    (∀ t e s' l', step aead serialize config s (t, e) = some s' → s'.phase.loop? = some l' →
      l.elapsed s.now ≤ l'.elapsed t) ∧
    (∀ t e s' endedAt, step aead serialize config s (t, e) = some s' →
      s'.phase.ending? = some (.deadline, endedAt) → endedAt = t ∧ Reached config w t) ∧
    ∀ t, s.now ≤ t → Reached config w t →
      (∃ e s', step aead serialize config s (t, e) = some s' ∧
        s'.phase.ending? = some (.deadline, t)) ∧
      ∀ e s', step aead serialize config s (t, e) = some s' → e ≠ .closeReceive ∧ e ≠ .closeSend →
        s'.phase.loop? = none ∨ ∃ l', s'.phase = .head l' ∧ l'.timedOut config t := by
  intro w
  have h : Clocked config start w s := System.run_foldl Clocked.step .init run
  have hc : l.Clocked start w := h.loop l loop
  have elapsed (t : Nat) (ht : s.now ≤ t) : l.elapsed t = (w.advance t).active :=
    hc.elapsed (h.now ▸ ht)
  refine ⟨fun t ht => ⟨elapsed t ht, ?_⟩, fun t t' ht htt => ⟨?_, fun hr => ?_⟩, ?_, ?_, ?_⟩
  · have wall := (hc.advance (h.now ▸ ht)).wall
    rw [Stopwatch.advance_now] at wall
    rw [elapsed t ht]
    omega
  · rw [elapsed t ht, elapsed t' (ht.trans htt)]
    exact Stopwatch.active_mono htt
  · rw [elapsed t ht, elapsed t' (ht.trans htt), Stopwatch.active_of_paused hr,
      Stopwatch.active_of_paused hr]
  · intro t e s' l' hs hl'
    have ⟨ht, hst⟩ := step_cases hs
    have h' := (h.advance ht).turn hst
    have hn : s'.now = t := step_now hst
    rw [← hn, ← h'.now, (h'.loop l' hl').elapsed_now, Stopwatch.observe_active, ← h.now,
      hc.elapsed_now]
    exact Stopwatch.active_le_advance
  · exact fun t e s' endedAt hs hd => reached_of_deadline h loop hs hd
  · exact fun t ht reached => ⟨deadline_of_reached serializes h loop ht reached,
      fun e s' hs he => overdue_of_reached h loop reached hs he⟩

-- A test is paused twice, and resumed once, before its deadline.
def interrupted : List (Nat × Event) :=
  [
    (0, .head), (4, .command (some .pause)), (4, .head), (5, .command (some .pause)), (6, .head),
    (9, .command (some .resume)), (9, .head)
  ]

theorem active_run_interrupted :
    ∃ s l, (step Channel.transparent (fun _ => some ['i'])
        ⟨['a'], .tcp, 10, .upload, false, false⟩).run
        (.init 0 [] .plaintext true true) interrupted = some s ∧
      s.phase.loop? = some l ∧ l.elapsed 14 = 9 ∧
      ∃ e s', step Channel.transparent (fun _ => some ['i'])
          ⟨['a'], .tcp, 10, .upload, false, false⟩ s (15, e) = some s' ∧
        s'.phase.ending? = some (.deadline, 15) := by
  have hm : ((step Channel.transparent (fun _ => some ['i'])
      ⟨['a'], .tcp, 10, .upload, false, false⟩).run (.init 0 [] .plaintext true true)
      interrupted).map (fun s => (s.now, s.phase.loop?.isSome)) = some (9, true) := by decide
  have ⟨s, run, hs⟩ := Option.map_eq_some_iff.mp hm
  have ⟨hn, hl⟩ := Prod.mk.inj hs
  have ⟨l, loop⟩ := Option.isSome_iff_exists.mp hl
  have ⟨helapsed, _, _, _, hdeadline⟩ := active_run _ (fun _ => rfl) _ run loop
  refine ⟨s, l, run, loop, ?_, ?_⟩
  · exact (helapsed 14 (by omega)).left
  · exact (hdeadline 15 (by omega) (by decide)).left

end Report
