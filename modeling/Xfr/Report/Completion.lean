import Xfr.Report.Clock

open Utf8 (Text)

-- Whole milliseconds, rounded up and at least one for a transfer which was complete.
def Reporting.durationMs (r : Reporting) (now : Nat) : Nat :=
  match r.transferEnd with
  | some transferEnd => max ((transferEnd / 1000 % 2 ^ 64 + 999) / 1000) 1
  | none             => activeElapsed now r.start r.pausedTotal r.pauseStart / 10 ^ 6 % 2 ^ 64

-- What the events say about the transfer: whether the client announced that it has sent everything,
-- which halves are complete, and at which active times they were.
structure Completion where
  watch          : Stopwatch
  finishing      : Bool
  clientFinished : Bool
  serverSendDone : Bool
  received       : Option Nat
  sent           : Option Nat

namespace Completion

def start (now : Nat) : Completion where
  watch          := .start now
  finishing      := false
  clientFinished := false
  serverSendDone := false
  received       := none
  sent           := none

-- The client's half is complete when the receivers are at their end, or were given up, and the
-- client has announced it.
def receive (c : Completion) : Completion :=
  { c with
    received       := c.received.or (some c.watch.active)
    clientFinished := c.clientFinished || c.finishing }

def observe (c : Completion) (e : Event) : Completion :=
  match e with
  | .command (some .finish) => { c with finishing := true }
  | .receiveDone            => c.receive
  | .drain                  => c.receive
  | .sendingDone            =>
    { c with sent := c.sent.or (some c.watch.active), serverSendDone := true }
  | _                       => c

def follow (c : Completion) (e : Nat × Event) : Completion :=
  let c := { c with watch := c.watch.advance e.1 }.observe e.2
  { c with watch := c.watch.observe e.2 }

-- The last completion which is relevant to the direction.
def transferEnd (c : Completion) : Protocol.Direction → Option Nat
  | .upload   => c.received
  | .download => c.sent
  | .bidir    =>
    match c.received, c.sent with
    | some received, some sent => some (max received sent)
    | _,             _         => none

variable {c : Completion} {e : Event}

@[simp]
theorem observe_watch : (c.observe e).watch = c.watch := by
  unfold observe
  split <;> rfl

end Completion

namespace Loop

variable {config : ReportLoopConfig} {l : Loop} {c : Completion} {e : Event} {o : Outcome}

-- The variables of the loop agree with the events.
structure Completes (c : Completion) (l : Loop) : Prop where
  clientFinished : l.clientFinished = c.clientFinished
  serverSendDone : l.serverSendDone = c.serverSendDone
  draining       : l.drainUntil.isSome = (c.finishing && !c.clientFinished)
  receivedAt     : l.receivedAt = c.received
  sentAt         : l.sentAt = c.sent
  received       : c.clientFinished → c.received.isSome
  sent           : c.sent.isSome = c.serverSendDone
  received_le    : ∀ t ∈ c.received, t ≤ c.watch.active
  sent_le        : ∀ t ∈ c.sent, t ≤ c.watch.active

namespace Completes

theorem congr {l' : Loop} (h : l.Completes c) (hc : l'.clientFinished = l.clientFinished)
    (hs : l'.serverSendDone = l.serverSendDone) (hd : l'.drainUntil = l.drainUntil)
    (hr : l'.receivedAt = l.receivedAt) (ht : l'.sentAt = l.sentAt) : l'.Completes c :=
  { h with
    clientFinished := hc.trans h.clientFinished
    serverSendDone := hs.trans h.serverSendDone
    draining       := hd ▸ h.draining
    receivedAt     := hr.trans h.receivedAt
    sentAt         := ht.trans h.sentAt }

-- Only time passes.
theorem advance {w : Stopwatch} (h : l.Completes c) (hw : c.watch.active ≤ w.active) :
    l.Completes { c with watch := w } :=
  { h with
    received_le := fun t ht => (h.received_le t ht).trans hw
    sent_le     := fun t ht => (h.sent_le t ht).trans hw }

theorem command (budget : config.byteBudgetTest) (now : Nat) {cmd : Option ControlCommand}
    (h : l.Completes c) : (l.command config now cmd).loop.Completes (c.observe (.command cmd)) := by
  unfold Loop.command
  split
  case h_2 => exact h.congr rfl rfl rfl rfl rfl
  case h_3 => exact h.congr rfl rfl rfl rfl rfl
  case h_4 => split <;> exact h.congr rfl rfl rfl rfl rfl
  case h_5 => exact h.congr rfl rfl rfl rfl rfl
  case h_1 =>
    have hd := h.draining
    have hf := h.clientFinished
    split
    case isTrue hb  =>
      refine { h with draining := ?_ }
      simp_all [Completion.observe]
    case isFalse hb =>
      refine { h with draining := ?_ }
      simp only [budget, true_and] at hb
      cases hc : c.clientFinished <;> cases hu : l.drainUntil <;> simp_all [Completion.observe]

-- What both ends of receiving have in common.
theorem receive (h : l.Completes c) (drainUntil : Option Nat)
    (hd : drainUntil.isSome = (c.finishing && !c.receive.clientFinished)) :
    Completes c.receive {
      l with
      clientFinished := l.clientFinished || c.finishing
      receivedAt     := l.receivedAt.or (some c.watch.active)
      drainUntil     := drainUntil } where
  clientFinished := by simp [Completion.receive, h.clientFinished]
  serverSendDone := h.serverSendDone
  draining       := hd
  receivedAt     := by simp [Completion.receive, h.receivedAt]
  sentAt         := h.sentAt
  received       := fun _ => by simp [Completion.receive]
  sent           := h.sent
  sent_le        := h.sent_le
  received_le    := fun t ht => by
    cases hr : c.received
    case none   => simp_all [Completion.receive]
    case some t =>
      have := h.received_le t hr
      simp_all [Completion.receive]

theorem turn (budget : config.byteBudgetTest) {now : Nat} (h : l.Completes c)
    (elapsed : l.elapsed now = c.watch.active) (ht : l.Turn config now e o) :
    o.loop.Completes (c.observe e) := by
  cases ht
  case command       => exact h.command budget now
  case head          => exact h.congr rfl rfl rfl rfl rfl
  case tick          => exact h.congr rfl rfl rfl rfl rfl
  case written       => exact h.congr rfl rfl rfl rfl rfl
  case deadline      => exact h
  case timedOut _ he => rcases he with rfl | ⟨_, rfl⟩ <;> exact h
  case drain hd      =>
    have hs : l.drainUntil.isSome := Option.isSome_of_any hd
    have hf : c.finishing = true := by simp_all [h.draining]
    have hl : Completes c.receive { l with
        clientFinished := true
        receivedAt     := l.receivedAt.or (some (l.elapsed now))
        drainUntil     := none } := by
      simpa [hf, elapsed] using h.receive none (by simp [Completion.receive, hf])
    unfold Loop.drain
    dsimp only
    split <;> exact hl
  case receiveDone =>
    unfold Loop.receiveDone
    dsimp only
    split
    case isTrue hs  =>
      have hf : c.finishing = true := by simp_all [h.draining]
      have hl : Completes c.receive { l with
          clientFinished := true
          receivedAt     := l.receivedAt.or (some (l.elapsed now))
          drainUntil     := none } := by
        simpa [hf, elapsed] using h.receive none (by simp [Completion.receive, hf])
      split <;> exact hl
    case isFalse hs =>
      have hd : (c.finishing && !c.clientFinished) = false := by simpa [h.draining] using hs
      have hf : (l.clientFinished || c.finishing) = l.clientFinished := by
        rw [h.clientFinished]
        cases hc : c.clientFinished <;> simp_all
      have hl := h.receive l.drainUntil (by
        rw [h.draining]
        cases hc : c.clientFinished <;> cases hf : c.finishing <;> simp_all [Completion.receive])
      rwa [hf, ← elapsed] at hl
  case sendingDone _ hs =>
    have hnone : c.sent = none := by
      have := h.sent
      rw [← h.serverSendDone, hs] at this
      simpa using this
    have hl : Completes (c.observe .sendingDone) { l with
        serverSendDone := true
        sentAt         := some (l.elapsed now) } := by
      refine { h with serverSendDone := rfl, sentAt := ?_, sent := ?_, sent_le := ?_ }
      all_goals simp [Completion.observe, hnone, elapsed]
    unfold Loop.sendingDone
    dsimp only
    split <;> exact hl

theorem complete (h : l.Completes c) (complete : l.transferComplete config) :
    budgetTransferComplete config.direction c.clientFinished c.serverSendDone := by
  unfold transferComplete at complete
  rwa [h.clientFinished, h.serverSendDone] at complete

-- What a loop which is left by itself reports.
theorem transferEnd_eq (h : l.Completes c) (budget : config.byteBudgetTest)
    (hc : l.cancelled = false) (complete : l.transferComplete config) :
    Report.transferEnd config l = c.transferEnd config.direction ∧
    ∃ transferEnd, c.transferEnd config.direction = some transferEnd ∧
      transferEnd ≤ c.watch.active := by
  have hd := h.complete complete
  have hr := h.received
  have hs := h.sent
  unfold Report.transferEnd Completion.transferEnd
  rw [if_neg (by simp [hc, budget, complete]), h.receivedAt, h.sentAt]
  cases hdir : config.direction <;> simp only [hdir, budgetTransferComplete] at hd ⊢
  case upload =>
    obtain ⟨t, ht⟩ := Option.isSome_iff_exists.mp (hr hd)
    exact ⟨trivial, t, ht, h.received_le t ht⟩
  case download =>
    obtain ⟨t, ht⟩ := Option.isSome_iff_exists.mp (hs.trans hd)
    exact ⟨trivial, t, ht, h.sent_le t ht⟩
  case bidir =>
    obtain ⟨hdc, hds⟩ : c.clientFinished = true ∧ c.serverSendDone = true := by simpa using hd
    obtain ⟨t, ht⟩ := Option.isSome_iff_exists.mp (hr hdc)
    obtain ⟨t', ht'⟩ := Option.isSome_iff_exists.mp (hs.trans hds)
    simp only [ht, ht']
    exact ⟨rfl, _, rfl, Nat.max_le.mpr ⟨h.received_le t ht, h.sent_le t' ht'⟩⟩

end Completes
end Loop

namespace Report

variable {aead : Aead} {serialize : ControlMessage → Option Text} {config : ReportLoopConfig}
variable {s s' : Report} {l : Loop} {c : Completion} {origin t : Nat} {e : Event}

-- What a report which was left by itself says about the transfer.
structure Complete (config : ReportLoopConfig) (c : Completion) (endedAt : Nat) (r : Reporting) :
    Prop where
  complete    : budgetTransferComplete config.direction c.clientFinished c.serverSendDone
  transferEnd : ∃ transferEnd, r.transferEnd = some transferEnd ∧
                  c.transferEnd config.direction = some transferEnd ∧
                  transferEnd ≤ activeElapsed endedAt r.start r.pausedTotal r.pauseStart

structure Completing (config : ReportLoopConfig) (origin : Nat) (c : Completion) (s : Report) :
    Prop where
  clocked : Clocked config origin c.watch s
  loop    : ∀ l, s.phase.loop? = some l → l.cancelled = false ∧ l.Completes c
  ended   : ∀ ending endedAt r f, s.phase = .ended ending endedAt r f →
              ending ≠ .cancelled → ending ≠ .readerExited →
              Complete config c endedAt r ∨ config.duration ≠ 0

theorem duration_ne_zero (h : l.timedOut config t ∨ (l.durationUntil config).any (· ≤ t)) :
    config.duration ≠ 0 := by
  intro hd
  rcases h with h | h
  case inl => simp [Loop.timedOut, hd] at h
  case inr => simp [Loop.durationUntil, hd] at h

theorem observe_of_flushStep {ending : Ending} {endedAt : Nat} {r : Reporting} {f : Flush}
    (h : s.flushStep aead ending endedAt r f e = some s') : c.observe e = c := by
  unfold flushStep at h
  split at h
  case h_5 => contradiction
  all_goals rfl

-- Writing the terminal messages does not change what is reported.
theorem ended_of_step (hl : s.phase.loop? = none) (h : Step aead serialize config s e s')
    {ending : Ending} {endedAt : Nat} {r' : Reporting} {f' : Option Flush}
    (hp : s'.phase = .ended ending endedAt r' f') :
    (∀ c : Completion, c.observe e = c) ∧ ∃ r f, s.phase = .ended ending endedAt r f ∧
      r'.start = r.start ∧ r'.pausedTotal = r.pausedTotal ∧ r'.pauseStart = r.pauseStart ∧
      r'.transferEnd = r.transferEnd := by
  cases h
  case closeReceive => exact ⟨fun _ => rfl, r', f', hp, rfl, rfl, rfl, rfl⟩
  case closeSend    => exact ⟨fun _ => rfl, r', f', hp, rfl, rfl, rfl, rfl⟩
  case head hs      => simp [hs, Phase.loop?] at hl
  case loop hs _    => simp [hs, Phase.loop?] at hl
  case finish r result hs =>
    refine ⟨fun _ => rfl, ?_⟩
    unfold Report.finish at hp
    split at hp
    case h_1 =>
      obtain ⟨rfl, rfl, rfl, rfl⟩ := Phase.ended.inj (hs.symm.trans hp)
      exact ⟨_, _, hs, rfl, rfl, rfl, rfl⟩
    case h_2 =>
      obtain ⟨rfl, rfl, rfl, rfl⟩ := Phase.ended.inj hp
      exact ⟨_, _, hs, rfl, rfl, rfl, rfl⟩
  case flush hs h   =>
    obtain ⟨_, hp'⟩ := (flushStep_flushed h).phase
    obtain ⟨rfl, rfl, rfl, rfl⟩ := Phase.ended.inj (hp'.symm.trans hp)
    exact ⟨fun _ => observe_of_flushStep h, _, _, hs, rfl, rfl, rfl, rfl⟩

namespace Completing

theorem init {streams : List StreamStats} {codec : ControlWriter} {recvClosed sendClosed : Bool} :
    Completing config t (.start t) (.init t streams codec recvClosed sendClosed) where
  clocked := .init
  ended   := fun _ _ _ _ hp => nomatch hp
  loop    := fun l hl => by
    obtain rfl := Option.some_inj.mp hl
    exact ⟨rfl, rfl, rfl, rfl, rfl, rfl, nofun, rfl, nofun, nofun⟩

theorem advance (h : Completing config origin c s) (ht : s.now ≤ t) :
    Completing config origin { c with watch := c.watch.advance t } { s with now := t } where
  clocked := h.clocked.advance ht
  loop    := fun l hl => ⟨(h.loop l hl).left, (h.loop l hl).right.advance Stopwatch.active_le_advance⟩
  ended   := fun ending endedAt r f hp hc hr =>
    (h.ended ending endedAt r f hp hc hr).imp_left fun h => ⟨h.complete, h.transferEnd⟩

theorem turn (budget : config.byteBudgetTest) (h : Completing config origin c s)
    (hs : Step aead serialize config s e s') :
    Completing config origin { c.observe e with watch := c.watch.observe e } s' := by
  have hk := h.clocked.turn hs
  cases hl : s.phase.loop?
  case none =>
    refine ⟨hk, by simp [loop?_eq_none hl hs], fun ending endedAt r' f' hp hc hr => ?_⟩
    obtain ⟨he, r, f, hph, hstart, htotal, hpause, hend⟩ := ended_of_step hl hs hp
    rw [he c]
    refine (h.ended ending endedAt r f hph hc hr).imp_left ?_
    rintro ⟨complete, transferEnd⟩
    exact ⟨complete, by rw [hstart, htotal, hpause, hend]; exact transferEnd⟩
  case some l =>
    obtain ⟨hcancel, hc⟩ := h.loop l hl
    have hlc := h.clocked.loop l hl
    rcases step_turn hs hl with ⟨hp, he⟩ | ⟨_, hp⟩ | ⟨o, ht, hf⟩
    case inl =>
      have hcl : ({ c.observe e with watch := c.watch.observe e } : Completion) = c := by
        rcases he with rfl | rfl <;> rfl
      have hk' : Clocked config origin c.watch s' := by
        rcases he with rfl | rfl <;> exact hk
      rw [hcl]
      exact ⟨hk', hp ▸ h.loop, hp ▸ h.ended⟩
    case inr.inl => exact ⟨hk, by simp [hp, Phase.loop?], by simp [hp]⟩
    case inr.inr =>
      have elapsed : l.elapsed s.now = c.watch.active := h.clocked.now ▸ hlc.elapsed_now
      have hw : (c.observe e).watch.active ≤ (c.watch.observe e).active := by simp
      have hc' := (hc.turn budget elapsed ht).advance hw
      cases o
      case next l' =>
        have hn : l'.cancelled = false := ht.next.trans hcancel
        rcases hf.next with ⟨_, hp⟩ | ⟨_, hp⟩
        all_goals
          refine ⟨hk, fun _ hs => ?_, by simp [hp]⟩
          obtain rfl := Option.some_inj.mp (hp ▸ hs)
          exact ⟨hn, hc'⟩
      case leave ending l' =>
        obtain ⟨r, hp, hof⟩ := hf
        refine ⟨hk, by simp [hp, Phase.loop?], fun ending' endedAt r' f' hp' hcan hr => ?_⟩
        obtain ⟨rfl, rfl, rfl, rfl⟩ := Phase.ended.inj (hp.symm.trans hp')
        rcases ht.leave with ⟨_, hd⟩ | ⟨hne, _⟩ | hne | ⟨_, complete, hcl⟩
        case inl             => exact .inr (duration_ne_zero hd)
        case inr.inl         => contradiction
        case inr.inr.inl     => contradiction
        case inr.inr.inr     =>
          obtain ⟨htr, t, hte, hle⟩ := hc'.transferEnd_eq budget (hcl.trans hcancel) complete
          have hle : t ≤ l'.elapsed s.now := by
            have := (hlc.turn ht h.clocked.now.symm).elapsed_now
            rw [Stopwatch.observe_now, h.clocked.now] at this
            exact this ▸ hle
          refine .inl ⟨hc'.complete complete, t, hof.transferEnd.trans (htr.trans hte), hte, ?_⟩
          rw [hof.start, hof.pausedTotal, hof.pauseStart]
          exact hle

theorem step (budget : config.byteBudgetTest) (h : Completing config origin c s)
    (hs : Report.step aead serialize config s (t, e) = some s') :
    Completing config origin (c.follow (t, e)) s' := by
  have ⟨ht, hst⟩ := step_cases hs
  have := (h.advance ht).turn budget hst
  simpa [Completion.follow] using this

end Completing

theorem one_le_durationMs {r : Reporting} {transferEnd : Nat} (h : r.transferEnd = some transferEnd)
    (now : Nat) : 1 ≤ r.durationMs now := by
  simp [Reporting.durationMs, h]

-- A test with a byte budget and no limit of time, which is not cancelled and keeps its reader, ends
-- when the transfer is complete, and reports the active time of the last completion.
theorem completion_run (aead : Aead) (serialize : ControlMessage → Option Text)
    {config : ReportLoopConfig} (budget : config.byteBudgetTest) (unlimited : config.duration = 0)
    {codec : ControlWriter} {start : Nat} {streams : List StreamStats}
    {recvClosed sendClosed : Bool} {events : List (Nat × Event)} {s : Report} {ending : Ending}
    {endedAt : Nat} {r : Reporting} {f : Option Flush}
    (run : (step aead serialize config).run
      (.init start streams codec recvClosed sendClosed) events = some s)
    (ended : s.phase = .ended ending endedAt r f)
    (not_cancelled : ending ≠ .cancelled) (reader : ending ≠ .readerExited) :
    let c := events.foldl Completion.follow (.start start)
    budgetTransferComplete config.direction c.clientFinished c.serverSendDone ∧
    (∃ transferEnd, r.transferEnd = some transferEnd ∧
      c.transferEnd config.direction = some transferEnd ∧
      transferEnd ≤ activeElapsed endedAt r.start r.pausedTotal r.pauseStart) ∧
    ∀ now, 1 ≤ r.durationMs now := by
  intro c
  have h : Completing config start c s := System.run_foldl (Completing.step budget) .init run
  rcases h.ended ending endedAt r f ended not_cancelled reader with ⟨complete, transferEnd⟩ | hd
  case inr => contradiction
  case inl =>
    have ⟨t, ht, _⟩ := transferEnd
    exact ⟨complete, transferEnd, fun now => one_le_durationMs ht now⟩

-- In both directions the receivers are at their end first, then the client's announcement arrives
-- during a pause, and the server is done with sending last.
def bothWays : List (Nat × Event) :=
  [
    (0, .closeReceive), (0, .head), (4000, .receiveDone), (4000, .head),
    (5000, .command (some .pause)), (5000, .head), (6000, .command (some .finish)), (6000, .head),
    (6000, .receiveDone), (6000, .head), (8000, .command (some .resume)), (8000, .head),
    (9000, .closeSend), (9000, .sendingDone)
  ]

theorem completion_run_bothWays :
    ∃ s ending endedAt r f, (step Channel.transparent (fun _ => some ['i'])
        (Wiring.config .tcp .bidir (some 100) ['a'] 0)).run
        (.init 0 [] .plaintext false false) bothWays = some s ∧
      s.phase = .ended ending endedAt r f ∧ r.transferEnd = some 6000 ∧ 1 ≤ r.durationMs 9000 := by
  have hm : ((step Channel.transparent (fun _ => some ['i'])
      (Wiring.config .tcp .bidir (some 100) ['a'] 0)).run
      (.init 0 [] .plaintext false false) bothWays).map (·.phase.ending?) =
      some (some (.sent, 9000)) := by decide
  obtain ⟨s, run, hs⟩ := Option.map_eq_some_iff.mp hm
  cases hp : s.phase <;>
    simp only [hp, Phase.ending?, Option.some_inj, Prod.mk.injEq, reduceCtorEq] at hs
  case ended ending endedAt r f =>
    obtain ⟨rfl, rfl⟩ := hs
    obtain ⟨_, ⟨t, ht, hc, _⟩, hms⟩ := completion_run _ _ rfl rfl run hp (by simp) (by simp)
    have : some 6000 = some t := by
      rw [← hc]
      decide
    exact ⟨s, _, _, r, f, run, hp, this ▸ ht, hms 9000⟩

end Report
