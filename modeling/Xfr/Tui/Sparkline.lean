import Mathlib.Data.List.DropRight
import Mathlib.Data.List.ReduceOption
import Xfr.Feedback.Fresh
import Xfr.Library.Mealy
import Xfr.Tui.LossLog

-- Times in nanoseconds.
abbrev BAR_INTERVAL : Nat := 1000000000

abbrev BAR_STALL_AFTER : Nat := 2000000000

abbrev SPARKLINE_HISTORY : Nat := 60

inductive AppState
  | connecting
  | running
  | paused
  | completed
  | error
  deriving DecidableEq

structure ThroughputSample where
  mbps            : Float
  lostPackets     : Nat
  intervalPackets : Nat

-- What the user interface knows about its bars: the latest packet counts, the ones which were last
-- rendered into a bar, and when that was.
structure Sparkline where
  state                 : AppState
  startTime             : Option Nat
  currentThroughputMbps : Float
  throughputHistory     : List ThroughputSample
  prevUdpProgress       : Option UdpIntervalProgress
  latestUdpProgress     : Option UdpIntervalProgress
  lastBarAt             : Option Nat

namespace Sparkline

-- The interface of a test which has just been started.
def started (start : Nat) : Sparkline where
  state                 := .running
  startTime             := some start
  currentThroughputMbps := 0.0
  throughputHistory     := []
  prevUdpProgress       := none
  latestUdpProgress     := none
  lastBarAt             := none

def pushThroughputSample (s : Sparkline) (sample : ThroughputSample) : Sparkline :=
  let throughputHistory := s.throughputHistory ++ [sample]
  { s with
    throughputHistory :=
      if throughputHistory.length > SPARKLINE_HISTORY then throughputHistory.tail
      else throughputHistory }

-- The packets since the last rendered counts, and those of them which were lost. The first counts are
-- only a baseline.
def interval (s : Sparkline) : Nat × Nat :=
  match s.latestUdpProgress, s.prevUdpProgress with
  | some curr, some prev =>
    let lost := U64.saturatingSub curr.packetsLost prev.packetsLost
    (U64.saturatingSub curr.expected prev.expected, lost)
  | _, _ => (0, 0)

def sample (s : Sparkline) (mbps : Float) : ThroughputSample where
  mbps            := mbps
  lostPackets     := s.interval.2
  intervalPackets := s.interval.1

-- Both ways to append a bar render the latest counts. The bar is also returned.
def appendBar (s : Sparkline) (mbps : Float) (lastBarAt : Nat) : Option ThroughputSample × Sparkline :=
  let bar := s.sample mbps
  (some bar, { s.pushThroughputSample bar with
    prevUdpProgress := s.latestUdpProgress.or s.prevUdpProgress
    lastBarAt       := some lastBarAt })

def maybeAppendStalledBar (s : Sparkline) (now : Nat) : Option ThroughputSample × Sparkline :=
  match s.lastBarAt.or s.startTime with
  | none      => (none, s)
  | some last =>
    if now - last < BAR_STALL_AFTER then
      (none, s)
    else
      let advanced := last + BAR_INTERVAL
      s.appendBar s.currentThroughputMbps
        (if now - advanced ≥ BAR_STALL_AFTER then now else advanced)

def tick (s : Sparkline) (now : Nat) : Option ThroughputSample × Sparkline :=
  if s.state = .running ∧ s.startTime.isSome then s.maybeAppendStalledBar now else (none, s)

-- Counts which are older than the latest ones are dropped.
def seeProgress (s : Sparkline) (progress : TestProgress) : Sparkline :=
  let udpProgress := progress.udpProgress.filter fun candidate =>
    s.latestUdpProgress.all (candidate.isAtLeastAsFreshAs ·)
  { s with latestUdpProgress := udpProgress.or s.latestUdpProgress }

def onProgress (s : Sparkline) (progress : TestProgress) (now : Nat) :
    Option ThroughputSample × Sparkline :=
  let s := s.seeProgress progress
  if progress.udpFeedbackOnly then
    (none, s)
  else
    let s := { s with currentThroughputMbps := progress.throughputMbps }
    let barDue := s.lastBarAt.all fun last => now - last ≥ BAR_INTERVAL / 2
    if barDue then s.appendBar progress.throughputMbps now else (none, s)

-- What happens while a test is running, with the time at which it does.
inductive Event
  | tick (now : Nat)
  | progress (report : TestProgress) (now : Nat)

def Event.now : Event → Nat
  | tick now       => now
  | progress _ now => now

def Event.udpProgress : Event → Option UdpIntervalProgress
  | tick _            => none
  | progress report _ => report.udpProgress

def machine : Mealy Sparkline Event (Option ThroughputSample)
  | s, .tick now            => s.tick now
  | s, .progress report now => s.onProgress report now

-- All bars which a run appends.
def bars (s : Sparkline) (events : List Event) : List ThroughputSample :=
  (machine.outputs s events).reduceOption

-- The counts which a run renders first.
def firstRendered (s : Sparkline) : List Event → Option UdpIntervalProgress
  | []              => s.prevUdpProgress
  | event :: events => s.prevUdpProgress.or (firstRendered (machine s event).2 events)

end Sparkline

namespace UdpIntervalProgress

variable {p q : UdpIntervalProgress}

-- All packets which the counts are about.
def packets (p : UdpIntervalProgress) : Nat :=
  p.packetsReceived + p.packetsLost

theorem expected_eq_packets (h : p.packets ≤ U64.max) : p.expected = p.packets :=
  U64.saturatingAdd_eq_add h

end UdpIntervalProgress

namespace Sparkline

open UdpIntervalProgress

variable {s : Sparkline} {start now now' : Nat} {first : Option UdpIntervalProgress}
  {shown : List ThroughputSample} {report : TestProgress} {mbps : Float} {event : Event}
  {events : List Event}

-- What an event does to the bars: nothing, or it appends one, half an interval after the last at the
-- earliest.
inductive Draws (now : Nat) (s : Sparkline) : Option ThroughputSample × Sparkline → Prop
  | quiet : Draws now s (none, s)
  | append {mbps : Float} {t : Nat} (current : t ≤ now)
      (since : ∀ last ∈ s.lastBarAt.or s.startTime, last ≤ now → last ≤ t)
      (pace : ∀ last ∈ s.lastBarAt, last + BAR_INTERVAL / 2 ≤ t) : Draws now s (s.appendBar mbps t)

theorem maybeAppendStalledBar_draws : Draws now s (s.maybeAppendStalledBar now) := by
  unfold maybeAppendStalledBar
  split
  case h_1           => exact .quiet
  case h_2 last hl =>
    split
    case isTrue     => exact .quiet
    case isFalse hd =>
      have hm : ∀ t ∈ s.lastBarAt, t = last := by
        intro t ht
        rw [Option.mem_def.mp ht] at hl
        exact Option.some_inj.mp hl
      have half : BAR_INTERVAL / 2 = 500000000 := rfl
      simp only [BAR_STALL_AFTER, BAR_INTERVAL] at hd ⊢
      refine .append ?_ (fun t ht _ => ?_) fun t ht => ?_
      · split <;> omega
      · have : last = t := Option.some_inj.mp (hl.symm.trans ht)
        split <;> omega
      · rw [hm t ht, half]
        split <;> omega

theorem tick_draws : Draws now s (s.tick now) := by
  unfold tick
  split
  case isTrue  => exact maybeAppendStalledBar_draws
  case isFalse => exact .quiet

theorem onProgress_draws : ∃ mbps, Draws now
    { s.seeProgress report with currentThroughputMbps := mbps } (s.onProgress report now) := by
  unfold onProgress
  split
  case isTrue  => exact ⟨(s.seeProgress report).currentThroughputMbps, .quiet⟩
  case isFalse =>
    refine ⟨report.throughputMbps, ?_⟩
    dsimp only
    split
    case isFalse   => exact .quiet
    case isTrue hd =>
      refine .append (le_refl now) (fun _ _ hle => hle) fun last hl => ?_
      have hl : (s.seeProgress report).lastBarAt = some last := hl
      have hd : BAR_INTERVAL / 2 ≤ now - last := by simpa [hl] using hd
      simp only [BAR_INTERVAL] at hd ⊢
      omega

-- The time from which the next bar is at least half an interval away.
def mark (s : Sparkline) (start : Nat) : Nat :=
  s.lastBarAt.elim start (· + BAR_INTERVAL / 2)

-- What holds at any time of a run, of the bars it has shown and the counts it has rendered first.
structure Inv (start now : Nat) (first : Option UdpIntervalProgress) (shown : List ThroughputSample)
    (s : Sparkline) : Prop where
  since    : s.startTime = some start
  begun    : start ≤ now
  history  : s.throughputHistory = shown.rtake SPARKLINE_HISTORY
  fits     : ∀ p ∈ s.latestUdpProgress, p.packets ≤ U64.max
  rendered : ∀ p ∈ s.prevUdpProgress, p.packets ≤ U64.max ∧ ∃ q ∈ s.latestUdpProgress, p ≤ q
  baseline : first = none ↔ s.prevUdpProgress = none
  windows  : (shown.map (·.intervalPackets)).sum + first.elim 0 packets =
    s.prevUdpProgress.elim 0 packets
  lost     : ∀ bar ∈ shown, bar.lostPackets ≤ bar.intervalPackets
  clock    : ∀ t ∈ s.lastBarAt, start ≤ t ∧ t ≤ now
  pace     : start + shown.length * (BAR_INTERVAL / 2) ≤ s.mark start

-- The counts of a bar are those of the packets between two snapshots, the later of which is fresher.
theorem interval_eq {curr prev : UdpIntervalProgress} (hc : s.latestUdpProgress = some curr)
    (hp : s.prevUdpProgress = some prev) (fc : curr.packets ≤ U64.max)
    (fp : prev.packets ≤ U64.max) (h : prev ≤ curr) :
    s.interval.1 + prev.packets = curr.packets ∧ s.interval.2 ≤ s.interval.1 := by
  have ⟨hr, he⟩ := le_def.mp h
  rw [expected_eq_packets fc, expected_eq_packets fp] at he
  simp only [interval, hc, hp, expected_eq_packets fc, expected_eq_packets fp, U64.saturatingSub]
  unfold packets at *
  omega

theorem interval_eq_zero (h : s.latestUdpProgress = none ∨ s.prevUdpProgress = none) :
    s.interval = (0, 0) := by
  unfold interval
  split
  case h_1 hc hp => simp [hc, hp] at h
  case h_2       => rfl

theorem inv_started : Inv start start none [] (started start) where
  since    := rfl
  begun    := le_refl _
  history  := rfl
  fits     := fun _ h => nomatch h
  rendered := fun _ h => nomatch h
  baseline := Iff.rfl
  windows  := rfl
  lost     := fun _ h => nomatch h
  clock    := fun _ h => nomatch h
  pace     := by simp [mark, started]

-- The history keeps the bars which were pushed last.
theorem pushThroughputSample_history {bar : ThroughputSample}
    (h : s.throughputHistory = shown.rtake SPARKLINE_HISTORY) :
    (s.pushThroughputSample bar).throughputHistory = (shown ++ [bar]).rtake SPARKLINE_HISTORY := by
  have hd : shown.rtake SPARKLINE_HISTORY ++ [bar] =
      (shown ++ [bar]).drop (shown.length - SPARKLINE_HISTORY) := by
    rw [List.rtake, List.drop_append_of_le_length (Nat.sub_le ..)]
  have hl : ((shown ++ [bar]).drop (shown.length - SPARKLINE_HISTORY)).length =
      shown.length + 1 - (shown.length - SPARKLINE_HISTORY) := by simp
  simp only [pushThroughputSample, h, hd, hl]
  split
  case isTrue hf =>
    rw [List.tail_drop, List.rtake, List.length_append, List.length_singleton]
    congr 1
    omega
  case isFalse hf =>
    rw [List.rtake, List.length_append, List.length_singleton]
    congr 1
    omega

namespace Inv

theorem wait (i : Inv start now first shown s) (h : now ≤ now') : Inv start now' first shown s where
  __ := i
  begun     := i.begun.trans h
  clock t m := (i.clock t m).imp_right (·.trans h)

-- Fresher counts may take the place of the latest ones, which leaves the rendered ones behind them.
theorem see (i : Inv start now first shown s) (h : ∀ p ∈ report.udpProgress, p.packets ≤ U64.max) :
    Inv start now first shown (s.seeProgress report) where
  __ := i
  fits p hp := by
    cases Option.or_eq_some_iff.mp hp
    case inl hn => exact h p (Option.filter_eq_some_iff.mp hn).left
    case inr hl => exact i.fits p hl.right
  rendered p hp := by
    have ⟨fp, q, hq, hle⟩ := i.rendered p hp
    refine ⟨fp, ?_⟩
    cases hn : report.udpProgress.filter fun candidate =>
      s.latestUdpProgress.all (candidate.isAtLeastAsFreshAs ·)
    case none      => exact ⟨q, by simpa [seeProgress, hn] using hq, hle⟩
    case some next =>
      have hf : next.isAtLeastAsFreshAs q := by
        simpa [Option.mem_def.mp hq] using (Option.filter_eq_some_iff.mp hn).right
      exact ⟨next, by simp [seeProgress, hn], hle.trans hf⟩

theorem first_or (i : Inv start now first shown s) : first.or s.prevUdpProgress = first := by
  cases hf : first
  case none   => exact i.baseline.mp hf
  case some p => rfl

-- What a bar says is about the window which begins with the counts rendered last.
theorem sample_eq (i : Inv start now first shown s) (mbps : Float) {p : UdpIntervalProgress}
    (hp : s.prevUdpProgress = some p) : ∃ q, s.latestUdpProgress = some q ∧
      (s.sample mbps).intervalPackets + p.packets = q.packets ∧
      (s.sample mbps).lostPackets ≤ (s.sample mbps).intervalPackets := by
  have ⟨fp, q, hq, hle⟩ := i.rendered p hp
  exact ⟨q, hq, interval_eq hq hp (i.fits q hq) fp hle⟩

theorem append {t : Nat} (i : Inv start now first shown s) (hs : start ≤ t) (hn : t ≤ now)
    (hm : ∀ last ∈ s.lastBarAt, last + BAR_INTERVAL / 2 ≤ t) :
    Inv start now (first.or (s.appendBar mbps t).2.prevUdpProgress) (shown ++ [s.sample mbps])
      (s.appendBar mbps t).2 where
  since    := i.since
  begun    := i.begun
  history  := pushThroughputSample_history i.history
  fits     := i.fits
  rendered p hp := by
    cases Option.or_eq_some_iff.mp hp
    case inl hl => exact ⟨i.fits p hl, p, hl, le_refl p⟩
    case inr hr =>
      have ⟨_, q, hq, _⟩ := i.rendered p hr.right
      exact nomatch hr.left.symm.trans hq
  baseline := by
    simp only [appendBar, Option.or_eq_none_iff, i.baseline]
    exact and_iff_right_of_imp (·.right)
  windows := by
    have hw := i.windows
    rw [List.map_append, List.sum_append]
    cases hp : s.prevUdpProgress
    case none =>
      rw [i.baseline.mpr hp, hp] at hw
      rw [i.baseline.mpr hp, Option.none_or]
      have hz : (s.sample mbps).intervalPackets = 0 := by
        simp [sample, interval_eq_zero (.inr hp)]
      simpa [hz] using hw
    case some p =>
      have ⟨q, hq, he, _⟩ := i.sample_eq mbps hp
      have hr : (s.appendBar mbps t).2.prevUdpProgress = some q := by
        simp [appendBar, hq]
      have hf : first.or (some q) = first := by
        cases hf : first
        case none   => exact nomatch (i.baseline.mp hf).symm.trans hp
        case some f => rfl
      rw [hp] at hw
      rw [hr, hf]
      simp only [Option.elim_some, List.map_singleton, List.sum_singleton] at hw ⊢
      omega
  lost bar hb := by
    cases List.mem_append.mp hb
    case inl hb => exact i.lost bar hb
    case inr hb =>
      cases List.mem_singleton.mp hb
      cases hp : s.prevUdpProgress
      case none   => simp [sample, interval_eq_zero (.inr hp)]
      case some p =>
        have ⟨_, _, _, hle⟩ := i.sample_eq mbps hp
        exact hle
  clock t' ht := by
    cases ht
    exact ⟨hs, hn⟩
  pace := by
    have hp := i.pace
    simp only [mark, appendBar, Option.elim_some, List.length_append, List.length_singleton,
      Nat.add_one_mul] at hp ⊢
    generalize BAR_INTERVAL / 2 = half at *
    cases hl : s.lastBarAt
    case none =>
      rw [hl, Option.elim_none] at hp
      omega
    case some last =>
      have := hm last hl
      rw [hl, Option.elim_some] at hp
      omega

-- A step which appends no bar.
theorem quiet (i : Inv start now first shown s) :
    Inv start now (first.or s.prevUdpProgress) (shown ++ none.toList) s := by
  rw [i.first_or, Option.toList_none, List.append_nil]
  exact i

theorem draws {r : Option ThroughputSample × Sparkline} (i : Inv start now first shown s)
    (d : Draws now s r) : Inv start now (first.or r.2.prevUdpProgress) (shown ++ r.1.toList) r.2 := by
  cases d
  case quiet                     => exact i.quiet
  case append t current since pace =>
    refine i.append ?_ current pace
    cases hl : s.lastBarAt
    case none      => exact since start (by rw [hl]; exact i.since) i.begun
    case some last =>
      have ⟨hs, hn⟩ := i.clock last hl
      exact hs.trans (since last (by rw [hl]; rfl) hn)

theorem step (i : Inv start now first shown s) (hn : now ≤ event.now)
    (h : ∀ p ∈ event.udpProgress, p.packets ≤ U64.max) :
    Inv start event.now (first.or (machine s event).2.prevUdpProgress)
      (shown ++ (machine s event).1.toList) (machine s event).2 := by
  have i := i.wait hn
  cases event
  case tick               => exact i.draws tick_draws
  case progress report now =>
    have ⟨mbps, d⟩ := @onProgress_draws s now report
    have i : Inv start now first shown { s.seeProgress report with currentThroughputMbps := mbps } :=
      { i.see h with }
    exact i.draws d

end Inv

-- The events of a run in the order of their times, which begins at the given one.
def Timed (now : Nat) (events : List Event) : Prop :=
  (now :: events.map Event.now).Pairwise (· ≤ ·)

-- The time after a run.
def lastTime (now : Nat) (events : List Event) : Nat :=
  (events.map Event.now).getLastD now

theorem bars_cons : bars s (event :: events) =
    (machine s event).1.toList ++ bars (machine s event).2 events := by
  rw [bars, Mealy.outputs_cons]
  cases (machine s event).1 <;> simp [bars]

theorem or_firstRendered : s.prevUdpProgress.or (firstRendered s events) = firstRendered s events := by
  cases events <;> cases h : s.prevUdpProgress <;> simp [firstRendered, h]

theorem Timed.head (t : Timed now (event :: events)) : now ≤ event.now :=
  (List.pairwise_cons.mp t).left event.now (List.mem_cons_self ..)

theorem Timed.tail (t : Timed now (event :: events)) : Timed event.now events :=
  (List.pairwise_cons.mp t).right

theorem Timed.of_prefix {before : List Event} (t : Timed now events) (h : before <+: events) :
    Timed now before :=
  t.sublist <| ((h.map Event.now).sublist.cons_cons now)

theorem lastTime_cons : lastTime now (event :: events) = lastTime event.now events :=
  List.getLastD_cons ..

theorem Inv.run (i : Inv start now first shown s) (timed : Timed now events)
    (fits : ∀ event ∈ events, ∀ p ∈ event.udpProgress, p.packets ≤ U64.max) :
    Inv start (lastTime now events) (first.or (firstRendered s events)) (shown ++ bars s events)
      (machine.after s events) := by
  induction events generalizing s now first shown
  case nil =>
    rw [firstRendered, i.first_or]
    simpa [bars, lastTime] using i
  case cons event events hi =>
    have ⟨fit, fits⟩ := List.forall_mem_cons.mp fits
    have i' := hi (i.step timed.head fit) timed.tail fits
    rw [Option.or_assoc, or_firstRendered, List.append_assoc, ← bars_cons] at i'
    rw [firstRendered, ← Option.or_assoc, i.first_or, lastTime_cons]
    exact i'

-- The clock of the bars does not go back.
theorem Draws.forward {r : Option ThroughputSample × Sparkline} {t : Nat} (d : Draws now s r)
    (h : s.lastBarAt = some t) : ∃ t' ∈ r.2.lastBarAt, t ≤ t' := by
  cases d
  case quiet            => exact ⟨t, h, le_refl t⟩
  case append t' _ _ pace => exact ⟨t', rfl, (Nat.le_add_right ..).trans (pace t h)⟩

theorem step_forward {t : Nat} (h : s.lastBarAt = some t) :
    ∃ t' ∈ (machine s event).2.lastBarAt, t ≤ t' := by
  cases event
  case tick               => exact tick_draws.forward h
  case progress report now =>
    have ⟨_, d⟩ := @onProgress_draws s now report
    exact d.forward h

theorem run_forward {t : Nat} (h : s.lastBarAt = some t) :
    ∃ t' ∈ (machine.after s events).lastBarAt, t ≤ t' := by
  induction events generalizing s t
  case nil => exact ⟨t, h, le_refl t⟩
  case cons event events hi =>
    have ⟨t₁, h₁, hle₁⟩ := @step_forward s event t h
    have ⟨t₂, h₂, hle₂⟩ := hi h₁
    exact ⟨t₂, h₂, hle₁.trans hle₂⟩

-- The bars are drawn from the counts which the totals of the user interface are taken from, too.
theorem Draws.latestUdpProgress {r : Option ThroughputSample × Sparkline} (d : Draws now s r) :
    r.2.latestUdpProgress = s.latestUdpProgress := by
  cases d <;> rfl

theorem latestUdpProgress_eq_app {app app' : App} (h : s.latestUdpProgress = app.latestUdpProgress)
    (ho : app.onProgress report = some app') :
    (s.onProgress report now).2.latestUdpProgress = app'.latestUdpProgress := by
  have hs : (s.seeProgress report).latestUdpProgress = (app.seeProgress report).latestUdpProgress := by
    simp only [seeProgress, App.seeProgress, h]
  obtain ⟨_, d⟩ := @onProgress_draws s now report
  rw [d.latestUdpProgress, hs]
  unfold App.onProgress at ho
  split at ho
  case isTrue  => rw [← Option.some_inj.mp ho]
  case isFalse =>
    have ho : (app.countProgress report).bind App.detectEvents = some app' := by
      simpa [App.countProgress, Option.bind_assoc] using ho
    obtain ⟨app₁, h₁, h₂⟩ := Option.bind_eq_some_iff.mp ho
    exact ((App.detectEvents_losses h₂).left.trans (App.countProgress_spec h₁).left).symm

-- What a user can rely on after a run since the start of a test.
structure Steady (start : Nat) (events : List Event) : Prop where
  bounded : (machine.after (started start) events).throughputHistory.length ≤ SPARKLINE_HISTORY
  latest  : (machine.after (started start) events).throughputHistory =
    (bars (started start) events).rtake SPARKLINE_HISTORY
  lost    : ∀ bar ∈ bars (started start) events, bar.lostPackets ≤ bar.intervalPackets
  windows : ((bars (started start) events).map (·.intervalPackets)).sum +
      (firstRendered (started start) events).elim 0 packets =
    (machine.after (started start) events).prevUdpProgress.elim 0 packets
  forward : ∀ before, before <+: events →
    ∀ t ∈ (machine.after (started start) before).lastBarAt,
      ∃ t' ∈ (machine.after (started start) events).lastBarAt, t ≤ t'
  current : ∀ t ∈ (machine.after (started start) events).lastBarAt, t ≤ lastTime start events
  pace    : ∀ T, (bars (started start) (events.takeWhile (·.now ≤ start + T * BAR_INTERVAL))).length
    ≤ 2 * T + 1

theorem length_bars_le {T : Nat} (timed : Timed start events)
    (fits : ∀ event ∈ events, ∀ p ∈ event.udpProgress, p.packets ≤ U64.max)
    (h : ∀ event ∈ events, event.now ≤ start + T * BAR_INTERVAL) :
    (bars (started start) events).length ≤ 2 * T + 1 := by
  have i := inv_started.run timed fits
  have hl : lastTime start events ≤ start + T * BAR_INTERVAL := by
    cases events using List.reverseRecOn with
    | nil                         => simp [lastTime]
    | append_singleton events event => simpa [lastTime] using h event (by simp)
  have hm : (machine.after (started start) events).mark start ≤
      start + T * BAR_INTERVAL + BAR_INTERVAL / 2 := by
    cases hc : (machine.after (started start) events).lastBarAt
    case none   => simp [mark, hc, Nat.add_assoc]
    case some t => simpa [mark, hc] using (i.clock t hc).right.trans hl
  have hp := i.pace
  simp only [List.nil_append] at hp
  have half : BAR_INTERVAL / 2 = 500000000 := rfl
  simp only [half, BAR_INTERVAL] at hp hm
  omega

-- No matter in which order ticks, reports and feedback come, and what counts they carry.
theorem run_steady (start : Nat) (events : List Event) (timed : Timed start events)
    (fits : ∀ event ∈ events, ∀ p ∈ event.udpProgress,
      p.packetsReceived + p.packetsLost ≤ U64.max) :
    Steady start events := by
  have i := inv_started.run timed fits
  exact {
    bounded := by
      rw [i.history, List.nil_append, List.rtake, List.length_drop]
      omega
    latest  := i.history
    lost    := i.lost
    windows := i.windows
    forward := by
      rintro before ⟨rest, rfl⟩ t ht
      rw [Mealy.after_append]
      exact run_forward ht
    current := fun t ht => (i.clock t ht).right
    pace    := fun T => by
      have hp := List.takeWhile_prefix (l := events) fun event : Event =>
        decide (event.now ≤ start + T * BAR_INTERVAL)
      refine length_bars_le (timed.of_prefix hp) (fun event he => fits event (hp.subset he))
        fun event he => ?_
      simpa using List.mem_takeWhile_imp he
  }

def readings (udpFeedbackOnly : Bool) (packetsReceived packetsLost : Nat) : TestProgress where
  totalBytes         := 0
  throughputMbps     := 100.0
  streams            := []
  totalRetransmits   := none
  bytesSent          := none
  bytesReceived      := none
  throughputSendMbps := none
  throughputRecvMbps := none
  udpProgress        := some { packetsReceived, packetsLost }
  udpFeedbackOnly    := udpFeedbackOnly

-- After a first report only feedback comes through, until the reports of the stall come all at once.
def stalled : List Event := [
  .progress (readings false 1000 0) 500000000,
  .progress (readings true 1500 100) 1900000000,
  .tick 2400000000,
  .tick 2500000000,
  .progress (readings true 2000 150) 3100000000,
  .tick 3500000000,
  .progress (readings false 1200 0) 3550000000,
  .progress (readings false 2500 150) 3560000000,
  .tick 4000000000]

theorem run_steady_stalled : Steady 0 stalled := by
  refine run_steady 0 stalled (show List.Pairwise _ _ by decide) ?_
  simp [stalled, readings, Event.udpProgress, U64.max]

-- The stall is shown by two bars, and the late reports by a third one, which has nothing new to tell.
example : (bars (started 0) stalled).map (fun bar => (bar.intervalPackets, bar.lostPackets)) =
    [(0, 0), (600, 100), (550, 50), (0, 0)] := rfl

end Sparkline
