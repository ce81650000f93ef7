import Xfr.Client.PrintTask
import Mathlib.Data.List.MinMax
import Mathlib.Data.List.TakeWhile

namespace TestProgress

-- The cumulative losses which the receiver reported.
def snapshots (progresses : List TestProgress) : List Nat :=
  progresses.filterMap (·.udpProgress.map (·.packetsLost))

def streamLosses (progress : TestProgress) : Nat :=
  (progress.streams.filterMap (·.lost)).sum

-- Before the first of them losses are only known by what the streams lost in each interval.
def legacyLost (progresses : List TestProgress) : Nat :=
  (((progresses.takeWhile (·.udpProgress.isNone)).filter (!·.udpFeedbackOnly)).map streamLosses).sum

def highestLost (progresses : List TestProgress) : Nat :=
  max ((snapshots progresses).foldr max 0) (legacyLost progresses)

variable {progress : TestProgress} {progresses : List TestProgress} {lost : Nat}

theorem snapshots_append_singleton : snapshots (progresses ++ [progress]) =
    snapshots progresses ++ (progress.udpProgress.map (·.packetsLost)).toList := by
  cases h : progress.udpProgress
  case none   => simp [snapshots, h]
  case some p => simp [snapshots, h]

theorem udpProgress_eq_none (hn : snapshots progresses = []) :
    ∀ progress ∈ progresses, progress.udpProgress = none := by
  simpa [snapshots, List.filterMap_eq_nil_iff] using hn

theorem le_highestLost (h : lost ∈ snapshots progresses) : lost ≤ highestLost progresses :=
  le_max_of_le_left <| List.le_max_of_le h le_rfl

theorem legacyLost_le_highestLost : legacyLost progresses ≤ highestLost progresses :=
  le_max_right _ _

-- Nothing is added once there is a cumulative loss.
theorem legacyLost_append_of_some (h : progress.udpProgress.isSome) :
    legacyLost (progresses ++ [progress]) = legacyLost progresses := by
  have hn : [progress].takeWhile (·.udpProgress.isNone) = [] :=
    List.takeWhile_cons_of_neg (by simpa [Option.isSome_iff_ne_none] using h)
  unfold legacyLost
  rw [List.takeWhile_append]
  split
  case isTrue hl =>
    rw [(List.takeWhile_prefix _).eq_of_length hl, hn, List.append_nil]
  case isFalse => rfl

theorem legacyLost_le_append : legacyLost progresses ≤ legacyLost (progresses ++ [progress]) := by
  unfold legacyLost
  rw [List.takeWhile_append]
  split
  case isTrue hl =>
    rw [(List.takeWhile_prefix _).eq_of_length hl, List.filter_append, List.map_append,
      List.sum_append]
    exact Nat.le_add_right _ _
  case isFalse => exact le_rfl

-- As long as there is none, those of the streams are counted.
theorem legacyLost_append_of_none (hn : snapshots (progresses ++ [progress]) = [])
    (hf : progress.udpFeedbackOnly = false) :
    legacyLost (progresses ++ [progress]) = legacyLost progresses + progress.streamLosses := by
  have hall := udpProgress_eq_none hn
  have ht : ∀ {ps : List TestProgress}, (∀ p ∈ ps, p ∈ progresses ++ [progress]) →
      ps.takeWhile (·.udpProgress.isNone) = ps := fun hs =>
    List.takeWhile_eq_self_iff.mpr fun p hp => by rw [hall p (hs p hp)]; rfl
  unfold legacyLost
  rw [ht fun _ hp => hp, ht fun _ hp => List.mem_append_left _ hp]
  simp [hf]

theorem highestLost_le_append :
    highestLost progresses ≤ highestLost (progresses ++ [progress]) := by
  have hs : (snapshots progresses).foldr max 0 ≤
      (snapshots (progresses ++ [progress])).foldr max 0 := by
    apply List.max_le_of_forall_le
    intro n hn
    have hm : n ∈ snapshots (progresses ++ [progress]) :=
      snapshots_append_singleton ▸ List.mem_append_left _ hn
    exact List.le_max_of_le hm le_rfl
  exact max_le_max hs legacyLost_le_append

theorem highestLost_append_le (h : highestLost progresses ≤ lost)
    (hp : progress.udpProgress.map (·.packetsLost) = some lost) :
    highestLost (progresses ++ [progress]) ≤ lost := by
  have hi : progress.udpProgress.isSome := by
    cases hn : progress.udpProgress
    case none   => simp [hn] at hp
    case some _ => rfl
  apply max_le
  case h₁ =>
    apply List.max_le_of_forall_le
    intro n hn
    rw [snapshots_append_singleton, hp] at hn
    cases List.mem_append.mp hn
    case inl hn => exact (le_highestLost hn).trans h
    case inr hn => exact le_of_eq (List.mem_singleton.mp hn)
  case h₂ =>
    rw [legacyLost_append_of_some hi]
    exact legacyLost_le_highestLost.trans h

-- What both consumers keep is the freshest of the cumulative losses.
theorem mem_snapshots_of_latest {latest : Option UdpIntervalProgress} {cum : UdpIntervalProgress}
    {p : UdpIntervalProgress → Bool}
    (hl : ∀ cum, latest = some cum → cum.packetsLost ∈ snapshots progresses)
    (h : (progress.udpProgress.filter p).or latest = some cum) :
    cum.packetsLost ∈ snapshots (progresses ++ [progress]) := by
  rw [snapshots_append_singleton]
  cases Option.or_eq_some_iff.mp h
  case inl h =>
    have hp := (Option.filter_eq_some_iff.mp h).left
    exact List.mem_append_right _ (by simp [hp])
  case inr h => exact List.mem_append_left _ (hl cum h.right)

theorem latest_eq_none {latest : Option UdpIntervalProgress}
    (h : (progress.udpProgress.filter fun p => latest.all (p.isAtLeastAsFreshAs ·)).or latest =
      none) :
    latest = none ∧ progress.udpProgress = none := by
  have ⟨hp, hn⟩ := Option.or_eq_none_iff.mp h
  refine ⟨hn, ?_⟩
  simpa [Option.filter_eq_none_iff, hn, Option.eq_none_iff_forall_ne_some] using hp

end TestProgress

namespace PrintTask

open TestProgress

-- The sum of the column of losses.
def printedLost (task : PrintTask) : Nat :=
  (task.rows.map (·.lost.getD 0)).sum

variable {options : RowOptions} {task task' : PrintTask} {progress : TimedProgress}
variable {progresses : List TimedProgress}

-- The losses of the next row are counted from what is cached now: this interval is printed, or one
-- of the omitted seconds.
def TakesBaseline (options : RowOptions) (task : PrintTask) (progress : TimedProgress) : Prop :=
  progress.udpFeedbackOnly = false ∧
    (options.omitted progress.elapsedMs = true ∨ Shows options task progress)

-- The count does not fall below what the rows show already, neither before nor now.
def Covers (options : RowOptions) (task : PrintTask) (progress : TimedProgress) : Prop :=
  TakesBaseline options task progress →
    ∀ cum, (task.cacheUdpProgress progress.toTestProgress).cachedUdpProgress = some cum →
      task.printedLost ≤ task.lastPrintedCumulativeLost ∧ task.printedLost ≤ cum.packetsLost

def AllCover (options : RowOptions) (progresses : List TimedProgress) : Prop :=
  ∀ before progress, before ++ [progress] <+: progresses →
    ∀ task, run options {} before = some task → Covers options task progress

-- What is cached is one of the cumulative losses, and so was the baseline.
structure Cached (progresses : List TestProgress) (task : PrintTask) : Prop where
  some     : ∀ cum, task.cachedUdpProgress = some cum → cum.packetsLost ∈ snapshots progresses
  none     : task.cachedUdpProgress = none →
    snapshots progresses = [] ∧ task.lastPrintedCumulativeLost = 0
  baseline : task.lastPrintedCumulativeLost ≤ highestLost progresses

-- The rows show no more than was counted.
def Bounded (progresses : List TestProgress) (task : PrintTask) : Prop :=
  task.printedLost ≤ task.lastPrintedCumulativeLost ∨ task.printedLost ≤ legacyLost progresses

theorem Cached.printed_le {progresses : List TestProgress} (c : Cached progresses task)
    (b : Bounded progresses task) : task.printedLost ≤ highestLost progresses := by
  cases b
  case inl h => exact h.trans c.baseline
  case inr h => exact h.trans legacyLost_le_highestLost

theorem Cached.cache {progresses : List TestProgress} (c : Cached progresses task)
    (progress : TestProgress) :
    Cached (progresses ++ [progress]) (task.cacheUdpProgress progress) := by
  constructor
  case some =>
    exact fun cum h => mem_snapshots_of_latest c.some h
  case none =>
    intro h
    have ⟨hn, hp⟩ := latest_eq_none h
    have ⟨hs, hb⟩ := c.none hn
    exact ⟨by simp [snapshots_append_singleton, hs, hp], hb⟩
  case baseline => exact c.baseline.trans highestLost_le_append

theorem intervalLost_spec {progress : TestProgress} {lost : Option Nat} {baseline : Nat}
    (h : task.intervalLost progress = some (lost, baseline)) :
    (∃ cum, task.cachedUdpProgress = some cum ∧
      lost.getD 0 = cum.packetsLost - task.lastPrintedCumulativeLost ∧
      baseline = cum.packetsLost) ∨
    (task.cachedUdpProgress = none ∧ lost.getD 0 = progress.streamLosses ∧
      baseline = task.lastPrintedCumulativeLost) := by
  unfold intervalLost at h
  cases hc : task.cachedUdpProgress
  case some cum =>
    simp only [hc, Option.some.injEq, Prod.mk.injEq] at h
    have ⟨hl, hb⟩ := h
    exact .inl ⟨cum, rfl, by rw [← hl]; rfl, hb.symm⟩
  case none =>
    simp only [hc, Option.map_eq_some_iff, Prod.mk.injEq] at h
    have ⟨sum, hs, hl, hb⟩ := h
    exact .inr ⟨rfl, hl ▸ sumOfAny_spec hs, hb.symm⟩

theorem skipOmitted_baseline : (∃ cum, task.cachedUdpProgress = some cum ∧
      task.skipOmitted.lastPrintedCumulativeLost = cum.packetsLost) ∨
    (task.cachedUdpProgress = none ∧
      task.skipOmitted.lastPrintedCumulativeLost = task.lastPrintedCumulativeLost) := by
  cases hc : task.cachedUdpProgress
  case none     => exact .inr ⟨rfl, by simp [skipOmitted, hc]⟩
  case some cum => exact .inl ⟨cum, rfl, by simp [skipOmitted, hc]⟩

theorem Cached.step {progresses : List TestProgress} (c : Cached progresses task)
    (s : Step options task progress task') :
    Cached (progresses ++ [progress.toTestProgress]) task' := by
  have hc := c.cache progress.toTestProgress
  cases s
  case feedback  => exact hc
  case hidden    => exact ⟨hc.some, hc.none, hc.baseline⟩
  case omitted r l _ _ _ =>
    cases @skipOmitted_baseline
      { task.cacheUdpProgress progress.toTestProgress with lastRetransmits := l }
    case inl h =>
      have ⟨cum, hs, he⟩ := h
      exact ⟨hc.some, fun hn => absurd (hs.symm.trans hn) nofun,
        he ▸ le_highestLost (hc.some cum hs)⟩
    case inr h =>
      have ⟨hn, he⟩ := h
      exact ⟨hc.some, fun _ => ⟨(hc.none hn).left, he.trans (hc.none hn).right⟩, he ▸ hc.baseline⟩
  case printed losses =>
    cases intervalLost_spec losses
    case inl h =>
      have ⟨cum, hs, _, he⟩ := h
      exact ⟨hc.some, fun hn => absurd (hs.symm.trans hn) nofun,
        he ▸ le_highestLost (hc.some cum hs)⟩
    case inr h =>
      have ⟨hn, _, he⟩ := h
      exact ⟨hc.some, fun _ => ⟨(hc.none hn).left, he.trans (hc.none hn).right⟩, he ▸ hc.baseline⟩

theorem Bounded.step {progresses : List TestProgress} (b : Bounded progresses task)
    (c : Cached progresses task) (covers : Covers options task progress)
    (s : Step options task progress task') :
    Bounded (progresses ++ [progress.toTestProgress]) task' := by
  have hc := c.cache progress.toTestProgress
  have hb : task.printedLost ≤ task.lastPrintedCumulativeLost ∨
      task.printedLost ≤ legacyLost (progresses ++ [progress.toTestProgress]) :=
    b.imp_right (·.trans legacyLost_le_append)
  cases s
  case feedback => exact hb
  case hidden   => exact hb
  case omitted r l hf _ ho =>
    cases @skipOmitted_baseline
      { task.cacheUdpProgress progress.toTestProgress with lastRetransmits := l }
    case inl h =>
      have ⟨cum, hs, he⟩ := h
      have ⟨_, hl⟩ := covers ⟨hf, .inl ho⟩ cum hs
      exact .inl (he ▸ hl)
    case inr h => exact hb.imp_left fun hb => h.right ▸ hb
  case printed hf _ shows losses =>
    cases intervalLost_spec losses
    case inl h =>
      have ⟨cum, hs, hl, he⟩ := h
      have ⟨hb, hp⟩ := covers ⟨hf, .inr shows⟩ cum hs
      have hb : task.printedLost ≤
        (task.cacheUdpProgress progress.toTestProgress).lastPrintedCumulativeLost := hb
      apply Or.inl
      simp only [printedLost, List.map_append, List.sum_append, List.map_cons, List.map_nil,
        List.sum_singleton, hl, he] at hb hp ⊢
      omega
    case inr h =>
      have ⟨hn, hl, _⟩ := h
      have ⟨hs, hz⟩ := hc.none hn
      have hz : task.lastPrintedCumulativeLost = 0 := hz
      have ha := legacyLost_append_of_none hs hf
      have hp : task.printedLost ≤ legacyLost progresses := by
        cases b
        case inl h => omega
        case inr h => exact h
      apply Or.inr
      simp only [printedLost, List.map_append, List.sum_append, List.map_cons, List.map_nil,
        List.sum_singleton, hl, ha] at hp ⊢
      omega

theorem run_cached (h : run options {} progresses = some task) :
    Cached (progresses.map (·.toTestProgress)) task := by
  induction progresses using List.reverseRecOn generalizing task
  case nil =>
    cases h
    exact ⟨nofun, fun _ => ⟨rfl, rfl⟩, Nat.zero_le _⟩
  case append_singleton progresses progress hi =>
    have ⟨task₁, h, ho⟩ := run_append_singleton.mp h
    rw [List.map_append]
    exact (hi h).step (onProgress_step ho)

theorem run_bounded (h : run options {} progresses = some task)
    (covers : AllCover options progresses) :
    Bounded (progresses.map (·.toTestProgress)) task := by
  induction progresses using List.reverseRecOn generalizing task
  case nil =>
    cases h
    exact .inl (Nat.zero_le _)
  case append_singleton progresses progress hi =>
    have ⟨task₁, h, ho⟩ := run_append_singleton.mp h
    have hb := hi h fun before p hp =>
      covers before p (hp.trans (List.prefix_append progresses [progress]))
    rw [List.map_append]
    exact hb.step (run_cached h) (covers progresses progress (List.prefix_refl _) task₁ h)
      (onProgress_step ho)

-- A full report with the given counts and nothing else.
def countsOnly (elapsedMs : Nat) (udpProgress : UdpIntervalProgress) : TimedProgress where
  totalBytes         := 0
  throughputMbps     := 0.0
  streams            := []
  totalRetransmits   := none
  bytesSent          := none
  bytesReceived      := none
  throughputSendMbps := none
  throughputRecvMbps := none
  udpProgress        := udpProgress
  udpFeedbackOnly    := false
  elapsedMs          := elapsedMs

-- Some losses are printed a second time then.
def CountsTwice (options : RowOptions) (progresses : List TimedProgress) : Prop :=
  ∃ task, run options {} progresses = some task ∧
    highestLost (progresses.map (·.toTestProgress)) < task.printedLost

theorem exists_fresher {lost : Nat}
    (hl : ∀ cum, task.cachedUdpProgress = some cum → cum.packetsLost ≤ lost) :
    ∃ p : UdpIntervalProgress, p.packetsLost = lost ∧
      task.cachedUdpProgress.all (p.isAtLeastAsFreshAs ·) = true := by
  cases hc : task.cachedUdpProgress
  case none     => exact ⟨⟨0, lost⟩, rfl, rfl⟩
  case some cum =>
    refine ⟨⟨cum.packetsReceived, lost⟩, rfl, ?_⟩
    have hle := hl cum hc
    simp only [Option.all_some, UdpIntervalProgress.isAtLeastAsFreshAs_iff]
    exact ⟨le_rfl, U64.saturatingAdd_mono le_rfl hle⟩

theorem onProgress_countsOnly {p : UdpIntervalProgress} {ms : Nat} (hq : options.quiet = false)
    (ho : options.omitted ms = false) (hi : task.lastPrintedInterval < options.interval ms)
    (fresh : task.cachedUdpProgress.all (p.isAtLeastAsFreshAs ·) = true) :
    ∃ task', onProgress options task (countsOnly ms p) = some task' ∧
      task'.printedLost =
        task.printedLost + (p.packetsLost - task.lastPrintedCumulativeLost) := by
  have hn : ¬options.interval ms ≤ task.lastPrintedInterval := not_le.mpr hi
  let lost := U64.saturatingSub p.packetsLost task.lastPrintedCumulativeLost
  refine ⟨{
    lastPrintedInterval       := options.interval ms
    lastRetransmits           := task.lastRetransmits
    cachedUdpProgress         := p
    lastPrintedCumulativeLost := p.packetsLost
    rows                      := task.rows ++ [⟨countsOnly ms p, none, none, lost⟩] }, ?_, ?_⟩
  · simp [onProgress, countsOnly, intervalRetransmits, sumOfAny, averageOfAny, print, intervalLost,
      cacheUdpProgress, Option.filter_some, fresh, ho, hq, hn, lost]
  · simp [printedLost, lost, U64.saturatingSub]

-- A baseline below what the rows show lets the next loss count twice.
theorem countsTwice_of_baseline_lt (hq : options.quiet = false)
    (later : ∀ n, ∃ ms, options.omitted ms = false ∧ n < options.interval ms)
    (h : run options {} progresses = some task)
    (hb : task.lastPrintedCumulativeLost < task.printedLost) :
    ∃ progress, CountsTwice options (progresses ++ [progress]) := by
  have ⟨ms, ho, hi⟩ := later task.lastPrintedInterval
  have hc := run_cached h
  have ⟨p, hp, fresh⟩ :=
    @exists_fresher task (highestLost (progresses.map (·.toTestProgress)) + 1) fun cum hs =>
      Nat.le_succ_of_le (le_highestLost (hc.some cum hs))
  have ⟨task', hr, hl⟩ := onProgress_countsOnly hq ho hi fresh
  have hle : highestLost ((progresses ++ [countsOnly ms p]).map (·.toTestProgress)) ≤
      p.packetsLost := by
    rw [List.map_append]
    exact highestLost_append_le (hp ▸ Nat.le_succ _) rfl
  refine ⟨countsOnly ms p, task', run_append_singleton.mpr ⟨task, h, hr⟩, hle.trans_lt ?_⟩
  have := hc.baseline
  omega

-- An interval which takes a baseline below what the rows show leaves such a state behind.
theorem exists_baseline_lt (s : Step options task progress task')
    (h : ¬Covers options task progress) :
    task.lastPrintedCumulativeLost < task.printedLost ∨
    task'.lastPrintedCumulativeLost < task'.printedLost := by
  simp only [Covers, Classical.not_forall, not_and_or, not_le] at h
  have ⟨⟨full, takes⟩, cum, hc, h⟩ := h
  refine h.imp_right fun hl => ?_
  cases s
  case feedback hf => simp [full] at hf
  case hidden kept hides =>
    cases takes
    case inl ho => simp [kept] at ho
    case inr hs => exact absurd hs hides
  case omitted r l _ _ _ =>
    cases @skipOmitted_baseline
      { task.cacheUdpProgress progress.toTestProgress with lastRetransmits := l }
    case inl h =>
      have ⟨_, hs, he⟩ := h
      cases hc.symm.trans hs
      exact he ▸ hl
    case inr h => exact absurd (hc.symm.trans h.left) nofun
  case printed losses =>
    cases intervalLost_spec losses
    case inl h =>
      have ⟨_, hs, _, he⟩ := h
      cases hc.symm.trans hs
      have hle (row : Row) :
          task.printedLost ≤ ((task.rows ++ [row]).map fun row => row.lost.getD 0).sum := by
        rw [List.map_append, List.sum_append]
        exact Nat.le_add_right _ _
      exact he ▸ hl.trans_le (hle _)
    case inr h => exact absurd (hc.symm.trans h.left) nofun

-- Whatever breaks the condition, one more interval makes some losses count twice.
theorem exists_countsTwice (hq : options.quiet = false)
    (later : ∀ n, ∃ ms, options.omitted ms = false ∧ n < options.interval ms)
    (h : run options {} progresses = some task) (hn : ¬AllCover options progresses) :
    ∃ before progress, before <+: progresses ∧ CountsTwice options (before ++ [progress]) := by
  simp only [AllCover, Classical.not_forall] at hn
  obtain ⟨before, progress, hp, task₁, h₁, hn⟩ := hn
  obtain ⟨after, hp⟩ := hp
  obtain ⟨task₂, h₂⟩ : ∃ task₂, run options {} (before ++ [progress]) = some task₂ := by
    rw [← hp] at h
    simp only [run, List.foldlM_append, Option.bind_eq_bind, Option.bind_eq_some_iff] at h ⊢
    obtain ⟨task₂, h, _⟩ := h
    exact ⟨task₂, h⟩
  obtain ⟨_, h₁', ho⟩ := run_append_singleton.mp h₂
  cases h₁.symm.trans h₁'
  cases exists_baseline_lt (onProgress_step ho) hn
  case inl hb =>
    obtain ⟨next, hc⟩ := countsTwice_of_baseline_lt hq later h₁ hb
    exact ⟨before, next, (List.prefix_append _ _).trans ⟨after, hp⟩, hc⟩
  case inr hb =>
    obtain ⟨next, hc⟩ := countsTwice_of_baseline_lt hq later h₂ hb
    exact ⟨before ++ [progress], next, ⟨after, hp⟩, hc⟩

end PrintTask
