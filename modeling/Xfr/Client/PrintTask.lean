import Xfr.Client.Overlay
import Xfr.Feedback.Fresh

-- A report together with the time since the start of the test.
structure TimedProgress extends TestProgress where
  elapsedMs : Nat

-- The program compares times as floating numbers of seconds. Only the outcomes matter here: which
-- times are omitted, and the number of the report interval in which a time is.
structure RowOptions where
  quiet         : Bool
  omitted       : Nat → Bool
  interval      : Nat → Int
  omitted_of_le : ∀ {a b}, a ≤ b → omitted b = true → omitted a = true

theorem RowOptions.le_zero_of_le {a b : Nat} (hl : a ≤ b) (h : decide (b ≤ 0) = true) :
    decide (a ≤ 0) = true := by
  simp only [decide_eq_true_eq] at h ⊢
  omega

-- What the writers of the rows are given.
structure Row where
  progress    : TimedProgress
  retransmits : Option Nat
  jitterMs    : Option Float
  lost        : Option Nat

-- The state of the task which prints the reports of a test, and the rows it printed.
structure PrintTask where
  lastPrintedInterval       : Int                        := -1
  lastRetransmits           : Nat                        := 0
  cachedUdpProgress         : Option UdpIntervalProgress := none
  lastPrintedCumulativeLost : Nat                        := 0
  rows                      : List Row                   := []

namespace PrintTask

-- The sum of what the streams report. A sum which is out of bounds makes the program panic.
def sumOfAny (values : List Nat) : Option (Option Nat) :=
  if values.isEmpty then some none else (U64.checkedSum values).map some

def averageOfAny (values : List Float) : Option Float :=
  if values.isEmpty then none else some (values.foldl (· + ·) 0.0 / Float.ofNat values.length)

-- The retransmits of an interval, and the count from which those of the next one are taken.
def intervalRetransmits (progress : TestProgress) (lastRetransmits : Nat) :
    Option (Option Nat × Nat) :=
  match progress.totalRetransmits with
  | some cumulative => some (U64.saturatingSub cumulative lastRetransmits, cumulative)
  | none            => (sumOfAny (progress.streams.filterMap (·.retransmits))).map (·, lastRetransmits)

-- A late reading does not undo a fresher one.
def cacheUdpProgress (task : PrintTask) (progress : TestProgress) : PrintTask :=
  let udpProgress := progress.udpProgress.filter fun p =>
    task.cachedUdpProgress.all (p.isAtLeastAsFreshAs ·)
  { task with cachedUdpProgress := udpProgress.or task.cachedUdpProgress }

-- Losses of the omitted seconds are not part of the first row.
def skipOmitted (task : PrintTask) : PrintTask :=
  { task with
    lastPrintedCumulativeLost :=
      task.cachedUdpProgress.elim task.lastPrintedCumulativeLost (·.packetsLost) }

-- The losses since the last row, and the count from which those of the next row are taken.
def intervalLost (task : PrintTask) (progress : TestProgress) : Option (Option Nat × Nat) :=
  match task.cachedUdpProgress with
  | some cum =>
    some (U64.saturatingSub cum.packetsLost task.lastPrintedCumulativeLost, cum.packetsLost)
  | none     =>
    (sumOfAny (progress.streams.filterMap (·.lost))).map (·, task.lastPrintedCumulativeLost)

def print (task : PrintTask) (interval : Int) (progress : TimedProgress)
    (retransmits : Option Nat) : Option PrintTask := do
  let (lost, lastPrintedCumulativeLost) ← task.intervalLost progress.toTestProgress
  let jitterMs := averageOfAny (progress.streams.filterMap (·.jitterMs))
  return { task with
    lastPrintedInterval := interval
    lastPrintedCumulativeLost
    rows := task.rows ++ [{ progress, retransmits, jitterMs, lost }] }

def onProgress (options : RowOptions) (task : PrintTask) (progress : TimedProgress) :
    Option PrintTask :=
  let task := task.cacheUdpProgress progress.toTestProgress
  if progress.udpFeedbackOnly then some task
  else do
    let (retransmits, lastRetransmits) ←
      intervalRetransmits progress.toTestProgress task.lastRetransmits
    let task := { task with lastRetransmits }
    let interval := options.interval progress.elapsedMs
    if options.omitted progress.elapsedMs then some task.skipOmitted
    else if options.quiet then some task
    else if interval ≤ task.lastPrintedInterval then some task
    else task.print interval progress retransmits

def run (options : RowOptions) (task : PrintTask) (progresses : List TimedProgress) :
    Option PrintTask :=
  progresses.foldlM (onProgress options) task

variable {options : RowOptions} {task task' : PrintTask} {progress : TimedProgress}
variable {progresses : List TimedProgress}

-- The intervals which are printed.
structure Shows (options : RowOptions) (task : PrintTask) (progress : TimedProgress) : Prop where
  kept : options.omitted progress.elapsedMs = false
  loud : options.quiet = false
  new  : task.lastPrintedInterval < options.interval progress.elapsedMs

-- All a report can do. A full one counts its retransmits first, whatever becomes of it then.
inductive Step (options : RowOptions) (task : PrintTask) (progress : TimedProgress) :
    PrintTask → Prop
  | feedback (feedbackOnly : progress.udpFeedbackOnly = true) :
    Step options task progress (task.cacheUdpProgress progress.toTestProgress)
  | omitted {retransmits : Option Nat} {lastRetransmits : Nat}
    (full : progress.udpFeedbackOnly = false)
    (counts : intervalRetransmits progress.toTestProgress task.lastRetransmits =
      some (retransmits, lastRetransmits))
    (omitted : options.omitted progress.elapsedMs = true) :
    Step options task progress
      { task.cacheUdpProgress progress.toTestProgress with lastRetransmits }.skipOmitted
  | hidden {retransmits : Option Nat} {lastRetransmits : Nat}
    (full : progress.udpFeedbackOnly = false)
    (counts : intervalRetransmits progress.toTestProgress task.lastRetransmits =
      some (retransmits, lastRetransmits))
    (kept : options.omitted progress.elapsedMs = false)
    (hides : ¬Shows options task progress) :
    Step options task progress
      { task.cacheUdpProgress progress.toTestProgress with lastRetransmits }
  | printed {retransmits lost : Option Nat} {lastRetransmits lastPrintedCumulativeLost : Nat}
    (full : progress.udpFeedbackOnly = false)
    (counts : intervalRetransmits progress.toTestProgress task.lastRetransmits =
      some (retransmits, lastRetransmits))
    (shows : Shows options task progress)
    (losses : (task.cacheUdpProgress progress.toTestProgress).intervalLost
      progress.toTestProgress = some (lost, lastPrintedCumulativeLost)) :
    Step options task progress {
      lastPrintedInterval := options.interval progress.elapsedMs
      lastRetransmits
      cachedUdpProgress   :=
        (task.cacheUdpProgress progress.toTestProgress).cachedUdpProgress
      lastPrintedCumulativeLost
      rows                := task.rows ++ [{
        progress, retransmits, lost
        jitterMs := averageOfAny (progress.streams.filterMap (·.jitterMs)) }] }

theorem onProgress_step (h : onProgress options task progress = some task') :
    Step options task progress task' := by
  unfold onProgress at h
  cases hf : progress.udpFeedbackOnly
  case true =>
    simp only [hf, if_true, Option.some.injEq] at h
    exact h ▸ .feedback hf
  case false =>
    simp only [hf, Bool.false_eq_true, if_false] at h
    have ⟨(retransmits, lastRetransmits), counts, h⟩ := Option.bind_eq_some_iff.mp h
    cases ho : options.omitted progress.elapsedMs
    case true =>
      simp only [ho, if_true, Option.some.injEq] at h
      exact h ▸ .omitted hf counts ho
    case false =>
      simp only [ho, Bool.false_eq_true, if_false] at h
      cases hq : options.quiet
      case true =>
        simp only [hq, if_true, Option.some.injEq] at h
        exact h ▸ .hidden hf counts ho fun shows => absurd hq (by simp [shows.loud])
      case false =>
        simp only [hq, Bool.false_eq_true, if_false] at h
        split at h
        case isTrue hi =>
          cases h
          exact .hidden hf counts ho fun shows => absurd hi (not_le.mpr shows.new)
        case isFalse hi =>
          have ⟨(lost, lastLost), losses, h⟩ := Option.bind_eq_some_iff.mp h
          cases h
          exact .printed hf counts ⟨ho, hq, not_le.mp hi⟩ losses

theorem sumOfAny_spec {values : List Nat} {sum : Option Nat} (h : sumOfAny values = some sum) :
    sum.getD 0 = values.sum := by
  unfold sumOfAny at h
  split at h
  case isTrue he =>
    cases h
    simp [List.isEmpty_iff.mp he]
  case isFalse =>
    have ⟨n, hn, h⟩ := Option.map_eq_some_iff.mp h
    rw [← h]
    exact (U64.checkedSum_eq_some_iff.mp hn).right.symm

theorem run_cons : run options task (progress :: progresses) = some task' ↔
    ∃ task₁, onProgress options task progress = some task₁ ∧
      run options task₁ progresses = some task' := by
  simp only [run, List.foldlM_cons, Option.bind_eq_bind, Option.bind_eq_some_iff]

theorem run_append_singleton : run options task (progresses ++ [progress]) = some task' ↔
    ∃ task₁, run options task progresses = some task₁ ∧
      onProgress options task₁ progress = some task' := by
  simp [run, List.foldlM_append, Option.bind_eq_some_iff]

end PrintTask
