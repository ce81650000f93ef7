import Xfr.Client.PrintTask

-- What an interval adds to the columns of bytes and of retransmits.
structure Accrued where
  progress    : TimedProgress
  retransmits : Nat

namespace Accrued

def bytes (a : Accrued) : Nat :=
  a.progress.totalBytes

-- The number of retransmits since the start of the test, as of the last of the given intervals.
def lastTotal (as : List Accrued) : Nat :=
  (as.getLast?.bind (·.progress.totalRetransmits)).getD 0

end Accrued

namespace Row

def accrued (row : Row) : Accrued where
  progress    := row.progress
  retransmits := row.retransmits.getD 0

end Row

namespace PrintTask

-- The retransmits of an interval are those since the interval before it, or those of its streams.
def gained (progress : TimedProgress) (last : Nat) : Nat :=
  match progress.totalRetransmits with
  | some cumulative => cumulative - last
  | none            => (progress.streams.filterMap (·.retransmits)).sum

def accrued : Nat → List TimedProgress → List Accrued
  | _, []                        => []
  | last, progress :: progresses =>
    if progress.udpFeedbackOnly then accrued last progresses else
      ⟨progress, gained progress last⟩ ::
        accrued (progress.totalRetransmits.getD last) progresses

def duringOmit (options : RowOptions) (progresses : List TimedProgress) : List Accrued :=
  (accrued 0 progresses).filter (options.omitted ·.progress.elapsedMs)

def afterOmit (options : RowOptions) (progresses : List TimedProgress) : List Accrued :=
  (accrued 0 progresses).filter (!options.omitted ·.progress.elapsedMs)

-- The first one of each report interval is shown, the others are hidden.
def shown (options : RowOptions) : Int → List Accrued → List Accrued
  | _, []         => []
  | last, a :: as =>
    if last < options.interval a.progress.elapsedMs then
      a :: shown options (options.interval a.progress.elapsedMs) as
    else shown options last as

def hidden (options : RowOptions) : Int → List Accrued → List Accrued
  | _, []         => []
  | last, a :: as =>
    if last < options.interval a.progress.elapsedMs then
      hidden options (options.interval a.progress.elapsedMs) as
    else a :: hidden options last as

-- The count of all retransmits is known at each interval and does not fall.
structure Cumulative (progresses : List TimedProgress) : Prop where
  known  : ∀ progress ∈ progresses, progress.udpFeedbackOnly = false →
    progress.totalRetransmits.isSome
  sorted : progresses.Pairwise fun a b => ∀ m ∈ a.totalRetransmits, ∀ n ∈ b.totalRetransmits, m ≤ n

variable {options : RowOptions} {task task' : PrintTask} {progress : TimedProgress}
variable {progresses : List TimedProgress} {as : List Accrued} {last : Int} {total : Nat}

theorem shown_sublist : (shown options last as).Sublist as := by
  induction as generalizing last
  case nil          => exact .slnil
  case cons a as hi =>
    unfold shown
    split
    case isTrue  => exact hi.cons_cons a
    case isFalse => exact hi.cons a

theorem sum_shown_add_sum_hidden {f : Accrued → Nat} :
    ((shown options last as).map f).sum + ((hidden options last as).map f).sum =
      (as.map f).sum := by
  induction as generalizing last
  case nil          => rfl
  case cons a as hi =>
    unfold shown hidden
    split
    case isTrue =>
      rw [List.map_cons, List.map_cons, List.sum_cons, List.sum_cons, Nat.add_assoc, hi]
    case isFalse =>
      rw [List.map_cons, List.map_cons, List.sum_cons, List.sum_cons, Nat.add_left_comm, hi]

-- Behind the last one which is shown nothing is.
theorem exists_window : ∃ window rest, as = window ++ rest ∧
    window.getLast? = (shown options last as).getLast? ∧
    shown options last window = shown options last as := by
  induction as generalizing last
  case nil          => exact ⟨[], [], rfl, rfl, rfl⟩
  case cons a as hi =>
    by_cases h : last < options.interval a.progress.elapsedMs
    case pos =>
      have ⟨window, rest, he, hl, hs⟩ := @hi (options.interval a.progress.elapsedMs)
      refine ⟨a :: window, rest, by rw [he, List.cons_append], ?_, ?_⟩
      · simp only [shown, if_pos h, List.getLast?_cons, hl]
      · simp only [shown, if_pos h, hs]
    case neg =>
      have ⟨window, rest, he, hl, hs⟩ := @hi last
      cases window
      case nil =>
        have hn : shown options last as = [] := by rw [← hs]; rfl
        exact ⟨[], a :: as, rfl, by simp [shown, if_neg h, hn], by simp [shown, if_neg h, hn]⟩
      case cons b window =>
        refine ⟨a :: b :: window, rest, by rw [he]; rfl, ?_, ?_⟩
        · rw [List.getLast?_cons_cons, hl, shown, if_neg h]
        · rw [shown, if_neg h, hs, shown, if_neg h]

theorem intervalRetransmits_spec {retransmits : Option Nat} {lastRetransmits : Nat}
    (h : intervalRetransmits progress.toTestProgress total = some (retransmits, lastRetransmits)) :
    retransmits.getD 0 = gained progress total ∧
    lastRetransmits = progress.totalRetransmits.getD total := by
  unfold intervalRetransmits at h
  cases ht : progress.totalRetransmits
  case some cumulative =>
    simp only [ht, Option.some.injEq, Prod.mk.injEq] at h
    obtain ⟨hr, hl⟩ := h
    simp [gained, ht, ← hr, ← hl, U64.saturatingSub]
  case none =>
    simp only [ht, Option.map_eq_some_iff, Prod.mk.injEq] at h
    obtain ⟨sum, h, hr, hl⟩ := h
    simp only [gained, ht, Option.getD_none, ← hr, ← hl, and_true]
    exact sumOfAny_spec h

-- A run prints a row for what is shown of the intervals after the omitted ones.
theorem rows_eq_shown (hq : options.quiet = false) (h : run options task progresses = some task') :
    task'.rows.map Row.accrued = task.rows.map Row.accrued ++
      shown options task.lastPrintedInterval
        ((accrued task.lastRetransmits progresses).filter
          (!options.omitted ·.progress.elapsedMs)) := by
  induction progresses generalizing task
  case nil =>
    cases h
    simp [accrued, shown]
  case cons progress progresses hi =>
    have ⟨task₁, ho, h⟩ := run_cons.mp h
    rw [hi h]
    cases onProgress_step ho
    case feedback hf => simp [cacheUdpProgress, accrued, hf]
    case omitted hf counts omitted =>
      have ⟨_, hl⟩ := intervalRetransmits_spec counts
      simp [skipOmitted, cacheUdpProgress, accrued, hf, omitted, hl]
    case hidden hf counts kept hides =>
      have ⟨_, hl⟩ := intervalRetransmits_spec counts
      have hn : ¬task.lastPrintedInterval < options.interval progress.elapsedMs :=
        fun new => hides ⟨kept, hq, new⟩
      simp [cacheUdpProgress, accrued, hf, kept, hl, shown, hn]
    case printed hf counts shows _ =>
      have ⟨hr, hl⟩ := intervalRetransmits_spec counts
      simp [accrued, hf, shows.kept, shows.new, hl, hr, shown, Row.accrued]

-- A quiet task prints nothing.
theorem rows_eq_of_quiet (hq : options.quiet = true)
    (h : run options task progresses = some task') : task'.rows = task.rows := by
  induction progresses generalizing task
  case nil =>
    cases h
    rfl
  case cons progress progresses hi =>
    have ⟨task₁, ho, h⟩ := run_cons.mp h
    rw [hi h]
    cases onProgress_step ho
    case feedback               => rfl
    case omitted                => rfl
    case hidden                 => rfl
    case printed _ _ shows _    => simp [shows.loud] at hq

theorem map_progress_accrued :
    (accrued total progresses).map (·.progress) = progresses.filter (!·.udpFeedbackOnly) := by
  induction progresses generalizing total
  case nil => rfl
  case cons progress progresses hi =>
    cases hf : progress.udpFeedbackOnly
    case true  => simp [accrued, hf, hi]
    case false => simp [accrued, hf, hi]

theorem Cumulative.tail (c : Cumulative (progress :: progresses)) : Cumulative progresses where
  known p hp := c.known p (List.mem_cons_of_mem _ hp)
  sorted     := (List.pairwise_cons.mp c.sorted).right

-- The differences add up to the last count.
theorem Cumulative.sum_retransmits (c : Cumulative progresses)
    (hl : ∀ progress ∈ progresses, ∀ n ∈ progress.totalRetransmits, total ≤ n)
    {before rest : List Accrued} (h : accrued total progresses = before ++ rest) :
    (before.map (·.retransmits)).sum + total =
      (before.getLast?.bind (·.progress.totalRetransmits)).getD total := by
  induction progresses generalizing total before
  case nil =>
    have ⟨hb, _⟩ := List.append_eq_nil_iff.mp h.symm
    simp [hb]
  case cons progress progresses hi =>
    have ht : ∀ p ∈ progresses, ∀ n ∈ p.totalRetransmits, total ≤ n :=
      fun p hp => hl p (List.mem_cons_of_mem _ hp)
    cases hf : progress.udpFeedbackOnly
    case true =>
      rw [accrued, if_pos hf] at h
      exact hi c.tail ht h
    case false =>
      cases before
      case nil => simp
      case cons a before =>
        have ⟨n, hn⟩ := Option.isSome_iff_exists.mp (c.known progress List.mem_cons_self hf)
        have hle := hl progress List.mem_cons_self n hn
        have hs : ∀ p ∈ progresses, ∀ m ∈ p.totalRetransmits, n ≤ m :=
          fun p hp => (List.pairwise_cons.mp c.sorted).left p hp n hn
        simp only [accrued, hf, hn, Bool.false_eq_true, if_false, Option.getD_some,
          List.cons_append, List.cons.injEq] at h
        have ⟨ha, h⟩ := h
        have hi := hi c.tail hs h
        have hr : a.retransmits = n - total := by simp [← ha, gained, hn]
        have hsum : ((a :: before).map (·.retransmits)).sum + total =
            (before.map (·.retransmits)).sum + n := by
          rw [List.map_cons, List.sum_cons, hr]
          omega
        rw [hsum, hi, List.getLast?_cons]
        cases hb : before.getLast?
        case none => simp [← ha, hn]
        case some b =>
          have hm : b ∈ accrued n progresses :=
            h ▸ List.mem_append_left rest (List.mem_of_getLast? hb)
          have hp : b.progress ∈ progresses.filter (!·.udpFeedbackOnly) :=
            map_progress_accrued ▸ List.mem_map_of_mem hm
          have ⟨hp, hf⟩ := List.mem_filter.mp hp
          have ⟨m, hm⟩ := Option.isSome_iff_exists.mp (c.tail.known _ hp (by simpa using hf))
          simp [hm]

-- What never holds again once it does not splits a list in two.
theorem filter_append_filter_not {α : Type*} {p : α → Bool} {xs : List α}
    (h : xs.Pairwise fun a b => p b = true → p a = true) :
    xs.filter p ++ xs.filter (!p ·) = xs := by
  induction xs
  case nil          => rfl
  case cons x xs hi =>
    have ⟨hx, h⟩ := List.pairwise_cons.mp h
    cases hp : p x
    case true =>
      rw [List.filter_cons_of_pos hp, List.filter_cons_of_neg (by simp [hp]), List.cons_append,
        hi h]
    case false =>
      have hn : ∀ y ∈ xs, p y = false := fun y hy =>
        Bool.eq_false_of_not_eq_true fun hpy => by simp [hx y hy hpy] at hp
      have hf : (x :: xs).filter p = [] := by simpa [List.filter_eq_nil_iff, hp] using hn
      have ht : (x :: xs).filter (!p ·) = x :: xs := by simpa [List.filter_eq_self, hp] using hn
      rw [hf, ht, List.nil_append]

theorem duringOmit_append_afterOmit (hs : progresses.Pairwise (·.elapsedMs ≤ ·.elapsedMs)) :
    duringOmit options progresses ++ afterOmit options progresses = accrued 0 progresses := by
  have hp : ((accrued 0 progresses).map (·.progress)).Pairwise (·.elapsedMs ≤ ·.elapsedMs) := by
    rw [map_progress_accrued]
    exact hs.filter _
  apply filter_append_filter_not
  exact (List.pairwise_map.mp hp).imp fun hle => options.omitted_of_le hle

open Accrued

theorem Cumulative.sum_window (c : Cumulative progresses)
    (hs : progresses.Pairwise (·.elapsedMs ≤ ·.elapsedMs)) {window rest : List Accrued}
    (h : afterOmit options progresses = window ++ rest) :
    (window.map (·.retransmits)).sum =
      lastTotal window - lastTotal (duringOmit options progresses) := by
  have hl : ∀ progress ∈ progresses, ∀ n ∈ progress.totalRetransmits, 0 ≤ n :=
    fun _ _ _ _ => Nat.zero_le _
  have ha := (@duringOmit_append_afterOmit options _ hs).symm
  have hd := c.sum_retransmits hl ha
  rw [h, ← List.append_assoc] at ha
  have hw := c.sum_retransmits hl ha
  cases hn : window.getLast?
  case none => simp [lastTotal, List.getLast?_eq_none_iff.mp hn]
  case some a =>
    rw [List.map_append, List.sum_append, List.getLast?_append, hn] at hw
    simp only [Nat.add_zero, Option.some_or] at hd hw
    simp only [lastTotal, hn, ← hd, ← hw]
    omega

-- The columns account for all but the hidden intervals, from the end of the omitted seconds to the
-- last row. A hidden interval is one which starts no new report interval.
theorem rows_account (h : run options {} progresses = some task) :
    let rows := task.rows.map Row.accrued
    (options.quiet = false → rows = shown options (-1) (afterOmit options progresses)) ∧
    ∃ window rest, afterOmit options progresses = window ++ rest ∧
      window.getLast? = rows.getLast? ∧
      rows = shown options (-1) window ∧
      rows.Sublist window ∧
      (rows.map bytes).sum + ((hidden options (-1) window).map bytes).sum =
        (window.map bytes).sum ∧
      (rows.map (·.retransmits)).sum + ((hidden options (-1) window).map (·.retransmits)).sum =
        (window.map (·.retransmits)).sum ∧
      (Cumulative progresses → progresses.Pairwise (·.elapsedMs ≤ ·.elapsedMs) →
        (window.map (·.retransmits)).sum =
          lastTotal window - lastTotal (duringOmit options progresses)) := by
  intro rows
  cases hq : options.quiet
  case true =>
    have hr : rows = [] := by
      simp only [rows, rows_eq_of_quiet hq h, List.map_nil]
    rw [hr]
    exact ⟨nofun, [], afterOmit options progresses, rfl, rfl, rfl, .slnil, rfl, rfl,
      fun _ _ => (Nat.zero_sub _).symm⟩
  case false =>
    have hr : rows = shown options (-1) (afterOmit options progresses) := rows_eq_shown hq h
    have ⟨window, rest, he, hl, hs⟩ :=
      @exists_window options (afterOmit options progresses) (-1)
    rw [hr]
    refine ⟨fun _ => rfl, window, rest, he, hl, hs.symm, hs ▸ shown_sublist, ?_, ?_, ?_⟩
    · exact hs ▸ sum_shown_add_sum_hidden
    · exact hs ▸ sum_shown_add_sum_hidden
    · exact fun c hp => c.sum_window hp he

-- Rows of two seconds each.
def everyTwoSeconds : RowOptions where
  quiet         := false
  omitted ms    := ms ≤ 0
  interval ms   := Int.ofNat (ms / 2000)
  omitted_of_le := RowOptions.le_zero_of_le

-- A report of a hundred bytes, and of the given number of retransmits.
def report (elapsedMs totalRetransmits : Nat) : TimedProgress where
  totalBytes         := 100
  throughputMbps     := 0.0
  streams            := []
  totalRetransmits   := totalRetransmits
  bytesSent          := none
  bytesReceived      := none
  throughputSendMbps := none
  throughputRecvMbps := none
  udpProgress        := none
  udpFeedbackOnly    := false
  elapsedMs          := elapsedMs

def fourSeconds : List TimedProgress :=
  [report 1000 1, report 2000 2, report 3000 3, report 4000 4]

theorem rows_account_four_seconds : ∃ task, run everyTwoSeconds {} fourSeconds = some task ∧
    ∃ window rest, afterOmit everyTwoSeconds fourSeconds = window ++ rest ∧
      task.rows.map Row.accrued = shown everyTwoSeconds (-1) window := by
  have hr : (run everyTwoSeconds {} fourSeconds).isSome := by decide
  have ⟨task, h⟩ := Option.isSome_iff_exists.mp hr
  have ⟨_, window, rest, he, _, hs, _⟩ := rows_account h
  exact ⟨task, h, window, rest, he, hs⟩

-- The third second starts no new report interval, and no row counts it.
theorem third_second_not_counted :
    ((run everyTwoSeconds {} fourSeconds).map fun task =>
      (task.rows.map (·.progress.elapsedMs),
        ((task.rows.map Row.accrued).map bytes).sum,
        ((task.rows.map Row.accrued).map (·.retransmits)).sum)) =
      some ([1000, 2000, 4000], 300, 3) ∧
    ((afterOmit everyTwoSeconds fourSeconds).map bytes).sum = 400 ∧
    ((afterOmit everyTwoSeconds fourSeconds).map (·.retransmits)).sum = 4 := by
  decide

end PrintTask
