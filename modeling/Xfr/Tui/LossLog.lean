import Xfr.Client.PrintedLoss
import Xfr.Tui.App

namespace App

open TestProgress

-- The amount of the line which is logged about losses.
def lossLine (app : App) : Option Nat :=
  if app.udpPacketsLost > app.prevUdpLost then
    let delta := app.udpPacketsLost - app.prevUdpLost
    if delta ≥ 5 then some delta else none
  else none

-- A full report up to the point where the events are detected.
def countProgress (app : App) (progress : TestProgress) : Option App := do
  let app ← (app.addTotal progress).addBidir progress
  let app ← (app.seeProgress progress).addRetransmits progress
  (app.addLost progress).countReport

-- The user interface together with the amounts it logged.
def onProgressLogged (state : App × List Nat) (progress : TestProgress) :
    Option (App × List Nat) :=
  if progress.udpFeedbackOnly then some (state.fst.seeProgress progress, state.snd)
  else do
    let app ← state.fst.countProgress progress
    let app' ← app.detectEvents
    return (app', state.snd ++ app.lossLine.toList)

def runLogged (progresses : List TestProgress) : Option (App × List Nat) :=
  progresses.foldlM onProgressLogged ({}, [])

variable {app app' : App} {log log' : List Nat} {progress : TestProgress}
variable {progresses : List TestProgress}

theorem onProgressLogged_fst :
    (onProgressLogged (app, log) progress).map (·.fst) = app.onProgress progress := by
  unfold onProgressLogged onProgress
  cases progress.udpFeedbackOnly
  case true  => rfl
  case false =>
    simp [countProgress, Option.map_bind, Option.bind_assoc]

theorem runLogged_fst : (runLogged progresses).map (·.fst) = run {} progresses := by
  induction progresses using List.reverseRecOn
  case nil => rfl
  case append_singleton progresses progress hi =>
    have hr : run {} (progresses ++ [progress]) =
        (run {} progresses).bind (·.onProgress progress) := by
      simp [run, List.foldlM_append]
    have hl : runLogged (progresses ++ [progress]) =
        (runLogged progresses).bind (onProgressLogged · progress) := by
      simp [runLogged, List.foldlM_append]
    rw [hr, ← hi, hl]
    cases runLogged progresses
    case none   => rfl
    case some s => exact onProgressLogged_fst

-- What there is to know about losses, which the other counters leave alone.
structure SameLosses (app app' : App) : Prop where
  latest : app'.latestUdpProgress = app.latestUdpProgress
  lost   : app'.udpPacketsLost = app.udpPacketsLost
  prev   : app'.prevUdpLost = app.prevUdpLost

theorem addBidir_sameLosses (h : app.addBidir progress = some app') : SameLosses app app' := by
  unfold addBidir at h
  split at h
  case h_1 =>
    cases h
    exact ⟨rfl, rfl, rfl⟩
  case h_2 =>
    have ⟨_, _, h⟩ := Option.bind_eq_some_iff.mp h
    have ⟨_, _, h⟩ := Option.bind_eq_some_iff.mp h
    cases h
    exact ⟨rfl, rfl, rfl⟩

theorem addRetransmits_sameLosses (h : app.addRetransmits progress = some app') :
    SameLosses app app' := by
  unfold addRetransmits at h
  split at h
  case h_1 =>
    cases h
    exact ⟨rfl, rfl, rfl⟩
  case h_2 =>
    split at h
    case isTrue =>
      cases h
      exact ⟨rfl, rfl, rfl⟩
    case isFalse =>
      have ⟨_, _, h⟩ := Option.bind_eq_some_iff.mp h
      cases h
      exact ⟨rfl, rfl, rfl⟩

-- A full report reads the freshest losses, or adds those of the streams as long as there are none.
theorem countProgress_spec (h : app.countProgress progress = some app') :
    app'.latestUdpProgress = (app.seeProgress progress).latestUdpProgress ∧
    app'.udpPacketsLost = ((app.seeProgress progress).addLost progress).udpPacketsLost ∧
    app'.prevUdpLost = app.prevUdpLost := by
  have ⟨app₁, h₁, h⟩ := Option.bind_eq_some_iff.mp h
  have ⟨app₂, h₂, h₃⟩ := Option.bind_eq_some_iff.mp h
  have s₁ := addBidir_sameLosses h₁
  have s₂ := addRetransmits_sameLosses h₂
  cases countReport_spec h₃
  have hl : (app₁.seeProgress progress).latestUdpProgress =
      (app.seeProgress progress).latestUdpProgress := by
    simp only [seeProgress, s₁.latest]
    rfl
  refine ⟨s₂.latest.trans hl, ?_, s₂.prev.trans s₁.prev⟩
  simp only [addLost, s₂.latest, hl, s₂.lost]
  rw [show (app₁.seeProgress progress).udpPacketsLost = app.udpPacketsLost from s₁.lost]
  rfl

theorem detectEvents_losses (h : app.detectEvents = some app') :
    app'.latestUdpProgress = app.latestUdpProgress ∧ app'.udpPacketsLost = app.udpPacketsLost ∧
    app'.prevUdpLost = max app.prevUdpLost app.udpPacketsLost := by
  have ⟨_, _, h⟩ := Option.bind_eq_some_iff.mp h
  have ⟨_, _, h⟩ := Option.bind_eq_some_iff.mp h
  cases h
  refine ⟨rfl, rfl, ?_⟩
  show (if _ then _ else _) = _
  split <;> omega

-- The lines show how far the largest count rose.
theorem sum_lossLine_le :
    app.lossLine.toList.sum ≤ max app.prevUdpLost app.udpPacketsLost - app.prevUdpLost := by
  unfold lossLine
  split
  case isTrue =>
    dsimp only
    split
    case isTrue  => simp
    case isFalse => simp
  case isFalse => simp

-- What the lines show in all never exceeds the largest count.
structure Logged (progresses : List TestProgress) (app : App) (log : List Nat) : Prop where
  some : ∀ cum, app.latestUdpProgress = some cum → cum.packetsLost ∈ snapshots progresses
  none : app.latestUdpProgress = none →
    snapshots progresses = [] ∧ app.udpPacketsLost ≤ legacyLost progresses
  log  : log.sum ≤ app.prevUdpLost
  prev : app.prevUdpLost ≤ highestLost progresses

namespace Logged

theorem unseen (inv : Logged progresses app log)
    (h : (app.seeProgress progress).latestUdpProgress = .none) :
    snapshots (progresses ++ [progress]) = [] ∧ app.udpPacketsLost ≤ legacyLost progresses := by
  have ⟨hl, hp⟩ := latest_eq_none h
  have ⟨hs, hu⟩ := inv.none hl
  exact ⟨by simp [snapshots_append_singleton, hs, hp], hu⟩

-- As long as there are no counts, the losses of the streams are added up.
theorem legacy {app₁ : App} (inv : Logged progresses app log)
    (full : progress.udpFeedbackOnly = false) (h₁ : app.countProgress progress = .some app₁)
    (h : (app.seeProgress progress).latestUdpProgress = .none) :
    app₁.udpPacketsLost ≤ legacyLost (progresses ++ [progress]) := by
  have ⟨hs, hu⟩ := inv.unseen h
  have hle : U64.saturatingAdd app.udpPacketsLost
      ((progress.streams.filterMap (·.lost)).foldl U64.saturatingAdd 0) ≤
      app.udpPacketsLost + progress.streamLosses := by
    rw [U64.sum_saturatingAdd]
    exact (Nat.min_le_left _ _).trans (Nat.add_le_add_left (Nat.min_le_left _ _) _)
  have he : app₁.udpPacketsLost = U64.saturatingAdd app.udpPacketsLost
      ((progress.streams.filterMap (·.lost)).foldl U64.saturatingAdd 0) := by
    simp only [(countProgress_spec h₁).right.left, addLost, h, Option.elim]
    rfl
  rw [legacyLost_append_of_none hs full, he]
  exact hle.trans (Nat.add_le_add_right hu _)

theorem lost_le {app₁ : App} (inv : Logged progresses app log)
    (full : progress.udpFeedbackOnly = false) (h₁ : app.countProgress progress = .some app₁) :
    app₁.udpPacketsLost ≤ highestLost (progresses ++ [progress]) := by
  cases hc : (app.seeProgress progress).latestUdpProgress
  case none     => exact (inv.legacy full h₁ hc).trans legacyLost_le_highestLost
  case some cum =>
    have he : app₁.udpPacketsLost = cum.packetsLost := by
      simp only [(countProgress_spec h₁).right.left, addLost, hc, Option.elim]
    exact he ▸ le_highestLost (mem_snapshots_of_latest inv.some hc)

theorem step (inv : Logged progresses app log)
    (h : onProgressLogged (app, log) progress = .some (app', log')) :
    Logged (progresses ++ [progress]) app' log' := by
  have hs : ∀ cum, (app.seeProgress progress).latestUdpProgress = .some cum →
      cum.packetsLost ∈ snapshots (progresses ++ [progress]) :=
    fun cum h => mem_snapshots_of_latest inv.some h
  have hp := inv.prev.trans (@highestLost_le_append progress progresses)
  cases hf : progress.udpFeedbackOnly
  case true =>
    simp only [onProgressLogged, hf, if_true, Option.some.injEq, Prod.mk.injEq] at h
    have ⟨ha, hl⟩ := h
    subst ha hl
    refine ⟨hs, fun h => ?_, inv.log, hp⟩
    exact ⟨(inv.unseen h).left, (inv.unseen h).right.trans legacyLost_le_append⟩
  case false =>
    simp only [onProgressLogged, hf, Bool.false_eq_true, if_false] at h
    have ⟨app₁, h₁, h⟩ := Option.bind_eq_some_iff.mp h
    have ⟨app₂, h₂, h⟩ := Option.bind_eq_some_iff.mp h
    cases h
    have ⟨latest₁, _, prev₁⟩ := countProgress_spec h₁
    have ⟨latest₂, lost₂, prev₂⟩ := detectEvents_losses h₂
    rw [latest₁] at latest₂
    rw [prev₁] at prev₂
    constructor
    case some => exact latest₂ ▸ hs
    case none =>
      intro h
      rw [latest₂] at h
      exact ⟨(inv.unseen h).left, lost₂ ▸ inv.legacy hf h₁ h⟩
    case log  =>
      have := inv.log
      have hl := @sum_lossLine_le app₁
      rw [prev₁] at hl
      rw [List.sum_append, prev₂]
      omega
    case prev =>
      rw [prev₂]
      exact max_le hp (inv.lost_le hf h₁)

end Logged

theorem runLogged_logged (h : runLogged progresses = some (app, log)) :
    Logged progresses app log := by
  induction progresses using List.reverseRecOn generalizing app log
  case nil =>
    cases h
    exact ⟨nofun, fun _ => ⟨rfl, Nat.zero_le _⟩, Nat.zero_le _, Nat.zero_le _⟩
  case append_singleton progresses progress hi =>
    simp only [runLogged, List.foldlM_append, List.foldlM_cons, List.foldlM_nil, bind_pure,
      Option.bind_eq_bind, Option.bind_eq_some_iff] at h
    have ⟨(app₁, log₁), h, ho⟩ := h
    exact (hi h).step ho

end App

open PrintTask TestProgress

-- Neither of the two shows losses twice, the rows as long as the count does not fall below what
-- they show already. Where it does, the next loss counts twice.
theorem losses_not_counted_twice (options : RowOptions) (progresses : List TimedProgress) :
    (∀ app log, App.runLogged (progresses.map (·.toTestProgress)) = some (app, log) →
      log.sum ≤ highestLost (progresses.map (·.toTestProgress))) ∧
    (AllCover options progresses →
      ∀ before, before <+: progresses → ¬CountsTwice options before) ∧
    (options.quiet = false → (∀ n, ∃ ms, options.omitted ms = false ∧ n < options.interval ms) →
      (run options {} progresses).isSome → ¬AllCover options progresses →
      ∃ before progress, before <+: progresses ∧ CountsTwice options (before ++ [progress])) := by
  refine ⟨?_, ?_, ?_⟩
  · intro app log h
    have inv := App.runLogged_logged h
    exact inv.log.trans inv.prev
  · intro covers before hb ⟨task, h, hl⟩
    have covers : AllCover options before := fun b p hp => covers b p (hp.trans hb)
    exact absurd ((run_cached h).printed_le (run_bounded h covers)) (not_le.mpr hl)
  · intro hq later h hn
    have ⟨task, h⟩ := Option.isSome_iff_exists.mp h
    exact exists_countsTwice hq later h hn

-- Rows of a second each.
def everySecond : RowOptions where
  quiet         := false
  omitted ms    := ms ≤ 0
  interval ms   := Int.ofNat (ms / 1000)
  omitted_of_le := RowOptions.le_zero_of_le

-- Six of ten losses arrive late, and six more packets are lost.
def repaired : List TimedProgress :=
  [countsOnly 1000 ⟨90, 10⟩, countsOnly 2000 ⟨96, 4⟩, countsOnly 3000 ⟨100, 10⟩]

theorem repaired_losses_count_twice :
    ((run everySecond {} repaired).map fun task => (task.rows.map (·.lost), task.printedLost)) =
      some ([some 10, some 0, some 6], 16) ∧
    snapshots (repaired.map (·.toTestProgress)) = [10, 4, 10] ∧
    highestLost (repaired.map (·.toTestProgress)) = 10 := by
  decide
