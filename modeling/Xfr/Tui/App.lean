import Xfr.Client.Overlay

-- The running totals of the user interface.
structure App where
  totalBytes                  : Nat   := 0
  currentThroughputMbps       : Float := 0.0
  bidirBytesSent              : Nat   := 0
  bidirBytesReceived          : Nat   := 0
  throughputSendMbps          : Float := 0.0
  throughputRecvMbps          : Float := 0.0
  totalRetransmits            : Nat   := 0
  retransmitsAreAuthoritative : Bool  := false
  udpPacketsLost              : Nat   := 0
  latestUdpProgress           : Option UdpIntervalProgress := none
  throughputCount             : Nat   := 0
  prevRetransmits             : Nat   := 0
  prevUdpLost                 : Nat   := 0

namespace App

-- The figures of both directions, of a report which has all of them.
def split (progress : TestProgress) : Option (Nat × Nat × Float × Float) := do
  return (← progress.bytesSent, ← progress.bytesReceived, ← progress.throughputSendMbps,
    ← progress.throughputRecvMbps)

def addBidir (app : App) (progress : TestProgress) : Option App :=
  match split progress with
  | none                      => some app
  | some (sent, recv, ts, tr) => do
    let bidirBytesSent ← U64.checkedAdd app.bidirBytesSent sent
    let bidirBytesReceived ← U64.checkedAdd app.bidirBytesReceived recv
    return { app with
      bidirBytesSent, bidirBytesReceived, throughputSendMbps := ts, throughputRecvMbps := tr }

-- Retransmits are summed up until the kernel once told their number.
def addRetransmits (app : App) (progress : TestProgress) : Option App :=
  match progress.totalRetransmits with
  | some total => some { app with totalRetransmits := total, retransmitsAreAuthoritative := true }
  | none       =>
    if app.retransmitsAreAuthoritative then some app
    else do
      let intervalTotal ← U64.checkedSum (progress.streams.map (·.retransmits.getD 0))
      return { app with totalRetransmits := U64.saturatingAdd app.totalRetransmits intervalTotal }

def increase (current previous : Nat) : Option Nat :=
  if current > previous then U64.checkedSub current previous else some 0

-- What is logged are the increases, in which later repairs of losses are not seen.
def detectEvents (app : App) : Option App := do
  let _retransmits ← increase app.totalRetransmits app.prevRetransmits
  let _lost ← increase app.udpPacketsLost app.prevUdpLost
  return { app with
    prevRetransmits := app.totalRetransmits
    prevUdpLost     :=
      if app.udpPacketsLost > app.prevUdpLost then app.udpPacketsLost else app.prevUdpLost }

-- Readings which are older than the latest one are dropped.
def seeProgress (app : App) (progress : TestProgress) : App :=
  let udpProgress := progress.udpProgress.filter fun candidate =>
    app.latestUdpProgress.all (candidate.isAtLeastAsFreshAs ·)
  { app with latestUdpProgress := udpProgress.or app.latestUdpProgress }

def addLost (app : App) (progress : TestProgress) : App :=
  let totalLost := (progress.streams.filterMap (·.lost)).foldl U64.saturatingAdd 0
  { app with
    udpPacketsLost := app.latestUdpProgress.elim (U64.saturatingAdd app.udpPacketsLost totalLost)
      (·.packetsLost) }

def countReport (app : App) : Option App :=
  (U64.checkedAdd app.throughputCount 1).map fun throughputCount => { app with throughputCount }

def addTotal (app : App) (progress : TestProgress) : App :=
  { app with
    totalBytes            := U64.saturatingAdd app.totalBytes progress.totalBytes
    currentThroughputMbps := progress.throughputMbps }

def onProgress (app : App) (progress : TestProgress) : Option App :=
  if progress.udpFeedbackOnly then some (app.seeProgress progress)
  else do
    let app ← (app.addTotal progress).addBidir progress
    let app ← (app.seeProgress progress).addRetransmits progress
    let app ← (app.addLost progress).countReport
    app.detectEvents

def run (app : App) (progresses : List TestProgress) : Option App :=
  progresses.foldlM onProgress app

-- Reports of readings alone carry no totals.
def full (progresses : List TestProgress) : List TestProgress :=
  progresses.filter (!·.udpFeedbackOnly)

def sent (progress : TestProgress) : Nat :=
  (split progress).elim 0 (·.1)

def received (progress : TestProgress) : Nat :=
  (split progress).elim 0 (·.2.1)

def retransmits (progress : TestProgress) : Nat :=
  (progress.streams.map (·.retransmits.getD 0)).sum

-- Those reports whose retransmits are summed up.
def summed (app : App) (progresses : List TestProgress) : List TestProgress :=
  if app.retransmitsAreAuthoritative then [] else
    (full progresses).takeWhile (·.totalRetransmits.isNone)

-- The sums which the program makes without saturation.
structure Fits (app : App) (progresses : List TestProgress) : Prop where
  sent        : app.bidirBytesSent + ((full progresses).map sent).sum ≤ U64.max
  received    : app.bidirBytesReceived + ((full progresses).map received).sum ≤ U64.max
  count       : app.throughputCount + (full progresses).length ≤ U64.max
  retransmits : ∀ progress ∈ app.summed progresses, retransmits progress ≤ U64.max

-- Counters of the program.
structure Valid (app : App) : Prop where
  sent     : app.bidirBytesSent ≤ U64.max
  received : app.bidirBytesReceived ≤ U64.max
  count    : app.throughputCount ≤ U64.max

variable {app app' : App} {progress : TestProgress} {progresses : List TestProgress}

-- What a full report does to the totals.
structure Adds (app app' : App) (progress : TestProgress) : Prop where
  sent          : app'.bidirBytesSent = app.bidirBytesSent + sent progress
  received      : app'.bidirBytesReceived = app.bidirBytesReceived + received progress
  count         : app'.throughputCount = app.throughputCount + 1
  authoritative : app'.retransmitsAreAuthoritative =
    (app.retransmitsAreAuthoritative || progress.totalRetransmits.isSome)

-- Exactly then there is room for a full report.
structure Room (app : App) (progress : TestProgress) : Prop where
  sent        : app.bidirBytesSent + sent progress ≤ U64.max
  received    : app.bidirBytesReceived + received progress ≤ U64.max
  count       : app.throughputCount + 1 ≤ U64.max
  retransmits : app.retransmitsAreAuthoritative = false → progress.totalRetransmits = none →
    retransmits progress ≤ U64.max

theorem exists_detectEvents : ∃ app', app.detectEvents = some app' := by
  have increases (a b : Nat) : ∃ n, increase a b = some n := by
    unfold increase
    split
    case isTrue h  => exact ⟨_, U64.checkedSub_eq_some h.le⟩
    case isFalse h => exact ⟨0, rfl⟩
  have ⟨_, hr⟩ := increases app.totalRetransmits app.prevRetransmits
  have ⟨_, hl⟩ := increases app.udpPacketsLost app.prevUdpLost
  exact ⟨_, Option.bind_eq_some_iff.mpr ⟨_, hr, Option.bind_eq_some_iff.mpr ⟨_, hl, rfl⟩⟩⟩

theorem detectEvents_spec (h : app.detectEvents = some app') :
    app'.bidirBytesSent = app.bidirBytesSent ∧
    app'.bidirBytesReceived = app.bidirBytesReceived ∧
    app'.throughputCount = app.throughputCount ∧
    app'.retransmitsAreAuthoritative = app.retransmitsAreAuthoritative := by
  have ⟨_, _, h⟩ := Option.bind_eq_some_iff.mp h
  have ⟨_, _, h⟩ := Option.bind_eq_some_iff.mp h
  cases h
  exact ⟨rfl, rfl, rfl, rfl⟩

theorem addBidir_iff (v : app.Valid) : (∃ app', app.addBidir progress = some app') ↔
    app.bidirBytesSent + sent progress ≤ U64.max ∧
    app.bidirBytesReceived + received progress ≤ U64.max := by
  cases hs : split progress
  case none =>
    simp only [addBidir, sent, received, hs, Option.elim]
    exact iff_of_true ⟨app, rfl⟩ ⟨v.sent, v.received⟩
  case some x =>
    simp only [addBidir, sent, received, hs, Option.elim]
    constructor
    case mp =>
      intro ⟨_, h⟩
      have ⟨_, h₁, h⟩ := Option.bind_eq_some_iff.mp h
      have ⟨_, h₂, _⟩ := Option.bind_eq_some_iff.mp h
      exact ⟨(U64.checkedAdd_eq_some_iff.mp h₁).left, (U64.checkedAdd_eq_some_iff.mp h₂).left⟩
    case mpr =>
      intro ⟨l₁, l₂⟩
      exact ⟨_, Option.bind_eq_some_iff.mpr ⟨_, U64.checkedAdd_eq_some l₁,
        Option.bind_eq_some_iff.mpr ⟨_, U64.checkedAdd_eq_some l₂, rfl⟩⟩⟩

theorem addBidir_spec (h : app.addBidir progress = some app') :
    app'.bidirBytesSent = app.bidirBytesSent + sent progress ∧
    app'.bidirBytesReceived = app.bidirBytesReceived + received progress ∧
    app'.throughputCount = app.throughputCount ∧
    app'.retransmitsAreAuthoritative = app.retransmitsAreAuthoritative := by
  cases hs : split progress
  case none =>
    simp only [addBidir, hs] at h
    cases h
    simp [sent, received, hs]
  case some x =>
    simp only [addBidir, hs] at h
    have ⟨_, h₁, h⟩ := Option.bind_eq_some_iff.mp h
    have ⟨_, h₂, h⟩ := Option.bind_eq_some_iff.mp h
    cases h
    have e₁ := (U64.checkedAdd_eq_some_iff.mp h₁).right
    have e₂ := (U64.checkedAdd_eq_some_iff.mp h₂).right
    simp [sent, received, hs, ← e₁, ← e₂]

theorem addRetransmits_iff : (∃ app', app.addRetransmits progress = some app') ↔
    (app.retransmitsAreAuthoritative = false → progress.totalRetransmits = none →
      retransmits progress ≤ U64.max) := by
  unfold addRetransmits
  cases progress.totalRetransmits
  case some total => simp
  case none =>
    cases app.retransmitsAreAuthoritative
    case true  => simp
    case false =>
      constructor
      case mp =>
        intro ⟨_, h⟩ _ _
        have ⟨_, h, _⟩ := Option.bind_eq_some_iff.mp h
        exact (U64.checkedSum_eq_some_iff.mp h).left
      case mpr =>
        intro h
        exact ⟨_, Option.bind_eq_some_iff.mpr ⟨_, U64.checkedSum_eq_some (h rfl rfl), rfl⟩⟩

theorem addRetransmits_spec (h : app.addRetransmits progress = some app') :
    app'.bidirBytesSent = app.bidirBytesSent ∧
    app'.bidirBytesReceived = app.bidirBytesReceived ∧
    app'.throughputCount = app.throughputCount ∧
    app'.retransmitsAreAuthoritative =
      (app.retransmitsAreAuthoritative || progress.totalRetransmits.isSome) := by
  unfold addRetransmits at h
  cases ht : progress.totalRetransmits
  case some total =>
    rw [ht] at h
    cases h
    simp
  case none =>
    rw [ht] at h
    cases ha : app.retransmitsAreAuthoritative
    case true =>
      simp only [ha, if_true] at h
      cases h
      simp [ha]
    case false =>
      simp only [ha, Bool.false_eq_true, if_false] at h
      have ⟨_, _, h⟩ := Option.bind_eq_some_iff.mp h
      cases h
      simp

theorem countReport_iff : (∃ app', app.countReport = some app') ↔
    app.throughputCount + 1 ≤ U64.max := by
  simp only [countReport, Option.map_eq_some_iff, U64.checkedAdd_eq_some_iff]
  constructor
  case mp  => exact fun ⟨_, _, ⟨h, _⟩, _⟩ => h
  case mpr => exact fun h => ⟨_, _, ⟨h, rfl⟩, rfl⟩

theorem countReport_spec (h : app.countReport = some app') :
    app' = { app with throughputCount := app.throughputCount + 1 } := by
  simp only [countReport, Option.map_eq_some_iff, U64.checkedAdd_eq_some_iff] at h
  have ⟨_, ⟨_, hc⟩, h⟩ := h
  rw [← h, ← hc]

theorem onProgress_spec (hf : progress.udpFeedbackOnly = false)
    (h : app.onProgress progress = some app') : Adds app app' progress := by
  simp only [onProgress, hf, Bool.false_eq_true, if_false] at h
  have ⟨app₁, h₁, h⟩ := Option.bind_eq_some_iff.mp h
  have ⟨app₂, h₂, h⟩ := Option.bind_eq_some_iff.mp h
  have ⟨app₃, h₃, h₄⟩ := Option.bind_eq_some_iff.mp h
  have ⟨sent₁, received₁, count₁, auth₁⟩ := addBidir_spec h₁
  have ⟨sent₂, received₂, count₂, auth₂⟩ := addRetransmits_spec h₂
  have ⟨sent₄, received₄, count₄, auth₄⟩ := detectEvents_spec h₄
  cases countReport_spec h₃
  exact {
    sent          := sent₄.trans (sent₂.trans sent₁)
    received      := received₄.trans (received₂.trans received₁)
    count         := count₄.trans (congrArg (· + 1) (count₂.trans count₁))
    authoritative := by rw [auth₄, ← show _ = app.retransmitsAreAuthoritative from auth₁]; exact auth₂
  }

theorem onProgress_iff (v : app.Valid) (hf : progress.udpFeedbackOnly = false) :
    (∃ app', app.onProgress progress = some app') ↔ Room app progress := by
  have v₀ : (app.addTotal progress).Valid := ⟨v.sent, v.received, v.count⟩
  simp only [onProgress, hf, Bool.false_eq_true, if_false]
  constructor
  case mp =>
    intro ⟨app', h⟩
    have ⟨app₁, h₁, h⟩ := Option.bind_eq_some_iff.mp h
    have ⟨app₂, h₂, h⟩ := Option.bind_eq_some_iff.mp h
    have ⟨app₃, h₃, _⟩ := Option.bind_eq_some_iff.mp h
    have ⟨_, _, count₁, auth₁⟩ := addBidir_spec h₁
    have ⟨_, _, count₂, _⟩ := addRetransmits_spec h₂
    have ⟨sent, received⟩ := (addBidir_iff v₀).mp ⟨_, h₁⟩
    have count : app₂.throughputCount + 1 ≤ U64.max :=
      (@countReport_iff (app₂.addLost progress)).mp ⟨_, h₃⟩
    have retransmits := addRetransmits_iff.mp ⟨_, h₂⟩
    exact {
      sent        := sent
      received    := received
      count       := (count₂.trans count₁) ▸ count
      retransmits := fun ha => retransmits (auth₁.trans ha)
    }
  case mpr =>
    intro room
    have ⟨app₁, h₁⟩ := (addBidir_iff v₀).mpr ⟨room.sent, room.received⟩
    have ⟨_, _, count₁, auth₁⟩ := addBidir_spec h₁
    have ⟨app₂, h₂⟩ : ∃ app₂, (app₁.seeProgress progress).addRetransmits progress = some app₂ :=
      addRetransmits_iff.mpr fun ha => room.retransmits (auth₁.symm.trans ha)
    have ⟨_, _, count₂, _⟩ := addRetransmits_spec h₂
    have ⟨app₃, h₃⟩ : ∃ app₃, (app₂.addLost progress).countReport = some app₃ :=
      countReport_iff.mpr ((count₂.trans count₁).symm ▸ room.count)
    have ⟨app', h₄⟩ := @exists_detectEvents app₃
    exact ⟨app', Option.bind_eq_some_iff.mpr ⟨_, h₁, Option.bind_eq_some_iff.mpr
      ⟨_, h₂, Option.bind_eq_some_iff.mpr ⟨_, h₃, h₄⟩⟩⟩⟩

theorem Adds.valid (a : Adds app app' progress) (room : Room app progress) : app'.Valid where
  sent     := a.sent ▸ room.sent
  received := a.received ▸ room.received
  count    := a.count ▸ room.count

theorem Fits.head (f : app.Fits (progress :: progresses)) (hf : progress.udpFeedbackOnly = false) :
    Room app progress := by
  have hp : full (progress :: progresses) = progress :: full progresses :=
    List.filter_cons_of_pos (by simp [hf])
  have sent        := f.sent
  have received    := f.received
  have count       := f.count
  simp only [hp, List.map_cons, List.sum_cons, List.length_cons] at sent received count
  exact {
    sent        := by omega
    received    := by omega
    count       := by omega
    retransmits := fun ha ht => f.retransmits progress (by simp [summed, ha, hp, ht])
  }

-- The totals grow by what the first report adds, which leaves the rest of the sums.
theorem Adds.fits_iff (a : Adds app app' progress) (room : Room app progress)
    (hf : progress.udpFeedbackOnly = false) :
    app.Fits (progress :: progresses) ↔ app'.Fits progresses := by
  have hp : full (progress :: progresses) = progress :: full progresses :=
    List.filter_cons_of_pos (by simp [hf])
  have hs : ∀ p, p ∈ app.summed (progress :: progresses) ↔
      (app.retransmitsAreAuthoritative = false ∧ progress.totalRetransmits = none ∧ p = progress) ∨
        p ∈ app'.summed progresses := by
    intro p
    simp only [summed, a.authoritative, hp]
    cases app.retransmitsAreAuthoritative <;> cases ht : progress.totalRetransmits <;> simp [ht]
  constructor
  case mp =>
    intro ⟨sent, received, count, retransmits⟩
    simp only [hp, List.map_cons, List.sum_cons, List.length_cons, ← Nat.add_assoc] at *
    exact ⟨a.sent ▸ sent, a.received ▸ received, by rw [a.count]; omega,
      fun p h => retransmits p ((hs p).mpr (.inr h))⟩
  case mpr =>
    intro ⟨sent, received, count, retransmits⟩
    rw [a.sent] at sent
    rw [a.received] at received
    rw [a.count] at count
    refine ⟨?_, ?_, ?_, fun p h => ?_⟩
    · simpa only [hp, List.map_cons, List.sum_cons, ← Nat.add_assoc] using sent
    · simpa only [hp, List.map_cons, List.sum_cons, ← Nat.add_assoc] using received
    · rw [hp, List.length_cons]
      omega
    · cases (hs p).mp h
      case inl h =>
        have ⟨ha, ht, he⟩ := h
        exact he ▸ room.retransmits ha ht
      case inr h => exact retransmits p h

theorem fits_seeProgress (hf : progress.udpFeedbackOnly = true) :
    (app.seeProgress progress).Fits progresses ↔ app.Fits (progress :: progresses) := by
  have hp : full (progress :: progresses) = full progresses :=
    List.filter_cons_of_neg (by simp [hf])
  have hs : app.summed (progress :: progresses) = (app.seeProgress progress).summed progresses := by
    rw [summed, summed, hp]
    rfl
  constructor
  case mp  => exact fun ⟨s, r, c, t⟩ => ⟨hp ▸ s, hp ▸ r, hp ▸ c, hs ▸ t⟩
  case mpr => exact fun ⟨s, r, c, t⟩ => ⟨hp ▸ s, hp ▸ r, hp ▸ c, hs ▸ t⟩

-- A run of reports overflows nowhere exactly when its sums are in bounds.
theorem run_iff (v : app.Valid) :
    (∃ app', app.run progresses = some app') ↔ app.Fits progresses := by
  induction progresses generalizing app
  case nil =>
    refine iff_of_true ⟨app, rfl⟩ ⟨v.sent, v.received, v.count, fun p h => ?_⟩
    simp [summed, full] at h
  case cons progress progresses hi =>
    have run_cons : (∃ app', app.run (progress :: progresses) = some app') ↔
        ∃ app₁, app.onProgress progress = some app₁ ∧ ∃ app', app₁.run progresses = some app' := by
      simp only [run, List.foldlM_cons, Option.bind_eq_bind, Option.bind_eq_some_iff]
      grind
    rw [run_cons]
    cases hf : progress.udpFeedbackOnly
    case true =>
      have ho : app.onProgress progress = some (app.seeProgress progress) := by simp [onProgress, hf]
      have v₁ : (app.seeProgress progress).Valid := ⟨v.sent, v.received, v.count⟩
      rw [← fits_seeProgress hf, ← hi v₁, ho]
      simp
    case false =>
      constructor
      case mp =>
        intro ⟨app₁, h, hr⟩
        have a := onProgress_spec hf h
        have room := (onProgress_iff v hf).mp ⟨app₁, h⟩
        exact (a.fits_iff room hf).mpr ((hi (a.valid room)).mp hr)
      case mpr =>
        intro f
        have room := f.head hf
        have ⟨app₁, h⟩ := (onProgress_iff v hf).mpr room
        have a := onProgress_spec hf h
        exact ⟨app₁, h, (hi (a.valid room)).mpr ((a.fits_iff room hf).mp f)⟩

-- Whatever a server reports, the figures of the client are right exactly when those sums of them which are
-- not saturated stay in bounds.
theorem figures_iff (result : TestResult) (stats : TestStats) (streams : List StreamInterval)
    (aggregate : AggregateInterval) (udpProgress : Option UdpIntervalProgress)
    (bytesReceived lastRecvBytes : List Nat) (durationSecs : Float)
    (progresses : List TestProgress) :
    ((∃ overlaid, Overlay.IsOverlaid result overlaid stats) ↔ Overlay.ResultFits result stats) ∧
    ((∃ progress, Overlay.IsProgress streams aggregate udpProgress bytesReceived lastRecvBytes
      durationSecs progress) ↔ Overlay.IntervalFits aggregate bytesReceived lastRecvBytes) ∧
    ((∃ app, run {} progresses = some app) ↔ Fits {} progresses) :=
  ⟨Overlay.isOverlaid_iff, Overlay.isProgress_iff,
    run_iff ⟨Nat.zero_le _, Nat.zero_le _, Nat.zero_le _⟩⟩

-- A server which claims to have received as much as there can be, while the client received one byte.
theorem largest_total_overflows : ¬∃ overlaid, Overlay.IsOverlaid
    ⟨0, 1000, 0.0, [], none, none, none, some U64.max, none, none⟩ overlaid ⟨[1], []⟩ := by
  intro ⟨_, h⟩
  have fits := Overlay.isOverlaid_iff.mp ⟨_, h⟩
  exact absurd (fits.total U64.max rfl) (by decide)

end App
