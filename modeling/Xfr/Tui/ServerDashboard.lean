import Xfr.Access.Address
import Xfr.Library.System
import Xfr.Library.U64

structure ActiveTestInfo where
  id             : String
  clientIp       : IpAddr
  protocol       : String
  direction      : String
  streams        : Nat
  durationSecs   : Nat
  bytes          : Nat
  throughputMbps : Float

inductive ServerEvent
  | testStarted (info : ActiveTestInfo)
  | testUpdated (id : String) (bytes : Nat) (throughputMbps : Float)
  | testCompleted (id : String) (bytes : Nat)
  | testFailed (id : String) (bytes : Nat)
  | connectionBlocked
  | authFailure

structure ServerApp where
  activeTests        : List ActiveTestInfo := []
  totalTests         : Nat                 := 0
  failedTests        : Nat                 := 0
  totalBytes         : Nat                 := 0
  connectionsBlocked : Nat                 := 0
  authFailures       : Nat                 := 0

namespace ServerApp

def addTest (app : ServerApp) (info : ActiveTestInfo) : ServerApp :=
  { app with
    activeTests := app.activeTests ++ [info]
    totalTests  := U64.wrappingAdd app.totalTests 1 }

-- Only the first test with the identifier is updated.
def updateFirst (id : String) (bytes : Nat) (throughputMbps : Float) :
    List ActiveTestInfo → List ActiveTestInfo
  | []            => []
  | test :: tests =>
    if test.id = id then { test with bytes, throughputMbps } :: tests
    else test :: updateFirst id bytes throughputMbps tests

def updateTest (app : ServerApp) (id : String) (bytes : Nat) (throughputMbps : Float) :
    ServerApp :=
  { app with activeTests := updateFirst id bytes throughputMbps app.activeTests }

def removeTest (app : ServerApp) (id : String) (bytes : Nat) : ServerApp :=
  { app with
    activeTests := app.activeTests.filter (·.id ≠ id)
    totalBytes  := U64.wrappingAdd app.totalBytes bytes }

def failTest (app : ServerApp) (id : String) (bytes : Nat) : ServerApp :=
  { app with
    activeTests := app.activeTests.filter (·.id ≠ id)
    failedTests := U64.wrappingAdd app.failedTests 1
    totalBytes  := U64.wrappingAdd app.totalBytes bytes }

def recordBlocked (app : ServerApp) : ServerApp :=
  { app with connectionsBlocked := U64.wrappingAdd app.connectionsBlocked 1 }

def recordAuthFailure (app : ServerApp) : ServerApp :=
  { app with authFailures := U64.wrappingAdd app.authFailures 1 }

def handle (app : ServerApp) : ServerEvent → ServerApp
  | .testStarted info                    => app.addTest info
  | .testUpdated id bytes throughputMbps => app.updateTest id bytes throughputMbps
  | .testCompleted id bytes              => app.removeTest id bytes
  | .testFailed id bytes                 => app.failTest id bytes
  | .connectionBlocked                   => app.recordBlocked
  | .authFailure                         => app.recordAuthFailure

end ServerApp

structure TestEnd where
  id     : String
  bytes  : Nat
  failed : Bool

def TestEnd.event (e : TestEnd) : ServerEvent :=
  if e.failed then .testFailed e.id e.bytes else .testCompleted e.id e.bytes

-- A server with its dashboard and the channel between the two. Of each test which started or ended
-- it is remembered whether the channel took the event.
structure Dashboard where
  started : List (ActiveTestInfo × Bool) := []
  ended   : List (TestEnd × Bool)        := []
  queue   : List ServerEvent             := []
  app     : ServerApp                    := {}

namespace Dashboard

def channelCapacity : Nat :=
  100

def startedIds (d : Dashboard) : List String :=
  d.started.map (·.fst.id)

def endedIds (d : Dashboard) : List String :=
  d.ended.map (·.fst.id)

-- The tests which started and did not end yet.
def running (d : Dashboard) : List String :=
  d.startedIds.filter (· ∉ d.endedIds)

def hasRoom (d : Dashboard) : Bool :=
  d.queue.length < channelCapacity

-- An event for which there is no room is dropped.
def trySend (d : Dashboard) (e : ServerEvent) : Dashboard :=
  if d.hasRoom then { d with queue := d.queue ++ [e] } else d

inductive Event
  | start (info : ActiveTestInfo)
  | update (id : String) (bytes : Nat) (throughputMbps : Float)
  | finish (e : TestEnd)
  | blocked
  | authFailure
  | receive

-- Tests have identifiers of their own, and end once. All sessions share the channel, which the
-- dashboard empties event by event.
def step : System Dashboard Event
  | d, .start info                       =>
    if info.id ∈ d.startedIds then none
    else some { d.trySend (.testStarted info) with started := d.started ++ [(info, d.hasRoom)] }
  | d, .update id bytes throughputMbps   => some <| d.trySend (.testUpdated id bytes throughputMbps)
  | d, .finish e                         =>
    if e.id ∈ d.running then some { d.trySend e.event with ended := d.ended ++ [(e, d.hasRoom)] }
    else none
  | d, .blocked                          => some <| d.trySend .connectionBlocked
  | d, .authFailure                      => some <| d.trySend .authFailure
  | d, .receive                          =>
    match d.queue with
    | []         => none
    | e :: queue => some { d with queue, app := d.app.handle e }

-- The dashboard shows the tests which run, and counts the others once.
structure Consistent (d : Dashboard) : Prop where
  active : d.app.activeTests.map (·.id) = d.running
  tests  : d.app.totalTests = d.started.length
  failed : d.app.failedTests = d.ended.countP (·.fst.failed)
  bytes  : d.app.totalBytes = U64.wrappingSum (d.ended.map (·.fst.bytes))

-- There is room for the start and the end of each test, and the tests can be counted.
def roomy (d : Dashboard) : Event → Bool
  | .start _  => d.hasRoom && d.started.length < U64.max
  | .finish _ => d.hasRoom
  | _         => true

-- What the dashboard shows once the channel is empty.
def view (d : Dashboard) : ServerApp :=
  d.queue.foldl .handle d.app

def takenStarts (d : Dashboard) : List (ActiveTestInfo × Bool) :=
  d.started.filter (·.snd)

def takenEnds (d : Dashboard) : List (TestEnd × Bool) :=
  d.ended.filter (·.snd)

-- It depends on those events only which the channel took.
structure Inv (d : Dashboard) : Prop where
  nodupStarted : d.startedIds.Nodup
  nodupEnded   : d.endedIds.Nodup
  ended        : ∀ id ∈ d.endedIds, id ∈ d.startedIds
  active       : d.view.activeTests.map (·.id) =
    (d.takenStarts.map (·.fst.id)).filter (· ∉ d.takenEnds.map (·.fst.id))
  tests        : d.view.totalTests = d.takenStarts.length % 2 ^ 64
  failed       : d.view.failedTests = d.takenEnds.countP (·.fst.failed) % 2 ^ 64
  bytes        : d.view.totalBytes = U64.wrappingSum (d.takenEnds.map (·.fst.bytes))

structure AllTaken (d : Dashboard) : Prop where
  starts : ∀ x ∈ d.started, x.snd = true
  ends   : ∀ x ∈ d.ended, x.snd = true
  few    : d.started.length ≤ U64.max

variable {d d' : Dashboard} {e : Event}

theorem map_id_updateFirst {id : String} {bytes : Nat} {throughputMbps : Float}
    {tests : List ActiveTestInfo} :
    (ServerApp.updateFirst id bytes throughputMbps tests).map (·.id) = tests.map (·.id) := by
  induction tests
  case nil             => rfl
  case cons test _ hi  =>
    unfold ServerApp.updateFirst
    split
    case isTrue  => rfl
    case isFalse => rw [List.map_cons, List.map_cons, hi]

theorem view_trySend {e : ServerEvent} :
    (d.trySend e).view = if d.hasRoom then d.view.handle e else d.view := by
  unfold trySend
  split
  case isTrue  => simp [view]
  case isFalse => rfl

@[simp]
theorem started_trySend {e : ServerEvent} : (d.trySend e).started = d.started := by
  unfold trySend
  split <;> rfl

@[simp]
theorem ended_trySend {e : ServerEvent} : (d.trySend e).ended = d.ended := by
  unfold trySend
  split <;> rfl

theorem wrappingAdd_mod {m n : Nat} : U64.wrappingAdd (m % 2 ^ 64) n = (m + n) % 2 ^ 64 :=
  Nat.mod_add_mod ..

theorem wrappingSum_append_singleton {ns : List Nat} {n : Nat} :
    U64.wrappingSum (ns ++ [n]) = U64.wrappingAdd (U64.wrappingSum ns) n := by
  simp [U64.wrappingSum]

-- Events which say nothing about starts and ends.
structure Neutral (e : ServerEvent) : Prop where
  active : ∀ app : ServerApp, (app.handle e).activeTests.map (·.id) = app.activeTests.map (·.id)
  tests  : ∀ app : ServerApp, (app.handle e).totalTests = app.totalTests
  failed : ∀ app : ServerApp, (app.handle e).failedTests = app.failedTests
  bytes  : ∀ app : ServerApp, (app.handle e).totalBytes = app.totalBytes

theorem Inv.trySend (inv : d.Inv) {e : ServerEvent} (n : Neutral e) : (d.trySend e).Inv := by
  have hs : (d.trySend e).startedIds = d.startedIds := by simp [startedIds]
  have he : (d.trySend e).endedIds = d.endedIds := by simp [endedIds]
  have hts : (d.trySend e).takenStarts = d.takenStarts := by simp [takenStarts]
  have hte : (d.trySend e).takenEnds = d.takenEnds := by simp [takenEnds]
  have view : (d.trySend e).view.activeTests.map (·.id) = d.view.activeTests.map (·.id) ∧
      (d.trySend e).view.totalTests = d.view.totalTests ∧
      (d.trySend e).view.failedTests = d.view.failedTests ∧
      (d.trySend e).view.totalBytes = d.view.totalBytes := by
    rw [view_trySend]
    split
    case isTrue  => exact ⟨n.active _, n.tests _, n.failed _, n.bytes _⟩
    case isFalse => exact ⟨rfl, rfl, rfl, rfl⟩
  have ⟨active, tests, failed, bytes⟩ := view
  exact {
    nodupStarted := hs ▸ inv.nodupStarted
    nodupEnded   := he ▸ inv.nodupEnded
    ended        := hs ▸ he ▸ inv.ended
    active       := hts ▸ hte ▸ active.trans inv.active
    tests        := hts ▸ tests.trans inv.tests
    failed       := hte ▸ failed.trans inv.failed
    bytes        := hte ▸ bytes.trans inv.bytes
  }

theorem Inv.start (inv : d.Inv) {info : ActiveTestInfo} (fresh : info.id ∉ d.startedIds) :
    Inv { d.trySend (.testStarted info) with started := d.started ++ [(info, d.hasRoom)] } := by
  let d' : Dashboard :=
    { d.trySend (.testStarted info) with started := d.started ++ [(info, d.hasRoom)] }
  have hs : d'.startedIds = d.startedIds ++ [info.id] := by simp [d', startedIds]
  have he : d'.endedIds = d.endedIds := by simp [d', endedIds]
  have hte : d'.takenEnds = d.takenEnds := by simp [d', takenEnds]
  have hn : info.id ∉ d.takenEnds.map (·.fst.id) := fun h =>
    have hm : info.id ∈ d.endedIds := (List.filter_sublist.map _).subset h
    fresh (inv.ended _ hm)
  have hv : d'.view = (d.trySend (.testStarted info)).view := rfl
  have view : d'.view.activeTests.map (·.id) =
        (d'.takenStarts.map (·.fst.id)).filter (· ∉ d.takenEnds.map (·.fst.id)) ∧
      d'.view.totalTests = d'.takenStarts.length % 2 ^ 64 ∧
      d'.view.failedTests = d.view.failedTests ∧ d'.view.totalBytes = d.view.totalBytes := by
    rw [hv, view_trySend]
    cases hr : d.hasRoom
    case false =>
      have hts : d'.takenStarts = d.takenStarts := by simp [d', takenStarts, hr]
      rw [hts, if_neg Bool.false_ne_true]
      exact ⟨inv.active, inv.tests, rfl, rfl⟩
    case true =>
      have hts : d'.takenStarts = d.takenStarts ++ [(info, true)] := by
        simp [d', takenStarts, hr]
      have ha := inv.active
      simp only [hts, if_true, ServerApp.handle, ServerApp.addTest, List.map_append,
        List.filter_append, List.length_append, ha, inv.tests, wrappingAdd_mod]
      simp [hn]
  have ⟨active, tests, failed, bytes⟩ := view
  exact {
    nodupStarted := by
      rw [hs]
      exact inv.nodupStarted.append (List.nodup_singleton _) (by simpa using fresh)
    nodupEnded   := he ▸ inv.nodupEnded
    ended        := fun id h => hs ▸ List.mem_append_left _ (inv.ended id (he ▸ h))
    active       := hte ▸ active
    tests        := tests
    failed       := hte ▸ failed.trans inv.failed
    bytes        := hte ▸ bytes.trans inv.bytes
  }

-- Both kinds of ends remove the test and count its bytes.
theorem handle_event {app : ServerApp} {e : TestEnd} :
    (app.handle e.event).activeTests = app.activeTests.filter (·.id ≠ e.id) ∧
    (app.handle e.event).totalTests = app.totalTests ∧
    (app.handle e.event).failedTests =
      (if e.failed then U64.wrappingAdd app.failedTests 1 else app.failedTests) ∧
    (app.handle e.event).totalBytes = U64.wrappingAdd app.totalBytes e.bytes := by
  cases hf : e.failed
  case false => simp [TestEnd.event, hf, ServerApp.handle, ServerApp.removeTest]
  case true  => simp [TestEnd.event, hf, ServerApp.handle, ServerApp.failTest]

theorem filter_filter_append {ids ends : List String} {id : String} :
    (ids.filter (· ∉ ends)).filter (· ≠ id) = ids.filter (· ∉ ends ++ [id]) := by
  rw [List.filter_filter]
  apply List.filter_congr
  intro x _
  simp [and_comm]

theorem Inv.finish (inv : d.Inv) {e : TestEnd} (runs : e.id ∈ d.running) :
    Inv { d.trySend e.event with ended := d.ended ++ [(e, d.hasRoom)] } := by
  let d' : Dashboard := { d.trySend e.event with ended := d.ended ++ [(e, d.hasRoom)] }
  have ⟨started, live⟩ := List.mem_filter.mp runs
  have live : e.id ∉ d.endedIds := by simpa using live
  have hs : d'.startedIds = d.startedIds := by simp [d', startedIds]
  have he : d'.endedIds = d.endedIds ++ [e.id] := by simp [d', endedIds]
  have hts : d'.takenStarts = d.takenStarts := by simp [d', takenStarts]
  have hv : d'.view = (d.trySend e.event).view := rfl
  have view : d'.view.activeTests.map (·.id) =
        (d.takenStarts.map (·.fst.id)).filter (· ∉ d'.takenEnds.map (·.fst.id)) ∧
      d'.view.totalTests = d.view.totalTests ∧
      d'.view.failedTests = d'.takenEnds.countP (·.fst.failed) % 2 ^ 64 ∧
      d'.view.totalBytes = U64.wrappingSum (d'.takenEnds.map (·.fst.bytes)) := by
    rw [hv, view_trySend]
    cases hr : d.hasRoom
    case false =>
      have hte : d'.takenEnds = d.takenEnds := by simp [d', takenEnds, hr]
      rw [hte, if_neg Bool.false_ne_true]
      exact ⟨inv.active, rfl, inv.failed, inv.bytes⟩
    case true =>
      have hte : d'.takenEnds = d.takenEnds ++ [(e, true)] := by simp [d', takenEnds, hr]
      have ⟨active, tests, failed, bytes⟩ := @handle_event d.view e
      have ha : (d.view.activeTests.filter (·.id ≠ e.id)).map (·.id) =
          (d.view.activeTests.map (·.id)).filter (· ≠ e.id) := by
        rw [List.filter_map]
        rfl
      simp only [if_true, active, tests, failed, bytes, ha, inv.active, hte, List.map_append,
        List.map_cons, List.map_nil, filter_filter_append, List.countP_append, inv.failed,
        wrappingSum_append_singleton, inv.bytes, true_and, and_true]
      cases hf : e.failed
      case false => simp [hf]
      case true  => simpa [hf] using wrappingAdd_mod
  have ⟨active, tests, failed, bytes⟩ := view
  exact {
    nodupStarted := hs ▸ inv.nodupStarted
    nodupEnded   := by
      rw [he]
      exact inv.nodupEnded.append (List.nodup_singleton _) (by simpa using live)
    ended        := fun id h => by
      rw [he] at h
      rw [hs]
      cases List.mem_append.mp h
      case inl h => exact inv.ended id h
      case inr h => exact List.mem_singleton.mp h ▸ started
    active       := hts ▸ active
    tests        := hts ▸ tests.trans inv.tests
    failed       := failed
    bytes        := bytes
  }

-- Receiving an event does not change what is shown in the end.
theorem Inv.receive (inv : d.Inv) {e : ServerEvent} {queue : List ServerEvent}
    (h : d.queue = e :: queue) : Inv { d with queue, app := d.app.handle e } := by
  have hv : view { d with queue, app := d.app.handle e } = d.view := by simp [view, h]
  exact {
    nodupStarted := inv.nodupStarted
    nodupEnded   := inv.nodupEnded
    ended        := inv.ended
    active       := hv ▸ inv.active
    tests        := hv ▸ inv.tests
    failed       := hv ▸ inv.failed
    bytes        := hv ▸ inv.bytes
  }

theorem neutral_testUpdated {id : String} {bytes : Nat} {throughputMbps : Float} :
    Neutral (.testUpdated id bytes throughputMbps) where
  active _ := map_id_updateFirst
  tests _  := rfl
  failed _ := rfl
  bytes _  := rfl

theorem neutral_connectionBlocked : Neutral .connectionBlocked where
  active _ := rfl
  tests _  := rfl
  failed _ := rfl
  bytes _  := rfl

theorem neutral_authFailure : Neutral .authFailure where
  active _ := rfl
  tests _  := rfl
  failed _ := rfl
  bytes _  := rfl

theorem AllTaken.trySend_iff {e : ServerEvent} : (d.trySend e).AllTaken ↔ d.AllTaken := by
  constructor
  case mp  => exact fun ⟨hs, he, hl⟩ => ⟨by simpa using hs, by simpa using he, by simpa using hl⟩
  case mpr => exact fun ⟨hs, he, hl⟩ => ⟨by simpa using hs, by simpa using he, by simpa using hl⟩

-- One step: all that matters is whether there is room for the starts and ends.
theorem step_spec (inv : d.Inv) (h : step d e = some d') :
    d'.Inv ∧ (d'.AllTaken ↔ d.AllTaken ∧ d.roomy e) := by
  cases e
  case start info =>
    simp only [step, Option.ite_none_left_eq_some, Option.some.injEq] at h
    have ⟨fresh, h⟩ := h
    subst h
    refine ⟨inv.start fresh, ?_⟩
    constructor
    case mp =>
      intro ⟨hs, he, hl⟩
      have hr : d.hasRoom = true := hs (info, d.hasRoom) (by simp)
      have hl : d.started.length < U64.max := by simpa [Nat.succ_le_iff] using hl
      exact ⟨⟨fun x hx => hs x (by simp [hx]), by simpa using he, hl.le⟩, by simp [roomy, hr, hl]⟩
    case mpr =>
      intro ⟨⟨hs, he, _⟩, hr⟩
      have ⟨hr, hl⟩ : d.hasRoom = true ∧ d.started.length < U64.max := by simpa [roomy] using hr
      exact ⟨by simpa [hr, or_imp, forall_and] using hs, by simpa using he,
        by simpa [Nat.succ_le_iff] using hl⟩
  case finish e =>
    simp only [step, Option.ite_none_right_eq_some, Option.some.injEq] at h
    have ⟨runs, h⟩ := h
    subst h
    refine ⟨inv.finish runs, ?_⟩
    constructor
    case mp =>
      intro ⟨hs, he, hl⟩
      have hx := he (e, d.hasRoom) (by simp)
      exact ⟨⟨by simpa using hs, fun x hx => he x (by simp [hx]), by simpa using hl⟩, hx⟩
    case mpr =>
      intro ⟨⟨hs, he, hl⟩, hr⟩
      have hr : d.hasRoom = true := hr
      exact ⟨by simpa using hs, by simpa [hr, or_imp, forall_and] using he, by simpa using hl⟩
  case update =>
    cases h
    exact ⟨inv.trySend neutral_testUpdated, by simp [AllTaken.trySend_iff, roomy]⟩
  case blocked =>
    cases h
    exact ⟨inv.trySend neutral_connectionBlocked, by simp [AllTaken.trySend_iff, roomy]⟩
  case authFailure =>
    cases h
    exact ⟨inv.trySend neutral_authFailure, by simp [AllTaken.trySend_iff, roomy]⟩
  case receive =>
    cases hq : d.queue
    case nil          => simp [step, hq] at h
    case cons e queue =>
      simp only [step, hq, Option.some.injEq] at h
      subst h
      refine ⟨inv.receive hq, ?_⟩
      constructor
      case mp  => exact fun ⟨hs, he, hl⟩ => ⟨⟨hs, he, hl⟩, rfl⟩
      case mpr => exact fun ⟨⟨hs, he, hl⟩, _⟩ => ⟨hs, he, hl⟩

-- Each test ends once, and only after it started.
theorem Inv.ended_le (inv : d.Inv) : d.ended.length ≤ d.started.length := by
  have hl := (List.subperm_of_subset inv.nodupEnded inv.ended).length_le
  simpa [endedIds, startedIds] using hl

theorem AllTaken.consistent (taken : d.AllTaken) (inv : d.Inv) (hq : d.queue = []) :
    d.Consistent := by
  have hv : d.view = d.app := by simp [view, hq]
  have hs : d.takenStarts = d.started := List.filter_eq_self.mpr taken.starts
  have he : d.takenEnds = d.ended := List.filter_eq_self.mpr taken.ends
  have active := inv.active
  have tests  := inv.tests
  have failed := inv.failed
  have bytes  := inv.bytes
  rw [hv, hs, he] at active
  rw [hv, hs] at tests
  rw [hv, he] at failed bytes
  have few : d.started.length < 2 ^ 64 := Nat.lt_succ_of_le taken.few
  have fails : d.ended.countP (·.fst.failed) ≤ d.ended.length := List.countP_le_length
  refine ⟨active, tests.trans (Nat.mod_eq_of_lt few), failed.trans (Nat.mod_eq_of_lt ?_), bytes⟩
  exact (fails.trans inv.ended_le).trans_lt few

-- A lost start is missing in the total, and a lost end leaves its test on display.
theorem Consistent.allTaken (c : d.Consistent) (inv : d.Inv) (hq : d.queue = []) :
    d.AllTaken := by
  have hv : d.view = d.app := by simp [view, hq]
  have tests := inv.tests
  rw [hv, c.tests] at tests
  have few : d.started.length < 2 ^ 64 := tests ▸ Nat.mod_lt _ (by decide)
  have starts : ∀ x ∈ d.started, x.snd = true := by
    have hl : d.takenStarts.length ≤ d.started.length := List.length_filter_le ..
    rw [Nat.mod_eq_of_lt (hl.trans_lt few)] at tests
    exact List.length_filter_eq_length_iff.mp tests.symm
  refine ⟨starts, fun x hx => ?_, Nat.le_of_lt_succ few⟩
  have hs : d.takenStarts = d.started := List.filter_eq_self.mpr starts
  have active := inv.active
  rw [hv, c.active, hs] at active
  have hx' : x.fst.id ∈ d.endedIds := List.mem_map_of_mem hx
  have hn : x.fst.id ∉ d.running := fun h => by
    have hl := (List.mem_filter.mp h).right
    simp [hx'] at hl
  have ht : x.fst.id ∈ d.takenEnds.map (·.fst.id) := by
    by_contra hc
    exact hn (active ▸ List.mem_filter.mpr ⟨inv.ended _ hx', decide_eq_true hc⟩)
  have ⟨y, hy, he⟩ := List.mem_map.mp ht
  have ⟨hy, hyt⟩ := List.mem_filter.mp hy
  have hxy : y = x := List.inj_on_of_nodup_map inv.nodupEnded hy hx he
  exact hxy ▸ hyt

theorem init_inv : Inv {} where
  nodupStarted := List.nodup_nil
  nodupEnded   := List.nodup_nil
  ended        := nofun
  active       := rfl
  tests        := rfl
  failed       := rfl
  bytes        := rfl

-- Whenever the channel is empty, the dashboard is right exactly if there was room for the start and
-- the end of each test, and if they are not so many that the count of tests wraps around.
theorem consistent_iff {es : List Event} (h : step.run {} es = some d) (hq : d.queue = []) :
    d.Consistent ↔ (step.guard roomy).run {} es = some d := by
  have inv : d.Inv := System.run_invariant (fun inv h => (step_spec inv h).left) init_inv h
  have taken : ({} : Dashboard).AllTaken := ⟨nofun, nofun, Nat.zero_le _⟩
  rw [← System.run_guard_iff (fun inv h => step_spec inv h) init_inv taken h]
  exact ⟨fun c => c.allTaken inv hq, fun taken => taken.consistent inv hq⟩

def test : ActiveTestInfo where
  id             := "a"
  clientIp       := .v4 0
  protocol       := "TCP"
  direction      := "Upload"
  streams        := 1
  durationSecs   := 10
  bytes          := 0
  throughputMbps := 0.0

def busy (updates : Nat) : List Event :=
  [.start test] ++ List.replicate updates (.update "a" 1 1.0) ++ [.finish ⟨"a", 1, false⟩] ++
    List.replicate (min (updates + 2) channelCapacity) .receive

theorem consistent_of_two_updates : ∃ d, step.run {} (busy 2) = some d ∧ d.Consistent := by
  have h : ((step.guard roomy).run {} (busy 2)).map (·.queue.length) = some 0 := by decide
  have ⟨d, h, hq⟩ := Option.map_eq_some_iff.mp h
  have hr := System.run_of_guard h
  exact ⟨d, hr, (consistent_iff hr (List.eq_nil_of_length_eq_zero hq)).mpr h⟩

-- A burst of updates leaves no room for the end of the test, which is on display for good.
theorem ghost_row : ∃ d, step.run {} (busy 99) = some d ∧ d.queue = [] ∧ d.running = [] ∧
    d.app.activeTests.map (·.id) = ["a"] ∧ d.app.totalBytes = 0 ∧ ¬d.Consistent := by
  have h : (step.run {} (busy 99)).map (fun d => (d.queue.length, d.running,
      d.app.activeTests.map (·.id), d.app.totalBytes)) = some (0, [], ["a"], 0) := by
    decide +kernel
  have ⟨d, hr, h⟩ := Option.map_eq_some_iff.mp h
  simp only [Prod.mk.injEq, List.length_eq_zero_iff] at h
  have ⟨queue, running, active, bytes⟩ := h
  refine ⟨d, hr, queue, running, active, bytes, fun c => ?_⟩
  have hc := c.active
  rw [active, running] at hc
  exact absurd hc (by decide)

end Dashboard
