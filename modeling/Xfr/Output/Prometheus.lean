import Xfr.Library.Recent
import Xfr.Library.System
import Xfr.Library.Utf8

open Utf8 (Text)

-- The metrics of a server. A vector of the client library is a map from tuples of labels to values,
-- and all vectors are kept in one map.
inductive StreamVec
  | streamBytesTotal
  | streamThroughputMbps
  | streamRetransmits
  deriving DecidableEq

inductive TcpVec
  | tcpRttMicroseconds
  | tcpRetransmitsTotal
  deriving DecidableEq

inductive Series
  | stream (vec : StreamVec) (testId streamId : Text)
  | tcp (vec : TcpVec) (testId : Text)
  deriving DecidableEq

def Series.testId : Series → Text
  | .stream _ testId _ => testId
  | .tcp _ testId      => testId

-- A finished test whose series are still exported, with the streams which it wrote.
structure FinishedTest where
  testId  : Text
  streams : List Text
  deriving DecidableEq

def FinishedTest.Covers (e : FinishedTest) : Series → Prop
  | .stream _ testId streamId => testId = e.testId ∧ streamId ∈ e.streams
  | .tcp _ testId             => testId = e.testId

-- `α` stands for the numbers of the client library.
structure XfrMetrics (α : Type*) where
  bytesTotal          : α
  throughputMbps      : α
  testsTotal          : Nat
  testDurationSeconds : List α
  series              : Series → Option α
  activeTests         : Int
  finished            : List FinishedTest

structure StreamSample (α : Type*) where
  throughputMbps : α
  totalBytes     : α
  retransmits    : α

structure TcpSample (α : Type*) where
  rttUs       : α
  retransmits : α

-- What is read of the statistics of a test. There is no throughput at its very beginning.
structure TestSample (α : Type*) where
  totalBytes     : α
  elapsedSeconds : α
  throughputMbps : Option α
  streams        : List (StreamSample α)
  tcpInfo        : Option (TcpSample α)

-- Each of these is done at once, but others may come in between.
inductive MetricsOp (α : Type*)
  | decActive
  | incTests
  | observe (seconds : α)
  | incBytes (bytes : α)
  | setThroughput (mbps : α)
  | set (series : Series) (value : α)
  | incBy (series : Series) (value : α)
  | remove (series : Series)
  | push (entry : FinishedTest)
  | pop (entry : FinishedTest)

def RETAINED_TESTS : Nat := 16

def streamLabel (i : Nat) : Text :=
  (Nat.repr i).toList

namespace MetricsOp

variable {α : Type*}

-- Series which a test never wrote are removed as well.
def removeSeries (entry : FinishedTest) : List (MetricsOp α) :=
  entry.streams.flatMap (fun streamId => [
    remove (.stream .streamBytesTotal entry.testId streamId),
    remove (.stream .streamThroughputMbps entry.testId streamId),
    remove (.stream .streamRetransmits entry.testId streamId)]) ++
  [remove (.tcp .tcpRttMicroseconds entry.testId), remove (.tcp .tcpRetransmitsTotal entry.testId)]

def updateMetrics (testId : Text) (sample : TestSample α) : List (MetricsOp α) :=
  (sample.throughputMbps.map setThroughput).toList ++
  sample.streams.zipIdx.map (fun (stream, i) =>
    set (.stream .streamThroughputMbps testId (streamLabel i)) stream.throughputMbps) ++
  (sample.tcpInfo.map fun tcp => set (.tcp .tcpRttMicroseconds testId) tcp.rttUs).toList

def updateCounters (testId : Text) (sample : TestSample α) : List (MetricsOp α) :=
  incBytes sample.totalBytes ::
  sample.streams.zipIdx.flatMap (fun (stream, i) => [
    incBy (.stream .streamBytesTotal testId (streamLabel i)) stream.totalBytes,
    incBy (.stream .streamRetransmits testId (streamLabel i)) stream.retransmits]) ++
  (sample.tcpInfo.map fun tcp =>
    incBy (.tcp .tcpRetransmitsTotal testId) tcp.retransmits).toList

def retire (entry : FinishedTest) : List (MetricsOp α) :=
  pop entry :: removeSeries entry

-- The entry of an earlier test with this id is replaced, and entries beyond the limit are retired.
def finish (finished : List FinishedTest) (entry : FinishedTest) (sample : TestSample α)
    (completed : Bool) : List (MetricsOp α) :=
  let earlier := finished.find? (·.testId = entry.testId)
  let queue   := finished.eraseP (·.testId = entry.testId) ++ [entry]
  earlier.toList.flatMap retire ++
  [decActive] ++
  (if completed then [incTests, observe sample.elapsedSeconds] else []) ++
  updateMetrics entry.testId sample ++
  (if completed then updateCounters entry.testId sample else []) ++
  [push entry] ++
  (queue.take (queue.length - RETAINED_TESTS)).flatMap retire

end MetricsOp

namespace XfrMetrics

variable {α : Type*} [Zero α] [Add α]

def new : XfrMetrics α where
  bytesTotal          := 0
  throughputMbps      := 0
  testsTotal          := 0
  testDurationSeconds := []
  series _            := none
  activeTests         := 0
  finished            := []

def setSeries (m : XfrMetrics α) (k : Series) (value : Option α) : XfrMetrics α :=
  { m with series := Function.update m.series k value }

-- A series begins with zero.
def exec (m : XfrMetrics α) : MetricsOp α → XfrMetrics α
  | .decActive          => { m with activeTests := m.activeTests - 1 }
  | .incTests           => { m with testsTotal := m.testsTotal + 1 }
  | .observe seconds    => { m with testDurationSeconds := m.testDurationSeconds ++ [seconds] }
  | .incBytes bytes     => { m with bytesTotal := m.bytesTotal + bytes }
  | .setThroughput mbps => { m with throughputMbps := mbps }
  | .set k value        => m.setSeries k (some value)
  | .incBy k value      => m.setSeries k (some ((m.series k).getD 0 + value))
  | .remove k           => m.setSeries k none
  | .push entry         => { m with finished := m.finished ++ [entry] }
  | .pop entry          => { m with finished := m.finished.erase entry }

def onTestStart (m : XfrMetrics α) : XfrMetrics α :=
  { m with activeTests := m.activeTests + 1 }

end XfrMetrics

-- The statistics of a test have its id and its streams from the beginning.
structure ExportedTest where
  testId  : Text
  streams : Nat

def ExportedTest.entry (t : ExportedTest) : FinishedTest where
  testId  := t.testId
  streams := (List.range t.streams).map streamLabel

inductive ExportPhase
  | idle
  | running (updated : Bool)
  | finishing
  | finished
  deriving DecidableEq

-- What a finish has still to do while it holds the lock.
structure Finishing (ι α : Type*) where
  test      : ι
  completed : Bool
  todo      : List (MetricsOp α)

-- `live` is what the live updates of a test have still to do, and `written` the series which they
-- have written as long as the test is not finished. The ids of finished tests are in `history`.
structure Exporter (ι α : Type*) where
  metrics   : XfrMetrics α
  phase     : ι → ExportPhase
  live      : ι → List (MetricsOp α)
  written   : List (ι × Series)
  finishing : Option (Finishing ι α)
  started   : Nat
  completed : Nat
  history   : List Text

inductive ExportEvent (ι α : Type*)
  | start (x : ι)
  | update (x : ι) (sample : TestSample α)
  | live (x : ι) (n : Nat)
  | finish (x : ι) (sample : TestSample α) (completed : Bool)
  | proceed

namespace Exporter

variable {ι α : Type*} [DecidableEq ι] [Zero α] [Add α]

def init : Exporter ι α where
  metrics   := .new
  phase _   := .idle
  live _    := []
  written   := []
  finishing := none
  started   := 0
  completed := 0
  history   := []

def goto (s : Exporter ι α) (x : ι) (phase : ExportPhase) : Exporter ι α :=
  { s with phase := Function.update s.phase x phase }

def write (s : Exporter ι α) (x : ι) : MetricsOp α → Exporter ι α
  | .set k value => { s with
      metrics := s.metrics.exec (.set k value)
      written := s.written ++ [(x, k)] }
  | op => { s with metrics := s.metrics.exec op }

-- Live updates do not take the lock. A test is finished after its last update.
def step (tests : ι → ExportedTest) : System (Exporter ι α) (ExportEvent ι α)
  | s, .start x =>
    match s.phase x with
    | .idle =>
      some { s.goto x (.running false) with
        metrics := s.metrics.onTestStart
        started := s.started + 1 }
    | _ => none
  | s, .update x sample =>
    match s.phase x with
    | .running _ =>
      if sample.streams.length = (tests x).streams then
        let ops := MetricsOp.updateMetrics (tests x).testId sample
        some { s.goto x (.running true) with live := Function.update s.live x (s.live x ++ ops) }
      else
        none
    | _ => none
  | s, .live x n =>
    match (s.live x)[n]? with
    | some op =>
      some { s.write x op with live := Function.update s.live x ((s.live x).eraseIdx n) }
    | none => none
  | s, .finish x sample completed =>
    match s.phase x, s.live x, s.finishing with
    | .running _, [], none =>
      if sample.streams.length = (tests x).streams then
        let todo := MetricsOp.finish s.metrics.finished (tests x).entry sample completed
        some { s.goto x .finishing with
          written   := s.written.filter (·.fst ≠ x)
          finishing := some { test := x, completed, todo } }
      else
        none
    | _, _, _ => none
  | s, .proceed =>
    match s.finishing with
    | none   => none
    | some f =>
      match f.todo with
      | op :: todo =>
        some { s with
          metrics   := s.metrics.exec op
          finishing := some { f with todo } }
      | [] =>
        some { s.goto f.test .finished with
          finishing := none
          completed := if f.completed then s.completed + 1 else s.completed
          history   := s.history ++ [(tests f.test).testId] }

end Exporter
