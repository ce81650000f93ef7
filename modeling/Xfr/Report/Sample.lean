import Xfr.Library.Utf8
import Xfr.Report.Stats

open Utf8 (Text)

namespace Protocol

inductive Direction
  | upload
  | download
  | bidir
  deriving DecidableEq

end Protocol

inductive Protocol
  | tcp
  | udp
  | quic
  deriving DecidableEq

-- The control messages which a report loop serializes by itself.
inductive ControlMessage
  | interval (id : Text) (elapsedMs : Nat) (streams : List StreamInterval)
      (aggregate : AggregateInterval)
  | cancelled (id : Text)

structure ReportLoopConfig where
  id              : Text
  protocol        : Protocol
  duration        : Nat
  direction       : Protocol.Direction
  byteBudgetTest  : Bool
  endOnServerSend : Bool

-- The pending interval keeps the deltas rather than a serialized frame, so that sampling can go on
-- with at most one frame and one pending sample.
structure Sample where
  intervals : List IntervalStats
  durations : List Nat
  elapsedMs : Nat

namespace Sample

-- The predecessors are read first, so that merging keeps the true span.
def capture (streams : List StreamStats) (readings : List Reading) (elapsedMs : Nat) :
    Sample × List StreamStats :=
  let previous  := streams.map (·.lastTimestamp)
  let recorded  := List.zipWith StreamStats.recordInterval streams readings
  let intervals := recorded.map (·.1)
  let durations := List.zipWith (fun interval previous => interval.timestamp - previous)
    intervals previous
  ({ intervals, durations, elapsedMs }, recorded.map (·.2))

-- Deltas and spans add up. Everything else is taken from the newer interval.
def mergeInterval (older newer : IntervalStats × Nat) : IntervalStats × Nat :=
  let bytes    := U64.saturatingAdd older.1.bytes newer.1.bytes
  let duration := older.2 + newer.2
  ({
    newer.1 with
    bytes          := bytes
    retransmits    := U64.saturatingAdd older.1.retransmits newer.1.retransmits
    lost           := U64.saturatingAdd older.1.lost newer.1.lost
    bytesSent      := U64.saturatingAdd older.1.bytesSent newer.1.bytesSent
    bytesReceived  := U64.saturatingAdd older.1.bytesReceived newer.1.bytesReceived
    throughputMbps := if duration = 0 then 0.0 else
                        Float.ofNat bytes * 8.0 / secsOfNanos duration / 1000000.0
  }, duration)

def merge (older newer : Sample) : Sample :=
  let merged := List.zipWith mergeInterval
    (older.intervals.zip older.durations) (newer.intervals.zip newer.durations)
  { intervals := merged.map (·.1), durations := merged.map (·.2), elapsedMs := newer.elapsedMs }

def message (config : ReportLoopConfig) (streams : List StreamStats) (s : Sample) :
    ControlMessage :=
  let isBidir := config.direction = .bidir
  .interval config.id s.elapsedMs
    (List.zipWith (fun stream i => stream.toIntervalWithDirection i isBidir) streams s.intervals)
    (toAggregateWithDirection s.intervals isBidir)

end Sample
