import Xfr.Library.U64

structure TcpInfoSnapshot where
  retransmits    : Nat
  rttUs          : Nat
  cwnd           : Nat
  retransmits_le : retransmits ≤ U64.max := by decide

structure UdpIntervalProgress where
  packetsReceived : Nat
  packetsLost     : Nat

structure IntervalStats where
  timestamp                 : Nat
  bytes                     : Nat
  throughputMbps            : Float
  retransmits               : Nat
  jitterMs                  : Float
  lost                      : Nat
  rttUs                     : Option Nat
  cwnd                      : Option Nat
  bytesSent                 : Nat
  bytesReceived             : Nat
  cumulativePacketsReceived : Nat
  cumulativePacketsLost     : Nat

structure Counters where
  bytesSent        : Nat
  bytesReceived    : Nat
  bytesSent_le     : bytesSent ≤ U64.max := by decide
  bytesReceived_le : bytesReceived ≤ U64.max := by decide

-- What a stream's live counters show while an interval is recorded. The byte counters are loaded
-- twice, and the data tasks may advance them in between. Times are in nanoseconds.
structure Reading where
  now         : Nat
  totals      : Counters
  counters    : Counters
  udpJitterUs : Nat
  udpProgress : UdpIntervalProgress
  tcpInfo     : Option TcpInfoSnapshot

def Reading.totalBytes (r : Reading) : Nat :=
  U64.wrappingAdd r.totals.bytesSent r.totals.bytesReceived

-- The part of a stream's statistics which remembers the previous reading.
structure StreamStats where
  streamId                 : Nat
  startTime                : Nat
  intervals                : List IntervalStats
  intervalRetransmitsTotal : Nat
  lastBytes                : Nat
  lastBytesSent            : Nat
  lastBytesReceived        : Nat
  lastTcpRetransmits       : Nat
  lastUdpLost              : Nat

structure StreamInterval where
  id                 : Nat
  bytes              : Nat
  retransmits        : Option Nat
  jitterMs           : Option Float
  lost               : Option Nat
  error              : Option String
  rttUs              : Option Nat
  cwnd               : Option Nat
  bytesSent          : Option Nat
  bytesReceived      : Option Nat
  throughputSendMbps : Option Float
  throughputRecvMbps : Option Float

structure AggregateInterval where
  bytes              : Nat
  throughputMbps     : Float
  retransmits        : Option Nat
  jitterMs           : Option Float
  lost               : Option Nat
  udpProgress        : Option UdpIntervalProgress
  rttUs              : Option Nat
  cwnd               : Option Nat
  bytesSent          : Option Nat
  bytesReceived      : Option Nat
  throughputSendMbps : Option Float
  throughputRecvMbps : Option Float

def MAX_INTERVAL_HISTORY : Nat := 60

def secsOfNanos (duration : Nat) : Float :=
  Float.ofNat duration / 1000000000.0

namespace StreamStats

def new (streamId startTime : Nat) : StreamStats where
  streamId                 := streamId
  startTime                := startTime
  intervals                := []
  intervalRetransmitsTotal := 0
  lastBytes                := 0
  lastBytesSent            := 0
  lastBytesReceived        := 0
  lastTcpRetransmits       := 0
  lastUdpLost              := 0

-- The end of the last recorded interval.
def lastTimestamp (s : StreamStats) : Nat :=
  s.intervals.getLast?.elim s.startTime (·.timestamp)

-- Keep only the last intervals to bound memory.
def pushInterval (intervals : List IntervalStats) (stats : IntervalStats) : List IntervalStats :=
  let intervals := intervals ++ [stats]
  if intervals.length > MAX_INTERVAL_HISTORY then intervals.tail else intervals

def recordInterval (s : StreamStats) (r : Reading) : IntervalStats × StreamStats :=
  let intervalBytes         := U64.saturatingSub r.totalBytes s.lastBytes
  let intervalBytesSent     := U64.saturatingSub r.counters.bytesSent s.lastBytesSent
  let intervalBytesReceived := U64.saturatingSub r.counters.bytesReceived s.lastBytesReceived
  let intervalDuration      := r.now - s.lastTimestamp
  let throughputMbps :=
    if secsOfNanos intervalDuration > 0.0 then
      Float.ofNat intervalBytes * 8.0 / (secsOfNanos intervalDuration * 1000000.0)
    else
      0.0
  let intervalLost := U64.saturatingSub r.udpProgress.packetsLost s.lastUdpLost
  let intervalRetransmits :=
    r.tcpInfo.elim 0 fun info => U64.saturatingSub info.retransmits s.lastTcpRetransmits
  let stats : IntervalStats := {
    timestamp                 := r.now
    bytes                     := intervalBytes
    throughputMbps            := throughputMbps
    retransmits               := intervalRetransmits
    jitterMs                  := Float.ofNat r.udpJitterUs / 1000.0
    lost                      := intervalLost
    rttUs                     := r.tcpInfo.map (·.rttUs)
    cwnd                      := r.tcpInfo.map (·.cwnd)
    bytesSent                 := intervalBytesSent
    bytesReceived             := intervalBytesReceived
    cumulativePacketsReceived := r.udpProgress.packetsReceived
    cumulativePacketsLost     := r.udpProgress.packetsLost
  }
  (stats, {
    s with
    intervals := pushInterval s.intervals stats
    intervalRetransmitsTotal := U64.saturatingAdd s.intervalRetransmitsTotal intervalRetransmits
    lastBytes          := r.totalBytes
    lastBytesSent      := r.counters.bytesSent
    lastBytesReceived  := r.counters.bytesReceived
    -- Without TCP information the last known number of retransmits stays.
    lastTcpRetransmits := r.tcpInfo.elim s.lastTcpRetransmits (·.retransmits)
    lastUdpLost        := r.udpProgress.packetsLost
  })

-- In bidirectional tests the interval also carries both directions from the view of the client,
-- for which sending and receiving are the other way around.
def toIntervalWithDirection (s : StreamStats) (i : IntervalStats) (isBidir : Bool) :
    StreamInterval :=
  let directionalMbps (bytes : Nat) : Float :=
    if i.bytes > 0 then i.throughputMbps * Float.ofNat bytes / Float.ofNat i.bytes else 0.0
  {
    id                 := s.streamId
    bytes              := i.bytes
    retransmits        := some i.retransmits
    jitterMs           := if i.jitterMs > 0.0 ∨ i.cumulativePacketsReceived > 0 then
                            some i.jitterMs else none
    lost               := if i.lost > 0 then some i.lost else none
    error              := none
    rttUs              := i.rttUs
    cwnd               := i.cwnd
    bytesSent          := if isBidir then some i.bytesReceived else none
    bytesReceived      := if isBidir then some i.bytesSent else none
    throughputSendMbps := if isBidir then some (directionalMbps i.bytesReceived) else none
    throughputRecvMbps := if isBidir then some (directionalMbps i.bytesSent) else none
  }

end StreamStats

def toAggregateWithDirection (intervals : List IntervalStats) (isBidir : Bool) :
    AggregateInterval :=
  let totalBytes       := U64.wrappingSum (intervals.map (·.bytes))
  let totalThroughput  := (intervals.map (·.throughputMbps)).foldl (· + ·) 0.0
  let totalRetransmits := U64.wrappingSum (intervals.map (·.retransmits))
  let totalLost        := (intervals.map (·.lost)).foldl U64.saturatingAdd 0
  let clientSent       := U64.wrappingSum (intervals.map (·.bytesReceived))
  let clientRecv       := U64.wrappingSum (intervals.map (·.bytesSent))
  let share (bytes : Nat) : Float :=
    if totalBytes > 0 then totalThroughput * Float.ofNat bytes / Float.ofNat totalBytes else 0.0
  let jitterValues := intervals.filterMap fun i =>
    if i.jitterMs > 0.0 ∨ i.cumulativePacketsReceived > 0 then some i.jitterMs else none
  let received := (intervals.map (·.cumulativePacketsReceived)).foldl U64.saturatingAdd 0
  let lost     := (intervals.map (·.cumulativePacketsLost)).foldl U64.saturatingAdd 0
  let rttValues := intervals.filterMap (·.rttUs)
  let cwnds     := intervals.filterMap (·.cwnd)
  {
    bytes              := totalBytes
    throughputMbps     := totalThroughput
    retransmits        := some totalRetransmits
    jitterMs           := if jitterValues.length = 0 then none else
                            some (jitterValues.foldl (· + ·) 0.0 / Float.ofNat jitterValues.length)
    lost               := if totalLost > 0 then some totalLost else none
    udpProgress        := if received > 0 ∨ lost > 0 then some ⟨received, lost⟩ else none
    rttUs              := if rttValues.length = 0 then none else
                            some (Float.ofNat (U64.wrappingSum rttValues) /
                              Float.ofNat rttValues.length).round.toUInt32.toNat
    cwnd               := if cwnds.length = 0 then none else some (min cwnds.sum (2 ^ 32 - 1))
    bytesSent          := if isBidir then some clientSent else none
    bytesReceived      := if isBidir then some clientRecv else none
    throughputSendMbps := if isBidir then some (share clientSent) else none
    throughputRecvMbps := if isBidir then some (share clientRecv) else none
  }

namespace StreamStats

variable {s : StreamStats} {r : Reading}

@[simp]
theorem getLast?_pushInterval {intervals : List IntervalStats} {stats : IntervalStats} :
    (pushInterval intervals stats).getLast? = some stats := by
  unfold pushInterval
  dsimp only
  split
  case isTrue h  => cases intervals <;> simp_all [MAX_INTERVAL_HISTORY]
  case isFalse _ => simp

@[simp]
theorem lastTimestamp_recordInterval : (s.recordInterval r).2.lastTimestamp = r.now := by
  simp [recordInterval, lastTimestamp]

end StreamStats
