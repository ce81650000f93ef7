import Xfr.Feedback.Basic
import Xfr.Report.UdpStats

structure StreamResult where
  id                 : Nat
  bytes              : Nat
  throughputMbps     : Float
  bytesSent          : Option Nat
  bytesReceived      : Option Nat
  throughputRecvMbps : Option Float

-- The part of a result which the client corrects.
structure TestResult where
  bytesTotal         : Nat
  durationMs         : Nat
  throughputMbps     : Float
  streams            : List StreamResult
  udpStats           : Option UdpStats
  udpStatsSend       : Option UdpStats
  udpStatsRecv       : Option UdpStats
  bytesSent          : Option Nat
  bytesReceived      : Option Nat
  throughputRecvMbps : Option Float

-- What the client knows by itself: the bytes which each of its streams received, and the figures of its
-- receivers.
structure TestStats where
  bytesReceived : List Nat
  udpStats      : List UdpStats

structure TestProgress where
  totalBytes         : Nat
  throughputMbps     : Float
  streams            : List StreamInterval
  totalRetransmits   : Option Nat
  bytesSent          : Option Nat
  bytesReceived      : Option Nat
  throughputSendMbps : Option Float
  throughputRecvMbps : Option Float
  udpProgress        : Option UdpIntervalProgress
  udpFeedbackOnly    : Bool

namespace Overlay

-- A sum which is out of bounds makes the program panic.
def totalBytesReceived (stats : TestStats) : Option Nat :=
  U64.checkedSum stats.bytesReceived

def mbps (durationMs bytes : Nat) : Float :=
  if durationMs > 0 then
    Float.ofNat bytes * 8.0 / (Float.ofNat durationMs / 1000.0) / 1000000.0
  else
    0.0

-- Streams which the client does not know are left alone, and so is the total of a stream whose two halves
-- the server did not report.
def overlayStream (stats : TestStats) (durationMs : Nat) (stream : StreamResult) : StreamResult :=
  match stats.bytesReceived[stream.id]? with
  | none          => stream
  | some received =>
    let stream := { stream with
      bytesReceived      := some received
      throughputRecvMbps := some (mbps durationMs received) }
    match stream.bytesSent with
    | none      => stream
    | some sent =>
      let bytes := U64.saturatingAdd sent received
      { stream with bytes, throughputMbps := mbps durationMs bytes }

-- The total of a server which did not report the other half is left alone, too.
def bytesTotal (result : TestResult) (received : Nat) : Option (Nat × Float) :=
  match result.bytesSent with
  | none      => some (result.bytesTotal, result.throughputMbps)
  | some sent => (U64.checkedAdd sent received).map fun total =>
    (total, mbps result.durationMs total)

def correct (result : TestResult) (stats : TestStats) (received : Nat) (total : Nat × Float) :
    TestResult :=
  { result with
    udpStatsSend       :=
      (result.udpStatsSend.filter (·.isObserved)).or (result.udpStats.filter (·.isObserved))
    udpStatsRecv       := UdpStats.aggregateUdpReceiverStats stats.udpStats
    bytesReceived      := some received
    throughputRecvMbps := some (mbps result.durationMs received)
    bytesTotal         := total.1
    throughputMbps     := total.2
    streams            := result.streams.map (overlayStream stats result.durationMs) }

def overlayUdpBidirResult (result : TestResult) (stats : TestStats) : Option TestResult := do
  let received ← totalBytesReceived stats
  let total ← bytesTotal result received
  return correct result stats received total

-- What each stream received since the last time.
def deltas (bytesReceived lastRecvBytes : List Nat) : List Nat :=
  bytesReceived.mapIdx fun id cumulative => U64.saturatingSub cumulative (lastRecvBytes[id]?.getD 0)

def remember (bytesReceived lastRecvBytes : List Nat) : List Nat :=
  lastRecvBytes.mapIdx fun id last => bytesReceived[id]?.getD last

def recvMbps (bytes : Nat) (durationSecs : Float) : Float :=
  if durationSecs > 0.0 then Float.ofNat bytes * 8.0 / durationSecs / 1000000.0 else 0.0

def overlayInterval (received : List Nat) (durationSecs : Float) (stream : StreamInterval) :
    StreamInterval :=
  match received[stream.id]? with
  | none       => stream
  | some bytes =>
    let stream := { stream with
      bytesReceived      := some bytes
      throughputRecvMbps := some (recvMbps bytes durationSecs) }
    match stream.bytesSent with
    | none      => stream
    | some sent => { stream with bytes := U64.saturatingAdd sent bytes }

def overlayUdpBidirIntervals (streams : List StreamInterval) (received : List Nat)
    (durationSecs : Float) : List StreamInterval :=
  streams.map (overlayInterval received durationSecs)

def intervalTotal (aggregate : AggregateInterval) (intervalRecv : Nat) (recvMbps : Float) :
    Option (Nat × Float) :=
  match aggregate.bytesSent, aggregate.throughputSendMbps with
  | some sent, some sendMbps => (U64.checkedAdd sent intervalRecv).map fun total =>
    (total, sendMbps + recvMbps)
  | _,         _             => some (aggregate.bytes, aggregate.throughputMbps)

-- There are no figures of TCP in a test of UDP.
def toProgress (streams : List StreamInterval) (aggregate : AggregateInterval)
    (udpProgress : Option UdpIntervalProgress) (intervalRecv : Nat) (recvMbps : Float)
    (total : Nat × Float) : TestProgress where
  totalBytes         := total.1
  throughputMbps     := total.2
  streams            := streams
  totalRetransmits   := none
  bytesSent          := aggregate.bytesSent
  bytesReceived      := some intervalRecv
  throughputSendMbps := aggregate.throughputSendMbps
  throughputRecvMbps := some recvMbps
  udpProgress        := udpProgress
  udpFeedbackOnly    := false

-- What the client makes of an interval message, and what its streams have received by now.
def interval (streams : List StreamInterval) (aggregate : AggregateInterval)
    (udpProgress : Option UdpIntervalProgress) (bytesReceived lastRecvBytes : List Nat)
    (durationSecs : Float) : Option (TestProgress × List Nat) := do
  let deltas := deltas bytesReceived lastRecvBytes
  let intervalRecv ← U64.checkedSum deltas
  let recvMbps := recvMbps intervalRecv durationSecs
  let total ← intervalTotal aggregate intervalRecv recvMbps
  let streams := overlayUdpBidirIntervals streams deltas durationSecs
  return (toProgress streams aggregate udpProgress intervalRecv recvMbps total,
    remember bytesReceived lastRecvBytes)

-- A result whose totals are those of its halves, and which stays the same when it is overlaid again.
structure IsOverlaid (result overlaid : TestResult) (stats : TestStats) : Prop where
  once          : overlayUdpBidirResult result stats = some overlaid
  received_eq   : overlaid.bytesReceived = some stats.bytesReceived.sum
  bytesTotal_eq : ∀ sent, result.bytesSent = some sent →
    overlaid.bytesTotal = U64.saturatingAdd sent stats.bytesReceived.sum
  bytes_eq      : ∀ s ∈ overlaid.streams, ∀ received sent,
    stats.bytesReceived[s.id]? = some received → s.bytesSent = some sent →
      s.bytesReceived = some received ∧ s.bytes = U64.saturatingAdd sent received
  again         : overlayUdpBidirResult overlaid stats = some overlaid

-- The sums which the program makes without saturation.
structure ResultFits (result : TestResult) (stats : TestStats) : Prop where
  received : stats.bytesReceived.sum ≤ U64.max
  total    : ∀ sent, result.bytesSent = some sent → sent + stats.bytesReceived.sum ≤ U64.max

variable {result : TestResult} {stats : TestStats} {durationMs : Nat} {stream : StreamResult}

theorem overlayStream_overlayStream :
    overlayStream stats durationMs (overlayStream stats durationMs stream) =
      overlayStream stats durationMs stream := by
  cases hr : stats.bytesReceived[stream.id]?
  case none => simp only [overlayStream, hr]
  case some received => cases hs : stream.bytesSent <;> simp only [overlayStream, hr, hs]

theorem overlayStream_spec :
    (overlayStream stats durationMs stream).id = stream.id ∧
    (overlayStream stats durationMs stream).bytesSent = stream.bytesSent ∧
    ∀ received sent, stats.bytesReceived[stream.id]? = some received →
      stream.bytesSent = some sent →
      (overlayStream stats durationMs stream).bytesReceived = some received ∧
      (overlayStream stats durationMs stream).bytes = U64.saturatingAdd sent received := by
  cases hr : stats.bytesReceived[stream.id]?
  case none => simp [overlayStream, hr]
  case some received => cases hs : stream.bytesSent <;> simp_all [overlayStream]

theorem filter_or_idem {α : Type*} {p : α → Bool} {a b : Option α} :
    (((a.filter p).or (b.filter p)).filter p).or (b.filter p) = (a.filter p).or (b.filter p) := by
  cases ha : a.filter p
  case some x =>
    have hx : p x = true := (Option.filter_eq_some_iff.mp ha).right
    simp [hx]
  case none =>
    cases hb : b.filter p
    case none => rfl
    case some x =>
      have hx : p x = true := (Option.filter_eq_some_iff.mp hb).right
      simp [Option.filter, hx]

theorem bytesTotal_isSome_iff {received : Nat} : (∃ total, bytesTotal result received = some total) ↔
    ∀ sent, result.bytesSent = some sent → sent + received ≤ U64.max := by
  cases hs : result.bytesSent
  case none => simp [bytesTotal, hs]
  case some sent =>
    simp only [bytesTotal, hs, Option.map_eq_some_iff, U64.checkedAdd_eq_some_iff]
    simp

theorem correct_correct {received : Nat} {total : Nat × Float} :
    correct (correct result stats received total) stats received total =
      correct result stats received total := by
  have hs : (result.streams.map (overlayStream stats result.durationMs)).map
      (overlayStream stats result.durationMs) =
      result.streams.map (overlayStream stats result.durationMs) := by
    rw [List.map_map]
    exact List.map_congr_left fun _ _ => overlayStream_overlayStream
  simp only [correct, filter_or_idem, hs]

-- The total is not computed anew from itself.
theorem bytesTotal_correct {received : Nat} {total : Nat × Float}
    (h : bytesTotal result received = some total) :
    bytesTotal (correct result stats received total) received = some total := by
  cases hs : result.bytesSent
  case none => simp [bytesTotal, correct, hs]
  case some sent => simpa only [bytesTotal, correct, hs] using h

theorem bytesTotal_eq {received sent : Nat} {total : Nat × Float}
    (h : bytesTotal result received = some total) (hs : result.bytesSent = some sent) :
    total.1 = U64.saturatingAdd sent received := by
  simp only [bytesTotal, hs, Option.map_eq_some_iff, U64.checkedAdd_eq_some_iff] at h
  have ⟨_, ⟨hl, he⟩, ht⟩ := h
  rw [← ht, ← he, U64.saturatingAdd_eq_add hl]

theorem isOverlaid_iff : (∃ overlaid, IsOverlaid result overlaid stats) ↔ ResultFits result stats := by
  constructor
  case mp =>
    intro ⟨overlaid, h⟩
    have ⟨received, hr, h⟩ := Option.bind_eq_some_iff.mp h.once
    have ⟨total, ht, _⟩ := Option.bind_eq_some_iff.mp h
    have ⟨hl, he⟩ := U64.checkedSum_eq_some_iff.mp hr
    exact ⟨hl, he ▸ bytesTotal_isSome_iff.mp ⟨total, ht⟩⟩
  case mpr =>
    intro ⟨hl, hs⟩
    have hr : totalBytesReceived stats = some stats.bytesReceived.sum := U64.checkedSum_eq_some hl
    have ⟨total, ht⟩ := bytesTotal_isSome_iff.mpr hs
    refine ⟨correct result stats stats.bytesReceived.sum total, ?_⟩
    exact {
      once          := Option.bind_eq_some_iff.mpr ⟨_, hr, Option.bind_eq_some_iff.mpr ⟨_, ht, rfl⟩⟩
      received_eq   := rfl
      bytesTotal_eq := fun sent h => bytesTotal_eq ht h
      bytes_eq      := by
        intro s hm received sent hl hs
        have ⟨stream, _, he⟩ := List.mem_map.mp hm
        have ⟨hi, hb, h⟩ := @overlayStream_spec stats result.durationMs stream
        rw [← he] at hl hs ⊢
        exact h received sent (hi ▸ hl) (hb ▸ hs)
      again         := by
        have ht := @bytesTotal_correct _ stats _ _ ht
        refine Option.bind_eq_some_iff.mpr ⟨_, hr, Option.bind_eq_some_iff.mpr ⟨_, ht, ?_⟩⟩
        exact congrArg some correct_correct
    }

-- An interval whose totals are those of its halves.
structure IsProgress (streams : List StreamInterval) (aggregate : AggregateInterval)
    (udpProgress : Option UdpIntervalProgress) (bytesReceived lastRecvBytes : List Nat)
    (durationSecs : Float) (progress : TestProgress) : Prop where
  once          : ∃ last, interval streams aggregate udpProgress bytesReceived lastRecvBytes
    durationSecs = some (progress, last)
  received_eq   : progress.bytesReceived = some (deltas bytesReceived lastRecvBytes).sum
  totalBytes_eq : ∀ sent, aggregate.bytesSent = some sent → aggregate.throughputSendMbps.isSome →
    progress.totalBytes = U64.saturatingAdd sent (deltas bytesReceived lastRecvBytes).sum
  bytes_eq      : ∀ s ∈ progress.streams, ∀ received sent,
    (deltas bytesReceived lastRecvBytes)[s.id]? = some received → s.bytesSent = some sent →
      s.bytesReceived = some received ∧ s.bytes = U64.saturatingAdd sent received
  again         : overlayUdpBidirIntervals progress.streams (deltas bytesReceived lastRecvBytes)
    durationSecs = progress.streams

structure IntervalFits (aggregate : AggregateInterval) (bytesReceived lastRecvBytes : List Nat) :
    Prop where
  received : (deltas bytesReceived lastRecvBytes).sum ≤ U64.max
  total    : ∀ sent, aggregate.bytesSent = some sent → aggregate.throughputSendMbps.isSome →
    sent + (deltas bytesReceived lastRecvBytes).sum ≤ U64.max

variable {aggregate : AggregateInterval} {received : List Nat} {durationSecs : Float}
  {streamInterval : StreamInterval}

theorem overlayInterval_overlayInterval :
    overlayInterval received durationSecs (overlayInterval received durationSecs streamInterval) =
      overlayInterval received durationSecs streamInterval := by
  cases hr : received[streamInterval.id]?
  case none => simp only [overlayInterval, hr]
  case some bytes => cases hs : streamInterval.bytesSent <;> simp only [overlayInterval, hr, hs]

theorem overlayInterval_spec :
    (overlayInterval received durationSecs streamInterval).id = streamInterval.id ∧
    (overlayInterval received durationSecs streamInterval).bytesSent = streamInterval.bytesSent ∧
    ∀ bytes sent, received[streamInterval.id]? = some bytes →
      streamInterval.bytesSent = some sent →
      (overlayInterval received durationSecs streamInterval).bytesReceived = some bytes ∧
      (overlayInterval received durationSecs streamInterval).bytes = U64.saturatingAdd sent bytes := by
  cases hr : received[streamInterval.id]?
  case none => simp [overlayInterval, hr]
  case some bytes => cases hs : streamInterval.bytesSent <;> simp_all [overlayInterval]

theorem intervalTotal_isSome_iff {intervalRecv : Nat} {mbps : Float} :
    (∃ total, intervalTotal aggregate intervalRecv mbps = some total) ↔
    ∀ sent, aggregate.bytesSent = some sent → aggregate.throughputSendMbps.isSome →
      sent + intervalRecv ≤ U64.max := by
  cases hs : aggregate.bytesSent
  case none => simp [intervalTotal, hs]
  case some sent =>
    cases hm : aggregate.throughputSendMbps
    case none => simp [intervalTotal, hs, hm]
    case some sendMbps =>
      simp only [intervalTotal, hs, hm, Option.map_eq_some_iff, U64.checkedAdd_eq_some_iff]
      simp

theorem intervalTotal_eq {intervalRecv sent : Nat} {mbps : Float} {total : Nat × Float}
    (h : intervalTotal aggregate intervalRecv mbps = some total)
    (hs : aggregate.bytesSent = some sent) (hm : aggregate.throughputSendMbps.isSome) :
    total.1 = U64.saturatingAdd sent intervalRecv := by
  have ⟨sendMbps, hm⟩ := Option.isSome_iff_exists.mp hm
  simp only [intervalTotal, hs, hm, Option.map_eq_some_iff, U64.checkedAdd_eq_some_iff] at h
  have ⟨_, ⟨hl, he⟩, ht⟩ := h
  rw [← ht, ← he, U64.saturatingAdd_eq_add hl]

theorem isProgress_iff {streams : List StreamInterval} {udpProgress : Option UdpIntervalProgress}
    {bytesReceived lastRecvBytes : List Nat} :
    (∃ progress, IsProgress streams aggregate udpProgress bytesReceived lastRecvBytes durationSecs
      progress) ↔ IntervalFits aggregate bytesReceived lastRecvBytes := by
  constructor
  case mp =>
    intro ⟨progress, h⟩
    have ⟨_, h⟩ := h.once
    have ⟨intervalRecv, hr, h⟩ := Option.bind_eq_some_iff.mp h
    have ⟨total, ht, _⟩ := Option.bind_eq_some_iff.mp h
    have ⟨hl, he⟩ := U64.checkedSum_eq_some_iff.mp hr
    exact ⟨hl, he ▸ intervalTotal_isSome_iff.mp ⟨total, ht⟩⟩
  case mpr =>
    intro ⟨hl, hs⟩
    have hr := U64.checkedSum_eq_some hl
    let recv := (deltas bytesReceived lastRecvBytes).sum
    have ⟨total, ht⟩ : ∃ total, intervalTotal aggregate recv (recvMbps recv durationSecs) = some total :=
      intervalTotal_isSome_iff.mpr hs
    refine ⟨toProgress (overlayUdpBidirIntervals streams (deltas bytesReceived lastRecvBytes)
      durationSecs) aggregate udpProgress recv (recvMbps recv durationSecs) total, ?_⟩
    exact {
      once          := ⟨_, Option.bind_eq_some_iff.mpr
        ⟨_, hr, Option.bind_eq_some_iff.mpr ⟨_, ht, rfl⟩⟩⟩
      received_eq   := rfl
      totalBytes_eq := fun sent hs hm => intervalTotal_eq ht hs hm
      bytes_eq      := by
        intro s hm received sent hl hs
        have ⟨stream, _, he⟩ := List.mem_map.mp hm
        have ⟨hi, hb, h⟩ := @overlayInterval_spec (deltas bytesReceived lastRecvBytes) durationSecs
          stream
        rw [← he] at hl hs ⊢
        exact h received sent (hi ▸ hl) (hb ▸ hs)
      again         := by
        rw [toProgress, overlayUdpBidirIntervals, overlayUdpBidirIntervals, List.map_map]
        exact List.map_congr_left fun _ _ => overlayInterval_overlayInterval
    }

end Overlay
