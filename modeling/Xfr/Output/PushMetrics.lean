import Xfr.Library.MetricFamilies
import Xfr.Library.U64
import Xfr.Messages.Data
import Xfr.Output.PushUrl

open Exposition (Text Family isNumber)

-- What is pushed to a gateway.
namespace PushMetrics

-- Floating numbers, and how they are printed.
structure Floats (F : Type) where
  ofNat   : Nat → F
  div     : F → F → F
  mul     : F → F → F
  max     : F → F → F
  display : F → Text
  number  : ∀ x, isNumber (display x) = true

structure StreamSample (F : Type) where
  id             : UInt8
  bytes          : UInt64
  throughputMbps : F
  retransmits    : UInt64

-- What is read of the statistics of a test.
structure StatsReading (F : Type) where
  testId             : String
  elapsedMs          : UInt64
  totalBytes         : UInt64
  streams            : List (StreamSample F)
  finalLocalTcpInfo  : Option Messages.TcpInfoSnapshot
  udpStats           : List (Messages.UdpStats F)
  udpReceiverStats   : Option (Messages.UdpStats F)
  totalBytesReceived : UInt64
  totalBytesSent     : UInt64

inductive Way
  | upload
  | download

def Way.name : Way → String
  | upload   => "upload"
  | download => "download"

inductive View
  | receiver
  | sender

def View.name : View → String
  | receiver => "receiver"
  | sender   => "sender"

structure DirectionalUdp (F : Type) where
  direction      : Way
  view           : View
  bytes          : Option UInt64
  throughputMbps : Option F
  quality        : Option (Messages.UdpStats F)

inductive DirectionMetric
  | bytes
  | throughputMbps
  | packetsExpected
  | packetsReceived
  | packetsLost
  | lostPercent
  | jitterMs
  deriving DecidableEq

variable {F : Type} (f : Floats F)

def integer (n : Nat) : Text :=
  Nat.toDigits 10 n

def replace (c : Char) (new : String) (text : Text) : Text :=
  text.flatMap fun x => if x = c then new.toList else [x]

def escapeTestId (testId : Text) : Text :=
  testId |> replace '\\' "\\\\" |> replace '"' "\\\"" |> replace '\n' "\\n"

-- The name, the help and the type of a family.
structure Header where
  name       : String
  help       : String
  metricType : String

def writeFamilyHeader (output : Text) (h : Header) : Text :=
  output ++ "# HELP ".toList ++ h.name.toList ++ [' '] ++ h.help.toList ++ ['\n'] ++
    "# TYPE ".toList ++ h.name.toList ++ [' '] ++ h.metricType.toList ++ ['\n']

def writeSample (output : Text) (name : String) (value : F) : Text :=
  output ++ name.toList ++ [' '] ++ f.display value ++ ['\n']

-- A family with one sample for the whole test.
def writeMetric (output : Text) (metric : Header × F) : Text :=
  writeSample f (writeFamilyHeader output metric.fst) metric.fst.name metric.snd

def seconds (elapsedMs : UInt64) : F :=
  f.div (f.ofNat elapsedMs.toNat) (f.ofNat 1000)

def aggregateHeaders : List Header := [
  ⟨"xfr_bytes_total", "Total bytes transferred", "counter"⟩,
  ⟨"xfr_throughput_mbps", "Average throughput in Mbps", "gauge"⟩,
  ⟨"xfr_duration_seconds", "Test duration in seconds", "gauge"⟩]

def aggregateMetrics (elapsedMs bytesTotal : UInt64) (throughputMbps : F) : List (Header × F) :=
  aggregateHeaders.zip [f.ofNat bytesTotal.toNat, throughputMbps, seconds f elapsedMs]

def streamHeaders : List Header := [
  ⟨"xfr_stream_bytes_total", "Per-stream total bytes transferred", "counter"⟩,
  ⟨"xfr_stream_throughput_mbps", "Per-stream average throughput in Mbps", "gauge"⟩,
  ⟨"xfr_stream_retransmits_total", "Per-stream TCP retransmits", "counter"⟩]

def streamMetrics : List (Header × (StreamSample F → F)) :=
  streamHeaders.zip
    [fun s => f.ofNat s.bytes.toNat, fun s => s.throughputMbps, fun s => f.ofNat s.retransmits.toNat]

def tcpHeaders : List Header := [
  ⟨"xfr_tcp_rtt_microseconds", "TCP round-trip time in microseconds", "gauge"⟩,
  ⟨"xfr_tcp_retransmits_total", "TCP retransmits", "counter"⟩,
  ⟨"xfr_tcp_cwnd_bytes", "TCP congestion window in bytes", "gauge"⟩]

def tcpMetrics (tcpInfo : Messages.TcpInfoSnapshot) : List (Header × F) :=
  tcpHeaders.zip
    [f.ofNat tcpInfo.rttUs.toNat, f.ofNat tcpInfo.retransmits.toNat, f.ofNat tcpInfo.cwnd.toNat]

def udpHeaders : List Header := [
  ⟨"xfr_udp_packets_sent", "UDP packets sent", "counter"⟩,
  ⟨"xfr_udp_packets_received", "UDP packets received", "counter"⟩,
  ⟨"xfr_udp_packets_lost", "UDP packets lost", "counter"⟩,
  ⟨"xfr_udp_jitter_ms", "UDP jitter in milliseconds", "gauge"⟩,
  ⟨"xfr_udp_lost_percent", "UDP packet loss percentage", "gauge"⟩]

def udpMetrics (udpStats : List (Messages.UdpStats F)) : List (Header × F) :=
  let totalSent     := (udpStats.map (·.packetsSent.toNat)).foldl U64.saturatingAdd 0
  let totalReceived := (udpStats.map (·.packetsReceived.toNat)).foldl U64.saturatingAdd 0
  let totalLost     := (udpStats.map (·.lost.toNat)).foldl U64.saturatingAdd 0
  let maxJitter     := (udpStats.map (·.jitterMs)).foldl f.max (f.ofNat 0)
  let lostPercent   := if totalSent > 0 then
    f.mul (f.div (f.ofNat totalLost) (f.ofNat totalSent)) (f.ofNat 100) else f.ofNat 0
  udpHeaders.zip
    [f.ofNat totalSent, f.ofNat totalReceived, f.ofNat totalLost, maxJitter, lostPercent]

def writeStream (testId : Text) (metric : Header × (StreamSample F → F)) (output : Text)
    (s : StreamSample F) : Text :=
  output ++ metric.fst.name.toList ++ "\x7btest_id=\"".toList ++ testId ++
    "\",stream_id=\"".toList ++ integer s.id.toNat ++ "\"\x7d ".toList ++ f.display (metric.snd s) ++
    ['\n']

def formatSamples (testId : Text) (elapsedMs bytesTotal : UInt64) (throughputMbps : F)
    (streams : List (StreamSample F)) (tcpInfo : Option Messages.TcpInfoSnapshot)
    (udpStats : List (Messages.UdpStats F)) : Text :=
  let testId := escapeTestId testId
  let output := "# Test ID: ".toList ++ testId ++ ['\n']
  let output := (aggregateMetrics f elapsedMs bytesTotal throughputMbps).foldl (writeMetric f) output
  let output := if streams.isEmpty then output else
    (streamMetrics f).foldl (fun output metric =>
      streams.foldl (writeStream f testId metric) (writeFamilyHeader output metric.fst)) output
  let output := match tcpInfo with
    | none         => output
    | some tcpInfo => (tcpMetrics f tcpInfo).foldl (writeMetric f) output
  if udpStats.isEmpty then output else (udpMetrics f udpStats).foldl (writeMetric f) output

namespace DirectionMetric

def all : List DirectionMetric :=
  [bytes, throughputMbps, packetsExpected, packetsReceived, packetsLost, lostPercent, jitterMs]

def name : DirectionMetric → String
  | bytes           => "bytes"
  | throughputMbps  => "throughput_mbps"
  | packetsExpected => "packets_expected"
  | packetsReceived => "packets_received"
  | packetsLost     => "packets_lost"
  | lostPercent     => "lost_percent"
  | jitterMs        => "jitter_ms"

def help : DirectionMetric → String
  | bytes           => "UDP bytes for this direction and measurement view"
  | throughputMbps  => "UDP throughput in Mbps for this direction and measurement view"
  | packetsExpected => "UDP packets expected from receiver sequence observations"
  | packetsReceived => "UDP packets received"
  | packetsLost     => "UDP packets lost according to the receiver"
  | lostPercent     => "UDP packet loss percentage measured by the receiver"
  | jitterMs        => "UDP jitter in milliseconds measured by the receiver"

def value (sample : DirectionalUdp F) (metric : DirectionMetric) : Option Text :=
  let quality := sample.quality.filter fun stats => stats.packetsReceived > 0 || stats.lost > 0
  match metric with
  | bytes           => sample.bytes.map (integer ·.toNat)
  | throughputMbps  => sample.throughputMbps.map f.display
  | packetsExpected => quality.map (integer ·.packetsSent.toNat)
  | packetsReceived => quality.map (integer ·.packetsReceived.toNat)
  | packetsLost     => quality.map (integer ·.lost.toNat)
  | lostPercent     => quality.map (f.display ·.lostPercent)
  | jitterMs        => (quality.filter (·.packetsReceived > 0)).map (f.display ·.jitterMs)

end DirectionMetric

def quoted (label value : String) : Text :=
  label.toList ++ "=\"".toList ++ value.toList ++ ['"']

-- The second component tells whether the header of the family has been written.
def writeDirection (name : String) (metric : DirectionMetric) (written : Text × Bool)
    (sample : DirectionalUdp F) : Text × Bool :=
  match metric.value f sample with
  | none       => written
  | some value =>
    let output := if written.snd then written.fst
      else writeFamilyHeader written.fst ⟨name, metric.help, "gauge"⟩
    let labels := if metric = .bytes ∨ metric = .throughputMbps then
      quoted "direction" sample.direction.name ++ [','] ++ quoted "view" sample.view.name
      else quoted "direction" sample.direction.name
    (output ++ name.toList ++ ['{'] ++ labels ++ "\x7d ".toList ++ value ++ ['\n'], true)

def appendUdpDirectionsNamed (output : Text) (samples : List (DirectionalUdp F))
    (familyPrefix : String) : Text :=
  DirectionMetric.all.foldl (fun output metric =>
    (samples.foldl (writeDirection f (familyPrefix ++ "_" ++ metric.name) metric)
      (output, false)).fst) output

def appendUdpDirections (output : Text) (samples : List (DirectionalUdp F)) : Text :=
  appendUdpDirectionsNamed f output samples "xfr_udp_direction"

def resultDirections (result : Messages.TestResult F) : Protocol.Direction → List (DirectionalUdp F)
  | .bidir =>
    [{  direction      := .upload
        view           := .receiver
        bytes          := result.bytesSent
        throughputMbps := result.throughputSendMbps
        quality        := result.udpStatsSend },
    {   direction      := .download
        view           := .receiver
        bytes          := result.bytesReceived
        throughputMbps := result.throughputRecvMbps
        quality        := result.udpStatsRecv }]
  | direction =>
    [{  direction      := if direction = .upload then .upload else .download
        view           := .receiver
        bytes          := some result.bytesTotal
        throughputMbps := some result.throughputMbps
        quality        := result.udpStats }]

def snapshotGauge (output : Text) (metric : String) (labels value : Text) : Text :=
  let header := "# TYPE xfr_last_test_".toList ++ metric.toList ++ " gauge\n".toList
  let output := if header <:+: output then output else
    output ++ "# HELP xfr_last_test_".toList ++ metric.toList ++
      " Most recently pushed test snapshot ".toList ++ metric.toList ++ ['\n'] ++
      header.rdropWhile Char.isWhiteSpace ++ ['\n']
  output ++ "xfr_last_test_".toList ++ metric.toList ++ labels ++ [' '] ++ value ++ ['\n']

def DirectionalUdp.available (sample : DirectionalUdp F) : Bool :=
  sample.bytes.isSome && sample.throughputMbps.isSome

-- What is said about each direction, and what stands in its labels behind the direction.
def availability : List (String × String × (DirectionalUdp F → Bool)) := [
  ("udp_direction_available", ",view=\"receiver\"", (·.available)),
  ("udp_direction_quality_available", "", fun sample =>
    sample.quality.any fun q => q.packetsReceived > 0 || q.lost > 0),
  ("udp_direction_jitter_available", "", fun sample =>
    sample.quality.any fun q => q.packetsReceived > 0)]

def snapshotDirection (metric view : String) (flag : DirectionalUdp F → Bool) (output : Text)
    (sample : DirectionalUdp F) : Text :=
  snapshotGauge output metric
    ("\x7bdirection=\"".toList ++ sample.direction.name.toList ++ ['"'] ++ view.toList ++ ['}'])
    (integer (flag sample).toNat)

-- Half of a measurement is left out.
def DirectionalUdp.whole (sample : DirectionalUdp F) : DirectionalUdp F :=
  if sample.available then sample else { sample with bytes := none, throughputMbps := none }

end PushMetrics

namespace PushGatewayClient

open PushMetrics

variable {F : Type} (f : Floats F)

-- The direction, when the test is one over UDP.
def udpDirection (client : PushGatewayClient) : Option Protocol.Direction :=
  match client.test with
  | some (.udp, direction) => some direction
  | _                      => none

def formatResult (client : PushGatewayClient) (result : Messages.TestResult F) : Text :=
  let metrics := formatSamples f result.id.toList result.durationMs result.bytesTotal
    result.throughputMbps
    (result.streams.map fun s => ⟨s.id, s.bytes, s.throughputMbps, s.retransmits.getD 0⟩)
    result.tcpInfo result.udpStats.toList
  match client.udpDirection with
  | none           => metrics
  | some direction => appendUdpDirections f metrics (resultDirections result direction)

def snapshotMetrics (result : Messages.TestResult F) : List (String × Text) := [
  ("bytes", integer result.bytesTotal.toNat),
  ("throughput_mbps", f.display result.throughputMbps),
  ("duration_seconds", f.display (seconds f result.durationMs)),
  ("streams", integer result.streams.length),
  ("tcp_info_available", integer result.tcpInfo.isSome.toNat)]

def snapshotTcpMetrics (tcp : Messages.TcpInfoSnapshot) : List (String × Text) := [
  ("tcp_rtt_microseconds", integer tcp.rttUs.toNat),
  ("tcp_retransmits", integer tcp.retransmits.toNat),
  ("tcp_cwnd_bytes", integer tcp.cwnd.toNat)]

def formatSnapshot (client : PushGatewayClient) (result : Messages.TestResult F) : Text :=
  let gauge (output : Text) (metric : String × Text) := snapshotGauge output metric.fst [] metric.snd
  let output := (snapshotMetrics f result).foldl gauge []
  let output := match result.tcpInfo with
    | none     => output
    | some tcp => (snapshotTcpMetrics tcp).foldl gauge output
  match client.udpDirection with
  | none           => output
  | some direction =>
    let samples := resultDirections result direction
    -- One family after the other.
    let output := availability.foldl (fun output (metric, view, flag) =>
      samples.foldl (snapshotDirection metric view flag) output) output
    appendUdpDirectionsNamed f output (samples.map (·.whole)) "xfr_last_test_udp_direction"

def throughput (elapsedMs bytes : UInt64) : F :=
  if elapsedMs > 0 then
    f.div (f.div (f.mul (f.ofNat bytes.toNat) (f.ofNat 8)) (seconds f elapsedMs)) (f.ofNat 1000000)
  else f.ofNat 0

-- The statistics of a server know only what was received here, and what was sent from here.
def statsDirections (stats : StatsReading F) (direction : Protocol.Direction) :
    List (DirectionalUdp F) :=
  (if direction ≠ .download then
    [{  direction      := .upload
        view           := .receiver
        bytes          := some stats.totalBytesReceived
        throughputMbps := some (throughput f stats.elapsedMs stats.totalBytesReceived)
        quality        := stats.udpReceiverStats }] else []) ++
  (if direction ≠ .upload then
    [{  direction      := .download
        view           := .sender
        bytes          := some stats.totalBytesSent
        throughputMbps := some (throughput f stats.elapsedMs stats.totalBytesSent)
        quality        := none }] else [])

def formatMetrics (client : PushGatewayClient) (stats : StatsReading F) : Text :=
  let metrics := formatSamples f stats.testId.toList stats.elapsedMs stats.totalBytes
    (throughput f stats.elapsedMs stats.totalBytes) stats.streams stats.finalLocalTcpInfo
    stats.udpStats
  match client.udpDirection with
  | none           => metrics
  | some direction => appendUdpDirections f metrics (statsDirections f stats direction)

end PushGatewayClient
