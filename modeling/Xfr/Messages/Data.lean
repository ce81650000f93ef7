import Xfr.Library.JsonWriter
import Xfr.Mtu.SizeSearch
import Xfr.Report.Sample

-- What control messages are made of, as it is on the wire.
namespace Messages

open Serde (Codec Record)

variable {F : Type} [IntCast F]

structure AuthChallenge where
  method : String
  nonce  : String

def authChallenge : Codec F AuthChallenge :=
  Record.make AuthChallenge.mk
    |>.field "method" (·.method) (.required .string)
    |>.field "nonce" (·.nonce) (.required .string)
    |>.codec (by simp) fun _ => rfl

def Protocol.name : Protocol → String
  | .tcp  => "tcp"
  | .udp  => "udp"
  | .quic => "quic"

def protocol : Codec F Protocol :=
  .unitVariant [.tcp, .udp, .quic] Protocol.name fun protocol => by cases protocol <;> rfl

def Direction.name : Protocol.Direction → String
  | .upload   => "upload"
  | .download => "download"
  | .bidir    => "bidir"

def direction : Codec F Protocol.Direction :=
  .unitVariant [.upload, .download, .bidir] Direction.name
    fun direction => by cases direction <;> rfl

structure UdpIntervalProgress where
  packetsReceived : UInt64
  packetsLost     : UInt64

def udpIntervalProgress : Codec F UdpIntervalProgress :=
  Record.make UdpIntervalProgress.mk
    |>.field "packets_received" (·.packetsReceived) (.required .u64)
    |>.field "packets_lost" (·.packetsLost) (.required .u64)
    |>.codec (by simp) fun _ => rfl

structure StreamInterval (F : Type) where
  id                 : UInt8
  bytes              : UInt64
  retransmits        : Option UInt64
  jitterMs           : Option F
  lost               : Option UInt64
  error              : Option String
  rttUs              : Option UInt32
  cwnd               : Option UInt32
  bytesSent          : Option UInt64
  bytesReceived      : Option UInt64
  throughputSendMbps : Option F
  throughputRecvMbps : Option F

def streamInterval : Codec F (StreamInterval F) :=
  Record.make StreamInterval.mk
    |>.field "id" (·.id) (.required .u8)
    |>.field "bytes" (·.bytes) (.required .u64)
    |>.field "retransmits" (·.retransmits) (.optional .u64)
    |>.field "jitter_ms" (·.jitterMs) (.optional .float)
    |>.field "lost" (·.lost) (.optional .u64)
    |>.field "error" (·.error) (.optional .string)
    |>.field "rtt_us" (·.rttUs) (.optional .u32)
    |>.field "cwnd" (·.cwnd) (.optional .u32)
    |>.field "bytes_sent" (·.bytesSent) (.optional .u64)
    |>.field "bytes_received" (·.bytesReceived) (.optional .u64)
    |>.field "throughput_send_mbps" (·.throughputSendMbps) (.optional .float)
    |>.field "throughput_recv_mbps" (·.throughputRecvMbps) (.optional .float)
    |>.codec (by simp) fun _ => rfl

structure AggregateInterval (F : Type) where
  bytes              : UInt64
  throughputMbps     : F
  retransmits        : Option UInt64
  jitterMs           : Option F
  lost               : Option UInt64
  udpProgress        : Option UdpIntervalProgress
  rttUs              : Option UInt32
  cwnd               : Option UInt32
  bytesSent          : Option UInt64
  bytesReceived      : Option UInt64
  throughputSendMbps : Option F
  throughputRecvMbps : Option F

def aggregateInterval : Codec F (AggregateInterval F) :=
  Record.make AggregateInterval.mk
    |>.field "bytes" (·.bytes) (.required .u64)
    |>.field "throughput_mbps" (·.throughputMbps) (.required .float)
    |>.field "retransmits" (·.retransmits) (.optional .u64)
    |>.field "jitter_ms" (·.jitterMs) (.optional .float)
    |>.field "lost" (·.lost) (.optional .u64)
    |>.field "udp_progress" (·.udpProgress) (.optional udpIntervalProgress)
    |>.field "rtt_us" (·.rttUs) (.optional .u32)
    |>.field "cwnd" (·.cwnd) (.optional .u32)
    |>.field "bytes_sent" (·.bytesSent) (.optional .u64)
    |>.field "bytes_received" (·.bytesReceived) (.optional .u64)
    |>.field "throughput_send_mbps" (·.throughputSendMbps) (.optional .float)
    |>.field "throughput_recv_mbps" (·.throughputRecvMbps) (.optional .float)
    |>.codec (by simp) fun _ => rfl

structure StreamResult (F : Type) where
  id                 : UInt8
  bytes              : UInt64
  throughputMbps     : F
  retransmits        : Option UInt64
  jitterMs           : Option F
  lost               : Option UInt64
  bytesSent          : Option UInt64
  bytesReceived      : Option UInt64
  throughputSendMbps : Option F
  throughputRecvMbps : Option F

def streamResult : Codec F (StreamResult F) :=
  Record.make StreamResult.mk
    |>.field "id" (·.id) (.required .u8)
    |>.field "bytes" (·.bytes) (.required .u64)
    |>.field "throughput_mbps" (·.throughputMbps) (.required .float)
    |>.field "retransmits" (·.retransmits) (.optional .u64)
    |>.field "jitter_ms" (·.jitterMs) (.optional .float)
    |>.field "lost" (·.lost) (.optional .u64)
    |>.field "bytes_sent" (·.bytesSent) (.optional .u64)
    |>.field "bytes_received" (·.bytesReceived) (.optional .u64)
    |>.field "throughput_send_mbps" (·.throughputSendMbps) (.optional .float)
    |>.field "throughput_recv_mbps" (·.throughputRecvMbps) (.optional .float)
    |>.codec (by simp) fun _ => rfl

structure TcpInfoSnapshot where
  retransmits : UInt64
  rttUs       : UInt32
  rttVarUs    : UInt32
  cwnd        : UInt32
  bytesAcked  : Option UInt64

def tcpInfoSnapshot : Codec F TcpInfoSnapshot :=
  Record.make TcpInfoSnapshot.mk
    |>.field "retransmits" (·.retransmits) (.required .u64)
    |>.field "rtt_us" (·.rttUs) (.required .u32)
    |>.field "rtt_var_us" (·.rttVarUs) (.required .u32)
    |>.field "cwnd" (·.cwnd) (.required .u32)
    |>.field "bytes_acked" (·.bytesAcked) (.optional .u64)
    |>.codec (by simp) fun _ => rfl

structure UdpStats (F : Type) where
  packetsSent     : UInt64
  packetsReceived : UInt64
  lost            : UInt64
  lostPercent     : F
  jitterMs        : F
  outOfOrder      : UInt64
  jitterMaxMs     : Option F
  packetSize      : Option UInt32

def udpStats : Codec F (UdpStats F) :=
  Record.make UdpStats.mk
    |>.field "packets_sent" (·.packetsSent) (.required .u64)
    |>.field "packets_received" (·.packetsReceived) (.required .u64)
    |>.field "lost" (·.lost) (.required .u64)
    |>.field "lost_percent" (·.lostPercent) (.required .float)
    |>.field "jitter_ms" (·.jitterMs) (.required .float)
    |>.field "out_of_order" (·.outOfOrder) (.required .u64)
    |>.field "jitter_max_ms" (·.jitterMaxMs) (.optional .float)
    |>.field "packet_size" (·.packetSize) (.optional .u32)
    |>.codec (by simp) fun _ => rfl

structure UdpSendErrors where
  count     : UInt64
  lastError : String

def udpSendErrors : Codec F UdpSendErrors :=
  Record.make UdpSendErrors.mk
    |>.field "count" (·.count) (.required .u64)
    |>.field "last_error" (·.lastError) (.required .string)
    |>.codec (by simp) fun _ => rfl

def SizeVerdict.name : SizeVerdict → String
  | .pass       => "Pass"
  | .fail       => "Fail"
  | .localLimit => "LocalLimit"
  | .untested   => "Untested"

def sizeVerdict : Codec F SizeVerdict :=
  .unitVariant [.pass, .fail, .localLimit, .untested] SizeVerdict.name
    fun verdict => by cases verdict <;> rfl

structure SizeResult where
  payload   : UInt64
  forwardOk : UInt8
  reverseOk : UInt8
  attempts  : UInt8
  forward   : SizeVerdict
  reverse   : SizeVerdict

def sizeResult : Codec F SizeResult :=
  Record.make SizeResult.mk
    |>.field "payload" (·.payload) (.required .u64)
    |>.field "forward_ok" (·.forwardOk) (.required .u8)
    |>.field "reverse_ok" (·.reverseOk) (.required .u8)
    |>.field "attempts" (·.attempts) (.required .u8)
    |>.field "forward" (·.forward) (.required sizeVerdict)
    |>.field "reverse" (·.reverse) (.required sizeVerdict)
    |>.codec (by simp) fun _ => rfl

structure MtuProbeReport where
  forwardMaxPayload : Option UInt64
  reverseMaxPayload : Option UInt64
  forwardPathMtu    : Option UInt64
  reversePathMtu    : Option UInt64
  ipv6              : Bool
  sizes             : List SizeResult

-- Other than everywhere else, no option is skipped.
def mtuProbeReport : Codec F MtuProbeReport :=
  Record.make MtuProbeReport.mk
    |>.field "forward_max_payload" (·.forwardMaxPayload) (.nullable .u64)
    |>.field "reverse_max_payload" (·.reverseMaxPayload) (.nullable .u64)
    |>.field "forward_path_mtu" (·.forwardPathMtu) (.nullable .u64)
    |>.field "reverse_path_mtu" (·.reversePathMtu) (.nullable .u64)
    |>.field "ipv6" (·.ipv6) (.required .bool)
    |>.field "sizes" (·.sizes) (.required (.seq sizeResult))
    |>.codec (by simp) fun _ => rfl

structure TestResult (F : Type) where
  id                  : String
  bytesTotal          : UInt64
  durationMs          : UInt64
  throughputMbps      : F
  streams             : List (StreamResult F)
  tcpInfo             : Option TcpInfoSnapshot
  udpStats            : Option (UdpStats F)
  udpStatsSend        : Option (UdpStats F)
  udpStatsRecv        : Option (UdpStats F)
  bytesSent           : Option UInt64
  bytesReceived       : Option UInt64
  throughputSendMbps  : Option F
  throughputRecvMbps  : Option F
  mtuProbe            : Option MtuProbeReport
  serverUdpSendErrors : Option UdpSendErrors
  clientUdpSendErrors : Option UdpSendErrors
  zeroByteStreams     : Option UInt8

def testResult : Record F (TestResult F) (TestResult F) :=
  Record.make TestResult.mk
    |>.field "id" (·.id) (.required .string)
    |>.field "bytes_total" (·.bytesTotal) (.required .u64)
    |>.field "duration_ms" (·.durationMs) (.required .u64)
    |>.field "throughput_mbps" (·.throughputMbps) (.required .float)
    |>.field "streams" (·.streams) (.required (.seq streamResult))
    |>.field "tcp_info" (·.tcpInfo) (.optional tcpInfoSnapshot)
    |>.field "udp_stats" (·.udpStats) (.optional udpStats)
    |>.field "udp_stats_send" (·.udpStatsSend) (.optional udpStats)
    |>.field "udp_stats_recv" (·.udpStatsRecv) (.optional udpStats)
    |>.field "bytes_sent" (·.bytesSent) (.optional .u64)
    |>.field "bytes_received" (·.bytesReceived) (.optional .u64)
    |>.field "throughput_send_mbps" (·.throughputSendMbps) (.optional .float)
    |>.field "throughput_recv_mbps" (·.throughputRecvMbps) (.optional .float)
    |>.field "mtu_probe" (·.mtuProbe) (.optional mtuProbeReport)
    |>.field "server_udp_send_errors" (·.serverUdpSendErrors) (.optional udpSendErrors)
    |>.field "client_udp_send_errors" (·.clientUdpSendErrors) (.optional udpSendErrors)
    |>.field "zero_byte_streams" (·.zeroByteStreams) (.optional .u8)

end Messages
