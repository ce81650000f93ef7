import Xfr.Library.Marked
import Xfr.Output.CsvRows

open Utf8 (Text)
open Marked (Line Clean Tame own foreign)
open CsvOutput (FloatText)

-- The report of a test as text. The texts which the peer sent are marked as foreign, all others are
-- words of the program and figures it printed.
namespace PlainOutput

-- What else is done with floating numbers.
structure PlainText (F : Type) extends FloatText F where
  round  : F → F
  le     : F → F → Bool
  isZero : F → Bool

variable {F : Type} (f : PlainText F)

def lit (s : String) : Line :=
  own s.toList

def normalizeForDisplay (v : F) (decimals : Nat) : F :=
  let scale := f.ofNat (10 ^ decimals)
  let rounded := f.div (f.round (f.mul v scale)) scale
  if f.isZero rounded then f.ofNat 0 else rounded

def mbpsToHuman (mbps : F) : Line :=
  let rounded := normalizeForDisplay f mbps 1
  if f.le (f.ofNat 1000) rounded then
    own (f.fixed 2 (normalizeForDisplay f (f.div mbps (f.ofNat 1000)) 2)) ++ lit " Gbps"
  else
    own (f.fixed 1 rounded) ++ lit " Mbps"

def scaled (bytes unit : Nat) (name : String) : Line :=
  own (f.fixed 2 (f.div (f.ofNat bytes) (f.ofNat unit))) ++ lit name

def bytesToHuman (bytes : UInt64) : Line :=
  let n := bytes.toNat
  if n ≥ 1024 ^ 4 then scaled f n (1024 ^ 4) " TB"
  else if n ≥ 1024 ^ 3 then scaled f n (1024 ^ 3) " GB"
  else if n ≥ 1024 ^ 2 then scaled f n (1024 ^ 2) " MB"
  else if n ≥ 1024 then scaled f n 1024 " KB"
  else own (CsvOutput.number n) ++ lit " B"

def thousandths (precision n : Nat) : Line :=
  own (f.fixed precision (f.div (f.ofNat n) (f.ofNat 1000)))

def figure (n : Nat) : Line :=
  own (CsvOutput.number n)

namespace UdpSendErrors

def MAX_ERROR_LEN : Nat :=
  128

def sanitizeMessage (raw : Text) : Text :=
  Marked.strip MAX_ERROR_LEN raw

def sanitize (errors : Messages.UdpSendErrors) : Messages.UdpSendErrors :=
  { errors with lastError := String.ofList (sanitizeMessage errors.lastError.toList) }

def describe (errors : Messages.UdpSendErrors) (side : String) : Line :=
  lit side ++ lit " reported " ++ figure errors.count.toNat ++ lit " UDP send error" ++
    lit (if errors.count = 1 then "" else "s") ++ lit " (last: " ++
    foreign errors.lastError.toList ++ lit ")"

end UdpSendErrors

def describeZeroByteStreams (result : Messages.TestResult F) : Option Line :=
  (result.zeroByteStreams.filter (0 < ·)).map fun n =>
    figure n.toNat ++ lit " of " ++ figure result.streams.length ++
      lit " streams carried no data; the totals cover only the rest"

def REPORT_SEPARATOR : Line :=
  lit "────────────────────────────────────────────────────────────"

def udpFigures (stats : Messages.UdpStats F) : Line :=
  lit "    Packets Sent:     " ++ figure stats.packetsSent.toNat ++ lit "\n" ++
  lit "    Packets Received: " ++ figure stats.packetsReceived.toNat ++ lit "\n" ++
  lit "    Lost:             " ++ figure stats.lost.toNat ++ lit " (" ++
    own (f.fixed 2 stats.lostPercent) ++ lit "%)\n" ++
  lit "    Jitter:           " ++ own (f.fixed 2 stats.jitterMs) ++ lit "ms\n" ++
  stats.jitterMaxMs.elim [] (fun max =>
    lit "    Jitter Max:       " ++ own (f.fixed 2 max) ++ lit "ms\n") ++
  lit "    Out of Order:     " ++ figure stats.outOfOrder.toNat ++ lit "\n" ++
  stats.packetSize.elim [] (fun size =>
    lit "    Packet Size:      " ++ figure size.toNat ++ lit " bytes\n") ++
  lit "\n"

def appendUdpStats (title : String) (stats : Option (Messages.UdpStats F)) : Line :=
  lit "  " ++ lit title ++ lit ":\n" ++ stats.elim (lit "    Not reported\n\n") (udpFigures f)

def transfer (result : Messages.TestResult F) : Line :=
  match result.bytesSent, result.bytesReceived, result.throughputSendMbps,
    result.throughputRecvMbps with
  | some sent, some recv, some tsSend, some tsRecv =>
    lit "  Transfer:    Send: " ++ bytesToHuman f sent ++ lit "    Recv: " ++ bytesToHuman f recv ++
      lit "    (Total: " ++ bytesToHuman f result.bytesTotal ++ lit ")\n" ++
    lit "  Throughput:  Send: " ++ mbpsToHuman f tsSend ++ lit "  Recv: " ++ mbpsToHuman f tsRecv ++
      lit "  (Total: " ++ mbpsToHuman f result.throughputMbps ++ lit ")\n"
  | _, _, _, _ =>
    lit "  Transfer:    " ++ bytesToHuman f result.bytesTotal ++ lit "\n" ++
    lit "  Throughput:  " ++ mbpsToHuman f result.throughputMbps ++ lit "\n"

def tcpInfo (mptcp : Bool) : Option Messages.TcpInfoSnapshot → Line
  | some info =>
    lit (if mptcp then "  Sender TCP Info (initial subflow):\n" else "  Sender TCP Info:\n") ++
    lit "    Retransmits: " ++ figure info.retransmits.toNat ++ lit "\n" ++
    lit "    RTT:         " ++ thousandths f 2 info.rttUs.toNat ++ lit "ms\n" ++
    lit "    RTT Var:     " ++ thousandths f 2 info.rttVarUs.toNat ++ lit "ms\n" ++
    lit "    Cwnd:        " ++ figure (info.cwnd.toNat / 1024) ++ lit " KB\n\n"
  | none => []

def udpStats (result : Messages.TestResult F) : Line :=
  if result.udpStatsSend.isSome || result.udpStatsRecv.isSome then
    appendUdpStats f "Upload UDP Stats" result.udpStatsSend ++
      appendUdpStats f "Download UDP Stats" result.udpStatsRecv
  else
    result.udpStats.elim [] fun stats => appendUdpStats f "UDP Stats" (some stats)

def warning (line : Line) : Line :=
  lit "  Warning: " ++ line ++ lit "\n\n"

def warnings (result : Messages.TestResult F) : Line :=
  result.serverUdpSendErrors.elim [] (warning <| UdpSendErrors.describe · "Server") ++
    result.clientUdpSendErrors.elim [] (warning <| UdpSendErrors.describe · "Client") ++
    (describeZeroByteStreams result).elim [] warning

def perStream (stream : Messages.StreamResult F) : Line :=
  lit "    [" ++ figure stream.id.toNat ++ lit "] " ++ bytesToHuman f stream.bytes ++ lit " @ " ++
    mbpsToHuman f stream.throughputMbps ++
    stream.retransmits.elim [] (fun rtx => lit "  rtx: " ++ figure rtx.toNat) ++ lit "\n" ++
    match stream.bytesSent, stream.bytesReceived, stream.throughputSendMbps,
      stream.throughputRecvMbps with
    | some sent, some recv, some sendRate, some recvRate =>
      lit "        Upload: " ++ bytesToHuman f sent ++ lit " @ " ++ mbpsToHuman f sendRate ++
        lit "  Download: " ++ bytesToHuman f recv ++ lit " @ " ++ mbpsToHuman f recvRate ++ lit "\n"
    | _, _, _, _ => []

def streams (result : Messages.TestResult F) : Line :=
  if 1 < result.streams.length ||
      result.streams.any fun s => s.bytesSent.isSome || s.bytesReceived.isSome then
    lit "  Per-Stream Results:\n" ++ result.streams.flatMap (perStream f) ++ lit "\n"
  else
    []

def ipOverhead (ipv6 : Bool) : Nat :=
  if ipv6 then 48 else 28

def formatVerdict (verdict : SizeVerdict) (ok attempts : UInt8) : Text :=
  match verdict with
  | .pass       => "pass (".toList ++ CsvOutput.number ok.toNat ++ "/".toList ++
    CsvOutput.number attempts.toNat ++ ")".toList
  | .fail       => "BLOCKED (0/".toList ++ CsvOutput.number attempts.toNat ++ ")".toList
  | .localLimit => "local MTU limit".toList
  | .untested   => "untested".toList

def sizeRow (size : Messages.SizeResult) : Line :=
  lit "  " ++ own ((CsvOutput.number size.payload.toNat).leftpad 7 ' ') ++ lit "      " ++
    own ((formatVerdict size.forward size.forwardOk size.attempts).rightpad 18 ' ') ++ lit " " ++
    own (formatVerdict size.reverse size.reverseOk size.attempts) ++ lit "\n"

def largest (direction : String) (otherwise : String) (payload mtu : Option UInt64) : Line :=
  match payload, mtu with
  | some payload, some mtu =>
    lit "  Largest payload " ++ lit direction ++ lit ": " ++ figure payload.toNat ++
      lit " bytes  (path MTU ≈ " ++ figure mtu.toNat ++ lit ")\n"
  | _, _ => lit "  Largest payload " ++ lit direction ++ lit ": " ++ lit otherwise ++ lit "\n"

def formatMtuProbe (probe : Messages.MtuProbeReport) : Line :=
  REPORT_SEPARATOR ++ lit "\n  xfr Path MTU Probe\n" ++ REPORT_SEPARATOR ++ lit "\n\n" ++
    lit "  Address family: " ++ lit (if probe.ipv6 then "IPv6" else "IPv4") ++ lit " (" ++
      figure (ipOverhead probe.ipv6) ++ lit " bytes IP+UDP overhead)\n\n" ++
    lit "  Payload      client → server    server → client\n" ++
    probe.sizes.flatMap sizeRow ++ lit "\n" ++
    largest "client → server" "none survived" probe.forwardMaxPayload probe.forwardPathMtu ++
    largest "server → client" "none observed" probe.reverseMaxPayload probe.reversePathMtu ++
    lit "  (server → client is a lower bound, capped by the client → server path)\n" ++
    REPORT_SEPARATOR ++ lit "\n"

def outputPlain (result : Messages.TestResult F) (mptcp : Bool) : Line :=
  match result.mtuProbe with
  | some probe => formatMtuProbe probe
  | none       =>
    REPORT_SEPARATOR ++ lit "\n  xfr Test Results\n" ++ REPORT_SEPARATOR ++ lit "\n\n" ++
      lit "  Duration:    " ++
      thousandths f (if result.durationMs < 1000 then 3 else 2) result.durationMs.toNat ++
      lit "s\n" ++ transfer f result ++ lit "\n" ++ tcpInfo f mptcp result.tcpInfo ++
      udpStats f result ++ warnings result ++ streams f result ++ REPORT_SEPARATOR ++ lit "\n"

section Clean

variable {f : PlainText F} {result : Messages.TestResult F} {s : String} {n : Nat} {t : Text}

@[simp]
theorem clean_lit : Clean (lit s) :=
  Marked.clean_own

@[simp]
theorem text_lit : Marked.text (lit s) = s.toList :=
  Marked.text_own

@[simp]
theorem clean_figure : Clean (figure n) :=
  Marked.clean_own

@[simp]
theorem clean_separator : Clean REPORT_SEPARATOR :=
  clean_lit

@[simp]
theorem clean_thousandths {precision : Nat} : Clean (thousandths f precision n) :=
  Marked.clean_own

theorem clean_elim {α : Type} {o : Option α} {g : α → Line} :
    Clean (o.elim [] g) ↔ ∀ a ∈ o, Clean (g a) := by
  cases o <;> simp

@[simp]
theorem clean_mbpsToHuman {mbps : F} : Clean (mbpsToHuman f mbps) := by
  unfold mbpsToHuman
  dsimp only
  split <;> simp

theorem clean_scaled {unit : Nat} {name : String} : Clean (scaled f n unit name) := by
  simp [scaled]

@[simp]
theorem clean_bytesToHuman {bytes : UInt64} : Clean (bytesToHuman f bytes) := by
  rw [bytesToHuman]
  split
  · exact clean_scaled
  · split
    · exact clean_scaled
    · split
      · exact clean_scaled
      · split
        · exact clean_scaled
        · simp

@[simp]
theorem clean_appendUdpStats {title : String} {stats : Option (Messages.UdpStats F)} :
    Clean (appendUdpStats f title stats) := by
  have clean_udpFigures {stats : Messages.UdpStats F} : Clean (udpFigures f stats) := by
    unfold udpFigures
    simp [clean_elim]
  cases stats
  case none   => simp [appendUdpStats]
  case some s => simp [appendUdpStats, clean_udpFigures]

theorem clean_transfer : Clean (transfer f result) := by
  unfold transfer
  split <;> simp

theorem clean_tcpInfo {mptcp : Bool} {info : Option Messages.TcpInfoSnapshot} :
    Clean (tcpInfo f mptcp info) := by
  cases info <;> simp [tcpInfo]

theorem clean_udpStats : Clean (udpStats f result) := by
  unfold udpStats
  split
  case isTrue  => simp
  case isFalse => simp [clean_elim]

theorem clean_streams : Clean (streams f result) := by
  have clean_perStream {stream : Messages.StreamResult F} : Clean (perStream f stream) := by
    unfold perStream
    simp only [Marked.clean_append, clean_lit, clean_figure, clean_bytesToHuman, clean_mbpsToHuman,
      clean_elim, and_self, implies_true, true_and]
    split <;> simp
  unfold streams
  split
  case isTrue  => simp [Marked.clean_flatMap, clean_perStream]
  case isFalse => simp

theorem clean_formatMtuProbe {probe : Messages.MtuProbeReport} : Clean (formatMtuProbe probe) := by
  have clean_largest {direction otherwise : String} {payload mtu : Option UInt64} :
      Clean (largest direction otherwise payload mtu) := by
    unfold largest
    split <;> simp
  simp [formatMtuProbe, Marked.clean_flatMap, sizeRow, clean_largest]

theorem clean_describe {errors : Messages.UdpSendErrors} {side : String} :
    Clean (UdpSendErrors.describe errors side) ↔ Tame errors.lastError.toList := by
  simp [UdpSendErrors.describe]

theorem tame_sanitize {errors : Messages.UdpSendErrors} :
    Tame (UdpSendErrors.sanitize errors).lastError.toList := by
  rw [UdpSendErrors.sanitize, String.toList_ofList]
  exact Marked.tame_strip

theorem clean_warnings : Clean (warnings result) ↔
    (∀ errors ∈ result.serverUdpSendErrors, Tame errors.lastError.toList) ∧
    ∀ errors ∈ result.clientUdpSendErrors, Tame errors.lastError.toList := by
  have clean_warning {line : Line} : Clean (warning line) ↔ Clean line := by simp [warning]
  have hz : ∀ line ∈ describeZeroByteStreams result, Clean line := by
    intro line hl
    have ⟨_, _, he⟩ := Option.map_eq_some_iff.mp hl
    simp [← he]
  simp only [warnings, Marked.clean_append, clean_elim, clean_warning, clean_describe]
  exact and_iff_left hz

-- All but the last errors is figures.
theorem clean_outputPlain {mptcp : Bool} : Clean (outputPlain f result mptcp) ↔
    result.mtuProbe.isSome ∨
      (∀ errors ∈ result.serverUdpSendErrors, Tame errors.lastError.toList) ∧
      ∀ errors ∈ result.clientUdpSendErrors, Tame errors.lastError.toList := by
  unfold outputPlain
  cases result.mtuProbe
  case some probe => simp [clean_formatMtuProbe]
  case none       =>
    simp [clean_transfer, clean_tcpInfo, clean_udpStats, clean_streams, clean_warnings]

end Clean

end PlainOutput
