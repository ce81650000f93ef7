import Xfr.Access.HostPort
import Xfr.Handshake.Client
import Xfr.Library.Base64
import Xfr.Messages.Control
import Xfr.Output.Plain

open Utf8 (Text)
open Marked (Line Clean Tame own foreign)
open CsvOutput (commas)
open PlainOutput (PlainText lit figure)

-- Everything which the client writes to the terminal and in which there may be words of a peer.
namespace Terminal

variable {F : Type}

-- What a client is waiting for.
inductive Phase
  | hello
  | auth
  | ack
  | test
  | probe
  deriving DecidableEq

-- Why a line of the server is no message. The library quotes a variant which it does not know the way
-- it came, and escapes the control characters in everything else which it quotes.
inductive ParseError
  | unknownVariant (variant expected : Text)
  | other (text : Line) (escaped : Clean text)

def ParseError.line : ParseError → Line
  | unknownVariant variant expected =>
    lit "unknown variant `" ++ foreign variant ++ lit "`, " ++ own expected
  | other text _                    => text

-- How the server has closed a QUIC connection.
inductive CloseError
  | application (code reason : Text)
  | transport (code reason : Text)

def CloseError.line : CloseError → Line
  | application code reason =>
    lit "closed by peer: " ++
      if reason = [] then own code else foreign reason ++ lit " (code " ++ own code ++ lit ")"
  | transport code reason   =>
    lit "aborted by peer: " ++ own code ++ if reason = [] then [] else lit ": " ++ foreign reason

def CloseError.reason : CloseError → Text
  | application _ reason | transport _ reason => reason

-- Why a run failed, told with or without the words of the server. That the connection is lost is told
-- by itself, or is the cause of what a stream says.
inductive Failure
  | server (message : Text)
  | authRejected (message : Text)
  | incompatible (version : Text)
  | unexpected (text : String)
  | unparsed (before : String) (e : ParseError)
  | lost (above : Option Text) (e : CloseError)

def authRejectedError (message : Text) : Line :=
  if message = "Authentication failed".toList then
    lit "authentication failed: the server rejected the pre-shared key (check --psk/--psk-file)"
  else
    lit "authentication failed: " ++ foreign message

def incompatibleServerVersion (version : Text) : Line :=
  lit "Incompatible protocol version: " ++ foreign version ++ lit " (client: " ++
    own PROTOCOL_VERSION ++ lit ")"

def Failure.line : Failure → Line
  | server message       => lit "Server error: " ++ foreign message
  | authRejected message => authRejectedError message
  | incompatible version => incompatibleServerVersion version
  | unexpected text      => lit text
  | unparsed before e    => lit before ++ e.line
  | lost none e          => e.line
  | lost (some above) _  => own above

def Failure.causes : Failure → Line
  | lost (some _) e => lit "\n\nCaused by:\n    " ++ e.line
  | _               => []

-- The failure which a message of the server leads to, if any.
def Phase.failure (phase : Phase) (message : Messages.ControlMessage F) : Option Failure :=
  match phase, message with
  | .auth, .error fields        => some (.authRejected fields.message.toList)
  | _, .error fields            => some (.server fields.message.toList)
  | .hello, .hello fields       =>
    if versionsCompatible fields.version.toList PROTOCOL_VERSION then none
    else some (.incompatible fields.version.toList)
  | .hello, _                   => some (.unexpected "Unexpected response from server")
  | .auth, .authSuccess _       => none
  | .auth, _                    => some (.unexpected "Unexpected auth response")
  | .ack, .testAck _            => none
  | .ack, _                     => some (.unexpected "Expected test_ack")
  | .test, _                    => none
  | .probe, _                   => none

def Phase.unparsed (phase : Phase) (e : ParseError) : Failure :=
  .unparsed (if phase = .test then "Failed to parse server message: " else "") e

-- What a run can fail for which there are words of a server about.
inductive Cause (F : Type)
  | answer (phase : Phase) (message : Messages.ControlMessage F)
  | noMessage (phase : Phase) (e : ParseError)
  | close (above : Option Text) (e : CloseError)

def Cause.failure : Cause F → Option Failure
  | answer phase message => phase.failure message
  | noMessage phase e    => some (phase.unparsed e)
  | close above e        => some (.lost above e)

-- The three ways in which a client gets the result of a test.
inductive Run
  | streams (recorded : Option Messages.UdpSendErrors)
  | probe (report : Messages.MtuProbeReport)
  | quic

-- What the client makes of the texts in a result. It recorded its own errors itself.
def Run.finish (run : Run) (result : Messages.TestResult F) : Messages.TestResult F :=
  match run with
  | streams recorded => { result with
      serverUdpSendErrors := result.serverUdpSendErrors.map PlainOutput.UdpSendErrors.sanitize
      clientUdpSendErrors := recorded.map PlainOutput.UdpSendErrors.sanitize }
  | probe report     => { result with mtuProbe := some report }
  | quic             => result

-- A setup which failed is explained by what the server says about it.
def setupError (e : Text) (errors : Option Messages.UdpSendErrors) : Line :=
  match errors.map PlainOutput.UdpSendErrors.sanitize with
  | some errors => own e ++ lit " " ++ PlainOutput.UdpSendErrors.describe errors "Server"
  | none        => own e

def outputCsv (f : PlainText F) (result : Messages.TestResult F) : Line :=
  own (commas (CsvOutput.resultNames ++ [CsvOutput.udpDirectionColumns]) ++ ['\n']) ++
    foreign result.id.toList ++
    own (',' :: commas (CsvOutput.resultFigures f.toFloatText result ++
      [CsvOutput.finalDirectionColumns f.toFloatText result.udpStatsSend,
        CsvOutput.finalDirectionColumns f.toFloatText result.udpStatsRecv]) ++ ['\n'])

def metricsOutcome (id : Text) (error : Option Text) : Line :=
  let id := foreign (PlainOutput.UdpSendErrors.sanitizeMessage id)
  match error with
  | none       => lit "Metrics pushed for test " ++ id
  | some error => lit "Warning: metrics delivery for test " ++ id ++ lit " was not confirmed: " ++
    own error

def sanitizeServerVersion (raw : Text) : Text :=
  let cleaned := Marked.strip 32 raw
  if cleaned = [] then "(unknown)".toList else cleaned

-- The library which draws the frames. It leaves out control characters, and places what is left.
structure Screen where
  place : Line → Line
  given : ∀ line, ∀ g ∈ place line, g.foreign = true → g ∈ line

def Screen.draw (screen : Screen) (line : Line) : Line :=
  screen.place (line.filter (!·.char.isControl))

def versionValue (serverVersion : Option Text) : Line :=
  lit "xfr/0.14.1 ↔ " ++
    serverVersion.elim (lit "(waiting…)") fun version => foreign (sanitizeServerVersion version)

def errorLine (failure : Option Failure) : Line :=
  failure.elim [] fun failure => lit "Error: " ++ failure.line

-- An error which the program ends with is written with its causes.
def mainError (failure : Option Failure) : Line :=
  errorLine failure ++ failure.elim [] (·.causes)

def MSG_MAX_BYTES : Nat :=
  2048

-- The standard alphabet, with padding.
def base64 (bytes : Bytes) : Text :=
  let standard (c : Char) := if c = '-' then '+' else if c = '_' then '/' else c
  let digits := (Base64.encode bytes).map standard
  digits ++ List.replicate ((4 - digits.length % 4) % 4) '='

def report (state : Text) (progress : Option UInt8) (msg : Option Line) : Line :=
  lit "\x1b]7501;state=" ++ own state ++ lit ":app=xfr" ++
    progress.elim [] (fun progress => lit ":progress=" ++ figure (min progress.toNat 100)) ++
    msg.elim [] (fun msg => lit ":msg=" ++
      foreign (base64 (Utf8.encode (Marked.text (Marked.flatten MSG_MAX_BYTES msg))))) ++
    lit "\x1b\\"

structure DiscoveredServer where
  addresses : List DiscoveredAddress
  port      : UInt16
  hostname  : Option Text
  version   : Option Text

namespace DiscoveredServer

def display (t : IpText) (server : DiscoveredServer) : Line :=
  server.addresses.head?.elim [] (own <| ·.display t) ++ lit ":" ++ figure server.port.toNat ++
    server.hostname.elim [] (fun hostname => lit " (" ++ foreign hostname ++ lit ")") ++
    server.version.elim [] fun version => lit " xfr/" ++ foreign version

def linkLocal (address : DiscoveredAddress) : Bool :=
  match address.ip with
  | .v6 segments => IpAddr.isLinkLocal segments
  | .v4 _        => false

-- How many others there are like the first.
def more (verbose : Bool) (server : DiscoveredServer) : Nat :=
  match server.addresses with
  | first :: rest => if linkLocal first && !verbose then rest.countP linkLocal else 0
  | []            => 0

def listed (t : IpText) (verbose : Bool) (server : DiscoveredServer) : Line :=
  (if server.more verbose > 0 then
    lit "  " ++ server.display t ++ lit " (+" ++ figure (server.more verbose) ++
      lit " more link-local, see -v)\n"
  else
    lit "  " ++ server.display t ++ lit "\n") ++
  if verbose then
    server.addresses.flatMap fun address =>
      lit "      " ++ own (address.display t) ++ lit ":" ++ figure server.port.toNat ++ lit "\n"
  else
    []

end DiscoveredServer

def listing (t : IpText) (verbose : Bool) (servers : List DiscoveredServer) : Line :=
  lit "Searching for xfr servers...\n\n" ++
    if servers = [] then
      lit "No xfr servers found.\n"
    else
      lit "Found " ++ figure servers.length ++ lit " server(s):\n" ++
        servers.flatMap (·.listed t verbose)

-- The log is written to the terminal as well, by a library which lets some control characters pass.
structure Log where
  passes : Char → Bool
  write  : Line → Line
  clean  : ∀ line, Clean (write line) ↔ Clean (line.filter (passes ·.char))

-- The entries which quote a peer. All of them are for debugging.
inductive LogEntry
  | authentication (method : Text)
  | stream (what : Text) (e : CloseError)
  | serviceFound (serviceType name : Text)
  | foundServer (server : DiscoveredServer)

def LogEntry.line (t : IpText) : LogEntry → Line
  | authentication method         => lit "Server requires " ++ foreign method ++ lit " authentication"
  | stream what e                 => own what ++ lit ": " ++ e.line
  | serviceFound serviceType name =>
    lit "Service found: " ++ foreign serviceType ++ lit " " ++ foreign name
  | foundServer server            => lit "Found server: " ++ server.display t

-- The occasions on which the client writes something which may have words of a peer in it: a run
-- fails, and the program ends with the error or draws it; a result is printed, with what is said about
-- its delivery; the frames and the status of the terminal interface; the servers which were
-- discovered; and the log.
inductive Written (F : Type)
  | failed (cause : Cause F)
  | setupFailed (e : Text) (errors : Option Messages.UdpSendErrors)
  | plain (run : Run) (result : Messages.TestResult F) (mptcp : Bool)
  | csv (run : Run) (result : Messages.TestResult F)
  | metrics (id : Text) (error : Option Text)
  | frame (serverVersion : Option Text) (failure : Option Failure) (log : List Line)
  | status (state : Text) (progress : Option UInt8) (msg : Option Line)
  | tuiFailed (cause : Cause F)
  | discovered (servers : List DiscoveredServer) (verbose : Bool)
  | logged (entry : LogEntry)

namespace Written

-- The message in a status report is also looked at as the terminal decodes it.
def lines (f : PlainText F) (t : IpText) (screen : Screen) (log : Log) : Written F → List Line
  | failed cause                         => [mainError cause.failure]
  | setupFailed e errors                 => [setupError e errors]
  | plain run result mptcp               => [PlainOutput.outputPlain f (run.finish result) mptcp]
  | csv run result                       => [outputCsv f (run.finish result)]
  | metrics id error                     => [metricsOutcome id error]
  | frame serverVersion failure messages =>
    (versionValue serverVersion :: errorLine failure :: messages).map screen.draw
  | status state progress msg            =>
    report state progress msg :: msg.toList.map (Marked.flatten MSG_MAX_BYTES)
  | tuiFailed cause                      => [errorLine cause.failure, mainError cause.failure]
  | discovered servers verbose           => [listing t verbose servers]
  | logged entry                         => [log.write (entry.line t)]

end Written

-- The texts of a peer which are written the way they came.
def Phase.raw (phase : Phase) (message : Messages.ControlMessage F) : List Text :=
  match phase, message with
  | _, .error fields      => [fields.message.toList]
  | .hello, .hello fields =>
    if versionsCompatible fields.version.toList PROTOCOL_VERSION then []
    else [fields.version.toList]
  | _, _                  => []

def ParseError.raw : ParseError → List Text
  | unknownVariant variant _ => [variant]
  | other _ _                => []

def Cause.raw : Cause F → List Text
  | answer phase message => phase.raw message
  | noMessage _ e        => e.raw
  | close _ e            => [e.reason]

def lastErrors (result : Messages.TestResult F) : List Text :=
  (result.serverUdpSendErrors.toList ++ result.clientUdpSendErrors.toList).map (·.lastError.toList)

def DiscoveredServer.raw (server : DiscoveredServer) : List Text :=
  server.hostname.toList ++ server.version.toList

def LogEntry.raw : LogEntry → List Text
  | authentication method         => [method]
  | stream _ e                    => [e.reason]
  | serviceFound serviceType name => [serviceType, name]
  | foundServer server            => server.raw

-- Of the texts in the log, what the log lets pass.
def Written.raw (log : Log) : Written F → List Text
  | failed cause | tuiFailed cause => cause.raw
  | plain .quic result _           => if result.mtuProbe.isSome then [] else lastErrors result
  | csv _ result                   => [result.id.toList]
  | discovered servers _           => servers.flatMap (·.raw)
  | logged entry                   => entry.raw.map (·.filter log.passes)
  | _                              => []

open Marked (text)
open PlainOutput (clean_elim)

variable {f : PlainText F} {t : IpText} {screen : Screen} {phase : Phase}
  {message : Messages.ControlMessage F} {run : Run} {result : Messages.TestResult F}
  {cause : Cause F} {log : Log} {verbose : Bool} {server : DiscoveredServer}
  {servers : List DiscoveredServer}

-- Without the marks, these are the texts which the handshake fails with.
theorem text_authRejectedError {message : Text} :
    text (authRejectedError message) = Handshake.authRejectedError message := by
  rw [authRejectedError, Handshake.authRejectedError]
  split
  case isTrue  => exact PlainOutput.text_lit
  case isFalse => rw [Marked.text_append, PlainOutput.text_lit, Marked.text_foreign]

theorem text_incompatibleServerVersion {version : Text} :
    text (incompatibleServerVersion version) = Handshake.incompatibleServerVersion version := by
  unfold incompatibleServerVersion Handshake.incompatibleServerVersion
  simp only [Marked.text_append, PlainOutput.text_lit, Marked.text_foreign, Marked.text_own]

theorem text_outputCsv : text (outputCsv f result) = CsvOutput.outputCsv f.toFloatText result := by
  have hc {field : Text} {fields : List Text} (hn : fields ≠ []) :
      commas (field :: fields) = field ++ ',' :: commas fields := by
    have ⟨next, rest, he⟩ := List.exists_cons_of_ne_nil hn
    simp [he, commas, List.intercalate]
  rw [CsvOutput.outputCsv, List.cons_append, hc (by simp)]
  simp [outputCsv]

@[simp]
theorem clean_authRejectedError {message : Text} :
    Clean (authRejectedError message) ↔ Tame message := by
  rw [authRejectedError]
  split
  case isTrue h =>
    have ht : Tame message := h ▸ by simp [Tame, Char.isControl]
    exact iff_of_true PlainOutput.clean_lit ht
  case isFalse => simp

@[simp]
theorem clean_incompatibleServerVersion {version : Text} :
    Clean (incompatibleServerVersion version) ↔ Tame version := by
  simp [incompatibleServerVersion]

theorem clean_parseError {e : ParseError} : Clean e.line ↔ ∀ text ∈ e.raw, Tame text := by
  cases e
  case unknownVariant variant expected => simp [ParseError.line, ParseError.raw]
  case other text escaped              => simp [ParseError.line, ParseError.raw, escaped]

@[simp]
theorem clean_closeError {e : CloseError} : Clean e.line ↔ Tame e.reason := by
  cases e
  all_goals
    simp only [CloseError.line, CloseError.reason]
    split
    case isTrue h => simp [h, Tame]
    case isFalse  => simp

theorem clean_answer :
    Clean (errorLine (phase.failure message)) ↔ ∀ text ∈ phase.raw message, Tame text := by
  have hs {s : String} : Clean (Failure.unexpected s).line := PlainOutput.clean_lit
  cases message
  case error fields =>
    cases phase <;> simp [Phase.failure, Phase.raw, errorLine, Failure.line]
  case hello fields =>
    cases phase
    case hello =>
      rw [Phase.failure, Phase.raw]
      split
      case isTrue  => simp [errorLine]
      case isFalse => simp [errorLine, Failure.line]
    all_goals simp [Phase.failure, Phase.raw, errorLine, hs]
  all_goals cases phase <;> simp [Phase.failure, Phase.raw, errorLine, hs]

-- An answer of the server has no further causes.
theorem causes_answer : (phase.failure message).elim [] (·.causes) = [] := by
  cases hf : phase.failure message
  case none => rfl
  case some failure =>
    cases failure
    case lost above e => cases message <;> cases phase <;> simp [Phase.failure] at hf
    all_goals rfl

theorem clean_mainError :
    Clean (mainError cause.failure) ↔ ∀ text ∈ cause.raw, Tame text := by
  cases cause
  case answer phase message =>
    rw [mainError, Cause.failure, causes_answer, List.append_nil]
    exact clean_answer
  case noMessage phase e    =>
    have hl : Clean (mainError (Cause.noMessage (F := F) phase e).failure) ↔ Clean e.line := by
      simp [mainError, Cause.failure, Phase.unparsed, errorLine, Failure.line, Failure.causes]
    exact hl.trans clean_parseError
  case close above e        =>
    cases above <;> simp [mainError, Cause.failure, Cause.raw, errorLine, Failure.line, Failure.causes]

theorem clean_setupError {e : Text} {errors : Option Messages.UdpSendErrors} :
    Clean (setupError e errors) := by
  cases errors
  case none   => exact Marked.clean_own
  case some errors =>
    have hd : Clean (PlainOutput.UdpSendErrors.describe
        (PlainOutput.UdpSendErrors.sanitize errors) "Server") :=
      PlainOutput.clean_describe.mpr PlainOutput.tame_sanitize
    simpa [setupError] using hd

-- Only over streams the errors of the server are sanitized.
theorem clean_report {mptcp : Bool} :
    Clean (PlainOutput.outputPlain f (run.finish result) mptcp) ↔
      ∀ text ∈ (Written.plain run result mptcp).raw log, Tame text := by
  rw [PlainOutput.clean_outputPlain]
  cases run
  case streams recorded =>
    refine iff_of_true (.inr ⟨?_, ?_⟩) (by simp [Written.raw])
    all_goals
      intro errors he
      have ⟨errors', _, hs⟩ := Option.map_eq_some_iff.mp he
      exact hs ▸ PlainOutput.tame_sanitize
  case probe report => simp [Run.finish, Written.raw]
  case quic =>
    by_cases hp : result.mtuProbe.isSome
    case pos => simp [Run.finish, Written.raw, hp]
    case neg =>
      simp only [Run.finish, Written.raw, hp, if_false, false_or, lastErrors, List.mem_map,
        List.mem_append, Option.mem_toList, forall_exists_index, and_imp,
        forall_apply_eq_imp_iff₂, or_imp, forall_and, Bool.false_eq_true, Option.mem_def]

theorem clean_outputCsv : Clean (outputCsv f result) ↔ Tame result.id.toList := by
  simp [outputCsv]

theorem clean_metricsOutcome {id : Text} {error : Option Text} :
    Clean (metricsOutcome id error) := by
  have hi : Tame (PlainOutput.UdpSendErrors.sanitizeMessage id) := Marked.tame_strip
  cases error <;> simp [metricsOutcome, hi]

theorem clean_draw {line : Line} : Clean (screen.draw line) := by
  intro g hg hf
  simpa using (List.mem_filter.mp (screen.given _ g hg hf)).right

theorem tame_base64 {bytes : Bytes} : Tame (base64 bytes) := by
  have hs : Base64.symbols.all (fun c =>
      !(if c = '-' then '+' else if c = '_' then '/' else c).isControl) = true := by
    decide +kernel
  refine Marked.tame_append.mpr ⟨fun c hc => ?_, fun c hc => ?_⟩
  case refine_1 =>
    have ⟨d, hd, he⟩ := List.mem_map.mp hc
    simpa [he] using List.all_eq_true.mp hs d (Base64.mem_symbols d hd)
  case refine_2 => exact List.eq_of_mem_replicate hc ▸ rfl

theorem clean_status {state : Text} {progress : Option UInt8} {msg : Option Line} :
    Clean (report state progress msg) := by
  simp [report, clean_elim, tame_base64]

theorem clean_display : Clean (server.display t) ↔ ∀ text ∈ server.raw, Tame text := by
  rw [DiscoveredServer.raw, List.forall_mem_append]
  simp [DiscoveredServer.display, clean_elim]

theorem clean_listed : Clean (server.listed t verbose) ↔ ∀ text ∈ server.raw, Tame text := by
  rw [← clean_display (t := t), DiscoveredServer.listed, Marked.clean_append]
  refine (and_iff_left ?_).trans ?_
  case refine_1 => split <;> simp [Marked.clean_flatMap]
  case refine_2 => split <;> simp

theorem clean_listing : Clean (listing t verbose servers) ↔
    ∀ text ∈ servers.flatMap (·.raw), Tame text := by
  rw [listing, Marked.clean_append, List.forall_mem_flatMap]
  split
  case isTrue h  => simp [h]
  case isFalse h => simp [Marked.clean_flatMap, clean_listed]

theorem clean_logEntry {entry : LogEntry} : Clean (log.write (entry.line t)) ↔
    ∀ text ∈ entry.raw.map (·.filter log.passes), Tame text := by
  rw [log.clean, List.forall_mem_map]
  cases entry
  case authentication | serviceFound => simp [LogEntry.line, LogEntry.raw, lit]
  case stream what e =>
    cases e
    all_goals
      simp only [LogEntry.line, LogEntry.raw, CloseError.line, CloseError.reason]
      split
      case isTrue h => simp [h, lit, Tame]
      case isFalse  => simp [lit]
  case foundServer server =>
    obtain ⟨addresses, port, hostname, version⟩ := server
    cases addresses <;> cases hostname <;> cases version <;>
      simp [LogEntry.line, LogEntry.raw, DiscoveredServer.display, DiscoveredServer.raw, lit, figure]

-- A text which is written the way it came is the only one which drives the terminal.
theorem lines_clean_iff (f : PlainText F) (t : IpText) (screen : Screen) (log : Log) (w : Written F) :
    (∀ line ∈ w.lines f t screen log, Clean line) ↔ ∀ text ∈ w.raw log, Tame text := by
  cases w <;> simp only [Written.lines, List.forall_mem_singleton]
  case failed cause               => exact clean_mainError
  case setupFailed e errors       => exact iff_of_true clean_setupError (List.forall_mem_nil _)
  case plain run result mptcp     => exact clean_report
  case csv run result             =>
    have hi : (run.finish result).id = result.id := by cases run <;> rfl
    rw [clean_outputCsv, hi]
    exact List.forall_mem_singleton.symm
  case metrics id error           => exact iff_of_true clean_metricsOutcome (List.forall_mem_nil _)
  case frame version failure text =>
    refine iff_of_true ?_ (List.forall_mem_nil _)
    exact List.forall_mem_map.mpr fun _ _ => clean_draw
  case status state progress msg  =>
    refine iff_of_true (List.forall_mem_cons.mpr ⟨clean_status, ?_⟩) (List.forall_mem_nil _)
    exact List.forall_mem_map.mpr fun _ _ => Marked.clean_flatten
  case tuiFailed cause            =>
    have hl : Clean (mainError cause.failure) → Clean (errorLine cause.failure) :=
      fun h => (Marked.clean_append.mp h).left
    rw [List.forall_mem_cons, List.forall_mem_singleton, and_iff_right_of_imp hl]
    exact clean_mainError
  case discovered servers verbose => exact clean_listing
  case logged entry               => exact clean_logEntry

-- Whole numbers do for what follows, and libraries which write what they are given.
def wholeNumbers : PlainText Nat where
  toFloatText := CsvOutput.wholeNumbers
  round       := id
  le m n      := decide (m ≤ n)
  isZero n    := decide (n = 0)

def cells : Screen where
  place line := line
  given _ _ hg _ := hg

def wordForWord : Log where
  passes _   := true
  write line := line
  clean line := by simp

-- The first answer of a server may clear the screen.
theorem error_clears_screen :
    ¬∀ line ∈ (Written.failed (.answer .hello (.error ⟨"\x1b[2J"⟩))).lines wholeNumbers IpText.full
      cells wordForWord, Clean line := by
  intro h
  have hc := (clean_mainError (F := Nat)).mp (h _ (.head _)) _ (.head _) '\x1b' (by simp)
  exact absurd hc (by decide)

-- So may a first line which is no message of any kind.
theorem unknown_type_clears_screen :
    ¬∀ line ∈ (Written.failed (.noMessage .hello (.unknownVariant "\x1b[2J".toList
      "expected one of `hello`".toList))).lines wholeNumbers IpText.full cells wordForWord,
        Clean line := by
  intro h
  have hc := (clean_mainError (F := Nat)).mp (h _ (.head _)) _ (.head _) '\x1b' (by simp)
  exact absurd hc (by decide)

end Terminal
