import Xfr.Client.PrintTask
import Xfr.Tui.Settings
import Xfr.Tui.Sparkline

open CsvOutput (TimestampFormat)

namespace AppState

def togglePause : AppState → AppState
  | running => paused
  | paused  => running
  | state   => state

end AppState

namespace Tui

abbrev FinalResult := Messages.TestResult Float

inductive ZerocopyMode
  | off
  | auto
  | requested
  deriving DecidableEq

-- The parameters of a test which are shown. The duration is in nanoseconds.
structure RunParams where
  protocol  : Protocol
  direction : Protocol.Direction
  streams   : Nat
  duration  : Nat
  bitrate   : Option Nat

structure ClientConfig extends RunParams where
  bindPort        : Option Nat
  udpPayloadSize  : Option Nat
  mptcp           : Bool
  zerocopy        : ZerocopyMode
  sequentialPorts : Bool

def ClientConfig.withParams (config : ClientConfig) (params : RunParams) : ClientConfig :=
  { config with toRunParams := params }

-- Settings only have whole seconds.
def RunParams.testParams (params : RunParams) : TestParams where
  streams      := params.streams
  protocol     := params.protocol
  durationSecs := params.duration / 1000000000
  direction    := params.direction
  bitrate      := params.bitrate

def TestParams.runParams (params : TestParams) : RunParams where
  protocol  := params.protocol
  direction := params.direction
  streams   := params.streams
  duration  := params.durationSecs * 1000000000
  bitrate   := params.bitrate

theorem TestParams.testParams_runParams {params : TestParams} :
    params.runParams.testParams = params := by
  unfold RunParams.testParams runParams
  rw [Nat.mul_div_cancel _ (by decide)]

-- Only the run which is started drops the options which do not apply to its protocol, so that they are
-- back when the protocol is.
def tuiRunConfig (config : ClientConfig) : ClientConfig :=
  let active := { config with
    sequentialPorts :=
      config.protocol ≠ .quic ∧ config.streams > 1 ∧ config.bindPort.any (· ≠ 0) }
  let active := if active.protocol ≠ .udp then { active with udpPayloadSize := none } else active
  if active.protocol ≠ .tcp then { active with mptcp := false, zerocopy := .off } else active

-- A run is cut when another one takes its place.
inductive Ending
  | finished (outcome : Except String FinalResult)
  | cut
  | aborted

-- A run with what came of it so far.
structure TuiRun where
  config     : ClientConfig
  test       : Protocol × Protocol.Direction
  cancelled  : Bool               := false
  progresses : List TimedProgress := []
  ending     : Option Ending      := none
  pushed     : Option (FinalResult × Protocol × Protocol.Direction) := none

def spawnTuiRun (config : ClientConfig) : TuiRun where
  config := tuiRunConfig config
  test   := (config.protocol, config.direction)

def buildFallbackResult (cumulativeBytes elapsedMs : Nat) : FinalResult where
  id                  := ""
  bytesTotal          := .ofNat cumulativeBytes
  durationMs          := .ofNat elapsedMs
  throughputMbps      :=
    if elapsedMs > 0 then
      Float.ofNat cumulativeBytes * 8.0 / (Float.ofNat elapsedMs / 1000.0) / 1000000.0
    else
      0.0
  streams             := []
  tcpInfo             := none
  udpStats            := none
  udpStatsSend        := none
  udpStatsRecv        := none
  bytesSent           := none
  bytesReceived       := none
  throughputSendMbps  := none
  throughputRecvMbps  := none
  mtuProbe            := none
  serverUdpSendErrors := none
  clientUdpSendErrors := none
  zeroByteStreams     := none

def tuiFallbackResult (bytes elapsedMs : Nat) : Option FinalResult :=
  if bytes > 0 then some (buildFallbackResult bytes elapsedMs) else none

inductive Exit
  | ok (result : Option FinalResult) (printJson isPartial : Bool)
  | error (e : String)

-- The result which goes to a file, if there is one.
def Exit.saved : Exit → Option FinalResult
  | ok result _ isPartial => if isPartial then none else result
  | error _               => none

inductive PauseResult
  | applied
  | unsupported
  | notReady

inductive TuiQuitAction
  | noop
  | exitOk
  | exitError
  | startCancel
  | forceExit
  | ignore
  deriving DecidableEq

def isCtrlC : Key → Bool
  | .char 'c' true    => true
  | .char '\x03' _    => true
  | _                 => false

def isQuit : Key → Bool
  | .char 'q' _ => true
  | k           => isCtrlC k

def settingsCapturesKey (settingsVisible : Bool) (k : Key) : Bool :=
  settingsVisible && !isCtrlC k

def tuiQuitAction (k : Key) (state : AppState) (cancelPending runActive : Bool) : TuiQuitAction :=
  if ¬isQuit k then .noop
  else if state = .error then .exitError
  else if state = .completed ∨ ¬runActive then .exitOk
  else if cancelPending then
    if isCtrlC k then .forceExit else .ignore
  else .startCancel

def TUI_CANCEL_WAIT : Nat :=
  5000000000

-- The terminal session of a client: its latest run, and the runs which were before it.
structure Session where
  config            : ClientConfig
  gateway           : Bool
  shown             : RunParams
  settings          : SettingsState
  state             : AppState           := .running
  result            : Option FinalResult := none
  error             : Option String      := none
  cancelDeadline    : Option Nat         := none
  showHelp          : Bool               := false
  printJson         : Bool               := false
  fallbackBytes     : Nat                := 0
  fallbackElapsedMs : Nat                := 0
  past              : List TuiRun        := []
  run               : TuiRun
  exit              : Option Exit        := none

-- What a turn of the loop finds.
structure Input where
  now      : Nat
  key      : Option Key
  pause    : PauseResult
  progress : List TimedProgress
  finished : Option (Except String FinalResult)

namespace Session

def start (config : ClientConfig) (gateway : Bool) (themeIndex : Nat)
    (timestampFormat : TimestampFormat) : Session where
  config   := config
  gateway  := gateway
  shown    := config.toRunParams
  settings := .new themeIndex timestampFormat config.testParams
  run      := spawnTuiRun config

def runActive (s : Session) : Bool :=
  s.run.ending.isNone

def leave (s : Session) (e : Exit) : Session :=
  { s with exit := some e }

def leaveOk (s : Session) : Session :=
  s.leave (.ok s.result s.printJson false)

def leaveError (s : Session) : Session :=
  s.leave (.error (s.error.getD ""))

-- Without a result, there is a summary of what was seen.
def leaveCancelled (s : Session) : Session :=
  if s.result.isNone then
    s.leave (.ok (tuiFallbackResult s.fallbackBytes s.fallbackElapsedMs) s.printJson true)
  else s.leaveOk

def endRun (s : Session) (ending : Ending) : Session :=
  { s with run := { s.run with ending := some ending } }

def abortTuiRun (s : Session) : Session :=
  if s.runActive then s.endRun .aborted else s

def cancelRun (s : Session) : Session :=
  { s with run := { s.run with cancelled := true } }

def resetForRestart (s : Session) : Session :=
  { s with
    state          := .connecting
    result         := none
    error          := none
    cancelDeadline := none
    showHelp       := false }

-- What the run says when it is stopped is dropped.
def cancelTuiRun (s : Session) : Session :=
  if s.runActive then s.cancelRun.endRun .cut else s

def restartTuiRun (s : Session) : Session :=
  let s := s.cancelTuiRun
  { s.resetForRestart with
    past  := s.past ++ [s.run]
    run   := spawnTuiRun s.config
    state := .running }

def restart (s : Session) : Session :=
  { s with
    cancelDeadline    := none
    fallbackBytes     := 0
    fallbackElapsedMs := 0
    printJson         := false }.restartTuiRun

def applyTuiSettings (s : Session) : Session :=
  { s with
    config   := s.config.withParams s.settings.params.runParams
    shown    := s.settings.params.runParams
    settings := s.settings.markApplied }

def onSettingsKey (s : Session) (k : Key) : Session :=
  let handled := s.settings.handleKey k
  let s := { s with settings := handled.1 }
  if handled.2 = .restart then s.applyTuiSettings.restart else s

def startCancel (s : Session) (now : Nat) : Session :=
  { s.cancelRun with
    cancelDeadline := some (now + TUI_CANCEL_WAIT)
    settings       := s.settings.close }

def cycleTheme (s : Session) : Session :=
  { s with settings := { s.settings with
    themeIndex := (s.settings.themeIndex + 1) % themes.length } }

-- Without the server's support, only the display is paused.
def onPause (s : Session) : PauseResult → Session
  | .applied | .unsupported => { s with state := s.state.togglePause }
  | .notReady               => s

def onEsc (s : Session) : Session :=
  if s.showHelp then { s with showHelp := false }
  else if s.state = .completed then s.leaveOk
  else if s.state = .error then s.leaveError
  else s

def onCommand (s : Session) (pause : PauseResult) : Key → Session
  | .char 'p' _       => if s.runActive then s.onPause pause else s
  | .char 'r' _       => s.restart
  | .char 't' _       => s.cycleTheme
  | .char 's' _       => { s with settings := s.settings.toggle }
  | .char '?' _ | .f1 => { s with showHelp := !s.showHelp }
  | .char 'j' _       => if s.result.isSome then { s with printJson := true } else s
  | .esc              => s.onEsc
  | _                 => s

def onQuit (s : Session) (now : Nat) : TuiQuitAction → Session
  | .noop        => s
  | .exitOk      => s.leaveOk
  | .exitError   => s.leaveError
  | .startCancel => s.startCancel now
  | .forceExit   => s.abortTuiRun.leaveOk
  | .ignore      => s

-- Also tells whether the turn goes on.
def onKey (s : Session) (now : Nat) (pause : PauseResult) (k : Key) : Session × Bool :=
  if settingsCapturesKey s.settings.visible k then (s.onSettingsKey k, false)
  else
    match tuiQuitAction k s.state s.cancelDeadline.isSome s.runActive with
    | .noop  => (s.onCommand pause k, (s.onCommand pause k).exit.isNone)
    | action => (s.onQuit now action, false)

-- Reports of readings alone carry no totals.
def onProgress (s : Session) (progress : TimedProgress) : Session :=
  let s := { s with run := { s.run with progresses := s.run.progresses ++ [progress] } }
  if progress.udpFeedbackOnly then s
  else { s with
    fallbackBytes     := U64.wrappingAdd s.fallbackBytes progress.totalBytes
    fallbackElapsedMs := progress.elapsedMs }

def drain (s : Session) (progress : List TimedProgress) : Session :=
  if s.runActive then progress.foldl onProgress s else s

def queueMetrics (s : Session) (result : FinalResult) : Session :=
  if s.gateway then { s with run := { s.run with pushed := some (result, s.run.test) } } else s

def onResult (s : Session) (result : FinalResult) : Session :=
  { s with state := .completed, result := some result }

def onError (s : Session) (e : String) : Session :=
  { s with state := .error, error := some e }

def onFinished (s : Session) (outcome : Except String FinalResult) : Session :=
  let s := s.endRun (.finished outcome)
  match outcome with
  | .ok result =>
    let s := (s.queueMetrics result).onResult result
    if s.cancelDeadline.isSome then s.leaveOk else s
  | .error e   => if s.cancelDeadline.isSome then s.leaveCancelled else s.onError e

def collect (s : Session) (finished : Option (Except String FinalResult)) : Session :=
  match finished with
  | some outcome => if s.runActive then s.onFinished outcome else s
  | none         => s

def expired (s : Session) (now : Nat) : Bool :=
  s.cancelDeadline.any (· < now)

-- One turn of the loop.
def turn : System Session Input
  | s, i =>
    if s.exit.isSome then none
    else if s.expired i.now then some s.abortTuiRun.leaveCancelled
    else
      match i.key.map (s.onKey i.now i.pause) with
      | some (s, false) => some s
      | some (s, true)  => some <| (s.drain i.progress).collect i.finished
      | none            => some <| (s.drain i.progress).collect i.finished

end Session

namespace TuiRun

def result (r : TuiRun) : Option FinalResult :=
  match r.ending with
  | some (.finished (.ok result)) => some result
  | _                             => none

def failure (r : TuiRun) : Option String :=
  match r.ending with
  | some (.finished (.error e)) => some e
  | _                           => none

-- The reports which carry totals.
def full (r : TuiRun) : List TimedProgress :=
  r.progresses.filter (!·.udpFeedbackOnly)

def bytes (r : TuiRun) : Nat :=
  U64.wrappingSum (r.full.map (·.totalBytes))

def elapsedMs (r : TuiRun) : Nat :=
  (r.full.getLast?.map (·.elapsedMs)).getD 0

-- A run is started with what its protocol has of the client's options, and with as many streams as the
-- client accepts. Nothing but its result is pushed.
structure Begun (config : ClientConfig) (gateway : Bool) (params : RunParams) (r : TuiRun) :
    Prop where
  config  : r.config = tuiRunConfig (config.withParams params)
  test    : r.test = (params.protocol, params.direction)
  streams : 1 ≤ params.streams ∧ params.streams ≤ 128
  pushed  : r.pushed = if gateway then r.result.map (·, r.test) else none

-- No run goes on when another one is started.
inductive Over (r : TuiRun) : Prop
  | cut (cancelled : r.cancelled) (ending : r.ending = some .cut)
  | finished {outcome} (ending : r.ending = some (.finished outcome))

structure Past (config : ClientConfig) (gateway : Bool) (r : TuiRun) : Prop where
  begun : ∃ params, r.Begun config gateway params
  ended : r.Over

-- What is shown of a run.
inductive Phase (r : TuiRun) : AppState → Prop
  | running (active : r.ending = none) : Phase r .running
  | paused (active : r.ending = none) : Phase r .paused
  | completed {result} (ending : r.ending = some (.finished (.ok result))) : Phase r .completed
  | error {e} (ending : r.ending = some (.finished (.error e))) : Phase r .error

-- How a session is left: with the result of the run, with the error of the run, and after a cancel
-- with a summary of what was seen of the run or, if that was not waited for, with nothing.
inductive Left (r : TuiRun) : Exit → Prop
  | delivered {result printJson} (ending : r.ending = some (.finished (.ok result))) :
    Left r (.ok (some result) printJson false)
  | failed {e} (ending : r.ending = some (.finished (.error e))) : Left r (.error e)
  | unanswered (cancelled : r.cancelled)
      (ending : r.ending = some .aborted ∨ ∃ e, r.ending = some (.finished (.error e))) :
    Left r (.ok (tuiFallbackResult r.bytes r.elapsedMs) false true)
  | forced (cancelled : r.cancelled) (ending : r.ending = some .aborted) :
    Left r (.ok none false false)

variable {r r' : TuiRun} {state : AppState} {result : FinalResult} {e : String} {exit : Exit}

theorem Begun.spawn {config : ClientConfig} {gateway : Bool} {params : RunParams}
    (streams : 1 ≤ params.streams ∧ params.streams ≤ 128) :
    (spawnTuiRun (config.withParams params)).Begun config gateway params where
  config  := rfl
  test    := rfl
  streams := streams
  pushed  := by cases gateway <;> rfl

theorem Begun.congr {config : ClientConfig} {gateway : Bool} {params : RunParams}
    (b : r.Begun config gateway params) (hr : r'.result = r.result)
    (hc : r'.config = r.config := by rfl) (ht : r'.test = r.test := by rfl)
    (hp : r'.pushed = r.pushed := by rfl) : r'.Begun config gateway params where
  config  := hc.trans b.config
  test    := ht.trans b.test
  streams := b.streams
  pushed  := by rw [hp, b.pushed, hr, ht]

theorem result_of_active (h : r.ending = none) : r.result = none := by
  simp only [TuiRun.result, h]

theorem result_of_ok (h : r.ending = some (.finished (.ok result))) : r.result = some result := by
  simp only [TuiRun.result, h]

theorem result_of_error (h : r.ending = some (.finished (.error e))) : r.result = none := by
  simp only [TuiRun.result, h]

theorem result_of_aborted (h : r.ending = some .aborted) : r.result = none := by
  simp only [TuiRun.result, h]

theorem failure_of_active (h : r.ending = none) : r.failure = none := by
  simp only [TuiRun.failure, h]

theorem failure_of_error (h : r.ending = some (.finished (.error e))) : r.failure = some e := by
  simp only [TuiRun.failure, h]

theorem Phase.togglePause (p : r.Phase state) : r.Phase state.togglePause := by
  cases p
  case running active   => exact .paused active
  case paused active    => exact .running active
  case completed ending => exact .completed ending
  case error ending     => exact .error ending

theorem Phase.active (p : r.Phase state) (hc : state ≠ .completed) (he : state ≠ .error) :
    r.ending = none := by
  cases p
  case running active => exact active
  case paused active  => exact active
  case completed      => exact absurd rfl hc
  case error          => exact absurd rfl he

-- What is shown only depends on the end of the run.
theorem Phase.congr (p : r.Phase state) (h : r'.ending = r.ending) : r'.Phase state := by
  cases p
  case running active   => exact .running (h.trans active)
  case paused active    => exact .paused (h.trans active)
  case completed ending => exact .completed (h.trans ending)
  case error ending     => exact .error (h.trans ending)

theorem Phase.over (p : r.Phase state) (h : r.ending ≠ none) : r.Over := by
  cases p
  case running active   => exact absurd active h
  case paused active    => exact absurd active h
  case completed ending => exact .finished ending
  case error ending     => exact .finished ending

theorem Phase.completed_ending (p : r.Phase .completed) :
    ∃ result, r.ending = some (.finished (.ok result)) := by
  cases p
  case completed ending => exact ⟨_, ending⟩

theorem Phase.error_ending (p : r.Phase .error) :
    ∃ e, r.ending = some (.finished (.error e)) := by
  cases p
  case error ending => exact ⟨_, ending⟩

-- Another report was received.
def see (r : TuiRun) (progress : TimedProgress) : TuiRun :=
  { r with progresses := r.progresses ++ [progress] }

theorem full_see {progress : TimedProgress} :
    (r.see progress).full = r.full ++ [progress].filter (!·.udpFeedbackOnly) :=
  List.filter_append _ _

theorem bytes_see {progress : TimedProgress} (h : progress.udpFeedbackOnly = false) :
    (r.see progress).bytes = U64.wrappingAdd r.bytes progress.totalBytes := by
  unfold bytes
  rw [full_see, List.filter_cons_of_pos (by simp [h]), List.filter_nil, List.map_append]
  exact List.foldl_append

theorem elapsedMs_see {progress : TimedProgress} (h : progress.udpFeedbackOnly = false) :
    (r.see progress).elapsedMs = progress.elapsedMs := by
  unfold elapsedMs
  rw [full_see, List.filter_cons_of_pos (by simp [h]), List.filter_nil, List.getLast?_concat]
  rfl

theorem full_see_feedback {progress : TimedProgress} (h : progress.udpFeedbackOnly = true) :
    (r.see progress).full = r.full := by
  rw [full_see, List.filter_cons_of_neg (by simp [h]), List.filter_nil, List.append_nil]

theorem bytes_see_feedback {progress : TimedProgress} (h : progress.udpFeedbackOnly = true) :
    (r.see progress).bytes = r.bytes := by
  rw [bytes, full_see_feedback h, bytes]

theorem elapsedMs_see_feedback {progress : TimedProgress} (h : progress.udpFeedbackOnly = true) :
    (r.see progress).elapsedMs = r.elapsedMs := by
  rw [elapsedMs, full_see_feedback h, elapsedMs]

-- The result was received, and is pushed if there is a gateway.
def deliver (r : TuiRun) (gateway : Bool) (result : FinalResult) : TuiRun :=
  { r with
    ending := some (.finished (.ok result))
    pushed := if gateway then some (result, r.test) else r.pushed }

theorem Begun.deliver {config : ClientConfig} {gateway : Bool} {params : RunParams}
    (b : r.Begun config gateway params) (result : FinalResult) :
    (r.deliver gateway result).Begun config gateway params where
  config  := b.config
  test    := b.test
  streams := b.streams
  pushed  := by
    cases gateway
    case false => exact b.pushed
    case true  => rfl

-- Whatever goes to a file is the result of a run.
theorem Left.saved (h : r.Left exit) (hs : exit.saved = some result) :
    r.ending = some (.finished (.ok result)) := by
  cases h
  case delivered ending => exact Option.some_inj.mp hs ▸ ending
  case failed           => cases hs
  case unanswered       => cases hs
  case forced           => cases hs

end TuiRun

namespace Session

variable {config : ClientConfig} {gateway : Bool} {s s' : Session} {now : Nat} {k : Key}

-- What holds at any point of a session.
structure Common (config : ClientConfig) (gateway : Bool) (s : Session) : Prop where
  kept     : s.config = config.withParams s.shown
  pushes   : s.gateway = gateway
  sound    : s.settings.Sound
  original : s.settings.original = s.shown.testParams
  begun    : s.run.Begun config gateway s.shown
  past     : ∀ r ∈ s.past, r.Past config gateway
  bytes    : s.fallbackBytes = s.run.bytes
  elapsed  : s.fallbackElapsedMs = s.run.elapsedMs
  result   : s.result = s.run.result

-- What holds until it is left.
structure Going (config : ClientConfig) (gateway : Bool) (s : Session) : Prop
    extends Common config gateway s where
  exit   : s.exit = none
  phase  : s.run.Phase s.state
  error  : s.error = s.run.failure
  cancel : s.cancelDeadline.isSome → s.run.ending = none ∧ s.run.cancelled
  json   : s.printJson → s.run.result.isSome

structure Gone (config : ClientConfig) (gateway : Bool) (s : Session) : Prop
    extends Common config gateway s where
  left : ∃ e, s.exit = some e ∧ s.run.Left e

inductive Inv (config : ClientConfig) (gateway : Bool) (s : Session) : Prop
  | going (h : s.Going config gateway)
  | gone (h : s.Gone config gateway)

theorem Common.leave (c : s.Common config gateway) {e : Exit} :
    (s.leave e).Common config gateway :=
  ⟨c.kept, c.pushes, c.sound, c.original, c.begun, c.past, c.bytes, c.elapsed, c.result⟩

theorem Common.left (c : s.Common config gateway) {e : Exit} (h : s.run.Left e) :
    (s.leave e).Inv config gateway :=
  .gone { c.leave with left := ⟨e, rfl, h⟩ }

theorem Common.cancelRun (c : s.Common config gateway) : s.cancelRun.Common config gateway :=
  ⟨c.kept, c.pushes, c.sound, c.original, c.begun.congr rfl, c.past, c.bytes, c.elapsed, c.result⟩

-- A run which ends without a result has none before, too.
theorem Common.endRun (c : s.Common config gateway) {ending : Ending} (active : s.run.ending = none)
    (lost : (s.endRun ending).run.result = none) : (s.endRun ending).Common config gateway := by
  have hr : (s.endRun ending).run.result = s.run.result :=
    lost.trans (TuiRun.result_of_active active).symm
  exact ⟨c.kept, c.pushes, c.sound, c.original, c.begun.congr hr, c.past, c.bytes, c.elapsed,
    c.result.trans hr.symm⟩

theorem Common.aborted (c : s.Common config gateway) (active : s.run.ending = none) :
    (s.endRun .aborted).Common config gateway :=
  c.endRun active (TuiRun.result_of_aborted rfl)

theorem Common.settings (c : s.Common config gateway) {settings : SettingsState}
    (hs : settings.Sound) (ho : settings.original = s.settings.original) :
    { s with settings }.Common config gateway :=
  ⟨c.kept, c.pushes, hs, ho.trans c.original, c.begun, c.past, c.bytes, c.elapsed, c.result⟩

theorem Going.settings (g : s.Going config gateway) {settings : SettingsState}
    (hs : settings.Sound) (ho : settings.original = s.settings.original) :
    { s with settings }.Going config gateway :=
  { g.toCommon.settings hs ho with
    exit := g.exit, phase := g.phase, error := g.error, cancel := g.cancel, json := g.json }

theorem Going.active (g : s.Going config gateway) (hc : s.state ≠ .completed)
    (he : s.state ≠ .error) : s.run.ending = none :=
  g.phase.active hc he

theorem Going.leaveOk (g : s.Going config gateway) (h : s.state = .completed) :
    s.leaveOk.Inv config gateway := by
  obtain ⟨result, ending⟩ := (h ▸ g.phase).completed_ending
  have hr : s.result = some result := g.result.trans (TuiRun.result_of_ok ending)
  unfold Session.leaveOk
  rw [hr]
  exact g.left (.delivered ending)

theorem Going.leaveError (g : s.Going config gateway) (h : s.state = .error) :
    s.leaveError.Inv config gateway := by
  obtain ⟨e, ending⟩ := (h ▸ g.phase).error_ending
  have he : s.error = some e := g.error.trans (TuiRun.failure_of_error ending)
  unfold Session.leaveError
  rw [he]
  exact g.left (.failed ending)

-- There is nothing to be printed while the run goes on.
theorem Going.printJson (g : s.Going config gateway) (active : s.run.ending = none) :
    s.printJson = false := by
  by_contra h
  have hs := g.json (Bool.eq_true_of_not_eq_false h)
  rw [TuiRun.result_of_active active] at hs
  cases hs

-- A cancelled run ends without a result.
theorem Going.leaveCancelled (g : s.Going config gateway) (hc : s.cancelDeadline.isSome)
    {ending : Ending} (hl : ending = .aborted ∨ ∃ e, ending = .finished (.error e)) :
    (s.endRun ending).leaveCancelled.Inv config gateway := by
  have ⟨active, cancelled⟩ := g.cancel hc
  have lost : (s.endRun ending).run.result = none := by
    rcases hl with rfl | ⟨e, rfl⟩
    case inl => exact TuiRun.result_of_aborted rfl
    case inr => exact TuiRun.result_of_error rfl
  have c := g.endRun active lost
  have hn : (s.endRun ending).result.isNone := by rw [c.result, lost]; rfl
  have hj : (s.endRun ending).printJson = false := g.printJson active
  unfold Session.leaveCancelled
  rw [if_pos hn, c.bytes, c.elapsed, hj]
  refine c.left (.unanswered cancelled ?_)
  rcases hl with rfl | ⟨e, rfl⟩
  case inl => exact .inl rfl
  case inr => exact .inr ⟨e, rfl⟩

theorem Going.abortTuiRun (g : s.Going config gateway) (hc : s.cancelDeadline.isSome) :
    s.abortTuiRun = s.endRun .aborted := by
  refine if_pos ?_
  unfold runActive
  rw [(g.cancel hc).left]
  rfl

theorem Going.expire (g : s.Going config gateway) (h : s.expired now) :
    s.abortTuiRun.leaveCancelled.Inv config gateway := by
  have hc : s.cancelDeadline.isSome := by
    unfold expired at h
    cases hd : s.cancelDeadline
    case none   => simp [hd] at h
    case some _ => rfl
  rw [g.abortTuiRun hc]
  exact g.leaveCancelled hc (.inl rfl)

theorem Going.forceExit (g : s.Going config gateway) (hc : s.cancelDeadline.isSome) :
    s.abortTuiRun.leaveOk.Inv config gateway := by
  have ⟨active, cancelled⟩ := g.cancel hc
  have c := g.aborted active
  have hn : (s.endRun .aborted).result = none := c.result.trans (TuiRun.result_of_aborted rfl)
  have hj : (s.endRun .aborted).printJson = false := g.printJson active
  rw [g.abortTuiRun hc]
  unfold Session.leaveOk
  rw [hn, hj]
  exact c.left (.forced cancelled rfl)

theorem Going.startCancel (g : s.Going config gateway) (active : s.run.ending = none) :
    (s.startCancel now).Going config gateway where
  toCommon :=
    have c := g.cancelRun
    ⟨c.kept, c.pushes, g.sound.close, c.original, c.begun, c.past, c.bytes, c.elapsed, c.result⟩
  exit     := g.exit
  phase    := g.phase.congr rfl
  error    := g.error
  cancel   := fun _ => ⟨active, rfl⟩
  json     := g.json

-- What a session has to be like for a run to be started.
structure Ready (config : ClientConfig) (gateway : Bool) (s : Session) : Prop where
  kept     : s.config = config.withParams s.shown
  pushes   : s.gateway = gateway
  sound    : s.settings.Sound
  original : s.settings.original = s.shown.testParams
  streams  : 1 ≤ s.shown.streams ∧ s.shown.streams ≤ 128
  past     : ∀ r ∈ s.past, r.Past config gateway
  begun    : ∃ params, s.run.Begun config gateway params
  phase    : s.run.Phase s.state
  exit     : s.exit = none

theorem Going.ready (g : s.Going config gateway) : s.Ready config gateway :=
  ⟨g.kept, g.pushes, g.sound, g.original, g.begun.streams, g.past, ⟨_, g.begun⟩, g.phase, g.exit⟩

-- The former run is over then.
theorem Ready.stopped (h : s.Ready config gateway) :
    s.cancelTuiRun.run.Past config gateway := by
  obtain ⟨params, begun⟩ := h.begun
  unfold cancelTuiRun
  cases ha : s.runActive
  case false =>
    have ended := h.phase.over (Option.ne_none_iff_isSome.mpr (Option.isNone_eq_false_iff.mp ha))
    exact ⟨⟨params, begun⟩, ended⟩
  case true =>
    have active : s.run.ending = none := Option.isNone_iff_eq_none.mp ha
    have hr : (s.cancelRun.endRun .cut).run.result = s.run.result :=
      (TuiRun.result_of_active active).symm
    exact ⟨⟨params, begun.congr hr⟩, .cut rfl rfl⟩

-- Nothing but the run is stopped.
theorem cancelTuiRun_frame : s.cancelTuiRun = { s with run := s.cancelTuiRun.run } := by
  unfold cancelTuiRun
  split <;> rfl

theorem Ready.restartTuiRun (h : s.Ready config gateway) (hb : s.fallbackBytes = 0)
    (he : s.fallbackElapsedMs = 0) (hj : s.printJson = false) :
    s.restartTuiRun.Going config gateway := by
  have stopped := h.stopped
  unfold Session.restartTuiRun
  rw [cancelTuiRun_frame]
  generalize s.cancelTuiRun.run = stoppedRun at stopped
  have begun : (spawnTuiRun s.config).Begun config gateway s.shown := by
    rw [h.kept]
    exact .spawn h.streams
  exact {
    kept     := h.kept
    pushes   := h.pushes
    sound    := h.sound
    original := h.original
    begun    := begun
    past     := List.forall_mem_append.mpr ⟨h.past, List.forall_mem_singleton.mpr stopped⟩
    bytes    := hb
    elapsed  := he
    result   := rfl
    exit     := h.exit
    phase    := .running rfl
    error    := rfl
    cancel   := nofun
    json     := fun h => absurd (hj ▸ h) Bool.false_ne_true
  }

theorem Ready.restart (h : s.Ready config gateway) : s.restart.Going config gateway :=
  Ready.restartTuiRun { h with } rfl rfl rfl

theorem Going.onPause (g : s.Going config gateway) (pause : PauseResult) :
    (s.onPause pause).Going config gateway := by
  have paused : { s with state := s.state.togglePause }.Going config gateway :=
    { g with phase := g.phase.togglePause }
  cases pause
  case applied     => exact paused
  case unsupported => exact paused
  case notReady    => exact g

theorem Going.onSettingsKey (g : s.Going config gateway) :
    (s.onSettingsKey k).Going config gateway := by
  have handled := SettingsState.handled_handleKey g.sound k
  unfold Session.onSettingsKey
  dsimp only
  split
  case isFalse => exact g.settings handled.sound handled.original
  case isTrue =>
    refine Ready.restart {
      kept     := ?kept
      pushes   := g.pushes
      sound    := handled.sound.markApplied
      original := TestParams.testParams_runParams.symm
      streams  := handled.sound.streams
      past     := g.past
      begun    := ⟨_, g.begun⟩
      phase    := g.phase
      exit     := g.exit
    }
    case kept =>
      unfold applyTuiSettings
      dsimp only
      rw [g.kept]
      rfl

theorem Going.cycleTheme (g : s.Going config gateway) : s.cycleTheme.Going config gateway :=
  g.settings ⟨g.sound.selected, g.sound.button, Nat.mod_lt _ (by decide), g.sound.streams⟩ rfl

theorem Going.onEsc (g : s.Going config gateway) : s.onEsc.Inv config gateway := by
  unfold Session.onEsc
  split
  case isTrue  => exact .going { g with }
  case isFalse =>
    split
    case isTrue h  => exact g.leaveOk h
    case isFalse   =>
      split
      case isTrue h => exact g.leaveError h
      case isFalse  => exact .going g

theorem Going.onCommand (g : s.Going config gateway) (pause : PauseResult) :
    (s.onCommand pause k).Inv config gateway := by
  unfold Session.onCommand
  split
  case h_1 =>
    split
    case isTrue  => exact .going (g.onPause pause)
    case isFalse => exact .going g
  case h_2       => exact .going g.ready.restart
  case h_3       => exact .going g.cycleTheme
  case h_4       => exact .going (g.settings g.sound.toggle SettingsState.original_toggle)
  case h_5 | h_6 => exact .going { g with }
  case h_7 =>
    split
    case isTrue h  => exact .going { g with json := fun _ => g.result ▸ h }
    case isFalse   => exact .going g
  case h_8       => exact g.onEsc
  case h_9       => exact .going g

-- Whatever is done on a request to quit is done in the right state.
theorem Going.onQuit (g : s.Going config gateway) :
    (s.onQuit now (tuiQuitAction k s.state s.cancelDeadline.isSome s.runActive)).Inv
      config gateway := by
  unfold tuiQuitAction
  split
  case isTrue => exact .going g
  case isFalse =>
    split
    case isTrue h => exact g.leaveError h
    case isFalse he =>
      split
      case isTrue h =>
        refine g.leaveOk (h.elim id fun h => ?_)
        by_contra hc
        exact h (Option.isNone_iff_eq_none.mpr (g.active hc he))
      case isFalse h =>
        split
        case isTrue hc =>
          split
          case isTrue  => exact g.forceExit hc
          case isFalse => exact .going g
        case isFalse =>
          exact .going (g.startCancel (g.active (fun hc => h (.inl hc)) he))

theorem Going.onKey (g : s.Going config gateway) (pause : PauseResult) :
    (s.onKey now pause k).1.Inv config gateway := by
  unfold Session.onKey
  split
  case isTrue  => exact .going g.onSettingsKey
  case isFalse =>
    split
    case h_1 => exact g.onCommand pause
    case h_2 => exact g.onQuit

-- A session goes on after a key unless it was left.
theorem Inv.going_of_onKey {pause : PauseResult} (h : (s.onKey now pause k).1.Inv config gateway)
    (ha : (s.onKey now pause k).2 = true) : (s.onKey now pause k).1.Going config gateway := by
  cases h
  case going h => exact h
  case gone h =>
    exfalso
    obtain ⟨e, he, -⟩ := h.left
    unfold Session.onKey at ha he
    split at ha
    case isTrue  => cases ha
    case isFalse hc =>
      rw [if_neg hc] at he
      split at ha
      case h_1 hq =>
        rw [hq] at he
        rw [show (s.onCommand pause k).exit = some e from he] at ha
        cases ha
      case h_2     => cases ha

theorem Going.onProgress (g : s.Going config gateway) (active : s.run.ending = none)
    (progress : TimedProgress) :
    (s.onProgress progress).Going config gateway ∧ (s.onProgress progress).run.ending = none := by
  have begun : (s.run.see progress).Begun config gateway s.shown := g.begun.congr rfl
  have phase : (s.run.see progress).Phase s.state := g.phase.congr rfl
  cases hf : progress.udpFeedbackOnly
  case true =>
    have h : s.onProgress progress = { s with run := s.run.see progress } := if_pos hf
    rw [h]
    refine ⟨{ g with begun, phase, bytes := g.bytes.trans ?_, elapsed := g.elapsed.trans ?_ }, active⟩
    case refine_1 => exact (TuiRun.bytes_see_feedback hf).symm
    case refine_2 => exact (TuiRun.elapsedMs_see_feedback hf).symm
  case false =>
    have h : s.onProgress progress = { s with
        run               := s.run.see progress
        fallbackBytes     := U64.wrappingAdd s.fallbackBytes progress.totalBytes
        fallbackElapsedMs := progress.elapsedMs } := if_neg (by simp [hf])
    rw [h]
    refine ⟨{ g with begun, phase, bytes := ?_, elapsed := ?_ }, active⟩
    case refine_1 => exact g.bytes ▸ (TuiRun.bytes_see hf).symm
    case refine_2 => exact (TuiRun.elapsedMs_see hf).symm

theorem Going.drain (g : s.Going config gateway) (progress : List TimedProgress) :
    (s.drain progress).Going config gateway := by
  unfold Session.drain
  split
  case isFalse  => exact g
  case isTrue h =>
    have active : s.run.ending = none := Option.isNone_iff_eq_none.mp h
    clear h
    induction progress generalizing s
    case nil          => exact g
    case cons p ps hi =>
      have ⟨g, active⟩ := g.onProgress active p
      exact hi g active

theorem queueMetrics_endRun {result : FinalResult} :
    (s.endRun (.finished (.ok result))).queueMetrics result =
      { s with run := s.run.deliver s.gateway result } := by
  unfold queueMetrics endRun TuiRun.deliver
  dsimp only
  split <;> rfl

theorem Going.onFinished (g : s.Going config gateway) (active : s.run.ending = none)
    (outcome : Except String FinalResult) : (s.onFinished outcome).Inv config gateway := by
  unfold Session.onFinished
  cases outcome
  case ok result =>
    have begun : (s.run.deliver s.gateway result).Begun config gateway s.shown :=
      g.pushes.symm ▸ g.begun.deliver result
    have c : ({ s with run := s.run.deliver s.gateway result }.onResult result).Common config
        gateway :=
      ⟨g.kept, g.pushes, g.sound, g.original, begun, g.past, g.bytes, g.elapsed, rfl⟩
    dsimp only
    rw [queueMetrics_endRun]
    split
    case isTrue     => exact c.left (.delivered rfl)
    case isFalse hc =>
      have error : s.error = none := g.error.trans (TuiRun.failure_of_active active)
      exact .going { c with
        exit := g.exit, phase := .completed rfl, error, cancel := fun h => absurd h hc,
        json := fun _ => rfl }
  case error e =>
    have c := g.endRun active (TuiRun.result_of_error (e := e) rfl)
    dsimp only
    split
    case isTrue hc  => exact g.leaveCancelled hc (.inr ⟨e, rfl⟩)
    case isFalse hc =>
      have hj : s.printJson = false := g.printJson active
      have shown : ((s.endRun (.finished (.error e))).onError e).Common config gateway :=
        ⟨c.kept, c.pushes, c.sound, c.original, c.begun, c.past, c.bytes, c.elapsed, c.result⟩
      exact .going { shown with
        exit := g.exit, phase := .error rfl, error := rfl, cancel := fun h => absurd h hc,
        json := fun h => absurd (hj ▸ h) Bool.false_ne_true }

theorem Going.collect (g : s.Going config gateway) (finished : Option (Except String FinalResult)) :
    (s.collect finished).Inv config gateway := by
  unfold Session.collect
  split
  case h_1 outcome =>
    split
    case isTrue h => exact g.onFinished (Option.isNone_iff_eq_none.mp h) outcome
    case isFalse  => exact .going g
  case h_2 => exact .going g

theorem Going.turn {i : Input} (g : s.Going config gateway) (h : turn s i = some s') :
    s'.Inv config gateway := by
  have ending {s : Session} (g : s.Going config gateway) :
      ((s.drain i.progress).collect i.finished).Inv config gateway :=
    (g.drain i.progress).collect i.finished
  dsimp only [Session.turn] at h
  split at h
  case isTrue  => cases h
  case isFalse =>
    split at h
    case isTrue he => exact Option.some_inj.mp h ▸ g.expire he
    case isFalse =>
      split at h
      case h_1 hk =>
        have ⟨k, _, ho⟩ := Option.map_eq_some_iff.mp hk
        have inv : (s.onKey i.now i.pause k).1.Inv config gateway := g.onKey i.pause
        rw [ho] at inv
        exact Option.some_inj.mp h ▸ inv
      case h_2 hk =>
        have ⟨k, _, ho⟩ := Option.map_eq_some_iff.mp hk
        have inv : (s.onKey i.now i.pause k).1.Inv config gateway := g.onKey i.pause
        have g := inv.going_of_onKey (congrArg Prod.snd ho)
        rw [ho] at g
        exact Option.some_inj.mp h ▸ ending g
      case h_3 => exact Option.some_inj.mp h ▸ ending g

-- A session which was left takes no more turns.
theorem Inv.turn {i : Input} (inv : s.Inv config gateway) (h : turn s i = some s') :
    s'.Inv config gateway := by
  cases inv
  case going g => exact g.turn h
  case gone g =>
    obtain ⟨e, he, -⟩ := g.left
    dsimp only [Session.turn] at h
    rw [if_pos (by rw [he]; rfl)] at h
    cases h

theorem Going.start {themeIndex : Nat} {timestampFormat : TimestampFormat}
    (streams : 1 ≤ config.streams ∧ config.streams ≤ 128) (theme : themeIndex < themes.length) :
    (start config gateway themeIndex timestampFormat).Going config gateway where
  kept     := rfl
  pushes   := rfl
  sound    := ⟨Nat.zero_lt_succ _, Nat.zero_lt_succ _, theme, streams⟩
  original := rfl
  begun    := .spawn streams
  past     := List.forall_mem_nil _
  bytes    := rfl
  elapsed  := rfl
  result   := rfl
  exit     := rfl
  phase    := .running rfl
  error    := rfl
  cancel   := nofun
  json     := nofun

theorem inv_run {themeIndex : Nat} {timestampFormat : TimestampFormat} {inputs : List Input}
    (streams : 1 ≤ config.streams ∧ config.streams ≤ 128) (theme : themeIndex < themes.length)
    (h : turn.run (start config gateway themeIndex timestampFormat) inputs = some s) :
    s.Inv config gateway :=
  System.run_invariant (fun inv h => inv.turn h) (.going (.start streams theme)) h

-- At any point of a session only the latest run goes on. All of them were started with parameters
-- which can be chosen, and pushed nothing but their results. Once the session is left, nothing but the
-- result of the latest one is saved.
theorem session_sound {themeIndex : Nat} {timestampFormat : TimestampFormat} {inputs : List Input}
    (streams : 1 ≤ config.streams ∧ config.streams ≤ 128) (theme : themeIndex < themes.length)
    (h : turn.run (start config gateway themeIndex timestampFormat) inputs = some s) :
    (∀ r ∈ s.past, r.Past config gateway) ∧ (∃ params, s.run.Begun config gateway params) ∧
    ∀ e, s.exit = some e → s.run.Left e ∧
      ∀ result, e.saved = some result → s.run.ending = some (.finished (.ok result)) := by
  cases inv_run streams theme h
  case going g =>
    refine ⟨g.past, ⟨_, g.begun⟩, fun e he => ?_⟩
    rw [g.exit] at he
    cases he
  case gone g =>
    obtain ⟨e, he, left⟩ := g.left
    refine ⟨g.past, ⟨_, g.begun⟩, fun e' he' => ?_⟩
    obtain rfl := Option.some_inj.mp (he.symm.trans he')
    exact ⟨left, fun _ => left.saved⟩

end Session
end Tui
