import Xfr.Control.Transport
import Xfr.Library.System
import Xfr.Report.Sample

open Utf8 (Text)

-- All times are in nanoseconds.
def FINISH_DRAIN_GRACE : Nat := 10 * 10 ^ 9
def FINISH_DRAIN_GRACE_UDP : Nat := 250 * 10 ^ 6
def CANCEL_FLUSH_TIMEOUT : Nat := 3 * 10 ^ 9
def RESULT_FLUSH_TIMEOUT : Nat := 30 * 10 ^ 9

def finishDrainGrace : Protocol → Nat
  | .udp         => FINISH_DRAIN_GRACE_UDP
  | .tcp | .quic => FINISH_DRAIN_GRACE

-- Whoever sends decides whether a byte-budget test has delivered everything.
def budgetTransferComplete : Protocol.Direction → (clientFinished serverSendDone : Bool) → Bool
  | .upload,   clientFinished, _              => clientFinished
  | .download, _,              serverSendDone => serverSendDone
  | .bidir,    clientFinished, serverSendDone => clientFinished && serverSendDone

inductive ControlCommand
  | cancel
  | pause
  | resume
  | finish
  deriving DecidableEq

-- Once encoded a frame does not change anymore.
structure Frame where
  bytes  : Bytes
  offset : Nat

namespace Frame

def remaining (f : Frame) : Bytes :=
  f.bytes.drop f.offset

def complete (f : Frame) : Bool :=
  f.offset = f.bytes.length

-- A complete frame is dropped.
def accept (f : Frame) (written : Nat) : Option Frame :=
  let f := { f with offset := f.offset + written }
  if f.complete then none else some f

end Frame

-- Test time without the pauses, including one which is still in progress.
def activeElapsed (now start pausedTotal : Nat) (pauseStart : Option Nat) : Nat :=
  (now - start) - (pausedTotal + pauseStart.elim 0 (now - ·))

-- Why a report loop ends.
inductive Ending
  | deadline
  | drainExpired
  | received
  | sent
  | cancelled
  | readerExited
  deriving DecidableEq

inductive Failure
  | serialize
  | encode (e : CodecError)
  | write

-- The local variables of the loop.
structure Loop where
  start          : Nat
  pausedTotal    : Nat
  pauseStart     : Option Nat
  current        : Option Frame
  pending        : Option Sample
  cancelled      : Bool
  clientFinished : Bool
  serverSendDone : Bool
  drainUntil     : Option Nat
  receivedAt     : Option Nat
  sentAt         : Option Nat
  codec          : ControlWriter

inductive Outcome
  | next (l : Loop)
  | leave (ending : Ending) (l : Loop)

namespace Loop

def init (now : Nat) (codec : ControlWriter) : Loop where
  start          := now
  pausedTotal    := 0
  pauseStart     := none
  current        := none
  pending        := none
  cancelled      := false
  clientFinished := false
  serverSendDone := false
  drainUntil     := none
  receivedAt     := none
  sentAt         := none
  codec          := codec

def elapsed (l : Loop) (now : Nat) : Nat :=
  activeElapsed now l.start l.pausedTotal l.pauseStart

def timedOut (config : ReportLoopConfig) (l : Loop) (now : Nat) : Bool :=
  config.duration ≠ 0 ∧ l.elapsed now ≥ config.duration

-- Pauses can leave the deadline between ticks.
def durationUntil (config : ReportLoopConfig) (l : Loop) : Option Nat :=
  if config.duration = 0 ∨ l.pauseStart.isSome then none else
    some (l.start + l.pausedTotal + config.duration)

def transferComplete (config : ReportLoopConfig) (l : Loop) : Bool :=
  budgetTransferComplete config.direction l.clientFinished l.serverSendDone

def drain (config : ReportLoopConfig) (l : Loop) (now : Nat) : Outcome :=
  let l := {
    l with
    clientFinished := true
    receivedAt     := l.receivedAt.or (some (l.elapsed now))
    drainUntil     := none
  }
  if l.transferComplete config then .leave .drainExpired l else .next l

-- Receive loops of TCP and QUIC may reach their end before the client's `Finish` arrives.
def receiveDone (config : ReportLoopConfig) (l : Loop) (now : Nat) : Outcome :=
  let l := { l with receivedAt := l.receivedAt.or (some (l.elapsed now)) }
  if l.drainUntil.isSome then
    let l := { l with clientFinished := true, drainUntil := none }
    if l.transferComplete config then .leave .received l else .next l
  else
    .next l

def sendingDone (config : ReportLoopConfig) (l : Loop) (now : Nat) : Outcome :=
  let l := { l with serverSendDone := true, sentAt := some (l.elapsed now) }
  if l.transferComplete config then .leave .sent l else .next l

def command (config : ReportLoopConfig) (l : Loop) (now : Nat) : Option ControlCommand → Outcome
  | some .finish =>
    if config.byteBudgetTest ∧ ¬l.clientFinished ∧ l.drainUntil.isNone then
      .next { l with drainUntil := some (now + finishDrainGrace config.protocol) }
    else
      .next l
  | some .cancel => .leave .cancelled { l with cancelled := true }
  | some .pause  => .next { l with pauseStart := l.pauseStart.or (some now) }
  | some .resume =>
    match l.pauseStart with
    | some paused =>
      .next { l with pausedTotal := l.pausedTotal + (now - paused), pauseStart := none }
    | none        => .next l
  | none         => .leave .readerExited l

end Loop

-- What the loop hands over for writing the result.
structure Reporting where
  start          : Nat
  pausedTotal    : Nat
  pauseStart     : Option Nat
  transferEnd    : Option Nat
  codec          : Option ControlWriter
  current        : Option Frame
  pending        : Option Text
  cancelled      : Option Text
  finishDeadline : Nat

-- The terminal messages while they are written, after they were taken out of the reporting.
structure Flush where
  result  : Text
  codec   : ControlWriter
  current : Option Frame
  queue   : List Text

-- How far the report of a test has got: at the head of the loop, waiting in its select, left with
-- an error, or left for good and now and then being flushed.
inductive Phase
  | head (l : Loop)
  | select (l : Loop)
  | failed (failure : Failure)
  | ended (ending : Ending) (endedAt : Nat) (r : Reporting) (flush : Option Flush)

-- A test's report and what it left behind: the bytes on the control stream, the messages which were
-- encoded and their frames, the samples which became messages, what was read at the ticks, when the
-- client finished, and the results which were reported.
structure Report where
  now        : Nat
  streams    : List StreamStats
  recvClosed : Bool
  sendClosed : Bool
  phase      : Phase
  wire       : Bytes
  messages   : List Text
  frames     : List Bytes
  samples    : List Sample
  ticks      : List (List Reading)
  finishedAt : Option Nat
  reported   : List Text

inductive Event
  | head
  | deadline
  | drain
  | receiveDone
  | sendingDone
  | tick (readings : List Reading)
  | command (cmd : Option ControlCommand)
  -- One write of the frame in flight: how many bytes were accepted, or an error.
  | written (accepted : Option Nat)
  | closeReceive
  | closeSend
  | finish (result : Text)
  | encode
  | write (accepted : Option Nat)
  | flushed (ok : Bool)
  | expire

namespace Report

def init (now : Nat) (streams : List StreamStats) (codec : ControlWriter)
    (recvClosed sendClosed : Bool) : Report where
  now        := now
  streams    := streams
  recvClosed := recvClosed
  sendClosed := sendClosed
  phase      := .head (.init now codec)
  wire       := []
  messages   := []
  frames     := []
  samples    := []
  ticks      := []
  finishedAt := none
  reported   := []

variable (aead : Aead) (serialize : ControlMessage → Option Text) (config : ReportLoopConfig)

-- Encodes a message, and remembers it.
def encode (s : Report) (codec : ControlWriter) (text : Text) :
    Except CodecError (Frame × ControlWriter × Report) :=
  match codec.encodeMessage aead text with
  | (.ok bytes, codec) =>
    .ok (⟨bytes, 0⟩, codec, { s with messages := s.messages ++ [text], frames := s.frames ++ [bytes] })
  | (.error e, _)      => .error e

-- The last interval and the notice of a cancelled test, unless one of them cannot be serialized.
def terminal (s : Report) (l : Loop) : Option (Option Text × Option Text) :=
  if l.cancelled then
    (serialize (.cancelled config.id)).map (none, some ·)
  else
    match l.pending with
    | none        => some (none, none)
    | some sample => (serialize (sample.message config s.streams)).map (some ·, none)

def transferEnd (l : Loop) : Option Nat :=
  if l.cancelled ∨ ¬config.byteBudgetTest ∨ ¬l.transferComplete config then none else
    match config.direction with
    | .upload   => l.receivedAt
    | .download => l.sentAt
    | .bidir    => max l.receivedAt l.sentAt

-- A pending sample becomes the last interval, unless the test was cancelled.
def leave (s : Report) (ending : Ending) (l : Loop) : Report :=
  match s.terminal serialize config l with
  | none                   => { s with phase := .failed .serialize }
  | some (pending, notice) =>
    { s with
      samples := s.samples ++ if l.cancelled then [] else l.pending.toList
      phase   := .ended ending s.now {
        start          := l.start
        pausedTotal    := l.pausedTotal
        pauseStart     := l.pauseStart
        transferEnd    := transferEnd config l
        codec          := some l.codec
        current        := l.current
        pending        := pending
        cancelled      := notice
        finishDeadline := s.now + if l.cancelled then CANCEL_FLUSH_TIMEOUT else RESULT_FLUSH_TIMEOUT
      } none }

def settle (s : Report) : Outcome → Report
  | .next l         => { s with phase := .head l }
  | .leave ending l => s.leave serialize config ending l

-- The head of the loop: a pending sample is encoded once the frame before it is written.
def head (s : Report) (l : Loop) : Report :=
  if l.timedOut config s.now then s.leave serialize config .deadline l else
    match l.current, l.pending with
    | none, some sample =>
      match serialize (sample.message config s.streams) with
      | none      => { s with phase := .failed .serialize }
      | some text =>
        match s.encode aead l.codec text with
        | .error e              => { s with phase := .failed (.encode e) }
        | .ok (frame, codec, s) =>
          { s with
            phase   := .select { l with current := some frame, pending := none, codec }
            samples := s.samples ++ [sample] }
    | _, _ => { s with phase := .select l }

-- The final tick coincides with the deadline and takes no sample.
def tick (s : Report) (l : Loop) (readings : List Reading) : Report :=
  if l.timedOut config s.now then s.leave serialize config .deadline l else
    let (sample, streams) := Sample.capture s.streams readings (l.elapsed s.now / 10 ^ 6)
    { s with
      streams := streams
      ticks   := s.ticks ++ [readings]
      phase   := .head { l with pending := some (l.pending.elim sample (·.merge sample)) } }

def command (s : Report) (l : Loop) (cmd : Option ControlCommand) : Report :=
  let finishedAt := if cmd = some .finish then s.finishedAt.or (some s.now) else s.finishedAt
  { s with finishedAt }.settle serialize config (l.command config s.now cmd)

def written (s : Report) (l : Loop) (frame : Frame) : Option Nat → Report
  | none | some 0  => { s with phase := .failed .write }
  | some accepted  =>
    { s with
      wire  := s.wire ++ frame.remaining.take accepted
      phase := .head { l with current := frame.accept accepted } }

-- Takes everything out of the reporting which is still to be written. This works only once.
def finish (s : Report) (ending : Ending) (endedAt : Nat) (r : Reporting) (result : Text) : Report :=
  match r.codec with
  | none       => s
  | some codec =>
    let queue := r.pending.toList ++ r.cancelled.toList ++ [result]
    let taken := { r with codec := none, current := none, pending := none, cancelled := none }
    { s with phase := .ended ending endedAt taken (some ⟨result, codec, r.current, queue⟩) }

-- A terminal message is encoded when the one before it is written.
def flushEncode (s : Report) (f : Flush) : Option (Option Flush × Report) :=
  match f.current, f.queue with
  | none, text :: queue =>
    match s.encode aead f.codec text with
    | .error _              => some (none, s)
    | .ok (frame, codec, s) => some (some { f with codec, current := some frame, queue }, s)
  | _, _ => none

def flushWrite (s : Report) (f : Flush) (frame : Frame) : Option Nat → Option Flush × Report
  | none | some 0  => (none, s)
  | some accepted  =>
    (some { f with current := frame.accept accepted },
      { s with wire := s.wire ++ frame.remaining.take accepted })

-- A write accepts no more than it was offered.
def offered (frame : Frame) (accepted : Option Nat) : Bool :=
  accepted.all (· ≤ frame.remaining.length)

def loopStep (s : Report) (l : Loop) : Event → Option Report
  | .deadline         =>
    if (l.durationUntil config).any (· ≤ s.now) then
      some <| s.leave serialize config .deadline l
    else
      none
  | .drain            =>
    if l.drainUntil.any (· ≤ s.now) then
      some <| s.settle serialize config (l.drain config s.now)
    else
      none
  | .receiveDone      =>
    if s.recvClosed ∧ (l.drainUntil.isSome ∨
        (config.byteBudgetTest ∧ config.protocol ≠ .udp ∧ l.receivedAt.isNone)) then
      some <| s.settle serialize config (l.receiveDone config s.now)
    else
      none
  | .sendingDone      =>
    if s.sendClosed ∧ config.endOnServerSend ∧ ¬l.serverSendDone then
      some <| s.settle serialize config (l.sendingDone config s.now)
    else
      none
  | .tick readings    =>
    if readings.length = s.streams.length then
      some <| s.tick serialize config l readings
    else
      none
  | .command cmd      => some <| s.command serialize config l cmd
  | .written accepted =>
    match l.current with
    | some frame => if offered frame accepted then some <| s.written l frame accepted else none
    | none       => none
  | _ => none

def flushStep (s : Report) (ending : Ending) (endedAt : Nat) (r : Reporting) (f : Flush) :
    Event → Option Report
  | .encode         =>
    (s.flushEncode aead f).map fun (f, s) => { s with phase := .ended ending endedAt r f }
  | .write accepted =>
    match f.current with
    | some frame =>
      if offered frame accepted then
        let (f, s) := s.flushWrite f frame accepted
        some { s with phase := .ended ending endedAt r f }
      else
        none
    | none       => none
  | .flushed ok     =>
    if f.current.isNone ∧ f.queue = [] then
      some { s with
        phase    := .ended ending endedAt r none
        reported := if ok then s.reported ++ [f.result] else s.reported }
    else
      none
  | .expire         =>
    if r.finishDeadline ≤ s.now then
      some { s with phase := .ended ending endedAt r none }
    else
      none
  | _ => none

-- The steps of a report at the given time. Which branch of the select goes ahead, when ticks are
-- due, and how much of a frame is written at once is left open.
def step : System Report (Nat × Event)
  | s, (now, e) =>
    if now < s.now then none else
      let s := { s with now }
      match e, s.phase with
      | .closeReceive,  _                          => some { s with recvClosed := true }
      | .closeSend,     _                          => some { s with sendClosed := true }
      | .head,          .head l                    => some <| s.head aead serialize config l
      | e,              .select l                  => s.loopStep serialize config l e
      | .finish result, .ended ending at' r none   => some <| s.finish ending at' r result
      | e,              .ended ending at' r (some f) => s.flushStep aead ending at' r f e
      | _,              _                          => none

-- What a step can do.
inductive Step (s : Report) : Event → Report → Prop
  | closeReceive : Step s .closeReceive { s with recvClosed := true }
  | closeSend    : Step s .closeSend { s with sendClosed := true }
  | head {l} : s.phase = .head l → Step s .head (s.head aead serialize config l)
  | loop {l e s'} : s.phase = .select l → s.loopStep serialize config l e = some s' → Step s e s'
  | finish {ending endedAt r result} :
    s.phase = .ended ending endedAt r none → Step s (.finish result) (s.finish ending endedAt r result)
  | flush {ending endedAt r f e s'} :
    s.phase = .ended ending endedAt r (some f) → s.flushStep aead ending endedAt r f e = some s' →
    Step s e s'

variable {aead serialize config} {s s' : Report}

theorem step_cases {now : Nat} {e : Event} (h : step aead serialize config s (now, e) = some s') :
    s.now ≤ now ∧ Step aead serialize config { s with now } e s' := by
  unfold step at h
  dsimp only at h
  split at h
  case isTrue => contradiction
  case isFalse hn =>
    refine ⟨Nat.le_of_not_lt hn, ?_⟩
    split at h
    case h_1              => exact Option.some_inj.mp h ▸ .closeReceive
    case h_2              => exact Option.some_inj.mp h ▸ .closeSend
    case h_3 hp           => exact Option.some_inj.mp h ▸ .head hp
    case h_4 hp           => exact .loop hp h
    case h_5 hp           => exact Option.some_inj.mp h ▸ .finish hp
    case h_6 hp           => exact .flush hp h
    case h_7              => contradiction

end Report
