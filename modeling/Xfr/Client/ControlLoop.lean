import Xfr.Library.System
import Xfr.Budget.Basic
import Xfr.Session.Message

open Utf8 (Text)

-- In nanoseconds, as all times here.
def CONTROL_CANCEL_RESULT_TIMEOUT : Nat := 3 * 10 ^ 9

-- What a test of a client fixes before its control loop starts.
structure ClientRun where
  transport      : Transport
  testId         : Text
  duration       : Nat
  supportsPause  : Bool
  finishOnBudget : Bool
  serialize      : Message → Except Text Text

-- The loop is at its select, or in a write, which is given up at a time if it has a limit.
inductive ControlPoint
  | select
  | write (limit : Option Nat)
  deriving DecidableEq

-- The deadline which the last cancel has fixed is only a record.
structure ControlLoop where
  now               : Nat
  point             : ControlPoint                := .select
  deadline          : Nat
  pauseStartedAt    : Option Nat                  := none
  localEndDeadline  : Option Nat                  := none
  localStopSent     : Bool                        := false
  finishSent        : Bool                        := false
  cancelRequestOpen : Bool                        := true
  pauseRequestOpen  : Bool                        := true
  cancelTx          : Bool                        := false
  pauseTx           : Bool                        := false
  written           : List Text                   := []
  outcome           : Option (Except Text Message) := none
  cancelDeadline    : Option Nat                  := none

-- The branches of the select. What only paces the display is left out.
inductive ControlArm
  | eof
  | readError (e : Text)
  | message (m : Message)
  | readerGone
  | cancelRequest (cancel : Bool)
  | cancelRequestDropped
  | pauseRequest (paused : Bool)
  | pauseRequestDropped
  | localEnd
  | sendingDone
  | deadline

-- What is computed takes no time.
inductive ControlEvent
  -- Nothing happens before the time.
  | wait (until' : Nat)
  -- A branch is taken, up to the write of its message.
  | arm (a : ControlArm)
  -- A write is done, has failed or is given up.
  | written

namespace ClientRun

def localStopDeadline (start duration : Nat) : Option Nat :=
  if duration = 0 then none else some (start + duration)

-- A test without a duration is waited for a year. Only TCP stops its streams by itself.
def start (run : ClientRun) (now : Nat) : ControlLoop where
  now
  deadline         :=
    now + if run.duration = 0 then 365 * 24 * 3600 * 10 ^ 9 else run.duration + 30 * 10 ^ 9
  localEndDeadline :=
    match run.transport with
    | .tcp  => localStopDeadline now run.duration
    | .quic => none

end ClientRun

namespace ControlLoop

def break' (s : ControlLoop) (outcome : Except Text Message) : ControlLoop :=
  { s with outcome := some outcome }

def startControlCancelWait (s : ControlLoop) : ControlLoop :=
  { s with
    deadline       := s.now + CONTROL_CANCEL_RESULT_TIMEOUT
    pauseStartedAt := none
    cancelDeadline := some (s.now + CONTROL_CANCEL_RESULT_TIMEOUT) }

-- How the write comes to its end does not matter, but a write without a limit may never come to it.
def writeMessage (s : ControlLoop) (limit : Option Nat) (line : Text) : ControlLoop :=
  { s with point := .write limit, written := s.written ++ [line] }

-- The write and the wait for the result share one deadline.
def sendControlCancel (s : ControlLoop) (line : Text) : ControlLoop :=
  { s.startControlCancelWait with cancelTx := true }.writeMessage
    (some s.startControlCancelWait.deadline) line

-- Over QUIC every break stops the streams first, and so does an acknowledged cancel.
def stopStreams (run : ClientRun) (s : ControlLoop) : ControlLoop :=
  match run.transport with
  | .tcp  => s
  | .quic => { s with cancelTx := true }

def onMessage (run : ClientRun) (s : ControlLoop) : Message → ControlLoop
  | .result id     => (s.stopStreams run).break' (.ok (.result id))
  | .error message => (s.stopStreams run).break' (.error ("Server error: ".toList ++ message))
  | .cancelled _   => (s.stopStreams run).startControlCancelWait
  | _              => s

def onCancelRequest (run : ClientRun) (s : ControlLoop) : ControlLoop :=
  match run.serialize (.cancel run.testId "User requested cancellation".toList) with
  | .ok line => s.sendControlCancel line
  | .error e =>
    match run.transport with
    | .tcp  => s.break' (.error ("Failed to serialize cancel message: ".toList ++ e))
    | .quic => (s.stopStreams run).break' (.error e)

-- The pause which ends is not charged against the deadlines.
def togglePause (s : ControlLoop) (paused : Bool) : ControlLoop :=
  let s :=
    if paused then
      if s.pauseStartedAt.isNone then { s with pauseStartedAt := some s.now } else s
    else
      match s.pauseStartedAt with
      | none         => s
      | some started =>
        { s with
          pauseStartedAt   := none
          deadline         := s.deadline + (s.now - started)
          localEndDeadline := s.localEndDeadline.map (· + (s.now - started)) }
  { s with pauseTx := paused }

def onPauseRequest (run : ClientRun) (s : ControlLoop) (paused : Bool) : ControlLoop :=
  let s := s.togglePause paused
  if run.supportsPause then
    match run.serialize (if paused then .pause run.testId else .resume run.testId) with
    | .ok line => s.writeMessage none line
    | .error e =>
      match run.transport with
      | .tcp  => s.break' (.error ("Failed to serialize pause/resume message: ".toList ++ e))
      | .quic => (s.stopStreams run).break' (.error e)
  else
    s

def onSendingDone (run : ClientRun) (s : ControlLoop) : ControlLoop :=
  let s := { s with finishSent := true }
  match run.serialize (.finish run.testId) with
  | .ok line => s.writeMessage none line
  | .error _ => s

-- A branch which is enabled and ready. The branches are tried in an order which is random.
def arm (run : ClientRun) (s : ControlLoop) : ControlArm → Option ControlLoop
  | .eof | .readerGone =>
    some <| (s.stopStreams run).break' (.error "Connection closed without result".toList)
  | .readError e          => some <| (s.stopStreams run).break' (.error e)
  | .message m            => some <| s.onMessage run m
  | .cancelRequest cancel =>
    if s.cancelRequestOpen then some (if cancel then s.onCancelRequest run else s) else none
  | .cancelRequestDropped =>
    if s.cancelRequestOpen then some { s with cancelRequestOpen := false } else none
  | .pauseRequest paused  =>
    if s.pauseRequestOpen then some (s.onPauseRequest run paused) else none
  | .pauseRequestDropped  =>
    if s.pauseRequestOpen then some { s with pauseRequestOpen := false } else none
  | .localEnd             =>
    if ¬s.localStopSent ∧ s.localEndDeadline.any (· ≤ s.now) ∧ s.pauseStartedAt.isNone then
      some { s with localStopSent := true, cancelTx := true }
    else
      none
  | .sendingDone          =>
    if run.finishOnBudget ∧ ¬s.finishSent then some (s.onSendingDone run) else none
  | .deadline             =>
    if s.pauseStartedAt.isNone ∧ s.deadline ≤ s.now then
      some <| (s.stopStreams run).break' (.error "Timeout waiting for server response".toList)
    else
      none

-- The times at which the loop goes on by itself.
def timers (s : ControlLoop) : List Nat :=
  match s.point with
  | .write limit => limit.toList
  | .select      =>
    if s.pauseStartedAt.isSome then
      []
    else
      s.deadline :: if s.localStopSent then [] else s.localEndDeadline.toList

-- While a write is blocked, the loop looks at nothing else.
def step (run : ClientRun) : System ControlLoop ControlEvent
  | s, e =>
    if s.outcome.isSome then none else
      match e, s.point with
      | .wait t, _         =>
        if s.now < t ∧ ∀ timer ∈ s.timers, t ≤ timer then some { s with now := t } else none
      | .arm a, .select    => s.arm run a
      | .written, .write _ => some { s with point := .select }
      | _, _               => none

end ControlLoop
