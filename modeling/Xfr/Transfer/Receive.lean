import Xfr.Budget.Basic

-- The kinds of read errors which a receive loop tells apart.
inductive ReadErrorKind
  | wouldBlock
  | connectionReset
  | brokenPipe
  | connectionAborted
  | other
  deriving DecidableEq

def ReadErrorKind.isPeerClosedError : ReadErrorKind → Bool
  | connectionReset | brokenPipe | connectionAborted => true
  | wouldBlock | other                               => false

def shouldEndReceiveAfterError (kind : ReadErrorKind) (cancelRequested expectedTeardown : Bool) :
    Bool :=
  cancelRequested || (expectedTeardown && kind.isPeerClosedError)

-- Times are in nanoseconds.
def SEND_TEARDOWN_GRACE : Nat := 250000000

def RECEIVE_CANCEL_DRAIN_GRACE : Nat := 200000000

-- Whether the deadline is reached, and whether it is near. An infinite test has none.
def receiveTeardownWindow (start now duration : Nat) : Bool × Bool :=
  if duration = 0 then
    (false, false)
  else
    let deadline := start + duration
    let deadlineReached := now ≥ deadline
    (deadlineReached,
      ¬deadlineReached ∧ duration > SEND_TEARDOWN_GRACE ∧ deadline - now ≤ SEND_TEARDOWN_GRACE)

inductive ReadResult
  | data (n : Nat)
  | eof
  | error (kind : ReadErrorKind)
  deriving DecidableEq

inductive ReceiveEnd
  | eof
  | cancelled
  | teardown
  | failed (kind : ReadErrorKind)
  deriving DecidableEq

inductive ReceivePoint
  | reading
  | draining (deadline : Nat)
  | ended (how : ReceiveEnd)
  deriving DecidableEq

-- A receive loop, with the counter of its stream. The loops for a TCP stream and for the half of one
-- are the same but for what they hand back.
structure ReceiveLoop where
  transport                : Transport
  bufferLen                : Nat
  start                    : Nat
  duration                 : Nat
  bytesReceived            : Nat
  suppressedTeardownErrors : Nat
  point                    : ReceivePoint
  deriving DecidableEq

inductive ReceiveEvent
  | read (result : ReadResult)
  -- The cancel channel has a new value, or there is nobody left to send one.
  | cancelChanged (closed : Bool)
  | graceElapsed
  deriving DecidableEq

namespace ReceiveLoop

def new (transport : Transport) (bufferLen start duration : Nat) : ReceiveLoop where
  transport                := transport
  bufferLen                := bufferLen
  start                    := start
  duration                 := duration
  bytesReceived            := 0
  suppressedTeardownErrors := 0
  point                    := .reading

def receiveData (config : TcpConfig) (start duration : Nat) : ReceiveLoop :=
  new .tcp config.bufferSize start duration

def receiveDataHalf (config : TcpConfig) (start duration : Nat) : ReceiveLoop :=
  new .tcp config.bufferSize start duration

def receiveQuicData (start : Nat) : ReceiveLoop :=
  new .quic DEFAULT_BUFFER_SIZE start 0

def goto (l : ReceiveLoop) (point : ReceivePoint) : ReceiveLoop :=
  { l with point }

def addBytesReceived (l : ReceiveLoop) (n : Nat) : ReceiveLoop :=
  { l with bytesReceived := U64.wrappingAdd l.bytesReceived n }

-- A TCP stream which is cancelled is drained before it is dropped.
def stop (l : ReceiveLoop) (now : Nat) : ReceiveLoop :=
  match l.transport with
  | .tcp  => l.goto (.draining (now + RECEIVE_CANCEL_DRAIN_GRACE))
  | .quic => l.goto (.ended .cancelled)

def readFailed (l : ReceiveLoop) (cancel : Bool) (now : Nat) (kind : ReadErrorKind) : ReceiveLoop :=
  match l.transport with
  | .quic => l.goto (.ended (.failed kind))
  | .tcp  =>
    if kind = .wouldBlock then l else
      let (deadlineReached, nearDeadline) := receiveTeardownWindow l.start now l.duration
      let expectedTeardown := deadlineReached || nearDeadline
      if shouldEndReceiveAfterError kind cancel expectedTeardown then
        let l :=
          if kind.isPeerClosedError then
            { l with suppressedTeardownErrors := l.suppressedTeardownErrors + 1 }
          else
            l
        if cancel then l.stop now else l.goto (.ended .teardown)
      else
        l.goto (.ended (.failed kind))

-- A read never returns more than the buffer holds, and zero bytes only at the end of the stream.
def step (cancel : Bool) (now : Nat) : System ReceiveLoop ReceiveEvent
  | l, e =>
    match l.point, e with
    | .reading,           .read (.data n)      =>
      if 0 < n ∧ n ≤ l.bufferLen then some (l.addBytesReceived n) else none
    | .reading,           .read .eof           => some (l.goto (.ended .eof))
    | .reading,           .read (.error kind)  => some (l.readFailed cancel now kind)
    | .reading,           .cancelChanged closed =>
      some (if closed || cancel then l.stop now else l)
    -- What is drained is not counted.
    | .draining deadline, .read (.data n)      =>
      if now < deadline ∧ 0 < n ∧ n ≤ 16 * 1024 then some l else none
    | .draining _,        .read .eof           => some (l.goto (.ended .cancelled))
    | .draining deadline, .read (.error kind)  =>
      if kind = .wouldBlock ∧ now < deadline then some l else some (l.goto (.ended .cancelled))
    | .draining deadline, .graceElapsed        =>
      if deadline ≤ now then some (l.goto (.ended .cancelled)) else none
    | _,                  _                    => none

-- How the counter and the point are related to what was taken from the stream.
inductive Effect (l : ReceiveLoop) : ReceiveEvent → ReceiveLoop → Prop
  | count (n : Nat) : l.point = .reading → Effect l (.read (.data n)) (l.addBytesReceived n)
  | drain (n deadline : Nat) : l.point = .draining deadline → Effect l (.read (.data n)) l
  | eof : l.point = .reading → Effect l (.read .eof) (l.goto (.ended .eof))
  | stay {e : ReceiveEvent} : (∀ n, e ≠ .read (.data n)) → Effect l e l
  | leave {e : ReceiveEvent} {l' : ReceiveLoop} : (∀ n, e ≠ .read (.data n)) →
    l'.bytesReceived = l.bytesReceived → l'.point ≠ .reading → l'.point ≠ .ended .eof →
    Effect l e l'

variable {l l' : ReceiveLoop} {cancel : Bool} {now : Nat} {kind : ReadErrorKind} {e : ReceiveEvent}

theorem stop_frame : (l.stop now).bytesReceived = l.bytesReceived ∧
    (l.stop now).point ≠ .reading ∧ (l.stop now).point ≠ .ended .eof := by
  unfold stop
  split <;> exact ⟨rfl, by simp [goto], by simp [goto]⟩

theorem readFailed_cases : l.readFailed cancel now kind = l ∨
    (l.readFailed cancel now kind).bytesReceived = l.bytesReceived ∧
      (l.readFailed cancel now kind).point ≠ .reading ∧
      (l.readFailed cancel now kind).point ≠ .ended .eof := by
  unfold readFailed
  split
  case h_1 => exact .inr ⟨rfl, by simp [goto], by simp [goto]⟩
  case h_2 =>
    split
    case isTrue => exact .inl rfl
    case isFalse =>
      dsimp only
      split
      case isFalse => exact .inr ⟨rfl, by simp [goto], by simp [goto]⟩
      case isTrue  =>
        right
        cases cancel
        case true  => cases kind.isPeerClosedError <;> exact stop_frame
        case false =>
          cases kind.isPeerClosedError <;> exact ⟨rfl, by simp [goto], by simp [goto]⟩

theorem step_effect (h : step cancel now l e = some l') : Effect l e l' := by
  unfold step at h
  dsimp only at h
  split at h
  case h_1 hp =>
    obtain ⟨_, h⟩ := Option.ite_none_right_eq_some.mp h
    cases h
    exact .count _ hp
  case h_2 hp =>
    cases h
    exact .eof hp
  case h_3 kind hp =>
    cases h
    rcases (readFailed_cases : l.readFailed cancel now kind = l ∨ _) with h | h
    case inl => rw [h]; exact .stay (by simp)
    case inr => exact .leave (by simp) h.left h.right.left h.right.right
  case h_4 closed hp =>
    cases h
    split
    case isTrue  => exact .leave (by simp) stop_frame.left stop_frame.right.left stop_frame.right.right
    case isFalse => exact .stay (by simp)
  case h_5 deadline n hp =>
    obtain ⟨_, h⟩ := Option.ite_none_right_eq_some.mp h
    cases h
    exact .drain _ _ hp
  case h_6 =>
    cases h
    exact .leave (by simp) rfl (by simp [goto]) (by simp [goto])
  case h_7 =>
    split at h
    case isTrue  => cases h; exact .stay (by simp)
    case isFalse => cases h; exact .leave (by simp) rfl (by simp [goto]) (by simp [goto])
  case h_8 =>
    obtain ⟨_, h⟩ := Option.ite_none_right_eq_some.mp h
    cases h
    exact .leave (by simp) rfl (by simp [goto]) (by simp [goto])
  case h_9 => contradiction

end ReceiveLoop
