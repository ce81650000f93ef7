import Xfr.Budget.Rounding

-- How a send loop is over.
inductive LoopExit
  | spent
  | stopped
  | failed
  deriving DecidableEq

-- The send loops of a byte-budget test, as far as their stream tasks know them. Some events are
-- only there once the test is cancelled. What is left of a budget may be too small to be sent.
structure SendKind where
  Loop      : Type
  Event     : Type
  step      : System (ByteBudget × Loop) Event
  exit      : Loop → Option LoopExit
  cancels   : Event → Bool
  delivered : Loop → Nat
  slack     : Nat

namespace SendLoop

def exit (l : SendLoop) : Option LoopExit :=
  match l.point with
  | .spent               => some .spent
  | .interrupted .failed => some .failed
  | .interrupted _       => some .stopped
  | _                    => none

def cancels : SendEvent → Bool
  | .cancel | .cancelChanged _ | .paced true => true
  | _                                        => false

end SendLoop

namespace UdpSendLoop

-- A datagram which cannot be sent does not end the loop.
def exit (l : UdpSendLoop) : Option LoopExit :=
  match l.point with
  | .spent _     => some .spent
  | .interrupted => some .stopped
  | _            => none

def cancels : UdpSendEvent → Bool
  | .cancel | .cancelChanged _ => true
  | _                          => false

end UdpSendLoop

namespace SendKind

-- TCP and QUIC.
abbrev streams : SendKind where
  Loop      := SendLoop
  Event     := SendEvent
  step      := SendLoop.step
  exit      := SendLoop.exit
  cancels   := SendLoop.cancels
  delivered := SendLoop.written
  slack     := 1

abbrev datagrams : SendKind where
  Loop      := UdpSendLoop
  Event     := UdpSendEvent
  step      := UdpSendLoop.step
  exit      := UdpSendLoop.exit
  cancels   := UdpSendLoop.cancels
  delivered := UdpSendLoop.bytesSent
  slack     := UDP_HEADER_SIZE

end SendKind

inductive TaskStage
  | opening
  | sending
  | ended
  deriving DecidableEq

-- The task of a stream which sends. It holds a clone of the sender of the sending-done channel until
-- it has ended.
structure StreamTask (kind : SendKind) where
  loop  : kind.Loop
  stage : TaskStage

inductive TaskEvent (kind : SendKind)
  -- The connection is refused, the socket cannot be bound or configured, the handshake fails or the
  -- stream cannot be opened.
  | refuse
  | enter
  | send (e : kind.Event)
  -- The send loop is over, and so is the receive half if the task has one.
  | leave

namespace StreamTask

variable {kind : SendKind} {b b' : ByteBudget} {t t' : StreamTask kind} {e : TaskEvent kind}
  {cancelled : Bool}

def spawn (loop : kind.Loop) : StreamTask kind where
  loop  := loop
  stage := .opening

def ended (t : StreamTask kind) : Bool :=
  t.stage = .ended

-- A task which ended before its send loop, or with an error of it.
def failed (t : StreamTask kind) : Bool :=
  t.ended ∧ (kind.exit t.loop = none ∨ kind.exit t.loop = some .failed)

def step (cancelled : Bool) : System (ByteBudget × StreamTask kind) (TaskEvent kind)
  | (b, t), e =>
    match t.stage, e with
    | .opening, .refuse => some (b, { t with stage := .ended })
    | .opening, .enter  => some (b, { t with stage := .sending })
    | .sending, .send e =>
      if kind.cancels e ∧ ¬cancelled then
        none
      else
        (kind.step (b, t.loop) e).map fun (b, loop) => (b, { t with loop })
    | .sending, .leave  =>
      if (kind.exit t.loop).isSome then some (b, { t with stage := .ended }) else none
    | _,        _       => none

-- The loop only moves while the task is sending, and it is over when the task leaves it.
inductive Step (b : ByteBudget) (t : StreamTask kind) : ByteBudget → StreamTask kind → Prop
  | refuse : t.stage = .opening → Step b t b { t with stage := .ended }
  | enter  : t.stage = .opening → Step b t b { t with stage := .sending }
  | send {e : kind.Event} {b' : ByteBudget} {loop : kind.Loop} :
    t.stage = .sending → kind.step (b, t.loop) e = some (b', loop) →
    Step b t b' { t with loop }
  | leave {how : LoopExit} :
    t.stage = .sending → kind.exit t.loop = some how → Step b t b { t with stage := .ended }

theorem step_cases (h : step cancelled (b, t) e = some (b', t')) : Step b t b' t' := by
  unfold step at h
  dsimp only at h
  split at h
  case h_1 hs =>
    cases h
    exact .refuse hs
  case h_2 hs =>
    cases h
    exact .enter hs
  case h_3 e hs =>
    split at h
    case isTrue  => contradiction
    case isFalse =>
      have ⟨⟨_, _⟩, hl, h⟩ := Option.map_eq_some_iff.mp h
      cases h
      exact .send hs hl
  case h_4 hs =>
    have ⟨hx, h⟩ := Option.ite_none_right_eq_some.mp h
    have ⟨_, hx⟩ := Option.isSome_iff_exists.mp hx
    cases h
    exact .leave hs hx
  case h_5 => contradiction

theorem step_of_ended (h : step cancelled (b, t) e = some (b', t')) : t.ended = false := by
  cases step_cases h
  all_goals simp [ended, *]

end StreamTask

-- How the client's run ends. With a result it is reported as a normal completion.
inductive ClientOutcome
  | result
  | error
  deriving DecidableEq

inductive ClientControl
  | spawning
  | looping
  | returned (outcome : ClientOutcome)
  deriving DecidableEq

-- The control loop of a client and its stream tasks, in a byte-budget test whose client sends.
structure BudgetRun (kind : SendKind) where
  budget     : ByteBudget
  tasks      : List (StreamTask kind)
  cancelled  : Bool
  control    : ClientControl
  finishSent : Bool
  finishes   : Nat

inductive ClientEvent (kind : SendKind)
  | task (i : Nat) (e : TaskEvent kind)
  -- The user cancels the test, or it is over by the local clock.
  | cancel
  -- All stream tasks are there, and the loop gives its own sender away.
  | spawned
  | sendingDone
  | result
  -- An error of the server, the end of the control stream or a timeout. Setting up the streams may
  -- also fail.
  | error

namespace BudgetRun

variable {kind : SendKind}

-- The senders of the sending-done channel. Nothing is ever sent on it.
def senders (s : BudgetRun kind) : Nat :=
  (if s.control = .spawning then 1 else 0) + s.tasks.countP (!·.ended)

-- After its return the loop cancels the tasks which still run and waits for them. Nothing is sent to
-- the server from there on.
def step : System (BudgetRun kind) (ClientEvent kind)
  | s, e =>
    match s.control, e with
    | .returned _, _            => none
    | _,           .task i e    =>
      ((StreamTask.step s.cancelled).interleave (s.budget, s.tasks) (i, e)).map
        fun (budget, tasks) => { s with budget, tasks }
    | _,           .cancel      => some { s with cancelled := true }
    | .spawning,   .spawned     => some { s with control := .looping }
    | .looping,    .sendingDone =>
      if s.senders = 0 ∧ ¬s.finishSent then
        some { s with finishSent := true, finishes := s.finishes + 1 }
      else
        none
    | .looping,    .result      => some { s with control := .returned .result }
    | _,           .error       => some { s with control := .returned .error }
    | _,           _            => none

end BudgetRun

-- The two ways to send a budget, with the send loops of the client.
inductive ByteTest
  | streams (senders : List Sender)
  | datagrams (packetSize : PayloadSize) (modes : List (UInt64 × Bool))

namespace ByteTest

abbrev kind : ByteTest → SendKind
  | streams _     => .streams
  | datagrams _ _ => .datagrams

def loops : (test : ByteTest) → List test.kind.Loop
  | streams senders            => senders.map Sender.start
  | datagrams packetSize modes => ByteBudget.senders packetSize modes

def start (test : ByteTest) (total : UInt64) : BudgetRun test.kind where
  budget     := .new total
  tasks      := test.loops.map .spawn
  cancelled  := false
  control    := .spawning
  finishSent := false
  finishes   := 0

end ByteTest
