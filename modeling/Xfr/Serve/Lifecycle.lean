import Xfr.Access.Decision
import Xfr.Library.WatchChannel
import Xfr.Serve.AcceptLoop

open Utf8 (Text)

-- What was set up of the configuration before anything is accepted.
structure ServerSetup (ν : Type*) where
  acl           : Acl ν
  presetAcl     : Option (Acl ν)
  rateLimit     : RateLimitConfig
  maxConcurrent : UInt32
  oneOff        : Bool
  enableQuic    : Bool

namespace ServerSetup

variable {ν ε : Type*} (net : IpNetwork ν ε)

def buildPresetAcl (allowedClients : Option (List Text)) : Except (AclError ε) (Option (Acl ν)) :=
  match allowedClients with
  | none         => .ok none
  | some []      => .ok none
  | some clients => some <$> Acl.fromRules net clients []

-- The list of a preset comes on top of the other one.
def admits (setup : ServerSetup ν) (ip : IpAddr) : Bool :=
  setup.acl.isAllowed net ip && setup.presetAcl.all (·.isAllowed net ip)

-- A preset which names clients lets only these in, and one which names none lets in everybody.
theorem admits_preset {net : IpNetwork ν ε} {setup : ServerSetup ν} {clients : List Text}
    {ip : IpAddr} (h : buildPresetAcl net (some clients) = .ok setup.presetAcl) :
    setup.admits net ip ↔ setup.acl.isAllowed net ip ∧
      ∃ networks, clients.mapM (Acl.parseNetwork net) = .ok networks ∧
        (networks = [] ∨ ∃ n ∈ networks, net.contains n ip.normalize) := by
  rw [admits, Bool.and_eq_true]
  refine and_congr_right fun _ => ?_
  unfold buildPresetAcl at h
  split at h
  case h_1 he => cases he
  case h_2 he =>
    obtain rfl := Option.some_inj.mp he
    rw [← Except.ok.inj h]
    exact iff_of_true rfl ⟨[], rfl, .inl rfl⟩
  case h_3 clients' _ he =>
    obtain rfl := Option.some_inj.mp he
    rw [Acl.fromRules] at h
    cases hm : clients.mapM (Acl.parseNetwork net)
    case error e => simp [hm, bind, Except.bind] at h
    case ok networks =>
      simp only [hm, bind, Except.bind, List.mapM_nil] at h
      rw [← Except.ok.inj h, Option.all_some, Acl.isAllowed_iff]
      simp

end ServerSetup

-- Where an accept loop is. Over QUIC it admits a connection itself.
inductive LoopPoint
  | selecting
  | admitting
  | stopped
  deriving DecidableEq

structure LoopTask where
  point : LoopPoint
  seen  : Nat := 0

namespace LoopTask

-- The branch of the shutdown channel, which a loop goes on from if the value is not set. The loop has
-- a sender of its own, so the channel does not close.
def changed (loop : LoopTask) (shutdown : WatchChannel Bool) : Option LoopTask :=
  if loop.point = .selecting then
    match shutdown.changed loop.seen with
    | some (.ok seen) => some { point := if shutdown.value then .stopped else .selecting, seen }
    | _               => none
  else
    none

-- The loop is done with a connection which is handled or was turned away.
def proceed (loop : LoopTask) (c : Connection) : LoopTask :=
  if c.point = .handling ∨ c.point = .ended then { loop with point := .selecting } else loop

end LoopTask

-- What all tasks share. Whether there was a signal of the operator, an error of the listener or an
-- end of the endpoint is only a record.
structure Acceptor where
  listener    : Listener
  connPermits : Nat
  shutdown    : WatchChannel Bool := { value := false }
  tcp         : LoopTask
  quic        : LoopTask
  signalled   : Bool              := false
  failed      : Bool              := false
  closed      : Bool              := false

-- What the first line of a connection has come to. It fails by a timeout, the end of the connection,
-- its length or its text.
inductive FirstLine
  | failed
  | dataHello
  | hello
  | other
  deriving DecidableEq

-- A connection with the task around its handler, which waits for the outcome in one-off mode.
structure ConnectionTask where
  connection : Connection
  connPermit : Bool
  awaited    : Bool
  hello      : Bool                  := false
  outcome    : Option HandlerOutcome := none

inductive ConnectionTaskEvent
  | firstLine (line : FirstLine)
  | connection (e : ConnectionEvent)
  | settle
  deriving DecidableEq

namespace ConnectionEvent

-- Over QUIC these are up to the accept loop.
def isAdmission : ConnectionEvent → Bool
  | .check _ => true
  | .acquire => true
  | _        => false

def outcome : ConnectionEvent → Option HandlerOutcome
  | .finish o => some o
  | _         => none

end ConnectionEvent

namespace ConnectionTask

-- Over TCP a connection is only admitted after a hello.
def mayTake (s : Acceptor) (t : ConnectionTask) (e : ConnectionEvent) : Bool :=
  match t.connection.transport with
  | .tcp  => e ≠ .turnAway ∧ (e.isAdmission → t.hello)
  | .quic => e ≠ .turnAway ∧ (e.isAdmission → s.quic.point = .admitting)

-- The task of the handler is gone, with all it had.
def gone (t : ConnectionTask) : Bool :=
  t.connection.point = .ended ∧ ¬t.connection.guarded ∧ ¬t.connection.permit

def spawned (t : ConnectionTask) : Bool :=
  t.connection.point = .handling ∨ t.outcome.isSome

-- Whether the task around the handler can end. In one-off mode it waits for the handler.
def ready (oneOff : Bool) (t : ConnectionTask) : Bool :=
  match t.connection.transport with
  | .tcp  => t.gone ∨ (t.spawned ∧ ¬oneOff)
  | .quic => t.gone ∧ t.spawned

def take (s : Acceptor) (t : ConnectionTask) (e : ConnectionEvent) (listener : Listener)
    (connection : Connection) : Acceptor × ConnectionTask :=
  let quic := if connection.transport = .quic ∧ e.isAdmission then s.quic.proceed connection else s.quic
  ({ s with listener, quic }, { t with connection, outcome := e.outcome <|> t.outcome })

-- Only a test which was completed is a reason to shut down.
def settle (oneOff : Bool) (s : Acceptor) (t : ConnectionTask) : Acceptor × ConnectionTask :=
  let shutdown := if oneOff ∧ t.outcome = some .success then s.shutdown.send true else s.shutdown
  let connPermits := if t.connPermit then s.connPermits + 1 else s.connPermits
  ({ s with shutdown, connPermits }, { t with connPermit := false, awaited := false })

def step (oneOff : Bool) : System (Acceptor × ConnectionTask) ConnectionTaskEvent
  | (s, t), .firstLine line =>
    if t.connection.transport = .tcp ∧ t.connection.point = .accepted ∧ ¬t.hello then
      match line with
      | .hello => some (s, { t with hello := true })
      | _      => some (s, { t with connection := t.connection.goto .ended })
    else
      none
  | (s, t), .connection e =>
    if t.mayTake s e then
      (Connection.step (s.listener, t.connection) e).map fun (listener, connection) =>
        t.take s e listener connection
    else
      none
  | (s, t), .settle =>
    if t.awaited ∧ t.ready oneOff then some (t.settle oneOff s) else none

end ConnectionTask

inductive LifecycleEvent
  | tcpAccept (peerIp : IpAddr)
  | tcpError
  | tcpChanged
  | signal
  | quicAccept (peerIp : IpAddr)
  | quicClosed
  | quicChanged
  | task (i : Nat) (e : ConnectionTaskEvent)
  | cleanup (now : Nat) (shard : IpAddr → Bool)

-- The server from its first accept until it returns: both accept loops, a task for each connection,
-- the handlers and the shutdown channel.
namespace Lifecycle

variable {ν ε : Type*} (net : IpNetwork ν ε) (setup : ServerSetup ν)

def init : Acceptor × List ConnectionTask :=
  ({
    listener    := ⟨setup.rateLimit.build, setup.maxConcurrent.toNat⟩
    connPermits := setup.maxConcurrent.toNat * 4
    tcp         := { point := .selecting }
    quic        := { point := if setup.enableQuic then .selecting else .stopped }
  }, [])

def step : System (Acceptor × List ConnectionTask) LifecycleEvent
  | (s, ts), .tcpAccept peerIp =>
    if s.tcp.point = .selecting then
      if setup.admits net peerIp ∧ s.connPermits > 0 then
        let t := { connection := { transport := .tcp, peerIp }, connPermit := true, awaited := true }
        some ({ s with connPermits := s.connPermits - 1 }, ts ++ [t])
      else
        some (s, ts)
    else
      none
  | (s, ts), .tcpError =>
    if s.tcp.point = .selecting then
      some ({ s with tcp := { s.tcp with point := .stopped }, failed := true }, ts)
    else
      none
  | (s, ts), .tcpChanged => do
    let tcp ← s.tcp.changed s.shutdown
    return ({ s with tcp }, ts)
  | (s, ts), .signal =>
    if s.tcp.point = .selecting then
      let shutdown := s.shutdown.send true
      some ({ s with shutdown, tcp := { s.tcp with point := .stopped }, signalled := true }, ts)
    else
      none
  | (s, ts), .quicAccept peerIp =>
    if s.quic.point = .selecting then
      if setup.admits net peerIp then
        let t := {
          connection := { transport := .quic, peerIp }
          connPermit := false
          awaited    := setup.oneOff
        }
        some ({ s with quic := { s.quic with point := .admitting } }, ts ++ [t])
      else
        some (s, ts)
    else
      none
  | (s, ts), .quicClosed =>
    if s.quic.point = .selecting then
      some ({ s with quic := { s.quic with point := .stopped }, closed := true }, ts)
    else
      none
  | (s, ts), .quicChanged => do
    let quic ← s.quic.changed s.shutdown
    return ({ s with quic }, ts)
  | s, .task i e             => (ConnectionTask.step setup.oneOff).interleave s (i, e)
  | (s, ts), .cleanup now shard => some ({ s with listener := s.listener.cleanup now shard }, ts)

end Lifecycle
