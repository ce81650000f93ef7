import Xfr.Library.Interleaving
import Xfr.Budget.Basic
import Xfr.Serve.RateLimit

-- The window is in seconds here, and in nanoseconds everywhere else.
structure RateLimitConfig where
  maxPerIp   : Option Nat := none
  windowSecs : Nat        := 60

def RateLimitConfig.build (c : RateLimitConfig) : Option RateLimiter :=
  c.maxPerIp.map (.new · (c.windowSecs * 10 ^ 9))

-- What the tasks of all connections share: the limiter, and the permits of the handlers.
structure Listener where
  rateLimiter : Option RateLimiter
  permits     : Nat

namespace Listener

-- A connection gets through without a slot if there is no limiter.
def check (l : Listener) (ip : IpAddr) (now : Nat) : Listener × Except RateLimitError Bool :=
  match l.rateLimiter with
  | none   => (l, .ok false)
  | some r =>
    match r.check ip now with
    | (r', .ok ())   => ({ l with rateLimiter := some r' }, .ok true)
    | (r', .error e) => ({ l with rateLimiter := some r' }, .error e)

def release (l : Listener) (ip : IpAddr) : Listener :=
  { l with rateLimiter := l.rateLimiter.map (·.release ip) }

def cleanup (l : Listener) (now : Nat) (shard : IpAddr → Bool) : Listener :=
  { l with rateLimiter := l.rateLimiter.map (·.cleanup now shard) }

end Listener

inductive HandlerOutcome
  | success
  | error
  | panic
  deriving DecidableEq

-- Where the task of a connection is in its code. Over TCP the limiter comes before the permit, over
-- QUIC it is the other way round.
inductive ConnectionPoint
  | accepted
  | checked
  | permitted
  | handling
  | handled
  | ended
  deriving DecidableEq

-- Over TCP a guard releases the slot. Whether there was an admission and the number of releases are
-- only a record.
structure Connection where
  transport : Transport
  peerIp    : IpAddr
  point     : ConnectionPoint := .accepted
  permit    : Bool            := false
  guarded   : Bool            := false
  admitted  : Bool            := false
  releases  : Nat             := 0

inductive ConnectionEvent
  -- By an access list, by the limit for new connections, or by what is in the first line.
  | turnAway
  | check (now : Nat)
  | acquire
  | finish (outcome : HandlerOutcome)
  | release
  | dropGuard
  | dropPermit
  deriving DecidableEq

namespace Connection

def goto (c : Connection) (point : ConnectionPoint) : Connection :=
  { c with point }

def enter (c : Connection) (slot : Bool) : Connection :=
  match c.transport with
  | .tcp  => { c with point := .checked, admitted := slot, guarded := slot }
  | .quic => { c with point := .handling, admitted := slot }

def acquire (c : Connection) : Connection :=
  match c.transport with
  | .tcp  => { c with point := .handling, permit := true }
  | .quic => { c with point := .permitted, permit := true }

-- Over QUIC the slot is released behind the handler, where a panic does not get to.
def finish (c : Connection) (outcome : HandlerOutcome) : Connection :=
  match c.transport, outcome with
  | .tcp,  _      => c.goto .ended
  | .quic, .panic => c.goto .ended
  | .quic, _      => c.goto .handled

def step : System (Listener × Connection) ConnectionEvent
  | (l, c), e =>
    match c.point, c.transport, e with
    | .accepted,  _,     .turnAway  => some (l, c.goto .ended)
    | .accepted,  .tcp,  .check now
    | .permitted, .quic, .check now =>
      match l.check c.peerIp now with
      | (l', .ok slot) => some (l', c.enter slot)
      | (l', .error _) => some (l', c.goto .ended)
    | .checked,   .tcp,  .acquire
    | .accepted,  .quic, .acquire   =>
      if l.permits > 0 then
        some ({ l with permits := l.permits - 1 }, c.acquire)
      else
        some (l, c.goto .ended)
    | .handling,  _,     .finish o  => some (l, c.finish o)
    | .handled,   .quic, .release   =>
      let releases := if l.rateLimiter.isSome then c.releases + 1 else c.releases
      some (l.release c.peerIp, { c with point := .ended, releases })
    | .ended,     _,     .dropGuard =>
      if c.guarded then
        some (l.release c.peerIp, { c with guarded := false, releases := c.releases + 1 })
      else
        none
    | .ended,     _,     .dropPermit =>
      if c.permit ∧ ¬c.guarded then
        some ({ l with permits := l.permits + 1 }, { c with permit := false })
      else
        none
    | _,          _,     _          => none

end Connection

inductive AcceptEvent
  | accept (transport : Transport) (peerIp : IpAddr)
  | connection (i : Nat) (e : ConnectionEvent)
  | cleanup (now : Nat) (shard : IpAddr → Bool)

-- The two accept loops, the tasks of their connections, and the cleanup task.
namespace AcceptLoop

def init (config : RateLimitConfig) (maxConcurrent : Nat) : Listener × List Connection :=
  (⟨config.build, maxConcurrent⟩, [])

def step : System (Listener × List Connection) AcceptEvent
  | (l, cs), .accept transport peerIp  => some (l, cs ++ [{ transport, peerIp }])
  | s,       .connection i e           => Connection.step.interleave s (i, e)
  | (l, cs), .cleanup now shard        => some (l.cleanup now shard, cs)

end AcceptLoop
