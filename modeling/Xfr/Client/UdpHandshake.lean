import Xfr.Library.System
import Xfr.Udp.Lanes

def UDP_HELLO_MAX_ATTEMPTS : Nat := 50

def UdpHelloPacket.datagram (pkt : UdpHelloPacket) : Bytes :=
  match pkt.encode with
  | .ok datagram => datagram
  | .error _     => []

theorem UdpHelloPacket.accepted_datagram {pkt : UdpHelloPacket} (known : pkt.IsKnown) :
    accepted UdpHelloPacket.decode pkt.datagram = some pkt := by
  have ⟨out, ho, hl, layout⟩ := UdpHelloPacket.exists_encode (p := pkt)
  have he : out = pkt.datagram := by rw [UdpHelloPacket.datagram, ho]
  exact UdpHelloPacket.decode_reads.accepted_eq_some_iff.mpr (he ▸ ⟨hl, known, layout⟩)

-- How many hellos were tried is counted by the loop.
inductive HandshakePoint
  | sending (attempts : Nat)
  | waiting (attempts : Nat)
  | returned (ok : Bool)
  deriving DecidableEq

-- One stream of a client waits for the socket of the server. It reads what has arrived in `inbox`.
structure UdpHandshake where
  point    : HandshakePoint
  inbox    : List Bytes
  sent     : List Bytes
  consumed : List Bytes

inductive HandshakeEvent
  | send (ok : Bool)
  | retry
  | peek (received : Bool)
  | peekFailed

namespace UdpHandshake

def new : UdpHandshake where
  point    := .sending 0
  inbox    := []
  sent     := []
  consumed := []

def goto (h : UdpHandshake) (point : HandshakePoint) : UdpHandshake :=
  { h with point }

def hello (token : TokenBytes) (streamIndex : UInt16) : UdpHelloPacket where
  kind        := UDP_HELLO_KIND_HELLO
  streamIndex := streamIndex
  token       := token

def arrive (h : UdpHandshake) (datagram : Bytes) : UdpHandshake :=
  { h with inbox := h.inbox ++ [datagram] }

-- A failure to take what was seen off the socket is ignored.
def look (h : UdpHandshake) (token : TokenBytes) (streamIndex : UInt16) (datagram : Bytes)
    (rest : List Bytes) (received : Bool) : UdpHandshake :=
  let seen := peek token streamIndex datagram
  let h    :=
    if seen.consumes ∧ received then
      { h with inbox := rest, consumed := h.consumed ++ [datagram] }
    else
      h
  if seen.completes then h.goto (.returned true) else h

def step (token : TokenBytes) (streamIndex : UInt16) : System UdpHandshake HandshakeEvent
  | h, .send ok =>
    match h.point with
    | .sending n =>
      if ok then
        some { h with
          point := .waiting (n + 1)
          sent  := h.sent ++ [(hello token streamIndex).datagram] }
      else
        some (h.goto (.returned false))
    | _ => none
  | h, .retry =>
    match h.point with
    | .waiting n =>
      some (h.goto (if n < UDP_HELLO_MAX_ATTEMPTS then .sending n else .returned false))
    | _ => none
  | h, .peek received =>
    match h.point, h.inbox with
    | .waiting _, datagram :: rest => some (h.look token streamIndex datagram rest received)
    | _, _                         => none
  | h, .peekFailed =>
    match h.point with
    | .waiting _ => some (h.goto (.returned false))
    | _          => none

end UdpHandshake

-- The hellos which were sent by now.
def HandshakePoint.Allows (sent : Nat) : HandshakePoint → Prop
  | .sending n  => sent ≤ n ∧ n < UDP_HELLO_MAX_ATTEMPTS
  | .waiting n  => sent ≤ n ∧ n ≤ UDP_HELLO_MAX_ATTEMPTS
  | .returned _ => sent ≤ UDP_HELLO_MAX_ATTEMPTS

theorem HandshakePoint.Allows.le {p : HandshakePoint} {sent : Nat} (a : p.Allows sent) :
    sent ≤ UDP_HELLO_MAX_ATTEMPTS := by
  cases p
  case sending  => exact Nat.le_trans a.left (Nat.le_of_lt a.right)
  case waiting  => exact Nat.le_trans a.left a.right
  case returned => exact a

namespace UdpHandshake

-- Only hellos are sent, and only they are taken off the socket.
structure Sound (token : TokenBytes) (streamIndex : UInt16) (h : UdpHandshake) : Prop where
  sent     : ∀ datagram ∈ h.sent, datagram = (hello token streamIndex).datagram
  consumed : ∀ datagram ∈ h.consumed, isHello datagram = true
  attempts : h.point.Allows h.sent.length

namespace Sound

variable {token : TokenBytes} {streamIndex : UInt16} {h h' : UdpHandshake} {e : HandshakeEvent}

theorem new : new.Sound token streamIndex where
  sent     := by simp [UdpHandshake.new]
  consumed := by simp [UdpHandshake.new]
  attempts := by simp [UdpHandshake.new, HandshakePoint.Allows, UDP_HELLO_MAX_ATTEMPTS]

theorem goto {p : HandshakePoint} (s : h.Sound token streamIndex) (a : p.Allows h.sent.length) :
    (h.goto p).Sound token streamIndex :=
  { s with attempts := a }

theorem consume {datagram : Bytes} {inbox : List Bytes} (s : h.Sound token streamIndex)
    (hello : isHello datagram = true) :
    Sound token streamIndex { h with inbox, consumed := h.consumed ++ [datagram] } := by
  refine { s with consumed := fun d hd => ?_ }
  cases List.mem_append.mp hd
  case inl hd => exact s.consumed d hd
  case inr hd => exact List.mem_singleton.mp hd ▸ hello

theorem isHello_of_consumes {datagram : Bytes}
    (h : (peek token streamIndex datagram).consumes = true) : isHello datagram = true := by
  unfold peek at h
  split at h
  case isTrue hh => exact hh
  case isFalse   => contradiction

theorem look {datagram : Bytes} {rest : List Bytes} {received : Bool}
    (s : h.Sound token streamIndex) :
    (h.look token streamIndex datagram rest received).Sound token streamIndex := by
  unfold UdpHandshake.look
  dsimp only
  have kept : Sound token streamIndex
      (if (peek token streamIndex datagram).consumes ∧ received then
        { h with inbox := rest, consumed := h.consumed ++ [datagram] } else h) := by
    split
    case isTrue hc => exact s.consume (isHello_of_consumes hc.left)
    case isFalse   => exact s
  split
  case isTrue  => exact kept.goto kept.attempts.le
  case isFalse => exact kept

theorem step (s : h.Sound token streamIndex)
    (hs : UdpHandshake.step token streamIndex h e = some h') : h'.Sound token streamIndex := by
  have attempts := s.attempts
  cases e
  all_goals
    unfold UdpHandshake.step at hs
    dsimp only at hs
  case send ok =>
    split at hs
    case h_2 => contradiction
    case h_1 n hp =>
      rw [hp] at attempts
      have ⟨hl, hn⟩ := attempts
      cases ok
      case false => exact Option.some_inj.mp hs ▸ s.goto (Nat.le_trans hl hn.le)
      case true =>
        refine Option.some_inj.mp hs ▸ { s with sent := fun d hd => ?_, attempts := ?_ }
        · cases List.mem_append.mp hd
          case inl hd => exact s.sent d hd
          case inr hd => exact List.mem_singleton.mp hd
        · simp only [HandshakePoint.Allows, List.length_append, List.length_singleton]
          omega
  case retry =>
    split at hs
    case h_2 => contradiction
    case h_1 n hp =>
      rw [hp] at attempts
      rw [← Option.some_inj.mp hs]
      split
      case isTrue hn => exact s.goto ⟨attempts.left, hn⟩
      case isFalse   => exact s.goto (Nat.le_trans attempts.left attempts.right)
  case peek received =>
    split at hs
    case h_1 => exact Option.some_inj.mp hs ▸ s.look
    case h_2 => contradiction
  case peekFailed =>
    split at hs
    case h_1 => exact Option.some_inj.mp hs ▸ s.goto attempts.le
    case h_2 => contradiction

theorem arrive {datagram : Bytes} (s : h.Sound token streamIndex) :
    (h.arrive datagram).Sound token streamIndex :=
  { s with }

end Sound

-- A handshake only returns with success because of a datagram.
theorem step_heard {token : TokenBytes} {streamIndex : UInt16} {h h' : UdpHandshake}
    {e : HandshakeEvent} (hs : step token streamIndex h e = some h')
    (heard : h'.inbox ≠ [] ∨ h'.point = .returned true) :
    h.inbox ≠ [] ∨ h.point = .returned true := by
  cases e
  all_goals
    unfold step at hs
    dsimp only at hs
  case send ok =>
    split at hs
    case h_2 => contradiction
    case h_1 =>
      cases ok
      all_goals
        obtain rfl := Option.some_inj.mp hs
        exact .inl (heard.resolve_right (by simp [goto]))
  case retry =>
    split at hs
    case h_2 => contradiction
    case h_1 =>
      obtain rfl := Option.some_inj.mp hs
      refine .inl (heard.resolve_right ?_)
      simp only [goto]
      split <;> simp
  case peek =>
    split at hs
    case h_1 hi => exact .inl (by simp [hi])
    case h_2    => contradiction
  case peekFailed =>
    split at hs
    case h_2 => contradiction
    case h_1 =>
      obtain rfl := Option.some_inj.mp hs
      exact .inl (heard.resolve_right (by simp [goto]))

end UdpHandshake
