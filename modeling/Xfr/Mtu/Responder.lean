import Xfr.Mtu.RunProbe

open Buffer (Has)
open RunProbe (Received)

-- The acknowledgement of a stream in single-port mode, as it was encoded for the responder.
structure HelloAck where
  packet : UdpHelloPacket
  bytes  : Bytes
  kind   : packet.kind = UDP_HELLO_KIND_ACK
  encode : packet.encode = .ok bytes

namespace MtuProbes

-- Nothing is sent of a packet which does not fit into the buffer.
def send (pkt : ProbePacket) (sendBuf : Bytes) : Checked (List Bytes × Bytes) := do
  let (len, sendBuf) ← pkt.encode sendBuf
  return ((len.map sendBuf.take).toList, sendBuf)

-- A hello which is retried, since its acknowledgement was lost.
def isRetried (singlePortAck : Option HelloAck) (data : Bytes) : Checked Bool :=
  match singlePortAck with
  | none   => return false
  | some _ => do
    let pkt ← UdpHelloPacket.decode data
    return pkt.any (·.kind = UDP_HELLO_KIND_HELLO)

-- The replies to a datagram. It makes no difference to the responder if they cannot be sent.
def respond (singlePortAck : Option HelloAck) (sendBuf data : Bytes) :
    Checked (List Bytes × Bytes) := do
  let data := cutOff data
  if ← isRetried singlePortAck data then
    return ((singlePortAck.map (·.bytes)).toList, sendBuf)
  else
    match ← ProbePacket.decode data with
    | none     => return ([], sendBuf)
    | some pkt =>
      if pkt.kind ≠ PROBE_KIND_PROBE then
        return ([], sendBuf)
      else
        let (acks,   sendBuf) ← send ⟨PROBE_KIND_ACK, pkt.seq, pkt.declaredSize⟩ sendBuf
        let (echoes, sendBuf) ← send ⟨PROBE_KIND_ECHO, pkt.seq, pkt.declaredSize⟩ sendBuf
        return (acks ++ echoes, sendBuf)

-- The replies to each of the datagrams.
def respondAll (singlePortAck : Option HelloAck) (sendBuf : Bytes) :
    List Received → Checked (List (List Bytes))
  | []                        => return []
  | .failed :: received       => do
    let replies ← respondAll singlePortAck sendBuf received
    return [] :: replies
  | .datagram data :: received => do
    let (reply, sendBuf) ← respond singlePortAck sendBuf data
    let replies ← respondAll singlePortAck sendBuf received
    return reply :: replies

def respondMtuProbes (singlePortAck : Option HelloAck) (received : List Received) :
    Checked (List (List Bytes)) :=
  respondAll singlePortAck (List.replicate MAX_PROBE_PAYLOAD 0) received

def IsProbe (data : Bytes) : Prop :=
  ∃ pkt, ProbePacket.decode (cutOff data) = .ok (some pkt) ∧ pkt.kind = PROBE_KIND_PROBE

def IsHello (data : Bytes) : Prop :=
  ∃ pkt, UdpHelloPacket.decode (cutOff data) = .ok (some pkt) ∧ pkt.kind = UDP_HELLO_KIND_HELLO

-- What no responder replies to.
def IsSilent (data : Bytes) : Prop :=
  ¬IsProbe data ∧ ¬IsHello data

variable {singlePortAck : Option HelloAck} {sendBuf data reply : Bytes} {pkt : ProbePacket}
  {hello : UdpHelloPacket} {received : List Received}

theorem cutOff_length_le (data : Bytes) : (cutOff data).length ≤ data.length :=
  List.length_take_le' ..

-- Of a packet, the header is never cut off.
theorem silent_of_probe (h : pkt.Layout data) (hk : pkt.kind ≠ PROBE_KIND_PROBE) :
    IsSilent data := by
  have layout : pkt.Layout (cutOff data) := h.take (by decide)
  constructor
  · rintro ⟨pkt', hd, hk'⟩
    have ⟨_, _, _, layout'⟩ := ProbePacket.decode_reads.eq_some_iff.mp hd
    exact hk (layout.inj layout' ▸ hk')
  · rintro ⟨hello, hd, _⟩
    have ⟨_, _, layout'⟩ := UdpHelloPacket.decode_reads.eq_some_iff.mp hd
    exact absurd (layout.magic.inj layout'.magic (by decide)) (by decide)

theorem silent_of_hello (h : hello.Layout data) (hl : data.length = UDP_HELLO_SIZE)
    (hk : hello.kind ≠ UDP_HELLO_KIND_HELLO) : IsSilent data := by
  have hc : cutOff data = data := List.take_of_length_le (hl ▸ (by decide))
  constructor
  · rintro ⟨pkt, hd, _⟩
    have ⟨_, _, _, layout'⟩ := ProbePacket.decode_reads.eq_some_iff.mp hd
    rw [hc] at layout'
    exact absurd (h.magic.inj layout'.magic (by decide)) (by decide)
  · rintro ⟨hello', hd, hk'⟩
    have ⟨_, _, layout'⟩ := UdpHelloPacket.decode_reads.eq_some_iff.mp hd
    rw [hc] at layout'
    exact hk (h.inj layout' ▸ hk')

theorem isRetried_iff : ∃ retried, isRetried singlePortAck (cutOff data) = .ok retried ∧
    (retried = true ↔ singlePortAck.isSome ∧ IsHello data) := by
  cases singlePortAck
  case none => exact ⟨false, rfl, by simp⟩
  case some ack =>
    have ⟨read, hr⟩ := UdpHelloPacket.decode_reads.total (cutOff data)
    refine ⟨read.any (·.kind = UDP_HELLO_KIND_HELLO), by simp only [isRetried, hr]; rfl, ?_⟩
    simp [IsHello, hr, Option.any_eq_true]

theorem respond_silent (h : IsSilent data) (singlePortAck : Option HelloAck) (sendBuf : Bytes) :
    respond singlePortAck sendBuf data = .ok ([], sendBuf) := by
  have ⟨retried, hr, hi⟩ := @isRetried_iff singlePortAck data
  simp only [respond, hr, bind, Except.bind]
  cases retried
  case true => exact absurd (hi.mp rfl).right h.right
  case false =>
    cases ProbePacket.decode_reads.cases (cutOff data)
    case inl hn => simp only [hn.left]; rfl
    case inr hd =>
      have ⟨pkt, hd, _⟩ := hd
      have hk : pkt.kind ≠ PROBE_KIND_PROBE := fun hk => h.left ⟨pkt, hd, hk⟩
      simp only [hd, ne_eq, hk, not_false_eq_true, if_true]
      rfl

def size (replies : List Bytes) : Nat :=
  (replies.map List.length).sum

theorem size_append {replies replies' : List Bytes} :
    size (replies ++ replies') = size replies + size replies' := by
  rw [size, List.map_append, List.sum_append]
  rfl

theorem send_spec (hm : PROBE_HEADER_SIZE ≤ pkt.wireLen) (sendBuf : Bytes) :
    ∃ replies out, send pkt sendBuf = .ok (replies, out) ∧ size replies ≤ pkt.wireLen ∧
      ∀ reply ∈ replies, pkt.Layout reply := by
  by_cases hr : pkt.wireLen ≤ sendBuf.length
  case pos =>
    obtain ⟨out, he, hl, layout⟩ := pkt.exists_encode hm hr
    refine ⟨[out.take pkt.wireLen], out, by simp only [send, he]; rfl, ?_, ?_⟩
    · simp [size]
    · intro reply h
      exact List.mem_singleton.mp h ▸ layout.take hm
  case neg =>
    have he : pkt.encode sendBuf = .ok (none, sendBuf) := by
      simp [ProbePacket.encode, Nat.lt_of_not_le hr]
      rfl
    exact ⟨[], sendBuf, by simp only [send, he]; rfl, Nat.zero_le _, by simp⟩

-- What may come of a datagram.
structure Replies (singlePortAck : Option HelloAck) (data : Bytes) (replies : List Bytes) : Prop where
  size_le : size replies ≤ data.length + PROBE_HEADER_SIZE
  elicits : replies ≠ [] → IsProbe data ∨ (singlePortAck.isSome ∧ IsHello data)
  silent  : ∀ reply ∈ replies, ∀ other sendBuf, respond other sendBuf reply = .ok ([], sendBuf)

theorem Replies.nil : Replies singlePortAck data [] where
  size_le := Nat.zero_le _
  elicits := nofun
  silent  := nofun

-- An ack has the size of a hello.
theorem Replies.ofHello {ack : HelloAck} (h : IsHello data) : Replies (some ack) data [ack.bytes] := by
  have ⟨out, he, hl, layout⟩ := UdpHelloPacket.exists_encode (p := ack.packet)
  have ho : out = ack.bytes := by simpa [he] using ack.encode
  rw [ho] at hl layout
  exact {
    size_le := by
      have ⟨_, hd, _⟩ := h
      have ⟨hn, _⟩ := UdpHelloPacket.decode_reads.eq_some_iff.mp hd
      have := cutOff_length_le data
      simp only [size, List.map_singleton, List.sum_singleton]
      omega
    elicits := fun _ => .inr ⟨rfl, h⟩
    silent  := by
      intro reply hr
      have hk : ack.packet.kind ≠ UDP_HELLO_KIND_HELLO := ack.kind ▸ (by decide)
      exact List.mem_singleton.mp hr ▸ respond_silent (silent_of_hello layout hl hk)
  }

theorem respond_spec : ∃ replies out, respond singlePortAck sendBuf data = .ok (replies, out) ∧
    Replies singlePortAck data replies := by
  have ⟨retried, hr, hi⟩ := @isRetried_iff singlePortAck data
  simp only [respond, hr, bind, Except.bind]
  cases retried
  case true =>
    have ⟨hs, h⟩ := hi.mp rfl
    have ⟨ack, ha⟩ := Option.isSome_iff_exists.mp hs
    exact ⟨_, sendBuf, rfl, ha ▸ .ofHello h⟩
  case false =>
    cases ProbePacket.decode_reads.cases (cutOff data)
    case inl h => exact ⟨[], sendBuf, by simp [h.left]; rfl, .nil⟩
    case inr h =>
      have ⟨pkt, hd, hn, known, fits, _⟩ := h
      simp only [hd]
      by_cases hk : pkt.kind = PROBE_KIND_PROBE
      case neg => exact ⟨[], sendBuf, by simp [hk]; rfl, .nil⟩
      case pos =>
        have ⟨hm, hl⟩ := fits (.inl hk)
        let ack  : ProbePacket := ⟨PROBE_KIND_ACK,  pkt.seq, pkt.declaredSize⟩
        let echo : ProbePacket := ⟨PROBE_KIND_ECHO, pkt.seq, pkt.declaredSize⟩
        have hm : PROBE_HEADER_SIZE ≤ echo.wireLen := hm
        have ⟨acks, out, ha, sa, la⟩ := send_spec (Nat.le_refl ack.wireLen) sendBuf
        have ⟨echoes, out', he, se, le⟩ := send_spec hm out
        refine ⟨acks ++ echoes, out', by simp [hk, ack, echo, ha, he]; rfl, ?_, ?_, ?_⟩
        · have sa : size acks ≤ PROBE_HEADER_SIZE := sa
          have se : size echoes ≤ pkt.declaredSize.toNat := se
          have hc := cutOff_length_le data
          rw [size_append]
          omega
        · exact fun _ => .inl ⟨pkt, hd, hk⟩
        · intro reply h
          cases List.mem_append.mp h
          case inl h =>
            exact respond_silent <| silent_of_probe (la reply h)
              (show PROBE_KIND_ACK ≠ PROBE_KIND_PROBE by decide)
          case inr h =>
            exact respond_silent <| silent_of_probe (le reply h)
              (show PROBE_KIND_ECHO ≠ PROBE_KIND_PROBE by decide)

-- What may come of whatever the socket receives.
def Answers (singlePortAck : Option HelloAck) : Received → List Bytes → Prop
  | .failed,        replies => replies = []
  | .datagram data, replies => Replies singlePortAck data replies

theorem respondAll_answers : ∃ replies, respondAll singlePortAck sendBuf received = .ok replies ∧
    List.Forall₂ (Answers singlePortAck) received replies := by
  induction received generalizing sendBuf
  case nil => exact ⟨[], rfl, .nil⟩
  case cons event received hi =>
    cases event
    case failed =>
      have ⟨replies, hr, ha⟩ := @hi sendBuf
      exact ⟨[] :: replies, by simp only [respondAll, hr]; rfl, .cons rfl ha⟩
    case datagram data =>
      have ⟨reply, out, he, h⟩ : ∃ reply out, respond singlePortAck sendBuf data = .ok (reply, out) ∧
          Replies singlePortAck data reply := respond_spec
      have ⟨replies, hr, ha⟩ := @hi out
      refine ⟨reply :: replies, ?_, .cons h ha⟩
      simp only [respondAll, he, bind, Except.bind, hr]
      rfl

-- Whatever arrives, the responder stays within its buffers, its replies to a datagram are hardly larger
-- than the datagram, and none of them is replied to by any responder. It only replies to probes, and in
-- single-port mode to hellos.
theorem respondMtuProbes_sound (singlePortAck : Option HelloAck) (received : List Received) :
    ∃ replies, respondMtuProbes singlePortAck received = .ok replies ∧
      List.Forall₂ (Answers singlePortAck) received replies :=
  respondAll_answers

-- A hello is no probe.
theorem hello_elicits : ∃ (singlePortAck : HelloAck) (data reply : Bytes),
    respondMtuProbes (some singlePortAck) [.datagram data] = .ok [[reply]] ∧ ¬IsProbe data := by
  let token : TokenBytes := Vector.replicate 16 0
  refine ⟨⟨⟨UDP_HELLO_KIND_ACK, 0, token⟩, _, rfl, rfl⟩, [0, 88, 70, 82, 1, 1] ++ List.replicate 18 0,
    _, rfl, ?_⟩
  rintro ⟨pkt, hd, _⟩
  exact nomatch (show Except.ok none = Except.ok (some pkt) from hd)

end MtuProbes
