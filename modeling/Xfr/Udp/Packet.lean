import Xfr.Budget.Udp
import Xfr.Feedback.Basic
import Xfr.Library.Buffer

open Buffer (Has Segment)

-- Encoders yield the buffer as they leave it, and decoders refuse a packet with `none`.
abbrev Checked (α : Type) := Except OutOfBounds α

section Integers

variable {part : Bytes}

theorem toBe_uint16 (h : part.length = 2) :
    Bytes.toBe 2 (UInt16.ofNat (Bytes.ofBe part)).toNat = part := by
  have hb := @Bytes.ofBe_lt part
  rw [h] at hb
  rw [UInt16.toNat_ofNat_of_lt' hb, ← h, Bytes.toBe_ofBe]

theorem toBe_uint32 (h : part.length = 4) :
    Bytes.toBe 4 (UInt32.ofNat (Bytes.ofBe part)).toNat = part := by
  have hb := @Bytes.ofBe_lt part
  rw [h] at hb
  rw [UInt32.toNat_ofNat_of_lt' hb, ← h, Bytes.toBe_ofBe]

theorem toBe_uint64 (h : part.length = 8) :
    Bytes.toBe 8 (UInt64.ofNat (Bytes.ofBe part)).toNat = part := by
  have hb := @Bytes.ofBe_lt part
  rw [h] at hb
  rw [UInt64.toNat_ofNat_of_lt' hb, ← h, Bytes.toBe_ofBe]

theorem ofBe_lt (h : part.length = 8) : Bytes.ofBe part < 2 ^ 64 := by
  have hb := @Bytes.ofBe_lt part
  rwa [h] at hb

theorem toBe_ofBe (h : part.length = 8) : Bytes.toBe 8 (Bytes.ofBe part) = part := by
  rw [← h, Bytes.toBe_ofBe]

theorem toBe_inj {n m : Nat} (hn : n < 2 ^ 64) (hm : m < 2 ^ 64)
    (h : Bytes.toBe 8 n = Bytes.toBe 8 m) : n = m := by
  have hn : n % 256 ^ 8 = n := Nat.mod_eq_of_lt hn
  have hm : m % 256 ^ 8 = m := Nat.mod_eq_of_lt hm
  rw [← hn, ← hm, ← Bytes.ofBe_toBe, h, Bytes.ofBe_toBe]

theorem ofBe_uint16 {n : UInt16} : UInt16.ofNat (Bytes.ofBe (Bytes.toBe 2 n.toNat)) = n := by
  have hn : n.toNat < 256 ^ 2 := n.toNat_lt
  rw [Bytes.ofBe_toBe, Nat.mod_eq_of_lt hn, UInt16.ofNat_toNat]

theorem ofBe_uint32 {n : UInt32} : UInt32.ofNat (Bytes.ofBe (Bytes.toBe 4 n.toNat)) = n := by
  have hn : n.toNat < 256 ^ 4 := n.toNat_lt
  rw [Bytes.ofBe_toBe, Nat.mod_eq_of_lt hn, UInt32.ofNat_toNat]

theorem ofBe_uint64 {n : UInt64} : UInt64.ofNat (Bytes.ofBe (Bytes.toBe 8 n.toNat)) = n := by
  have hn : n.toNat < 256 ^ 8 := n.toNat_lt
  rw [Bytes.ofBe_toBe, Nat.mod_eq_of_lt hn, UInt64.ofNat_toNat]

theorem uint16_inj {n m : UInt16} (h : Bytes.toBe 2 n.toNat = Bytes.toBe 2 m.toNat) : n = m := by
  rw [← @ofBe_uint16 n, h, ofBe_uint16]

theorem uint32_inj {n m : UInt32} (h : Bytes.toBe 4 n.toNat = Bytes.toBe 4 m.toNat) : n = m := by
  rw [← @ofBe_uint32 n, h, ofBe_uint32]

theorem uint64_inj {n m : UInt64} (h : Bytes.toBe 8 n.toNat = Bytes.toBe 8 m.toNat) : n = m := by
  rw [← @ofBe_uint64 n, h, ofBe_uint64]

end Integers

def UDP_FEEDBACK_SIZE : Nat := 36
def UDP_FEEDBACK_MAGIC : Bytes := Bytes.ascii "XFRF"
def UDP_FEEDBACK_VERSION : UInt8 := 1
def UDP_FEEDBACK_KIND_RECEIVER_PROGRESS : UInt8 := 1

namespace UdpFeedbackPacket

-- The flags and two more bytes are reserved.
def segments (p : UdpFeedbackPacket) : List Segment := [
  ⟨0, 4, UDP_FEEDBACK_MAGIC⟩,
  ⟨4, 5, [UDP_FEEDBACK_VERSION]⟩,
  ⟨5, 6, [UDP_FEEDBACK_KIND_RECEIVER_PROGRESS]⟩,
  ⟨6, 8, Bytes.toBe 2 0⟩,
  ⟨8, 10, Bytes.toBe 2 p.streamId.toNat⟩,
  ⟨10, 12, Bytes.toBe 2 0⟩,
  ⟨12, 20, Bytes.toBe 8 p.elapsedMs.toNat⟩,
  ⟨20, 28, Bytes.toBe 8 p.packetsReceived⟩,
  ⟨28, 36, Bytes.toBe 8 p.packetsLost⟩]

def encode (p : UdpFeedbackPacket) (buffer : Bytes) : Checked (Bool × Bytes) := do
  if buffer.length < UDP_FEEDBACK_SIZE then return (false, buffer)
  let buffer ← Buffer.copyAll buffer p.segments
  return (true, buffer)

def decode (buffer : Bytes) : Checked (Option UdpFeedbackPacket) := do
  if buffer.length ≠ UDP_FEEDBACK_SIZE then return none
  if (← Buffer.slice buffer 0 4) ≠ UDP_FEEDBACK_MAGIC then return none
  if (← Buffer.get buffer 4) ≠ UDP_FEEDBACK_VERSION then return none
  if (← Buffer.get buffer 5) ≠ UDP_FEEDBACK_KIND_RECEIVER_PROGRESS then return none
  let streamId ← Buffer.slice buffer 8 10
  let elapsedMs ← Buffer.slice buffer 12 20
  let packetsReceived ← Buffer.slice buffer 20 28
  let packetsLost ← Buffer.slice buffer 28 36
  return some {
    streamId        := UInt16.ofNat (Bytes.ofBe streamId)
    elapsedMs       := UInt64.ofNat (Bytes.ofBe elapsedMs)
    packetsReceived := Bytes.ofBe packetsReceived
    packetsLost     := Bytes.ofBe packetsLost }

-- What a packet looks like in a buffer. The rest is reserved.
structure Layout (p : UdpFeedbackPacket) (buffer : Bytes) : Prop where
  magic           : Has buffer 0 UDP_FEEDBACK_MAGIC
  version         : Has buffer 4 [UDP_FEEDBACK_VERSION]
  kind            : Has buffer 5 [UDP_FEEDBACK_KIND_RECEIVER_PROGRESS]
  streamId        : Has buffer 8 (Bytes.toBe 2 p.streamId.toNat)
  elapsedMs       : Has buffer 12 (Bytes.toBe 8 p.elapsedMs.toNat)
  packetsReceived : Has buffer 20 (Bytes.toBe 8 p.packetsReceived)
  packetsLost     : Has buffer 28 (Bytes.toBe 8 p.packetsLost)

-- Counters have 64 bits.
def Fits (p : UdpFeedbackPacket) : Prop :=
  p.packetsReceived < 2 ^ 64 ∧ p.packetsLost < 2 ^ 64

variable {p : UdpFeedbackPacket} {buffer : Bytes}

@[simp]
theorem length_magic : UDP_FEEDBACK_MAGIC.length = 4 := by
  decide

theorem ascending_segments (h : 36 ≤ buffer.length) :
    Buffer.Ascending buffer.length 0 p.segments := by
  simp [Buffer.Ascending, segments]
  omega

theorem exists_encode (h : UDP_FEEDBACK_SIZE ≤ buffer.length) :
    ∃ out, p.encode buffer = .ok (true, out) ∧ out.length = buffer.length ∧ p.Layout out := by
  have ⟨out, ho, hl, hs, _⟩ := Buffer.exists_copyAll (ascending_segments (p := p) h)
  refine ⟨out, ?_, hl, ?_⟩
  · simp [encode, Nat.not_lt.mpr h, ho, bind, Except.bind, pure, Except.pure]
  · simp only [segments, List.forall_mem_cons] at hs
    have ⟨magic, version, kind, _, streamId, _, elapsedMs, packetsReceived, packetsLost, _⟩ := hs
    exact ⟨magic, version, kind, streamId, elapsedMs, packetsReceived, packetsLost⟩

theorem decode_cases (hl : buffer.length = UDP_FEEDBACK_SIZE) :
    (decode buffer = .ok none ∧ ∀ p, ¬(Fits p ∧ Layout p buffer)) ∨
    ∃ p, decode buffer = .ok (some p) ∧ Fits p ∧ Layout p buffer := by
  have hn : buffer.length = 36 := hl
  have ⟨magic, em, lm, hm⟩ := @Buffer.exists_slice buffer 0 4 (by omega)
  have ⟨version, ev, hv⟩ := @Buffer.exists_get buffer 4 (by omega)
  have ⟨kind, ek, hk⟩ := @Buffer.exists_get buffer 5 (by omega)
  have ⟨streamId, es, ls, hs⟩ := @Buffer.exists_slice buffer 8 10 (by omega)
  have ⟨elapsedMs, ee, le, he⟩ := @Buffer.exists_slice buffer 12 20 (by omega)
  have ⟨packetsReceived, er, lr, hr⟩ := @Buffer.exists_slice buffer 20 28 (by omega)
  have ⟨packetsLost, el, ll, ho⟩ := @Buffer.exists_slice buffer 28 36 (by omega)
  by_cases hd : magic = UDP_FEEDBACK_MAGIC ∧ version = UDP_FEEDBACK_VERSION ∧
      kind = UDP_FEEDBACK_KIND_RECEIVER_PROGRESS
  case pos =>
    obtain ⟨rfl, rfl, rfl⟩ := hd
    refine .inr ⟨⟨UInt16.ofNat (Bytes.ofBe streamId), UInt64.ofNat (Bytes.ofBe elapsedMs),
      Bytes.ofBe packetsReceived, Bytes.ofBe packetsLost⟩, ?_, ⟨ofBe_lt lr, ofBe_lt ll⟩,
      hm, hv, hk, ?_, ?_, ?_, ?_⟩
    · simp [decode, hl, em, ev, ek, es, ee, er, el, bind, Except.bind, pure, Except.pure]
    · exact (toBe_uint16 ls).symm ▸ hs
    · exact (toBe_uint64 le).symm ▸ he
    · exact (toBe_ofBe lr).symm ▸ hr
    · exact (toBe_ofBe ll).symm ▸ ho
  case neg =>
    refine .inl ⟨?_, fun p ⟨_, h⟩ => hd ⟨hm.inj h.magic (by simp [lm]), ?_, ?_⟩⟩
    · simp only [decode, hl, em, ev, ek, es, ee, er, el, bind, Except.bind, pure, Except.pure]
      grind
    · exact (List.cons.inj (hv.inj h.version rfl)).left
    · exact (List.cons.inj (hk.inj h.kind rfl)).left

theorem Layout.inj {p p' : UdpFeedbackPacket} (hp : Fits p) (hp' : Fits p')
    (h : Layout p buffer) (h' : Layout p' buffer) : p = p' := by
  have hs := uint16_inj <| h.streamId.inj h'.streamId (by simp)
  have he := uint64_inj <| h.elapsedMs.inj h'.elapsedMs (by simp)
  have hr := toBe_inj hp.left hp'.left <| h.packetsReceived.inj h'.packetsReceived (by simp)
  have hl := toBe_inj hp.right hp'.right <| h.packetsLost.inj h'.packetsLost (by simp)
  cases p
  cases p'
  simp_all

theorem decode_reads : Reads decode fun p buffer =>
    buffer.length = UDP_FEEDBACK_SIZE ∧ Fits p ∧ Layout p buffer where
  cases buffer := by
    by_cases hl : buffer.length = UDP_FEEDBACK_SIZE
    case pos => simpa [hl] using decode_cases hl
    case neg => exact .inl ⟨by simp [decode, hl]; rfl, fun _ h => hl h.left⟩
  inj h h' := h.right.right.inj h.right.left h'.right.left h'.right.right

end UdpFeedbackPacket

def UDP_HELLO_MAGIC : Bytes := 0 :: Bytes.ascii "XFR"
def UDP_HELLO_SIZE : Nat := 24
def UDP_HELLO_VERSION : UInt8 := 1
def UDP_HELLO_KIND_HELLO : UInt8 := 1
def UDP_HELLO_KIND_ACK : UInt8 := 2
def UDP_HELLO_TOKEN_LEN : Nat := 16

abbrev TokenBytes := Vector UInt8 UDP_HELLO_TOKEN_LEN

structure UdpHelloPacket where
  kind        : UInt8
  streamIndex : UInt16
  token       : TokenBytes
  deriving DecidableEq

namespace UdpHelloPacket

def segments (p : UdpHelloPacket) : List Segment := [
  ⟨0, 4, UDP_HELLO_MAGIC⟩,
  ⟨4, 5, [UDP_HELLO_VERSION]⟩,
  ⟨5, 6, [p.kind]⟩,
  ⟨6, 8, Bytes.toBe 2 p.streamIndex.toNat⟩,
  ⟨8, 24, p.token.toList⟩]

def encode (p : UdpHelloPacket) : Checked Bytes :=
  Buffer.copyAll (List.replicate UDP_HELLO_SIZE 0) p.segments

def decode (buffer : Bytes) : Checked (Option UdpHelloPacket) := do
  if buffer.length ≠ UDP_HELLO_SIZE then return none
  if (← Buffer.slice buffer 0 4) ≠ UDP_HELLO_MAGIC then return none
  if (← Buffer.get buffer 4) ≠ UDP_HELLO_VERSION then return none
  let kind ← Buffer.get buffer 5
  if ¬(kind = UDP_HELLO_KIND_HELLO ∨ kind = UDP_HELLO_KIND_ACK) then return none
  let streamIndex ← Buffer.slice buffer 6 8
  let token ← Buffer.slice buffer 8 24
  if h : token.length = UDP_HELLO_TOKEN_LEN then
    return some {
      kind
      streamIndex := UInt16.ofNat (Bytes.ofBe streamIndex)
      token       := ⟨token.toArray, h⟩ }
  else
    return none

structure Layout (p : UdpHelloPacket) (buffer : Bytes) : Prop where
  magic       : Has buffer 0 UDP_HELLO_MAGIC
  version     : Has buffer 4 [UDP_HELLO_VERSION]
  kind        : Has buffer 5 [p.kind]
  streamIndex : Has buffer 6 (Bytes.toBe 2 p.streamIndex.toNat)
  token       : Has buffer 8 p.token.toList

-- The kinds of packets there are.
def IsKnown (p : UdpHelloPacket) : Prop :=
  p.kind = UDP_HELLO_KIND_HELLO ∨ p.kind = UDP_HELLO_KIND_ACK

variable {p : UdpHelloPacket} {buffer : Bytes}

@[simp]
theorem length_magic : UDP_HELLO_MAGIC.length = 4 := by
  decide

theorem exists_encode :
    ∃ out, p.encode = .ok out ∧ out.length = UDP_HELLO_SIZE ∧ p.Layout out := by
  have ha : Buffer.Ascending (List.replicate UDP_HELLO_SIZE (0 : UInt8)).length 0 p.segments := by
    simp [Buffer.Ascending, segments, UDP_HELLO_SIZE]
    rfl
  have ⟨out, ho, hl, hs, _⟩ := Buffer.exists_copyAll ha
  refine ⟨out, ho, hl.trans (by simp), ?_⟩
  simp only [segments, List.forall_mem_cons] at hs
  have ⟨magic, version, kind, streamIndex, token, _⟩ := hs
  exact ⟨magic, version, kind, streamIndex, token⟩

theorem decode_cases (hl : buffer.length = UDP_HELLO_SIZE) :
    (decode buffer = .ok none ∧ ∀ p, ¬(IsKnown p ∧ Layout p buffer)) ∨
    ∃ p, decode buffer = .ok (some p) ∧ IsKnown p ∧ Layout p buffer := by
  have hn : buffer.length = 24 := hl
  have ⟨magic, em, lm, hm⟩ := @Buffer.exists_slice buffer 0 4 (by omega)
  have ⟨version, ev, hv⟩ := @Buffer.exists_get buffer 4 (by omega)
  have ⟨kind, ek, hk⟩ := @Buffer.exists_get buffer 5 (by omega)
  have ⟨streamIndex, es, ls, hs⟩ := @Buffer.exists_slice buffer 6 8 (by omega)
  have ⟨token, et, lt, ht⟩ := @Buffer.exists_slice buffer 8 24 (by omega)
  have lt : token.length = UDP_HELLO_TOKEN_LEN := lt
  by_cases hd : magic = UDP_HELLO_MAGIC ∧ version = UDP_HELLO_VERSION ∧
      (kind = UDP_HELLO_KIND_HELLO ∨ kind = UDP_HELLO_KIND_ACK)
  case pos =>
    obtain ⟨rfl, rfl, known⟩ := hd
    refine .inr ⟨⟨kind, UInt16.ofNat (Bytes.ofBe streamIndex), ⟨token.toArray, lt⟩⟩, ?_, known, hm,
      hv, hk, (toBe_uint16 ls).symm ▸ hs, ht⟩
    simp [decode, hl, em, ev, ek, es, et, lt, known, bind, Except.bind, pure, Except.pure]
  case neg =>
    refine .inl ⟨?_, fun p ⟨known, h⟩ => hd ⟨hm.inj h.magic (by simp [lm]), ?_, ?_⟩⟩
    · simp only [decode, hl, em, ev, ek, es, et, bind, Except.bind, pure, Except.pure]
      grind
    · exact (List.cons.inj (hv.inj h.version rfl)).left
    · exact (List.cons.inj (hk.inj h.kind rfl)).left ▸ known

theorem Layout.inj {p p' : UdpHelloPacket} (h : Layout p buffer) (h' : Layout p' buffer) :
    p = p' := by
  have hk := h.kind.inj h'.kind rfl
  have hs := uint16_inj <| h.streamIndex.inj h'.streamIndex (by simp)
  have ht := Vector.toList_inj.mp <| h.token.inj h'.token (by simp)
  cases p
  cases p'
  simp_all

theorem decode_reads : Reads decode fun p buffer =>
    buffer.length = UDP_HELLO_SIZE ∧ IsKnown p ∧ Layout p buffer where
  cases buffer := by
    by_cases hl : buffer.length = UDP_HELLO_SIZE
    case pos => simpa [hl] using decode_cases hl
    case neg => exact .inl ⟨by simp [decode, hl]; rfl, fun _ h => hl h.left⟩
  inj h h' := h.right.right.inj h'.right.right

end UdpHelloPacket

structure UdpPacketHeader where
  sequence    : UInt64
  timestampUs : UInt64
  deriving DecidableEq

namespace UdpPacketHeader

def segments (p : UdpPacketHeader) : List Segment := [
  ⟨0, 8, Bytes.toBe 8 p.sequence.toNat⟩,
  ⟨8, 16, Bytes.toBe 8 p.timestampUs.toNat⟩]

def encode (p : UdpPacketHeader) (buffer : Bytes) : Checked (Bool × Bytes) := do
  if buffer.length < UDP_HEADER_SIZE then return (false, buffer)
  let buffer ← Buffer.copyAll buffer p.segments
  return (true, buffer)

def decode (buffer : Bytes) : Checked (Option UdpPacketHeader) := do
  if buffer.length < UDP_HEADER_SIZE then return none
  let sequence ← Buffer.slice buffer 0 8
  let timestampUs ← Buffer.slice buffer 8 16
  return some {
    sequence    := UInt64.ofNat (Bytes.ofBe sequence)
    timestampUs := UInt64.ofNat (Bytes.ofBe timestampUs) }

-- The payload follows.
structure Layout (p : UdpPacketHeader) (buffer : Bytes) : Prop where
  sequence    : Has buffer 0 (Bytes.toBe 8 p.sequence.toNat)
  timestampUs : Has buffer 8 (Bytes.toBe 8 p.timestampUs.toNat)

variable {p : UdpPacketHeader} {buffer : Bytes}

theorem exists_encode (h : UDP_HEADER_SIZE ≤ buffer.length) :
    ∃ out, p.encode buffer = .ok (true, out) ∧ out.length = buffer.length ∧ p.Layout out := by
  have ha : Buffer.Ascending buffer.length 0 p.segments := by
    simp [Buffer.Ascending, segments]
    simp [UDP_HEADER_SIZE] at h
    omega
  have ⟨out, ho, hl, hs, _⟩ := Buffer.exists_copyAll ha
  refine ⟨out, ?_, hl, ?_⟩
  · simp [encode, Nat.not_lt.mpr h, ho, bind, Except.bind, pure, Except.pure]
  · simp only [segments, List.forall_mem_cons] at hs
    exact ⟨hs.left, hs.right.left⟩

theorem exists_decode (hl : UDP_HEADER_SIZE ≤ buffer.length) :
    ∃ p, decode buffer = .ok (some p) ∧ Layout p buffer := by
  have hn : 16 ≤ buffer.length := hl
  have ⟨sequence, es, ls, hs⟩ := @Buffer.exists_slice buffer 0 8 (by omega)
  have ⟨timestampUs, et, lt, ht⟩ := @Buffer.exists_slice buffer 8 16 (by omega)
  refine ⟨⟨UInt64.ofNat (Bytes.ofBe sequence), UInt64.ofNat (Bytes.ofBe timestampUs)⟩, ?_,
    (toBe_uint64 ls).symm ▸ hs, (toBe_uint64 lt).symm ▸ ht⟩
  simp [decode, Nat.not_lt.mpr hl, es, et, bind, Except.bind, pure, Except.pure]

theorem Layout.inj {p p' : UdpPacketHeader} (h : Layout p buffer) (h' : Layout p' buffer) :
    p = p' := by
  have hs := uint64_inj <| h.sequence.inj h'.sequence (by simp)
  have ht := uint64_inj <| h.timestampUs.inj h'.timestampUs (by simp)
  cases p
  cases p'
  simp_all

theorem decode_reads :
    Reads decode fun p buffer => UDP_HEADER_SIZE ≤ buffer.length ∧ Layout p buffer where
  cases buffer := by
    by_cases hl : UDP_HEADER_SIZE ≤ buffer.length
    case pos => simpa [hl] using .inr (exists_decode hl)
    case neg => exact .inl ⟨by simp [decode, Nat.not_le.mp hl]; rfl, fun _ h => hl h.left⟩
  inj h h' := h.right.inj h'.right

end UdpPacketHeader
