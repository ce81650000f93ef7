import Xfr.Udp.Probe

open Buffer (Has)

-- `sends p buffer` is what an encoder makes of a packet and a buffer to put on the wire, unless it
-- refuses.
structure WireCodec {π : Type} (sends : π → Bytes → Checked (Option Bytes)) (room : π → Nat)
    (decode : Bytes → Checked (Option π)) (Valid : π → Prop) (Significant : Nat → Prop) : Prop where
  decode_encode : ∀ p buffer, Valid p → room p ≤ buffer.length →
    ∃ sent, sends p buffer = .ok (some sent) ∧ decode sent = .ok (some p)
  encode_decode : ∀ received p buffer, decode received = .ok (some p) → room p ≤ buffer.length →
    Valid p ∧ ∃ sent, sends p buffer = .ok (some sent) ∧
      ∀ i, Significant i → sent[i]? = received[i]?
  total : ∀ received, ∃ read, decode received = .ok read

variable {i : Nat} {a b : Bytes}

namespace UdpFeedbackPacket

def sends (p : UdpFeedbackPacket) (buffer : Bytes) : Checked (Option Bytes) := do
  let (written, buffer) ← p.encode buffer
  return if written then some (buffer.take UDP_FEEDBACK_SIZE) else none

-- Every byte but the flags and the reserved ones.
def Significant (i : Nat) : Prop :=
  ¬(6 ≤ i ∧ i < 8) ∧ ¬(10 ≤ i ∧ i < 12)

variable {p : UdpFeedbackPacket}

theorem Layout.take {n : Nat} (h : Layout p a) (hn : UDP_FEEDBACK_SIZE ≤ n) :
    Layout p (a.take n) := by
  have hn : 36 ≤ n := hn
  refine ⟨h.magic.take ?_, h.version.take ?_, h.kind.take ?_, h.streamId.take ?_,
    h.elapsedMs.take ?_, h.packetsReceived.take ?_, h.packetsLost.take ?_⟩
  all_goals
    simp
    omega

theorem Layout.congr (h : Layout p a) (h' : Layout p b) (hs : Significant i)
    (hi : i < UDP_FEEDBACK_SIZE) : a[i]? = b[i]? := by
  have hi : i < 36 := hi
  have ⟨_, _⟩ := hs
  rcases (by omega : i < 4 ∨ i = 4 ∨ i = 5 ∨ (8 ≤ i ∧ i < 10) ∨ (12 ≤ i ∧ i < 20) ∨
    (20 ≤ i ∧ i < 28) ∨ 28 ≤ i) with hi | hi | hi | hi | hi | hi | hi
  · exact h'.magic.congr h.magic (by omega) (by simp; omega)
  · exact h'.version.congr h.version (by omega) (by simp; omega)
  · exact h'.kind.congr h.kind (by omega) (by simp; omega)
  · exact h'.streamId.congr h.streamId (by omega) (by simp; omega)
  · exact h'.elapsedMs.congr h.elapsedMs (by omega) (by simp; omega)
  · exact h'.packetsReceived.congr h.packetsReceived (by omega) (by simp; omega)
  · exact h'.packetsLost.congr h.packetsLost (by omega) (by simp; omega)

theorem exists_sends (h : UDP_FEEDBACK_SIZE ≤ a.length) : ∃ sent,
    p.sends a = .ok (some sent) ∧ sent.length = UDP_FEEDBACK_SIZE ∧ Layout p sent := by
  have ⟨out, he, hl, ho⟩ := exists_encode (p := p) h
  refine ⟨out.take UDP_FEEDBACK_SIZE, ?_, ?_, ho.take le_rfl⟩
  · simp [sends, he, bind, Except.bind, pure, Except.pure]
  · rw [List.length_take, hl, Nat.min_eq_left h]

theorem wireCodec :
    WireCodec sends (fun _ => UDP_FEEDBACK_SIZE) decode Fits Significant where
  decode_encode p buffer fits hr := by
    have ⟨sent, hs, hn, hl⟩ := exists_sends (p := p) hr
    exact ⟨sent, hs, decode_reads.eq_some_iff.mpr ⟨hn, fits, hl⟩⟩
  encode_decode received p buffer hd hr := by
    have ⟨hn, fits, hl⟩ := decode_reads.eq_some_iff.mp hd
    have ⟨sent, hs, hsn, hsl⟩ := exists_sends (p := p) hr
    refine ⟨fits, sent, hs, fun i hi => ?_⟩
    by_cases h : i < UDP_FEEDBACK_SIZE
    case pos => exact hsl.congr hl hi h
    case neg => rw [List.getElem?_eq_none (by omega), List.getElem?_eq_none (by omega)]
  total := decode_reads.total

end UdpFeedbackPacket

namespace UdpHelloPacket

-- The buffer is one of the encoder's own.
def sends (p : UdpHelloPacket) (_ : Bytes) : Checked (Option Bytes) :=
  some <$> p.encode

variable {p : UdpHelloPacket}

theorem Layout.congr (h : Layout p a) (h' : Layout p b) (hi : i < UDP_HELLO_SIZE) :
    a[i]? = b[i]? := by
  have hi : i < 24 := hi
  have ht : p.token.toList.length = 16 := Vector.length_toList
  rcases (by omega : i < 4 ∨ i = 4 ∨ i = 5 ∨ (6 ≤ i ∧ i < 8) ∨ 8 ≤ i) with hi | hi | hi | hi | hi
  · exact h'.magic.congr h.magic (by omega) (by simp; omega)
  · exact h'.version.congr h.version (by omega) (by simp; omega)
  · exact h'.kind.congr h.kind (by omega) (by simp; omega)
  · exact h'.streamIndex.congr h.streamIndex (by omega) (by simp; omega)
  · exact h'.token.congr h.token (by omega) (by omega)

theorem wireCodec : WireCodec sends (fun _ => 0) decode IsKnown (fun _ => True) where
  decode_encode p buffer known _ := by
    have ⟨out, he, hl, ho⟩ := exists_encode (p := p)
    refine ⟨out, ?_, decode_reads.eq_some_iff.mpr ⟨hl, known, ho⟩⟩
    rw [sends, he]
    rfl
  encode_decode received p buffer hd _ := by
    have ⟨hn, known, hl⟩ := decode_reads.eq_some_iff.mp hd
    have ⟨out, he, hon, ho⟩ := exists_encode (p := p)
    refine ⟨known, out, ?_, fun i _ => ?_⟩
    · rw [sends, he]
      rfl
    · by_cases h : i < UDP_HELLO_SIZE
      case pos => exact ho.congr hl h
      case neg => rw [List.getElem?_eq_none (by omega), List.getElem?_eq_none (by omega)]
  total := decode_reads.total

end UdpHelloPacket

namespace UdpPacketHeader

-- The payload is sent as well.
def sends (p : UdpPacketHeader) (buffer : Bytes) : Checked (Option Bytes) := do
  let (written, buffer) ← p.encode buffer
  return if written then some buffer else none

variable {p : UdpPacketHeader}

theorem Layout.congr (h : Layout p a) (h' : Layout p b) (hi : i < UDP_HEADER_SIZE) :
    a[i]? = b[i]? := by
  have hi : i < 16 := hi
  by_cases hs : i < 8
  case pos => exact h'.sequence.congr h.sequence (by omega) (by simp; omega)
  case neg => exact h'.timestampUs.congr h.timestampUs (by omega) (by simp; omega)

theorem exists_sends (h : UDP_HEADER_SIZE ≤ a.length) : ∃ sent,
    p.sends a = .ok (some sent) ∧ UDP_HEADER_SIZE ≤ sent.length ∧ Layout p sent := by
  have ⟨out, he, hl, ho⟩ := exists_encode (p := p) h
  exact ⟨out, by simp [sends, he, bind, Except.bind, pure, Except.pure], hl ▸ h, ho⟩

theorem wireCodec : WireCodec sends (fun _ => UDP_HEADER_SIZE) decode (fun _ => True)
    (· < UDP_HEADER_SIZE) where
  decode_encode p buffer _ hr := by
    have ⟨sent, hs, hl⟩ := exists_sends (p := p) hr
    exact ⟨sent, hs, decode_reads.eq_some_iff.mpr hl⟩
  encode_decode received p buffer hd hr := by
    have ⟨_, hl⟩ := decode_reads.eq_some_iff.mp hd
    have ⟨sent, hs, _, hsl⟩ := exists_sends (p := p) hr
    exact ⟨trivial, sent, hs, fun i hi => hsl.congr hl hi⟩
  total := decode_reads.total

end UdpPacketHeader

namespace ProbePacket

def sends (p : ProbePacket) (buffer : Bytes) : Checked (Option Bytes) := do
  let (written, buffer) ← p.encode buffer
  return written.map buffer.take

-- Every byte of the header but the flags and the reserved ones.
def Significant (i : Nat) : Prop :=
  i < 6 ∨ (8 ≤ i ∧ i < 14)

variable {p : ProbePacket}

theorem Layout.congr (h : Layout p a) (h' : Layout p b) (hs : Significant i) : a[i]? = b[i]? := by
  simp only [Significant] at hs
  rcases (by omega : i < 4 ∨ i = 4 ∨ i = 5 ∨ (8 ≤ i ∧ i < 12) ∨ (12 ≤ i ∧ i < 14))
    with hi | hi | hi | hi | hi
  · exact h'.magic.congr h.magic (by omega) (by simp; omega)
  · exact h'.version.congr h.version (by omega) (by simp; omega)
  · exact h'.kind.congr h.kind (by omega) (by simp; omega)
  · exact h'.seq.congr h.seq (by omega) (by simp; omega)
  · exact h'.declaredSize.congr h.declaredSize (by omega) (by simp; omega)

-- A packet of a known kind, whose padding begins after the header.
def Valid (p : ProbePacket) : Prop :=
  p.IsKnown ∧ (p.IsPadded → PROBE_HEADER_SIZE ≤ p.declaredSize.toNat)

theorem Valid.le_wireLen (h : p.Valid) : PROBE_HEADER_SIZE ≤ p.wireLen := by
  have ⟨known, hp⟩ := h
  simp only [wireLen, IsKnown, IsPadded] at *
  grind

theorem Valid.fits (h : p.Valid) : p.Fits p.wireLen := by
  intro hp
  refine ⟨h.right hp, ?_⟩
  have hk : p.kind ≠ PROBE_KIND_ACK := by
    intro hk
    simp only [IsPadded, hk] at hp
    exact absurd hp (by decide)
  rw [wireLen, if_neg hk]

theorem exists_sends (h : p.Valid) (hr : p.wireLen ≤ a.length) : ∃ sent,
    p.sends a = .ok (some sent) ∧ sent.length = p.wireLen ∧ Layout p sent := by
  have ⟨out, he, hl, ho⟩ := exists_encode h.le_wireLen hr
  refine ⟨out.take p.wireLen, ?_, ?_, ho.take h.le_wireLen⟩
  · simp [sends, he, bind, Except.bind, pure, Except.pure]
  · rw [List.length_take, hl, Nat.min_eq_left hr]

theorem wireCodec : WireCodec sends wireLen decode Valid Significant where
  decode_encode p buffer valid hr := by
    have ⟨sent, hs, hl, hp⟩ := exists_sends valid hr
    exact ⟨sent, hs, decode_reads.eq_some_iff.mpr
      ⟨hl ▸ valid.le_wireLen, valid.left, hl ▸ valid.fits, hp⟩⟩
  encode_decode received p buffer hd hr := by
    have ⟨_, known, fits, hl⟩ := decode_reads.eq_some_iff.mp hd
    have valid : p.Valid := ⟨known, fun hp => (fits hp).left⟩
    have ⟨sent, hs, _, hp⟩ := exists_sends valid hr
    exact ⟨valid, sent, hs, fun i hi => hp.congr hl hi⟩
  total := decode_reads.total

end ProbePacket

-- Hellos and probes have kinds of their own, and none but the known ones are read back.
theorem wire_codecs :
    WireCodec UdpFeedbackPacket.sends (fun _ => UDP_FEEDBACK_SIZE) UdpFeedbackPacket.decode
      UdpFeedbackPacket.Fits UdpFeedbackPacket.Significant ∧
    WireCodec UdpHelloPacket.sends (fun _ => 0) UdpHelloPacket.decode
      UdpHelloPacket.IsKnown (fun _ => True) ∧
    WireCodec UdpPacketHeader.sends (fun _ => UDP_HEADER_SIZE) UdpPacketHeader.decode
      (fun _ => True) (· < UDP_HEADER_SIZE) ∧
    WireCodec ProbePacket.sends ProbePacket.wireLen ProbePacket.decode
      ProbePacket.Valid ProbePacket.Significant :=
  ⟨UdpFeedbackPacket.wireCodec, UdpHelloPacket.wireCodec, UdpPacketHeader.wireCodec,
    ProbePacket.wireCodec⟩

theorem unknown_hello_refused :
    ∃ sent, UdpHelloPacket.encode ⟨0, 0, Vector.replicate 16 0⟩ = .ok sent ∧
      UdpHelloPacket.decode sent = .ok none :=
  ⟨_, rfl, rfl⟩
