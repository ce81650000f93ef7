import Xfr.Feedback.Fresh
import Xfr.Library.Fold
import Xfr.Tracker.Stray
import Xfr.Udp.Receive
import Xfr.Udp.WireCodec

-- Where the magic of hellos begins, in the sequence numbers of data.
def LANE_BOUND : Nat := 0x0058465200000000

-- What a sender of data puts on the wire: a packet of some size, or only its beginning at the end of
-- a budget.
structure IsData (datagram : Bytes) (header : UdpPacketHeader) : Prop where
  size     : ∃ (size : PayloadSize) (packet sent : Bytes) (sendLen : PayloadSize),
    packet.length = size.bytes ∧ header.encode packet = .ok (true, sent) ∧
      sendLen.bytes ≤ size.bytes ∧ datagram = sent.take sendLen.bytes
  sequence : header.sequence.toNat < LANE_BOUND

def EncodesHello (datagram : Bytes) (packet : UdpHelloPacket) : Prop :=
  packet.encode = .ok datagram

def EncodesFeedback (datagram : Bytes) (packet : UdpFeedbackPacket) : Prop :=
  ∃ buffer, buffer.length = UDP_FEEDBACK_SIZE ∧ packet.encode buffer = .ok (true, datagram)

open Buffer (Has)

variable {d : Bytes} {header : UdpPacketHeader}

theorem take_eq {part : Bytes} (h : Has d 0 part) : d.take part.length = part := by
  refine List.ext_getElem? fun k => ?_
  by_cases hk : k < part.length
  case pos => rw [List.getElem?_take_of_lt hk, ← h k hk, Nat.zero_add]
  case neg => rw [List.getElem?_eq_none (by simp; omega), List.getElem?_eq_none (by omega)]

-- A magic is where the first half of a sequence number would be.
theorem ofBe_take_four {n : Nat} (h : Has d 0 (Bytes.toBe 8 n)) (hn : n < 2 ^ 64) :
    Bytes.ofBe (d.take 4) = n / 2 ^ 32 := by
  have ht : d.take 8 = Bytes.toBe 8 n := by simpa using take_eq h
  have hs : Bytes.toBe 8 n = Bytes.toBe 4 (n / 256 ^ 4) ++ Bytes.toBe 4 n := @Bytes.toBe_add 4 n 4
  have hf : d.take 4 = Bytes.toBe 4 (n / 256 ^ 4) := by
    calc
      d.take 4 = (d.take 8).take 4          := by rw [List.take_take, Nat.min_eq_left (by decide)]
      _        = Bytes.toBe 4 (n / 256 ^ 4) := by rw [ht, hs, List.take_left' (by simp)]
  rw [hf, Bytes.ofBe_toBe, Nat.mod_eq_of_lt (by omega), show 256 ^ 4 = 2 ^ 32 from rfl]

theorem IsData.layout (h : IsData d header) : UDP_HEADER_SIZE ≤ d.length ∧ header.Layout d := by
  have ⟨size, packet, sent, sendLen, hp, he, hs, hd⟩ := h.size
  have ⟨out, ho, hl, layout⟩ := UdpPacketHeader.exists_encode (p := header) (hp ▸ size.header_le)
  have hout : out = sent := by simpa [ho] using he
  have hm : 16 ≤ sendLen.bytes := sendLen.header_le
  rw [hd, ← hout]
  refine ⟨?_, layout.sequence.take ?_, layout.timestampUs.take ?_⟩
  · rw [List.length_take, hl, hp]
    exact Nat.le_min.mpr ⟨sendLen.header_le, size.header_le⟩
  · simp only [Bytes.length_toBe]
    omega
  · simp only [Bytes.length_toBe]
    omega

theorem ofBe_helloMagic : Bytes.ofBe UDP_HELLO_MAGIC = 0x00584652 := by
  decide

theorem ofBe_feedbackMagic : Bytes.ofBe UDP_FEEDBACK_MAGIC = 0x58465246 := by
  decide

-- Whatever carries a magic is far beyond the data, read as a packet of data.
theorem sequence_of_lane (hl : isHello d = true ∨ isFeedback d = true)
    (hd : accepted UdpPacketHeader.decode d = some header) : LANE_BOUND ≤ header.sequence.toNat := by
  have ⟨hm, layout⟩ := UdpPacketHeader.decode_reads.accepted_eq_some_iff.mp hd
  have hm : 16 ≤ d.length := hm
  have ht := ofBe_take_four layout.sequence header.sequence.toNat_lt
  simp only [LANE_BOUND]
  cases hl
  case inl h =>
    have h := of_decide_eq_true h
    rw [h.right, ofBe_helloMagic] at ht
    omega
  case inr h =>
    have h := of_decide_eq_true h
    rw [h.right, ofBe_feedbackMagic] at ht
    omega

theorem IsData.accepted_eq (h : IsData d header) :
    accepted UdpPacketHeader.decode d = some header :=
  UdpPacketHeader.decode_reads.accepted_eq_some_iff.mpr h.layout

theorem IsData.not_lane (h : IsData d header) : isHello d = false ∧ isFeedback d = false := by
  have hb := Nat.not_le.mpr h.sequence
  refine ⟨?_, ?_⟩
  · exact Bool.eq_false_iff.mpr fun hl => hb (sequence_of_lane (.inl hl) h.accepted_eq)
  · exact Bool.eq_false_iff.mpr fun hl => hb (sequence_of_lane (.inr hl) h.accepted_eq)

theorem isHello_of_accepted {p : UdpHelloPacket} (h : accepted UdpHelloPacket.decode d = some p) :
    isHello d = true := by
  have ⟨hl, _, layout⟩ := UdpHelloPacket.decode_reads.accepted_eq_some_iff.mp h
  have ht : d.take 4 = UDP_HELLO_MAGIC := by simpa using take_eq layout.magic
  exact decide_eq_true ⟨hl, ht⟩

theorem isFeedback_of_accepted {p : UdpFeedbackPacket}
    (h : accepted UdpFeedbackPacket.decode d = some p) : isFeedback d = true := by
  have ⟨hl, _, layout⟩ := UdpFeedbackPacket.decode_reads.accepted_eq_some_iff.mp h
  have ht : d.take 4 = UDP_FEEDBACK_MAGIC := by simpa using take_eq layout.magic
  exact decide_eq_true ⟨hl, ht⟩

theorem EncodesHello.isHello {p : UdpHelloPacket} (h : EncodesHello d p) : isHello d = true := by
  have ⟨out, he, hl, layout⟩ := UdpHelloPacket.exists_encode (p := p)
  have ho : out = d := by simpa [he, EncodesHello] using h
  subst ho
  have ht : out.take 4 = UDP_HELLO_MAGIC := by simpa using take_eq layout.magic
  exact decide_eq_true ⟨hl, ht⟩

theorem EncodesFeedback.isFeedback {p : UdpFeedbackPacket} (h : EncodesFeedback d p) :
    isFeedback d = true := by
  have ⟨buffer, hb, h⟩ := h
  have ⟨out, he, hl, layout⟩ := UdpFeedbackPacket.exists_encode (p := p) (Nat.le_of_eq hb.symm)
  have ho : out = d := by simpa [he] using h
  subst ho
  have hl := hl.trans hb
  have ht : out.take 4 = UDP_FEEDBACK_MAGIC := by simpa using take_eq layout.magic
  exact decide_eq_true ⟨hl, ht⟩

namespace PacketTracker

-- All the sequence numbers which the tracker has seen are those of data.
structure Low (t : PacketTracker) : Prop where
  highestSeen     : ∀ highest ∈ t.highestSeen, highest < LANE_BOUND
  unconfirmedJump : ∀ held ∈ t.unconfirmedJump, held < LANE_BOUND

namespace Low

variable {t : PacketTracker} {sequence : Nat}

theorem new : Low .new where
  highestSeen     := by simp [PacketTracker.new]
  unconfirmedJump := by simp [PacketTracker.new]

theorem recordTracked (l : t.Low) (hs : sequence < LANE_BOUND) :
    (t.recordTracked sequence).2.Low := by
  refine ⟨?_, fun held h => l.unconfirmedJump held (recordTracked_unconfirmedJump ▸ h)⟩
  intro highest h
  have hl := l.highestSeen
  unfold PacketTracker.recordTracked at h
  cases he : t.highestSeen
  case none => simp_all [mark]
  case some previous =>
    simp only [he] at h
    split at h
    case isTrue => simp_all [mark]
    case isFalse =>
      split at h
      case isTrue  => exact hl highest h
      case isFalse => exact hl highest (by simpa [mark, he] using h)

theorem withJump (l : t.Low) {jump : Option Nat} (h : ∀ held ∈ jump, held < LANE_BOUND) :
    Low { t with unconfirmedJump := jump } where
  highestSeen     := l.highestSeen
  unconfirmedJump := h

theorem confirmJump (l : t.Low) (hs : sequence < LANE_BOUND) :
    (t.confirmJump sequence).2.Low := by
  unfold PacketTracker.confirmJump
  split
  case h_1 held he =>
    split
    case isTrue  => exact (l.withJump (by simp)).recordTracked (l.unconfirmedJump held he)
    case isFalse => exact l.withJump (by simpa using hs)
  case h_2 => exact l.withJump (by simpa using hs)

theorem recordUnique (l : t.Low) (hs : sequence < LANE_BOUND) :
    (t.recordUnique sequence).2.Low := by
  have hc := l.confirmJump hs
  unfold PacketTracker.recordUnique
  split
  case isFalse => exact l.recordTracked hs
  case isTrue =>
    split
    case h_1 t' he => exact Low.recordTracked (by simpa [he] using hc) hs
    case h_2 t' he => simpa [he] using hc

theorem recordStraggler (l : t.Low) (hs : sequence < LANE_BOUND) :
    (t.recordStraggler sequence).2.Low := by
  unfold PacketTracker.recordStraggler
  split
  case isTrue  => exact l.recordTracked hs
  case isFalse => exact l

theorem ignores (l : t.Low) (hs : LANE_BOUND ≤ sequence) :
    t.recordStraggler sequence = (false, t) := by
  refine if_neg ?_
  cases he : t.highestSeen
  case none => simp
  case some highest =>
    have := l.highestSeen highest he
    simp
    omega

end Low
end PacketTracker

-- A datagram of a lane, or one which cannot be confused with any.
def IsLow (datagram : Bytes) : Prop :=
  ∀ header ∈ accepted UdpPacketHeader.decode datagram, header.sequence.toNat < LANE_BOUND

def InLanes (datagram : Bytes) : Prop :=
  (∃ packet, EncodesHello datagram packet) ∨ (∃ packet, EncodesFeedback datagram packet) ∨
    IsLow datagram

def isDiverted (datagram : Bytes) : Bool :=
  isHello datagram || isFeedback datagram

theorem InLanes.isDiverted_or_isLow (h : InLanes d) : isDiverted d = true ∨ IsLow d := by
  rcases h with ⟨p, h⟩ | ⟨p, h⟩ | h
  · exact .inl (by simp [isDiverted, h.isHello])
  · exact .inl (by simp [isDiverted, h.isFeedback])
  · exact .inr h

namespace UdpReceive

variable {s : UdpReceive} {ack : Option Bytes}

theorem receive_diverted (h : isDiverted d = true) : (s.receive ack d).2 = s := by
  unfold receive
  split
  case isTrue => rfl
  case isFalse hf =>
    have hh : isHello d = true := by simpa [isDiverted, hf] using h
    rw [if_pos hh]

theorem receive_data (h : IsData d header) : s.receive ack d =
    (none, ((s.addBytesReceived d.length).seePacketSize d.length).record
      (.recordUnique header.sequence) header.timestampUs) := by
  simp [receive, h.not_lane, h.accepted_eq]

@[simp]
theorem tracker_record {call : Call} {timestampUs : UInt64} :
    (s.record call timestampUs).receiver.tracker = (s.receiver.tracker.record call).2 :=
  Receiver.tracker_record

theorem low_receive (l : s.receiver.tracker.Low) (h : isDiverted d = true ∨ IsLow d) :
    (s.receive ack d).2.receiver.tracker.Low := by
  cases h
  case inl h => rwa [receive_diverted h]
  case inr h =>
    unfold receive
    split
    case isTrue => exact l
    case isFalse =>
      split
      case isTrue => exact l
      case isFalse =>
        dsimp only
        split
        case h_1 => exact l
        case h_2 header he =>
          rw [tracker_record]
          exact PacketTracker.Low.recordUnique l (h header he)

theorem drain_diverted (l : s.receiver.tracker.Low) (h : isDiverted d = true) : s.drain d = s := by
  unfold drain
  split
  case isTrue => rfl
  case isFalse =>
    split
    case h_1 => rfl
    case h_2 header he =>
      have hb := sequence_of_lane (by simpa [isDiverted] using h) he
      have hr : s.receiver.tracker.record (.recordStraggler header.sequence) =
          (false, s.receiver.tracker) := l.ignores hb
      simp [hr, record, Receiver.record]

theorem low_drain (l : s.receiver.tracker.Low) (h : isDiverted d = true ∨ IsLow d) :
    (s.drain d).receiver.tracker.Low := by
  cases h
  case inl h => rwa [drain_diverted l h]
  case inr h =>
    unfold drain
    split
    case isTrue => exact l
    case isFalse =>
      split
      case h_1 => exact l
      case h_2 header he =>
        have hl := PacketTracker.Low.recordStraggler l (h header he)
        dsimp only
        split
        case isTrue  => rwa [tracker_record]
        case isFalse => rwa [tracker_record]

-- A whole test comes out as if there had been no other lanes.
theorem run_eq {live tail : List Bytes} (h : ∀ d ∈ live ++ tail, InLanes d) :
    run ack live tail = run ack (live.filter (!isDiverted ·)) (tail.filter (!isDiverted ·)) := by
  have hl : ∀ d ∈ live, isDiverted d = true ∨ IsLow d :=
    fun d hd => (h d (List.mem_append_left tail hd)).isDiverted_or_isLow
  have ht : ∀ d ∈ tail, isDiverted d = true ∨ IsLow d :=
    fun d hd => (h d (List.mem_append_right live hd)).isDiverted_or_isLow
  let Low (s : UdpReceive) : Prop := s.receiver.tracker.Low
  have hk : ∀ s, ∀ d ∈ live, Low s → Low (s.receive ack d).2 :=
    fun s d hd l => low_receive l (hl d hd)
  let receiveAll (live : List Bytes) := live.foldl (fun s d => (receive ack s d).2) new
  have hn : Low new := PacketTracker.Low.new
  have hlive : receiveAll live = receiveAll (live.filter (!isDiverted ·)) :=
    List.foldl_filter_of_idle hn hk fun s d _ _ hp => receive_diverted (by simpa using hp)
  have low : Low (receiveAll live) := List.foldl_invariant hn hk
  have htail : tail.foldl drain (receiveAll live) =
      (tail.filter (!isDiverted ·)).foldl drain (receiveAll live) :=
    List.foldl_filter_of_idle low (fun s d hd l => low_drain l (ht d hd))
      fun s d _ l hp => drain_diverted l (by simpa using hp)
  calc
    run ack live tail = (tail.filter (!isDiverted ·)).foldl drain (receiveAll live) := htail
    _ = run ack (live.filter (!isDiverted ·)) (tail.filter (!isDiverted ·)) := by rw [hlive, run]

end UdpReceive

theorem length_of_isDiverted (h : isDiverted d = true) : d.length ≤ 36 := by
  cases (Bool.or_eq_true _ _).mp h
  case inl h =>
    have hl : d.length = 24 := (of_decide_eq_true h).left
    omega
  case inr h =>
    have hl : d.length = 36 := (of_decide_eq_true h).left
    omega

-- Buffers are long enough for whatever belongs to a lane.
theorem take_eq_self {n : Nat} (h : isDiverted (d.take n) = true) (hn : 36 < n) : d.take n = d := by
  have hl := length_of_isDiverted h
  rw [List.length_take] at hl
  exact List.take_of_length_le (by omega)

theorem IsData.not_hello {n : Nat} (h : IsData d header) (hn : 36 < n) :
    accepted UdpHelloPacket.decode (d.take n) = none := by
  refine Option.eq_none_iff_forall_ne_some.mpr fun p hp => ?_
  have hl := isHello_of_accepted hp
  rw [take_eq_self (by simp [isDiverted, hl]) hn, h.not_lane.left] at hl
  exact absurd hl (by decide)

theorem IsData.not_feedback {n : Nat} (h : IsData d header) (hn : 36 < n) :
    accepted UdpFeedbackPacket.decode (d.take n) = none := by
  refine Option.eq_none_iff_forall_ne_some.mpr fun p hp => ?_
  have hl := isFeedback_of_accepted hp
  rw [take_eq_self (by simp [isDiverted, hl]) hn, h.not_lane.right] at hl
  exact absurd hl (by decide)

theorem classify_eq_xfrHello_iff :
    classifySharedDatagram d = .xfrHello ↔ isHello d = true := by
  unfold classifySharedDatagram
  split
  case isTrue h => simp [h]
  case isFalse h =>
    simp only [h, iff_false, Bool.false_eq_true]
    split
    case h_1 => split <;> [decide; (split <;> decide)]
    case h_2 => decide

-- Hellos have no bit of a QUIC header in their first byte.
theorem classify_eq_quic {b : UInt8} (h : d.head? = some b)
    (hb : b &&& 0x80 ≠ 0 ∨ b &&& 0x40 ≠ 0) : classifySharedDatagram d = .quic := by
  have hh : isHello d = false := by
    refine Bool.eq_false_iff.mpr fun hl => ?_
    have ⟨_, hm⟩ := of_decide_eq_true hl
    have hz : b = 0 := by
      have ht : (d.take 4).head? = some b := by rw [List.head?_take, if_neg (by decide), h]
      rw [hm] at ht
      exact (Option.some.inj ht).symm
    subst hz
    exact absurd hb (by decide)
  simp only [classifySharedDatagram, hh, h, Bool.false_eq_true, if_false]
  grind

theorem EncodesHello.feedbackOnly {p : UdpHelloPacket} {i : Nat} {slots : List UdpIntervalProgress}
    (h : EncodesHello d p) : receiveUdpFeedbackOnly i slots d = slots := by
  refine if_pos fun hl => ?_
  have hn : d.length = 24 := (of_decide_eq_true h.isHello).left
  rw [List.length_take, hn] at hl
  exact absurd hl (by decide)

theorem EncodesFeedback.feedbackOnly {p : UdpFeedbackPacket} {i : Nat}
    {slots : List UdpIntervalProgress} (h : EncodesFeedback d p) (fits : p.Fits) :
    receiveUdpFeedbackOnly i slots d = (storeUdpFeedback slots i p).2 := by
  have hn : d.length = UDP_FEEDBACK_SIZE := (of_decide_eq_true h.isFeedback).left
  have ha : accepted UdpFeedbackPacket.decode d = some p := by
    have ⟨buffer, hb, he⟩ := h
    have ⟨out, ho, _, layout⟩ := UdpFeedbackPacket.exists_encode (p := p) (Nat.le_of_eq hb.symm)
    have hd : out = d := by simpa [ho] using he
    exact UdpFeedbackPacket.decode_reads.accepted_eq_some_iff.mpr ⟨hn, fits, hd ▸ layout⟩
  have ht : d.take (UDP_PAYLOAD_SIZE + 100) = d := List.take_of_length_le (hn.trans_le (by decide))
  simp [receiveUdpFeedbackOnly, ht, ha, hn]

-- Data is data to every classifier, and the other lanes leave the accounts of a test as they are.
theorem lanes_never_mix :
    (∀ d header, IsData d header →
      (∀ s ack, UdpReceive.receive ack s d = (none,
        ((s.addBytesReceived d.length).seePacketSize d.length).record
          (.recordUnique header.sequence) header.timestampUs)) ∧
      (∀ i slots, receiveUdpFeedbackOnly i slots d = slots) ∧
      (∀ ack, respondSinglePortHellos ack d = none) ∧
      (∀ token i, peek token i d = .data) ∧
      classifySharedDatagram d ≠ .xfrHello) ∧
    (∀ d packet, EncodesHello d packet →
      (∀ s ack, (UdpReceive.receive ack s d).2 = s) ∧
      (∀ i slots, receiveUdpFeedbackOnly i slots d = slots) ∧
      (∀ token i, (peek token i d).consumes = true) ∧
      classifySharedDatagram d = .xfrHello) ∧
    (∀ d packet, EncodesFeedback d packet →
      (∀ s ack, UdpReceive.receive ack s d = (none, s)) ∧
      (packet.Fits → ∀ i slots,
        receiveUdpFeedbackOnly i slots d = (storeUdpFeedback slots i packet).2)) ∧
    (∀ ack live tail, (∀ d ∈ live ++ tail, InLanes d) → UdpReceive.run ack live tail =
      UdpReceive.run ack (live.filter (!isDiverted ·)) (tail.filter (!isDiverted ·))) ∧
    ∀ d b, d.head? = some b → b &&& 0x80 ≠ 0 ∨ b &&& 0x40 ≠ 0 →
      classifySharedDatagram d = .quic := by
  refine ⟨fun d header h => ⟨fun s ack => UdpReceive.receive_data h, fun i slots => ?_, fun ack => ?_,
      fun token i => ?_, ?_⟩,
    fun d p h => ⟨fun s ack => UdpReceive.receive_diverted ?_, fun i slots => h.feedbackOnly,
      fun token i => ?_, classify_eq_xfrHello_iff.mpr h.isHello⟩,
    fun d p h => ⟨fun s ack => if_pos h.isFeedback, fun fits i slots => h.feedbackOnly fits⟩,
    fun ack live tail h => UdpReceive.run_eq h, fun d b h hb => classify_eq_quic h hb⟩
  · simp [receiveUdpFeedbackOnly, h.not_feedback (n := UDP_PAYLOAD_SIZE + 100) (by decide)]
  · simp [respondSinglePortHellos, h.not_hello (n := UDP_PAYLOAD_SIZE + 100) (by decide)]
  · exact if_neg (by simp [h.not_lane])
  · rw [ne_eq, classify_eq_xfrHello_iff, h.not_lane.left]
    decide
  · simp [isDiverted, h.isHello]
  · rw [peek, if_pos h.isHello]
    dsimp only
    split <;> rfl
