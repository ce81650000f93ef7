import Mathlib.Algebra.BigOperators.Group.Finset.Basic
import Xfr.Tracker.Arrivals
import Xfr.Transfer.UdpLane

namespace UdpLane

open PacketTracker (Agrees Reference)

variable {budget budget' : Option ByteBudget} {l l' : UdpLane} {e : UdpLaneEvent} {p : PayloadSize}
  {r : Reference} {d : Bytes} {sequence : Nat}

theorem toNat_ofNat (h : sequence < LANE_BOUND) : (UInt64.ofNat sequence).toNat = sequence :=
  UInt64.toNat_ofNat_of_lt' (h.trans (by decide))

-- Everything which was sent is data, with the sequence numbers in order.
structure Wired (p : PayloadSize) (l : UdpLane) : Prop where
  sized  : l.source.Sized p
  packet : l.packet.length = p.bytes
  wire   : l.wire.map (·.length) = l.source.datagrams
  data   : ∀ i d, l.wire[i]? = some d → i < LANE_BOUND →
             ∃ timestampUs, IsData d ⟨UInt64.ofNat i, timestampUs⟩

namespace Wired

theorem length (w : l.Wired p) : l.wire.length = l.source.datagrams.length := by
  rw [← w.wire, List.length_map]

theorem start {config : UdpLaneConfig} : config.start.Wired config.packetSize where
  sized  := .start
  packet := by simp [UdpLaneConfig.start]
  wire   := rfl
  data   := by simp [UdpLaneConfig.start]

theorem transmit {timestampUs : UInt64} (w : l.Wired p)
    (h : l.transmit budget timestampUs = some (budget', l')) : l'.Wired p := by
  unfold UdpLane.transmit at h
  split at h
  case h_2 => contradiction
  case h_1 left n ok packet hp he =>
    obtain ⟨⟨_, source⟩, hs, h⟩ := Option.bind_eq_some_iff.mp h
    cases h
    obtain ⟨hn, hnp⟩ := w.sized.roomy hp
    obtain ⟨out, ho, hl, _⟩ :=
      UdpPacketHeader.exists_encode (p := l.header timestampUs) (w.packet ▸ p.header_le)
    obtain ⟨ht, ho⟩ := Prod.mk.inj (Except.ok.inj (he.symm.trans ho))
    subst ht ho
    have hpl : packet.length = p.bytes := hl.trans w.packet
    constructor
    case sized  => exact w.sized.stepWithin hs
    case packet => exact hpl
    case wire   =>
      rw [UdpSendLoop.stepWithin_sent hp hs, List.map_append, w.wire]
      simp [hpl, hnp]
    case data   =>
      intro i d hi hb
      rcases Nat.lt_or_ge i l.wire.length with hlt | hge
      case inl =>
        rw [List.getElem?_append_left hlt] at hi
        exact w.data i d hi hb
      case inr =>
        -- The new datagram carries the number of those before it.
        have hl := (List.getElem?_eq_some_iff.mp hi).choose
        simp only [List.length_append, List.length_singleton] at hl
        have hil : i = l.source.datagrams.length := by
          rw [← w.length]
          omega
        have hd : packet.take n = d := by simpa [hil, w.length] using hi
        refine ⟨timestampUs, ⟨p, l.packet, packet, ⟨n, hn, hnp.trans p.le_max⟩, w.packet, ?_, hnp,
          hd.symm⟩, ?_⟩
        · rw [hil]
          exact he
        · exact (toNat_ofNat hb).symm ▸ hb

end Wired

section Sink

variable {sink : UdpReceive} {timestampUs : UInt64}

-- A datagram during the test.
theorem receive_spec (a : Agrees sink.receiver.tracker r) (low : sink.receiver.tracker.Low)
    (hd : IsData d ⟨UInt64.ofNat sequence, timestampUs⟩) (hs : sequence < LANE_BOUND)
    (ack : Option Bytes) :
    Agrees (sink.receive ack d).2.receiver.tracker (r.record sequence).2 ∧
      (sink.receive ack d).2.receiver.tracker.Low ∧
      (sink.receive ack d).2.bytesReceived = U64.wrappingAdd sink.bytesReceived d.length := by
  have ht : (sink.receive ack d).2.receiver.tracker =
      (sink.receiver.tracker.recordUnique sequence).2 := by
    rw [UdpReceive.receive_data hd, UdpReceive.tracker_record]
    simp only [PacketTracker.record, toNat_ofNat hs]
    rfl
  have hm : sequence ≤ U64.max := hs.le.trans (by decide)
  refine ⟨ht ▸ (a.recordUnique hm).right, ht ▸ low.recordUnique hs, ?_⟩
  rw [UdpReceive.receive_data hd]
  rfl

-- A datagram after the test.
theorem drain_spec (a : Agrees sink.receiver.tracker r) (low : sink.receiver.tracker.Low)
    (hd : IsData d ⟨UInt64.ofNat sequence, timestampUs⟩) (hs : sequence < LANE_BOUND) :
    Agrees (sink.drain d).receiver.tracker (r.recordStraggler sequence).2 ∧
      (sink.drain d).receiver.tracker.Low ∧
      (sink.drain d).bytesReceived =
        if (r.recordStraggler sequence).1 then U64.wrappingAdd sink.bytesReceived d.length
        else sink.bytesReceived := by
  have hm : sequence ≤ U64.max := hs.le.trans (by decide)
  obtain ⟨ho, ha⟩ := a.recordStraggler_eq hm
  by_cases hz : sink.receiver.tracker.lost = 0
  case pos =>
    -- Nothing is missing, so that there is nothing to accept.
    have hn : r.recordStraggler sequence = (false, r) := by
      unfold Reference.recordStraggler
      split
      case isFalse => rfl
      case isTrue h =>
        obtain ⟨h, hh, hl⟩ := Option.any_eq_true _ _ |>.mp h
        refine if_neg fun hc => ?_
        have hlt := Reference.received_lt_span hc.left hh (of_decide_eq_true hl).le
        have := a.lost
        omega
    have hs : sink.drain d = sink := if_pos hz
    rw [hs, hn]
    exact ⟨a, low, rfl⟩
  case neg =>
    have hl : (sink.receiver.tracker.recordStraggler sequence).2.Low := low.recordStraggler hs
    simp only [UdpReceive.drain, if_neg hz, hd.accepted_eq, PacketTracker.record, toNat_ofNat hs]
    rw [← ho]
    split
    case isTrue =>
      simp only [UdpReceive.tracker_record, PacketTracker.record, toNat_ofNat hs]
      exact ⟨ha, hl, rfl⟩
    case isFalse =>
      simp only [UdpReceive.tracker_record, PacketTracker.record, toNat_ofNat hs]
      exact ⟨ha, hl, rfl⟩

end Sink

-- What a step can do: something is sent, arrives during the test or after it, or the test is over.
inductive Effect (l : UdpLane) : UdpLaneEvent → UdpLane → Prop
  | sent {e : UdpLaneEvent} {s : UdpSendLoop} {p : Bytes} {t : List Bytes} :
    Effect l e { l with source := s, packet := p, wire := l.wire ++ t }
  | arrived {sequence : Nat} {d : Bytes} : l.wire[sequence]? = some d → l.draining = false →
    Effect l (.arrive sequence) { l with
      sink     := (l.sink.receive l.singlePortAck d).2
      arrivals := l.arrivals ++ [sequence] }
  | drained {sequence : Nat} {d : Bytes} : l.wire[sequence]? = some d → l.draining = true →
    Effect l (.arrive sequence) { l with sink := l.sink.drain d, late := l.late ++ [sequence] }
  | stray {d : Bytes} : isDiverted d → Effect l (.stray d) { l with sink := l.receive d }
  | stopped : Effect l .stop { l with draining := true }

theorem step_effect (h : step (budget, l) e = some (budget', l')) : l.Effect e l' := by
  cases e
  all_goals simp only [step] at h
  case send =>
    obtain ⟨_, h⟩ := Option.ite_none_left_eq_some.mp h
    obtain ⟨⟨_, source⟩, _, h⟩ := Option.map_eq_some_iff.mp h
    cases h
    simpa using Effect.sent (l := l) (t := []) (s := source) (p := l.packet) (e := .send _)
  case transmit =>
    unfold transmit at h
    split at h
    case h_2 => contradiction
    case h_1 =>
      obtain ⟨_, _, h⟩ := Option.bind_eq_some_iff.mp h
      cases h
      exact .sent
  case arrive sequence =>
    obtain ⟨_, ha, h⟩ := Option.map_eq_some_iff.mp h
    cases h
    obtain ⟨d, hd, ha⟩ := Option.bind_eq_some_iff.mp ha
    cases ha
    unfold receive
    cases hp : l.draining
    case false => simpa [hp] using Effect.arrived hd hp
    case true  => simpa [hp] using Effect.drained hd hp
  case stray =>
    obtain ⟨hd, h⟩ := Option.ite_none_right_eq_some.mp h
    cases h
    exact .stray hd
  case stop =>
    cases h
    exact .stopped

theorem Effect.length_wire_le (f : l.Effect e l') : l.wire.length ≤ l'.wire.length := by
  cases f <;> simp

theorem Wired.step (w : l.Wired p) (h : UdpLane.step (budget, l) e = some (budget', l')) :
    l'.Wired p := by
  cases e
  all_goals simp only [UdpLane.step] at h
  case send =>
    obtain ⟨he, h⟩ := Option.ite_none_left_eq_some.mp h
    obtain ⟨_, hs, h⟩ := Option.map_eq_some_iff.mp h
    cases h
    exact {
      sized  := w.sized.stepWithin hs
      packet := w.packet
      wire   := w.wire.trans (UdpSendLoop.stepWithin_datagrams_eq he hs).symm
      data   := w.data
    }
  case transmit => exact w.transmit h
  case arrive =>
    obtain ⟨_, ha, h⟩ := Option.map_eq_some_iff.mp h
    cases h
    obtain ⟨_, _, ha⟩ := Option.bind_eq_some_iff.mp ha
    cases ha
    exact ⟨w.sized, w.packet, w.wire, w.data⟩
  case stray =>
    obtain ⟨_, h⟩ := Option.ite_none_right_eq_some.mp h
    cases h
    exact ⟨w.sized, w.packet, w.wire, w.data⟩
  case stop =>
    cases h
    exact ⟨w.sized, w.packet, w.wire, w.data⟩

theorem Wired.exists_data (w : l.Wired p) (hb : l.wire.length ≤ LANE_BOUND)
    (hd : l.wire[sequence]? = some d) :
    sequence < LANE_BOUND ∧ ∃ timestampUs, IsData d ⟨UInt64.ofNat sequence, timestampUs⟩ := by
  obtain ⟨hl, _⟩ := List.getElem?_eq_some_iff.mp hd
  exact ⟨hl.trans_le hb, w.data sequence d hd (hl.trans_le hb)⟩

-- The receiver has accepted nothing but what has arrived.
structure Heard (l : UdpLane) (r : Reference) : Prop where
  agrees   : Agrees l.sink.receiver.tracker r
  low      : l.sink.receiver.tracker.Low
  accepted : ∀ s ∈ r.accepted, s ∈ l.arrivals ++ l.late
  held     : ∀ s ∈ r.held, s ∈ l.arrivals ++ l.late
  sent     : ∀ s ∈ l.arrivals ++ l.late, s < l.wire.length

namespace Heard

theorem start {config : UdpLaneConfig} : config.start.Heard .new where
  agrees   := .new
  low      := .new
  accepted := by simp [Reference.new]
  held     := by simp [Reference.new]
  sent     := by simp [UdpLaneConfig.start]

theorem append {source : UdpSendLoop} {packet : Bytes} {tail : List Bytes} (x : l.Heard r) :
    Heard { l with source, packet, wire := l.wire ++ tail } r where
  __ := x
  sent := fun s hs => (x.sent s hs).trans_le (by simp)

theorem stray (x : l.Heard r) (hd : isDiverted d) : l.receive d = l.sink := by
  unfold receive
  split
  case isTrue  => exact UdpReceive.drain_diverted x.low hd
  case isFalse => exact UdpReceive.receive_diverted hd

theorem arrived {timestampUs : UInt64} (x : l.Heard r) (hd : l.wire[sequence]? = some d)
    (data : IsData d ⟨UInt64.ofNat sequence, timestampUs⟩) (hs : sequence < LANE_BOUND) :
    Heard { l with
      sink     := (l.sink.receive l.singlePortAck d).2
      arrivals := l.arrivals ++ [sequence] } (r.record sequence).2 := by
  obtain ⟨agrees, low, _⟩ := receive_spec x.agrees x.low data hs l.singlePortAck
  have old (s : Nat) (h : s ∈ l.arrivals ++ l.late) : s ∈ l.arrivals ++ [sequence] ++ l.late := by
    simp only [List.mem_append] at h ⊢
    tauto
  refine ⟨agrees, low, fun s h => ?_, fun s h => ?_, fun s h => ?_⟩
  case refine_1 =>
    rcases Reference.accepted_of_record h with h | h | h
    · simp [h]
    · exact old s (x.accepted s h)
    · exact old s (x.held s h)
  case refine_2 =>
    rcases Reference.held_of_record h with h | h
    · simp [h]
    · exact old s (x.held s h)
  case refine_3 =>
    simp only [List.mem_append, List.mem_singleton] at h
    rcases h with (h | h) | h
    · exact x.sent s (List.mem_append_left _ h)
    · exact h ▸ (List.getElem?_eq_some_iff.mp hd).choose
    · exact x.sent s (List.mem_append_right _ h)

theorem drained {timestampUs : UInt64} (x : l.Heard r) (hd : l.wire[sequence]? = some d)
    (data : IsData d ⟨UInt64.ofNat sequence, timestampUs⟩) (hs : sequence < LANE_BOUND) :
    Heard { l with sink := l.sink.drain d, late := l.late ++ [sequence] }
      (r.recordStraggler sequence).2 := by
  obtain ⟨agrees, low, _⟩ := drain_spec x.agrees x.low data hs
  have old (s : Nat) (h : s ∈ l.arrivals ++ l.late) : s ∈ l.arrivals ++ (l.late ++ [sequence]) := by
    rw [← List.append_assoc]
    exact List.mem_append_left _ h
  refine ⟨agrees, low, fun s h => ?_, fun s h => ?_, fun s h => ?_⟩
  case refine_1 =>
    rcases Reference.accepted_of_recordStraggler h with h | h
    · simp [h]
    · exact old s (x.accepted s h)
  case refine_2 =>
    rw [Reference.held_recordStraggler] at h
    exact old s (x.held s h)
  case refine_3 =>
    rw [← List.append_assoc, List.mem_append, List.mem_singleton] at h
    rcases h with h | h
    · exact x.sent s h
    · exact h ▸ (List.getElem?_eq_some_iff.mp hd).choose

theorem step (x : l.Heard r) (w : l.Wired p) (hb : l.wire.length ≤ LANE_BOUND) (f : l.Effect e l') :
    ∃ r', l'.Heard r' := by
  cases f
  case sent       => exact ⟨r, x.append⟩
  case stopped    => exact ⟨r, ⟨x.agrees, x.low, x.accepted, x.held, x.sent⟩⟩
  case stray hd   => exact ⟨r, by rw [x.stray hd]; exact x⟩
  case arrived hd _ =>
    obtain ⟨hs, _, data⟩ := w.exists_data hb hd
    exact ⟨_, x.arrived hd data hs⟩
  case drained hd _ =>
    obtain ⟨hs, _, data⟩ := w.exists_data hb hd
    exact ⟨_, x.drained hd data hs⟩

end Heard

-- The number of sequence positions up to the newest arrival of the test, and what has arrived of them.
def newest (l : UdpLane) : Nat :=
  l.arrivals.foldl (fun n s => max n (s + 1)) 0

def seen (l : UdpLane) : Finset Nat :=
  {s ∈ (l.arrivals ++ l.late).toFinset | s < l.newest}

def sizeOf (l : UdpLane) (sequence : Nat) : Nat :=
  l.wire[sequence]?.elim 0 (·.length)

-- Nothing arrives a whole window before it is expected, or after something newer.
def steady (l : UdpLane) : UdpLaneEvent → Bool
  | .arrive sequence =>
    (l.draining || sequence < l.newest + PACKET_TRACKER_WINDOW) &&
      l.newest ≤ sequence + PACKET_TRACKER_WINDOW
  | _                => true

theorem lt_newest (h : sequence ∈ l.arrivals) : sequence < l.newest := by
  have key {s n : Nat} {ss : List Nat} (h : s ∈ ss ∨ s < n) :
      s < ss.foldl (fun n s => max n (s + 1)) n := by
    induction ss generalizing n
    case nil => simpa using h
    case cons s' ss hi =>
      rcases h with h | h
      case inr => exact hi (.inr (show s < max n (s' + 1) by omega))
      case inl =>
        rcases List.mem_cons.mp h with h | h
        · exact hi (.inr (show s < max n (s' + 1) by omega))
        · exact hi (.inl h)
  exact key (.inl h)

-- The receiver has accepted what has arrived, up to the newest one.
structure Settled (l : UdpLane) (r : Reference) : Prop where
  heard    : l.Heard r
  accepted : r.accepted = l.seen
  held     : r.held = none
  span     : r.span = l.newest
  late     : l.draining = false → l.late = []
  bytes    : l.sink.bytesReceived =
               ((l.arrivals.map l.sizeOf).sum + ∑ s ∈ l.seen \ l.arrivals.toFinset, l.sizeOf s) % 2 ^ 64

namespace Settled

theorem start {config : UdpLaneConfig} : config.start.Settled .new where
  heard    := .start
  accepted := rfl
  held     := rfl
  span     := by simp [Reference.span, Reference.highest, Reference.new, newest, UdpLaneConfig.start]
  late     := fun _ => rfl
  bytes    := rfl

theorem append {source : UdpSendLoop} {packet : Bytes} {tail : List Bytes} (x : l.Settled r) :
    Settled { l with source, packet, wire := l.wire ++ tail } r where
  heard    := x.heard.append
  accepted := x.accepted
  held     := x.held
  span     := x.span
  late     := x.late
  bytes    := by
    have hs (s : Nat) (h : s ∈ l.arrivals ++ l.late) :
        sizeOf { l with source, packet, wire := l.wire ++ tail } s = l.sizeOf s := by
      simp only [sizeOf, List.getElem?_append_left (x.heard.sent s h)]
    rw [x.bytes]
    congr 2
    case e_a.e_a => exact congrArg _ (List.map_congr_left fun s h => (hs s (by simp [h])).symm)
    case e_a.e_a =>
      refine Finset.sum_congr rfl fun s h => (hs s ?_).symm
      simp only [seen, Finset.mem_sdiff, Finset.mem_filter, List.mem_toFinset] at h
      exact h.left.left

theorem arrived {timestampUs : UInt64} (x : l.Settled r) (hd : l.wire[sequence]? = some d)
    (data : IsData d ⟨UInt64.ofNat sequence, timestampUs⟩) (hs : sequence < LANE_BOUND)
    (hp : l.draining = false) (hf : sequence < l.newest + PACKET_TRACKER_WINDOW)
    (hb : l.newest ≤ sequence + PACKET_TRACKER_WINDOW) :
    Settled { l with
      sink     := (l.sink.receive l.singlePortAck d).2
      arrivals := l.arrivals ++ [sequence] } (r.record sequence).2 := by
  have hl : l.late = [] := x.late hp
  obtain ⟨_, _, hbytes⟩ :=
    receive_spec x.heard.agrees x.heard.low data hs l.singlePortAck
  obtain ⟨ha, hh, hn⟩ := Reference.record_near (x.span ▸ hf) (x.span ▸ hb)
  have newest {l : UdpLane} {sequence : Nat} :
      { l with arrivals := l.arrivals ++ [sequence] }.newest = max l.newest (sequence + 1) := by
    simp [newest, List.foldl_append]
  -- As long as the test is going on, everything was seen.
  have all (l : UdpLane) (hl : l.late = []) : l.seen = l.arrivals.toFinset := by
    ext s
    have := @lt_newest l s
    simp only [seen, hl, List.append_nil, Finset.mem_filter, List.mem_toFinset]
    tauto
  have hseen : seen { l with
      sink     := (l.sink.receive l.singlePortAck d).2
      arrivals := l.arrivals ++ [sequence] } = (l.arrivals ++ [sequence]).toFinset := all _ hl
  constructor
  case heard => exact x.heard.arrived hd data hs
  case held  => rw [hh, x.held]
  case span  => rw [hn, x.span]; exact newest.symm
  case late  => exact x.late
  case accepted =>
    rw [ha, x.accepted, all l hl, hseen]
    ext s
    simp
  case bytes =>
    have hz : l.sizeOf sequence = d.length := by simp [sizeOf, hd]
    change _ = ((List.map l.sizeOf (l.arrivals ++ [sequence])).sum +
      ∑ s ∈ _ \ (l.arrivals ++ [sequence]).toFinset, l.sizeOf s) % 2 ^ 64
    rw [hseen, hbytes, x.bytes, all l hl, sdiff_self, sdiff_self]
    simp [U64.wrappingAdd, hz]

theorem drained {timestampUs : UInt64} (x : l.Settled r) (hd : l.wire[sequence]? = some d)
    (data : IsData d ⟨UInt64.ofNat sequence, timestampUs⟩) (hs : sequence < LANE_BOUND)
    (hp : l.draining = true) (hb : l.newest ≤ sequence + PACKET_TRACKER_WINDOW) :
    Settled { l with sink := l.sink.drain d, late := l.late ++ [sequence] }
      (r.recordStraggler sequence).2 := by
  obtain ⟨_, _, hbytes⟩ := drain_spec x.heard.agrees x.heard.low data hs
  have mem {s : Nat} : s ∈ seen { l with sink := l.sink.drain d, late := l.late ++ [sequence] } ↔
      s ∈ l.seen ∨ s = sequence ∧ s < l.newest := by
    simp only [seen, Finset.mem_filter, List.mem_toFinset, List.mem_append, List.mem_singleton]
    simp only [newest]
    tauto
  rcases Reference.recordStraggler_near (x.span ▸ hb) with ⟨he, hn, hl⟩ | ⟨he, hn⟩
  case inl =>
    rw [he] at hbytes
    have hseen : seen { l with sink := l.sink.drain d, late := l.late ++ [sequence] } =
        insert sequence l.seen := by
      ext s
      rw [mem, Finset.mem_insert, or_comm]
      exact or_congr_left ⟨fun h => h.left, fun h => ⟨h, h ▸ x.span ▸ hl⟩⟩
    have hna : sequence ∉ l.arrivals := fun h => hn <| by
      rw [x.accepted]
      simp [seen, h, lt_newest h]
    constructor
    case heard    => exact x.heard.drained hd data hs
    case held     => rw [Reference.held_recordStraggler, x.held]
    case late     => exact fun h => by simp [hp] at h
    case accepted => rw [he, Reference.accepted_add, x.accepted, hseen]
    case span     =>
      rw [he, Reference.span_add, Nat.max_eq_left hl]
      exact x.span
    case bytes    =>
      have hz : l.sizeOf sequence = d.length := by simp [sizeOf, hd]
      change _ = ((List.map l.sizeOf l.arrivals).sum +
        ∑ s ∈ _ \ l.arrivals.toFinset, l.sizeOf s) % 2 ^ 64
      rw [hbytes, if_pos rfl, x.bytes, hseen, Finset.insert_sdiff_of_notMem _ (by simpa using hna),
        Finset.sum_insert (by simp [← x.accepted, hn])]
      simp only [U64.wrappingAdd, hz]
      omega
  case inr =>
    rw [he] at hbytes
    have hseen : seen { l with sink := l.sink.drain d, late := l.late ++ [sequence] } = l.seen := by
      ext s
      rw [mem]
      refine ⟨fun h => h.elim id fun ⟨he, h⟩ => ?_, .inl⟩
      rw [← x.accepted, he]
      exact hn (x.span ▸ he ▸ h)
    constructor
    case heard    => exact x.heard.drained hd data hs
    case held     => rw [Reference.held_recordStraggler, x.held]
    case late     => exact fun h => by simp [hp] at h
    case accepted => rw [he, x.accepted, hseen]
    case span     => rw [he]; exact x.span
    case bytes    =>
      refine hbytes.trans ?_
      rw [hseen]
      exact x.bytes

theorem step (x : l.Settled r) (w : l.Wired p) (hb : l.wire.length ≤ LANE_BOUND)
    (steady : l.steady e) (f : l.Effect e l') : ∃ r', l'.Settled r' := by
  cases f
  case sent    => exact ⟨r, x.append⟩
  case stray d hd =>
    refine ⟨r, ?_⟩
    rw [x.heard.stray hd]
    exact x
  case stopped =>
    refine ⟨r, ?_⟩
    exact {
      heard    := ⟨x.heard.agrees, x.heard.low, x.heard.accepted, x.heard.held, x.heard.sent⟩
      accepted := x.accepted
      held     := x.held
      span     := x.span
      late     := fun h => nomatch h
      bytes    := x.bytes
    }
  case arrived hd hp =>
    obtain ⟨hs, _, data⟩ := w.exists_data hb hd
    simp only [UdpLane.steady, hp, Bool.false_or, Bool.and_eq_true, decide_eq_true_eq] at steady
    exact ⟨_, x.arrived hd data hs hp steady.left steady.right⟩
  case drained hd hp =>
    obtain ⟨hs, _, data⟩ := w.exists_data hb hd
    simp only [UdpLane.steady, hp, Bool.true_or, Bool.true_and, decide_eq_true_eq] at steady
    exact ⟨_, x.drained hd data hs hp steady⟩

end Settled

-- What a report says about a stream over any network. It does not count packets which were not sent or
-- have not arrived, and everything that is missing below the newest packet counts as lost.
structure Reported (l : UdpLane) (stats : UdpStats) : Prop where
  sent_le     : stats.packetsSent ≤ l.source.datagrams.length
  total       : stats.packetsReceived + stats.lost = stats.packetsSent
  received_le : stats.packetsReceived ≤ (l.arrivals ++ l.late).toFinset.card
  lost_ge     : ({s ∈ Finset.range stats.packetsSent | s ∉ l.arrivals ++ l.late}).card ≤ stats.lost

-- What it says if nothing comes too early or too late.
structure Exact (l : UdpLane) (stats : UdpStats) : Prop where
  sent     : stats.packetsSent = l.newest
  received : stats.packetsReceived = l.seen.card
  lost     : stats.lost = ({s ∈ Finset.range l.newest | s ∉ l.arrivals ++ l.late}).card
  bytes    : l.sink.bytesReceived =
               ((l.arrivals.map l.sizeOf).sum + ∑ s ∈ l.seen \ l.arrivals.toFinset, l.sizeOf s) % 2 ^ 64

section Report

variable {jitterMs jitterMaxMs : Float}

theorem Heard.span_le (x : l.Heard r) : r.span ≤ l.wire.length := by
  cases hh : r.highest
  case none      => simp [Reference.span, hh]
  case some high =>
    obtain ⟨hm, _⟩ := Reference.highest_eq_some_iff.mp hh
    simpa [Reference.span, hh] using Nat.succ_le_of_lt (x.sent high (x.accepted high hm))

theorem Heard.finish (x : l.Heard r) (hb : l.wire.length ≤ LANE_BOUND) (jitterMs jitterMaxMs : Float) :
    (l.sink.finish jitterMs jitterMaxMs).packetsSent = r.span ∧
      (l.sink.finish jitterMs jitterMaxMs).packetsReceived = r.received ∧
      (l.sink.finish jitterMs jitterMaxMs).lost + r.received = r.span := by
  have hs := x.span_le
  have hl := x.agrees.lost
  have hm : LANE_BOUND ≤ U64.max := by decide
  have hr : l.sink.receiver.tracker.received = r.received := by
    rw [x.agrees.received]
    omega
  refine ⟨?_, hr, hl⟩
  simp only [UdpReceive.finish, hr]
  rw [U64.saturatingAdd_eq_add (by omega)]
  omega

theorem Heard.reported (x : l.Heard r) (w : l.Wired p) (hb : l.wire.length ≤ LANE_BOUND) :
    l.Reported (l.sink.finish jitterMs jitterMaxMs) := by
  obtain ⟨hs, hr, hl⟩ := x.finish hb jitterMs jitterMaxMs
  have hsub : r.accepted ⊆ (l.arrivals ++ l.late).toFinset := fun s h => by
    simpa using x.accepted s h
  constructor
  case sent_le     => rw [hs, ← w.length]; exact x.span_le
  case total       => rw [hr, hs, ← hl, Nat.add_comm]
  case received_le => exact hr ▸ Finset.card_le_card hsub
  case lost_ge     =>
    have hdis : {s ∈ Finset.range r.span | s ∉ l.arrivals ++ l.late} ⊆
        Finset.range r.span \ r.accepted := fun s h => by
      simp only [Finset.mem_filter, Finset.mem_sdiff] at h ⊢
      exact ⟨h.left, fun ha => h.right (x.accepted s ha)⟩
    have hacc : r.accepted ⊆ Finset.range r.span := fun s h =>
      Finset.mem_range.mpr (Reference.lt_span h)
    have hle := Finset.card_le_card hdis
    rw [Finset.card_sdiff_of_subset hacc, Finset.card_range] at hle
    rw [hs]
    have : r.received = r.accepted.card := rfl
    omega

theorem Settled.exact (x : l.Settled r) (hb : l.wire.length ≤ LANE_BOUND) :
    l.Exact (l.sink.finish jitterMs jitterMaxMs) := by
  obtain ⟨hs, hr, hl⟩ := x.heard.finish hb jitterMs jitterMaxMs
  constructor
  case sent     => rw [hs, x.span]
  case received => rw [hr, Reference.received, x.accepted]
  case bytes    => exact x.bytes
  case lost     =>
    have hdis : {s ∈ Finset.range l.newest | s ∉ l.arrivals ++ l.late} =
        Finset.range l.newest \ l.seen := by
      ext s
      simp only [seen, Finset.mem_filter, Finset.mem_sdiff, Finset.mem_range, List.mem_toFinset]
      tauto
    have hseen : l.seen ⊆ Finset.range l.newest := fun s h => by
      simp only [seen, Finset.mem_filter] at h
      exact Finset.mem_range.mpr h.right
    have hc : r.received = l.seen.card := by rw [Reference.received, x.accepted]
    rw [hdis, Finset.card_sdiff_of_subset hseen, Finset.card_range, ← x.span, ← hc]
    omega

end Report

-- Something holds as long as the sequence numbers are those of data.
def Tracked (Q : UdpLane → Reference → Prop) (l : UdpLane) : Prop :=
  ∃ p, l.Wired p ∧ (l.wire.length ≤ LANE_BOUND → ∃ r, Q l r)

namespace Tracked

variable {Q : UdpLane → Reference → Prop} {configs : List UdpLaneConfig}

theorem starts (init : ∀ {config : UdpLaneConfig}, Q config.start .new) :
    ∀ l ∈ configs.map UdpLaneConfig.start, Tracked Q l := by
  intro l hl
  obtain ⟨config, _, hc⟩ := List.mem_map.mp hl
  subst hc
  exact ⟨_, .start, fun _ => ⟨_, init⟩⟩

theorem step
    (keeps : ∀ {p r}, Q l r → l.Wired p → l.wire.length ≤ LANE_BOUND → ∃ r', Q l' r')
    (t : Tracked Q l) (h : UdpLane.step (budget, l) e = some (budget', l')) : Tracked Q l' := by
  obtain ⟨p, w, x⟩ := t
  refine ⟨p, w.step h, fun hb => ?_⟩
  have hb := (step_effect h).length_wire_le.trans hb
  obtain ⟨r, x⟩ := x hb
  exact keeps x w hb

end Tracked

section Run

variable {configs : List UdpLaneConfig} {events : List (Nat × UdpLaneEvent)} {lanes : List UdpLane}

-- Any number of streams over any network, with or without a shared budget.
theorem reported_run
    (h : System.run (System.interleave step) (budget, configs.map UdpLaneConfig.start) events =
      some (budget', lanes))
    (hl : l ∈ lanes) (hb : l.wire.length ≤ LANE_BOUND) (jitterMs jitterMaxMs : Float) :
    l.Reported (l.sink.finish jitterMs jitterMaxMs) := by
  obtain ⟨p, w, x⟩ : Tracked Heard l :=
    System.run_forall
      (fun h t => t.step (fun x w hb => x.step w hb (step_effect h)) h) (Tracked.starts .start) h l hl
  obtain ⟨r, x⟩ := x hb
  exact x.reported w hb

theorem exact_run
    (h : System.run (System.interleave (System.guard step fun s e => s.2.steady e))
      (budget, configs.map UdpLaneConfig.start) events = some (budget', lanes))
    (hl : l ∈ lanes) (hb : l.wire.length ≤ LANE_BOUND) (jitterMs jitterMaxMs : Float) :
    l.Exact (l.sink.finish jitterMs jitterMaxMs) := by
  have step {b b' : Option ByteBudget} {l l' : UdpLane} {e : UdpLaneEvent}
      (h : System.guard step (fun s e => s.2.steady e) (b, l) e = some (b', l'))
      (t : Tracked Settled l) : Tracked Settled l' := by
    obtain ⟨steady, h⟩ := System.guard_eq_some.mp h
    exact t.step (fun x w hb => x.step w hb steady (step_effect h)) h
  obtain ⟨_, _, x⟩ : Tracked Settled l := System.run_forall step (Tracked.starts .start) h l hl
  obtain ⟨r, x⟩ := x hb
  exact x.exact hb

end Run

-- Two streams share a budget. The first one is lossy, and what arrives late is counted.
section Example

def sixteen (ack : Option Bytes) : UdpLaneConfig where
  packetSize    := ⟨16, by decide, by decide⟩
  targetBitrate := 0
  finite        := false
  packet        := .replicate 16 0
  singlePortAck := ack

def sendOne (i : Nat) : List (Nat × UdpLaneEvent) :=
  [(i, .send .claim), (i, .send .load), (i, .send (.attempt false)), (i, .transmit 7)]

def lossy : List (Nat × UdpLaneEvent) :=
  [[(0, .send .proceed), (0, .send .start)], sendOne 0, sendOne 0, sendOne 0,
    [(1, .send .proceed), (1, .send .start)], sendOne 1,
    [(0, .arrive 2), (0, .arrive 2), (1, .arrive 0), (0, .stop), (0, .arrive 0), (0, .arrive 0)]].flatten

theorem reported_run_lossy : ∃ b l l',
    System.run (System.interleave step) (some ⟨100⟩, [sixteen none, sixteen none].map (·.start)) lossy =
      some (b, [l, l']) ∧
    l.arrivals = [2, 2] ∧ l.late = [0, 0] ∧ l.Reported (l.sink.finish 0 0) := by
  have hr : (System.run (System.interleave step)
      (some ⟨100⟩, [sixteen none, sixteen none].map (·.start)) lossy).map (fun s =>
        s.2.map fun l => (l.wire.length, l.arrivals, l.late)) =
      some [(3, [2, 2], [0, 0]), (1, [0], [])] := by decide +kernel
  obtain ⟨⟨b, lanes⟩, run, hs⟩ := Option.map_eq_some_iff.mp hr
  obtain ⟨l, _, rfl, hl, hs⟩ := List.map_eq_cons_iff.mp hs
  obtain ⟨l', _, rfl, _, hs⟩ := List.map_eq_cons_iff.mp hs
  obtain rfl := List.map_eq_nil_iff.mp hs
  obtain ⟨hw, ha⟩ := Prod.mk.inj hl
  obtain ⟨ha, ht⟩ := Prod.mk.inj ha
  have hb : l.wire.length ≤ LANE_BOUND := hw ▸ by decide
  exact ⟨b, l, l', run, ha, ht, reported_run run (List.mem_cons_self ..) hb 0 0⟩

theorem exact_run_lossy : ∃ b l l',
    System.run (System.interleave (System.guard step fun s e => s.2.steady e))
      (some ⟨100⟩, [sixteen none, sixteen none].map (·.start)) lossy = some (b, [l, l']) ∧
    l.arrivals = [2, 2] ∧ l.late = [0, 0] ∧ l.Exact (l.sink.finish 0 0) := by
  have hr : (System.run (System.interleave (System.guard step fun s e => s.2.steady e))
      (some ⟨100⟩, [sixteen none, sixteen none].map (·.start)) lossy).map (fun s =>
        s.2.map fun l => (l.wire.length, l.arrivals, l.late)) =
      some [(3, [2, 2], [0, 0]), (1, [0], [])] := by decide +kernel
  obtain ⟨⟨b, lanes⟩, run, hs⟩ := Option.map_eq_some_iff.mp hr
  obtain ⟨l, _, rfl, hl, hs⟩ := List.map_eq_cons_iff.mp hs
  obtain ⟨l', _, rfl, _, hs⟩ := List.map_eq_cons_iff.mp hs
  obtain rfl := List.map_eq_nil_iff.mp hs
  obtain ⟨hw, ha⟩ := Prod.mk.inj hl
  obtain ⟨ha, ht⟩ := Prod.mk.inj ha
  have hb : l.wire.length ≤ LANE_BOUND := hw ▸ by decide
  exact ⟨b, l, l', run, ha, ht, exact_run run (List.mem_cons_self ..) hb 0 0⟩

end Example
end UdpLane
