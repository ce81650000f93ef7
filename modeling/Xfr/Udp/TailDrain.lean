import Xfr.Report.UdpStats
import Xfr.Udp.Lanes

namespace UdpReceive

-- What the socket yields within the window after the test, where `none` is a failure. Nothing is waited
-- for when no packet is missing any more.
def tailDrain (s : UdpReceive) : List (Option Bytes) → UdpReceive × List (Option Bytes)
  | []                => (s, [])
  | result :: results =>
    if s.receiver.tracker.lost > 0 then
      tailDrain (result.elim s s.drain) results
    else
      (s, result :: results)

-- What a receiver reports in the end. The jitter is the one of its calculator.
def finish (s : UdpReceive) (jitterMs jitterMaxMs : Float) : UdpStats :=
  let t           := s.receiver.tracker
  let packetsSent := U64.saturatingAdd t.received t.lost
  {
    packetsSent     := packetsSent
    packetsReceived := t.received
    lost            := t.lost
    lostPercent     := UdpStats.percent t.lost packetsSent
    jitterMs        := jitterMs
    outOfOrder      := t.outOfOrder
    jitterMaxMs     := some jitterMaxMs
    packetSize      := s.packetSize
  }

end UdpReceive

namespace PacketTracker

-- The number of sequence positions up to the high-water mark.
def span (t : PacketTracker) : Nat :=
  t.highestSeen.elim 0 (· + 1)

-- The packets which are no longer lost were received. The counter of received packets is the only one
-- which can be too small for that.
structure FillsGaps (t t' : PacketTracker) : Prop where
  highestSeen : t'.highestSeen = t.highestSeen
  lost_le     : t'.lost ≤ t.lost
  received_eq : t'.received = min (t.received + (t.lost - t'.lost)) U64.max
  total_eq    : t.highestSeen ≠ some U64.max → t'.received + t'.lost = t.received + t.lost

-- More packets are accepted, but none above the high-water mark.
structure Reference.Grows (r r' : Reference) : Prop where
  highest     : r'.highest = r.highest
  received_le : r.received ≤ r'.received

variable {t t' : PacketTracker} {r r' r'' : Reference} {sequence : Nat}

theorem Reference.Grows.refl : r.Grows r where
  highest     := rfl
  received_le := Nat.le_refl _

theorem Reference.Grows.trans (g : r.Grows r') (g' : r'.Grows r'') : r.Grows r'' where
  highest     := g'.highest.trans g.highest
  received_le := g.received_le.trans g'.received_le

theorem Reference.Grows.accept {h : Nat} (hh : r.highest = some h) (hl : sequence ≤ h) :
    r.Grows (r.accept sequence).2 where
  highest     := by
    unfold Reference.accept
    split
    case isTrue  => rw [Reference.highest_add, hh, Option.elim, max_eq_right hl]
    case isFalse => rfl
  received_le := received_le_accept

namespace Agrees

theorem span_eq (a : Agrees t r) : t.span = r.span := by
  rw [span, a.highestSeen, Reference.span]

theorem received_eq_span (a : Agrees t r) : t.received = min (t.span - t.lost) U64.max := by
  rw [a.received, a.span_eq, ← a.lost, Nat.add_sub_cancel_left]

theorem lost_le_span (a : Agrees t r) : t.lost ≤ t.span := by
  rw [a.span_eq, ← a.lost]
  exact Nat.le_add_right ..

-- All positions but one fit into a counter.
theorem span_le (a : Agrees t r) (hm : t.highestSeen ≠ some U64.max) : t.span ≤ U64.max := by
  unfold span
  cases hh : t.highestSeen
  case none => exact Nat.zero_le _
  case some h =>
    have hl : h ≤ U64.max := a.highest_le (a.highestSeen ▸ hh)
    exact Nat.lt_of_le_of_ne hl fun he => hm (he ▸ hh)

theorem total (a : Agrees t r) (hm : t.highestSeen ≠ some U64.max) :
    t.received + t.lost = t.span := by
  have := a.lost_le_span
  have := a.span_le hm
  rw [a.received_eq_span]
  omega

theorem fillsGaps (a : Agrees t r) (a' : Agrees t' r') (g : r.Grows r') : FillsGaps t t' := by
  have hh : t'.highestSeen = t.highestSeen := by rw [a'.highestSeen, g.highest, a.highestSeen]
  have hs : r'.span = r.span := by rw [Reference.span, g.highest, Reference.span]
  have hl  := a.lost
  have hl' := a'.lost
  have hg  := g.received_le
  exact {
    highestSeen := hh
    lost_le     := by omega
    received_eq := by
      rw [a'.received, a.received]
      omega
    total_eq    := fun hm => by rw [a'.total (hh ▸ hm), a.total hm, span, span, hh]
  }

-- A straggler is not above the high-water mark.
theorem recordStraggler (a : Agrees t r) (hs : sequence ≤ U64.max) :
    ∃ r', Agrees (t.recordStraggler sequence).2 r' ∧ r.Grows r' := by
  unfold PacketTracker.recordStraggler
  split
  case isFalse => exact ⟨r, a, .refl⟩
  case isTrue h =>
    have ⟨h, hh, hl⟩ := Option.any_eq_true _ _ |>.mp h
    have hl : sequence < h := by simpa using hl
    exact ⟨_, (a.recordTracked hs).right, .accept (a.highestSeen ▸ hh) hl.le⟩

end Agrees
end PacketTracker

namespace UdpReceive

open PacketTracker (Agrees Reference FillsGaps)

variable {s : UdpReceive} {ack : Option Bytes} {d : Bytes} {r : Reference}
  {tail : List (Option Bytes)}

theorem agrees_receive (a : Agrees s.receiver.tracker r) :
    ∃ r', Agrees (s.receive ack d).2.receiver.tracker r' := by
  unfold receive
  split
  case isTrue => exact ⟨r, a⟩
  case isFalse =>
    split
    case isTrue => exact ⟨r, a⟩
    case isFalse =>
      dsimp only
      split
      case h_1 => exact ⟨r, a⟩
      case h_2 header _ =>
        rw [tracker_record]
        exact ⟨_, (a.recordUnique (U64.le_max header.sequence)).right⟩

theorem agrees_drain (a : Agrees s.receiver.tracker r) :
    ∃ r', Agrees (s.drain d).receiver.tracker r' ∧ r.Grows r' := by
  unfold drain
  split
  case isTrue => exact ⟨r, a, .refl⟩
  case isFalse =>
    split
    case h_1 => exact ⟨r, a, .refl⟩
    case h_2 header _ =>
      dsimp only
      split
      case isTrue =>
        rw [tracker_record]
        exact a.recordStraggler (U64.le_max header.sequence)
      case isFalse =>
        rw [tracker_record]
        exact a.recordStraggler (U64.le_max header.sequence)

theorem agrees_run {live : List Bytes} : ∃ r, Agrees (run ack live []).receiver.tracker r := by
  let Inv (s : UdpReceive) : Prop := ∃ r, Agrees s.receiver.tracker r
  have init : Inv new := ⟨_, .new⟩
  have step (s : UdpReceive) (d : Bytes) (_ : d ∈ live) : Inv s → Inv (s.receive ack d).2 :=
    fun ⟨_, a⟩ => agrees_receive a
  exact List.foldl_invariant init step

theorem agrees_tailDrain (a : Agrees s.receiver.tracker r) :
    ∃ r', Agrees (s.tailDrain tail).1.receiver.tracker r' ∧ r.Grows r' := by
  induction tail generalizing s r
  case nil => exact ⟨r, a, .refl⟩
  case cons result results hi =>
    unfold tailDrain
    split
    case isFalse => exact ⟨r, a, .refl⟩
    case isTrue =>
      cases result
      case none => exact hi a
      case some d =>
        have ⟨r', a', g⟩ := agrees_drain (d := d) a
        have ⟨r'', a'', g'⟩ := hi a'
        exact ⟨r'', a'', g.trans g'⟩

theorem finish_packetsSent (a : Agrees s.receiver.tracker r) {jitterMs jitterMaxMs : Float} :
    (s.finish jitterMs jitterMaxMs).packetsSent = min s.receiver.tracker.span U64.max := by
  have := a.lost_le_span
  simp only [finish, U64.saturatingAdd, a.received_eq_span]
  omega

-- Another datagram is read whenever a packet is missing, and only then.
theorem tailDrain_reads : ∃ read, tail = read ++ (s.tailDrain tail).2 ∧
    (∀ k < read.length, 0 < (s.tailDrain (read.take k)).1.receiver.tracker.lost) ∧
    ((s.tailDrain tail).2 ≠ [] → (s.tailDrain tail).1.receiver.tracker.lost = 0) := by
  induction tail generalizing s
  case nil => exact ⟨[], rfl, nofun, fun h => absurd rfl h⟩
  case cons result results hi =>
    by_cases hl : s.receiver.tracker.lost > 0
    case neg =>
      rw [tailDrain, if_neg hl]
      exact ⟨[], rfl, nofun, fun _ => Nat.eq_zero_of_not_pos hl⟩
    case pos =>
      have ⟨read, he, hr, hu⟩ := hi (s := result.elim s s.drain)
      rw [tailDrain, if_pos hl]
      refine ⟨result :: read, congrArg (result :: ·) he, fun k hk => ?_, hu⟩
      cases k
      case zero => exact hl
      case succ k =>
        rw [List.take_succ_cons, tailDrain, if_pos hl]
        exact hr k (Nat.lt_of_succ_lt_succ hk)

-- The window after the test, when nothing goes wrong with the socket.
theorem run_eq_tailDrain {live tail : List Bytes} :
    run ack live tail = ((run ack live []).tailDrain (tail.map some)).1 := by
  have h (s : UdpReceive) : tail.foldl drain s = (s.tailDrain (tail.map some)).1 := by
    induction tail generalizing s
    case nil => rfl
    case cons d tail hi =>
      rw [List.foldl_cons, hi, List.map_cons, tailDrain]
      split
      case isTrue  => rfl
      case isFalse hl =>
        have hz : s.receiver.tracker.lost = 0 := Nat.eq_zero_of_not_pos hl
        rw [drain, if_pos hz]
        cases tail
        case nil       => rfl
        case cons d tl => rw [List.map_cons, tailDrain, if_neg hl]
  exact h (run ack live [])

-- At any time within the window, more datagrams leave the high-water mark where it is, and do nothing
-- but fill gaps. In the end the positions up to the mark are accounted for, as far as a counter goes.
theorem tailDrain_sound (ack : Option Bytes) (live : List Bytes)
    (before tail : List (Option Bytes)) (jitterMs jitterMaxMs : Float) :
    let s     := ((run ack live []).tailDrain before).1
    let s'    := (s.tailDrain tail).1
    let stats := s'.finish jitterMs jitterMaxMs
    FillsGaps s.receiver.tracker s'.receiver.tracker ∧
    stats.packetsSent = min s'.receiver.tracker.span U64.max ∧
    (s'.receiver.tracker.highestSeen ≠ some U64.max →
      stats.packetsSent = s'.receiver.tracker.span ∧
      stats.packetsSent = stats.packetsReceived + stats.lost) ∧
    ∃ read, tail = read ++ (s.tailDrain tail).2 ∧
      (∀ k < read.length, 0 < (s.tailDrain (read.take k)).1.receiver.tracker.lost) ∧
      ((s.tailDrain tail).2 ≠ [] → s'.receiver.tracker.lost = 0) := by
  intro s s' stats
  have ⟨_, a⟩ := @agrees_run ack live
  have ⟨_, a, _⟩ := @agrees_tailDrain _ _ before a
  have ⟨_, a', g⟩ := @agrees_tailDrain _ _ tail a
  have sent : stats.packetsSent = min s'.receiver.tracker.span U64.max := finish_packetsSent a'
  refine ⟨a.fillsGaps a' g, sent, fun hm => ?_, tailDrain_reads⟩
  have le := a'.span_le hm
  have total := a'.total hm
  exact ⟨sent.trans (Nat.min_eq_left le), sent.trans ((Nat.min_eq_left le).trans total.symm)⟩

-- The last two sequence numbers there are.
theorem last_uncounted :
    let s := run none [List.replicate 7 255 ++ 254 :: List.replicate 8 0,
      List.replicate 8 255 ++ List.replicate 8 0] []
    let stats := s.finish 0 0
    s.receiver.tracker.highestSeen = some U64.max ∧
      stats.packetsSent ≠ stats.packetsReceived + stats.lost := by
  decide

end UdpReceive
