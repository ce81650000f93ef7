import Xfr.Tracker.Refinement

namespace PacketTracker

namespace Reference

variable {r : Reference} {sequence s : Nat}

-- Behind the end of the test only gaps are filled.
def recordStraggler (r : Reference) (sequence : Nat) : Bool × Reference :=
  if r.highest.any (sequence < ·) then r.accept sequence else (false, r)

theorem held_accept : (r.accept sequence).2.held = r.held := by
  unfold accept
  split <;> rfl

theorem accepted_of_accept (h : s ∈ (r.accept sequence).2.accepted) :
    s = sequence ∨ s ∈ r.accepted := by
  unfold accept at h
  split at h
  case isTrue  => exact Finset.mem_insert.mp h
  case isFalse => exact .inr h

theorem accepted_accept (h : r.behind sequence < PACKET_TRACKER_WINDOW) :
    (r.accept sequence).2.accepted = insert sequence r.accepted := by
  unfold accept
  split
  case isTrue     => rfl
  case isFalse hn =>
    have hm : sequence ∈ r.accepted := by
      by_contra hm
      exact hn ⟨hm, h⟩
    exact (Finset.insert_eq_of_mem hm).symm

-- What is accepted or held is the new packet, or was before.
theorem held_of_record (h : s ∈ (r.record sequence).2.held) : s = sequence ∨ s ∈ r.held := by
  unfold record at h
  split at h
  case isFalse => exact .inr (held_accept ▸ h)
  case isTrue  =>
    split at h
    case h_2 => exact .inl (Option.some_inj.mp h).symm
    case h_1 =>
      split at h
      case isFalse => exact .inl (Option.some_inj.mp h).symm
      case isTrue  =>
        rw [held_accept, held_accept] at h
        contradiction

theorem accepted_of_record (h : s ∈ (r.record sequence).2.accepted) :
    s = sequence ∨ s ∈ r.accepted ∨ s ∈ r.held := by
  unfold record at h
  split at h
  case isFalse => exact (accepted_of_accept h).imp_right .inl
  case isTrue  =>
    split at h
    case h_2 => exact .inr (.inl h)
    case h_1 held hh =>
      split at h
      case isFalse => exact .inr (.inl h)
      case isTrue  =>
        rcases accepted_of_accept h with h | h
        case inl => exact .inl h
        case inr =>
          rcases accepted_of_accept h with h | h
          case inl => exact .inr (.inr (hh ▸ h ▸ rfl))
          case inr => exact .inr (.inl h)

theorem accepted_of_recordStraggler (h : s ∈ (r.recordStraggler sequence).2.accepted) :
    s = sequence ∨ s ∈ r.accepted := by
  unfold recordStraggler at h
  split at h
  case isTrue  => exact accepted_of_accept h
  case isFalse => exact .inr h

-- Where a packet is, in terms of the positions up to the high-water mark.
theorem behind_lt_iff : r.behind sequence < PACKET_TRACKER_WINDOW ↔
    r.span ≤ sequence + PACKET_TRACKER_WINDOW := by
  unfold behind span PACKET_TRACKER_WINDOW
  cases r.highest
  case none => simp
  case some =>
    simp only [Option.elim]
    omega

theorem isFar_iff : r.isFar sequence ↔ r.span + PACKET_TRACKER_WINDOW ≤ sequence := by
  unfold isFar span PACKET_TRACKER_WINDOW
  cases r.highest
  case none => simp
  case some =>
    simp only [Option.elim, decide_eq_true_eq]
    omega

theorem span_add : (r.add sequence).span = max r.span (sequence + 1) := by
  rw [span, span, highest_add]
  cases r.highest
  case none => simp
  case some =>
    simp only [Option.elim]
    omega

theorem lt_span (h : s ∈ r.accepted) : s < r.span := by
  cases hh : r.highest
  case none       => simp [highest_eq_none_iff.mp hh] at h
  case some high =>
    have hs : s ≤ high := (highest_eq_some_iff.mp hh).right s h
    simpa [span, hh] using Nat.lt_succ_of_le hs

-- A packet which is neither far ahead nor far behind is accepted, if it was not before.
theorem record_near (hf : sequence < r.span + PACKET_TRACKER_WINDOW)
    (hb : r.span ≤ sequence + PACKET_TRACKER_WINDOW) :
    (r.record sequence).2.accepted = insert sequence r.accepted ∧
      (r.record sequence).2.held = r.held ∧
      (r.record sequence).2.span = max r.span (sequence + 1) := by
  have hf : ¬r.isFar sequence := fun h => Nat.not_le_of_lt hf (isFar_iff.mp h)
  rw [record, if_neg hf]
  refine ⟨accepted_accept (behind_lt_iff.mpr hb), held_accept, ?_⟩
  unfold accept
  split
  case isTrue     => exact span_add
  case isFalse hn =>
    have hm : sequence ∈ r.accepted := by
      by_contra hm
      exact hn ⟨hm, behind_lt_iff.mpr hb⟩
    exact (Nat.max_eq_left (lt_span hm)).symm

theorem recordStraggler_near (hb : r.span ≤ sequence + PACKET_TRACKER_WINDOW) :
    (r.recordStraggler sequence = (true, r.add sequence) ∧ sequence ∉ r.accepted ∧
      sequence < r.span) ∨
    (r.recordStraggler sequence = (false, r) ∧ (sequence < r.span → sequence ∈ r.accepted)) := by
  unfold recordStraggler
  cases hh : r.highest
  case none      => exact .inr ⟨rfl, fun h => by simp [span, hh] at h⟩
  case some high =>
    obtain ⟨hm, _⟩ := highest_eq_some_iff.mp hh
    have hs : r.span = high + 1 := by simp [span, hh]
    by_cases hl : sequence < high
    case neg =>
      refine .inr ⟨by simp [hl], fun h => ?_⟩
      have he : sequence = high := by omega
      exact he ▸ hm
    case pos =>
      simp only [Option.any_some, decide_eq_true hl, if_true, accept, behind_lt_iff.mpr hb, and_true]
      by_cases ha : sequence ∈ r.accepted
      case pos => exact .inr ⟨by simp [ha], fun _ => ha⟩
      case neg => exact .inl ⟨by simp [ha], ha, by omega⟩

theorem held_recordStraggler : (r.recordStraggler sequence).2.held = r.held := by
  unfold recordStraggler
  split
  case isTrue  => exact held_accept
  case isFalse => rfl

end Reference

theorem Agrees.recordStraggler_eq {t : PacketTracker} {r : Reference} {sequence : Nat}
    (a : Agrees t r) (hs : sequence ≤ U64.max) :
    (t.recordStraggler sequence).1 = (r.recordStraggler sequence).1 ∧
      Agrees (t.recordStraggler sequence).2 (r.recordStraggler sequence).2 := by
  unfold PacketTracker.recordStraggler Reference.recordStraggler
  rw [a.highestSeen]
  split
  case isTrue  => exact a.recordTracked hs
  case isFalse => exact ⟨rfl, a⟩

end PacketTracker
