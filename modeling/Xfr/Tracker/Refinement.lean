import Xfr.Tracker.Reference
import Xfr.Tracker.Window

namespace PacketTracker

-- The tracker stores of the reference what fits: its counters, and of the set of accepted packets
-- the part within one window of the high-water mark.
structure Agrees (t : PacketTracker) (r : Reference) : Prop where
  highestSeen     : t.highestSeen = r.highest
  unconfirmedJump : t.unconfirmedJump = r.held
  received        : t.received = min r.received U64.max
  lost            : t.lost + r.received = r.span
  outOfOrder      : t.outOfOrder = r.outOfOrder
  seen            : ∀ i < PACKET_TRACKER_WINDOW, t.seen.test i ↔
                      ∃ s ∈ r.accepted, r.behind s < PACKET_TRACKER_WINDOW ∧ index s = i
  accepted_le     : ∀ s ∈ r.accepted, s ≤ U64.max
  held_le         : ∀ s ∈ r.held, s ≤ U64.max
  reordered_le    : r.outOfOrder ≤ r.received - 1

namespace Agrees

variable {t : PacketTracker} {r : Reference} {sequence : Nat}

theorem new : Agrees .new .new where
  highestSeen     := by simp [PacketTracker.new, Reference.new, Reference.highest]
  unconfirmedJump := rfl
  received        := rfl
  lost            := by
    simp [PacketTracker.new, Reference.new, Reference.received, Reference.span, Reference.highest]
  outOfOrder      := rfl
  seen            := by simp [PacketTracker.new, Reference.new]
  accepted_le     := by simp [Reference.new]
  held_le         := by simp [Reference.new]
  reordered_le    := by simp [Reference.new]

theorem withJump (a : Agrees t r) {jump : Option Nat} (h : ∀ s ∈ jump, s ≤ U64.max) :
    Agrees { t with unconfirmedJump := jump } { r with held := jump } where
  __ := a
  unconfirmedJump := rfl
  held_le         := h

theorem highest_le (a : Agrees t r) {h : Nat} (hh : r.highest = some h) : h ≤ U64.max :=
  a.accepted_le h (Reference.highest_eq_some_iff.mp hh).left

-- Within one window of the high-water mark no two packets share a position of the ring.
theorem test_index (a : Agrees t r) {h : Nat} (hh : r.highest = some h) (hl : sequence ≤ h)
    (hb : h - sequence < PACKET_TRACKER_WINDOW) :
    t.seen.test (index sequence) ↔ sequence ∈ r.accepted := by
  rw [a.seen _ index_lt]
  constructor
  case mp =>
    intro ⟨s, hm, hs, hi⟩
    have hu := (Reference.highest_eq_some_iff.mp hh).right s hm
    simp only [Reference.behind, hh, Option.elim, index_eq_mod, PACKET_TRACKER_WINDOW] at hs hi hb
    have : s = sequence := by omega
    exact this ▸ hm
  case mpr =>
    intro hm
    exact ⟨sequence, hm, by simpa [Reference.behind, hh] using hb, rfl⟩

-- The first packet: the ring is empty, and every position below the packet counts as lost.
theorem add_first (a : Agrees t r) (hh : r.highest = none) (hs : sequence ≤ U64.max) :
    Agrees ({ t with lost := sequence, highestSeen := some sequence }.mark sequence)
      (r.add sequence) := by
  have he := Reference.highest_eq_none_iff.mp hh
  have hr : r.received = 0 := by simp [Reference.received, he]
  have hn : sequence ∉ r.accepted := by simp [he]
  constructor
  case highestSeen     => simp [mark, hh]
  case unconfirmedJump => exact a.unconfirmedJump
  case outOfOrder      => simp [mark, Reference.behind, hh, a.outOfOrder]
  case held_le         => exact a.held_le
  case received        => simp [mark, a.received, Reference.received_add hn, U64.saturatingAdd_min_max]
  case lost            => simp [mark, Reference.received_add hn, hr, Reference.span, hh]
  case accepted_le     => simpa [he] using hs
  case reordered_le    =>
    have := a.reordered_le
    simpa [Reference.received_add hn, hr, Reference.behind, hh] using this
  case seen =>
    intro i hi
    have hz := a.seen i hi
    simp only [he, Finset.notMem_empty, false_and, exists_false, iff_false] at hz
    simp only [mark, test_insert_index, hz, he, hh, Reference.accepted_add, Reference.behind_add,
      Option.elim]
    simp [eq_comm, PACKET_TRACKER_WINDOW]

-- A packet above the high-water mark: the window moves, and the skipped positions count as lost.
theorem add_newer (a : Agrees t r) {h : Nat} (hh : r.highest = some h) (hl : h < sequence)
    (hs : sequence ≤ U64.max) :
    Agrees
      ({ t.advanceWindow h sequence with
        lost := U64.saturatingAdd t.lost (sequence - h - 1), highestSeen := some sequence
      }.mark sequence)
      (r.add sequence) := by
  have ⟨hm, hu⟩ := Reference.highest_eq_some_iff.mp hh
  have hn : sequence ∉ r.accepted := fun hc => absurd (hu sequence hc) (Nat.not_le_of_lt hl)
  have hb : r.behind sequence = 0 := by simp [Reference.behind, hh, hl.le]
  constructor
  case highestSeen     => simp [mark, hh, hl.le]
  case unconfirmedJump => simp [mark, a.unconfirmedJump]
  case outOfOrder      => simp [mark, hb, a.outOfOrder]
  case held_le         => exact a.held_le
  case received        => simp [mark, a.received, Reference.received_add hn, U64.saturatingAdd_min_max]
  case accepted_le     => simpa [hs] using a.accepted_le
  case reordered_le    =>
    have := a.reordered_le
    simp only [Reference.received_add hn, Reference.outOfOrder_add, hb, Nat.lt_irrefl, if_false]
    omega
  case lost =>
    have := a.lost
    simp only [Reference.span, hh, Option.elim] at this
    simp only [mark, Reference.received_add hn, Reference.span, Reference.highest_add, hh,
      Option.elim, max_eq_left hl.le]
    rw [U64.saturatingAdd_eq_add (by omega)]
    omega
  case seen =>
    intro i hi
    simp only [mark, test_insert_index, test_advanceWindow hl hi, a.seen i hi, Reference.behind_eq hh, hh,
      Option.elim, Bool.or_eq_true, decide_eq_true_eq, Reference.accepted_add, Reference.behind_add,
      Finset.mem_insert, exists_eq_or_imp, max_eq_left hl.le]
    simp only [index_eq_mod, PACKET_TRACKER_WINDOW] at hi ⊢
    constructor
    case mp =>
      rintro (rfl | ⟨⟨s, ha, hb, rfl⟩, he⟩)
      case inl => exact .inl ⟨by omega, rfl⟩
      case inr =>
        -- A packet which falls out of the window makes room for an entering one.
        refine .inr ⟨s, ha, ?_, rfl⟩
        by_contra hc
        exact he ⟨s + 65536, by omega, by omega, by omega⟩
    case mpr =>
      rintro (⟨-, rfl⟩ | ⟨s, ha, hb, rfl⟩)
      case inl => exact .inl rfl
      case inr =>
        have hs := hu s ha
        refine .inr ⟨⟨s, ha, by omega, rfl⟩, ?_⟩
        rintro ⟨s', hl', hu', hi'⟩
        omega

-- A packet below the high-water mark: it fills a gap, so at least one packet counts as lost.
theorem add_late (a : Agrees t r) {h : Nat} (hh : r.highest = some h) (hl : sequence ≤ h)
    (hn : sequence ∉ r.accepted) (hb : h - sequence < PACKET_TRACKER_WINDOW) :
    Agrees
      ({ t with
        lost := U64.saturatingSub t.lost 1, outOfOrder := U64.saturatingAdd t.outOfOrder 1
      }.mark sequence)
      (r.add sequence) := by
  have ⟨hm, hu⟩ := Reference.highest_eq_some_iff.mp hh
  have hlt : sequence < h := Nat.lt_of_le_of_ne hl fun hc => hn (hc ▸ hm)
  have hle : h ≤ U64.max := a.highest_le hh
  have hspan : r.span = h + 1 := by simp [Reference.span, hh]
  have hroom := Reference.received_lt_span hn hh hl
  have hlost := a.lost
  have hreordered := a.reordered_le
  have hpos : 0 < r.behind sequence := by simpa [Reference.behind, hh] using hlt
  constructor
  case highestSeen     => simp [mark, a.highestSeen, hh, hl]
  case unconfirmedJump => simp [mark, a.unconfirmedJump]
  case held_le         => exact a.held_le
  case received        => simp [mark, a.received, Reference.received_add hn, U64.saturatingAdd_min_max]
  case accepted_le     => simpa [hl.trans hle] using a.accepted_le
  case reordered_le    =>
    have : 0 < r.received := Finset.card_pos.mpr ⟨h, hm⟩
    simp only [Reference.received_add hn, Reference.outOfOrder_add, hpos, if_true]
    omega
  case outOfOrder =>
    simp only [mark, Reference.outOfOrder_add, hpos, if_true, a.outOfOrder]
    exact U64.saturatingAdd_eq_add (by omega)
  case lost =>
    simp only [mark, U64.saturatingSub, Reference.received_add hn, Reference.span,
      Reference.highest_add, hh, Option.elim, max_eq_right hl]
    omega
  case seen =>
    intro i hi
    simp only [mark, test_insert_index, a.seen i hi, Reference.behind_eq hh, hh, Option.elim,
      Bool.or_eq_true, decide_eq_true_eq, Reference.accepted_add, Reference.behind_add,
      Finset.mem_insert, exists_eq_or_imp, max_eq_right hl, hb, true_and]
    simp only [eq_comm]

-- The bounded tracker and the reference decide alike on every packet which is no far jump.
theorem recordTracked (a : Agrees t r) (hs : sequence ≤ U64.max) :
    (t.recordTracked sequence).1 = (r.accept sequence).1 ∧
    Agrees (t.recordTracked sequence).2 (r.accept sequence).2 := by
  unfold PacketTracker.recordTracked Reference.accept
  rw [a.highestSeen]
  cases hh : r.highest
  case none =>
    have he := Reference.highest_eq_none_iff.mp hh
    simpa [he, Reference.behind, hh, PACKET_TRACKER_WINDOW] using a.add_first hh hs
  case some h =>
    obtain ⟨_, hu⟩ := Reference.highest_eq_some_iff.mp hh
    by_cases hl : h < sequence
    case pos =>
      have hn : sequence ∉ r.accepted := fun hc => absurd (hu sequence hc) (Nat.not_le_of_lt hl)
      simpa [hl, hn, Reference.behind, hh, hl.le, PACKET_TRACKER_WINDOW] using a.add_newer hh hl hs
    case neg =>
      have hle := Nat.le_of_not_lt hl
      by_cases hb : h - sequence < PACKET_TRACKER_WINDOW
      case neg => simp [hl, Reference.behind_eq hh, hb, Nat.le_of_not_lt hb, a]
      case pos =>
        by_cases hn : sequence ∈ r.accepted
        case pos => simp [hl, a.test_index hh hle hb, hn, a]
        case neg =>
          simpa [hl, Reference.behind_eq hh, hb, Nat.not_le_of_lt hb, a.test_index hh hle hb, hn,
            a.highestSeen, hh] using a.add_late hh hle hn hb

theorem jump_gt_iff (a : Agrees t r) :
    t.jump sequence > PACKET_TRACKER_WINDOW ↔ r.isFar sequence := by
  unfold jump Reference.isFar
  rw [a.highestSeen]
  cases r.highest
  case none =>
    simp only [U64.saturatingAdd, U64.max, PACKET_TRACKER_WINDOW, decide_eq_true_eq]
    omega
  case some h =>
    simp only [U64.saturatingSub, decide_eq_true_eq]
    omega

theorem recordUnique (a : Agrees t r) (hs : sequence ≤ U64.max) :
    (t.recordUnique sequence).1 = (r.record sequence).1 ∧
    Agrees (t.recordUnique sequence).2 (r.record sequence).2 := by
  unfold PacketTracker.recordUnique Reference.record confirmJump
  by_cases hf : r.isFar sequence
  case neg => simpa [hf, a.jump_gt_iff] using a.recordTracked hs
  case pos =>
    simp only [hf, a.jump_gt_iff, if_true, a.unconfirmedJump]
    cases hh : r.held
    case none => exact ⟨rfl, a.withJump (by simpa using hs)⟩
    case some held =>
      by_cases hc : U64.absDiff held sequence < PACKET_TRACKER_WINDOW
      case neg => simpa [hc] using a.withJump (by simpa using hs)
      case pos =>
        have hw : Agrees { t with unconfirmedJump := none } { r with held := none } :=
          a.withJump (by simp)
        obtain ⟨_, ha⟩ := hw.recordTracked (a.held_le held hh)
        simpa [hc] using ha.recordTracked hs

theorem run (sequences : List UInt64) :
    machine.outputs .new sequences = Reference.machine.outputs .new sequences ∧
    Agrees (machine.after .new sequences) (Reference.machine.after .new sequences) :=
  Mealy.run_simulates (fun _ _ s a => a.recordUnique (U64.le_max s)) .new sequences

end Agrees

-- Over every run the tracker decides like the reference and counts like it. Only the counter of
-- received packets has a bound which the reference can exceed.
theorem refines_reference (sequences : List UInt64) :
    machine.outputs .new sequences = Reference.machine.outputs .new sequences ∧
    (machine.after .new sequences).received =
      min (Reference.machine.after .new sequences).received U64.max ∧
    (machine.after .new sequences).lost + (Reference.machine.after .new sequences).received =
      (Reference.machine.after .new sequences).span ∧
    (machine.after .new sequences).lost = (Reference.machine.after .new sequences).lost ∧
    (machine.after .new sequences).outOfOrder =
      (Reference.machine.after .new sequences).outOfOrder := by
  have ⟨ho, a⟩ := Agrees.run sequences
  have hl : (machine.after .new sequences).lost = (Reference.machine.after .new sequences).lost := by
    simp [Reference.lost, ← a.lost]
  exact ⟨ho, a.received, a.lost, hl, a.outOfOrder⟩

-- The first `n` sequence numbers in order.
def inOrder (n : Nat) : List UInt64 :=
  (List.range n).map UInt64.ofNat

theorem inOrder_succ (n : Nat) : inOrder (n + 1) = inOrder n ++ [UInt64.ofNat n] := by
  simp [inOrder, List.range_succ]

theorem accepted_inOrder {n : Nat} (h : n ≤ 2 ^ 64) :
    (Reference.machine.after .new (inOrder n)).accepted = Finset.range n := by
  induction n
  case zero => rfl
  case succ n hi =>
    have hi := hi (by omega)
    have hn : (UInt64.ofNat n).toNat = n := UInt64.toNat_ofNat_of_lt' (Nat.lt_of_succ_le h)
    rw [inOrder_succ, Mealy.after_concat]
    generalize Reference.machine.after .new (inOrder n) = r at *
    have hh : r.highest = if n = 0 then none else some (n - 1) := by
      split
      case isTrue hz  => simp [Reference.highest_eq_none_iff, hi, hz]
      case isFalse hz =>
        rw [Reference.highest_eq_some_iff, hi]
        exact ⟨by simp; omega, fun s hs => by simp at hs; omega⟩
    have hf : ¬r.isFar n := by
      rw [Reference.isFar, hh, PACKET_TRACKER_WINDOW]
      split <;> split at * <;> simp_all
      omega
    have hb : r.behind n < PACKET_TRACKER_WINDOW := by
      rw [Reference.behind, hh, PACKET_TRACKER_WINDOW]
      split <;> simp
    simp [Reference.machine, hn, Reference.record, hf, Reference.accept, hi, hb, Finset.range_add_one]

-- Once every sequence number has arrived, one packet more was accepted than the counter can hold.
theorem received_ne_reference :
    (machine.after .new (inOrder (2 ^ 64))).received ≠
      (Reference.machine.after .new (inOrder (2 ^ 64))).received := by
  have ⟨_, a⟩ := Agrees.run (inOrder (2 ^ 64))
  have hr : (Reference.machine.after .new (inOrder (2 ^ 64))).received = 2 ^ 64 := by
    rw [Reference.received, accepted_inOrder (le_refl _), Finset.card_range]
  rw [a.received, hr, U64.max]
  omega

end PacketTracker
