import Xfr.Tracker.Basic

namespace PacketTracker

variable {t : PacketTracker} {previous next sequence i : Nat}

theorem index_eq_mod : index sequence = sequence % PACKET_TRACKER_WINDOW :=
  Nat.and_two_pow_sub_one_eq_mod sequence 16

theorem index_lt : index sequence < PACKET_TRACKER_WINDOW :=
  index_eq_mod ▸ Nat.mod_lt _ (by decide)

theorem test_insert_index :
    (t.seen.insert (index sequence)).test i = (decide (i = index sequence) || t.seen.test i) :=
  Bitmap.test_insert (by decide) index_lt

theorem test_clearRange {start stop : Nat} (hle : start ≤ stop) (hstop : stop ≤ PACKET_TRACKER_WINDOW) :
    (t.clearRange start stop).seen.test i ↔ t.seen.test i ∧ ¬(start ≤ i ∧ i < stop) :=
  Bitmap.test_clearRange (by decide) hle hstop

-- Advancing the window touches nothing but the ring.
theorem advanceWindow_eq :
    t.advanceWindow previous next = { t with seen := (t.advanceWindow previous next).seen } := by
  simp only [advanceWindow, clearRange]
  split
  case isTrue  => dsimp only
  case isFalse => split <;> dsimp only

@[simp]
theorem advanceWindow_received : (t.advanceWindow previous next).received = t.received := by
  rw [advanceWindow_eq]

@[simp]
theorem advanceWindow_lost : (t.advanceWindow previous next).lost = t.lost := by
  rw [advanceWindow_eq]

@[simp]
theorem advanceWindow_outOfOrder : (t.advanceWindow previous next).outOfOrder = t.outOfOrder := by
  rw [advanceWindow_eq]

@[simp]
theorem advanceWindow_unconfirmedJump :
    (t.advanceWindow previous next).unconfirmedJump = t.unconfirmedJump := by
  rw [advanceWindow_eq]

-- Every position of the ring is entered when the window advances by its whole length or more.
theorem exists_entering (h : PACKET_TRACKER_WINDOW ≤ next - previous)
    (hi : i < PACKET_TRACKER_WINDOW) :
    ∃ s, previous < s ∧ s ≤ next ∧ index s = i := by
  simp only [index_eq_mod, PACKET_TRACKER_WINDOW] at *
  let offset := (i + 65536 - (previous + 1) % 65536) % 65536
  exact ⟨previous + 1 + offset, by omega, by omega, by omega⟩

-- The entering positions form a range which starts at `index (previous + 1)` and may wrap around
-- the end of the ring once.
theorem entering_iff (h : previous < next) (hd : next - previous < PACKET_TRACKER_WINDOW)
    (hi : i < PACKET_TRACKER_WINDOW) :
    (∃ s, previous < s ∧ s ≤ next ∧ index s = i) ↔
      (index (previous + 1) ≤ i ∧ i < index (previous + 1) + (next - previous)) ∨
        i + PACKET_TRACKER_WINDOW < index (previous + 1) + (next - previous) := by
  simp only [index_eq_mod, PACKET_TRACKER_WINDOW] at *
  constructor
  case mp =>
    rintro ⟨s, hl, hu, rfl⟩
    omega
  case mpr =>
    rintro (hr | hr)
    · exact ⟨previous + 1 + (i - (previous + 1) % 65536), by omega, by omega, by omega⟩
    · exact ⟨previous + 1 + (i + 65536 - (previous + 1) % 65536), by omega, by omega, by omega⟩

-- Advancing the window forgets exactly the positions which enter it.
theorem test_advanceWindow (h : previous < next) (hi : i < PACKET_TRACKER_WINDOW) :
    (t.advanceWindow previous next).seen.test i ↔
      t.seen.test i ∧ ¬∃ s, previous < s ∧ s ≤ next ∧ index s = i := by
  unfold advanceWindow
  by_cases hd : next - previous ≥ PACKET_TRACKER_WINDOW
  case pos => simp [hd, exists_entering hd hi]
  case neg =>
    have hx : index (previous + 1) < PACKET_TRACKER_WINDOW := index_lt
    rw [entering_iff h (by omega) hi]
    simp only [hd, if_false]
    split
    case isTrue hw =>
      rw [test_clearRange (by omega) (by omega), test_clearRange (by omega) (by omega), and_assoc]
      refine and_congr_right fun _ => ?_
      omega
    case isFalse hw =>
      rw [test_clearRange (by omega) (by omega)]
      refine and_congr_right fun _ => ?_
      omega

end PacketTracker
