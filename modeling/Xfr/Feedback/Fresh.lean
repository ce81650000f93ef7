import Xfr.Feedback.Basic
import Xfr.Tracker.Window

namespace UdpIntervalProgress

variable {p q s : UdpIntervalProgress}

theorem isAtLeastAsFreshAs_iff : q.isAtLeastAsFreshAs p ↔
    p.packetsReceived ≤ q.packetsReceived ∧ p.expected ≤ q.expected := by
  simp [isAtLeastAsFreshAs]

instance : Preorder UdpIntervalProgress where
  le p q          := q.isAtLeastAsFreshAs p
  le_refl p       := isAtLeastAsFreshAs_iff.mpr ⟨le_refl _, le_refl _⟩
  le_trans _ _ _ h h' := by
    have ⟨hr, he⟩ := isAtLeastAsFreshAs_iff.mp h
    have ⟨hr', he'⟩ := isAtLeastAsFreshAs_iff.mp h'
    exact isAtLeastAsFreshAs_iff.mpr ⟨le_trans hr hr', le_trans he he'⟩

instance : DecidableLE UdpIntervalProgress :=
  fun p q => inferInstanceAs <| Decidable (q.isAtLeastAsFreshAs p = true)

theorem le_def : p ≤ q ↔ p.packetsReceived ≤ q.packetsReceived ∧ p.expected ≤ q.expected :=
  isAtLeastAsFreshAs_iff

theorem zero_le : zero ≤ p :=
  le_def.mpr ⟨Nat.zero_le _, Nat.zero_le _⟩

-- The counters are `u64`s.
structure Fits (p : UdpIntervalProgress) : Prop where
  received : p.packetsReceived ≤ U64.max
  lost     : p.packetsLost ≤ U64.max

theorem zero_fits : zero.Fits where
  received := Nat.zero_le _
  lost     := Nat.zero_le _

theorem le_zero (h : p ≤ zero) : p = zero := by
  have ⟨hr, he⟩ := le_def.mp h
  simp only [zero, expected, U64.saturatingAdd, U64.max] at hr he
  have hl : p.packetsLost = 0 := by omega
  cases p
  simp_all [zero]

theorem total_single (f : p.Fits) : total [p] = p := by
  have hr := f.received
  have hl := f.lost
  simp [total, zero, U64.saturatingAdd, hr, hl]

theorem foldl_total {ps : List UdpIntervalProgress} {r l : Nat} :
    ps.foldl (fun total p => UdpIntervalProgress.mk
        (U64.saturatingAdd total.packetsReceived p.packetsReceived)
        (U64.saturatingAdd total.packetsLost p.packetsLost)) ⟨r, l⟩ =
      ⟨(ps.map (·.packetsReceived)).foldl U64.saturatingAdd r,
        (ps.map (·.packetsLost)).foldl U64.saturatingAdd l⟩ := by
  induction ps generalizing r l
  case nil       => rfl
  case cons _ hi => exact hi

-- The interval messages carry the aggregate of what was read of each stream.
theorem udpProgress_toAggregate {streams : List (StreamStats × Reading)} {isBidir : Bool} :
    (toAggregateWithDirection (streams.map fun s => (s.1.recordInterval s.2).1) isBidir).udpProgress =
      aggregate (streams.map (·.2.udpProgress)) := by
  have ht : total (streams.map (·.2.udpProgress)) = ⟨_, _⟩ := foldl_total
  simp only [toAggregateWithDirection, aggregate, ht, List.map_map, isEmpty, Nat.pos_iff_ne_zero,
    decide_eq_true_eq]
  split
  case isTrue h  => rw [if_neg (by tauto)]; rfl
  case isFalse h => rw [if_pos (by tauto)]

-- One receiver published `p` and later on `q`: nothing went back, and in between it received a
-- packet, unless nothing changed. Only the saturated counter does not tell this apart.
structure Precedes (p q : UdpIntervalProgress) : Prop where
  le  : p ≤ q
  new : p = q ∨ p.packetsReceived < q.packetsReceived ∨ U64.max ≤ p.packetsReceived

namespace Precedes

theorem refl : Precedes p p where
  le  := le_refl p
  new := .inl rfl

theorem trans (h : Precedes p q) (h' : Precedes q s) : Precedes p s where
  le  := le_trans h.le h'.le
  new := by
    have hpq := (le_def.mp h.le).left
    have hqs := (le_def.mp h'.le).left
    rcases h.new with rfl | hn | hn
    · exact h'.new
    · exact .inr (.inl (Nat.lt_of_lt_of_le hn hqs))
    · exact .inr (.inr hn)

end Precedes

-- A reading which cannot be told from the newer one, except by the number of lost packets when the
-- counter of received packets is saturated.
structure Shows (kept p : UdpIntervalProgress) : Prop where
  received : kept.packetsReceived = p.packetsReceived
  expected : kept.expected = p.expected
  eq       : p.packetsReceived < U64.max → kept = p

theorem Precedes.shows (h : p = q ∨ Precedes p q) (hle : q ≤ p) : p.Shows q := by
  have hle' : p ≤ q := h.elim le_of_eq Precedes.le
  have ⟨hr, he⟩ := le_def.mp hle
  have ⟨hr', he'⟩ := le_def.mp hle'
  refine ⟨Nat.le_antisymm hr' hr, Nat.le_antisymm he' he, fun hm => ?_⟩
  rcases h with h | h
  · exact h
  · rcases h.new with h | h | h
    · exact h
    · exact absurd h (Nat.not_lt.mpr hr)
    · exact absurd hm (Nat.not_lt.mpr (le_trans h hr'))

end UdpIntervalProgress

namespace PacketTracker

open UdpIntervalProgress

variable {t : PacketTracker} {sequence : Nat}

-- The counters of a tracker are `u64`s, as are the sequence numbers, and it counts no losses before
-- the first packet.
structure Fits (t : PacketTracker) : Prop where
  progress        : t.progress.Fits
  unconfirmedJump : ∀ held ∈ t.unconfirmedJump, held ≤ U64.max
  unseen          : t.highestSeen = none → t.lost = 0

theorem new_fits : Fits new where
  progress        := zero_fits
  unconfirmedJump := by simp [new]
  unseen _        := rfl

-- What a recording does to the counters: they do not go back, and if the packet is accepted there is
-- one packet more.
structure Counts (t t' : PacketTracker) (accepted : Bool) : Prop where
  le       : t.progress ≤ t'.progress
  accepted : accepted → U64.saturatingAdd t.received 1 ≤ t'.received
  fits     : t'.Fits

namespace Counts

variable {t' t'' : PacketTracker} {accepted accepted' : Bool}

theorem refl (f : t.Fits) : Counts t t false where
  le       := le_refl _
  accepted := by simp
  fits     := f

theorem trans (h : Counts t t' accepted) (h' : Counts t' t'' accepted') :
    Counts t t'' accepted' where
  le         := le_trans h.le h'.le
  accepted a := by
    have hr : t.received ≤ t'.received := (le_def.mp h.le).left
    exact le_trans (U64.saturatingAdd_mono hr (le_refl 1)) (h'.accepted a)
  fits       := h'.fits

theorem withJump (f : t.Fits) {jump : Option Nat} (hj : ∀ held ∈ jump, held ≤ U64.max) :
    Counts t { t with unconfirmedJump := jump } false where
  le       := le_refl t.progress
  accepted := by simp
  fits     := { f with unconfirmedJump := hj }

-- A packet takes at most one loss back.
theorem mark (f : t.Fits) (hl : t'.lost ≤ U64.max) (hle : t.lost ≤ t'.lost + 1)
    (hj : t'.unconfirmedJump = t.unconfirmedJump) (hs : t'.highestSeen ≠ none)
    (hr : t'.received = t.received) : Counts t (t'.mark sequence) true where
  le := by
    have hm := f.progress.received
    simp only [le_def, progress, expected, PacketTracker.mark, hr, U64.saturatingAdd] at hm ⊢
    omega
  accepted _ := by simp [PacketTracker.mark, hr]
  fits := {
    progress        := ⟨U64.saturatingAdd_le_max, hl⟩
    unconfirmedJump := fun held h => f.unconfirmedJump held (hj ▸ h)
    unseen          := fun h => absurd h hs
  }

end Counts

theorem counts_recordTracked (f : t.Fits) (hs : sequence ≤ U64.max) :
    Counts t (t.recordTracked sequence).2 (t.recordTracked sequence).1 := by
  have hl : t.lost ≤ U64.max := f.progress.lost
  unfold recordTracked
  split
  case h_1 hh => exact .mark f hs (by simp [f.unseen hh]) rfl (by simp) rfl
  case h_2 highest hh =>
    dsimp only
    split
    case isTrue =>
      refine .mark f U64.saturatingAdd_le_max ?_ advanceWindow_unconfirmedJump (by simp) (by simp)
      simp only [advanceWindow_lost, U64.saturatingAdd]
      omega
    case isFalse =>
      split
      case isTrue  => exact .refl f
      case isFalse =>
        refine .mark f ?_ ?_ rfl (by simp [hh]) rfl
        all_goals
          simp only [U64.saturatingSub]
          omega

theorem counts_confirmJump (f : t.Fits) (hs : sequence ≤ U64.max) :
    Counts t (t.confirmJump sequence).2 false := by
  have hj : ∀ held ∈ some sequence, held ≤ U64.max := by simpa using hs
  unfold confirmJump
  split
  case h_1 held hh =>
    split
    case isTrue =>
      have hw : Counts t { t with unconfirmedJump := none } false := .withJump f (by simp)
      have hc := hw.trans (counts_recordTracked hw.fits (f.unconfirmedJump held hh))
      exact { hc with accepted := by simp }
    case isFalse => exact .withJump f hj
  case h_2 => exact .withJump f hj

theorem counts_recordUnique (f : t.Fits) (hs : sequence ≤ U64.max) :
    Counts t (t.recordUnique sequence).2 (t.recordUnique sequence).1 := by
  have hc := counts_confirmJump f hs
  unfold recordUnique
  split
  case isFalse => exact counts_recordTracked f hs
  case isTrue =>
    split
    case h_1 h =>
      rw [h] at hc
      exact hc.trans (counts_recordTracked hc.fits hs)
    case h_2 h =>
      rw [h] at hc
      exact hc

theorem counts_record (f : t.Fits) (call : Call) :
    Counts t (t.record call).2 (t.record call).1 := by
  cases call
  case recordUnique sequence => exact counts_recordUnique f (U64.le_max sequence)
  case recordStraggler sequence =>
    simp only [record, recordStraggler]
    split
    case isTrue  => exact counts_recordTracked f (U64.le_max sequence)
    case isFalse => exact .refl f

end PacketTracker

namespace Receiver

open UdpIntervalProgress

-- What was published is not ahead of the tracker.
structure Fits (r : Receiver) : Prop where
  tracker     : r.tracker.Fits
  udpProgress : r.udpProgress.Fits
  le          : r.udpProgress ≤ r.tracker.progress

theorem new_fits : Fits new where
  tracker     := PacketTracker.new_fits
  udpProgress := zero_fits
  le          := le_refl _

variable {r : Receiver} {call : Call}

theorem tracker_record : (r.record call).tracker = (r.tracker.record call).2 := by
  unfold Receiver.record
  split
  case h_1 h => rw [h]
  case h_2 h => rw [h]

theorem Fits.record (f : r.Fits) : (r.record call).Fits := by
  have hc := PacketTracker.counts_record f.tracker call
  unfold Receiver.record
  split
  case h_1 h =>
    rw [h] at hc
    exact ⟨hc.fits, hc.fits.progress, le_refl _⟩
  case h_2 h =>
    rw [h] at hc
    exact ⟨hc.fits, f.udpProgress, le_trans f.le hc.le⟩

-- The snapshots of one receiver form a chain.
theorem Fits.precedes_record (f : r.Fits) :
    r.udpProgress.Precedes (r.record call).udpProgress := by
  have hc := PacketTracker.counts_record f.tracker call
  unfold Receiver.record
  split
  case h_2 => exact .refl
  case h_1 h =>
    rw [h] at hc
    have hr : r.udpProgress.packetsReceived ≤ r.tracker.received := (le_def.mp f.le).left
    have hn := hc.accepted rfl
    refine ⟨le_trans f.le hc.le, .inr ?_⟩
    simp only [U64.saturatingAdd, PacketTracker.progress] at hn ⊢
    omega

end Receiver
