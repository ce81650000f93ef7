import Xfr.Tracker.Refinement

namespace PacketTracker

variable {t : PacketTracker} {r : Reference} {sequence : Nat}

def withJump (t : PacketTracker) (jump : Option Nat) : PacketTracker :=
  { t with unconfirmedJump := jump }

-- What a test reports about its packets.
def counters (t : PacketTracker) : Nat × Nat × Nat :=
  (t.received, t.lost, t.outOfOrder)

-- A packet which skips the whole window.
def isFarJump (t : PacketTracker) (sequence : Nat) : Bool :=
  t.jump sequence > PACKET_TRACKER_WINDOW

theorem Agrees.counters (a : Agrees t r) :
    t.counters = (min r.received U64.max, r.lost, r.outOfOrder) := by
  simp [PacketTracker.counters, a.received, a.outOfOrder, Reference.lost, ← a.lost]

def isNear (a b : Nat) : Bool :=
  U64.absDiff a b < PACKET_TRACKER_WINDOW

-- Whether the first far jump of a run lands close to the one which is held back at its start, so
-- that the held packet is counted after all.
def confirmsHeld (t : PacketTracker) : List UInt64 → Bool
  | [] => false
  | sequence :: rest =>
    if t.isFarJump sequence.toNat then
      t.unconfirmedJump.any (isNear · sequence.toNat)
    else
      (t.recordUnique sequence.toNat).2.confirmsHeld rest

@[simp]
theorem counters_withJump {jump : Option Nat} : (t.withJump jump).counters = t.counters :=
  rfl

@[simp]
theorem highestSeen_withJump {jump : Option Nat} : (t.withJump jump).highestSeen = t.highestSeen :=
  rfl

@[simp]
theorem isFarJump_withJump {jump : Option Nat} :
    (t.withJump jump).isFarJump sequence = t.isFarJump sequence :=
  rfl

@[simp]
theorem withJump_withJump {j j' : Option Nat} : (t.withJump j).withJump j' = t.withJump j' :=
  rfl

theorem advanceWindow_withJump {jump : Option Nat} {previous next : Nat} :
    (t.withJump jump).advanceWindow previous next =
      (t.advanceWindow previous next).withJump jump := by
  simp only [advanceWindow, clearRange, withJump]
  split
  case isTrue  => dsimp only
  case isFalse => split <;> dsimp only

-- Only far jumps look at the packet which is held back.
theorem recordTracked_withJump {jump : Option Nat} :
    (t.withJump jump).recordTracked sequence =
      ((t.recordTracked sequence).1, (t.recordTracked sequence).2.withJump jump) := by
  unfold recordTracked
  rw [highestSeen_withJump]
  cases t.highestSeen
  case none   => rfl
  case some h =>
    simp only [advanceWindow_withJump]
    by_cases hl : sequence > h
    case pos => simp [hl, withJump, mark]
    case neg =>
      by_cases hb : h - sequence ≥ PACKET_TRACKER_WINDOW ∨ t.seen.test (index sequence)
      case pos => simp only [hl, if_false, withJump, hb, if_true]
      case neg => simp only [hl, if_false, withJump, hb, mark]

theorem recordUnique_of_not_far (h : ¬t.isFarJump sequence) :
    t.recordUnique sequence = t.recordTracked sequence := by
  simp_all [recordUnique, isFarJump]

-- A far jump away from the held one replaces it and changes nothing else.
theorem recordUnique_of_replaces (h : t.isFarJump sequence)
    (hn : t.unconfirmedJump.any (isNear · sequence) = false) :
    t.recordUnique sequence = (false, t.withJump sequence) := by
  cases hj : t.unconfirmedJump <;>
    simp_all [recordUnique, isFarJump, confirmJump, withJump, isNear, Nat.not_lt_of_le]

namespace Reference

theorem received_le_accept : r.received ≤ (r.accept sequence).2.received := by
  unfold accept
  split
  case isTrue h  => simp [received_add h.left]
  case isFalse _ => exact le_refl _

theorem received_accept_newer (h : ∀ m ∈ r.highest, m < sequence) :
    (r.accept sequence).2.received = r.received + 1 := by
  have hn : sequence ∉ r.accepted := by
    intro hc
    cases hh : r.highest
    case none   => simp [highest_eq_none_iff.mp hh] at hc
    case some m => exact absurd ((highest_eq_some_iff.mp hh).right _ hc) (h m hh).not_ge
  have hb : r.behind sequence < PACKET_TRACKER_WINDOW := by
    cases hh : r.highest
    case none   => simp [behind, hh, PACKET_TRACKER_WINDOW]
    case some m => simp [behind, hh, (h m hh).le, PACKET_TRACKER_WINDOW]
  simp [accept, hn, hb, received_add hn]

-- A far jump close to the held one releases it: at least the held packet is counted now.
theorem received_lt_of_confirms (hf : r.isFar sequence) (hc : r.held.any (isNear · sequence)) :
    r.received < (r.record sequence).2.received := by
  cases hh : r.held
  case none => simp [hh] at hc
  case some held =>
    simp only [hh, Option.any_some, isNear, decide_eq_true_eq] at hc
    have hn : ∀ m ∈ ({ r with held := none } : Reference).highest, m < held := by
      intro m hm
      have hf : m + PACKET_TRACKER_WINDOW < sequence := by
        simpa [isFar, show r.highest = some m from hm] using hf
      have := U64.absDiff_lt_iff.mp hc
      omega
    simp only [record, hf, hh, hc, if_true]
    calc r.received
      _ < (({ r with held := none } : Reference).accept held).2.received := by
            rw [received_accept_newer hn]
            exact Nat.lt_succ_self _
      _ ≤ _ := received_le_accept

end Reference

theorem received_lt_of_confirms (a : Agrees t r) (hs : sequence ≤ U64.max)
    (hf : t.isFarJump sequence) (hc : t.unconfirmedJump.any (isNear · sequence)) :
    t.received < (t.recordUnique sequence).2.received := by
  have hf : r.isFar sequence := a.jump_gt_iff.mp (by simpa [isFarJump] using hf)
  have hlt := Reference.received_lt_of_confirms hf (a.unconfirmedJump ▸ hc)
  have hmax : r.received < U64.max := by
    have := r.received_le_span
    unfold Reference.span Reference.isFar at *
    cases hh : r.highest <;> simp_all [PACKET_TRACKER_WINDOW] <;> omega
  rw [a.received, (a.recordUnique hs).right.received]
  omega

-- Holding back a packet which no packet of the run comes close to goes unnoticed until the run
-- confirms the packet which was held back before.
theorem counters_withJump_iff (a : Agrees t r) {stray : Nat} {rest : List UInt64}
    (hr : ∀ s ∈ rest, ¬isNear stray s.toNat) :
    (∀ k, (machine.after (t.withJump stray) (rest.take k)).counters =
      (machine.after t (rest.take k)).counters) ↔ ¬t.confirmsHeld rest := by
  induction rest generalizing t r
  case nil => simp [confirmsHeld]
  case cons s rest hi =>
    have hs : s.toNat ≤ U64.max := U64.le_max s
    have ⟨hn, hr⟩ := List.forall_mem_cons.mp hr
    rw [confirmsHeld]
    by_cases hf : t.isFarJump s.toNat
    case pos =>
      have hm : (machine (t.withJump stray) s).2 = t.withJump s.toNat := by
        rw [machine, recordUnique_of_replaces (by simpa using hf) (by simpa [withJump] using hn)]
        rfl
      simp only [hf, if_true]
      by_cases hc : t.unconfirmedJump.any (isNear · s.toNat)
      case pos =>
        simp only [hc, not_true, iff_false, not_forall]
        refine ⟨1, ?_⟩
        simp only [List.take_succ_cons, List.take_zero, Mealy.after_cons, Mealy.after_nil, hm]
        intro he
        have := received_lt_of_confirms a hs hf hc
        have : t.received = (machine t s).2.received := congrArg Prod.fst he
        simp only [machine] at this
        omega
      case neg =>
        have hm' : (machine t s).2 = t.withJump s.toNat := by
          rw [machine, recordUnique_of_replaces hf (by simpa using hc)]
        simp only [hc, Bool.false_eq_true, not_false_eq_true, iff_true]
        intro k
        cases k
        case zero   => simp
        case succ k => simp [hm, hm']
    case neg =>
      have hm : (machine (t.withJump stray) s).2 = (machine t s).2.withJump stray := by
        rw [machine, machine, recordUnique_of_not_far hf, recordUnique_of_not_far (by simpa using hf),
          recordTracked_withJump]
      simp only [hf, Bool.false_eq_true, if_false]
      rw [← hi (a.recordUnique hs).right hr]
      constructor
      case mp =>
        intro h k
        have hk := h (k + 1)
        rwa [List.take_succ_cons, Mealy.after_cons, Mealy.after_cons, hm] at hk
      case mpr =>
        intro h k
        cases k
        case zero   => simp
        case succ k =>
          rw [List.take_succ_cons, Mealy.after_cons, Mealy.after_cons, hm]
          exact h k

@[simp]
theorem recordTracked_unconfirmedJump :
    (t.recordTracked sequence).2.unconfirmedJump = t.unconfirmedJump := by
  have h : (t.withJump t.unconfirmedJump).recordTracked sequence = _ := recordTracked_withJump
  rw [show t.withJump t.unconfirmedJump = t from rfl] at h
  rw [h]
  rfl

theorem held_recordUnique {held : Nat}
    (h : (t.recordUnique sequence).2.unconfirmedJump = some held) :
    t.unconfirmedJump = some held ∨ sequence = held := by
  by_cases hf : t.isFarJump sequence
  case neg => exact .inl (by simpa [recordUnique_of_not_far hf] using h)
  case pos =>
    by_cases hc : t.unconfirmedJump.any (isNear · sequence)
    case neg =>
      rw [recordUnique_of_replaces hf (by simpa using hc)] at h
      exact .inr (by simpa [withJump] using h)
    case pos =>
      cases hj : t.unconfirmedJump <;>
        simp_all [recordUnique, isFarJump, confirmJump, isNear]

-- Only packets which arrived are held back.
theorem held_mem {before : List UInt64} {held : Nat}
    (h : (machine.after .new before).unconfirmedJump = some held) :
    ∃ s ∈ before, s.toNat = held := by
  induction before using List.reverseRecOn generalizing held
  case nil => simp [new] at h
  case append_singleton before s hi =>
    rw [Mealy.after_concat] at h
    rcases held_recordUnique h with hh | rfl
    · obtain ⟨s', hm, hs⟩ := hi hh
      exact ⟨s', by simp [hm], hs⟩
    · exact ⟨s, by simp, rfl⟩

-- A lone stray packet is a far jump which no packet of the run comes close to. It changes the
-- counters exactly when it takes the place of a far jump which the run goes on to confirm.
theorem stray_harmless_iff (before rest : List UInt64) (stray : UInt64)
    (hf : (machine.after .new before).isFarJump stray.toNat)
    (hl : ∀ s ∈ before ++ rest, ¬isNear stray.toNat s.toNat) :
    (∀ k, (machine.after .new (before ++ stray :: rest.take k)).counters =
      (machine.after .new (before ++ rest.take k)).counters) ↔
    ¬(machine.after .new before).confirmsHeld rest := by
  have ⟨_, a⟩ := Agrees.run before
  have hb := List.forall_mem_append.mp hl
  have hn : (machine.after .new before).unconfirmedJump.any (isNear · stray.toNat) = false := by
    cases hj : (machine.after .new before).unconfirmedJump
    case none => rfl
    case some held =>
      have ⟨s, hm, hs⟩ := held_mem hj
      simpa [isNear, ← hs, U64.absDiff_comm] using hb.left s hm
  have hm : (machine (machine.after .new before) stray).2 =
      (machine.after .new before).withJump stray.toNat := by
    rw [machine, recordUnique_of_replaces hf hn]
  simp only [Mealy.after_append, Mealy.after_cons, hm]
  exact counters_withJump_iff a hb.right

theorem stray_after_first_harmless :
    (machine.after .new [0]).isFarJump 5000000 ∧
    ∀ k, (machine.after .new ([0] ++ 5000000 :: [1, 2].take k)).counters =
      (machine.after .new ([0] ++ [1, 2].take k)).counters :=
  have far := by decide
  have near := by simp [isNear, U64.absDiff, PACKET_TRACKER_WINDOW]
  ⟨far, (stray_harmless_iff [0] [1, 2] 5000000 far near).mpr (by decide)⟩

-- The genuine jump to 1000000 awaits its confirmation by 1000001 when the stray packet arrives.
theorem stray_drops_held :
    (machine.after .new [0, 1000000]).isFarJump 5000000 ∧
    (∀ s ∈ [0, 1000000] ++ [1000001, 1000002], ¬isNear 5000000 s) ∧
    (machine.after .new ([0, 1000000] ++ 5000000 :: [1000001, 1000002])).counters =
      (3, 1000000, 0) ∧
    (machine.after .new ([0, 1000000] ++ [1000001, 1000002])).counters = (4, 999999, 0) := by
  refine ⟨by decide, by decide, ?_, ?_⟩
  · rw [(Agrees.run _).right.counters]
    decide
  · rw [(Agrees.run _).right.counters]
    decide

end PacketTracker
