import Mathlib.Algebra.Order.Monoid.Prod
import Xfr.Budget.Udp

-- What a send loop claimed and did neither send nor return. A leftover stays with the loop.
def UdpSendPoint.held : UdpSendPoint → Nat
  | sending _ n | refunding _ n | spent n => n
  | _                                     => 0

-- A loop which went to the budget and does not know the fate of its datagram yet.
def UdpSendPoint.pending : UdpSendPoint → Nat
  | attempting .. | sending .. | spent .. => 1
  | _                                     => 0

theorem UdpSendPoint.pending_le {point : UdpSendPoint} : point.pending ≤ 1 := by
  cases point <;> simp [pending]

-- Only datagrams with room for a header are sent.
def UdpSendPoint.Roomy : UdpSendPoint → Prop
  | sending _ n | refunding _ n => UDP_HEADER_SIZE ≤ n
  | spent n                     => n < UDP_HEADER_SIZE
  | _                           => True

theorem PayloadSize.pos (p : PayloadSize) : 0 < p.bytes :=
  Nat.zero_lt_of_lt p.header_le

namespace ByteBudget

variable {b b' : ByteBudget} {want current granted : Nat} {spurious : Bool}

theorem attempt_granted (h : b.attempt want current spurious = (b', .ok granted)) :
    (b' = b ∧ granted = 0) ∨
      (granted = min b.remaining want ∧ b'.remaining + granted = b.remaining) := by
  have ⟨hr, hz⟩ := attempt_ok h
  unfold attempt at h
  dsimp only at h
  split at h
  case isTrue hg =>
    have ⟨hb, hg⟩ := Prod.mk.inj h
    exact .inl ⟨hb.symm, (Except.ok.inj hg).symm⟩
  case isFalse =>
    split at h
    case isFalse => simp at h
    case isTrue hc =>
      have ⟨_, hg⟩ := Prod.mk.inj h
      exact .inr ⟨hc.left ▸ (Except.ok.inj hg).symm, hr⟩

end ByteBudget

namespace UdpSendLoop

variable {b b' : ByteBudget} {l l' : UdpSendLoop} {e : UdpSendEvent} {left n : Nat}

def held (l : UdpSendLoop) : Nat :=
  l.point.held

-- What a step can do to the budget: nothing, a claim of a datagram, its transmission or its refund.
inductive Effect (b : ByteBudget) (l : UdpSendLoop) : ByteBudget → UdpSendLoop → Prop
  | move {l' : UdpSendLoop} : l'.datagrams = l.datagrams → l'.held = l.held → Effect b l b l'
  | claim {b' : ByteBudget} {l' : UdpSendLoop} :
    l'.datagrams = l.datagrams → l.held = 0 → l'.held = min b.remaining l.packetSize.bytes →
    b'.remaining + l'.held = b.remaining → Effect b l b' l'
  | send {l' : UdpSendLoop} :
    l'.datagrams = l.datagrams ++ [l.held] → UDP_HEADER_SIZE ≤ l.held → l'.held = 0 →
    Effect b l b l'
  | refund {l' : UdpSendLoop} :
    l'.datagrams = l.datagrams → l'.held = 0 → Effect b l (b.refund l.held) l'

theorem Effect.goto {p : UdpSendPoint} (h : p.held = l.held) : Effect b l b (l.goto p) :=
  .move rfl h

@[simp]
theorem held_claimed : (l.claimed left n).held = n := by
  unfold claimed
  split <;> rfl

theorem roomy_claimed : (l.claimed left n).point.Roomy := by
  unfold claimed
  split
  case isTrue h  => exact h
  case isFalse h => exact Nat.lt_of_not_ge h

theorem step_effect (hr : l.point.Roomy) (h : step (b, l) e = some (b', l')) :
    Effect b l b' l' := by
  unfold step at h
  dsimp only at h
  split at h
  case h_2 => cases h; exact .move rfl rfl
  case h_7 hp =>
    have ⟨_, h⟩ := Option.ite_none_right_eq_some.mp h
    cases h
    exact .goto (by rw [held, hp]; rfl)
  case h_1 hp | h_5 hp | h_6 hp | h_8 hp | h_9 hp | h_10 hp =>
    cases h
    exact .goto (by rw [held, hp]; rfl)
  case h_3 hp =>
    cases h
    exact .goto (by rw [held, hp]; split <;> rfl)
  case h_4 hp =>
    cases h
    exact .goto (by rw [held, hp]; split <;> rfl)
  case h_11 hp =>
    cases h
    exact .move rfl (by rw [held, held, hp]; rfl)
  case h_12 hp =>
    have hl : l.held = 0 := by rw [held, hp]; rfl
    split at h
    case h_1 ha =>
      cases h
      rcases ByteBudget.attempt_granted ha with ⟨hb, hn⟩ | ⟨hn, hb⟩
      · exact hb ▸ .move (by unfold claimed; rfl) (by rw [held_claimed, hn, hl])
      · exact .claim (by unfold claimed; rfl) hl (by rw [held_claimed, hn]) (by rw [held_claimed, hb])
    case h_2 ha =>
      cases h
      exact (ByteBudget.attempt_error ha).left ▸ .goto hl.symm
  case h_13 sendLen hp =>
    cases h
    have hl : l.held = sendLen := by rw [held, hp]; rfl
    rw [hp] at hr
    exact .send (hl ▸ rfl) (hl ▸ hr) rfl
  case h_14 sendLen hp =>
    cases h
    exact .move rfl (by rw [held, held, hp]; rfl)
  case h_15 sendLen hp =>
    cases h
    have hl : l.held = sendLen := by rw [held, hp]; rfl
    exact hl ▸ .refund rfl rfl
  case h_16 => contradiction

-- Each time a loop goes to the budget a datagram is sent, or fails, or the loop is at its end.
structure Sound (l : UdpSendLoop) : Prop where
  roomy  : l.point.Roomy
  claims : l.claims = l.datagrams.length + l.errors + l.point.pending

theorem step_sound (s : l.Sound) (h : step (b, l) e = some (b', l')) :
    l'.Sound ∧ l'.packetSize = l.packetSize := by
  have hc := s.claims
  have hr := s.roomy
  unfold step at h
  dsimp only at h
  split at h
  case h_2 => cases h; exact ⟨s, rfl⟩
  case h_7 hp =>
    have ⟨_, h⟩ := Option.ite_none_right_eq_some.mp h
    cases h
    exact ⟨⟨trivial, by rw [hp] at hc; exact hc⟩, rfl⟩
  case h_1 hp | h_5 hp | h_6 hp | h_8 hp | h_9 hp | h_10 hp =>
    cases h
    exact ⟨⟨trivial, by rw [hp] at hc; exact hc⟩, rfl⟩
  case h_3 hp | h_4 hp =>
    cases h
    rw [hp] at hc
    refine ⟨⟨?_, ?_⟩, rfl⟩ <;> dsimp only [goto] <;> split <;> trivial
  case h_11 hp =>
    cases h
    rw [hp] at hc
    exact ⟨⟨trivial, congrArg (· + 1) hc⟩, rfl⟩
  case h_12 hp =>
    rw [hp] at hc
    split at h
    case h_1 =>
      cases h
      refine ⟨⟨roomy_claimed, ?_⟩, rfl⟩
      unfold claimed
      split <;> exact hc
    case h_2 =>
      cases h
      exact ⟨⟨trivial, hc⟩, rfl⟩
  case h_13 hp =>
    cases h
    rw [hp] at hc
    refine ⟨⟨trivial, ?_⟩, rfl⟩
    simp only [goto, UdpSendPoint.pending, List.length_append, List.length_singleton] at hc ⊢
    omega
  case h_14 sendLen hp =>
    cases h
    rw [hp] at hc hr
    refine ⟨⟨hr, ?_⟩, rfl⟩
    simp only [goto, UdpSendPoint.pending] at hc ⊢
    omega
  case h_15 hp =>
    cases h
    rw [hp] at hc
    exact ⟨⟨trivial, hc⟩, rfl⟩
  case h_16 => contradiction

-- A number of bytes which the budget has at the end of whole datagrams, or as its remainder.
def Whole (p r n : Nat) : Prop :=
  n % p = 0 ∨ n % p = r

structure Fits (p : PayloadSize) (r : Nat) (l : UdpSendLoop) : Prop where
  sound     : l.Sound
  size      : l.packetSize = p
  held_le   : l.held ≤ p.bytes
  held      : Whole p.bytes r l.held
  datagrams : ∀ n ∈ l.datagrams, UDP_HEADER_SIZE ≤ n ∧ n ≤ p.bytes ∧ Whole p.bytes r n

-- What a loop has of the budget, in bytes and in the remainders of its datagrams.
def share (p : PayloadSize) (l : UdpSendLoop) : Nat × Nat :=
  (l.held + l.datagrams.sum, l.held % p.bytes + (l.datagrams.map (· % p.bytes)).sum)

def stock (p : PayloadSize) (b : ByteBudget) : Nat × Nat :=
  (b.remaining, b.remaining % p.bytes)

-- The remainder is claimed and refunded as a whole, like the full datagrams.
theorem step_rounds {p : PayloadSize} {r total : Nat} (hr : r < p.bytes) (ht : total ≤ U64.max)
    (hb : Whole p.bytes r b.remaining) (f : l.Fits p r)
    (hle : stock p b + share p l ≤ (total, r)) (h : step (b, l) e = some (b', l')) :
    Whole p.bytes r b'.remaining ∧ l'.Fits p r ∧
      stock p b' + share p l' = stock p b + share p l := by
  have ⟨hs, hp⟩ := step_sound f.sound h
  have hp := hp.trans f.size
  have hbytes : b.remaining + (l.held + l.datagrams.sum) ≤ total := hle.left
  have hrems : b.remaining % p.bytes + (l.held % p.bytes + (l.datagrams.map (· % p.bytes)).sum) ≤ r :=
    hle.right
  cases step_effect f.sound.roomy h
  case move hd hh =>
    refine ⟨hb, ⟨hs, hp, hh ▸ f.held_le, hh ▸ f.held, hd ▸ f.datagrams⟩, ?_⟩
    rw [share, share, hd, hh]
  case claim hz hd hc hrem =>
    rw [f.size] at hc
    have ⟨hb', hw, hm⟩ : Whole p.bytes r b'.remaining ∧ Whole p.bytes r l'.held ∧
        b'.remaining % p.bytes + l'.held % p.bytes = b.remaining % p.bytes := by
      rcases le_total p.bytes b.remaining with hl | hl
      · have hh : l'.held = p.bytes := hc.trans (Nat.min_eq_right hl)
        have hm : b'.remaining % p.bytes = b.remaining % p.bytes := by
          rw [← hrem, hh, Nat.add_mod_right]
        rw [Whole, hm, hh, Nat.mod_self]
        exact ⟨hb, .inl (Nat.mod_self _), rfl⟩
      · have hh : l'.held = b.remaining := hc.trans (Nat.min_eq_left hl)
        have hz : b'.remaining = 0 := by omega
        rw [hz, hh, Nat.zero_mod, Nat.zero_add]
        exact ⟨.inl (Nat.zero_mod _), hb, rfl⟩
    refine ⟨hb', ⟨hs, hp, hc ▸ Nat.min_le_right .., hw, hd ▸ f.datagrams⟩, Prod.ext ?_ ?_⟩
    · simp only [stock, share, Prod.fst_add, hd, hz]
      omega
    · simp only [stock, share, Prod.snd_add, hd, hz, Nat.zero_mod]
      omega
  case send hu hd hz =>
    refine ⟨hb, ⟨hs, hp, by omega, .inl (by rw [hz, Nat.zero_mod]), fun n hn => ?_⟩, ?_⟩
    · cases List.mem_append.mp (hd ▸ hn)
      case inl hn => exact f.datagrams n hn
      case inr hn => exact List.mem_singleton.mp hn ▸ ⟨hu, f.held_le, f.held⟩
    · simp [share, hd, hz, add_comm]
  case refund hd hz =>
    have hrem := @ByteBudget.refund_remaining b l.held (by omega)
    have hm : (b.refund l.held).remaining % p.bytes =
        b.remaining % p.bytes + l.held % p.bytes := by
      rw [hrem, Nat.add_mod]
      exact Nat.mod_eq_of_lt (by omega)
    refine ⟨?_, ⟨hs, hp, by omega, .inl (by rw [hz, Nat.zero_mod]), hd ▸ f.datagrams⟩,
      Prod.ext ?_ ?_⟩
    · have hh := f.held
      unfold Whole at hb hh ⊢
      omega
    · simp only [stock, share, Prod.fst_add, hd, hz, hrem]
      omega
    · simp only [stock, share, Prod.snd_add, hd, hz, hm, Nat.zero_mod]
      omega

-- A loop which stopped because the budget has no further datagram for it.
def Spent (l : UdpSendLoop) : Prop :=
  ∃ leftover, l.point = .spent leftover

-- A loop which found the budget to be empty, or took its leftover.
def Resigned (l : UdpSendLoop) : Prop :=
  (∃ left, l.point = .attempting left 0) ∨ l.Spent

theorem step_resigned (h : step (b, l) e = some (b', l')) (hr : l.Resigned) :
    l'.Resigned ∧ (b.remaining = 0 → b'.remaining = 0) := by
  rcases hr with ⟨left, hp⟩ | ⟨leftover, hp⟩
  · cases e <;> simp only [step, hp, ByteBudget.attempt_zero, reduceCtorEq] at h
    cases h
    exact ⟨.inr ⟨0, rfl⟩, id⟩
  · cases e <;> simp [step, hp] at h

theorem step_resigns (h : step (b, l) e = some (b', l')) (hn : ¬l.Resigned) (hr : l'.Resigned) :
    b'.remaining = 0 := by
  unfold step at h
  dsimp only at h
  split at h
  case h_2 => cases h; contradiction
  case h_7 =>
    have ⟨_, h⟩ := Option.ite_none_right_eq_some.mp h
    cases h
    simp [Resigned, Spent, goto] at hr
  case h_3 | h_4 =>
    cases h
    simp only [Resigned, Spent, goto] at hr
    split at hr <;> simp at hr
  case h_11 =>
    cases h
    simpa [Resigned, Spent, goto] using hr
  case h_12 left current spurious hp =>
    split at h
    case h_1 n ha =>
      cases h
      rcases ByteBudget.attempt_granted ha with ⟨_, hz⟩ | ⟨hg, hb⟩
      · have hc := (ByteBudget.attempt_ok ha).right hz
        have := l.packetSize.pos
        have hc : current = 0 := by omega
        exact absurd (.inl ⟨left, hc ▸ hp⟩) hn
      · have := l.packetSize.header_le
        unfold claimed at hr
        split at hr
        case isTrue => simp [Resigned, Spent, goto] at hr
        case isFalse => omega
    case h_2 ha =>
      cases h
      have ⟨hb, ho, _⟩ := ByteBudget.attempt_error ha
      rw [hb, ← ho]
      simpa [Resigned, Spent, goto] using hr
  case h_16 => contradiction
  all_goals
    cases h
    simp [Resigned, Spent, goto] at hr

theorem start_fits {p : PayloadSize} {r : Nat} {bitrate : UInt64} {finite : Bool} :
    (start p bitrate finite).Fits p r where
  sound     := ⟨trivial, rfl⟩
  size      := rfl
  held_le   := Nat.zero_le _
  held      := .inl (Nat.zero_mod _)
  datagrams := by simp [start]

end UdpSendLoop

namespace ByteBudget

open UdpSendLoop

-- What the send loops of a test deliver together.
def delivered (loops : List UdpSendLoop) : Nat :=
  (loops.map (·.bytesSent)).sum

def rounded (total packetSize : Nat) : Nat :=
  if total % packetSize = 0 ∨ UDP_HEADER_SIZE ≤ total % packetSize then
    total
  else
    total - total % packetSize

variable {p : PayloadSize} {total : UInt64} {modes : List (UInt64 × Bool)}
  {events : List (Nat × UdpSendEvent)} {b : ByteBudget} {loops : List UdpSendLoop}

-- The send loops of a test have one packet size. Each has its own pacing.
def senders (p : PayloadSize) (modes : List (UInt64 × Bool)) : List UdpSendLoop :=
  modes.map fun (bitrate, finite) => .start p bitrate finite

theorem mem_senders {l : UdpSendLoop} (h : l ∈ senders p modes) :
    ∃ bitrate finite, l = .start p bitrate finite := by
  have ⟨⟨bitrate, finite⟩, _, hl⟩ := List.mem_map.mp h
  exact ⟨bitrate, finite, hl.symm⟩

theorem run_rounds
    (run : UdpSendLoop.step.interleave.run (.new total, senders p modes) events = some (b, loops)) :
    (∀ l ∈ loops, l.Fits p (total.toNat % p.bytes)) ∧
    stock p b + (loops.map (share p)).sum = (total.toNat, total.toNat % p.bytes) := by
  have fresh : ((senders p modes).map (share p)).sum = 0 := by
    apply List.sum_eq_zero
    intro n hn
    have ⟨l, hl, hn⟩ := List.mem_map.mp hn
    have ⟨_, _, hl⟩ := mem_senders hl
    rw [← hn, hl, share]
    simp [start, held, UdpSendPoint.held]
  have fits (l : UdpSendLoop) (hl : l ∈ senders p modes) : l.Fits p (total.toNat % p.bytes) := by
    have ⟨_, _, hl⟩ := mem_senders hl
    exact hl ▸ start_fits
  have h : Whole p.bytes (total.toNat % p.bytes) b.remaining ∧
      (∀ l ∈ loops, l.Fits p (total.toNat % p.bytes)) ∧
      stock p b + (loops.map (share p)).sum = (total.toNat, total.toNat % p.bytes) :=
    System.run_conserved_invariant
      (J := fun b => Whole p.bytes (total.toNat % p.bytes) b.remaining)
      (step_rounds (Nat.mod_lt _ p.pos) (U64.le_max total)) (.inr rfl) fits
      (by rw [fresh, add_zero]; rfl) run
  exact h.right

-- What is too small for a datagram is the remainder of the budget, if that is too small as well.
theorem held_of_small {r : Nat} {l : UdpSendLoop} (f : l.Fits p r) (h : l.held < UDP_HEADER_SIZE) :
    l.held % p.bytes = l.held ∧ (UDP_HEADER_SIZE ≤ r → l.held = 0) := by
  have hm : l.held % p.bytes = l.held := Nat.mod_eq_of_lt (Nat.lt_of_lt_of_le h p.header_le)
  refine ⟨hm, fun hr => ?_⟩
  cases f.held
  case inl hz => exact hm.symm.trans hz
  case inr hz => omega

theorem held_of_spent {r : Nat} {l : UdpSendLoop} (f : l.Fits p r) (spent : l.Spent) :
    l.held < UDP_HEADER_SIZE := by
  have ⟨leftover, hp⟩ := spent
  have hr := f.sound.roomy
  rw [hp] at hr
  rw [held, hp]
  exact hr

-- A datagram which is sent has no such remainder.
theorem mod_of_sent {r n : Nat} {l : UdpSendLoop} (f : l.Fits p r) (hr : r < UDP_HEADER_SIZE)
    (hn : n ∈ l.datagrams) : n % p.bytes = 0 := by
  have ⟨hu, hle, hw⟩ := f.datagrams n hn
  rcases hw with hw | hw
  · exact hw
  · cases Nat.eq_or_lt_of_le hle
    case inl h => rw [h, Nat.mod_self]
    case inr h =>
      have := Nat.mod_eq_of_lt h
      omega

theorem sum_share : (loops.map (share p)).sum =
    ((loops.map (·.held)).sum + delivered loops,
      (loops.map fun l => l.held % p.bytes + (l.datagrams.map (· % p.bytes)).sum).sum) := by
  refine Prod.ext ?_ ?_
  · refine (map_list_sum (AddMonoidHom.fst Nat Nat) _).trans ?_
    rw [List.map_map]
    exact List.sum_map_add
  · refine (map_list_sum (AddMonoidHom.snd Nat Nat) _).trans ?_
    rw [List.map_map]
    rfl

theorem delivered_of_spent {n : Nat} (fits : ∀ l ∈ loops, l.Fits p (n % p.bytes))
    (spent : ∀ l ∈ loops, l.Spent) (h : (loops.map (share p)).sum = (n, n % p.bytes)) :
    delivered loops = rounded n p.bytes := by
  have ⟨hb, hm⟩ := Prod.mk.inj (sum_share.symm.trans h)
  have held l hl := held_of_small (fits l hl) (held_of_spent (fits l hl) (spent l hl))
  cases Nat.lt_or_ge (n % p.bytes) UDP_HEADER_SIZE
  case inr hr =>
    have hz : (loops.map (·.held)).sum = 0 := by
      apply List.sum_eq_zero
      intro k hk
      have ⟨l, hl, hk⟩ := List.mem_map.mp hk
      exact hk ▸ (held l hl).right hr
    rw [rounded, if_pos (.inr hr)]
    omega
  case inl hr =>
    have hs : (loops.map fun l => l.held % p.bytes + (l.datagrams.map (· % p.bytes)).sum) =
        loops.map (·.held) := by
      refine List.map_congr_left fun l hl => ?_
      have hz : (l.datagrams.map (· % p.bytes)).sum = 0 := by
        apply List.sum_eq_zero
        intro k hk
        have ⟨_, hn, hk⟩ := List.mem_map.mp hk
        exact hk ▸ mod_of_sent (fits l hl) hr hn
      rw [hz, (held l hl).left, Nat.add_zero]
    rw [hs] at hm
    have hd : delivered loops = n - n % p.bytes := by omega
    rw [hd, rounded]
    split
    case isTrue h  => omega
    case isFalse h => rfl

-- With less than a header left, a loop claims what is there, and stops.
theorem run_small {l : UdpSendLoop} {left : Nat} (h : b.remaining < UDP_HEADER_SIZE)
    (hp : l.point = .burst (left + 1)) :
    ∃ l', step.run (b, l) [.claim, .load, .attempt false] = some (⟨0⟩, l') ∧ l'.Spent := by
  have hle : b.remaining ≤ l.packetSize.bytes := (Nat.le_of_lt h).trans l.packetSize.header_le
  have ha : b.attempt l.packetSize.bytes b.remaining false = (⟨0⟩, .ok b.remaining) := by
    by_cases hz : b.remaining = 0
    case pos =>
      obtain ⟨_⟩ := b
      obtain rfl := hz
      exact attempt_zero
    case neg => simp [attempt, Nat.min_eq_left hle, hz]
  refine ⟨{ l with claims := l.claims + 1, point := .spent b.remaining }, ?_, b.remaining, rfl⟩
  simp [System.run_cons, step, hp, goto, ha, claimed, Nat.not_le.mpr h]

-- However the send loops take turns, once all of them stopped the budget has been sent, up to a
-- remainder without room for a header. No datagram is shorter than that or longer than the packet
-- size. Every time a loop goes to the budget it sends one of the finitely many datagrams, or fails
-- to, or stops, and when all that remains is too small to send it stops.
theorem rounded_run
    (run : UdpSendLoop.step.interleave.run (.new total, senders p modes) events = some (b, loops)) :
    (modes ≠ [] → (∀ l ∈ loops, l.Spent) → delivered loops = rounded total.toNat p.bytes) ∧
    (∀ l ∈ loops, ∀ n ∈ l.datagrams, UDP_HEADER_SIZE ≤ n ∧ n ≤ p.bytes) ∧
    (∀ l ∈ loops, l.claims ≤ l.datagrams.length + l.errors + 1 ∧
      l.datagrams.length * UDP_HEADER_SIZE ≤ total.toNat) ∧
    (b.remaining < UDP_HEADER_SIZE → ∀ l ∈ loops, ∀ left, l.point = .burst (left + 1) →
      ∃ l', step.run (b, l) [.claim, .load, .attempt false] = some (⟨0⟩, l') ∧ l'.Spent) := by
  have ⟨fits, conserved⟩ := run_rounds run
  refine ⟨fun hne spent => ?_, fun l hl n hn => ?_, fun l hl => ?_, fun h l _ left hp => ?_⟩
  case refine_1 =>
    have ⟨mode, hm⟩ := List.exists_mem_of_ne_nil _ hne
    have hn : ¬(UdpSendLoop.start p mode.1 mode.2).Resigned := by
      simp [Resigned, UdpSendLoop.Spent, start]
    have init : ∃ l ∈ senders p modes, ¬l.Resigned := ⟨_, List.mem_map_of_mem hm, hn⟩
    have resigned (l : UdpSendLoop) (hl : l ∈ loops) : l.Resigned := .inr (spent l hl)
    have final := System.run_resigned step_resigned step_resigns init run resigned
    refine delivered_of_spent fits spent (.trans ?_ conserved)
    rw [stock, final, Nat.zero_mod]
    exact (zero_add _).symm
  case refine_2 =>
    have ⟨hu, hle, _⟩ := (fits l hl).datagrams n hn
    exact ⟨hu, hle⟩
  case refine_3 =>
    constructor
    case left =>
      rw [(fits l hl).sound.claims]
      exact Nat.add_le_add_left UdpSendPoint.pending_le _
    case right =>
      have hd : l.datagrams.length * UDP_HEADER_SIZE ≤ l.bytesSent :=
        List.card_nsmul_le_sum _ _ fun n hn => ((fits l hl).datagrams n hn).left
      have hs : l.bytesSent ≤ delivered loops :=
        List.single_le_sum (fun _ _ => Nat.zero_le _) _ (List.mem_map_of_mem hl)
      have hb := congrArg Prod.fst conserved
      rw [sum_share, stock] at hb
      dsimp only [Prod.fst_add] at hb
      omega
  case refine_4 => exact run_small h hp

-- The second loop's datagram fails while the first one takes the remainder, and is sent later on.
def remainder : List (Nat × UdpSendEvent) :=
  [
    (0, .proceed), (0, .start), (0, .claim), (0, .load), (1, .proceed), (1, .tick), (1, .start),
    (1, .claim), (1, .load), (0, .attempt false), (1, .attempt false), (1, .attempt false),
    (1, .failed), (0, .sent), (0, .claim), (0, .load), (0, .attempt false), (1, .refund),
    (1, .leave), (1, .proceed), (1, .tick), (1, .start), (1, .claim), (1, .load),
    (1, .attempt false), (1, .sent), (1, .leave), (1, .proceed), (1, .tick), (1, .start),
    (1, .claim), (1, .load), (1, .attempt false)
  ]

theorem rounded_run_remainder :
    ∃ b loops, UdpSendLoop.step.interleave.run
        (.new 205, senders ⟨100, by decide, by decide⟩ [(0, false), (8000000, true)])
        remainder = some (b, loops) ∧
      delivered loops = 200 := by
  have hm : (UdpSendLoop.step.interleave.run
      (.new 205, senders ⟨100, by decide, by decide⟩ [(0, false), (8000000, true)])
      remainder).map (·.2.map (·.point)) = some [.spent 5, .spent 0] := by decide
  have ⟨⟨b, loops⟩, run, hp⟩ := Option.map_eq_some_iff.mp hm
  refine ⟨b, loops, run, (rounded_run run).left (by simp) fun l hl => ?_⟩
  have hl : l.point ∈ loops.map (·.point) := List.mem_map_of_mem hl
  rw [hp] at hl
  rcases List.mem_pair.mp hl with hl | hl
  · exact ⟨_, hl⟩
  · exact ⟨_, hl⟩

end ByteBudget
