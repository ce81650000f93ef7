import Xfr.Budget.Rounding

namespace UdpSendLoop

-- Without a budget every claim is granted, and there is nothing to give back.
def stepWithin : Option ByteBudget → UdpSendLoop → UdpSendEvent →
    Option (Option ByteBudget × UdpSendLoop)
  | some b, l, e => (step (b, l) e).map fun (b, l) => (some b, l)
  | none,   l, e =>
    match l.point, e with
    | .claiming left, .load =>
      some (none, { l with claims := l.claims + 1 }.claimed left l.packetSize.bytes)
    | _,              _     => (step (⟨0⟩, l) e).map fun (_, l) => (none, l)

variable {b b' : ByteBudget} {budget budget' : Option ByteBudget} {l l' : UdpSendLoop}
  {e : UdpSendEvent} {p : PayloadSize}

-- The datagram in flight has room for its header, and fits into the packet.
structure Sized (p : PayloadSize) (l : UdpSendLoop) : Prop where
  sound   : l.Sound
  size    : l.packetSize = p
  held_le : l.held ≤ p.bytes

namespace Sized

theorem start {bitrate : UInt64} {finite : Bool} : (start p bitrate finite).Sized p where
  sound   := ⟨trivial, rfl⟩
  size    := rfl
  held_le := Nat.zero_le _

theorem step (s : l.Sized p) (h : UdpSendLoop.step (b, l) e = some (b', l')) : l'.Sized p := by
  obtain ⟨hs, hp⟩ := step_sound s.sound h
  refine ⟨hs, hp.trans s.size, ?_⟩
  cases step_effect s.sound.roomy h
  case move _ hh     => exact hh ▸ s.held_le
  case claim hh _    => exact hh ▸ s.size ▸ Nat.min_le_right ..
  case send hh       => exact hh ▸ Nat.zero_le _
  case refund hh     => exact hh ▸ Nat.zero_le _

theorem stepWithin (s : l.Sized p) (h : l.stepWithin budget e = some (budget', l')) :
    l'.Sized p := by
  unfold UdpSendLoop.stepWithin at h
  split at h
  case h_1 =>
    obtain ⟨_, hs, he⟩ := Option.map_eq_some_iff.mp h
    cases he
    exact s.step hs
  case h_2 =>
    split at h
    case h_2 =>
      obtain ⟨_, hs, he⟩ := Option.map_eq_some_iff.mp h
      cases he
      exact s.step hs
    case h_1 left hp =>
      cases h
      have hc := s.sound.claims
      rw [hp] at hc
      refine ⟨⟨roomy_claimed, ?_⟩, s.size, ?_⟩
      case refine_1 =>
        unfold claimed
        split <;> exact congrArg (· + 1) hc
      case refine_2 =>
        rw [held_claimed, s.size]

theorem roomy (s : l.Sized p) {left n : Nat} (h : l.point = .sending left n) :
    UDP_HEADER_SIZE ≤ n ∧ n ≤ p.bytes := by
  have hr := s.sound.roomy
  have hl := s.held_le
  rw [held, h] at hl
  rw [h] at hr
  exact ⟨hr, hl⟩

end Sized

-- Only a datagram which is sent is counted.
theorem step_datagrams_eq (he : e ≠ .sent) (h : step (b, l) e = some (b', l')) :
    l'.datagrams = l.datagrams := by
  unfold step at h
  dsimp only at h
  split at h
  case h_7 =>
    obtain ⟨_, h⟩ := Option.ite_none_right_eq_some.mp h
    cases h
    rfl
  case h_12 =>
    split at h
    all_goals
      cases h
      rfl
  case h_13 => exact absurd rfl he
  case h_16 => contradiction
  all_goals
    cases h
    rfl

theorem stepWithin_datagrams_eq (he : e ≠ .sent) (h : l.stepWithin budget e = some (budget', l')) :
    l'.datagrams = l.datagrams := by
  unfold stepWithin at h
  split at h
  case h_1 =>
    obtain ⟨_, hs, h⟩ := Option.map_eq_some_iff.mp h
    cases h
    exact step_datagrams_eq he hs
  case h_2 =>
    split at h
    case h_1 =>
      cases h
      unfold claimed
      split <;> rfl
    case h_2 =>
      obtain ⟨_, hs, h⟩ := Option.map_eq_some_iff.mp h
      cases h
      exact step_datagrams_eq he hs

theorem stepWithin_sent {left n : Nat} (hp : l.point = .sending left n)
    (h : l.stepWithin budget .sent = some (budget', l')) :
    l'.datagrams = l.datagrams ++ [n] := by
  have hstep {b : ByteBudget} : step (b, l) .sent =
      some (b, { l with datagrams := l.datagrams ++ [n] }.goto (.burst left)) := by
    simp only [step, hp]
  unfold stepWithin at h
  split at h
  case h_1 =>
    rw [hstep] at h
    cases h
    rfl
  case h_2 =>
    split at h
    case h_1 he => cases he
    case h_2 =>
      rw [hstep] at h
      cases h
      rfl

end UdpSendLoop
