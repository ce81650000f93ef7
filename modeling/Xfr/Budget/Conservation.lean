import Xfr.Budget.Basic

-- What a send loop claimed and did neither write nor return yet.
def SendPoint.outstanding : SendPoint → Nat
  | writing claimed   => claimed
  | refunding bytes _ => bytes
  | _                 => 0

@[simp]
theorem Next.outstanding_point {next : Next} : next.point.outstanding = 0 := by
  cases next <;> rfl

namespace SendLoop

def outstanding (l : SendLoop) : Nat :=
  l.point.outstanding

-- A send loop which found the budget to be spent.
def Resigned (l : SendLoop) : Prop :=
  l.point = .attempting 0 ∨ l.point = .spent

variable {b b' : ByteBudget} {l l' : SendLoop} {e : SendEvent} {total : UInt64}

@[simp]
theorem written_wrote {n : Nat} : (l.wrote n).written = l.written + n := by
  unfold wrote
  split
  case h_1 => rfl
  case h_2 => split <;> rfl

theorem want_pos : 0 < l.want := by
  have := l.chunkOffset_lt
  unfold want
  split <;> omega

end SendLoop

namespace ByteBudget

variable {b b' : ByteBudget} {want current granted observed : Nat} {spurious : Bool}

theorem attempt_ok (h : b.attempt want current spurious = (b', .ok granted)) :
    b'.remaining + granted = b.remaining ∧ (granted = 0 → min current want = 0) := by
  unfold attempt at h
  dsimp only at h
  split at h
  case isTrue hz =>
    have ⟨hb, hg⟩ := Prod.mk.inj h
    have hg := Except.ok.inj hg
    subst hb hg
    exact ⟨rfl, fun _ => hz⟩
  case isFalse =>
    split at h
    case isFalse => simp at h
    case isTrue hc =>
      have ⟨hb, hg⟩ := Prod.mk.inj h
      have hg := Except.ok.inj hg
      subst hb hg
      have := hc.left
      dsimp only
      omega

theorem attempt_error (h : b.attempt want current spurious = (b', .error observed)) :
    b' = b ∧ observed = b.remaining ∧ min current want ≠ 0 := by
  unfold attempt at h
  dsimp only at h
  split at h
  case isTrue => simp at h
  case isFalse hz =>
    split at h
    case isTrue => simp at h
    case isFalse =>
      have ⟨hb, ho⟩ := Prod.mk.inj h
      exact ⟨hb.symm, (Except.error.inj ho).symm, hz⟩

theorem attempt_zero : b.attempt want 0 spurious = (b, .ok 0) := by
  simp [attempt]

theorem refund_remaining {bytes : Nat} (h : b.remaining + bytes ≤ U64.max) :
    (b.refund bytes).remaining = b.remaining + bytes := by
  unfold refund
  split
  case isTrue  => exact U64.wrappingAdd_eq_add h
  case isFalse => omega

end ByteBudget

namespace SendLoop

variable {b b' : ByteBudget} {l l' : SendLoop} {e : SendEvent}

-- What a step can do to the budget: nothing, a claim, a write of a part of the claim, or a refund.
inductive Effect (b : ByteBudget) (l : SendLoop) : ByteBudget → SendLoop → Prop
  | move {l' : SendLoop} :
    l'.written = l.written → l'.outstanding = l.outstanding → Effect b l b l'
  | claim {b' : ByteBudget} {l' : SendLoop} :
    l'.written = l.written → l.outstanding = 0 → b'.remaining + l'.outstanding = b.remaining →
    Effect b l b' l'
  | write {l' : SendLoop} (n : Nat) :
    l'.written = l.written + n → l'.outstanding + n = l.outstanding → Effect b l b l'
  | refund {l' : SendLoop} :
    l'.written = l.written → l'.outstanding = 0 → Effect b l (b.refund l.outstanding) l'

theorem Effect.goto {p : SendPoint} (h : p.outstanding = l.point.outstanding) :
    Effect b l b (l.goto p) :=
  .move rfl h

theorem step_effect (h : step (b, l) e = some (b', l')) : Effect b l b' l' := by
  unfold step at h
  dsimp only at h
  split at h
  case h_2 => cases h; exact .move rfl rfl
  case h_1 hp | h_4 hp | h_5 hp | h_7 hp | h_8 hp | h_12 hp =>
    cases h
    exact .goto (by rw [hp]; rfl)
  case h_3 hp | h_9 hp =>
    have ⟨_, h⟩ := Option.ite_none_right_eq_some.mp h
    cases h
    exact .goto (by rw [hp]; rfl)
  case h_6 hp =>
    have ho : l.outstanding = 0 := by rw [outstanding, hp]; rfl
    split at h
    case h_1 ha =>
      cases h
      exact .claim rfl ho (ByteBudget.attempt_ok ha).left
    case h_2 ha =>
      cases h
      exact .claim rfl ho (ByteBudget.attempt_ok ha).left
    case h_3 ha =>
      cases h
      exact .claim rfl ho (by rw [(ByteBudget.attempt_error ha).left]; rfl)
  case h_10 claimed n hp =>
    have ⟨hn, h⟩ := Option.ite_none_right_eq_some.mp h
    cases h
    refine .write n written_wrote ?_
    rw [outstanding, outstanding, hp]
    exact Nat.sub_add_cancel hn
  case h_11 hp =>
    have ⟨_, h⟩ := Option.ite_none_right_eq_some.mp h
    cases h
    exact .move rfl (by rw [outstanding, outstanding, hp]; rfl)
  case h_13 bytes next hp =>
    cases h
    have ho : l.outstanding = bytes := by rw [outstanding, hp]; rfl
    rw [← ho]
    exact .refund rfl Next.outstanding_point
  case h_14 cancelled hp =>
    cases h
    exact .goto (by rw [hp]; cases cancelled <;> rfl)
  case h_15 => contradiction

-- Whatever a step does, no byte gets lost, as long as the budget does not overflow.
theorem step_conserved (hb : b.remaining + (l.outstanding + l.written) ≤ U64.max)
    (h : step (b, l) e = some (b', l')) :
    b'.remaining + (l'.outstanding + l'.written) = b.remaining + (l.outstanding + l.written) := by
  cases step_effect h
  case move hw ho       => rw [hw, ho]
  case claim hw ho hr   => omega
  case write n hw ho    => omega
  case refund hw ho     =>
    have : (b.refund l.outstanding).remaining = b.remaining + l.outstanding :=
      ByteBudget.refund_remaining (by omega)
    omega

-- All that is left to a loop which resigned is to stop.
theorem step_resigned (h : step (b, l) e = some (b', l')) (hr : l.Resigned) :
    l'.Resigned ∧ (b.remaining = 0 → b'.remaining = 0) := by
  rcases hr with hp | hp
  case inr => cases e <;> simp [step, hp] at h
  case inl =>
    cases e <;> simp only [step, hp, ByteBudget.attempt_zero, reduceCtorEq] at h
    cases h
    exact ⟨.inr rfl, id⟩

theorem not_resigned_next {next : Next} : ¬(l.goto next.point).Resigned := by
  cases next <;> simp [Resigned, goto, Next.point]

-- A loop resigns when it observes an empty budget, not when it stops.
theorem step_resigns (h : step (b, l) e = some (b', l')) (hn : ¬l.Resigned) (hr : l'.Resigned) :
    b'.remaining = 0 := by
  unfold step at h
  dsimp only at h
  split at h
  case h_2 => cases h; contradiction
  case h_5 =>
    cases h
    simpa [Resigned, goto] using hr
  case h_6 current spurious hp =>
    split at h
    case h_1 ha =>
      have hz := (ByteBudget.attempt_ok ha).right rfl
      have := l.want_pos
      have hc : current = 0 := by omega
      exact absurd (.inl (hc ▸ hp)) hn
    case h_2 => cases h; simp [Resigned, goto] at hr
    case h_3 ha =>
      cases h
      have ⟨hb, ho, _⟩ := ByteBudget.attempt_error ha
      rw [hb, ← ho]
      simpa [Resigned, goto] using hr
  case h_13 => cases h; exact absurd hr not_resigned_next
  case h_14 cancelled _ => cases h; cases cancelled <;> simp [Resigned, goto] at hr
  case h_15 => contradiction
  case h_3 | h_9 | h_10 | h_11 =>
    have ⟨_, h⟩ := Option.ite_none_right_eq_some.mp h
    cases h
    simp [Resigned, goto] at hr
  all_goals
    cases h
    simp [Resigned, goto] at hr

end SendLoop

-- The send loops of a test, of any of the three kinds.
inductive Sender
  | sendData (config : TcpConfig) (finite : Bool) (bitrate : Option Nat)
  | sendDataHalf (config : TcpConfig) (finite : Bool) (bitrate : Option Nat)
  | sendQuicData (finite : Bool) (bitrate : Option Nat)

namespace Sender

def start : Sender → SendLoop
  | sendData config finite bitrate     => .sendData config finite bitrate
  | sendDataHalf config finite bitrate => .sendDataHalf config finite bitrate
  | sendQuicData finite bitrate        => .sendQuicData finite bitrate

theorem start_fresh {sender : Sender} :
    sender.start.written = 0 ∧ sender.start.outstanding = 0 ∧ ¬sender.start.Resigned := by
  cases sender <;> exact ⟨rfl, rfl, by rintro (h | h) <;> cases h⟩

end Sender

namespace ByteBudget

-- At any time every byte of the budget either remains, or is claimed by one of the send loops, or
-- was written by one of them. When all of them stopped at the spent budget, it was written.
theorem spent_run {total : UInt64} {senders : List Sender} {events : List (Nat × SendEvent)}
    {b : ByteBudget} {loops : List SendLoop}
    (run : SendLoop.step.interleave.run (.new total, senders.map Sender.start) events =
      some (b, loops)) :
    b.remaining + (loops.map (·.outstanding)).sum + (loops.map (·.written)).sum = total.toNat ∧
    (loops.map (·.written)).sum ≤ total.toNat ∧
    (senders ≠ [] → (∀ l ∈ loops, l.point = .spent) →
      (loops.map (·.written)).sum = total.toNat) := by
  have hsum (ls : List SendLoop) : (ls.map fun l => l.outstanding + l.written).sum =
      (ls.map (·.outstanding)).sum + (ls.map (·.written)).sum :=
    List.sum_map_add
  have fresh : ((senders.map Sender.start).map fun l => l.outstanding + l.written).sum = 0 := by
    apply List.sum_eq_zero
    simp [Sender.start_fresh]
  have conserved : b.remaining + (loops.map fun l => l.outstanding + l.written).sum = total.toNat :=
    System.run_conserved (fun hle => SendLoop.step_conserved (hle.trans (U64.le_max total)))
      (by rw [fresh]; rfl) run
  rw [hsum] at conserved
  refine ⟨by omega, by omega, fun hne spent => ?_⟩
  have ⟨sender, hs⟩ := List.exists_mem_of_ne_nil _ hne
  have final := System.run_resigned SendLoop.step_resigned SendLoop.step_resigns
    ⟨_, List.mem_map_of_mem hs, Sender.start_fresh.right.right⟩ run fun l hl => .inr (spent l hl)
  have settled : (loops.map (·.outstanding)).sum = 0 := by
    apply List.sum_eq_zero
    intro n hn
    have ⟨l, hl, hn⟩ := List.mem_map.mp hn
    rw [← hn, SendLoop.outstanding, spent l hl]
    rfl
  omega

-- Both loops want the last bytes. The second one finds the budget empty and stops, and what the
-- first one could not write is refunded, claimed once more and written then.
def shortWrite : List (Nat × SendEvent) :=
  [
    (0, .claim), (0, .load), (1, .claim), (1, .load), (0, .attempt true), (0, .attempt false),
    (1, .attempt false), (1, .attempt false), (0, .written 60), (0, .refund), (0, .paced false),
    (0, .claim), (0, .load), (0, .attempt false), (0, .written 40), (0, .refund), (0, .paced false),
    (0, .claim), (0, .load), (0, .attempt false)
  ]

theorem spent_run_shortWrite :
    ∃ b loops, SendLoop.step.interleave.run
        (.new 100, [Sender.sendData {} false none, .sendQuicData false (some 8000)].map Sender.start)
        shortWrite = some (b, loops) ∧
      (loops.map (·.written)).sum = 100 := by
  have hm : (SendLoop.step.interleave.run
      (.new 100, [Sender.sendData {} false none, .sendQuicData false (some 8000)].map Sender.start)
      shortWrite).map (·.2.map (·.point)) = some [.spent, .spent] := by decide
  have ⟨⟨b, loops⟩, run, hp⟩ := Option.map_eq_some_iff.mp hm
  refine ⟨b, loops, run, (spent_run run).right.right (by simp) fun l hl => ?_⟩
  have hl : l.point ∈ loops.map (·.point) := List.mem_map_of_mem hl
  simpa [hp] using hl

end ByteBudget
