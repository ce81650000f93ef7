import Mathlib.Data.Finset.Max
import Xfr.Tracker.Basic

namespace PacketTracker

-- What the tracker is for: the set of all accepted packets, without a bound on its size, and the far
-- jump which is held back until a second packet confirms it.
structure Reference where
  accepted   : Finset Nat
  held       : Option Nat
  outOfOrder : Nat

namespace Reference

def new : Reference where
  accepted   := ∅
  held       := none
  outOfOrder := 0

def highest (r : Reference) : Option Nat :=
  if h : r.accepted.Nonempty then some (r.accepted.max' h) else none

def received (r : Reference) : Nat :=
  r.accepted.card

-- The number of sequence positions up to and including the high-water mark.
def span (r : Reference) : Nat :=
  r.highest.elim 0 (· + 1)

def lost (r : Reference) : Nat :=
  r.span - r.received

-- How far a sequence number lies below the high-water mark.
def behind (r : Reference) (sequence : Nat) : Nat :=
  r.highest.elim 0 (· - sequence)

def isFar (r : Reference) (sequence : Nat) : Bool :=
  match r.highest with
  | some highest => sequence > highest + PACKET_TRACKER_WINDOW
  | none         => sequence ≥ PACKET_TRACKER_WINDOW

def add (r : Reference) (sequence : Nat) : Reference where
  accepted   := insert sequence r.accepted
  held       := r.held
  outOfOrder := if 0 < r.behind sequence then r.outOfOrder + 1 else r.outOfOrder

def accept (r : Reference) (sequence : Nat) : Bool × Reference :=
  if sequence ∉ r.accepted ∧ r.behind sequence < PACKET_TRACKER_WINDOW then
    (true, r.add sequence)
  else
    (false, r)

def record (r : Reference) (sequence : Nat) : Bool × Reference :=
  if r.isFar sequence then
    match r.held with
    | some held =>
      if U64.absDiff held sequence < PACKET_TRACKER_WINDOW then
        ({ r with held := none }.accept held).2.accept sequence
      else
        (false, { r with held := some sequence })
    | none => (false, { r with held := some sequence })
  else
    r.accept sequence

def machine : Mealy Reference UInt64 Bool :=
  fun r sequence => r.record sequence.toNat

variable {r : Reference} {sequence : Nat}

theorem highest_eq_none_iff : r.highest = none ↔ r.accepted = ∅ := by
  simp [highest, Finset.not_nonempty_iff_eq_empty]

theorem highest_eq_some_iff {h : Nat} :
    r.highest = some h ↔ h ∈ r.accepted ∧ ∀ s ∈ r.accepted, s ≤ h := by
  constructor
  case mp =>
    intro he
    have hn : r.accepted.Nonempty := by
      by_contra hc
      simp [highest, hc] at he
    simp only [highest, hn, dif_pos, Option.some.injEq] at he
    exact he ▸ ⟨Finset.max'_mem .., fun s hs => Finset.le_max' _ s hs⟩
  case mpr =>
    intro ⟨hm, hu⟩
    have hn : r.accepted.Nonempty := ⟨h, hm⟩
    simp only [highest, hn, dif_pos, Option.some.injEq]
    exact le_antisymm (Finset.max'_le _ _ _ hu) (Finset.le_max' _ h hm)

theorem behind_eq {h : Nat} (hh : r.highest = some h) : r.behind sequence = h - sequence := by
  simp [behind, hh]

@[simp]
theorem accepted_add : (r.add sequence).accepted = insert sequence r.accepted :=
  rfl

@[simp]
theorem held_add : (r.add sequence).held = r.held :=
  rfl

@[simp]
theorem outOfOrder_add :
    (r.add sequence).outOfOrder = if 0 < r.behind sequence then r.outOfOrder + 1 else r.outOfOrder :=
  rfl

@[simp]
theorem highest_add : (r.add sequence).highest = some (r.highest.elim sequence (max sequence)) := by
  rw [highest_eq_some_iff, add]
  cases h : r.highest
  case none => simp [highest_eq_none_iff.mp h]
  case some m =>
    have ⟨hm, hu⟩ := highest_eq_some_iff.mp h
    constructor
    case left  => rcases le_total sequence m with hl | hl <;> simp [hl, hm]
    case right => simpa using fun s hs => .inr (hu s hs)

@[simp]
theorem behind_add {s : Nat} :
    (r.add sequence).behind s = r.highest.elim sequence (max sequence) - s := by
  simp [behind]

theorem received_add (h : sequence ∉ r.accepted) : (r.add sequence).received = r.received + 1 :=
  Finset.card_insert_of_notMem h

-- The accepted packets lie at or below the high-water mark, so there is room for all of them.
theorem received_le_span : r.received ≤ r.span := by
  cases h : r.highest
  case none => simp [received, highest_eq_none_iff.mp h]
  case some m =>
    have hs : r.accepted ⊆ Finset.range (m + 1) := fun s hs =>
      Finset.mem_range.mpr <| Nat.lt_succ_of_le <| (highest_eq_some_iff.mp h).right s hs
    simpa [received, span, h] using Finset.card_le_card hs

-- A packet which is still missing has a position of its own below the high-water mark.
theorem received_lt_span (hs : sequence ∉ r.accepted) {h : Nat} (hh : r.highest = some h)
    (hl : sequence ≤ h) : r.received < r.span := by
  have hr : r.received ≤ h := by
    simpa [received_add hs, span, hh, hl] using received_le_span (r := r.add sequence)
  simpa [span, hh] using Nat.lt_succ_of_le hr

end Reference
end PacketTracker
