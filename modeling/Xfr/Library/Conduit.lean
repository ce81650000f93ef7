import Mathlib.Data.List.Infix
import Mathlib.Tactic.Common

-- One direction of a connection: what was written to it, how much of this has arrived at the other
-- side, and how much was taken there. What is on its way is lost when the connection is cut.
structure Conduit (α : Type*) where
  written     : List α
  arrived     : Nat
  taken       : Nat
  finished    : Bool
  cut         : Bool
  taken_le    : taken ≤ arrived
  arrived_le  : arrived ≤ written.length

namespace Conduit

variable {α : Type*}

def new : Conduit α where
  written    := []
  arrived    := 0
  taken      := 0
  finished   := false
  cut        := false
  taken_le   := Nat.le_refl 0
  arrived_le := Nat.le_refl 0

theorem arrived_le_append (c : Conduit α) (as : List α) : c.arrived ≤ (c.written ++ as).length := by
  have := c.arrived_le
  rw [List.length_append]
  omega

theorem taken_le_add (c : Conduit α) (n : Nat) : c.taken ≤ c.arrived + n :=
  Nat.le_trans c.taken_le (Nat.le_add_right ..)

-- Nothing is written behind the end.
def write (c : Conduit α) (as : List α) : Option (Conduit α) :=
  if c.finished ∨ c.cut then
    none
  else
    some { c with written := c.written ++ as, arrived_le := c.arrived_le_append as }

def finish (c : Conduit α) : Conduit α :=
  { c with finished := true }

def sever (c : Conduit α) : Conduit α :=
  { c with cut := true }

def arrive (c : Conduit α) (n : Nat) : Option (Conduit α) :=
  if h : c.arrived + n ≤ c.written.length ∧ c.cut = false then
    some { c with arrived := c.arrived + n, taken_le := c.taken_le_add n, arrived_le := h.left }
  else
    none

def available (c : Conduit α) : Nat :=
  c.arrived - c.taken

-- The next so many items, if they are there.
def take (c : Conduit α) (n : Nat) : Option (List α × Conduit α) :=
  if h : c.taken + n ≤ c.arrived then
    some ((c.written.drop c.taken).take n, { c with taken := c.taken + n, taken_le := h })
  else
    none

-- Everything was taken, and the other side is told that there is nothing more.
def atEnd (c : Conduit α) : Bool :=
  c.finished ∧ c.cut = false ∧ c.taken = c.written.length

def received (c : Conduit α) : List α :=
  c.written.take c.taken

variable {c c' : Conduit α} {as bs : List α} {n : Nat}

theorem write_eq_some_iff :
    c.write as = some c' ↔ ¬(c.finished ∨ c.cut) ∧
      c' = { c with written := c.written ++ as, arrived_le := c.arrived_le_append as } := by
  unfold write
  rw [Option.ite_none_left_eq_some, Option.some_inj, @eq_comm _ _ c']

theorem arrive_eq_some_iff :
    c.arrive n = some c' ↔ ∃ h : c.arrived + n ≤ c.written.length ∧ c.cut = false,
      c' = { c with
        arrived := c.arrived + n, taken_le := c.taken_le_add n, arrived_le := h.left } := by
  unfold arrive
  split
  case isTrue h  => simp [h, eq_comm]
  case isFalse h => simp [h]

theorem take_eq_some_iff :
    c.take n = some (as, c') ↔ ∃ h : c.taken + n ≤ c.arrived,
      as = (c.written.drop c.taken).take n ∧
      c' = { c with taken := c.taken + n, taken_le := h } := by
  unfold take
  split
  case isTrue h  => simp [h, eq_comm]
  case isFalse h => simp [h]

theorem length_received : c.received.length = c.taken := by
  have := c.taken_le
  have := c.arrived_le
  simp only [received, List.length_take]
  omega

theorem received_prefix : c.received <+: c.written :=
  List.take_prefix ..

-- What is taken follows what was received before.
theorem received_take (h : c.take n = some (as, c')) :
    c'.received = c.received ++ as ∧ as.length = n ∧ c'.written = c.written := by
  obtain ⟨hn, has, hc⟩ := take_eq_some_iff.mp h
  have := c.arrived_le
  subst has hc
  refine ⟨?_, ?_, rfl⟩
  · exact List.take_add ..
  · simp only [List.length_take, List.length_drop]
    omega

-- Writing more does not change what was received.
theorem received_write (h : c.write as = some c') : c'.received = c.received := by
  obtain ⟨_, hc⟩ := write_eq_some_iff.mp h
  have hl : c.taken ≤ c.written.length := Nat.le_trans c.taken_le c.arrived_le
  subst hc
  exact List.take_append_of_le_length hl

end Conduit
