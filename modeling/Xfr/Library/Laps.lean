import Mathlib.Data.List.Infix
import Mathlib.Tactic.Common

variable {α : Type*} {xs : List α} {n m k offset offset' : Nat}

-- A list which is gone through again and again: whole laps first, and a part of the next one.
def laps (xs : List α) (n offset : Nat) : List α :=
  (List.replicate n xs).flatten ++ xs.take offset

namespace Laps

@[simp]
theorem laps_zero : laps xs 0 0 = [] :=
  rfl

-- The next elements are those behind the offset.
theorem laps_append : laps xs n offset ++ (xs.drop offset).take m = laps xs n (offset + m) := by
  rw [laps, laps, List.append_assoc, List.take_add]

theorem laps_length : laps xs n xs.length = laps xs (n + 1) 0 := by
  simp [laps, List.replicate_succ']

theorem length_laps (h : offset ≤ xs.length) : (laps xs n offset).length = n * xs.length + offset := by
  simp [laps, h]

theorem laps_prefix_succ : laps xs n offset <+: (List.replicate (n + 1) xs).flatten := by
  rw [laps, List.replicate_succ', List.flatten_append, List.flatten_singleton]
  exact List.prefix_append_right_inj _ |>.mpr (List.take_prefix ..)

theorem flatten_prefix (h : n ≤ k) :
    (List.replicate n xs).flatten <+: (List.replicate k xs).flatten := by
  rw [← Nat.add_sub_cancel' h, List.replicate_add, List.flatten_append]
  exact List.prefix_append ..

-- There is one order in which elements come, so that the shorter of two lists begins the longer one.
theorem laps_prefix_laps (h : (laps xs n offset).length ≤ (laps xs k offset').length) :
    laps xs n offset <+: laps xs k offset' := by
  have hn : laps xs n offset <+: _ :=
    laps_prefix_succ.trans <| flatten_prefix (Nat.le_max_left (n + 1) (k + 1))
  have hk : laps xs k offset' <+: _ :=
    laps_prefix_succ.trans <| flatten_prefix (Nat.le_max_right (n + 1) (k + 1))
  exact List.prefix_of_prefix_length_le hn hk h

end Laps
