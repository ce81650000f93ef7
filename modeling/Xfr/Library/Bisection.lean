import Mathlib.Data.Nat.Log

-- Bisection of the numbers between two bounds.
namespace Bisection

variable {low high d n : Nat}

def midpoint (low high : Nat) : Nat :=
  low + (high - low) / 2

theorem lt_midpoint (h : 1 < high - low) : low < midpoint low high := by
  unfold midpoint
  omega

theorem midpoint_lt (h : 1 < high - low) : midpoint low high < high := by
  unfold midpoint
  omega

-- With the larger half of a distance, one step less is left.
theorem clog_half (h : 1 < n) (hd : d ≤ (n + 1) / 2) : Nat.clog 2 d + 1 ≤ Nat.clog 2 n := by
  rw [Nat.clog_of_one_lt (by decide) h]
  exact Nat.succ_le_succ (Nat.clog_mono_right 2 hd)

theorem clog_sub_midpoint (h : 1 < high - low) :
    Nat.clog 2 (high - midpoint low high) + 1 ≤ Nat.clog 2 (high - low) := by
  apply clog_half h
  unfold midpoint
  omega

theorem clog_midpoint_sub (h : 1 < high - low) :
    Nat.clog 2 (midpoint low high - low) + 1 ≤ Nat.clog 2 (high - low) := by
  apply clog_half h
  unfold midpoint
  omega

end Bisection
