import Mathlib.Tactic.Common

-- A clock which can be paused, with the time it was running and the time it was paused so far.
structure Stopwatch where
  now     : Nat
  active  : Nat
  paused  : Nat
  running : Bool
  deriving DecidableEq

namespace Stopwatch

def start (now : Nat) : Stopwatch where
  now     := now
  active  := 0
  paused  := 0
  running := true

def advance (w : Stopwatch) (now : Nat) : Stopwatch :=
  if w.running then
    { w with now, active := w.active + (now - w.now) }
  else
    { w with now, paused := w.paused + (now - w.now) }

def pause (w : Stopwatch) : Stopwatch :=
  { w with running := false }

def resume (w : Stopwatch) : Stopwatch :=
  { w with running := true }

variable {w : Stopwatch} {t t' : Nat}

@[simp]
theorem advance_now : (w.advance t).now = t := by
  unfold advance
  split <;> rfl

@[simp]
theorem advance_running : (w.advance t).running = w.running := by
  unfold advance
  split <;> rfl

-- No time gets lost.
theorem advance_active_add_paused :
    (w.advance t).active + (w.advance t).paused = w.active + w.paused + (t - w.now) := by
  unfold advance
  split
  case isTrue  => exact Nat.add_right_comm ..
  case isFalse => exact (Nat.add_assoc ..).symm

theorem active_mono (h : t ≤ t') : (w.advance t).active ≤ (w.advance t').active := by
  cases hr : w.running
  case false => simp [advance, hr]
  case true  =>
    simp only [advance, hr, if_true]
    omega

theorem active_le_advance : w.active ≤ (w.advance t).active := by
  unfold advance
  split
  case isTrue  => exact Nat.le_add_right ..
  case isFalse => exact Nat.le_refl _

theorem active_of_le (h : t ≤ w.now) : (w.advance t).active = w.active := by
  unfold advance
  split
  case isTrue  => simp [Nat.sub_eq_zero_of_le h]
  case isFalse => rfl

theorem active_of_paused (h : w.running = false) : (w.advance t).active = w.active := by
  simp [advance, h]

end Stopwatch
