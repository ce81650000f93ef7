import Mathlib.Tactic.Common

-- A channel with a single value. A receiver knows which version of the value it has seen, so that it
-- may miss values but never that there was a new one.
structure WatchChannel (α : Type*) where
  value   : α
  version : Nat  := 0
  closed  : Bool := false

namespace WatchChannel

variable {α : Type*} {w : WatchChannel α} {seen seen' : Nat} {value : α}

def send (w : WatchChannel α) (value : α) : WatchChannel α :=
  { w with value, version := w.version + 1 }

-- All senders are gone.
def close (w : WatchChannel α) : WatchChannel α :=
  { w with closed := true }

-- What a receiver is told: that there is a new version, that there will be none, or nothing yet.
def changed (w : WatchChannel α) (seen : Nat) : Option (Except Unit Nat) :=
  if seen ≠ w.version then some (.ok w.version)
  else if w.closed then some (.error ())
  else none

def unseen (w : WatchChannel α) (seen : Nat) : Nat :=
  w.version - seen

theorem changed_ok (h : w.changed seen = some (.ok seen')) : seen ≠ seen' ∧ seen' = w.version := by
  unfold changed at h
  split at h
  case isTrue hn  => cases h; exact ⟨hn, rfl⟩
  case isFalse hn => split at h <;> cases h

theorem changed_error (h : w.changed seen = some (.error ())) : seen = w.version ∧ w.closed := by
  unfold changed at h
  split at h
  case isTrue hn  => cases h
  case isFalse hn =>
    split at h
    case isTrue hc  => exact ⟨not_not.mp hn, hc⟩
    case isFalse hc => cases h

theorem changed_of_ne (h : seen ≠ w.version) : w.changed seen = some (.ok w.version) :=
  if_pos h

theorem changed_none (h : w.changed seen = none) : seen = w.version ∧ ¬w.closed := by
  unfold changed at h
  split at h
  case isTrue hn  => cases h
  case isFalse hn =>
    split at h
    case isTrue hc  => cases h
    case isFalse hc => exact ⟨not_not.mp hn, hc⟩

@[simp]
theorem version_send : (w.send value).version = w.version + 1 :=
  rfl

@[simp]
theorem version_close : w.close.version = w.version :=
  rfl

@[simp]
theorem unseen_version : w.unseen w.version = 0 :=
  Nat.sub_self _

end WatchChannel
