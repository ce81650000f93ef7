import Mathlib.Tactic.Common

variable {ε σ α β : Type}

namespace Wp

-- What has to hold before a program for something to hold after it, in the state it leaves behind
-- when it returns and when it fails.
def wp (m : EStateM ε σ α) (Q : α → σ → Prop) (E : ε → σ → Prop) (s : σ) : Prop :=
  match m s with
  | .ok a s    => Q a s
  | .error e s => E e s

variable {m : EStateM ε σ α} {f : α → EStateM ε σ β} {Q Q' : α → σ → Prop} {R : β → σ → Prop}
  {E E' : ε → σ → Prop} {s s' : σ} {a : α} {e : ε}

theorem wp_pure (h : Q a s) : wp (pure a) Q E s :=
  h

theorem wp_throw (h : E e s) : wp (throw e) Q E s :=
  h

theorem wp_bind (h : wp m (fun a => wp (f a) R E) E s) : wp (m >>= f) R E s := by
  simp only [wp, bind, EStateM.bind] at h ⊢
  cases hm : m s
  all_goals
    rw [hm] at h
    exact h

theorem wp_mono (h : wp m Q E s) (hq : ∀ {a s}, Q a s → Q' a s) (he : ∀ {e s}, E e s → E' e s) :
    wp m Q' E' s := by
  unfold wp at h ⊢
  split
  case h_1 hm =>
    rw [hm] at h
    exact hq h
  case h_2 hm =>
    rw [hm] at h
    exact he h

theorem wp_of_forall (hq : ∀ a s, Q a s) (he : ∀ e s, E e s) : wp m Q E s := by
  unfold wp
  split
  case h_1 a s _ => exact hq a s
  case h_2 e s _ => exact he e s

theorem of_ok (h : wp m Q E s) (hm : m s = .ok a s') : Q a s' := by
  rw [wp, hm] at h
  exact h

theorem of_error (h : wp m Q E s) (hm : m s = .error e s') : E e s' := by
  rw [wp, hm] at h
  exact h

-- A program which does not fail returns.
theorem exists_ok (h : wp m Q (fun _ _ => False) s) : ∃ a s', m s = .ok a s' ∧ Q a s' := by
  unfold wp at h
  split at h
  case h_1 hm => exact ⟨_, _, hm, h⟩
  case h_2    => contradiction

end Wp
