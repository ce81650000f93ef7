import Mathlib.Order.Defs.Unbundled
import Mathlib.Tactic.Common

-- Programs which change a state, and may fail in between.
namespace ExceptT

variable {ε σ α β : Type}

-- From a state, the program comes to its end with a value and another state.
def Runs (m : ExceptT ε (StateM σ) α) (s : σ) (a : α) (s' : σ) : Prop :=
  m.run.run s = (.ok a, s')

-- From a state, the program fails with an error and leaves another state.
def Fails (m : ExceptT ε (StateM σ) α) (s : σ) (e : ε) (s' : σ) : Prop :=
  m.run.run s = (.error e, s')

-- Whether the program fails or not, the states before and after it are related.
def Relates (R : σ → σ → Prop) (m : ExceptT ε (StateM σ) α) : Prop :=
  ∀ s, R s (m.run.run s).2

-- A state the program passes through is related to the one it leaves, however it ends.
def Passes (R : σ → σ → Prop) (m : ExceptT ε (StateM σ) α) (s s' : σ) : Prop :=
  R s' (m.run.run s).2

variable {m : ExceptT ε (StateM σ) α} {f : α → ExceptT ε (StateM σ) β} {s s' s'' : σ} {a : α} {b : β}
  {e : ε}

theorem run_bind_ok (h : Runs m s a s') : (m >>= f).run.run s = (f a).run.run s' := by
  have h : m s = (.ok a, s') := h
  simp only [ExceptT.run, StateT.run, bind, ExceptT.bind, ExceptT.mk, StateT.bind, h]
  rfl

theorem run_bind_error (h : m.run.run s = (.error e, s')) :
    (m >>= f).run.run s = (.error e, s') := by
  have h : m s = (.error e, s') := h
  simp only [ExceptT.run, StateT.run, bind, ExceptT.bind, ExceptT.mk, StateT.bind, h]
  rfl

namespace Runs

theorem pure : Runs (pure a : ExceptT ε (StateM σ) α) s a s :=
  rfl

theorem bind (h : Runs m s a s') (h' : Runs (f a) s' b s'') : Runs (m >>= f) s b s'' :=
  (run_bind_ok h).trans h'

theorem get : Runs (get : ExceptT ε (StateM σ) σ) s s s :=
  rfl

theorem set : Runs (set s' : ExceptT ε (StateM σ) PUnit) s ⟨⟩ s' :=
  rfl

end Runs

namespace Fails

theorem throw : Fails (throw e : ExceptT ε (StateM σ) α) s e s :=
  rfl

theorem bind (h : Fails m s e s') : Fails (m >>= f) s e s' :=
  run_bind_error h

theorem after (h : Runs m s a s') (h' : Fails (f a) s' e s'') : Fails (m >>= f) s e s'' :=
  (run_bind_ok h).trans h'

end Fails

namespace Passes

variable {R : σ → σ → Prop}

theorem bind (h : Runs m s a s') (h' : Passes R (f a) s' s'') : Passes R (m >>= f) s s'' := by
  rw [Passes, run_bind_ok h]
  exact h'

-- What follows does not take back what was passed.
theorem within [IsTrans σ R] (h : Passes R m s s') (h' : ∀ a, Relates R (f a)) :
    Passes R (m >>= f) s s' := by
  rw [Passes] at h ⊢
  cases hm : m.run.run s with
  | mk r s'' =>
    rw [hm] at h
    cases r
    case error => exact run_bind_error hm ▸ h
    case ok a  => exact run_bind_ok hm ▸ trans_of R h (h' a s'')

end Passes

namespace Relates

variable {R : σ → σ → Prop}

theorem pure [Std.Refl R] : Relates R (pure a : ExceptT ε (StateM σ) α) :=
  fun s => refl_of R s

theorem throw [Std.Refl R] : Relates R (throw e : ExceptT ε (StateM σ) α) :=
  fun s => refl_of R s

theorem bind [IsTrans σ R] (h : Relates R m) (h' : ∀ a, Relates R (f a)) : Relates R (m >>= f) :=
  fun s => Passes.within (h s) h'

theorem passes (h : Relates R m) : Passes R m s s :=
  h s

end Relates
end ExceptT
