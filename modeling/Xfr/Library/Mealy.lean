import Mathlib.Tactic.Common

-- A machine which answers each input with an output and moves to a next state.
abbrev Mealy (σ ι ο : Type*) := σ → ι → ο × σ

namespace Mealy

variable {σ σ' ι ο : Type*}

def run (m : Mealy σ ι ο) (s : σ) : List ι → List ο × σ
  | []      => ([], s)
  | i :: is =>
    let (o, s') := m s i
    let (os, s'') := m.run s' is
    (o :: os, s'')

def outputs (m : Mealy σ ι ο) (s : σ) (is : List ι) : List ο :=
  (m.run s is).1

def after (m : Mealy σ ι ο) (s : σ) (is : List ι) : σ :=
  (m.run s is).2

variable {m : Mealy σ ι ο} {m' : Mealy σ' ι ο} {s : σ} {s' : σ'}

@[simp]
theorem outputs_nil : m.outputs s [] = [] :=
  rfl

@[simp]
theorem after_nil : m.after s [] = s :=
  rfl

@[simp]
theorem outputs_cons {i : ι} {is : List ι} :
    m.outputs s (i :: is) = (m s i).1 :: m.outputs (m s i).2 is :=
  rfl

@[simp]
theorem after_cons {i : ι} {is : List ι} : m.after s (i :: is) = m.after (m s i).2 is :=
  rfl

theorem after_append {is js : List ι} : m.after s (is ++ js) = m.after (m.after s is) js := by
  induction is generalizing s
  case nil         => rfl
  case cons i _ hi => exact hi

theorem after_concat {is : List ι} {i : ι} : m.after s (is ++ [i]) = (m (m.after s is) i).2 := by
  simp [after_append]

-- The invariant rule: what one step preserves, a run preserves.
theorem after_invariant {I : σ → Prop} (step : ∀ s i, I s → I (m s i).2) (init : I s)
    (is : List ι) : I (m.after s is) := by
  induction is generalizing s
  case nil         => exact init
  case cons i _ hi => exact hi (step s i init)

-- The simulation rule: related states answer alike and stay related.
theorem run_simulates {R : σ → σ' → Prop}
    (step : ∀ s s' i, R s s' → (m s i).1 = (m' s' i).1 ∧ R (m s i).2 (m' s' i).2)
    (init : R s s') (is : List ι) :
    m.outputs s is = m'.outputs s' is ∧ R (m.after s is) (m'.after s' is) := by
  induction is generalizing s s'
  case nil => exact ⟨rfl, init⟩
  case cons i _ hi =>
    have ⟨ho, hs⟩ := step s s' i init
    have ⟨hos, hss⟩ := hi hs
    exact ⟨by simp [ho, hos], hss⟩

end Mealy
