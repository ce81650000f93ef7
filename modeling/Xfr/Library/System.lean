import Mathlib.Tactic.Common

-- A system takes an event in a state or refuses it.
abbrev System (σ ε : Type*) := σ → ε → Option σ

namespace System

variable {σ σ' ε : Type*}

def run (sys : System σ ε) (s : σ) : List ε → Option σ
  | []      => some s
  | e :: es => (sys s e).bind (run sys · es)

variable {sys : System σ ε} {s s' : σ}

@[simp]
theorem run_nil : sys.run s [] = some s :=
  rfl

theorem run_cons {e : ε} {es : List ε} : sys.run s (e :: es) = (sys s e).bind (sys.run · es) :=
  rfl

theorem run_append {es es' : List ε} :
    sys.run s (es ++ es') = (sys.run s es).bind (sys.run · es') := by
  induction es generalizing s
  case nil         => rfl
  case cons e _ hi => cases h : sys s e <;> simp [run_cons, h, hi]

-- The invariant rule: what holds at first and is preserved by every event holds after every run.
theorem run_invariant {I : σ → Prop} (step : ∀ {s e s'}, I s → sys s e = some s' → I s')
    {es : List ε} (init : I s) (h : sys.run s es = some s') : I s' := by
  induction es generalizing s
  case nil => exact Option.some_inj.mp h ▸ init
  case cons e _ hi =>
    have ⟨_, he, h⟩ := Option.bind_eq_some_iff.mp h
    exact hi (step init he) h

-- The invariant rule with an observer, which is told the events.
theorem run_foldl {γ : Type*} {I : γ → σ → Prop} {observe : γ → ε → γ} {c : γ}
    (step : ∀ {c s e s'}, I c s → sys s e = some s' → I (observe c e) s')
    {es : List ε} (init : I c s) (h : sys.run s es = some s') : I (es.foldl observe c) s' := by
  induction es generalizing c s
  case nil => exact Option.some_inj.mp h ▸ init
  case cons e _ hi =>
    have ⟨_, he, h⟩ := Option.bind_eq_some_iff.mp h
    exact hi (step init he) h

-- The steps which meet a condition.
def guard (sys : System σ ε) (ok : σ → ε → Bool) : System σ ε :=
  fun s e => if ok s e then sys s e else none

theorem guard_eq_some {ok : σ → ε → Bool} {e : ε} :
    sys.guard ok s e = some s' ↔ ok s e ∧ sys s e = some s' := by
  cases h : ok s e <;> simp [guard, h]

theorem run_of_guard {ok : σ → ε → Bool} {es : List ε} (h : (sys.guard ok).run s es = some s') :
    sys.run s es = some s' := by
  induction es generalizing s
  case nil => exact h
  case cons e _ hi =>
    have ⟨s₁, he, h⟩ := Option.bind_eq_some_iff.mp h
    exact Option.bind_eq_some_iff.mpr ⟨s₁, (guard_eq_some.mp he).right, hi h⟩

-- A property which is lost in exactly the steps which do not meet the condition, and for good, holds
-- after exactly those runs whose steps all meet it.
theorem run_guard_iff {ok : σ → ε → Bool} {I P : σ → Prop}
    (step : ∀ {s e s'}, I s → sys s e = some s' → I s' ∧ (P s' ↔ P s ∧ ok s e))
    {es : List ε} (inv : I s) (init : P s) (h : sys.run s es = some s') :
    P s' ↔ (sys.guard ok).run s es = some s' := by
  induction es generalizing s
  case nil => simpa [Option.some_inj.mp h] using Option.some_inj.mp h ▸ init
  case cons e es hi =>
    have ⟨s₁, he, h⟩ := Option.bind_eq_some_iff.mp h
    have ⟨inv₁, hp⟩ := step inv he
    cases ho : ok s e
    case true =>
      have hp : P s₁ := hp.mpr ⟨init, ho⟩
      simpa [run_cons, guard, ho, he] using hi inv₁ hp h
    case false =>
      have hp : ¬P s₁ := by simp [hp, ho]
      have lost : I s' ∧ ¬P s' := by
        refine run_invariant (I := fun s => I s ∧ ¬P s) (fun hi hs => ?_) ⟨inv₁, hp⟩ h
        have ⟨hi', hp'⟩ := step hi.left hs
        exact ⟨hi', fun h => hi.right (hp'.mp h).left⟩
      simp [run_cons, guard, ho, lost.right]

-- All steps of a run have a property.
def Each (sys : System σ ε) (P : σ → ε → σ → Prop) (s : σ) (es : List ε) : Prop :=
  ∀ es₁ e es₂ s₁ s₂, es = es₁ ++ e :: es₂ → sys.run s es₁ = some s₁ → sys s₁ e = some s₂ →
    P s₁ e s₂

theorem each_nil {P : σ → ε → σ → Prop} : sys.Each P s [] := by
  intro es₁ e es₂ _ _ hes
  simp at hes

theorem each_cons {P : σ → ε → σ → Prop} {e : ε} {es : List ε} (he : sys s e = some s') :
    sys.Each P s (e :: es) ↔ P s e s' ∧ sys.Each P s' es := by
  constructor
  case mp =>
    intro h
    refine ⟨h [] e es s s' rfl rfl he, fun es₁ e₁ es₂ s₁ s₂ hes h₁ h₂ => ?_⟩
    exact h (e :: es₁) e₁ es₂ s₁ s₂ (by simp [hes]) (by simp [run_cons, he, h₁]) h₂
  case mpr =>
    rintro ⟨hp, h⟩ es₁ e₁ es₂ s₁ s₂ hes h₁ h₂
    cases es₁
    case nil =>
      obtain ⟨rfl, rfl⟩ := List.cons.inj hes
      obtain rfl := Option.some_inj.mp h₁
      exact Option.some_inj.mp (he.symm.trans h₂) ▸ hp
    case cons _ es₁ =>
      obtain ⟨rfl, ht⟩ := List.cons.inj hes
      exact h es₁ e₁ es₂ s₁ s₂ ht (by simpa [run_cons, he] using h₁) h₂

-- A property of steps, which the steps that meet a condition have, and no others. The invariant has
-- to survive those steps only.
theorem run_each_iff {ok : σ → ε → Bool} {I : σ → Prop} {P : σ → ε → σ → Prop}
    (step : ∀ {s e s'}, I s → sys s e = some s' → (P s e s' ↔ ok s e) ∧ (P s e s' → I s'))
    {es : List ε} (inv : I s) (h : sys.run s es = some s') :
    sys.Each P s es ↔ (sys.guard ok).run s es = some s' := by
  induction es generalizing s
  case nil => exact iff_of_true each_nil h
  case cons e es hi =>
    have ⟨s₁, he, h⟩ := Option.bind_eq_some_iff.mp h
    have ⟨hp, inv₁⟩ := step inv he
    rw [each_cons he, hp]
    cases ho : ok s e
    case false => simp [run_cons, guard, ho]
    case true  => simpa [run_cons, guard, ho, he] using hi (inv₁ (hp.mpr ho)) h

end System
