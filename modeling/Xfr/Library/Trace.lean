import Mathlib.Data.List.Infix

-- A trace in which every event is justified by what happened before it.
def Justified {ε : Type*} (justifies : List ε → ε → Prop) (t : List ε) : Prop :=
  ∀ before e after, t = before ++ e :: after → justifies before e

namespace Justified

variable {ε : Type*} {justifies : List ε → ε → Prop} {t t' : List ε} {e : ε}

theorem nil : Justified justifies [] :=
  fun _ _ _ h => by simp at h

theorem of_prefix (h : Justified justifies t) (hp : t' <+: t) : Justified justifies t' := by
  intro before e after he
  have ⟨rest, hr⟩ := hp
  exact h before e (after ++ rest) (by simp [← hr, he])

theorem concat_iff :
    Justified justifies (t ++ [e]) ↔ Justified justifies t ∧ justifies t e := by
  constructor
  case mp =>
    intro h
    exact ⟨h.of_prefix (List.prefix_append ..), h t e [] rfl⟩
  case mpr =>
    intro ⟨h, he⟩ before e' after hb
    cases after using List.reverseRecOn with
    | nil =>
      have ⟨hb, hx⟩ := List.append_inj' hb rfl
      exact hb ▸ (List.cons.inj hx).left ▸ he
    | append_singleton after a =>
      rw [← List.cons_append, ← List.append_assoc] at hb
      exact h before e' after (List.append_inj' hb rfl).left

theorem singleton_iff : Justified justifies [e] ↔ justifies [] e := by
  simpa [nil] using concat_iff (t := [])

end Justified
