import Mathlib.Data.List.Perm.Basic

-- Steps which leave a fold where it is may be left out, as long as an invariant holds.
namespace List

variable {σ α : Type*} {f : σ → α → σ} {Inv : σ → Prop} {s : σ} {xs : List α}

theorem foldl_invariant (hs : Inv s) (hk : ∀ s, ∀ x ∈ xs, Inv s → Inv (f s x)) :
    Inv (xs.foldl f s) := by
  induction xs generalizing s
  case nil          => exact hs
  case cons x xs hi =>
    exact hi (hk s x mem_cons_self hs) fun s y hy => hk s y (mem_cons_of_mem x hy)

theorem foldl_filter_of_idle {p : α → Bool} (hs : Inv s)
    (hk : ∀ s, ∀ x ∈ xs, Inv s → Inv (f s x))
    (hi : ∀ s, ∀ x ∈ xs, Inv s → p x = false → f s x = s) :
    xs.foldl f s = (xs.filter p).foldl f s := by
  induction xs generalizing s
  case nil          => rfl
  case cons x xs ih =>
    have ih {s} (hs : Inv s) := ih hs (fun s y hy => hk s y (mem_cons_of_mem x hy))
      (fun s y hy => hi s y (mem_cons_of_mem x hy))
    cases hp : p x
    case true =>
      rw [filter_cons_of_pos hp, foldl_cons, foldl_cons, ih (hk s x mem_cons_self hs)]
    case false =>
      rw [filter_cons_of_neg (by simp [hp]), foldl_cons, hi s x mem_cons_self hs hp, ih hs]

end List

-- Folds which can fail, and whose steps commute up to a relation.
namespace Except

variable {σ α ε : Type*} {f : σ → α → Except ε σ} {R : σ → σ → Prop} {s s' t : σ} {xs ys : List α}

theorem bind_eq_ok {α β : Type*} {a : Except ε α} {g : α → Except ε β} {b : β} :
    a.bind g = .ok b ↔ ∃ a', a = .ok a' ∧ g a' = .ok b := by
  cases a <;> simp [Except.bind]

theorem foldlM_cons_eq_ok {x : α} : (x :: xs).foldlM f s = .ok s' ↔
    ∃ s₁, f s x = .ok s₁ ∧ xs.foldlM f s₁ = .ok s' := by
  rw [List.foldlM_cons]
  exact bind_eq_ok

-- A step which is taken from related states leads to related states.
def Uniform (f : σ → α → Except ε σ) (R : σ → σ → Prop) : Prop :=
  ∀ ⦃s s' t x⦄, R s t → f s x = .ok s' → ∃ t', f t x = .ok t' ∧ R s' t'

def Commutes (f : σ → α → Except ε σ) (R : σ → σ → Prop) : Prop :=
  ∀ ⦃s s₁ s₂ x y⦄, f s x = .ok s₁ → f s₁ y = .ok s₂ →
    ∃ t₁ t₂, f s y = .ok t₁ ∧ f t₁ x = .ok t₂ ∧ R s₂ t₂

theorem Uniform.foldlM (hu : Uniform f R) (hr : R s t) (h : xs.foldlM f s = .ok s') :
    ∃ t', xs.foldlM f t = .ok t' ∧ R s' t' := by
  induction xs generalizing s t
  case nil =>
    obtain rfl : s = s' := Except.ok.inj h
    exact ⟨t, rfl, hr⟩
  case cons x xs hi =>
    have ⟨s₁, hx, hxs⟩ := foldlM_cons_eq_ok.mp h
    have ⟨t₁, hx', hr₁⟩ := hu hr hx
    have ⟨t', hxs', hr'⟩ := hi hr₁ hxs
    exact ⟨t', foldlM_cons_eq_ok.mpr ⟨t₁, hx', hxs'⟩, hr'⟩

theorem foldlM_perm (hrefl : ∀ s, R s s) (htrans : ∀ ⦃s t u⦄, R s t → R t u → R s u)
    (hu : Uniform f R) (hc : Commutes f R) (hp : xs.Perm ys) (hr : R s t)
    (h : xs.foldlM f s = .ok s') : ∃ t', ys.foldlM f t = .ok t' ∧ R s' t' := by
  induction hp generalizing s t s'
  case nil => exact hu.foldlM hr h
  case cons x xs ys _ hi =>
    have ⟨s₁, hx, hxs⟩ := foldlM_cons_eq_ok.mp h
    have ⟨t₁, hx', hr₁⟩ := hu hr hx
    have ⟨t', hxs', hr'⟩ := hi hr₁ hxs
    exact ⟨t', foldlM_cons_eq_ok.mpr ⟨t₁, hx', hxs'⟩, hr'⟩
  case swap x y xs =>
    have ⟨s₁, hy, h₁⟩ := foldlM_cons_eq_ok.mp h
    have ⟨s₂, hx, hxs⟩ := foldlM_cons_eq_ok.mp h₁
    have ⟨u₁, u₂, hx', hy', hr₂⟩ := hc hy hx
    have ⟨t₁, htx, hr₁'⟩ := hu hr hx'
    have ⟨t₂, hty, hr₂'⟩ := hu hr₁' hy'
    have ⟨t', hxs', hr'⟩ := hu.foldlM (htrans hr₂ hr₂') hxs
    exact ⟨t', foldlM_cons_eq_ok.mpr ⟨t₁, htx, foldlM_cons_eq_ok.mpr ⟨t₂, hty, hxs'⟩⟩, hr'⟩
  case trans _ _ hi₁ hi₂ =>
    have ⟨t₁, h₁, hr₁⟩ := hi₁ hr h
    have ⟨t', h', hr'⟩ := hi₂ (hrefl t) h₁
    exact ⟨t', h', htrans hr₁ hr'⟩

end Except
