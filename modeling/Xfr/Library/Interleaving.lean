import Mathlib.Algebra.Order.BigOperators.Group.List
import Mathlib.Algebra.Order.Group.Nat
import Xfr.Library.System

namespace System

variable {γ α ε : Type*}

-- Parts which take turns on what they share. Each event goes to one of them.
def interleave (sys : System (γ × α) ε) : System (γ × List α) (Nat × ε) :=
  fun (shared, parts) (i, e) =>
    parts[i]?.bind fun part =>
      (sys (shared, part) e).map fun (shared, part) => (shared, parts.set i part)

variable {sys : System (γ × α) ε} {shared shared' : γ} {parts parts' : List α} {e : Nat × ε}

theorem interleave_cases (h : sys.interleave (shared, parts) e = some (shared', parts')) :
    ∃ part part', parts[e.1]? = some part ∧ sys (shared, part) e.2 = some (shared', part') ∧
      parts' = parts.set e.1 part' := by
  have ⟨part, hp, h⟩ := Option.bind_eq_some_iff.mp h
  have ⟨⟨_, part'⟩, hs, h⟩ := Option.map_eq_some_iff.mp h
  have ⟨hg, hl⟩ := Prod.mk.inj h
  exact ⟨part, part', hp, hg ▸ hs, hl.symm⟩

theorem sum_map_set {M : Type*} [AddCommMonoid M] (weight : α → M) {i : Nat} {part : α} (part' : α)
    (h : parts[i]? = some part) :
    ((parts.set i part').map weight).sum + weight part =
      (parts.map weight).sum + weight part' := by
  induction parts generalizing i
  case nil => contradiction
  case cons p ps hi =>
    cases i
    case zero =>
      have h : p = part := by simpa using h
      simp only [List.set_cons_zero, List.map_cons, List.sum_cons, h]
      rw [add_right_comm, add_comm (weight part'), add_right_comm]
    case succ i =>
      have hi := hi (by simpa using h)
      simp only [List.set_cons_succ, List.map_cons, List.sum_cons, add_assoc, hi]

section

variable {M : Type*} [AddCommMonoid M] [PartialOrder M] [IsOrderedCancelAddMonoid M]
  [CanonicallyOrderedAdd M]

-- What the parts hand to and fro with the shared state stays the same in total, and each side keeps
-- its invariant. A step may rely on that its share is within the total.
theorem interleave_conserved {value : γ → M} {weight : α → M} {total : M} {J : γ → Prop}
    {K : α → Prop}
    (step : ∀ {shared part e shared' part'}, J shared → K part →
      value shared + weight part ≤ total → sys (shared, part) e = some (shared', part') →
      J shared' ∧ K part' ∧ value shared' + weight part' = value shared + weight part)
    (hJ : J shared) (hK : ∀ part ∈ parts, K part)
    (init : value shared + (parts.map weight).sum = total)
    (h : sys.interleave (shared, parts) e = some (shared', parts')) :
    J shared' ∧ (∀ part ∈ parts', K part) ∧ value shared' + (parts'.map weight).sum = total := by
  have ⟨part, part', hp, hs, hl⟩ := interleave_cases h
  have hm := List.mem_of_getElem? hp
  have hle : weight part ≤ (parts.map weight).sum :=
    List.single_le_sum (by simp) _ (List.mem_map_of_mem hm)
  have hw : ((parts.set e.1 part').map weight).sum + weight part = _ := sum_map_set weight part' hp
  have ⟨hJ', hK', hs⟩ := step hJ (hK part hm) ((add_le_add_right hle _).trans_eq init) hs
  subst hl
  refine ⟨hJ', fun p hp => ?_, ?_⟩
  case refine_1 =>
    cases List.mem_or_eq_of_mem_set hp
    case inl hp => exact hK p hp
    case inr hp => exact hp ▸ hK'
  case refine_2 =>
    apply add_right_cancel (b := weight part)
    calc
      value shared' + ((parts.set e.1 part').map weight).sum + weight part
        = value shared' + weight part' + (parts.map weight).sum := by
          rw [add_assoc, hw, add_assoc, add_comm (weight part')]
      _ = value shared + (parts.map weight).sum + weight part := by rw [hs, add_right_comm]
      _ = total + weight part := by rw [init]

theorem run_conserved_invariant {value : γ → M} {weight : α → M} {total : M} {J : γ → Prop}
    {K : α → Prop}
    (step : ∀ {shared part e shared' part'}, J shared → K part →
      value shared + weight part ≤ total → sys (shared, part) e = some (shared', part') →
      J shared' ∧ K part' ∧ value shared' + weight part' = value shared + weight part)
    {es : List (Nat × ε)} (hJ : J shared) (hK : ∀ part ∈ parts, K part)
    (init : value shared + (parts.map weight).sum = total)
    (h : sys.interleave.run (shared, parts) es = some (shared', parts')) :
    J shared' ∧ (∀ part ∈ parts', K part) ∧ value shared' + (parts'.map weight).sum = total :=
  run_invariant
    (I := fun s => J s.1 ∧ (∀ part ∈ s.2, K part) ∧ value s.1 + (s.2.map weight).sum = total)
    (fun ⟨hJ, hK, init⟩ h => interleave_conserved step hJ hK init h) ⟨hJ, hK, init⟩ h

theorem run_conserved {value : γ → M} {weight : α → M} {total : M}
    (step : ∀ {shared part e shared' part'}, value shared + weight part ≤ total →
      sys (shared, part) e = some (shared', part') →
      value shared' + weight part' = value shared + weight part)
    {es : List (Nat × ε)} (init : value shared + (parts.map weight).sum = total)
    (h : sys.interleave.run (shared, parts) es = some (shared', parts')) :
    value shared' + (parts'.map weight).sum = total :=
  (run_conserved_invariant (J := fun _ => True) (K := fun _ => True)
    (fun _ _ hle hs => ⟨trivial, trivial, step hle hs⟩) trivial (fun _ _ => trivial) init h).right.right

end

-- What every step preserves of its part holds of all parts.
theorem run_forall {K : α → Prop}
    (step : ∀ {shared part e shared' part'}, sys (shared, part) e = some (shared', part') →
      K part → K part')
    {es : List (Nat × ε)} (hK : ∀ part ∈ parts, K part)
    (h : sys.interleave.run (shared, parts) es = some (shared', parts')) : ∀ part ∈ parts', K part := by
  refine run_invariant (I := fun s => ∀ part ∈ s.2, K part) ?_ hK h
  intro ⟨_, parts⟩ e ⟨_, _⟩ hK h
  obtain ⟨part, part', hp, hs, hl⟩ := interleave_cases h
  subst hl
  intro p hp'
  rcases List.mem_or_eq_of_mem_set hp' with hp' | rfl
  · exact hK p hp'
  · exact step hs (hK part (List.mem_of_getElem? hp))

-- A part which resigned does not come back. If the last part to resign finds the shared state in a
-- condition which resigned parts keep, all parts are gone only under this condition.
theorem run_resigned {Resigned : α → Prop} {Final : γ → Prop}
    (stays : ∀ {shared part e shared' part'}, sys (shared, part) e = some (shared', part') →
      Resigned part → Resigned part' ∧ (Final shared → Final shared'))
    (finds : ∀ {shared part e shared' part'}, sys (shared, part) e = some (shared', part') →
      ¬Resigned part → Resigned part' → Final shared')
    {es : List (Nat × ε)} (init : ∃ part ∈ parts, ¬Resigned part)
    (h : sys.interleave.run (shared, parts) es = some (shared', parts'))
    (resigned : ∀ part ∈ parts', Resigned part) : Final shared' := by
  refine run_invariant (I := fun s => (∀ part ∈ s.2, Resigned part) → Final s.1) ?_ ?_ h resigned
  case refine_2 =>
    have ⟨part, hp, hn⟩ := init
    exact fun h => absurd (h part hp) hn
  case refine_1 =>
    intro ⟨_, parts⟩ e ⟨_, _⟩ init h resigned
    have ⟨part, part', hp, hs, hl⟩ := interleave_cases h
    have ⟨hi, _⟩ := List.getElem?_eq_some_iff.mp hp
    subst hl
    by_cases hr : Resigned part
    case neg => exact finds hs hr (resigned part' (List.mem_set hi part'))
    case pos =>
      refine (stays hs hr).right (init fun p hm => ?_)
      have ⟨j, hj⟩ := List.mem_iff_getElem?.mp hm
      by_cases hij : e.1 = j
      case pos =>
        have : p = part := Option.some_inj.mp (hj.symm.trans (hij ▸ hp))
        exact this ▸ hr
      case neg =>
        refine resigned p (List.mem_of_getElem? (i := j) ?_)
        rw [List.getElem?_set_ne hij, hj]

theorem interleave_eq_some {part part' : α} (hp : parts[e.1]? = some part)
    (hs : sys (shared, part) e.2 = some (shared', part')) :
    sys.interleave (shared, parts) e = some (shared', parts.set e.1 part') := by
  rw [interleave, hp, Option.bind_some, hs]
  rfl

-- What a step preserves of its part, each part with its own parameter, holds of all parts.
theorem forall₂_set {κ : Type*} {K : κ → α → Prop} {ks : List κ} {i : Nat} {part part' : α}
    (hK : List.Forall₂ K ks parts) (hp : parts[i]? = some part) (step : ∀ {k}, K k part → K k part') :
    List.Forall₂ K ks (parts.set i part') := by
  induction hK generalizing i
  case nil => contradiction
  case cons k p ks parts hk hks hi =>
    cases i
    case succ i => exact .cons hk (hi (by simpa using hp))
    case zero   =>
      have : p = part := by simpa using hp
      exact .cons (step (this ▸ hk)) hks

theorem run_forall₂ {κ : Type*} {J : γ → Prop} {K : κ → α → Prop} {ks : List κ}
    (step : ∀ {shared part e shared' part'}, sys (shared, part) e = some (shared', part') →
      (J shared → J shared') ∧ ∀ {k}, J shared → K k part → K k part')
    {es : List (Nat × ε)} (hJ : J shared) (hK : List.Forall₂ K ks parts)
    (h : sys.interleave.run (shared, parts) es = some (shared', parts')) :
    J shared' ∧ List.Forall₂ K ks parts' := by
  refine run_invariant (I := fun s => J s.1 ∧ List.Forall₂ K ks s.2) ?_ ⟨hJ, hK⟩ h
  intro ⟨_, parts⟩ e ⟨_, _⟩ ⟨hJ, hK⟩ h
  obtain ⟨part, part', hp, hs, hl⟩ := interleave_cases h
  subst hl
  exact ⟨(step hs).left hJ, forall₂_set hK hp ((step hs).right hJ)⟩

-- A run of the parts is a run of what they stand for, if every step is one or changes nothing there.
theorem run_project {δ β ε' : Type*} {sys' : System (δ × β) ε'} {p : γ → δ} {q : α → β}
    {J : γ → Prop}
    (step : ∀ {shared part e shared' part'}, J shared →
      sys (shared, part) e = some (shared', part') → J shared' ∧
        (p shared' = p shared ∧ q part' = q part ∨
          ∃ e', sys' (p shared, q part) e' = some (p shared', q part')))
    {es : List (Nat × ε)} (hJ : J shared)
    (h : sys.interleave.run (shared, parts) es = some (shared', parts')) :
    J shared' ∧ ∃ es', sys'.interleave.run (p shared, parts.map q) es' =
      some (p shared', parts'.map q) := by
  induction es generalizing shared parts
  case nil =>
    obtain ⟨hs, hp⟩ := Prod.mk.inj (Option.some_inj.mp h)
    subst hs hp
    exact ⟨hJ, [], rfl⟩
  case cons e es hi =>
    obtain ⟨⟨shared₁, parts₁⟩, he, h⟩ := Option.bind_eq_some_iff.mp h
    obtain ⟨part, part', hp, hs, hl⟩ := interleave_cases he
    obtain ⟨hJ₁, hstep⟩ := step hJ hs
    obtain ⟨hJ', es', hes⟩ := hi hJ₁ h
    have hset : parts₁.map q = (parts.map q).set e.1 (q part') := by rw [hl, List.map_set]
    have hq : (parts.map q)[e.1]? = some (q part) := by rw [List.getElem?_map, hp]; rfl
    refine ⟨hJ', ?_⟩
    rcases hstep with ⟨hp', hq'⟩ | ⟨e', he'⟩
    case inl =>
      refine ⟨es', ?_⟩
      obtain ⟨hlt, hq⟩ := List.getElem?_eq_some_iff.mp hq
      rwa [hset, hp', hq', ← hq, List.set_getElem_self] at hes
    case inr =>
      refine ⟨(e.1, e') :: es', ?_⟩
      have hi := interleave_eq_some (e := (e.1, e')) hq he'
      rw [run_cons, hi, ← hset]
      exact hes

end System
