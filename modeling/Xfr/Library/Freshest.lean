import Mathlib.Data.List.Basic
import Mathlib.Order.Bounds.Basic

-- A register which takes over a value when it is at least as fresh as the kept one. The values are
-- numbered in the order in which they were published, and reach the register in any order.
namespace Freshest

variable {α : Type*} [Preorder α]

def keep [DecidableLE α] (kept next : α) : α :=
  if kept ≤ next then next else kept

-- The published values with the given numbers.
def picked (published : List α) (ns : List Nat) : Set α :=
  { v | ∃ n ∈ ns, published[n]? = some v }

def newest? (published : List α) (ns : List Nat) : Option α :=
  ns.max?.bind (published[·]?)

-- The register keeps one of the values which reached it, and none of the others is fresher.
structure Keeps (published : List α) (ns : List Nat) (kept : α) : Prop where
  lt       : ∀ n ∈ ns, n < published.length
  greatest : IsGreatest (picked published ns) kept

variable {published : List α} {ns ns' : List Nat} {kept next v : α}

theorem isGreatest_keep [DecidableLE α] {s t : Set α} (hs : IsGreatest s kept)
    (ht : IsGreatest t next) (h : kept ≤ next ∨ next ≤ kept) :
    IsGreatest (s ∪ t) (keep kept next) := by
  unfold keep
  split
  case isTrue hn =>
    refine ⟨.inr ht.left, fun v hv => ?_⟩
    cases hv
    case inl hv => exact le_trans (hs.right hv) hn
    case inr hv => exact ht.right hv
  case isFalse hn =>
    have hk := h.resolve_left hn
    refine ⟨.inl hs.left, fun v hv => ?_⟩
    cases hv
    case inl hv => exact hs.right hv
    case inr hv => exact le_trans (ht.right hv) hk

omit [Preorder α] in
theorem picked_append : picked published (ns ++ ns') = picked published ns ∪ picked published ns' := by
  ext v
  simp [picked, or_and_right, exists_or]

theorem comparable (hp : published.Pairwise (· ≤ ·)) {v' : α} (hv : v ∈ picked published ns)
    (hv' : v' ∈ picked published ns') : v ≤ v' ∨ v' ≤ v := by
  have ⟨n, _, hn⟩ := hv
  have ⟨n', _, hn'⟩ := hv'
  have ⟨hl, hn⟩ := List.getElem?_eq_some_iff.mp hn
  have ⟨hl', hn'⟩ := List.getElem?_eq_some_iff.mp hn'
  have hp := List.pairwise_iff_getElem.mp hp
  rcases lt_trichotomy n n' with h | h | h
  · exact .inl (hn ▸ hn' ▸ hp n n' hl hl' h)
  · subst h
    exact .inl (hn ▸ hn' ▸ le_refl _)
  · exact .inr (hn ▸ hn' ▸ hp n' n hl' hl h)

namespace Keeps

theorem single {n : Nat} (h : published[n]? = some v) : Keeps published [n] v where
  lt       := by simpa using (List.getElem?_eq_some_iff.mp h).fst
  greatest := by
    refine ⟨⟨n, List.mem_singleton_self n, h⟩, fun v' ⟨m, hm, hv⟩ => ?_⟩
    obtain rfl := List.mem_singleton.mp hm
    exact le_of_eq <| Option.some_inj.mp (hv.symm.trans h)

theorem append (k : Keeps published ns kept) {vs : List α} :
    Keeps (published ++ vs) ns kept where
  lt n hn  := by simpa using Nat.lt_add_right _ (k.lt n hn)
  greatest := by
    have hp : picked (published ++ vs) ns = picked published ns := by
      ext v'
      refine exists_congr fun n => and_congr_right fun hn => ?_
      rw [List.getElem?_append_left (k.lt n hn)]
    exact hp ▸ k.greatest

theorem keep [DecidableLE α] (k : Keeps published ns kept) (k' : Keeps published ns' next)
    (hp : published.Pairwise (· ≤ ·)) : Keeps published (ns' ++ ns) (keep kept next) where
  lt n hn  := (List.mem_append.mp hn).elim (k'.lt n) (k.lt n)
  greatest := by
    have hc := comparable hp k.greatest.left k'.greatest.left
    rw [picked_append, Set.union_comm]
    exact isGreatest_keep k.greatest k'.greatest hc

-- If what is published gets fresher, the register keeps something as fresh as the newest value.
theorem newest {r : α → α → Prop} (k : Keeps published ns kept) (hp : published.Pairwise r)
    (h : newest? published ns = some v) : v ≤ kept ∧ (kept = v ∨ r kept v) := by
  have ⟨m, hm, hv⟩ := Option.bind_eq_some_iff.mp h
  have ⟨hmem, hle⟩ := List.max?_eq_some_iff.mp hm
  have ⟨n, hn, hk⟩ := k.greatest.left
  refine ⟨k.greatest.right ⟨m, hmem, hv⟩, ?_⟩
  cases Nat.eq_or_lt_of_le (hle n hn)
  case inl h =>
    subst h
    exact .inl <| Option.some_inj.mp (hk.symm.trans hv)
  case inr h =>
    have ⟨hl, hk⟩ := List.getElem?_eq_some_iff.mp hk
    have ⟨hl', hv⟩ := List.getElem?_eq_some_iff.mp hv
    exact .inr (hk ▸ hv ▸ List.pairwise_iff_getElem.mp hp n m hl hl' h)

end Keeps

end Freshest
