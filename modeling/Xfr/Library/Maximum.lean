import Mathlib.Order.Bounds.Basic

variable {α : Type*} [LinearOrder α] {s t : Set α} {a b : α} {max max' : Option α}

-- The largest element of a set, when there is one element at least.
def IsMaximum (s : Set α) : Option α → Prop
  | none   => s = ∅
  | some a => IsGreatest s a

namespace IsMaximum

theorem insert (h : IsMaximum s max) :
    IsMaximum (insert b s) (if max.all (b > ·) then some b else max) := by
  cases max
  case none =>
    rw [show s = ∅ from h]
    simp [IsMaximum, IsGreatest, upperBounds]
  case some a =>
    have ⟨hm, hu⟩ : IsGreatest s a := h
    by_cases hb : a < b
    case pos =>
      have hi : IsGreatest (Insert.insert b s) b :=
        ⟨Set.mem_insert b s, fun c hc => hc.elim le_of_eq fun hc => (hu hc).trans hb.le⟩
      simpa [IsMaximum, hb] using hi
    case neg =>
      have hi : IsGreatest (Insert.insert b s) a :=
        ⟨Set.mem_insert_of_mem b hm, fun c hc => hc.elim (· ▸ not_lt.mp hb) (hu ·)⟩
      simpa [IsMaximum, hb] using hi

-- The maximum of a smaller set is no larger.
theorem mono (h : IsMaximum s max) (h' : IsMaximum t max') (hs : s ⊆ t) (ha : max = some a) :
    ∃ b, max' = some b ∧ a ≤ b := by
  subst ha
  have hg : IsGreatest s a := h
  cases max'
  case none =>
    have ht : t = ∅ := h'
    exact absurd (hs hg.left) (ht ▸ Set.notMem_empty a)
  case some b =>
    have hg' : IsGreatest t b := h'
    exact ⟨b, rfl, hg'.right (hs hg.left)⟩

end IsMaximum
