import Mathlib.Algebra.BigOperators.Group.List.Basic
import Mathlib.Algebra.GroupWithZero.Nat
import Mathlib.Algebra.Order.Group.Nat
import Mathlib.Data.List.Induction
import Mathlib.Logic.Relation
import Mathlib.Tactic.Common

-- A queue of at most one item: what is pushed before the item was taken out is merged into it.
structure Coalescer (α : Type*) where
  pushed  : List α
  emitted : List α
  pending : Option α

namespace Coalescer

variable {α γ : Type*} (merge : α → α → α)

def empty : Coalescer α where
  pushed  := []
  emitted := []
  pending := none

def push (c : Coalescer α) (x : α) : Coalescer α where
  pushed  := c.pushed ++ [x]
  emitted := c.emitted
  pending := some (c.pending.elim x (merge · x))

def emit (c : Coalescer α) : Coalescer α where
  pushed  := c.pushed
  emitted := c.emitted ++ c.pending.toList
  pending := none

def mergeAll : List α → Option α
  | []      => none
  | x :: xs => some (xs.foldl merge x)

inductive Step (c : Coalescer α) : Coalescer α → Prop
  | push (x : α) : Step c (c.push merge x)
  | emit : Step c c.emit

-- Every pushed item is part of exactly one item which was emitted or is pending, and which consists
-- of consecutive items.
structure Grouped (c : Coalescer α) (groups : List (List α)) (last : List α) : Prop where
  pushed  : groups.flatten ++ last = c.pushed
  emitted : groups.map (mergeAll merge) = c.emitted.map some
  pending : mergeAll merge last = c.pending

variable {merge} {c : Coalescer α} {groups : List (List α)} {last xs : List α} {x : α}

theorem mergeAll_concat : mergeAll merge (xs ++ [x]) = some ((mergeAll merge xs).elim x (merge · x)) := by
  cases xs <;> simp [mergeAll]

theorem mergeAll_eq_none_iff : mergeAll merge xs = none ↔ xs = [] := by
  cases xs <;> simp [mergeAll]

-- The induction rule of a merge: the oldest item is there at first, newer items are merged into it.
theorem mergeAll_induction {Q : List α → α → Prop} (single : ∀ x, Q [x] x)
    (concat : ∀ {xs x} y, Q xs x → Q (xs ++ [y]) (merge x y)) (h : mergeAll merge xs = some x) :
    Q xs x := by
  induction xs using List.reverseRecOn generalizing x
  case nil => contradiction
  case append_singleton xs y hi =>
    have h := Option.some_inj.mp (mergeAll_concat.symm.trans h)
    subst h
    cases hx : mergeAll merge xs
    case none   => simpa [mergeAll_eq_none_iff.mp hx] using single y
    case some _ => exact concat y (hi hx)

namespace Grouped

theorem empty : Grouped merge empty [] [] :=
  ⟨rfl, rfl, rfl⟩

theorem push (g : Grouped merge c groups last) (x : α) :
    Grouped merge (c.push merge x) groups (last ++ [x]) where
  pushed  := by rw [← List.append_assoc, g.pushed]; rfl
  emitted := g.emitted
  pending := by rw [mergeAll_concat, g.pending]; rfl

theorem emit (g : Grouped merge c groups last) : ∃ groups', Grouped merge c.emit groups' [] := by
  cases hp : c.pending
  case none =>
    have hl := mergeAll_eq_none_iff.mp (g.pending.trans hp)
    refine ⟨groups, ?_, ?_, rfl⟩
    · simpa [hl, Coalescer.emit] using g.pushed
    · simpa [hp, Coalescer.emit] using g.emitted
  case some x =>
    refine ⟨groups ++ [last], ?_, ?_, rfl⟩
    · simpa [Coalescer.emit] using g.pushed
    · simp [hp, Coalescer.emit, g.emitted, g.pending]

theorem forall₂ (g : Grouped merge c groups last) : ∃ groups', groups'.flatten = c.pushed ∧
    List.Forall₂ (fun g x => mergeAll merge g = some x) groups' (c.emitted ++ c.pending.toList) := by
  have ⟨groups', g'⟩ := g.emit
  have he : List.Forall₂ Eq (groups'.map (mergeAll merge)) (c.emit.emitted.map some) := by
    rw [g'.emitted]
    exact List.forall₂_refl _
  rw [List.forall₂_map_left_iff, List.forall₂_map_right_iff] at he
  exact ⟨groups', by simpa [Coalescer.emit] using g'.pushed, he⟩

theorem step {c' : Coalescer α} (g : Grouped merge c groups last) (st : Step merge c c') :
    ∃ groups' last', Grouped merge c' groups' last' := by
  cases st
  case push x => exact ⟨_, _, g.push x⟩
  case emit   => exact g.emit.imp fun _ g => ⟨[], g⟩

theorem steps {c' : Coalescer α} (g : Grouped merge c groups last)
    (st : Relation.ReflTransGen (Step merge) c c') :
    ∃ groups' last', Grouped merge c' groups' last' := by
  induction st
  case refl         => exact ⟨_, _, g⟩
  case tail _ st hi =>
    have ⟨_, _, g⟩ := hi
    exact g.step st

end Grouped

-- The merge of a group belongs to what is closed under merging, a measure of it adds up unless it
-- exceeds a bound, and a gauge of it is the one of the newest item.
section Measure

variable {P : α → Prop} {m : α → Nat} {bound : Nat} {gauge : α → γ}

theorem mergeAll_closed (closed : ∀ {a b}, P a → P b → P (merge a b)) (hP : ∀ y ∈ xs, P y)
    (h : mergeAll merge xs = some x) : P x := by
  refine mergeAll_induction (Q := fun xs x => (∀ y ∈ xs, P y) → P x) ?single ?concat h hP
  case single => simp
  case concat =>
    intro xs x y hi hP
    simp only [List.mem_append, List.mem_singleton] at hP
    exact closed (hi fun z hz => hP z (.inl hz)) (hP y (.inr rfl))

theorem mergeAll_gauge (closed : ∀ {a b}, P a → P b → P (merge a b))
    (newest : ∀ {a b}, P a → P b → gauge (merge a b) = gauge b) (hP : ∀ y ∈ xs, P y)
    (h : mergeAll merge xs = some x) : xs.getLast?.map gauge = some (gauge x) := by
  refine (mergeAll_induction (Q := fun xs x => (∀ y ∈ xs, P y) →
    P x ∧ xs.getLast?.map gauge = some (gauge x)) ?single ?concat h hP).right
  case single => simp
  case concat =>
    intro xs x y hi hP
    simp only [List.mem_append, List.mem_singleton] at hP
    have ⟨hx, _⟩ := hi fun z hz => hP z (.inl hz)
    have hy := hP y (.inr rfl)
    exact ⟨closed hx hy, by simp [newest hx hy]⟩

theorem mergeAll_sum (closed : ∀ {a b}, P a → P b → P (merge a b))
    (add : ∀ {a b}, P a → P b → m a + m b ≤ bound → m (merge a b) = m a + m b)
    (hP : ∀ y ∈ xs, P y) (hb : (xs.map m).sum ≤ bound) (h : mergeAll merge xs = some x) :
    m x = (xs.map m).sum := by
  refine (mergeAll_induction (Q := fun xs x => (∀ y ∈ xs, P y) → (xs.map m).sum ≤ bound →
    P x ∧ m x = (xs.map m).sum) ?single ?concat h hP hb).right
  case single => simpa using fun x hx _ => hx
  case concat =>
    intro xs x y hi hP hb
    simp only [List.mem_append, List.mem_singleton] at hP
    simp only [List.map_append, List.map_cons, List.map_nil, List.sum_append, List.sum_singleton]
      at hb ⊢
    have ⟨hx, hm⟩ := hi (fun z hz => hP z (.inl hz)) (by omega)
    have hy := hP y (.inr rfl)
    exact ⟨closed hx hy, by rw [add hx hy (by omega), hm]⟩

theorem sum_mergeAll (closed : ∀ {a b}, P a → P b → P (merge a b))
    (add : ∀ {a b}, P a → P b → m a + m b ≤ bound → m (merge a b) = m a + m b)
    (hP : ∀ y ∈ groups.flatten, P y) (hb : (groups.flatten.map m).sum ≤ bound)
    (h : groups.map (mergeAll merge) = xs.map some) :
    (xs.map m).sum = (groups.flatten.map m).sum := by
  induction groups generalizing xs
  case nil => simp [List.map_eq_nil_iff.mp h.symm]
  case cons g gs hi =>
    have ⟨x, xs', hx, hg, hgs⟩ := List.map_eq_cons_iff.mp h.symm
    subst hx
    simp only [List.flatten_cons, List.mem_append] at hP
    simp only [List.flatten_cons, List.map_append, List.sum_append] at hb
    have hm := mergeAll_sum closed add (fun y hy => hP y (.inl hy)) (by omega) hg.symm
    have hs := hi (fun y hy => hP y (.inr hy)) (by omega) hgs.symm
    simp [hm, hs]

-- What was emitted and what is pending add up to what was pushed.
theorem Grouped.sum_eq (g : Grouped merge c groups last)
    (closed : ∀ {a b}, P a → P b → P (merge a b))
    (add : ∀ {a b}, P a → P b → m a + m b ≤ bound → m (merge a b) = m a + m b)
    (hP : ∀ y ∈ c.pushed, P y) (hb : (c.pushed.map m).sum ≤ bound) :
    ((c.emitted ++ c.pending.toList).map m).sum = (c.pushed.map m).sum := by
  -- Emitting the pending item changes neither sum.
  have ⟨groups', g'⟩ := g.emit
  have hp : groups'.flatten = c.pushed := by simpa [Coalescer.emit] using g'.pushed
  have hs := sum_mergeAll closed add (hp ▸ hP) (hp ▸ hb) g'.emitted
  rwa [hp] at hs

theorem Grouped.closed (g : Grouped merge c groups last)
    (closed : ∀ {a b}, P a → P b → P (merge a b)) (hP : ∀ y ∈ c.pushed, P y) :
    ∀ x ∈ c.emitted ++ c.pending.toList, P x := by
  intro x hx
  have ⟨groups', g'⟩ := g.emit
  have hp : groups'.flatten = c.pushed := by simpa [Coalescer.emit] using g'.pushed
  have hx : some x ∈ groups'.map (mergeAll merge) := by
    rw [g'.emitted]
    exact List.mem_map_of_mem hx
  have ⟨group, hg, hm⟩ := List.mem_map.mp hx
  exact mergeAll_closed closed (fun y hy => hP y (hp ▸ List.mem_flatten_of_mem hg hy)) hm

end Measure
end Coalescer
