import Mathlib.Data.List.Basic

-- What stands in front of a separator, behind it or around a text.
namespace Affix

variable {α : Type*} [DecidableEq α] {c d : α} {s left right sep : List α}

def stripPrefix (c : α) (s : List α) : Option (List α) :=
  if s.head? = some c then some s.tail else none

def stripSuffix (c : α) (s : List α) : Option (List α) :=
  if s.getLast? = some c then some s.dropLast else none

-- Splits at the first place where the separator occurs.
def splitOnce (sep : List α) : List α → Option (List α × List α)
  | []     => if sep = [] then some ([], []) else none
  | c :: s =>
    if sep.isPrefixOf (c :: s) then some ([], (c :: s).drop sep.length)
    else (splitOnce sep s).map (Prod.map (c :: ·) id)

@[simp]
theorem stripPrefix_cons : stripPrefix c (c :: s) = some s :=
  if_pos rfl

theorem stripPrefix_eq_none (h : s.head? ≠ some c) : stripPrefix c s = none :=
  if_neg h

@[simp]
theorem stripSuffix_concat : stripSuffix c (s ++ [c]) = some s := by
  simp [stripSuffix]

theorem stripSuffix_eq_none (h : s.getLast? ≠ some c) : stripSuffix c s = none :=
  if_neg h

theorem splitOnce_eq_none (h : c ∉ s) : splitOnce (c :: sep) s = none := by
  induction s
  case nil => rfl
  case cons d s hi =>
    have ⟨hd, hs⟩ := not_or.mp (List.mem_cons.not.mp h)
    have hp : (c :: sep).isPrefixOf (d :: s) = false := by simp [List.isPrefixOf, hd]
    rw [splitOnce, hp, hi hs]
    rfl

-- The first place is where the first character of the separator is.
theorem splitOnce_append (h : c ∉ left) :
    splitOnce (c :: sep) (left ++ (c :: sep ++ right)) = some (left, right) := by
  induction left
  case nil =>
    have hp : (c :: sep).isPrefixOf (c :: (sep ++ right)) = true := by
      simp [List.isPrefixOf]
    rw [List.nil_append, List.cons_append, splitOnce, hp, if_pos rfl, List.length_cons,
      List.drop_succ_cons, List.drop_left]
  case cons d left hi =>
    have ⟨hd, hs⟩ := not_or.mp (List.mem_cons.not.mp h)
    have hp : (c :: sep).isPrefixOf (d :: (left ++ (c :: sep ++ right))) = false := by
      simp [List.isPrefixOf, hd]
    rw [List.cons_append, splitOnce, hp, hi hs]
    rfl

end Affix
