import Xfr.Library.Decimal

-- Reading an unsigned number, which may have a sign in front of it.
namespace Unsigned

inductive ParseIntError
  | empty
  | invalidDigit
  | posOverflow
  deriving DecidableEq, Repr

def ParseIntError.toText : ParseIntError → List Char
  | empty        => "cannot parse integer from empty string".toList
  | invalidDigit => "invalid digit found in string".toList
  | posOverflow  => "number too large to fit in target type".toList

def dropPlus (text : List Char) : List Char :=
  if text.head? = some '+' then text.tail else text

def pushDigit (bound n : Nat) (c : Char) : Except ParseIntError Nat :=
  if c.isDigit then
    if n * 10 + Decimal.digit c < bound then .ok (n * 10 + Decimal.digit c) else .error .posOverflow
  else
    .error .invalidDigit

def parse (bound : Nat) (text : List Char) : Except ParseIntError Nat :=
  if text = [] then .error .empty
  else if text = ['+'] ∨ text = ['-'] then .error .invalidDigit
  else (dropPlus text).foldlM (pushDigit bound) 0

variable {bound n m : Nat} {c : Char} {all text suffix : List Char}

theorem pushDigit_ok : pushDigit bound n c = .ok m ↔
    c.isDigit ∧ n * 10 + Decimal.digit c < bound ∧ n * 10 + Decimal.digit c = m := by
  unfold pushDigit
  split
  case isTrue hd =>
    split
    case isTrue hl  => simp [hd, hl]
    case isFalse hl => simp [hl]
  case isFalse hd => simp [hd]

theorem foldlM_ok (hn : text = [] → n < bound) : text.foldlM (pushDigit bound) n = .ok m ↔
    (∀ c ∈ text, c.isDigit) ∧ n * 10 ^ text.length + Decimal.value text = m ∧ m < bound := by
  rw [← Decimal.foldl_eq]
  induction text generalizing n
  case nil =>
    have hm : n = m → m < bound := fun h => h ▸ hn rfl
    simpa [pure, Except.pure] using hm
  case cons c text hi =>
    rw [List.foldlM_cons, List.foldl_cons, List.forall_mem_cons]
    have hle : n * 10 + Decimal.digit c ≤
        text.foldl (fun n c => n * 10 + Decimal.digit c) (n * 10 + Decimal.digit c) := by
      rw [Decimal.foldl_eq]
      exact Nat.le_add_right_of_le <| Nat.le_mul_of_pos_right _ (Nat.pow_pos (by decide))
    cases hp : pushDigit bound n c
    case ok n' =>
      have ⟨hd, hl, he⟩ := pushDigit_ok.mp hp
      exact (hi fun _ => he ▸ hl).trans (by simp [hd, he])
    case error =>
      refine iff_of_false nofun fun ⟨⟨hd, _⟩, he, hm⟩ => ?_
      have ho := pushDigit_ok.mpr ⟨hd, Nat.lt_of_le_of_lt (he ▸ hle) hm, rfl⟩
      cases hp.symm.trans ho

theorem parse_ok : parse bound text = .ok n ↔
    Decimal.Numeral bound (dropPlus text) ∧ Decimal.value (dropPlus text) = n := by
  unfold parse
  split
  case isTrue he => exact iff_of_false nofun fun h => h.left.ne_nil (by rw [he]; rfl)
  case isFalse he =>
    split
    case isTrue hs =>
      refine iff_of_false nofun fun ⟨hn, _⟩ => ?_
      cases hs
      case inl hs => exact hn.ne_nil (by rw [hs]; rfl)
      case inr hs => exact hn.not_mem (c := '-') (by decide) (by simp [hs, dropPlus])
    case isFalse hs =>
      have hn : dropPlus text ≠ [] := fun h => by
        unfold dropPlus at h
        split at h
        case isTrue hp =>
          have ⟨rest, hr⟩ := List.head?_eq_some_iff.mp hp
          rw [hr, List.tail_cons] at h
          exact hs (.inl (h ▸ hr))
        case isFalse => exact he h
      rw [foldlM_ok fun h => absurd h hn, Nat.zero_mul, Nat.zero_add]
      constructor
      case mp  => exact fun ⟨hd, hv, hm⟩ => ⟨⟨hn, hd, hv ▸ hm⟩, hv⟩
      case mpr => exact fun ⟨h, hv⟩ => ⟨h.digits, hv, hv ▸ h.lt⟩

-- A sign does not hide what follows the digits.
theorem dropPlus_append (h : text ≠ []) : dropPlus (text ++ suffix) = dropPlus text ++ suffix := by
  have ⟨c, rest, ht⟩ := List.exists_cons_of_ne_nil h
  unfold dropPlus
  rw [ht, List.cons_append, List.head?_cons, List.head?_cons, List.tail_cons, List.tail_cons]
  split <;> rfl

theorem dropPlus_eq_append (h : dropPlus all = text ++ suffix) :
    ∃ rest, all = rest ++ suffix ∧ dropPlus rest = text := by
  unfold dropPlus at h
  split at h
  case isTrue hp =>
    have ⟨tail, ht⟩ := List.head?_eq_some_iff.mp hp
    rw [ht, List.tail_cons] at h
    exact ⟨'+' :: text, by rw [ht, h, List.cons_append], rfl⟩
  case isFalse hp =>
    refine ⟨text, h, if_neg fun ht => hp ?_⟩
    rw [h, List.head?_append, ht, Option.some_or]

theorem getLast?_dropPlus (h : dropPlus text ≠ []) : (dropPlus text).getLast? = text.getLast? := by
  unfold dropPlus at h ⊢
  split
  case isTrue hp =>
    have ⟨tail, ht⟩ := List.head?_eq_some_iff.mp hp
    rw [if_pos hp] at h
    rw [ht, List.tail_cons] at h ⊢
    have ⟨c, rest, hc⟩ := List.exists_cons_of_ne_nil h
    rw [hc, List.getLast?_cons_cons]
  case isFalse => rfl

theorem dropPlus_of_digits (h : ∀ c ∈ text, c.isDigit) : dropPlus text = text := by
  refine if_neg fun hp => ?_
  have := h _ (List.mem_of_head? hp)
  exact absurd this (by decide)

theorem parse_numeral (h : Decimal.Numeral bound text) :
    parse bound text = .ok (Decimal.value text) := by
  refine parse_ok.mpr ?_
  rw [dropPlus_of_digits h.digits]
  exact ⟨h, rfl⟩

end Unsigned
