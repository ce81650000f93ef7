import Xfr.Library.Utf8

-- Texts which are measured and cut in bytes.
namespace Utf8

variable {text head tail : Text} {c : Char} {index : Nat}

def size (text : Text) : Nat :=
  (encode text).length

def isCharBoundary (text : Text) (index : Nat) : Bool :=
  index ≤ size text && !((encode text)[index]?.any isContinuation)

-- The part in front of a position, which there is only where no character is cut.
def sliceTo (text : Text) (index : Nat) : Option Text :=
  if isCharBoundary text index then some (decodeLossy ((encode text).take index)) else none

-- Walks back from a position until no character is cut.
def floorCharBoundary (text : Text) : Nat → Nat
  | 0         => 0
  | index + 1 => if isCharBoundary text (index + 1) then index + 1 else floorCharBoundary text index

@[simp]
theorem size_append : size (head ++ tail) = size head + size tail := by
  simp [size]

@[simp]
theorem size_cons : size (c :: text) = c.utf8Size + size text := by
  simp [size, String.length_utf8EncodeChar]

theorem size_eq_zero_iff : size text = 0 ↔ text = [] := by
  cases text
  case nil      => exact iff_of_true rfl rfl
  case cons c _ => simp [Nat.ne_of_gt c.utf8Size_pos]

theorem size_eq_length (h : ∀ c ∈ text, c.toNat < 128) : size text = text.length := by
  induction text
  case nil => rfl
  case cons c text hi =>
    have ⟨hc, ht⟩ := List.forall_mem_cons.mp h
    have one : c.utf8Size = 1 :=
      Char.utf8Size_eq_one_iff.mpr <| UInt32.le_iff_toNat_le.mpr (Nat.le_of_lt_succ hc)
    rw [size_cons, hi ht, one, List.length_cons, Nat.add_comm]

theorem isCharBoundary_iff :
    isCharBoundary text index ↔ ∃ head tail, text = head ++ tail ∧ size head = index := by
  have hs : ((encode text)[index]?.any isContinuation) = startsInside ((encode text).drop index) := by
    rw [startsInside, List.head?_drop]
  simp only [isCharBoundary, hs, Bool.and_eq_true, decide_eq_true_eq, Bool.not_eq_true']
  constructor
  case mp =>
    rintro ⟨hle, hd⟩
    obtain ⟨head, tail, ht, hh, _⟩ := encode_eq_append (List.take_append_drop index _).symm hd
    refine ⟨head, tail, ht, ?_⟩
    rw [size, ← hh, List.length_take]
    exact Nat.min_eq_left hle
  case mpr =>
    rintro ⟨head, tail, rfl, rfl⟩
    have hn : startsInside (encode tail ++ []) = false := startsInside_encode rfl
    refine ⟨by simp, ?_⟩
    rw [encode_append, size, List.drop_left, ← List.append_nil (encode tail), hn]

theorem sliceTo_append : sliceTo (head ++ tail) (size head) = some head := by
  have hb : isCharBoundary (head ++ tail) (size head) := isCharBoundary_iff.mpr ⟨head, tail, rfl, rfl⟩
  rw [sliceTo, if_pos hb, encode_append, size, List.take_left, decodeLossy_encode]

theorem floorCharBoundary_le : floorCharBoundary text index ≤ index := by
  induction index
  case zero => exact le_refl 0
  case succ index hi =>
    rw [floorCharBoundary]
    split
    case isTrue  => exact le_refl _
    case isFalse => exact hi.trans (Nat.le_succ index)

-- The walk ends at the start of the text at the latest.
theorem isCharBoundary_floorCharBoundary : isCharBoundary text (floorCharBoundary text index) := by
  induction index
  case zero => exact isCharBoundary_iff.mpr ⟨[], text, rfl, rfl⟩
  case succ index hi =>
    rw [floorCharBoundary]
    split
    case isTrue h => exact h
    case isFalse  => exact hi

theorem exists_sliceTo : ∃ head tail, text = head ++ tail ∧ size head ≤ index ∧
    sliceTo text (floorCharBoundary text index) = some head := by
  have ⟨head, tail, ht, hs⟩ := isCharBoundary_iff.mp (@isCharBoundary_floorCharBoundary text index)
  refine ⟨head, tail, ht, hs ▸ floorCharBoundary_le, ?_⟩
  rw [← hs, ht, sliceTo_append]

end Utf8
