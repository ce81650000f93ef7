import Mathlib.Data.List.DropRight
import Xfr.Library.Utf8

open Utf8 (Text)

-- The property `White_Space` of Unicode.
def Char.isWhiteSpace (c : Char) : Bool :=
  (0x09 ≤ c.toNat ∧ c.toNat ≤ 0x0D) ∨ c.toNat = 0x20 ∨ c.toNat = 0x85 ∨ c.toNat = 0xA0 ∨
  c.toNat = 0x1680 ∨ (0x2000 ≤ c.toNat ∧ c.toNat ≤ 0x200A) ∨ c.toNat = 0x2028 ∨ c.toNat = 0x2029 ∨
  c.toNat = 0x202F ∨ c.toNat = 0x205F ∨ c.toNat = 0x3000

namespace Utf8

def trim (text : Text) : Text :=
  (text.dropWhile Char.isWhiteSpace).rdropWhile Char.isWhiteSpace

variable {text : Text}

-- A trimmed text begins with no whitespace.
theorem head_trim {c : Char} (h : (trim text).head? = some c) : c.isWhiteSpace = false := by
  have ⟨rest, hr⟩ := List.head?_eq_some_iff.mp h
  have ⟨tail, ht⟩ := List.rdropWhile_prefix Char.isWhiteSpace (text.dropWhile Char.isWhiteSpace)
  have hd : (text.dropWhile Char.isWhiteSpace).head? = some c := by
    rw [← ht, ← trim, hr]
    rfl
  simpa [hd] using List.head?_dropWhile_not Char.isWhiteSpace text

theorem dropWhile_trim : (trim text).dropWhile Char.isWhiteSpace = trim text := by
  cases ht : trim text
  case nil      => rfl
  case cons c t => simp [@head_trim text c (by simp [ht])]

theorem trim_trim : trim (trim text) = trim text := by
  rw [trim, dropWhile_trim, trim, List.rdropWhile_idempotent]

-- Only whitespace is cut off.
theorem trim_append : ∃ left right, text = left ++ trim text ++ right ∧
    (∀ c ∈ left, c.isWhiteSpace = true) ∧ ∀ c ∈ right, c.isWhiteSpace = true := by
  refine ⟨text.takeWhile Char.isWhiteSpace,
    (text.dropWhile Char.isWhiteSpace).rtakeWhile Char.isWhiteSpace, ?_, ?_, ?_⟩
  · rw [trim, List.append_assoc, List.rdropWhile_append_rtakeWhile, List.takeWhile_append_dropWhile]
  · exact fun c hc => List.mem_takeWhile_imp hc
  · exact fun c hc => List.mem_rtakeWhile_imp hc

-- All whitespace around a text is cut off.
theorem trim_around {left body right : Text} {l r : Char}
    (hl : ∀ c ∈ left, c.isWhiteSpace = true) (hr : ∀ c ∈ right, c.isWhiteSpace = true)
    (hb : l.isWhiteSpace = false) (he : r.isWhiteSpace = false) :
    trim (left ++ (l :: body ++ [r]) ++ right) = l :: body ++ [r] := by
  have hd : (left ++ (l :: body ++ [r]) ++ right).dropWhile Char.isWhiteSpace =
      l :: body ++ [r] ++ right := by
    rw [List.append_assoc, List.dropWhile_append_of_pos hl]
    simp [hb]
  have hr : ∀ c ∈ right.reverse, c.isWhiteSpace = true := by simpa using hr
  rw [trim, hd, List.rdropWhile, List.reverse_append, List.dropWhile_append_of_pos hr]
  simp [he]

end Utf8
