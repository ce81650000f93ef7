import Mathlib.Data.Nat.Digits.Defs

-- Unsigned decimal numerals.
namespace Decimal

variable {t : List Char} {n : Nat}

def digit (c : Char) : Nat :=
  c.toNat - '0'.toNat

def value (t : List Char) : Nat :=
  Nat.ofDigits 10 (t.map digit).reverse

structure Numeral (bound : Nat) (t : List Char) : Prop where
  ne_nil : t ≠ []
  digits : ∀ c ∈ t, c.isDigit
  lt     : value t < bound

-- Reading digits one by one gives the value of the numeral.
theorem foldl_eq : t.foldl (fun n c => n * 10 + digit c) n = n * 10 ^ t.length + value t := by
  induction t generalizing n
  case nil => simp [value]
  case cons c t hi =>
    have hv : value (c :: t) = value t + 10 ^ t.length * digit c := by
      simp [value, Nat.ofDigits_append]
    rw [List.foldl_cons, hi, hv, List.length_cons, Nat.pow_succ]
    ring

theorem Numeral.not_mem {bound : Nat} {c : Char} (h : Numeral bound t) (hc : c.isDigit = false) :
    c ∉ t := by
  intro hm
  have := h.digits c hm
  simp [hc] at this

theorem value_toDigits : value (Nat.toDigits 10 n) = n := by
  have hd : (Nat.toDigits 10 n).foldl (fun n c => 10 * n + digit c) 0 = n :=
    Nat.ofDigitChars_ten_toDigits (n := n)
  simp only [Nat.mul_comm 10, foldl_eq] at hd
  rwa [Nat.zero_mul, Nat.zero_add] at hd

-- The numeral which is printed for a number.
theorem numeral_toDigits {bound : Nat} (h : n < bound) : Numeral bound (Nat.toDigits 10 n) where
  ne_nil := Nat.toDigits_ne_nil
  digits := fun _ => Nat.isDigit_of_mem_toDigits (by decide) (by decide)
  lt     := value_toDigits ▸ h

end Decimal
