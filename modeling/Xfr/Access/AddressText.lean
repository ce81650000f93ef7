import Xfr.Access.Address
import Xfr.Library.Unsigned
import Xfr.Library.Utf8

open Utf8 (Text)

def number (n : Nat) : Text :=
  Nat.toDigits 10 n

theorem numeral_number (n : Nat) : Decimal.Numeral (n + 1) (number n) :=
  Decimal.numeral_toDigits n.lt_succ_self

theorem not_mem_number {c : Char} {n : Nat} (h : c.isDigit = false) : c ∉ number n :=
  (numeral_number n).not_mem h

-- How the standard library prints addresses and reads them back.
structure IpText where
  display       : IpAddr → Text
  parse         : Text → Option IpAddr
  parse_display : ∀ ip, parse (display ip) = some ip
  v4            : ∀ octets, ∀ c ∈ display (.v4 octets), c.isDigit ∨ c = '.'
  v6            : ∀ segments, ∀ c ∈ display (.v6 segments), c.isDigit ∨ c ∈ "abcdef:.".toList
  colon         : ∀ segments, ':' ∈ display (.v6 segments)

variable {t : IpText}

namespace IpText

variable {addr : IpAddr} {c : Char}

theorem not_mem (h : c.isDigit = false ∧ c ∉ "abcdef:.".toList) : c ∉ t.display addr := by
  intro hc
  cases addr
  case v4 octets =>
    cases t.v4 octets c hc
    case inl hd => simp [h.left] at hd
    case inr hd => exact h.right (by simp [hd])
  case v6 segments =>
    cases t.v6 segments c hc
    case inl hd => simp [h.left] at hd
    case inr hd => exact h.right hd

theorem colon_not_mem_v4 {octets : BitVec 32} : ':' ∉ t.display (.v4 octets) := by
  intro hc
  cases t.v4 octets _ hc
  case inl hd => exact absurd hd (by decide)
  case inr hd => exact absurd hd (by decide)

theorem head?_ne (h : c.isDigit = false ∧ c ∉ "abcdef:.".toList) : (t.display addr).head? ≠ some c :=
  fun hh => not_mem h (List.mem_of_head? hh)

end IpText

-- Addresses in full: the standard library does the same wherever no group of an address has a zero in
-- front.
namespace FullText

def hexDigit (c : Char) : Nat :=
  if c.isDigit then c.toNat - '0'.toNat else c.toNat - 'a'.toNat + 10

def hexGroup (n : Nat) : Text :=
  [n / 4096 % 16, n / 256 % 16, n / 16 % 16, n % 16].map Nat.digitChar

def hexGroups : Nat → Nat → Text
  | 0,     n => hexGroup n
  | k + 1, n => hexGroups k (n / 65536) ++ ':' :: hexGroup n

def pushHex (n : Nat) (c : Char) : Nat :=
  if c = ':' then n else n * 16 + hexDigit c

def dotted : Nat → Nat → Text
  | 0,     n => number (n % 256)
  | k + 1, n => dotted k (n / 256) ++ '.' :: number (n % 256)

-- The octets which are complete and the one which is not.
def pushOctet (n : Nat × Nat) (c : Char) : Nat × Nat :=
  if c = '.' then (n.fst * 256 + n.snd, 0) else (n.fst, n.snd * 10 + Decimal.digit c)

variable {k m n : Nat} {c : Char}

theorem pushHex_digitChar (h : m < 16) : pushHex n m.digitChar = n * 16 + m := by
  have hd : ∀ m : Fin 16, m.val.digitChar ≠ ':' ∧ hexDigit m.val.digitChar = m := by decide
  have ⟨hc, hv⟩ := hd ⟨m, h⟩
  rw [pushHex, if_neg hc, hv]

theorem foldl_hexGroup : (hexGroup n).foldl pushHex m = m * 65536 + n % 65536 := by
  have hl (k : Nat) : k % 16 < 16 := Nat.mod_lt _ (by decide)
  simp only [hexGroup, List.map_cons, List.map_nil, List.foldl_cons, List.foldl_nil,
    pushHex_digitChar (hl _)]
  omega

theorem foldl_hexGroups : (hexGroups k n).foldl pushHex 0 = n % 65536 ^ (k + 1) := by
  induction k generalizing n
  case zero => simp [hexGroups, foldl_hexGroup]
  case succ k hi =>
    have hc : pushHex (n / 65536 % 65536 ^ (k + 1)) ':' = n / 65536 % 65536 ^ (k + 1) := rfl
    rw [hexGroups, List.foldl_append, hi, List.foldl_cons, hc, foldl_hexGroup,
      Nat.pow_succ' (n := k + 1), Nat.mod_mul, Nat.mul_comm, Nat.add_comm]

theorem foldl_number : (number m).foldl pushOctet (n, 0) = (n, m) := by
  have hd : ∀ text : Text, (∀ c ∈ text, c.isDigit) → ∀ k, text.foldl pushOctet (n, k) =
      (n, text.foldl (fun n c => n * 10 + Decimal.digit c) k) := by
    intro text
    induction text
    case nil => exact fun _ _ => rfl
    case cons c text hi =>
      intro h k
      have hc : c ≠ '.' := fun he => absurd (h c (by simp)) (by simp [he])
      simp only [List.foldl_cons, pushOctet, if_neg hc]
      exact hi (fun d hd => h d (by simp [hd])) _
  rw [hd _ (numeral_number m).digits, Decimal.foldl_eq, number, Decimal.value_toDigits, Nat.zero_mul,
    Nat.zero_add]

theorem foldl_dotted : (dotted k n).foldl pushOctet (0, 0) = (n / 256 % 256 ^ k, n % 256) := by
  induction k generalizing n
  case zero => simp [dotted, foldl_number, Nat.mod_one]
  case succ k hi =>
    rw [dotted, List.foldl_append, hi, List.foldl_cons]
    have hc : pushOctet (n / 256 / 256 % 256 ^ k, n / 256 % 256) '.' =
        (n / 256 / 256 % 256 ^ k * 256 + n / 256 % 256, 0) := rfl
    rw [hc, foldl_number, Nat.pow_succ' (n := k), Nat.mod_mul, Nat.mul_comm, Nat.add_comm]

theorem colon_mem_hexGroups : ':' ∈ hexGroups (k + 1) n := by
  simp [hexGroups]

theorem mem_hexGroups (h : c ∈ hexGroups k n) : c.isDigit ∨ c ∈ "abcdef:.".toList := by
  have hd : ∀ m : Fin 16, m.val.digitChar.isDigit ∨ m.val.digitChar ∈ "abcdef:.".toList := by decide
  have hg (n : Nat) (hc : c ∈ hexGroup n) : c.isDigit ∨ c ∈ "abcdef:.".toList := by
    have ⟨m, hm, he⟩ := List.mem_map.mp hc
    have hl : m < 16 := by
      simp only [List.mem_cons, List.not_mem_nil, or_false] at hm
      omega
    exact he ▸ hd ⟨m, hl⟩
  induction k generalizing n
  case zero => exact hg n h
  case succ k hi =>
    cases List.mem_append.mp h
    case inl h => exact hi h
    case inr h =>
      cases List.mem_cons.mp h
      case inl h => exact .inr (h ▸ by decide)
      case inr h => exact hg n h

theorem mem_dotted (h : c ∈ dotted k n) : c.isDigit ∨ c = '.' := by
  induction k generalizing n
  case zero => exact .inl ((numeral_number _).digits c h)
  case succ k hi =>
    cases List.mem_append.mp h
    case inl h => exact hi h
    case inr h =>
      cases List.mem_cons.mp h
      case inl h => exact .inr h
      case inr h => exact .inl ((numeral_number _).digits c h)

theorem octets_toNat (octets : BitVec 32) :
    octets.toNat / 256 % 256 ^ 3 * 256 + octets.toNat % 256 = octets.toNat := by
  have := octets.isLt
  omega

end FullText

open FullText

def IpText.full : IpText where
  display
    | .v4 octets   => dotted 3 octets.toNat
    | .v6 segments => hexGroups 7 segments.toNat
  parse text :=
    if ':' ∈ text then some (.v6 (.ofNat 128 (text.foldl pushHex 0)))
    else
      let n := text.foldl pushOctet (0, 0)
      some (.v4 (.ofNat 32 (n.fst * 256 + n.snd)))
  parse_display ip := by
    cases ip
    case v4 octets =>
      have hc : ':' ∉ dotted 3 octets.toNat := fun hc => absurd (mem_dotted hc) (by decide)
      simp only [if_neg hc, foldl_dotted, octets_toNat, BitVec.ofNat_toNat, BitVec.setWidth_eq]
    case v6 segments =>
      have hn : segments.toNat % 65536 ^ (7 + 1) = segments.toNat := Nat.mod_eq_of_lt segments.isLt
      simp only [if_pos colon_mem_hexGroups, foldl_hexGroups, hn, BitVec.ofNat_toNat, BitVec.setWidth_eq]
  v4 _ _        := mem_dotted
  v6 _ _        := mem_hexGroups
  colon _       := colon_mem_hexGroups
