import Xfr.Handshake.Auth
import Xfr.Udp.Packet

open Utf8 (Text)

def encodeHelloToken (token : TokenBytes) : Text :=
  Hex.encode token.toList

-- `u8::from_str_radix` in base 16: one sign may come before the digits.
namespace FromStrRadix

def toDigit (b : UInt8) : Option Nat :=
  let n := b.toNat
  if 48 ≤ n ∧ n < 58 then some (n - 48)
  else if 65 ≤ n ∧ n < 71 then some (n - 55)
  else if 97 ≤ n ∧ n < 103 then some (n - 87)
  else none

def checked (n : Nat) : Option Nat :=
  if n < 256 then some n else none

def digits (result : Nat) : Bytes → Option Nat
  | []      => some result
  | b :: bs => do
    let digit ← toDigit b
    let result ← checked (result * 16)
    let result ← checked (result + digit)
    digits result bs

def plus : UInt8 := 43
def minus : UInt8 := 45

-- The type has no sign of its own, so that a minus is no sign.
def fromStrRadix (src : Bytes) : Option UInt8 :=
  match src with
  | []      => none
  | b :: bs =>
    if (b = plus ∨ b = minus) ∧ bs = [] then none
    else UInt8.ofNat <$> digits 0 (if b = plus then bs else src)

end FromStrRadix

open FromStrRadix (fromStrRadix)

def isAscii (bytes : Bytes) : Bool :=
  bytes.all (·.toNat < 128)

-- `chunks(2)`
def pairs : Bytes → List Bytes
  | []          => []
  | [a]         => [[a]]
  | a :: b :: s => [a, b] :: pairs s

-- What is ASCII is UTF-8 in every pair as well.
def parseHelloToken (s : Text) : Option TokenBytes := do
  let bytes := Utf8.encode s
  if bytes.length ≠ UDP_HELLO_TOKEN_LEN * 2 ∨ ¬isAscii bytes then none
  let token ← (pairs bytes).mapM fromStrRadix
  if h : token.length = UDP_HELLO_TOKEN_LEN then some ⟨token.toArray, h⟩ else none

def IsHexDigit (c : Char) : Prop :=
  ('0' ≤ c ∧ c ≤ '9') ∨ ('a' ≤ c ∧ c ≤ 'f') ∨ ('A' ≤ c ∧ c ≤ 'F')

instance : DecidablePred IsHexDigit :=
  fun _ => inferInstanceAs (Decidable (_ ∨ _ ∨ _))

-- What is accepted: pairs of digits, the first of which may be a sign instead.
def IsLead (c : Char) : Prop :=
  c = '+' ∨ IsHexDigit c

def IsSpelling : Text → Prop
  | a :: b :: s => IsLead a ∧ IsHexDigit b ∧ IsSpelling s
  | s           => s = []

-- The number of digits is right, but there are signs in front of some of them.
def IsSigned (s : Text) : Prop :=
  s.length = 32 ∧ IsSpelling s ∧ '+' ∈ s

namespace FromStrRadix

def byte (c : Char) : UInt8 :=
  UInt8.ofNat c.toNat

variable {a b c : Char} {x y z : UInt8} {d e : Nat}

theorem toDigit_lt (h : toDigit x = some d) : d < 16 := by
  unfold toDigit at h
  grind

theorem toDigit_plus : toDigit plus = none :=
  rfl

theorem fromStrRadix_pair : fromStrRadix [x, y] = some z ↔
    ∃ d e, (x = plus ∧ d = 0 ∨ toDigit x = some d) ∧ toDigit y = some e ∧
      z = UInt8.ofNat (d * 16 + e) := by
  by_cases hp : x = plus
  case pos =>
    subst hp
    simp only [fromStrRadix, toDigit_plus, digits, List.cons_ne_nil, and_false, if_false, if_true]
    cases he : toDigit y
    case none   => simp
    case some e =>
      have hl := toDigit_lt he
      simp [checked, show e < 256 by omega, eq_comm]
  case neg =>
    simp only [fromStrRadix, hp, digits, List.cons_ne_nil, and_false, if_false, false_and, false_or]
    cases hd : toDigit x
    case none   => simp
    case some d =>
      have hl := toDigit_lt hd
      cases he : toDigit y
      case none   => simp [checked]
      case some e =>
        have hl' := toDigit_lt he
        simp [checked, show d < 256 by omega, show d * 16 < 256 by omega,
          show d * 16 + e < 256 by omega, eq_comm]

theorem isHexDigit_table : ∀ n < 128, IsHexDigit (Char.ofNat n) ↔
    (toDigit (byte (Char.ofNat n))).isSome = true := by
  decide

theorem digit_table : ∀ n < 128, Hex.digit ((toDigit (byte (Char.ofNat n))).getD 0) =
    (Char.ofNat n).toLower ∨ toDigit (byte (Char.ofNat n)) = none := by
  decide

theorem digit_inverse : ∀ n < 16, toDigit (byte (Hex.digit n)) = some n := by
  decide

theorem digit_ascii : ∀ n < 16, (Hex.digit n).toNat < 128 := by
  decide

theorem isHexDigit_iff (h : c.toNat < 128) : IsHexDigit c ↔ ∃ d, toDigit (byte c) = some d := by
  have ht := isHexDigit_table c.toNat h
  rwa [Char.ofNat_toNat, Option.isSome_iff_exists] at ht

-- The digits are the encoder's, up to their case.
theorem digit_eq_toLower (h : c.toNat < 128) (hd : toDigit (byte c) = some d) :
    Hex.digit d = c.toLower := by
  have ht := digit_table c.toNat h
  rw [Char.ofNat_toNat, hd] at ht
  simpa using ht

theorem toNat_byte (h : c.toNat < 128) : (byte c).toNat = c.toNat :=
  Utf8.toNat_ofNat_of_lt (by omega)

theorem byte_eq_plus_iff (h : c.toNat < 128) : byte c = plus ↔ c = '+' := by
  constructor
  case mpr =>
    intro hc
    rw [hc]
    rfl
  case mp =>
    intro hb
    have hn : (byte c).toNat = 43 := by
      rw [hb]
      rfl
    rw [toNat_byte h] at hn
    rw [← c.ofNat_toNat, hn]

theorem exists_fromStrRadix_iff (ha : a.toNat < 128) (hb : b.toNat < 128) :
    (∃ x, fromStrRadix [byte a, byte b] = some x) ↔ IsLead a ∧ IsHexDigit b := by
  rw [IsLead, isHexDigit_iff ha, isHexDigit_iff hb, ← byte_eq_plus_iff ha]
  constructor
  case mp =>
    intro ⟨x, h⟩
    have ⟨d, e, hd, he, _⟩ := fromStrRadix_pair.mp h
    exact ⟨hd.imp And.left fun h => ⟨d, h⟩, e, he⟩
  case mpr =>
    intro ⟨hd, e, he⟩
    cases hd
    case inl hp => exact ⟨_, fromStrRadix_pair.mpr ⟨0, e, .inl ⟨hp, rfl⟩, he, rfl⟩⟩
    case inr hd =>
      have ⟨d, hd⟩ := hd
      exact ⟨_, fromStrRadix_pair.mpr ⟨d, e, .inr hd, he, rfl⟩⟩

theorem encode_pair (ha : a.toNat < 128) (hb : b.toNat < 128) (hd : IsHexDigit a)
    (h : fromStrRadix [byte a, byte b] = some x) : Hex.encode [x] = [a.toLower, b.toLower] := by
  have ⟨d, e, hl, he, hx⟩ := fromStrRadix_pair.mp h
  have ⟨d', hd'⟩ := (isHexDigit_iff ha).mp hd
  have hl : toDigit (byte a) = some d := by
    cases hl
    case inl hp => simp [hp.left, toDigit_plus] at hd'
    case inr hl => exact hl
  have hd := toDigit_lt hl
  have hu := toDigit_lt he
  have hn : x.toNat = d * 16 + e := by rw [hx, Utf8.toNat_ofNat_of_lt (by omega)]
  simp only [Hex.encode, List.flatMap_cons, List.flatMap_nil, List.append_nil, hn,
    show (d * 16 + e) / 16 = d by omega, show (d * 16 + e) % 16 = e by omega,
    digit_eq_toLower ha hl, digit_eq_toLower hb he]

theorem fromStrRadix_digits : fromStrRadix [byte (Hex.digit (x.toNat / 16)),
    byte (Hex.digit (x.toNat % 16))] = some x := by
  have hx := x.toNat_lt
  have hd := digit_inverse (x.toNat / 16) (by omega)
  have he := digit_inverse (x.toNat % 16) (by omega)
  refine fromStrRadix_pair.mpr ⟨_, _, .inr hd, he, ?_⟩
  rw [Nat.mul_comm, Nat.div_add_mod, UInt8.ofNat_toNat]

end FromStrRadix

open FromStrRadix (byte plus)

variable {s : Text} {t : Bytes} {n : Nat} {token : TokenBytes}

theorem encodeChar_ascii {c : Char} (h : c.toNat < 128) : String.utf8EncodeChar c = [byte c] := by
  simp only [String.utf8EncodeChar, show c.val.toNat = c.toNat from rfl, byte]
  rw [if_pos (by omega)]

theorem encode_ascii (h : ∀ c ∈ s, c.toNat < 128) : Utf8.encode s = s.map byte := by
  induction s
  case nil          => rfl
  case cons c s hi =>
    have ⟨hc, hs⟩ := List.forall_mem_cons.mp h
    rw [Utf8.encode_cons, encodeChar_ascii hc, hi hs]
    rfl

theorem isAscii_encode_iff : isAscii (Utf8.encode s) = true ↔ ∀ c ∈ s, c.toNat < 128 := by
  constructor
  case mp =>
    intro h c hc
    have ⟨b, bs, he, _⟩ := Utf8.encodeChar_eq_cons (c := c)
    have hm : b ∈ String.utf8EncodeChar c := he ▸ List.mem_cons_self
    have hb : b.toNat < 128 := by
      simpa using List.all_eq_true.mp h b (List.mem_flatMap.mpr ⟨c, hc, hm⟩)
    rwa [Utf8.toNat_eq_of_mem_encodeChar hm hb]
  case mpr =>
    intro h
    rw [encode_ascii h, isAscii, List.all_map, List.all_eq_true]
    intro c hc
    have hc := h c hc
    exact decide_eq_true <| (FromStrRadix.toNat_byte hc).symm ▸ hc

-- Bytes are counted, but they are characters where everything is ASCII.
theorem parseHelloToken_eq_some_iff : parseHelloToken s = some token ↔
    s.length = 32 ∧ (∀ c ∈ s, c.toNat < 128) ∧
      (pairs (s.map byte)).mapM fromStrRadix = some token.toList := by
  by_cases ha : ∀ c ∈ s, c.toNat < 128
  case neg =>
    have hn : isAscii (Utf8.encode s) = false := by
      rw [← Bool.not_eq_true, isAscii_encode_iff]
      exact ha
    simp [parseHelloToken, ha, hn]
  case pos =>
    have hl : (UDP_HELLO_TOKEN_LEN * 2) = 32 := rfl
    have ht := isAscii_encode_iff.mpr ha
    rw [encode_ascii ha] at ht
    simp only [parseHelloToken, encode_ascii ha, ht, hl, List.length_map]
    by_cases hs : s.length = 32
    case neg => simp [hs]
    case pos =>
      simp only [hs, ne_eq, not_true_eq_false, false_or, if_false, true_and]
      rw [and_iff_right ha]
      cases (pairs (s.map byte)).mapM fromStrRadix
      case none   => simp
      case some t =>
        have hv : (∃ h : t.length = UDP_HELLO_TOKEN_LEN, Vector.mk t.toArray h = token) ↔
            t = token.toList := by
          constructor
          case mp  => exact fun ⟨_, h⟩ => h ▸ rfl
          case mpr => exact fun h => ⟨h ▸ Vector.length_toList, Vector.toList_inj.mp (by simpa using h)⟩
        simp [← hv]

theorem pairs_cons {a b : UInt8} {bytes : Bytes} :
    (pairs (a :: b :: bytes)).mapM fromStrRadix = some t ↔ ∃ x t', fromStrRadix [a, b] = some x ∧
      (pairs bytes).mapM fromStrRadix = some t' ∧ x :: t' = t := by
  simp [pairs, List.mapM_cons, Option.bind_eq_some_iff]

theorem exists_mapM_iff (hs : s.length = 2 * n) (ha : ∀ c ∈ s, c.toNat < 128) :
    (∃ t, (pairs (s.map byte)).mapM fromStrRadix = some t) ↔ IsSpelling s := by
  induction n generalizing s
  case zero =>
    have hs := List.length_eq_zero_iff.mp hs
    simp [hs, pairs, IsSpelling]
  case succ n hi =>
    match s with
    | a :: b :: s =>
      have ⟨ha, hb, hs'⟩ : a.toNat < 128 ∧ b.toNat < 128 ∧ ∀ c ∈ s, c.toNat < 128 := by
        simpa using ha
      have hp := FromStrRadix.exists_fromStrRadix_iff ha hb
      have hi := hi (by simpa [Nat.mul_add] using hs) hs'
      simp only [List.map_cons, pairs_cons, IsSpelling, ← hi, ← and_assoc, ← hp]
      grind

theorem length_of_mapM (hs : s.length = 2 * n)
    (h : (pairs (s.map byte)).mapM fromStrRadix = some t) : t.length = n := by
  induction n generalizing s t
  case zero =>
    have hs := List.length_eq_zero_iff.mp hs
    simp_all [pairs]
  case succ n hi =>
    match s with
    | a :: b :: s =>
      have ⟨x, t', _, ht, hc⟩ := pairs_cons.mp h
      rw [← hc, List.length_cons, hi (by simpa [Nat.mul_add] using hs) ht]

theorem encode_of_mapM (hs : s.length = 2 * n) (ha : ∀ c ∈ s, c.toNat < 128)
    (hd : ∀ c ∈ s, IsHexDigit c) (h : (pairs (s.map byte)).mapM fromStrRadix = some t) :
    Hex.encode t = s.map Char.toLower := by
  induction n generalizing s t
  case zero =>
    have hs := List.length_eq_zero_iff.mp hs
    simp_all [pairs, Hex.encode]
  case succ n hi =>
    rcases s with _ | ⟨a, _ | ⟨b, s⟩⟩
    case nil       => simp at hs
    case cons.nil  => simp at hs; omega
    case cons.cons =>
      obtain ⟨x, t', hx, ht, hc⟩ := pairs_cons.mp h
      simp only [List.forall_mem_cons] at ha hd
      have hp := FromStrRadix.encode_pair ha.left ha.right.left hd.left hx
      have hi := hi (by simpa [Nat.mul_add] using hs) ha.right.right hd.right.right ht
      have he : Hex.encode t = Hex.encode [x] ++ Hex.encode t' := by simp [← hc, Hex.encode]
      rw [he, hp, hi]
      rfl

theorem mapM_encode : (pairs ((Hex.encode t).map byte)).mapM fromStrRadix = some t := by
  induction t
  case nil         => rfl
  case cons x t hi => exact pairs_cons.mpr ⟨x, t, FromStrRadix.fromStrRadix_digits, hi, rfl⟩

-- How many characters a token takes.
theorem length_encode : (Hex.encode t).length = 2 * t.length := by
  induction t
  case nil         => rfl
  case cons x t hi =>
    simp only [Hex.encode, List.flatMap_cons, List.length_append, List.length_cons] at hi ⊢
    rw [hi]
    simp only [List.length_nil]
    omega

theorem encode_lt {c : Char} (h : c ∈ Hex.encode t) : c.toNat < 128 := by
  have ⟨x, _, hx⟩ := List.mem_flatMap.mp h
  have hl := x.toNat_lt
  simp only [List.mem_cons, List.not_mem_nil, or_false] at hx
  cases hx
  case inl he => exact he ▸ FromStrRadix.digit_ascii _ (by omega)
  case inr he => exact he ▸ FromStrRadix.digit_ascii _ (by omega)

theorem parse_encodeHelloToken : parseHelloToken (encodeHelloToken token) = some token := by
  refine parseHelloToken_eq_some_iff.mpr ⟨?_, fun c => encode_lt, mapM_encode⟩
  rw [encodeHelloToken, length_encode, Vector.length_toList]
  rfl

theorem IsHexDigit.lt {c : Char} (h : IsHexDigit c) : c.toNat < 128 := by
  rcases h with h | h | h
  all_goals exact Nat.lt_of_le_of_lt h.right (by decide)

theorem IsLead.lt {c : Char} (h : IsLead c) : c.toNat < 128 := by
  cases h
  case inl h => exact h ▸ by decide
  case inr h => exact h.lt

theorem isLead_of_isSpelling (h : IsSpelling s) : ∀ c ∈ s, IsLead c := by
  fun_induction IsSpelling s
  case case1 a b s hi =>
    have ⟨ha, hb, hs⟩ := h
    simp only [List.forall_mem_cons]
    exact ⟨ha, .inr hb, hi hs⟩
  case case2 => simp [h]

theorem isSpelling_of_isHexDigit (hs : s.length = 2 * n) (h : ∀ c ∈ s, IsHexDigit c) :
    IsSpelling s := by
  induction n generalizing s
  case zero      => exact List.length_eq_zero_iff.mp hs ▸ rfl
  case succ n hi =>
    match s with
    | a :: b :: s =>
      simp only [List.forall_mem_cons] at h
      exact ⟨.inr h.left, h.right.left, hi (by simpa [Nat.mul_add] using hs) h.right.right⟩

theorem exists_parseHelloToken_iff :
    (∃ token, parseHelloToken s = some token) ↔ s.length = 32 ∧ IsSpelling s := by
  constructor
  case mp =>
    intro ⟨token, h⟩
    have ⟨hl, ha, hm⟩ := parseHelloToken_eq_some_iff.mp h
    exact ⟨hl, (exists_mapM_iff (n := 16) hl ha).mp ⟨_, hm⟩⟩
  case mpr =>
    intro ⟨hl, hs⟩
    have ha : ∀ c ∈ s, c.toNat < 128 := fun c hc => (isLead_of_isSpelling hs c hc).lt
    have ⟨t, ht⟩ := (exists_mapM_iff (n := 16) hl ha).mpr hs
    exact ⟨⟨t.toArray, length_of_mapM hl ht⟩, parseHelloToken_eq_some_iff.mpr ⟨hl, ha, ht⟩⟩

-- What is meant to be accepted.
def IsHex (s : Text) : Prop :=
  s.length = 32 ∧ ∀ c ∈ s, IsHexDigit c

theorem IsHex.isSpelling (h : IsHex s) : IsSpelling s :=
  isSpelling_of_isHexDigit (n := 16) h.left h.right

theorem isHex_of_isSpelling (hl : s.length = 32) (hs : IsSpelling s) (hp : '+' ∉ s) : IsHex s := by
  refine ⟨hl, fun c hc => ?_⟩
  cases isLead_of_isSpelling hs c hc
  case inl he => exact absurd (he ▸ hc) hp
  case inr hd => exact hd

theorem IsHex.encode_eq (h : IsHex s) (hp : parseHelloToken s = some token) :
    encodeHelloToken token = s.map Char.toLower := by
  have ⟨hl, ha, hm⟩ := parseHelloToken_eq_some_iff.mp hp
  exact encode_of_mapM (n := 16) hl ha h.right hm

theorem IsHex.not_isSigned (h : IsHex s) : ¬IsSigned s := by
  intro ⟨_, _, hp⟩
  exact absurd (h.right '+' hp) (by decide)

-- Encoded tokens are always read back. Whether a text is accepted as it should be depends on the
-- signs in it.
theorem hello_token_codec (token : TokenBytes) (s : Text) :
    parseHelloToken (encodeHelloToken token) = some token ∧
    ((((∃ token, parseHelloToken s = some token) ↔ IsHex s) ∧
      ∀ token, parseHelloToken s = some token → encodeHelloToken token = s.map Char.toLower) ↔
        ¬IsSigned s) := by
  refine ⟨parse_encodeHelloToken, ?_⟩
  constructor
  case mp =>
    intro ⟨ha, _⟩ signed
    have hs := exists_parseHelloToken_iff.mpr ⟨signed.left, signed.right.left⟩
    exact (ha.mp hs).not_isSigned signed
  case mpr =>
    intro hn
    have hx (h : ∃ token, parseHelloToken s = some token) : IsHex s := by
      have ⟨hl, hs⟩ := exists_parseHelloToken_iff.mp h
      exact isHex_of_isSpelling hl hs fun hp => hn ⟨hl, hs, hp⟩
    refine ⟨⟨hx, fun h => exists_parseHelloToken_iff.mpr ⟨h.left, h.isSpelling⟩⟩, ?_⟩
    exact fun token hp => (hx ⟨token, hp⟩).encode_eq hp

def signs : Text :=
  List.flatten (List.replicate 16 ['+', 'f'])

theorem signs_accepted : (∃ token, parseHelloToken signs = some token) ∧ ¬IsHex signs := by
  refine ⟨⟨Vector.replicate 16 15, by decide⟩, fun h => ?_⟩
  exact absurd (h.right '+' (by decide)) (by decide)
