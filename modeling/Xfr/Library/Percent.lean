import Xfr.Library.Utf8

open Utf8 (Text)

-- Percent encoding of texts. Which characters of ASCII are kept depends on where the text is put.
namespace Percent

def digits : List Char :=
  "0123456789ABCDEF".toList

def digit (n : Nat) : Char :=
  digits[n % 16]?.getD '0'

def digitValue (c : Char) : Option Nat :=
  if c ∈ digits then some (digits.idxOf c) else none

def escape (b : UInt8) : Text :=
  ['%', digit (b.toNat / 16), digit b.toNat]

def encodeChar (keep : Char → Bool) (c : Char) : Text :=
  if c.toNat < 0x80 ∧ keep c then [c] else (String.utf8EncodeChar c).flatMap escape

def encode (keep : Char → Bool) (text : Text) : Text :=
  text.flatMap (encodeChar keep)

-- A sign which starts no escape stands for itself.
def decodeBytes : Text → Bytes
  | '%' :: h :: l :: text =>
    match digitValue h, digitValue l with
    | some h, some l => .ofNat (h * 16 + l) :: decodeBytes text
    | _, _           => String.utf8EncodeChar '%' ++ decodeBytes (h :: l :: text)
  | c :: text             => String.utf8EncodeChar c ++ decodeBytes text
  | []                    => []

def decode (text : Text) : Text :=
  Utf8.decodeLossy (decodeBytes text)

variable {keep : Char → Bool} {c : Char} {text rest : Text}

theorem digitValue_digit {n : Nat} : digitValue (digit n) = some (n % 16) := by
  have hd : ∀ m : Fin 16, digitValue (digit m) = some m.val := by decide +kernel
  have hs : digit (n % 16) = digit n := by rw [digit, Nat.mod_mod, digit]
  rw [← hs, hd ⟨n % 16, Nat.mod_lt n (by decide)⟩]

theorem decodeBytes_escape {b : UInt8} :
    decodeBytes (escape b ++ rest) = b :: decodeBytes rest := by
  have hb := b.toNat_lt
  have hn : UInt8.ofNat (b.toNat / 16 % 16 * 16 + b.toNat % 16) = b := by
    rw [← UInt8.toNat_inj, UInt8.toNat_ofNat']
    omega
  simp only [escape, List.cons_append, List.nil_append, decodeBytes, digitValue_digit, hn]

theorem decodeBytes_flatMap_escape {bytes : Bytes} :
    decodeBytes (bytes.flatMap escape ++ rest) = bytes ++ decodeBytes rest := by
  induction bytes
  case nil            => rfl
  case cons b _ hi    =>
    rw [List.flatMap_cons, List.append_assoc, decodeBytes_escape, hi, List.cons_append]

theorem decodeBytes_cons (h : c ≠ '%') :
    decodeBytes (c :: text) = String.utf8EncodeChar c ++ decodeBytes text := by
  rw [decodeBytes]
  exact fun _ _ _ hc _ => h hc

theorem decodeBytes_encode (hk : keep '%' = false) :
    decodeBytes (encode keep text) = Utf8.encode text := by
  induction text
  case nil => rfl
  case cons c text hi =>
    rw [Utf8.encode_cons, ← hi]
    by_cases hc : c.toNat < 0x80 ∧ keep c
    case pos =>
      have hp : c ≠ '%' := fun h => by simp [h, hk] at hc
      have he : encode keep (c :: text) = c :: encode keep text := by
        simp [encode, encodeChar, hc]
      rw [he, decodeBytes_cons hp]
    case neg =>
      have he : encode keep (c :: text) =
          (String.utf8EncodeChar c).flatMap escape ++ encode keep text := by
        simp [encode, encodeChar, hc]
      rw [he, decodeBytes_flatMap_escape]

theorem decode_encode (hk : keep '%' = false) : decode (encode keep text) = text := by
  rw [decode, decodeBytes_encode hk, Utf8.decodeLossy_encode]

theorem digit_mem {n : Nat} : digit n ∈ digits := by
  have hd : ∀ m : Fin 16, digit m ∈ digits := by decide +kernel
  have hs : digit (n % 16) = digit n := by rw [digit, Nat.mod_mod, digit]
  exact hs ▸ hd ⟨n % 16, Nat.mod_lt n (by decide)⟩

-- Characters which are neither kept nor part of escapes do not occur.
theorem not_mem_encode (hk : keep c = false) (hp : c ≠ '%') (hd : c ∉ digits) :
    c ∉ encode keep text := by
  intro h
  have ⟨x, _, h⟩ := List.mem_flatMap.mp h
  unfold encodeChar at h
  split at h
  case isTrue hx =>
    have hc : c = x := List.mem_singleton.mp h
    simp [← hc, hk] at hx
  case isFalse =>
    have ⟨b, _, h⟩ := List.mem_flatMap.mp h
    have hs : c = '%' ∨ c = digit (b.toNat / 16) ∨ c = digit b.toNat := by simpa [escape] using h
    cases hs
    case inl h => exact hp h
    case inr h => exact h.elim (fun h => hd (h ▸ digit_mem)) (fun h => hd (h ▸ digit_mem))

example : encode (· ≠ '/') "a/b".toList = "a%2Fb".toList := by decide

end Percent
