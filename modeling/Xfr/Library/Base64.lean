import Xfr.Library.Bytes

-- The alphabet which is safe in addresses, without padding.
namespace Base64

def symbols : List Char :=
  "ABCDEFGHIJKLMNOPQRSTUVWXYZabcdefghijklmnopqrstuvwxyz0123456789-_".toList

def symbol (n : Nat) : Char :=
  symbols[n % 64]?.getD 'A'

def value (c : Char) : Option Nat :=
  if c ∈ symbols then some (symbols.idxOf c) else none

def encode : Bytes → List Char
  | a :: b :: c :: bytes =>
    symbol (a.toNat / 4) :: symbol (a.toNat * 16 + b.toNat / 16) ::
      symbol (b.toNat * 4 + c.toNat / 64) :: symbol c.toNat :: encode bytes
  | [a, b]               =>
    [symbol (a.toNat / 4), symbol (a.toNat * 16 + b.toNat / 16), symbol (b.toNat * 4)]
  | [a]                  => [symbol (a.toNat / 4), symbol (a.toNat * 16)]
  | []                   => []

-- Bits which are left over are ignored.
def decode : List Char → Option Bytes
  | w :: x :: y :: z :: text => do
    let w ← value w
    let x ← value x
    let y ← value y
    let z ← value z
    let bytes ← decode text
    return .ofNat (w * 4 + x / 16) :: .ofNat (x * 16 + y / 4) :: .ofNat (y * 64 + z) :: bytes
  | [w, x, y]                => do
    let w ← value w
    let x ← value x
    let y ← value y
    return [.ofNat (w * 4 + x / 16), .ofNat (x * 16 + y / 4)]
  | [w, x]                   => do
    let w ← value w
    let x ← value x
    return [.ofNat (w * 4 + x / 16)]
  | [_]                      => none
  | []                       => some []

theorem value_symbol {n : Nat} : value (symbol n) = some (n % 64) := by
  have hd : ∀ m : Fin 64, value (symbol m) = some m.val := by decide +kernel
  have hs : symbol (n % 64) = symbol n := by rw [symbol, Nat.mod_mod, symbol]
  rw [← hs, hd ⟨n % 64, Nat.mod_lt n (by decide)⟩]

theorem ofNat_eq {a : UInt8} {n : Nat} (h : n % 256 = a.toNat) : UInt8.ofNat n = a := by
  rw [← UInt8.toNat_inj, UInt8.toNat_ofNat', h]

theorem decode_encode {bytes : Bytes} : decode (encode bytes) = some bytes := by
  fun_induction encode bytes
  case case1 a b c bytes hi =>
    have := a.toNat_lt
    have := b.toNat_lt
    have := c.toNat_lt
    simp only [decode, value_symbol, hi, Option.pure_def, Option.bind_eq_bind, Option.bind_some,
      Option.some.injEq, List.cons.injEq, and_true]
    exact ⟨ofNat_eq (by omega), ofNat_eq (by omega), ofNat_eq (by omega)⟩
  case case2 a b =>
    have := a.toNat_lt
    have := b.toNat_lt
    simp only [decode, value_symbol, Option.pure_def, Option.bind_eq_bind, Option.bind_some,
      Option.some.injEq, List.cons.injEq, and_true]
    exact ⟨ofNat_eq (by omega), ofNat_eq (by omega)⟩
  case case3 a =>
    have := a.toNat_lt
    simp only [decode, value_symbol, Option.pure_def, Option.bind_eq_bind, Option.bind_some,
      Option.some.injEq, List.cons.injEq, and_true]
    exact ofNat_eq (by omega)
  case case4 => rfl

theorem symbol_mem {n : Nat} : symbol n ∈ symbols := by
  have hd : ∀ m : Fin 64, symbol m ∈ symbols := by decide +kernel
  have hs : symbol (n % 64) = symbol n := by rw [symbol, Nat.mod_mod, symbol]
  exact hs ▸ hd ⟨n % 64, Nat.mod_lt n (by decide)⟩

theorem mem_symbols {bytes : Bytes} : ∀ c ∈ encode bytes, c ∈ symbols := by
  fun_induction encode bytes
  case case1 hi => simpa [symbol_mem] using hi
  case case2    => simp [symbol_mem]
  case case3    => simp [symbol_mem]
  case case4    => simp

example : encode [0x78, 0x66, 0x72] = "eGZy".toList := by decide

end Base64
