import Mathlib.Algebra.Order.Ring.Nat
import Mathlib.Tactic.Ring

abbrev Bytes := List UInt8

-- Fixed-width encodings of natural numbers. A number which does not fit is truncated.
namespace Bytes

def toLe : (width n : Nat) → Bytes
  | 0,         _ => []
  | width + 1, n => UInt8.ofNat n :: toLe width (n / 256)

def ofLe : Bytes → Nat
  | []      => 0
  | b :: bs => b.toNat + 256 * ofLe bs

def toBe (width n : Nat) : Bytes :=
  (toLe width n).reverse

def ofBe (bs : Bytes) : Nat :=
  ofLe bs.reverse

def ascii (s : String) : Bytes :=
  s.toList.map (UInt8.ofNat ·.toNat)

variable {width n m : Nat}

@[simp]
theorem length_toLe : (toLe width n).length = width := by
  induction width generalizing n
  case zero      => rfl
  case succ _ hi => simp [toLe, hi]

@[simp]
theorem length_toBe : (toBe width n).length = width := by
  simp [toBe]

theorem toLe_add {k : Nat} : toLe (width + k) n = toLe width n ++ toLe k (n / 256 ^ width) := by
  induction width generalizing n
  case zero          => simp [toLe]
  case succ width hi =>
    rw [Nat.succ_add, toLe, hi, toLe, Nat.div_div_eq_div_mul, Nat.pow_succ', List.cons_append]

-- The first bytes are the most significant ones.
theorem toBe_add {k : Nat} : toBe (width + k) n = toBe k (n / 256 ^ width) ++ toBe width n := by
  rw [toBe, toLe_add, List.reverse_append]
  rfl

theorem ofLe_toLe : ofLe (toLe width n) = n % 256 ^ width := by
  induction width generalizing n
  case zero => simp [toLe, ofLe, Nat.mod_one]
  case succ width hi =>
    have hb : (UInt8.ofNat n).toNat = n % 256 := UInt8.toNat_ofNat'
    rw [toLe, ofLe, hi, hb, Nat.pow_succ', Nat.mod_mul]

theorem ofBe_toBe : ofBe (toBe width n) = n % 256 ^ width := by
  rw [ofBe, toBe, List.reverse_reverse, ofLe_toLe]

theorem toLe_ofLe {bs : Bytes} : toLe bs.length (ofLe bs) = bs := by
  induction bs
  case nil          => rfl
  case cons b bs hi =>
    have hb := b.toNat_lt
    have hd : (b.toNat + 256 * ofLe bs) / 256 = ofLe bs := by omega
    rw [List.length_cons, ofLe, toLe, hd, hi]
    congr 1
    exact UInt8.toNat_inj.mp (by simp)

theorem toBe_ofBe {bs : Bytes} : toBe bs.length (ofBe bs) = bs := by
  rw [toBe, ofBe, ← List.length_reverse, toLe_ofLe, List.reverse_reverse]

theorem ofLe_lt {bs : Bytes} : ofLe bs < 256 ^ bs.length := by
  induction bs
  case nil          => simp [ofLe]
  case cons b bs hi =>
    have hb := b.toNat_lt
    rw [ofLe, List.length_cons, Nat.pow_succ']
    omega

theorem ofBe_lt {bs : Bytes} : ofBe bs < 256 ^ bs.length := by
  simpa [ofBe] using @ofLe_lt bs.reverse

theorem toLe_injective (hn : n < 256 ^ width) (hm : m < 256 ^ width)
    (h : toLe width n = toLe width m) : n = m := by
  rw [← Nat.mod_eq_of_lt hn, ← Nat.mod_eq_of_lt hm, ← ofLe_toLe, ← ofLe_toLe, h]

theorem toLe_uint64_injective {a b : UInt64} (h : toLe 8 a.toNat = toLe 8 b.toNat) : a = b :=
  UInt64.toNat_inj.mp <| toLe_injective a.toNat_lt b.toNat_lt h

end Bytes
