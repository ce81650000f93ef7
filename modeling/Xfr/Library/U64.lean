import Mathlib.Algebra.GroupWithZero.Nat
import Mathlib.Order.Lattice
import Mathlib.Tactic.Common

-- Arithmetic of unsigned 64-bit counters on natural numbers. A counter is a number of at most `max`,
-- and the operations below keep it that way by saturating at both ends.
namespace U64

def max : Nat := 2 ^ 64 - 1

def saturatingAdd (a b : Nat) : Nat :=
  min (a + b) max

def saturatingSub (a b : Nat) : Nat :=
  a - b

def saturatingMul (a b : Nat) : Nat :=
  min (a * b) max

-- Division which rounds up.
def divCeil (a b : Nat) : Nat :=
  (a + b - 1) / b

def wrappingAdd (a b : Nat) : Nat :=
  (a + b) % 2 ^ 64

def wrappingSum (as : List Nat) : Nat :=
  as.foldl wrappingAdd 0

def absDiff (a b : Nat) : Nat :=
  if a < b then b - a else a - b

theorem saturatingAdd_le_max {a b : Nat} : saturatingAdd a b ≤ max :=
  Nat.min_le_right ..

theorem saturatingAdd_eq_add {a b : Nat} (h : a + b ≤ max) : saturatingAdd a b = a + b :=
  Nat.min_eq_left h

-- Saturating after every step of a sum is the same as saturating the sum once.
theorem saturatingAdd_min_max {a b : Nat} : saturatingAdd (min a max) b = min (a + b) max := by
  unfold saturatingAdd
  omega

theorem foldl_saturatingAdd {as : List Nat} {a : Nat} :
    as.foldl saturatingAdd (min a max) = min (a + as.sum) max := by
  induction as generalizing a
  case nil          => rfl
  case cons b as hi =>
    rw [List.foldl_cons, saturatingAdd_min_max, hi, List.sum_cons, Nat.add_assoc]

theorem sum_saturatingAdd {as : List Nat} : as.foldl saturatingAdd 0 = min as.sum max := by
  simpa using @foldl_saturatingAdd as 0

theorem wrappingAdd_le_max {a b : Nat} : wrappingAdd a b ≤ max := by
  have := Nat.mod_lt (a + b) (show 0 < 2 ^ 64 by decide)
  unfold wrappingAdd max
  omega

theorem wrappingAdd_eq_add {a b : Nat} (h : a + b ≤ max) : wrappingAdd a b = a + b :=
  Nat.mod_eq_of_lt (Nat.lt_succ_of_le h)

theorem le_max (n : UInt64) : n.toNat ≤ max := by
  have := n.toNat_lt
  unfold max
  omega

theorem saturatingAdd_mono {a b c d : Nat} (h₁ : a ≤ c) (h₂ : b ≤ d) :
    saturatingAdd a b ≤ saturatingAdd c d := by
  unfold saturatingAdd
  omega

theorem absDiff_comm {a b : Nat} : absDiff a b = absDiff b a := by
  unfold absDiff
  split <;> split <;> omega

@[simp]
theorem absDiff_self {a : Nat} : absDiff a a = 0 := by
  simp [absDiff]

theorem absDiff_lt_iff {a b d : Nat} : absDiff a b < d ↔ a < b + d ∧ b < a + d := by
  unfold absDiff
  split <;> omega

-- The exact operations. They fail where the result is out of bounds, or there is none.
def checkedMul (bound a b : Nat) : Option Nat :=
  if a * b ≤ bound then some (a * b) else none

def checkedDivCeil (a b : Nat) : Option Nat :=
  if b = 0 then none else some (divCeil a b)

def checkedCast (a : Nat) : Option Nat :=
  if a ≤ max then some a else none

def checkedAdd (a b : Nat) : Option Nat :=
  checkedCast (a + b)

def checkedSub (a b : Nat) : Option Nat :=
  if b ≤ a then some (a - b) else none

def checkedSum (as : List Nat) : Option Nat :=
  as.foldlM checkedAdd 0

theorem checkedMul_eq_some {bound a b : Nat} (h : a * b ≤ bound) :
    checkedMul bound a b = some (a * b) :=
  if_pos h

theorem checkedDivCeil_eq_some {a b : Nat} (h : 0 < b) :
    checkedDivCeil a b = some (divCeil a b) :=
  if_neg (Nat.ne_of_gt h)

theorem checkedCast_eq_some {a : Nat} (h : a ≤ max) : checkedCast a = some a :=
  if_pos h

theorem checkedCast_eq_some_iff {a n : Nat} : checkedCast a = some n ↔ a ≤ max ∧ a = n := by
  unfold checkedCast
  split <;> simp_all

theorem checkedAdd_eq_some_iff {a b n : Nat} :
    checkedAdd a b = some n ↔ a + b ≤ max ∧ a + b = n :=
  checkedCast_eq_some_iff

theorem checkedAdd_eq_some {a b : Nat} (h : a + b ≤ max) : checkedAdd a b = some (a + b) :=
  if_pos h

theorem checkedSub_eq_some {a b : Nat} (h : b ≤ a) : checkedSub a b = some (a - b) :=
  if_pos h

-- A sum out of bounds stays out of bounds.
theorem foldlM_checkedAdd {as : List Nat} {a n : Nat} (ha : a ≤ max) :
    as.foldlM checkedAdd a = some n ↔ a + as.sum ≤ max ∧ a + as.sum = n := by
  induction as generalizing a
  case nil => simpa using fun _ => ha
  case cons b as hi =>
    rw [List.foldlM_cons, List.sum_cons, ← Nat.add_assoc]
    by_cases h : a + b ≤ max
    case pos =>
      rw [checkedAdd_eq_some h]
      exact hi h
    case neg =>
      have hn : checkedAdd a b = none := if_neg h
      simp only [hn, Option.bind_eq_bind, Option.bind_none, reduceCtorEq, false_iff]
      omega

theorem checkedSum_eq_some_iff {as : List Nat} {n : Nat} :
    checkedSum as = some n ↔ as.sum ≤ max ∧ as.sum = n := by
  simpa [checkedSum] using @foldlM_checkedAdd as 0 n (Nat.zero_le max)

theorem checkedSum_eq_some {as : List Nat} (h : as.sum ≤ max) : checkedSum as = some as.sum :=
  checkedSum_eq_some_iff.mpr ⟨h, rfl⟩

theorem saturatingMul_eq_mul {a b : Nat} (h : a * b ≤ max) : saturatingMul a b = a * b :=
  Nat.min_eq_left h

theorem le_mul_divCeil {a b : Nat} (h : 0 < b) : a ≤ b * divCeil a b := by
  have := Nat.div_add_mod (a + b - 1) b
  have := Nat.mod_lt (a + b - 1) h
  unfold divCeil
  omega

theorem divCeil_le_self {a b : Nat} (h : 0 < b) : divCeil a b ≤ a := by
  cases a
  case zero => exact Nat.le_of_eq (Nat.div_eq_of_lt (by omega))
  case succ a =>
    have hd : divCeil (a + 1) b = a / b + 1 := by
      rw [divCeil, ← Nat.add_div_right a h]
      congr 1
      omega
    exact hd ▸ Nat.succ_le_succ (Nat.div_le_self a b)

end U64
