import Mathlib.Data.Nat.Bitwise
import Mathlib.Tactic.Positivity

-- A fixed array of machine words read as one row of bits: bit `i` is bit `i % w` of word `i / w`.
abbrev Bitmap (w n : Nat) := Vector (BitVec w) n

namespace Bitmap

variable {w n : Nat}

def empty : Bitmap w n :=
  Vector.replicate n 0#w

def word (b : Bitmap w n) (k : Nat) : BitVec w :=
  b[k]?.getD 0#w

def mapWord (b : Bitmap w n) (k : Nat) (f : BitVec w → BitVec w) : Bitmap w n :=
  Vector.ofFn fun i => if i.val = k then f b[i] else b[i]

def fillWords (b : Bitmap w n) (first last : Nat) (x : BitVec w) : Bitmap w n :=
  Vector.ofFn fun i => if first ≤ i.val ∧ i.val < last then x else b[i]

def bit (w i : Nat) : BitVec w :=
  1#w <<< (i % w)

def test (b : Bitmap w n) (i : Nat) : Bool :=
  b.word (i / w) &&& bit w i ≠ 0#w

def insert (b : Bitmap w n) (i : Nat) : Bitmap w n :=
  b.mapWord (i / w) (· ||| bit w i)

def firstMask (w start : Nat) : BitVec w :=
  BitVec.allOnes w <<< (start % w)

def lastMask (w stop : Nat) : BitVec w :=
  if stop % w = 0 then BitVec.allOnes w else 1#w <<< (stop % w) - 1#w

-- Clears the bits in `[start, stop)` a word at a time: the words at both ends keep the bits outside
-- of the range, and every word in between is zeroed as a whole.
def clearRange (b : Bitmap w n) (start stop : Nat) : Bitmap w n :=
  if start = stop then b else
    let first := start / w
    let last := (stop - 1) / w
    if first = last then
      b.mapWord first (· &&& ~~~(firstMask w start &&& lastMask w stop))
    else
      (b.mapWord first (· &&& ~~~firstMask w start)
        |>.fillWords (first + 1) last 0#w).mapWord last (· &&& ~~~lastMask w stop)

@[simp]
theorem word_empty {k : Nat} : (empty : Bitmap w n).word k = 0#w := by
  by_cases h : k < n <;> simp [word, empty, h]

@[simp]
theorem word_mapWord {b : Bitmap w n} {k j : Nat} {f : BitVec w → BitVec w} :
    (b.mapWord k f).word j = if j = k ∧ j < n then f (b.word j) else b.word j := by
  by_cases h : j < n
  case pos => simp [word, mapWord, h]
  case neg => simp [word, h]

@[simp]
theorem word_fillWords {b : Bitmap w n} {first last j : Nat} {x : BitVec w} :
    (b.fillWords first last x).word j = if first ≤ j ∧ j < last ∧ j < n then x else b.word j := by
  by_cases h : j < n
  case pos => simp [word, fillWords, h]
  case neg => simp [word, h]

theorem getLsbD_bit {i j : Nat} (hw : 0 < w) : (bit w i).getLsbD j = decide (i % w = j) := by
  simp [bit, ← BitVec.twoPow_eq, Nat.mod_lt _ hw]

theorem and_bit_ne_zero {x : BitVec w} {i : Nat} (hw : 0 < w) :
    (x &&& bit w i ≠ 0#w) ↔ x.getLsbD (i % w) := by
  constructor
  case mp =>
    intro h
    by_contra hc
    refine h <| BitVec.eq_of_getLsbD_eq fun j _ => ?_
    rw [BitVec.getLsbD_and, getLsbD_bit hw]
    by_cases hj : i % w = j <;> simp_all
  case mpr =>
    intro h hc
    have := congrArg (BitVec.getLsbD · (i % w)) hc
    simp [getLsbD_bit hw, h] at this

theorem test_eq_getLsbD {b : Bitmap w n} {i : Nat} (hw : 0 < w) :
    b.test i = (b.word (i / w)).getLsbD (i % w) := by
  rw [Bool.eq_iff_iff, test, decide_eq_true_iff, and_bit_ne_zero hw]

@[simp]
theorem test_empty {i : Nat} : (empty : Bitmap w n).test i = false := by
  simp [test]

theorem eq_of_div_eq_of_mod_eq {i j : Nat} (hd : i / w = j / w) (hm : i % w = j % w) : i = j := by
  rw [← Nat.div_add_mod i w, ← Nat.div_add_mod j w, hd, hm]

theorem test_insert {b : Bitmap w n} {i j : Nat} (hw : 0 < w) (hi : i < w * n) :
    (b.insert i).test j = (decide (j = i) || b.test j) := by
  have hn : i / w < n := Nat.div_lt_of_lt_mul hi
  rw [test_eq_getLsbD hw, test_eq_getLsbD hw, insert, word_mapWord]
  by_cases hd : j / w = i / w
  case pos =>
    have hj : (i % w = j % w) ↔ j = i :=
      ⟨(eq_of_div_eq_of_mod_eq hd ·.symm), (· ▸ rfl)⟩
    simp [hd, hn, getLsbD_bit hw, hj, Bool.or_comm]
  case neg =>
    have hj : j ≠ i := (hd <| · ▸ rfl)
    simp [hd, hj]

section Masks

theorem getLsbD_firstMask {start i : Nat} (hi : i < w) :
    (firstMask w start).getLsbD i = decide (start % w ≤ i) := by
  by_cases h : start % w ≤ i
  case pos => simp [firstMask, hi, h]
  case neg => simp [firstMask, h, Nat.lt_of_not_le h]

theorem getLsbD_shiftLeft_sub_one {e i : Nat} (he : e < w) :
    (1#w <<< e - 1#w).getLsbD i = decide (i < e) := by
  have hpow : 2 ^ e < 2 ^ w := Nat.pow_lt_pow_right (by omega) he
  have hpos : 0 < 2 ^ e := by positivity
  have hone : (1#w).toNat = 1 := by simp; omega
  have htwo : (BitVec.twoPow w e).toNat = 2 ^ e := by
    rw [BitVec.toNat_twoPow, Nat.mod_eq_of_lt hpow]
  have hval : (1#w <<< e - 1#w).toNat = 2 ^ e - 1 := by
    rw [← BitVec.twoPow_eq, BitVec.toNat_sub_of_le, htwo, hone]
    rw [BitVec.le_def, htwo, hone]
    omega
  rw [← BitVec.testBit_toNat, hval, Nat.testBit_two_pow_sub_one]

theorem getLsbD_lastMask {stop i : Nat} (hi : i < w) :
    (lastMask w stop).getLsbD i = decide (stop % w = 0 ∨ i < stop % w) := by
  unfold lastMask
  split
  case isTrue h  => simp [h, hi]
  case isFalse h => simp [h, getLsbD_shiftLeft_sub_one (Nat.mod_lt _ (Nat.zero_lt_of_lt hi))]

-- A position is ordered by its word first and by its bit within the word second.
theorem le_iff_div_mod {a i : Nat} :
    a ≤ i ↔ a / w < i / w ∨ (a / w = i / w ∧ a % w ≤ i % w) := by
  have ha := Nat.div_add_mod a w
  have hi := Nat.div_add_mod i w
  constructor
  case mp =>
    intro h
    rcases (Nat.div_le_div_right h : a / w ≤ i / w).lt_or_eq with hd | hd
    · exact .inl hd
    · exact .inr ⟨hd, by rw [hd] at ha; omega⟩
  case mpr =>
    rintro (hd | ⟨hd, hm⟩)
    · exact (Nat.lt_of_div_lt_div hd).le
    · rw [hd] at ha; omega

theorem lt_iff_div_mod {stop i : Nat} (hw : 0 < w) (hs : 0 < stop) :
    i < stop ↔ i / w < (stop - 1) / w ∨
      (i / w = (stop - 1) / w ∧ (stop % w = 0 ∨ i % w < stop % w)) := by
  have hi : i % w < w := Nat.mod_lt _ hw
  have hmod : (stop - 1) % w = if stop % w = 0 then w - 1 else stop % w - 1 := by
    have hd := Nat.div_add_mod stop w
    split
    case isTrue h =>
      have hpos : 0 < stop / w := Nat.pos_of_ne_zero fun hz => by simp [hz, h] at hd; omega
      have hsub : stop - 1 = w * (stop / w - 1) + (w - 1) := by
        rw [Nat.mul_sub, Nat.mul_one]
        have : w * 1 ≤ w * (stop / w) := Nat.mul_le_mul_left w hpos
        omega
      rw [hsub, Nat.mul_add_mod, Nat.mod_eq_of_lt (by omega)]
    case isFalse h =>
      have : stop % w < w := Nat.mod_lt _ hw
      rw [show stop - 1 = w * (stop / w) + (stop % w - 1) by omega, Nat.mul_add_mod,
        Nat.mod_eq_of_lt (by omega)]
  rw [Nat.lt_iff_le_pred hs, le_iff_div_mod (w := w), hmod]
  split <;> simp_all <;> omega

end Masks

-- Each word is cleared in exactly the positions which lie in the range. The four ways in which a
-- word can meet the range (first, last, both, in between) are the four branches of `clearRange`.
theorem test_clearRange {b : Bitmap w n} {start stop i : Nat} (hw : 0 < w)
    (hle : start ≤ stop) (hstop : stop ≤ w * n) :
    (b.clearRange start stop).test i ↔ b.test i ∧ ¬(start ≤ i ∧ i < stop) := by
  by_cases he : start = stop
  case pos => simp [clearRange, he]
  case neg =>
    have hm := Nat.mod_lt i hw
    have hlast : (stop - 1) / w < n := Nat.div_lt_of_lt_mul (by omega)
    have hfirst : start / w ≤ (stop - 1) / w := Nat.div_le_div_right (by omega)
    have hs : start ≤ i ↔ _ := le_iff_div_mod (w := w)
    have ht : i < stop ↔ _ := lt_iff_div_mod hw (by omega)
    rw [hs, ht, test_eq_getLsbD hw, test_eq_getLsbD hw]
    simp only [clearRange, he, if_false]
    generalize i / w = k
    have hf : (firstMask w start).getLsbD (i % w) = _ := getLsbD_firstMask hm
    have hl : (lastMask w stop).getLsbD (i % w) = _ := getLsbD_lastMask hm
    split
    case isTrue =>
      rw [word_mapWord]
      split
      case isTrue  => rw [BitVec.getLsbD_and, BitVec.getLsbD_not, BitVec.getLsbD_and, hf, hl]; grind
      case isFalse => grind
    case isFalse =>
      rw [word_mapWord]
      split
      case isTrue =>
        rw [BitVec.getLsbD_and, BitVec.getLsbD_not, hl, word_fillWords, word_mapWord]
        grind
      case isFalse =>
        rw [word_fillWords]
        split
        case isTrue  => simp; grind
        case isFalse =>
          rw [word_mapWord]
          split
          case isTrue  => rw [BitVec.getLsbD_and, BitVec.getLsbD_not, hf]; grind
          case isFalse => grind

end Bitmap
