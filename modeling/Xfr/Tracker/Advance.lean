import Xfr.Tracker.Window

-- The accesses of the program to the words of a bitmap. They fail where the program panics: past the
-- last word, on a shift by the width of a word, and below zero.
namespace Bitmap

variable {w n : Nat} {b : Bitmap w n} {x y : BitVec w} {k first last start stop : Nat}

def mapWord? (b : Bitmap w n) (k : Nat) (f : BitVec w → BitVec w) : Option (Bitmap w n) :=
  if k < n then some (b.mapWord k f) else none

def fillWords? (b : Bitmap w n) (first last : Nat) (x : BitVec w) : Option (Bitmap w n) :=
  if first ≤ last ∧ last ≤ n then some (b.fillWords first last x) else none

def shiftLeft? (x : BitVec w) (k : Nat) : Option (BitVec w) :=
  if k < w then some (x <<< k) else none

def sub? (x y : BitVec w) : Option (BitVec w) :=
  if y ≤ x then some (x - y) else none

def firstMask? (w start : Nat) : Option (BitVec w) :=
  shiftLeft? (BitVec.allOnes w) (start % w)

def lastMask? (w stop : Nat) : Option (BitVec w) :=
  if stop % w = 0 then some (BitVec.allOnes w) else do sub? (← shiftLeft? 1#w (stop % w)) 1#w

def clearRange? (b : Bitmap w n) (start stop : Nat) : Option (Bitmap w n) :=
  if start = stop then some b else do
    let first := start / w
    let last := (← U64.checkedSub stop 1) / w
    let firstMask ← firstMask? w start
    let lastMask ← lastMask? w stop
    if first = last then
      b.mapWord? first (· &&& ~~~(firstMask &&& lastMask))
    else
      let b ← b.mapWord? first (· &&& ~~~firstMask)
      let b ← b.fillWords? (first + 1) last 0#w
      b.mapWord? last (· &&& ~~~lastMask)

theorem mapWord?_eq_some {f : BitVec w → BitVec w} (h : k < n) :
    b.mapWord? k f = some (b.mapWord k f) :=
  if_pos h

theorem fillWords?_eq_some (hl : first ≤ last) (hn : last ≤ n) :
    b.fillWords? first last x = some (b.fillWords first last x) :=
  if_pos ⟨hl, hn⟩

theorem shiftLeft?_eq_some (h : k < w) : shiftLeft? x k = some (x <<< k) :=
  if_pos h

theorem firstMask?_eq_some (hw : 0 < w) : firstMask? w start = some (firstMask w start) :=
  shiftLeft?_eq_some (Nat.mod_lt _ hw)

-- A one which is shifted within its word does not vanish.
theorem one_le_one_shiftLeft (h : k < w) : 1#w ≤ 1#w <<< k := by
  have hpow : 2 ^ k < 2 ^ w := Nat.pow_lt_pow_right (by omega) h
  have hone : (1#w).toNat = 1 := by simp; omega
  rw [BitVec.le_def, ← BitVec.twoPow_eq, BitVec.toNat_twoPow, Nat.mod_eq_of_lt hpow, hone]
  exact Nat.one_le_two_pow

theorem lastMask?_eq_some (hw : 0 < w) : lastMask? w stop = some (lastMask w stop) := by
  have hm : stop % w < w := Nat.mod_lt _ hw
  unfold lastMask? lastMask
  split
  case isTrue  => rfl
  case isFalse =>
    rw [shiftLeft?_eq_some hm]
    exact if_pos (one_le_one_shiftLeft hm)

-- No access fails when the range lies within the bitmap.
theorem clearRange?_eq_some (hw : 0 < w) (hle : start ≤ stop) (hstop : stop ≤ w * n) :
    b.clearRange? start stop = some (b.clearRange start stop) := by
  unfold clearRange? clearRange
  split
  case isTrue  => rfl
  case isFalse he =>
    have hlast : (stop - 1) / w < n := Nat.div_lt_of_lt_mul (by omega)
    have hfirst : start / w ≤ (stop - 1) / w := Nat.div_le_div_right (by omega)
    rw [U64.checkedSub_eq_some (by omega), firstMask?_eq_some hw, lastMask?_eq_some hw]
    simp only [Option.bind_eq_bind, Option.bind_some]
    split
    case isTrue hs  => exact mapWord?_eq_some (by omega)
    case isFalse hs =>
      rw [mapWord?_eq_some (by omega), Option.bind_some, fillWords?_eq_some (by omega) hlast.le,
        Option.bind_some, mapWord?_eq_some hlast]

end Bitmap

namespace PacketTracker

variable {t : PacketTracker} {previous next : UInt64} {start stop : Nat}

def clearRange? (t : PacketTracker) (start stop : Nat) : Option PacketTracker :=
  (t.seen.clearRange? start stop).map fun seen => { t with seen }

-- The step of the window on `u64`s, in which every sum and difference is checked.
def advanceWindow? (t : PacketTracker) (previous next : UInt64) : Option PacketTracker := do
  let distance ← U64.checkedSub next.toNat previous.toNat
  if distance ≥ PACKET_TRACKER_WINDOW then
    return { t with seen := Bitmap.empty }
  else
    let start := index (← U64.checkedAdd previous.toNat 1)
    let stop ← U64.checkedAdd start distance
    let t ← t.clearRange? start (min stop PACKET_TRACKER_WINDOW)
    if stop > PACKET_TRACKER_WINDOW then
      t.clearRange? 0 (← U64.checkedSub stop PACKET_TRACKER_WINDOW)
    else
      return t

theorem clearRange?_eq_some (hle : start ≤ stop) (hstop : stop ≤ PACKET_TRACKER_WINDOW) :
    t.clearRange? start stop = some (t.clearRange start stop) := by
  rw [clearRange?, Bitmap.clearRange?_eq_some (by decide) hle hstop]
  rfl

-- Nothing overflows or is out of bounds, so that the step is the one on natural numbers.
theorem advanceWindow?_eq_some (h : previous < next) :
    t.advanceWindow? previous next = some (t.advanceWindow previous.toNat next.toNat) := by
  have hlt : previous.toNat < next.toNat := UInt64.lt_iff_toNat_lt.mp h
  have hnext : next.toNat ≤ U64.max := U64.le_max next
  have hindex : index (previous.toNat + 1) < PACKET_TRACKER_WINDOW := index_lt
  have hmax : 2 * PACKET_TRACKER_WINDOW ≤ U64.max := by decide
  unfold advanceWindow? advanceWindow
  rw [U64.checkedSub_eq_some hlt.le]
  simp only [Option.bind_eq_bind, Option.bind_some]
  split
  case isTrue  => rfl
  case isFalse hd =>
    rw [U64.checkedAdd_eq_some (by omega), Option.bind_some, U64.checkedAdd_eq_some (by omega),
      Option.bind_some, clearRange?_eq_some (by omega) (by omega), Option.bind_some]
    split
    case isFalse    => rfl
    case isTrue hw =>
      rw [U64.checkedSub_eq_some hw.le, Option.bind_some]
      exact clearRange?_eq_some (Nat.zero_le _) (by omega)

-- The positions which are entered are cleared, and every other one is left as it was.
theorem advance_clears_entering (t : PacketTracker) (previous next : UInt64) (h : previous < next) :
    ∃ seen, t.advanceWindow? previous next = some { t with seen } ∧
      (∀ s : UInt64, previous < s → s ≤ next →
        seen.test (s.toNat % PACKET_TRACKER_WINDOW) = false) ∧
      ∀ i < PACKET_TRACKER_WINDOW,
        (∀ s : UInt64, previous < s → s ≤ next → s.toNat % PACKET_TRACKER_WINDOW ≠ i) →
        seen.test i = t.seen.test i := by
  have hlt : previous.toNat < next.toNat := UInt64.lt_iff_toNat_lt.mp h
  refine ⟨(t.advanceWindow previous.toNat next.toNat).seen, ?_, fun s hp hn => ?_, fun i hi hs => ?_⟩
  · rw [advanceWindow?_eq_some h, ← advanceWindow_eq]
  · have hi : s.toNat % PACKET_TRACKER_WINDOW < PACKET_TRACKER_WINDOW := Nat.mod_lt _ (by decide)
    refine Bool.eq_false_iff.mpr fun hc => ((test_advanceWindow hlt hi).mp hc).right ?_
    exact ⟨s.toNat, UInt64.lt_iff_toNat_lt.mp hp, UInt64.le_iff_toNat_le.mp hn, index_eq_mod⟩
  · rw [Bool.eq_iff_iff, test_advanceWindow hlt hi]
    refine and_iff_left fun ⟨s, hp, hn, hx⟩ => ?_
    have hs' : (UInt64.ofNat s).toNat = s :=
      UInt64.toNat_ofNat_of_lt' (Nat.lt_of_le_of_lt hn next.toNat_lt)
    refine hs (UInt64.ofNat s) ?_ ?_ ?_
    · rwa [UInt64.lt_iff_toNat_lt, hs']
    · rwa [UInt64.le_iff_toNat_le, hs']
    · rw [hs', ← index_eq_mod, hx]

-- A tracker which has seen packets in the range which is entered below, and on both sides of it.
def seenAround : PacketTracker :=
  [64, 65, 65519, 65530].foldl mark new

theorem test_mark {sequence i : Nat} :
    (t.mark sequence).seen.test i = (decide (i = index sequence) || t.seen.test i) :=
  test_insert_index

theorem test_seenAround {i : Nat} :
    seenAround.seen.test i = true ↔ i = 64 ∨ i = 65 ∨ i = 65519 ∨ i = 65530 := by
  simp only [seenAround, List.foldl_cons, List.foldl_nil, test_mark, new, Bitmap.test_empty,
    Bool.or_eq_true, Bool.false_eq_true, or_false, decide_eq_true_eq, index_eq_mod,
    PACKET_TRACKER_WINDOW]
  omega

-- From sixteen positions before the end of the ring to just behind its start. What was seen there
-- is forgotten, and what was seen next to it is not.
theorem advance_clears_entering_wrap :
    ∃ seen, seenAround.advanceWindow? 65519 65600 = some { seenAround with seen } ∧
      (seenAround.seen.test 64 = true ∧ seenAround.seen.test 65530 = true) ∧
      (seen.test 64 = false ∧ seen.test 65530 = false) ∧
      seen.test 65 = true ∧ seen.test 65519 = true := by
  have ⟨seen, h, cleared, kept⟩ := advance_clears_entering seenAround 65519 65600 (by decide)
  have outside {i : Nat} (hi : 64 < i ∧ i < 65520) (s : UInt64) (hp : 65519 < s) (hn : s ≤ 65600) :
      s.toNat % PACKET_TRACKER_WINDOW ≠ i := by
    have hp : 65519 < s.toNat := UInt64.lt_iff_toNat_lt.mp hp
    have hn : s.toNat ≤ 65600 := UInt64.le_iff_toNat_le.mp hn
    simp only [PACKET_TRACKER_WINDOW]
    omega
  refine ⟨seen, h, ⟨?_, ?_⟩, ⟨?_, ?_⟩, ?_, ?_⟩
  · exact test_seenAround.mpr (by decide)
  · exact test_seenAround.mpr (by decide)
  · exact cleared 65600 (by decide) (by decide)
  · exact cleared 65530 (by decide) (by decide)
  · rw [kept 65 (by decide) (outside (by decide))]
    exact test_seenAround.mpr (by decide)
  · rw [kept 65519 (by decide) (outside (by decide))]
    exact test_seenAround.mpr (by decide)

end PacketTracker
