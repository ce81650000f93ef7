import Xfr.Library.Unsigned
import Xfr.Library.UpperCase
import Xfr.Library.Utf8

open Utf8 (Text)
open Unsigned (dropPlus)
open UpperCase (Native)

-- Rates and sizes of the command line, which are numbers with a unit.
namespace Quantity

inductive Suffix
  | kilo
  | mega
  | giga
  deriving DecidableEq

def Suffix.letter : Suffix → Char
  | kilo => 'K'
  | mega => 'M'
  | giga => 'G'

def Suffix.letters : Suffix → List Char
  | kilo => ['k', 'K']
  | mega => ['m', 'M']
  | giga => ['g', 'G']

structure Units where
  giga : Nat
  mega : Nat
  kilo : Nat

def Units.factor (units : Units) : Option Suffix → Nat
  | none       => 1
  | some .kilo => units.kilo
  | some .mega => units.mega
  | some .giga => units.giga

def bitrateUnits : Units where
  giga := 1000000000
  mega := 1000000
  kilo := 1000

def sizeUnits : Units where
  giga := 1024 * 1024 * 1024
  mega := 1024 * 1024
  kilo := 1024

def trimEndMatches (c : Char) (s : Text) : Text :=
  s.rdropWhile (· = c)

-- Only called where the suffix is there.
def stripSuffix (_ : Char) (s : Text) : Text :=
  s.dropLast

def splitSuffix (strip : Char → Text → Text) (units : Units) (s : Text) : Text × Nat :=
  if s.getLast? = some 'G' then (strip 'G' s, units.giga)
  else if s.getLast? = some 'M' then (strip 'M' s, units.mega)
  else if s.getLast? = some 'K' then (strip 'K' s, units.kilo)
  else (s, 1)

-- The parser of rates and the one of sizes trim all of the letters at the end.
def parseTrimmed (u : UpperCase) (bound : Nat) (units : Units) (what : Text) (s : Text) :
    Except Text Nat :=
  let s := u.toUppercase s
  let (num, suffix) := splitSuffix trimEndMatches units s
  match Unsigned.parse bound num with
  | .error e => .error e.toText
  | .ok n    => if n * suffix < bound then .ok (n * suffix) else .error (what ++ s)

def parseBitrate (u : UpperCase) (s : Text) : Except Text Nat :=
  parseTrimmed u (2 ^ 64) bitrateUnits "Bitrate overflow: ".toList s

def parseSize (u : UpperCase) (usizeBound : Nat) (s : Text) : Except Text Nat :=
  parseTrimmed u usizeBound sizeUnits "Size overflow: ".toList s

def parseByteBudget (u : UpperCase) (s : Text) : Except Text Nat :=
  let (num, suffix) := splitSuffix stripSuffix sizeUnits (u.toUppercase s)
  match Unsigned.parse (2 ^ 64) num with
  | .error _ => .error ("Invalid byte count: ".toList ++ s)
  | .ok n    =>
    if n * suffix < 2 ^ 64 then
      if n * suffix = 0 then .error "Byte count must be greater than zero".toList
      else .ok (n * suffix)
    else
      .error ("Byte count overflow: ".toList ++ s)

-- The letters behind a number, all of them of its unit.
def Lettered : Option Suffix → Text → Prop
  | none,   letters => letters = []
  | some x, letters => letters ≠ [] ∧ ∀ c ∈ letters, c ∈ x.letters

-- Digits with letters of one unit behind them.
structure Written (text digits : Text) (suffix : Option Suffix) (letters : Text) : Prop where
  ne_nil  : digits ≠ []
  isDigit : ∀ c ∈ digits, c.isDigit
  text_eq : text = digits ++ letters
  unit    : Lettered suffix letters

variable {u : UpperCase} {bound n : Nat} {units : Units} {what text digits letters rest : Text}
variable {suffix : Option Suffix} {x : Suffix} {c : Char}

-- A quantity: a run of digits and at most one letter.
def Denotes (units : Units) (text : Text) (n : Nat) : Prop :=
  ∃ digits suffix letters, Written text digits suffix letters ∧ letters.length ≤ 1 ∧
    n = Decimal.value digits * units.factor suffix

-- The letter of the unit is there more than once.
def Stuttered (text : Text) : Prop :=
  ∃ digits suffix letters, Written text digits suffix letters ∧ 1 < letters.length

theorem native_letter : Native x.letter := by
  cases x <;> decide

theorem mem_letters : c ∈ x.letters ↔ c.toUpper = x.letter := by
  constructor
  case mp =>
    have hl : ∀ c ∈ x.letters, c.toUpper = x.letter := by cases x <;> simp [Suffix.letters, Suffix.letter]
    exact hl c
  case mpr =>
    intro h
    have hl : c.toNat < 128 := Nat.lt_of_not_le fun hf => by
      rw [UpperCase.toUpper_of_foreign hf] at h
      exact absurd (h ▸ native_letter.left) (Nat.not_lt_of_le hf)
    have hm := UpperCase.forall_ascii (p := fun c => c.toUpper = x.letter → c ∈ x.letters)
      (by cases x <;> decide) hl
    exact hm h

def EndsWith (text : Text) (x : Suffix) : Prop :=
  ∃ c ∈ text.getLast?, c ∈ x.letters

def Ends (text : Text) : Option Suffix → Prop
  | none   => ∀ x, ¬EndsWith text x
  | some x => EndsWith text x

theorem getLast?_toUppercase : (u.toUppercase text).getLast? = some x.letter ↔ EndsWith text x := by
  rw [UpperCase.getLast?_toUppercase native_letter]
  exact exists_congr fun c => and_congr_right' mem_letters.symm

theorem EndsWith.eq {y : Suffix} (hx : EndsWith text x) (hy : EndsWith text y) : x = y := by
  have ⟨c, hc, hx⟩ := hx
  have ⟨d, hd, hy⟩ := hy
  have he : c = d := Option.mem_unique hc hd
  have hl := (mem_letters.mp hx).symm.trans (he ▸ mem_letters.mp hy)
  cases x <;> cases y <;> first | rfl | exact absurd hl (by decide)

theorem exists_ends : ∃ suffix, Ends text suffix := by
  by_cases h : ∃ x, EndsWith text x
  case pos => exact h.elim fun x hx => ⟨some x, hx⟩
  case neg => exact ⟨none, not_exists.mp h⟩

theorem splitSuffix_eq {strip : Char → Text → Text} (h : Ends text suffix) :
    splitSuffix strip units (u.toUppercase text) =
      (suffix.elim (u.toUppercase text) (strip ·.letter (u.toUppercase text)),
        units.factor suffix) := by
  have hg : (u.toUppercase text).getLast? = some 'G' ↔ EndsWith text .giga :=
    getLast?_toUppercase (x := .giga)
  have hm : (u.toUppercase text).getLast? = some 'M' ↔ EndsWith text .mega :=
    getLast?_toUppercase (x := .mega)
  have hk : (u.toUppercase text).getLast? = some 'K' ↔ EndsWith text .kilo :=
    getLast?_toUppercase (x := .kilo)
  unfold splitSuffix
  cases suffix
  case none => rw [if_neg (hg.not.mpr (h _)), if_neg (hm.not.mpr (h _)), if_neg (hk.not.mpr (h _))]; rfl
  case some x =>
    have hn (y : Suffix) (hy : x ≠ y) : ¬EndsWith text y := fun hw => hy (EndsWith.eq h hw)
    cases x
    case giga => rw [if_pos (hg.mpr h)]; rfl
    case mega => rw [if_neg (hg.not.mpr (hn _ nofun)), if_pos (hm.mpr h)]; rfl
    case kilo =>
      rw [if_neg (hg.not.mpr (hn _ nofun)), if_neg (hm.not.mpr (hn _ nofun)), if_pos (hk.mpr h)]
      rfl

theorem dropPlus_toUppercase : dropPlus (u.toUppercase text) = u.toUppercase (dropPlus text) := by
  have hp : Native '+' := by decide
  unfold dropPlus
  split
  case isTrue h =>
    have ⟨c, hc, he⟩ := (UpperCase.head?_toUppercase hp).mp h
    have ⟨tail, ht⟩ := List.head?_eq_some_iff.mp hc
    have hu : u.upper c = ['+'] := he ▸ UpperCase.upper_eq (he ▸ hp)
    have hl : c = '+' := by
      rw [← he]
      refine UpperCase.eq_of_toUpper (UpperCase.mem_upper (u := u) (d := '+') ?_ hp).left (.inr he)
      simp [hu]
    rw [ht, UpperCase.toUppercase_cons, hu, hl]
    rfl
  case isFalse h =>
    refine congrArg u.toUppercase (if_neg fun ht => h ?_).symm
    exact (UpperCase.head?_toUppercase hp).mpr ⟨'+', ht, by decide⟩

theorem Written.exists_rest (h : Written (dropPlus text) digits suffix letters) :
    ∃ rest, text = rest ++ letters ∧ dropPlus rest = digits :=
  Unsigned.dropPlus_eq_append h.text_eq

-- The upper case of what stands in front of the letters is read as what stands there itself.
theorem parse_toUppercase : Unsigned.parse bound (u.toUppercase rest) = .ok n ↔
    Decimal.Numeral bound (dropPlus rest) ∧ Decimal.value (dropPlus rest) = n := by
  rw [Unsigned.parse_ok, dropPlus_toUppercase]
  constructor
  case mp =>
    intro ⟨hn, hv⟩
    have he : u.toUppercase (dropPlus rest) = dropPlus rest :=
      UpperCase.toUppercase_digits (UpperCase.digits_of_toUppercase hn.digits)
    exact he ▸ ⟨hn, hv⟩
  case mpr =>
    intro ⟨hn, hv⟩
    rw [UpperCase.toUppercase_digits hn.digits]
    exact ⟨hn, hv⟩

-- What the two ways to strip the letters of a unit leave.
theorem parse_split (ht : text = rest ++ letters) (hl : Lettered suffix letters) :
    Unsigned.parse bound (u.toUppercase rest) = .ok n ↔
      Written (dropPlus text) (dropPlus rest) suffix letters ∧
        Decimal.value (dropPlus rest) = n ∧ n < bound := by
  rw [parse_toUppercase]
  constructor
  case mp =>
    intro ⟨hn, hv⟩
    have hr : rest ≠ [] := fun h => hn.ne_nil (by rw [h]; rfl)
    exact ⟨⟨hn.ne_nil, hn.digits, ht ▸ Unsigned.dropPlus_append hr, hl⟩, hv, hv ▸ hn.lt⟩
  case mpr =>
    intro ⟨hw, hv, hb⟩
    exact ⟨⟨hw.ne_nil, hw.isDigit, hv ▸ hb⟩, hv⟩

-- The letters a text ends with are not a part of its digits.
theorem Written.not_endsWith (h : Written (dropPlus text) digits suffix letters)
    (hr : dropPlus rest = digits) : ¬EndsWith rest x := by
  intro ⟨c, hc, hx⟩
  rw [← Unsigned.getLast?_dropPlus (hr ▸ h.ne_nil), hr] at hc
  have hn : ∀ c ∈ x.letters, ¬c.isDigit := by cases x <;> simp [Suffix.letters]
  exact hn c hx (h.isDigit c (List.mem_of_mem_getLast? hc))

theorem Written.ends (h : Written (dropPlus text) digits suffix letters) : Ends text suffix := by
  have ⟨rest, ht, hr⟩ := h.exists_rest
  have hu := h.unit
  cases suffix
  case none =>
    have hl : letters = [] := hu
    have he : text = rest := by rw [ht, hl, List.append_nil]
    exact fun x => he ▸ h.not_endsWith hr
  case some x =>
    have ⟨init, c, hc⟩ := List.eq_nil_or_concat' letters |>.resolve_left hu.left
    refine ⟨c, ?_, hu.right c (by simp [hc])⟩
    rw [ht, hc, ← List.append_assoc, List.getLast?_concat]
    rfl

theorem Ends.eq {suffix' : Option Suffix} (h : Ends text suffix) (h' : Ends text suffix') :
    suffix = suffix' := by
  cases suffix <;> cases suffix'
  case none.none   => rfl
  case none.some y => exact absurd h' (h y)
  case some.none x => exact absurd h (h' x)
  case some.some   => exact congrArg some (EndsWith.eq h h')

theorem parse_scaled {p : Text → Prop} (hf : 0 < units.factor suffix) (he : Ends text suffix)
    (ht : text = rest ++ letters) (hl : Lettered suffix letters) (hp : p letters)
    (hr : ∀ digits letters' rest', Written (dropPlus text) digits suffix letters' → p letters' →
      text = rest' ++ letters' → dropPlus rest' = digits → rest' = rest) :
    (∃ m, Unsigned.parse bound (u.toUppercase rest) = .ok m ∧ m * units.factor suffix < bound ∧
      m * units.factor suffix = n) ↔
    ∃ digits suffix letters, Written (dropPlus text) digits suffix letters ∧ p letters ∧
      n = Decimal.value digits * units.factor suffix ∧ n < bound := by
  simp only [parse_split ht hl]
  constructor
  case mp =>
    intro ⟨m, ⟨hw, hv, _⟩, hb, hn⟩
    exact ⟨_, suffix, letters, hw, hp, by rw [hv, hn], hn ▸ hb⟩
  case mpr =>
    intro ⟨digits, suffix', letters', hw, hp', hn, hb⟩
    have hs : suffix' = suffix := Ends.eq hw.ends he
    subst hs
    have ⟨rest', ht', hd⟩ := hw.exists_rest
    have hr := hr digits letters' rest' hw hp' ht' hd
    subst hr
    have hle : letters' = letters := List.append_cancel_left (ht'.symm.trans ht)
    have hm := Nat.le_mul_of_pos_right (Decimal.value digits) hf
    rw [hle, ← hd] at hw
    exact ⟨_, ⟨hw, rfl, by rw [hd]; omega⟩, by rw [hd]; omega, by rw [hd, hn]⟩

theorem Written.exists_trimmed (h : Written (dropPlus text) digits (some x) letters)
    (hr : dropPlus rest = digits) (ht : text = rest ++ letters) :
    text.rdropWhile (· ∈ x.letters) = rest := by
  have hs : rest.rdropWhile (· ∈ x.letters) = rest := by
    refine List.rdropWhile_eq_self_iff.mpr fun hn hp => ?_
    exact h.not_endsWith hr ⟨_, List.getLast?_eq_some_getLast hn, of_decide_eq_true hp⟩
  have hp : ∀ c ∈ letters.reverse, decide (c ∈ x.letters) := by
    simpa using h.unit.right
  rw [← hs, ht, List.rdropWhile, List.reverse_append, List.dropWhile_append_of_pos hp]
  rfl

theorem trimEndMatches_toUppercase :
    trimEndMatches x.letter (u.toUppercase text) =
      u.toUppercase (text.rdropWhile (· ∈ x.letters)) := by
  simp only [trimEndMatches, UpperCase.rdropWhile_toUppercase native_letter, mem_letters]

theorem exists_trimmed (h : Ends text suffix) : ∃ rest letters, text = rest ++ letters ∧
    Lettered suffix letters ∧
    suffix.elim (u.toUppercase text) (trimEndMatches ·.letter (u.toUppercase text)) =
      u.toUppercase rest ∧
    ∀ digits letters' rest', Written (dropPlus text) digits suffix letters' →
      text = rest' ++ letters' → dropPlus rest' = digits → rest' = rest := by
  cases suffix
  case none =>
    refine ⟨text, [], (List.append_nil _).symm, rfl, rfl, fun _ letters' _ hw ht _ => ?_⟩
    have hl : letters' = [] := hw.unit
    rw [ht, hl, List.append_nil]
  case some x =>
    refine ⟨text.rdropWhile (· ∈ x.letters), text.rtakeWhile (· ∈ x.letters),
      List.rdropWhile_append_rtakeWhile.symm, ⟨?_, ?_⟩, trimEndMatches_toUppercase,
      fun _ _ _ hw ht hr => (hw.exists_trimmed hr ht).symm⟩
    case refine_1 =>
      have ⟨c, hc, hx⟩ := h
      have ⟨init, hi⟩ := List.getLast?_eq_some_iff.mp hc
      rw [hi, List.rtakeWhile_concat, if_pos (by simpa using hx)]
      simp
    case refine_2 => exact fun c hc => by simpa using List.mem_rtakeWhile_imp hc

theorem parseTrimmed_ok (hf : ∀ suffix, 0 < units.factor suffix) :
    parseTrimmed u bound units what text = .ok n ↔
      ∃ digits suffix letters, Written (dropPlus text) digits suffix letters ∧
        n = Decimal.value digits * units.factor suffix ∧ n < bound := by
  have ⟨suffix, he⟩ := @exists_ends text
  have ⟨rest, letters, ht, hl, hs, hr⟩ := exists_trimmed (u := u) he
  have hp := @parse_scaled u bound n units text letters rest suffix (fun _ => True) (hf suffix) he ht hl
    trivial fun digits letters' rest' hw _ => hr digits letters' rest' hw
  simp only [true_and] at hp
  rw [← hp]
  simp only [parseTrimmed, splitSuffix_eq he, hs]
  cases Unsigned.parse bound (u.toUppercase rest)
  case error => simp
  case ok m  => simp only [ite_eq_iff]; simp

theorem factor_bitrateUnits (suffix : Option Suffix) : 0 < bitrateUnits.factor suffix := by
  rcases suffix with _ | _ | _ | _ <;> decide

theorem factor_sizeUnits (suffix : Option Suffix) : 0 < sizeUnits.factor suffix := by
  rcases suffix with _ | _ | _ | _ <;> decide

theorem exists_stripped (h : Ends text suffix) : ∃ rest letters, text = rest ++ letters ∧
    Lettered suffix letters ∧ letters.length ≤ 1 ∧
    suffix.elim (u.toUppercase text) (stripSuffix ·.letter (u.toUppercase text)) =
      u.toUppercase rest ∧
    ∀ letters' rest', Lettered suffix letters' → letters'.length ≤ 1 → text = rest' ++ letters' →
      rest' = rest := by
  cases suffix
  case none =>
    refine ⟨text, [], (List.append_nil _).symm, rfl, Nat.zero_le _, rfl,
      fun letters' _ hl _ ht => ?_⟩
    have hl : letters' = [] := hl
    rw [ht, hl, List.append_nil]
  case some x =>
    have ⟨c, hc, hx⟩ := h
    have ⟨init, hi⟩ := List.getLast?_eq_some_iff.mp hc
    refine ⟨init, [c], hi, ⟨by simp, by simpa using hx⟩, Nat.le_refl _, ?_,
      fun letters' rest' hl hn ht => ?_⟩
    case refine_1 =>
      have hd := UpperCase.dropLast_toUppercase native_letter (getLast?_toUppercase (u := u) |>.mpr h)
      rw [hi, List.dropLast_concat] at hd
      exact hi ▸ hd
    case refine_2 =>
      have hp := List.length_pos_of_ne_nil hl.left
      have ⟨d, hd⟩ := List.length_eq_one_iff.mp (Nat.le_antisymm hn hp)
      rw [hd, hi] at ht
      exact (List.append_inj_left' ht rfl).symm

theorem parseByteBudget_ok : parseByteBudget u text = .ok n ↔
    ∃ digits suffix letters, Written (dropPlus text) digits suffix letters ∧ letters.length ≤ 1 ∧
      n = Decimal.value digits * sizeUnits.factor suffix ∧ n < 2 ^ 64 ∧ n ≠ 0 := by
  have ⟨suffix, he⟩ := @exists_ends text
  have ⟨rest, letters, ht, hl, hn, hs, hr⟩ := exists_stripped (u := u) he
  have hp := @parse_scaled u (2 ^ 64) n sizeUnits text letters rest suffix (fun l => l.length ≤ 1)
    (factor_sizeUnits suffix) he ht hl hn
    fun _ letters' rest' hw hn ht _ => hr letters' rest' hw.unit hn ht
  have hz : (∃ digits suffix letters, Written (dropPlus text) digits suffix letters ∧
      letters.length ≤ 1 ∧ n = Decimal.value digits * sizeUnits.factor suffix ∧ n < 2 ^ 64 ∧ n ≠ 0) ↔
      (∃ digits suffix letters, Written (dropPlus text) digits suffix letters ∧
        letters.length ≤ 1 ∧ n = Decimal.value digits * sizeUnits.factor suffix ∧ n < 2 ^ 64) ∧ n ≠ 0 := by
    simp only [← and_assoc, exists_and_right]
  rw [hz, ← hp]
  simp only [parseByteBudget, splitSuffix_eq he, hs]
  cases Unsigned.parse (2 ^ 64) (u.toUppercase rest)
  case error => simp
  case ok m  =>
    simp only [Except.ok.injEq, exists_eq_left']
    generalize m * sizeUnits.factor suffix = k
    split
    case isFalse hb => exact iff_of_false nofun fun h => hb h.left.left
    case isTrue hb =>
      split
      case isTrue hz  => exact iff_of_false nofun fun h => h.right (h.left.right ▸ hz)
      case isFalse hz => exact ⟨fun h => ⟨⟨hb, Except.ok.inj h⟩, Except.ok.inj h ▸ hz⟩,
          fun h => congrArg _ h.left.right⟩

theorem Denotes.exists_iff (text : Text) (units units' : Units) :
    (∃ n, Denotes units text n) ↔ ∃ n, Denotes units' text n :=
  ⟨fun ⟨_, digits, suffix, letters, hw, hl, _⟩ => ⟨_, digits, suffix, letters, hw, hl, rfl⟩,
    fun ⟨_, digits, suffix, letters, hw, hl, _⟩ => ⟨_, digits, suffix, letters, hw, hl, rfl⟩⟩

theorem parseTrimmed_denotes (hf : ∀ suffix, 0 < units.factor suffix)
    (hs : ¬Stuttered (dropPlus text)) :
    parseTrimmed u bound units what text = .ok n ↔ Denotes units (dropPlus text) n ∧ n < bound := by
  rw [parseTrimmed_ok hf]
  constructor
  case mp =>
    intro ⟨digits, suffix, letters, hw, hn, hb⟩
    have hl : letters.length ≤ 1 := Nat.le_of_not_lt fun hl => hs ⟨digits, suffix, letters, hw, hl⟩
    exact ⟨⟨digits, suffix, letters, hw, hl, hn⟩, hb⟩
  case mpr =>
    intro ⟨⟨digits, suffix, letters, hw, _, hn⟩, hb⟩
    exact ⟨digits, suffix, letters, hw, hn, hb⟩

theorem parseByteBudget_denotes : parseByteBudget u text = .ok n ↔
    Denotes sizeUnits (dropPlus text) n ∧ n < 2 ^ 64 ∧ n ≠ 0 := by
  rw [parseByteBudget_ok]
  constructor
  case mp =>
    intro ⟨digits, suffix, letters, hw, hl, hn, hb, hz⟩
    exact ⟨⟨digits, suffix, letters, hw, hl, hn⟩, hb, hz⟩
  case mpr =>
    intro ⟨⟨digits, suffix, letters, hw, hl, hn⟩, hb, hz⟩
    exact ⟨digits, suffix, letters, hw, hl, hn, hb, hz⟩

-- A number may have a sign in front of it. A repeated letter is only refused as a byte budget.
theorem quantities_parsed (u : UpperCase) (usizeBound : Nat) (text : Text) :
    (∀ n, parseByteBudget u text = .ok n ↔
      Denotes sizeUnits (dropPlus text) n ∧ n < 2 ^ 64 ∧ n ≠ 0) ∧
    (¬Stuttered (dropPlus text) →
      (∀ n, parseBitrate u text = .ok n ↔ Denotes bitrateUnits (dropPlus text) n ∧ n < 2 ^ 64) ∧
      (∀ n, parseSize u usizeBound text = .ok n ↔
        Denotes sizeUnits (dropPlus text) n ∧ n < usizeBound)) ∧
    ((∃ n, Denotes bitrateUnits (dropPlus text) n) ↔ ∃ n, Denotes sizeUnits (dropPlus text) n) :=
  ⟨fun _ => parseByteBudget_denotes,
    fun hs => ⟨fun _ => parseTrimmed_denotes factor_bitrateUnits hs,
      fun _ => parseTrimmed_denotes factor_sizeUnits hs⟩,
    Denotes.exists_iff _ _ _⟩

theorem quantities_parsed_rate :
    parseBitrate .asciiOnly "5g".toList = .ok 5000000000 ∧ ¬Stuttered (dropPlus "5g".toList) := by
  have hd : dropPlus "5g".toList = ['5', 'g'] := by decide
  have hs : ¬Stuttered (dropPlus "5g".toList) := by
    intro ⟨digits, suffix, letters, hw, hl⟩
    have ht := congrArg List.length (hd ▸ hw.text_eq)
    have := List.length_pos_of_ne_nil hw.ne_nil
    simp at ht
    omega
  refine ⟨((quantities_parsed .asciiOnly (2 ^ 64) "5g".toList).right.left hs).left _ |>.mpr ?_, hs⟩
  have hw : Written (dropPlus "5g".toList) ['5'] (some .giga) ['g'] :=
    ⟨by decide, by simp, hd, by decide, by simp [Suffix.letters]⟩
  exact ⟨⟨_, _, _, hw, by decide, by decide⟩, by decide⟩

theorem sign_parsed : parseBitrate .asciiOnly "+5".toList = .ok 5 ∧
    parseByteBudget .asciiOnly "+5".toList = .ok 5 ∧ ¬∃ n, Denotes bitrateUnits "+5".toList n := by
  refine ⟨by decide, by decide, fun ⟨n, digits, suffix, letters, hw, _⟩ => ?_⟩
  have ⟨c, rest, hc⟩ := List.exists_cons_of_ne_nil hw.ne_nil
  have ht := hw.text_eq
  rw [hc, List.cons_append] at ht
  have hp : '+' = c := (List.cons_eq_cons.mp ht).left
  have hd := hw.isDigit c (by simp [hc])
  rw [← hp] at hd
  exact absurd hd (by decide)

end Quantity
