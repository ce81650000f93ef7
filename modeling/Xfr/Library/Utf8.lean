import Xfr.Library.Bytes

-- Text as a list of characters, its encoding as bytes, and the decoder which never fails: every
-- longest part of a sequence which is not well-formed becomes one replacement character.
namespace Utf8

abbrev Text := List Char

def encode (text : Text) : Bytes :=
  text.flatMap String.utf8EncodeChar

def replacement : Char :=
  '\uFFFD'

-- A byte which cannot start a character.
def isContinuation (b : UInt8) : Bool :=
  0x80 ≤ b.toNat && b.toNat < 0xC0

-- Whether the second byte of a sequence may follow its first. Overlong sequences, surrogates, and
-- values beyond the last character are ruled out here.
def follows (a b : UInt8) : Bool :=
  let low  := if a.toNat = 0xE0 then 0xA0 else if a.toNat = 0xF0 then 0x90 else 0x80
  let high := if a.toNat = 0xED then 0xA0 else if a.toNat = 0xF4 then 0x90 else 0xC0
  low ≤ b.toNat && b.toNat < high

inductive State
  | start
  -- The first byte of a longer sequence was read.
  | second (a : UInt8)
  -- There are `missing + 1` more bytes to come.
  | more (missing value : Nat)

-- The number of bytes after the second one and the bits which the first one contributes.
def lead (a : UInt8) : Nat × Nat :=
  if a.toNat < 0xE0 then (0, a.toNat - 0xC0)
  else if a.toNat < 0xF0 then (1, a.toNat - 0xE0)
  else (2, a.toNat - 0xF0)

def first (a : UInt8) : Text × State :=
  if a.toNat < 0x80 then ([Char.ofNat a.toNat], .start)
  else if 0xC2 ≤ a.toNat && a.toNat < 0xF5 then ([], .second a)
  else ([replacement], .start)

def continued (missing value : Nat) : Text × State :=
  match missing with
  | 0           => ([Char.ofNat value], .start)
  | missing + 1 => ([], .more missing value)

def abandon (b : UInt8) : Text × State :=
  (replacement :: (first b).1, (first b).2)

def step : State → UInt8 → Text × State
  | .start, b => first b
  | .second a, b =>
    if follows a b then continued (lead a).1 ((lead a).2 * 64 + (b.toNat - 0x80)) else abandon b
  | .more missing value, b =>
    if isContinuation b then continued missing (value * 64 + (b.toNat - 0x80)) else abandon b

def State.finish : State → Text
  | .start => []
  | _      => [replacement]

def decodeFrom (state : State) : Bytes → Text
  | []      => state.finish
  | b :: bs => (step state b).1 ++ decodeFrom (step state b).2 bs

def decodeLossy (bs : Bytes) : Text :=
  decodeFrom .start bs

@[simp]
theorem encode_nil : encode [] = [] :=
  rfl

@[simp]
theorem encode_cons {c : Char} {text : Text} :
    encode (c :: text) = String.utf8EncodeChar c ++ encode text :=
  rfl

@[simp]
theorem encode_append {text text' : Text} : encode (text ++ text') = encode text ++ encode text' :=
  List.flatMap_append

section EncodeChar

variable {c : Char} {a b b' b'' : UInt8} {bs : Bytes}

theorem toNat_range : c.toNat < 0xD800 ∨ (0xDFFF < c.toNat ∧ c.toNat < 0x110000) :=
  c.valid

-- A character is encoded as one byte which starts it, and up to three which continue it.
theorem encodeChar_eq_cons : ∃ b bs, String.utf8EncodeChar c = b :: bs ∧
    isContinuation b = false ∧ ∀ b' ∈ bs, isContinuation b' = true := by
  unfold String.utf8EncodeChar
  rw [show c.val.toNat = c.toNat from rfl]
  have hv := toNat_range (c := c)
  generalize c.toNat = v at hv ⊢
  dsimp only
  split
  · exact ⟨_, [], rfl, by simp [isContinuation]; omega, by simp⟩
  · split
    · refine ⟨_, _, rfl, ?_, ?_⟩ <;> simp [isContinuation] <;> omega
    · split
      · refine ⟨_, _, rfl, ?_, ?_⟩ <;> simp [isContinuation] <;> omega
      · refine ⟨_, _, rfl, ?_, ?_⟩ <;> simp [isContinuation] <;> omega

-- A byte below 0x80 stands for the character with its own number.
theorem toNat_eq_of_mem_encodeChar (h : b ∈ String.utf8EncodeChar c) (hb : b.toNat < 0x80) :
    c.toNat = b.toNat := by
  unfold String.utf8EncodeChar at h
  rw [show c.val.toNat = c.toNat from rfl] at h
  have hv := toNat_range (c := c)
  generalize c.toNat = v at hv h ⊢
  dsimp only at h
  split_ifs at h
  all_goals
    simp only [List.mem_cons, List.not_mem_nil, or_false] at h
    rcases h with rfl | rfl | rfl | rfl <;> simp at hb ⊢ <;> omega

theorem first_eq_second (hl : 0xC2 ≤ a.toNat) (hu : a.toNat < 0xF5) : first a = ([], .second a) := by
  simp [first, hl, hu, Nat.not_lt_of_le (show 0x80 ≤ a.toNat by omega)]

theorem decodeLossy_one (h : a.toNat < 0x80) :
    decodeLossy (a :: bs) = Char.ofNat a.toNat :: decodeLossy bs := by
  simp [decodeLossy, decodeFrom, step, first, h]

theorem decodeLossy_two (hl : 0xC2 ≤ a.toNat) (hu : a.toNat < 0xE0) (hb : follows a b) :
    decodeLossy (a :: b :: bs) =
      Char.ofNat ((a.toNat - 0xC0) * 64 + (b.toNat - 0x80)) :: decodeLossy bs := by
  simp [decodeLossy, decodeFrom, step, first_eq_second hl (by omega), hb, lead, hu, continued]

theorem decodeLossy_three (hl : 0xE0 ≤ a.toNat) (hu : a.toNat < 0xF0) (hb : follows a b)
    (hb' : isContinuation b') :
    decodeLossy (a :: b :: b' :: bs) =
      Char.ofNat (((a.toNat - 0xE0) * 64 + (b.toNat - 0x80)) * 64 + (b'.toNat - 0x80)) ::
        decodeLossy bs := by
  simp [decodeLossy, decodeFrom, step, first_eq_second (show 0xC2 ≤ a.toNat by omega) (by omega),
    hb, hb', lead, Nat.not_lt_of_le hl, hu, continued]

theorem decodeLossy_four (hl : 0xF0 ≤ a.toNat) (hu : a.toNat < 0xF5) (hb : follows a b)
    (hb' : isContinuation b') (hb'' : isContinuation b'') :
    decodeLossy (a :: b :: b' :: b'' :: bs) =
      Char.ofNat ((((a.toNat - 0xF0) * 64 + (b.toNat - 0x80)) * 64 + (b'.toNat - 0x80)) * 64 +
        (b''.toNat - 0x80)) :: decodeLossy bs := by
  simp [decodeLossy, decodeFrom, step, first_eq_second (show 0xC2 ≤ a.toNat by omega) hu,
    hb, hb', hb'', lead, Nat.not_lt_of_le hl, Nat.not_lt_of_le (show 0xE0 ≤ a.toNat by omega),
    continued]

theorem toNat_ofNat_of_lt {n : Nat} (h : n < 256) : (UInt8.ofNat n).toNat = n := by
  simpa using h

theorem decodeLossy_encodeChar :
    decodeLossy (String.utf8EncodeChar c ++ bs) = c :: decodeLossy bs := by
  have hc : Char.ofNat c.toNat = c := c.ofNat_toNat
  have hv := toNat_range (c := c)
  unfold String.utf8EncodeChar
  rw [show c.val.toNat = c.toNat from rfl]
  generalize c.toNat = v at hv hc ⊢
  dsimp only
  split
  case isTrue h =>
    have ha : (UInt8.ofNat v).toNat = v := toNat_ofNat_of_lt (by omega)
    rw [List.cons_append, List.nil_append, decodeLossy_one (by omega), ha, hc]
  case isFalse =>
    split
    case isTrue h =>
      have ha := toNat_ofNat_of_lt (n := v / 64 % 32 + 0xC0) (by omega)
      have hb := toNat_ofNat_of_lt (n := v % 64 + 0x80) (by omega)
      simp only [List.cons_append, List.nil_append]
      rw [decodeLossy_two (by omega) (by omega), ha, hb,
        show (v / 64 % 32 + 0xC0 - 0xC0) * 64 + (v % 64 + 0x80 - 0x80) = v by omega, hc]
      · simp only [follows, ha, hb, Bool.and_eq_true, decide_eq_true_eq]
        constructor <;> split_ifs <;> omega
    case isFalse =>
      split
      case isTrue h =>
        have ha := toNat_ofNat_of_lt (n := v / 4096 % 16 + 0xE0) (by omega)
        have hb := toNat_ofNat_of_lt (n := v / 64 % 64 + 0x80) (by omega)
        have hb' := toNat_ofNat_of_lt (n := v % 64 + 0x80) (by omega)
        simp only [List.cons_append, List.nil_append]
        rw [decodeLossy_three (by omega) (by omega), ha, hb, hb',
          show ((v / 4096 % 16 + 0xE0 - 0xE0) * 64 + (v / 64 % 64 + 0x80 - 0x80)) * 64 +
            (v % 64 + 0x80 - 0x80) = v by omega, hc]
        · simp only [follows, ha, hb, Bool.and_eq_true, decide_eq_true_eq]
          constructor <;> split_ifs <;> omega
        · simp only [isContinuation, hb', Bool.and_eq_true, decide_eq_true_eq]; omega
      case isFalse =>
        have ha := toNat_ofNat_of_lt (n := v / 262144 % 8 + 0xF0) (by omega)
        have hb := toNat_ofNat_of_lt (n := v / 4096 % 64 + 0x80) (by omega)
        have hb' := toNat_ofNat_of_lt (n := v / 64 % 64 + 0x80) (by omega)
        have hb'' := toNat_ofNat_of_lt (n := v % 64 + 0x80) (by omega)
        simp only [List.cons_append, List.nil_append]
        rw [decodeLossy_four (by omega) (by omega), ha, hb, hb', hb'',
          show (((v / 262144 % 8 + 0xF0 - 0xF0) * 64 + (v / 4096 % 64 + 0x80 - 0x80)) * 64 +
            (v / 64 % 64 + 0x80 - 0x80)) * 64 + (v % 64 + 0x80 - 0x80) = v by omega, hc]
        · simp only [follows, ha, hb, Bool.and_eq_true, decide_eq_true_eq]
          constructor <;> split_ifs <;> omega
        · simp only [isContinuation, hb', Bool.and_eq_true, decide_eq_true_eq]; omega
        · simp only [isContinuation, hb'', Bool.and_eq_true, decide_eq_true_eq]; omega

end EncodeChar

@[simp]
theorem decodeLossy_encode {text : Text} : decodeLossy (encode text) = text := by
  induction text
  case nil         => rfl
  case cons c _ hi => rw [encode_cons, decodeLossy_encodeChar, hi]

theorem encode_injective {text text' : Text} (h : encode text = encode text') : text = text' := by
  rw [← @decodeLossy_encode text, h, decodeLossy_encode]

-- Whether a piece of a longer text begins in the middle of a character.
def startsInside (piece : Bytes) : Bool :=
  piece.head?.any isContinuation

-- The number of characters which start in a piece.
def starts (bs : Bytes) : Nat :=
  bs.countP (!isContinuation ·)

def State.owed : State → Nat
  | .start => 0
  | _      => 1

@[simp]
theorem owed_start : State.start.owed = 0 :=
  rfl

@[simp]
theorem owed_second {a : UInt8} : (State.second a).owed = 1 :=
  rfl

@[simp]
theorem owed_more {missing value : Nat} : (State.more missing value).owed = 1 :=
  rfl

theorem isContinuation_of_follows {a b : UInt8} (h : follows a b) : isContinuation b := by
  simp only [follows, isContinuation, Bool.and_eq_true, decide_eq_true_eq] at *
  constructor
  · have := h.left
    split_ifs at this <;> omega
  · have := h.right
    split_ifs at this <;> omega

theorem first_length {b : UInt8} : (first b).1.length + (first b).2.owed = 1 := by
  unfold first
  split
  · rfl
  · split <;> rfl

theorem continued_length {missing value : Nat} :
    (continued missing value).1.length + (continued missing value).2.owed = 1 := by
  cases missing <;> rfl

theorem abandon_length {b : UInt8} : (abandon b).1.length + (abandon b).2.owed = 2 := by
  have := first_length (b := b)
  simp only [abandon, List.length_cons]
  omega

-- Every byte which starts a character yields a character of its own, sooner or later.
theorem step_length {state : State} {b : UInt8} :
    state.owed + starts [b] ≤ (step state b).1.length + (step state b).2.owed := by
  have hs : starts [b] ≤ 1 := List.countP_le_length
  cases state
  case start =>
    have := first_length (b := b)
    simp only [step, owed_start]
    omega
  case second a =>
    simp only [step, owed_second]
    split
    case isTrue h  => simp [continued_length, starts, isContinuation_of_follows h]
    case isFalse   => rw [abandon_length]; omega
  case more missing value =>
    simp only [step, owed_more]
    split
    case isTrue h  => simp [continued_length, starts, h]
    case isFalse   => rw [abandon_length]; omega

theorem starts_le_length {state : State} {bs : Bytes} :
    state.owed + starts bs ≤ (decodeFrom state bs).length := by
  induction bs generalizing state
  case nil => cases state <;> simp [decodeFrom, State.finish, State.owed, starts]
  case cons b bs hi =>
    have hs : state.owed + starts [b] ≤ _ := step_length
    have hi : (step state b).2.owed + starts bs ≤ _ := hi
    have hc : starts ([b] ++ bs) = starts [b] + starts bs := List.countP_append
    rw [List.singleton_append] at hc
    rw [decodeFrom, List.length_append]
    omega

-- A piece which begins inside of a character yields one replacement character too many.
theorem starts_lt_length {bs : Bytes} (h : startsInside bs) :
    starts bs < (decodeLossy bs).length := by
  cases bs
  case nil => simp [startsInside] at h
  case cons b bs =>
    have hb : isContinuation b := by simpa [startsInside] using h
    have hr : State.start.owed + starts bs ≤ _ := starts_le_length
    have hf : first b = ([replacement], .start) := by
      simp only [isContinuation, Bool.and_eq_true, decide_eq_true_eq] at hb
      simp [first, show ¬b.toNat < 0x80 by omega, show ¬0xC2 ≤ b.toNat by omega]
    simp only [decodeLossy, decodeFrom, step, hf]
    simp only [owed_start, starts] at hr
    simp only [starts, List.countP_cons, hb, List.length_append, List.length_singleton]
    simp
    omega

theorem starts_encode {text : Text} : starts (encode text) = text.length := by
  induction text
  case nil => rfl
  case cons c text hi =>
    have ⟨b, bs, he, hb, hbs⟩ := encodeChar_eq_cons (c := c)
    have hz : bs.countP (!isContinuation ·) = 0 := by
      simpa [List.countP_eq_zero] using hbs
    simp only [starts] at hi
    simp [starts, he, hb, hz, hi]

theorem startsInside_append {p q : Bytes} (h : p ≠ []) :
    startsInside (p ++ q) = startsInside p := by
  cases p
  case nil      => contradiction
  case cons _ _ => rfl

theorem startsInside_take {p : Bytes} {n : Nat} (h : 0 < n) :
    startsInside (p.take n) = startsInside p := by
  simp [startsInside, List.head?_take, Nat.ne_of_gt h]

theorem startsInside_encode {text : Text} {bs : Bytes} (h : startsInside bs = false) :
    startsInside (encode text ++ bs) = false := by
  cases text
  case nil => exact h
  case cons c text =>
    have ⟨b, _, he, hb, _⟩ := encodeChar_eq_cons (c := c)
    simp [he, startsInside, hb]

-- Encoded text which is cut between two characters is cut into two encoded texts.
theorem encode_eq_append {text : Text} {p q : Bytes} (h : encode text = p ++ q)
    (hq : startsInside q = false) : ∃ t t', text = t ++ t' ∧ p = encode t ∧ q = encode t' := by
  induction text generalizing p
  case nil =>
    have ⟨hp, hq⟩ := List.append_eq_nil_iff.mp h.symm
    exact ⟨[], [], rfl, hp, hq⟩
  case cons c text hi =>
    have ⟨b, bs, he, hb, hbs⟩ := encodeChar_eq_cons (c := c)
    rw [encode_cons] at h
    rcases List.append_eq_append_iff.mp h with ⟨p', hp, ht⟩ | ⟨q', hc, hq'⟩
    case inl =>
      have ⟨t, t', ht, hp', hq⟩ := hi ht
      exact ⟨c :: t, t', by simp [ht], by simp [hp, hp'], hq⟩
    case inr =>
      cases p
      case nil => exact ⟨[], c :: text, rfl, rfl, by simpa using h.symm⟩
      case cons b' p =>
        cases q'
        case nil =>
          exact ⟨[c], text, rfl, by simpa [encode] using hc.symm, by simpa using hq'⟩
        case cons b'' q' =>
          have : isContinuation b'' := by
            refine hbs b'' ?_
            rw [he] at hc
            simp [(List.cons.inj hc).right]
          simp [hq', startsInside, this] at hq

theorem startsInside_flatten {pieces : List Bytes} (hn : ∀ p ∈ pieces, p ≠ [])
    (h : ∀ p ∈ pieces, startsInside p = false) : startsInside pieces.flatten = false := by
  cases pieces
  case nil => rfl
  case cons p _ =>
    rw [List.flatten_cons, startsInside_append (hn p (by simp))]
    exact h p (by simp)

theorem starts_flatten_le {pieces : List Bytes} :
    starts pieces.flatten ≤ (pieces.flatMap decodeLossy).length := by
  induction pieces
  case nil => simp [starts]
  case cons p pieces hi =>
    have hp : State.start.owed + starts p ≤ (decodeLossy p).length := starts_le_length
    have ha : starts (p ++ pieces.flatten) = starts p + starts pieces.flatten :=
      List.countP_append
    simp only [owed_start] at hp
    simp only [List.flatten_cons, List.flatMap_cons, List.length_append, ha]
    omega

theorem starts_flatten_lt {pieces : List Bytes} {p : Bytes} (hm : p ∈ pieces)
    (h : startsInside p) : starts pieces.flatten < (pieces.flatMap decodeLossy).length := by
  have ⟨before, after, he⟩ := List.append_of_mem hm
  have hp := starts_lt_length h
  have hb : starts before.flatten ≤ _ := starts_flatten_le
  have ha : starts after.flatten ≤ _ := starts_flatten_le
  simp only [he, starts, List.flatten_append, List.flatten_cons, List.flatMap_append,
    List.flatMap_cons, List.length_append, List.countP_append] at *
  omega

-- Decoding a text piece by piece gives the text back exactly if no piece begins inside of one of
-- its characters.
theorem flatMap_decodeLossy_eq_iff {text : Text} {pieces : List Bytes}
    (h : pieces.flatten = encode text) (hn : ∀ p ∈ pieces, p ≠ []) :
    pieces.flatMap decodeLossy = text ↔ ∀ p ∈ pieces, startsInside p = false := by
  constructor
  case mp =>
    intro he p hm
    by_contra hc
    have := starts_flatten_lt hm (by simpa using hc)
    rw [h, starts_encode, he] at this
    exact Nat.lt_irrefl _ this
  case mpr =>
    intro hs
    induction pieces generalizing text
    case nil =>
      have hl : starts (encode text) = text.length := starts_encode
      rw [← h] at hl
      simpa [starts, eq_comm] using hl
    case cons p pieces hi =>
      have ⟨hp, hn⟩ := List.forall_mem_cons.mp hn
      have ⟨_, hs⟩ := List.forall_mem_cons.mp hs
      have ⟨t, t', ht, hpt, hq⟩ := encode_eq_append h.symm (startsInside_flatten hn hs)
      rw [List.flatMap_cons, hi hq hn hs, hpt, decodeLossy_encode, ht]

end Utf8
