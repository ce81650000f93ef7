import Mathlib.Algebra.Order.Ring.Int
import Mathlib.Data.Set.Basic
import Xfr.Library.Whitespace

open Utf8 (Text)

-- A set of texts none of which is the beginning of another one.
def PrefixFree {α : Type*} (texts : Set (List α)) : Prop :=
  ∀ s ∈ texts, ∀ t ∈ texts, s <+: t → s = t

-- In a concatenation, it is clear where a text of the set ends.
theorem PrefixFree.append_inj {α : Type*} {texts : Set (List α)} {s t s' t' : List α}
    (h : PrefixFree texts) (hs : s ∈ texts) (ht : t ∈ texts) (he : s ++ s' = t ++ t') :
    s = t ∧ s' = t' := by
  have hst : s = t := by
    rcases List.append_eq_append_iff.mp he with ⟨u, hu, _⟩ | ⟨u, hu, _⟩
    case inl => exact h s hs t ht ⟨u, hu.symm⟩
    case inr => exact (h t ht s hs ⟨u, hu.symm⟩).symm
  exact ⟨hst, List.append_cancel_left (hst ▸ he)⟩

-- The texts of JSON values as syntax trees which keep all characters, and a scanner which follows
-- their nesting.
namespace JsonText

inductive Blank
  | space
  | tab
  | newline
  | carriageReturn

def Blank.char : Blank → Char
  | space          => ' '
  | tab            => '\t'
  | newline        => '\n'
  | carriageReturn => '\r'

inductive Escape
  | quote
  | backslash
  | slash
  | backspace
  | formFeed
  | newline
  | carriageReturn
  | tab

def Escape.char : Escape → Char
  | quote          => '"'
  | backslash      => '\\'
  | slash          => '/'
  | backspace      => 'b'
  | formFeed       => 'f'
  | newline        => 'n'
  | carriageReturn => 'r'
  | tab            => 't'

def isHexDigit (c : Char) : Bool :=
  c.isDigit || ('a' ≤ c && c ≤ 'f') || ('A' ≤ c && c ≤ 'F')

-- What a string is made of. Control characters have to be escaped.
inductive Piece
  | plain (c : Char) (h : 0x20 ≤ c.toNat ∧ c ≠ '"' ∧ c ≠ '\\')
  | escape (e : Escape)
  | unicode (digits : Text) (h : digits.length = 4 ∧ ∀ c ∈ digits, isHexDigit c = true)

def Piece.text : Piece → Text
  | plain c _        => [c]
  | escape e         => ['\\', e.char]
  | unicode digits _ => '\\' :: 'u' :: digits

def quoted (pieces : List Piece) : Text :=
  '"' :: pieces.flatMap Piece.text ++ ['"']

structure Digits where
  text    : Text
  ne_nil  : text ≠ []
  isDigit : ∀ c ∈ text, c.isDigit = true

inductive Sign
  | plus
  | minus

def Sign.char : Sign → Char
  | plus  => '+'
  | minus => '-'

structure Number where
  negative    : Bool
  whole       : Digits
  noZero      : whole.text.head? = some '0' → whole.text = ['0']
  fraction    : Option Digits
  exponent    : Option (Bool × Option Sign × Digits)

def Number.text (n : Number) : Text :=
  (if n.negative then ['-'] else []) ++ n.whole.text ++
    n.fraction.elim [] (fun digits => '.' :: digits.text) ++
    n.exponent.elim [] (fun (upper, sign, digits) =>
      (if upper then 'E' else 'e') :: (sign.toList.map Sign.char ++ digits.text))

inductive Symbol
  | value
  | element
  | elements
  | member
  | members

inductive Tree : Symbol → Type
  | null : Tree .value
  | bool (b : Bool) : Tree .value
  | number (n : Number) : Tree .value
  | string (pieces : List Piece) : Tree .value
  | emptyArray (blanks : List Blank) : Tree .value
  | array (items : Tree .elements) : Tree .value
  | emptyObject (blanks : List Blank) : Tree .value
  | object (items : Tree .members) : Tree .value
  | element (left : List Blank) (value : Tree .value) (right : List Blank) : Tree .element
  | lastElement (item : Tree .element) : Tree .elements
  | elements (item : Tree .element) (rest : Tree .elements) : Tree .elements
  | member (left : List Blank) (name : List Piece) (right : List Blank) (value : Tree .element) :
    Tree .member
  | lastMember (item : Tree .member) : Tree .members
  | members (item : Tree .member) (rest : Tree .members) : Tree .members

namespace Tree

def text {s : Symbol} : Tree s → Text
  | null                           => "null".toList
  | bool b                         => (if b then "true" else "false").toList
  | number n                       => n.text
  | string pieces                  => quoted pieces
  | emptyArray blanks              => '[' :: blanks.map Blank.char ++ [']']
  | array items                    => '[' :: items.text ++ [']']
  | emptyObject blanks             => '{' :: blanks.map Blank.char ++ ['}']
  | object items                   => '{' :: items.text ++ ['}']
  | element left value right       => left.map Blank.char ++ value.text ++ right.map Blank.char
  | lastElement item               => item.text
  | elements item rest             => item.text ++ ',' :: rest.text
  | member left name right value   =>
    left.map Blank.char ++ quoted name ++ right.map Blank.char ++ ':' :: value.text
  | lastMember item                => item.text
  | members item rest              => item.text ++ ',' :: rest.text

-- Objects and arrays are enclosed in brackets.
def isComposite {s : Symbol} : Tree s → Bool
  | emptyArray _  => true
  | array _       => true
  | emptyObject _ => true
  | object _      => true
  | _             => false

end Tree

inductive Mode
  | outside
  | inside
  | escaped

structure State where
  depth : Int
  mode  : Mode

def step : State → Char → State
  | ⟨depth, .outside⟩, c =>
    if c = '"' then ⟨depth, .inside⟩
    else if c = '{' ∨ c = '[' then ⟨depth + 1, .outside⟩
    else if c = '}' ∨ c = ']' then ⟨depth - 1, .outside⟩
    else ⟨depth, .outside⟩
  | ⟨depth, .inside⟩,  c =>
    if c = '"' then ⟨depth, .outside⟩
    else if c = '\\' then ⟨depth, .escaped⟩
    else ⟨depth, .inside⟩
  | ⟨depth, .escaped⟩, _ => ⟨depth, .inside⟩

def scan (s : State) (t : Text) : State :=
  t.foldl step s

-- All along a text, the scanner stays at a depth or below it.
def Below (depth : Int) : State → Text → Prop
  | s, []     => depth ≤ s.depth
  | s, c :: t => depth ≤ s.depth ∧ Below depth (step s c) t

-- A part of a text which leaves the scanner as it was, and never goes below its depth.
def Level (mode : Mode) (t : Text) : Prop :=
  ∀ depth, scan ⟨depth, mode⟩ t = ⟨depth, mode⟩ ∧ Below depth ⟨depth, mode⟩ t

variable {s : State} {t t' : Text} {depth : Int}

@[simp]
theorem scan_nil : scan s [] = s :=
  rfl

@[simp]
theorem scan_cons {c : Char} : scan s (c :: t) = scan (step s c) t :=
  rfl

@[simp]
theorem scan_append : scan s (t ++ t') = scan (scan s t) t' :=
  List.foldl_append

theorem Below.depth_le (h : Below depth s t) : depth ≤ s.depth := by
  cases t
  case nil  => exact h
  case cons => exact h.left

theorem below_append : Below depth s (t ++ t') ↔ Below depth s t ∧ Below depth (scan s t) t' := by
  induction t generalizing s
  case nil          => exact ⟨fun h => ⟨h.depth_le, h⟩, And.right⟩
  case cons _ _ hi  => simp [Below, hi, and_assoc]

theorem Below.mono {depth' : Int} (h : Below depth s t) (hd : depth' ≤ depth) :
    Below depth' s t := by
  induction t generalizing s
  case nil         => exact hd.trans h
  case cons _ _ hi => exact ⟨hd.trans h.left, hi h.right⟩

theorem Below.scan_depth (h : Below depth s t) (hp : t' <+: t) : depth ≤ (scan s t').depth := by
  have ⟨_, ht⟩ := hp
  exact (below_append.mp (ht ▸ h)).right.depth_le

namespace Level

variable {mode mode' : Mode}

theorem nil : Level mode [] :=
  fun depth => ⟨rfl, le_refl depth⟩

theorem append (h : Level mode t) (h' : Level mode t') : Level mode (t ++ t') := by
  intro depth
  have ⟨hs, hb⟩ := h depth
  have ⟨hs', hb'⟩ := h' depth
  exact ⟨by rw [scan_append, hs, hs'], below_append.mpr ⟨hb, hs.symm ▸ hb'⟩⟩

theorem flatMap {α : Type*} {f : α → Text} {l : List α} (h : ∀ a ∈ l, Level mode (f a)) :
    Level mode (l.flatMap f) := by
  induction l
  case nil         => exact nil
  case cons a l hi => exact append (h a (by simp)) (hi fun a ha => h a (by simp [ha]))

theorem of_steps (h : ∀ c ∈ t, ∀ depth, step ⟨depth, mode⟩ c = ⟨depth, mode⟩) : Level mode t := by
  induction t
  case nil         => exact nil
  case cons c t hi =>
    intro depth
    have hc := h c (by simp) depth
    have ⟨hs, hb⟩ := hi (fun c hc => h c (by simp [hc])) depth
    exact ⟨by rw [scan_cons, hc, hs], le_refl depth, hc.symm ▸ hb⟩

-- The delimiters may lead to another mode, or to a greater depth.
theorem enclosed {l r : Char} {k : Int} (hk : 0 ≤ k)
    (hl : ∀ depth, step ⟨depth, mode⟩ l = ⟨depth + k, mode'⟩)
    (hr : ∀ depth, step ⟨depth + k, mode'⟩ r = ⟨depth, mode⟩) (h : Level mode' t) :
    Level mode (l :: t ++ [r]) := by
  intro depth
  have ⟨hs, hb⟩ := h (depth + k)
  refine ⟨by simp [hl, hs, hr], ?_⟩
  simp only [List.cons_append, Below, hl, below_append, hs, hr]
  exact ⟨le_refl depth, hb.mono (by omega), by omega, le_refl depth⟩

end Level

def isNeutral (c : Char) : Bool :=
  c ∉ ['"', '{', '}', '[', ']']

theorem level_of_neutral (h : t.all isNeutral = true) : Level .outside t := by
  refine .of_steps fun c hc depth => ?_
  have hn := List.all_eq_true.mp h c hc
  simp [isNeutral] at hn
  simp [step, hn]

theorem isNeutral_of_isDigit {c : Char} (h : c.isDigit = true) : isNeutral c = true := by
  have hd : ['"', '{', '}', '[', ']'].all (fun c => !c.isDigit) = true := rfl
  simp only [isNeutral, decide_eq_true_eq]
  intro hc
  have hc := List.all_eq_true.mp hd c hc
  simp [h] at hc

theorem Digits.level {digits : Digits} : Level .outside digits.text :=
  level_of_neutral <| List.all_eq_true.mpr fun c hc => isNeutral_of_isDigit (digits.isDigit c hc)

theorem Number.level {n : Number} : Level .outside n.text := by
  refine .append (.append (.append ?_ Digits.level) ?_) ?_
  · cases n.negative <;> exact level_of_neutral (by decide)
  · cases n.fraction
    case none        => exact .nil
    case some digits => exact .append (t := ['.']) (level_of_neutral (by decide)) digits.level
  · rcases n.exponent with _ | ⟨upper, sign, digits⟩
    case none => exact .nil
    case some =>
      refine .append (t := [_]) ?_ (.append ?_ digits.level)
      · cases upper <;> exact level_of_neutral (by decide)
      · rcases sign with _ | _ | _ <;> exact level_of_neutral (by decide)

theorem level_blanks {blanks : List Blank} : Level .outside (blanks.map Blank.char) := by
  refine level_of_neutral <| List.all_eq_true.mpr fun c hc => ?_
  have ⟨b, _, hb⟩ := List.mem_map.mp hc
  cases b <;> exact hb ▸ by decide

theorem Piece.level {p : Piece} : Level .inside p.text := by
  cases p
  case plain c h        => exact .of_steps (by simp [text, step, h])
  case escape e         => cases e <;> exact fun depth => ⟨rfl, le_refl _, le_refl _, le_refl _⟩
  case unicode digits h =>
    refine .append (t := ['\\', 'u']) (fun depth => ⟨rfl, le_refl _, le_refl _, le_refl _⟩) ?_
    refine .of_steps fun c hc depth => ?_
    have hd := h.right c hc
    have hq : c ≠ '"' := fun he => by simp [he, isHexDigit] at hd
    have hb : c ≠ '\\' := fun he => by simp [he, isHexDigit] at hd
    simp [step, hq, hb]

theorem level_quoted {pieces : List Piece} : Level .outside (quoted pieces) :=
  .enclosed (k := 0) (le_refl 0) (by simp [step]) (by simp [step])
    (.flatMap fun _ _ => Piece.level)

theorem level_enclosed {l r : Char} (hl : l = '{' ∨ l = '[') (hr : r = '}' ∨ r = ']')
    (h : Level .outside t) : Level .outside (l :: t ++ [r]) := by
  refine .enclosed (k := 1) (by decide) ?_ ?_ h
  · rcases hl with rfl | rfl <;> simp [step]
  · rcases hr with rfl | rfl <;> simp [step]

theorem Tree.level {s : Symbol} {tree : Tree s} : Level .outside tree.text := by
  induction tree
  case null                     => exact level_of_neutral (by decide)
  case bool b                   => cases b <;> exact level_of_neutral (by decide)
  case number n                 => exact n.level
  case string pieces            => exact level_quoted
  case emptyArray blanks        => exact level_enclosed (by simp) (by simp) level_blanks
  case array hi                 => exact level_enclosed (by simp) (by simp) hi
  case emptyObject blanks       => exact level_enclosed (by simp) (by simp) level_blanks
  case object hi                => exact level_enclosed (by simp) (by simp) hi
  case element hi               => exact .append (.append level_blanks hi) level_blanks
  case lastElement hi           => exact hi
  case elements hi hr           =>
    exact .append hi (.append (t := [',']) (level_of_neutral (by decide)) hr)
  case member hi                =>
    exact .append (.append (.append level_blanks level_quoted) level_blanks)
      (.append (t := [':']) (level_of_neutral (by decide)) hi)
  case lastMember hi            => exact hi
  case members hi hr            =>
    exact .append hi (.append (t := [',']) (level_of_neutral (by decide)) hr)

-- A text in brackets which match each other.
inductive Enclosed : Text → Prop
  | intro {l r : Char} {body : Text} :
    l = '{' ∨ l = '[' → r = '}' ∨ r = ']' → Level .outside body → Enclosed (l :: body ++ [r])

-- Objects and arrays.
def composites : Set Text :=
  { t | ∃ tree : Tree .value, tree.isComposite = true ∧ tree.text = t }

theorem enclosed_of_composite (h : t ∈ composites) : Enclosed t := by
  have ⟨tree, hc, ht⟩ := h
  subst ht
  cases tree
  case null | bool | number | string => simp [Tree.isComposite] at hc
  case emptyArray | emptyObject      => exact .intro (by simp) (by simp) level_blanks
  case array | object                => exact .intro (by simp) (by simp) Tree.level

-- Inside of a text in brackets, the depth is at least one.
theorem prefixFree_enclosed : PrefixFree { t | Enclosed t } := by
  intro s hs t ht hp
  have @Enclosed.intro l' r' body' hl' hr' hb' := hs
  have @Enclosed.intro _ _ body _ _ hb := ht
  cases List.prefix_concat_iff.mp hp
  case inl he => exact he
  case inr hp =>
    have hp : body' ++ [r'] <+: body := (List.cons_prefix_cons.mp hp).right
    have hd : 1 ≤ (scan ⟨1, .outside⟩ (body' ++ [r'])).depth := (hb 1).right.scan_depth hp
    have hs : scan ⟨0, .outside⟩ (l' :: body' ++ [r']) = ⟨0, .outside⟩ :=
      (level_enclosed hl' hr' hb' 0).left
    have hl : step ⟨0, .outside⟩ l' = ⟨1, .outside⟩ := by
      rcases hl' with rfl | rfl <;> rfl
    rw [List.cons_append, scan_cons, hl] at hs
    simp [hs] at hd

theorem prefixFree_composites : PrefixFree composites :=
  fun s hs t ht => prefixFree_enclosed s (enclosed_of_composite hs) t (enclosed_of_composite ht)

-- A parser accepts blanks around a value.
def documents : Set Text :=
  { t | ∃ left right : List Blank, ∃ value ∈ composites,
    t = left.map Blank.char ++ value ++ right.map Blank.char }

theorem isWhiteSpace_of_blank {blanks : List Blank} {c : Char} (h : c ∈ blanks.map Blank.char) :
    c.isWhiteSpace = true := by
  have ⟨b, _, hb⟩ := List.mem_map.mp h
  cases b <;> exact hb ▸ by decide

theorem Enclosed.trim_around {left right : Text} (h : Enclosed t)
    (hl : ∀ c ∈ left, c.isWhiteSpace = true) (hr : ∀ c ∈ right, c.isWhiteSpace = true) :
    Utf8.trim (left ++ t ++ right) = t := by
  have @intro l r body hb he _ := h
  have hb : l.isWhiteSpace = false := by rcases hb with rfl | rfl <;> decide
  have he : r.isWhiteSpace = false := by rcases he with rfl | rfl <;> decide
  exact Utf8.trim_around hl hr hb he

theorem Enclosed.dropWhile_append (h : Enclosed t) :
    (t ++ t').dropWhile Char.isWhiteSpace = t ++ t' := by
  have @intro l _ _ hb _ _ := h
  have hb : l.isWhiteSpace = false := by rcases hb with rfl | rfl <;> decide
  simp [hb]

theorem trim_document (h : t ∈ documents) : Utf8.trim t ∈ composites := by
  have ⟨left, right, value, hv, ht⟩ := h
  rw [ht, (enclosed_of_composite hv).trim_around (fun _ => isWhiteSpace_of_blank)
    (fun _ => isWhiteSpace_of_blank)]
  exact hv

theorem trim_composite (h : t ∈ composites) : Utf8.trim t = t := by
  have ht := @(enclosed_of_composite h).trim_around t [] [] (by simp) (by simp)
  simpa using ht

-- In a concatenation, whitespace around the first value would show.
theorem append_inj {value value' : Text} (ht : Utf8.trim t ∈ composites) (ht' : t' ∈ composites)
    (hv : value ∈ composites) (hv' : value' ∈ composites) (he : t ++ value = t' ++ value') :
    t = t' ∧ value = value' := by
  have ⟨left, right, hs, hl, hr⟩ := @Utf8.trim_append t
  have hi : Utf8.trim t ++ (right ++ value) = t' ++ value' := by
    have hd := congrArg (List.dropWhile Char.isWhiteSpace) he
    rwa [hs, List.append_assoc, List.append_assoc, List.dropWhile_append_of_pos hl,
      (enclosed_of_composite ht).dropWhile_append,
      (enclosed_of_composite ht').dropWhile_append] at hd
  have hw : value = value' := by
    have hd := congrArg (List.dropWhile Char.isWhiteSpace)
      (prefixFree_composites.append_inj ht ht' hi).right
    rwa [List.dropWhile_append_of_pos hr, ← List.append_nil value,
      (enclosed_of_composite hv).dropWhile_append, List.append_nil, ← List.append_nil value',
      (enclosed_of_composite hv').dropWhile_append, List.append_nil] at hd
  exact ⟨List.append_cancel_right (hw ▸ he), hw⟩

end JsonText
