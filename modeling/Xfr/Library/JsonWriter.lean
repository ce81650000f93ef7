import Xfr.Library.JsonText
import Xfr.Library.Serde

open Utf8 (Text)

-- Values of the data model as compact JSON.
namespace Serde

-- What JSON knows of floating numbers.
class FloatText (F : Type*) where
  isFinite : F → Bool
  number   : F → JsonText.Number

def digits (n : Nat) : JsonText.Digits where
  text    := Nat.toDigits 10 n
  ne_nil  := Nat.toDigits_ne_nil
  isDigit := fun _ => Nat.isDigit_of_mem_toDigits (by decide) (by decide)

-- No number but zero starts with a zero.
theorem head_toDigits {n : Nat} (h : (Nat.toDigits 10 n).head? = some '0') : n = 0 := by
  induction n using Nat.strongRecOn
  case ind n hi =>
    cases Nat.lt_or_ge n 10
    case inl hn => simpa [Nat.toDigits_of_lt_base hn] using h
    case inr hn =>
      rw [Nat.toDigits_of_base_le (by decide) hn,
        List.head?_append_of_ne_nil _ Nat.toDigits_ne_nil] at h
      have := hi (n / 10) (by omega) h
      omega

def integer (n : Int) : JsonText.Number where
  negative := decide (n < 0)
  whole    := digits n.natAbs
  noZero   := fun h => by simp [digits, head_toDigits h]
  fraction := none
  exponent := none

theorem isHexDigit_digitChar {n : Nat} (h : n < 16) :
    JsonText.isHexDigit n.digitChar = true := by
  have : ∀ n : Fin 16, JsonText.isHexDigit n.val.digitChar = true := by decide
  exact this ⟨n, h⟩

-- Control characters without an escape of their own are written by their code.
def piece (c : Char) : JsonText.Piece :=
  if h : 0x20 ≤ c.toNat ∧ c ≠ '"' ∧ c ≠ '\\' then .plain c h
  else if c = '"' then .escape .quote
  else if c = '\\' then .escape .backslash
  else if c = '\x08' then .escape .backspace
  else if c = '\x0c' then .escape .formFeed
  else if c = '\n' then .escape .newline
  else if c = '\r' then .escape .carriageReturn
  else if c = '\t' then .escape .tab
  else .unicode ['0', '0', (c.toNat / 16 % 16).digitChar, (c.toNat % 16).digitChar] <| by
    have h := isHexDigit_digitChar (Nat.mod_lt c.toNat (by decide : 0 < 16))
    have h' := isHexDigit_digitChar (Nat.mod_lt (c.toNat / 16) (by decide : 0 < 16))
    simp [h, h', show JsonText.isHexDigit '0' = true by decide]

def element (value : JsonText.Tree .value) : JsonText.Tree .element :=
  .element [] value []

def member (key : String) (value : JsonText.Tree .value) : JsonText.Tree .member :=
  .member [] (key.toList.map piece) [] (element value)

def array : List (JsonText.Tree .value) → JsonText.Tree .value
  | []              => .emptyArray []
  | value :: values => .array (elements value values)
where
  elements (value : JsonText.Tree .value) : List (JsonText.Tree .value) → JsonText.Tree .elements
  | []               => .lastElement (element value)
  | value' :: values => .elements (element value) (elements value' values)

def object : List (JsonText.Tree .member) → JsonText.Tree .value
  | []            => .emptyObject []
  | item :: items => .object (members item items)
where
  members (item : JsonText.Tree .member) : List (JsonText.Tree .member) → JsonText.Tree .members
  | []             => .lastMember item
  | item' :: items => .members item (members item' items)

variable {F : Type*} [FloatText F]

mutual

-- There are no numbers in JSON for infinities and for what is not a number.
def Value.tree : Value F → JsonText.Tree .value
  | .null        => .null
  | .bool b      => .bool b
  | .integer n   => .number (integer n)
  | .float x     => if FloatText.isFinite x then .number (FloatText.number x) else .null
  | .string s    => .string (s.toList.map piece)
  | .seq values  => array (seqTrees values)
  | .map entries => object (mapTrees entries)

def seqTrees : List (Value F) → List (JsonText.Tree .value)
  | []              => []
  | value :: values => value.tree :: seqTrees values

def mapTrees : List (String × Value F) → List (JsonText.Tree .member)
  | []                      => []
  | (key, value) :: entries => member key value.tree :: mapTrees entries

end

def Value.text (value : Value F) : Text :=
  value.tree.text

-- Neither blanks nor control characters stand in a text.
def Visible (t : Text) : Prop :=
  ∀ c ∈ t, ' '.toNat ≤ c.toNat

namespace Visible

variable {t t' : Text}

theorem newline_not_mem (h : Visible t) : '\n' ∉ t :=
  fun hm => absurd (h _ hm) (by decide)

@[simp]
theorem append_iff : Visible (t ++ t') ↔ Visible t ∧ Visible t' :=
  List.forall_mem_append

@[simp]
theorem cons_iff {c : Char} : Visible (c :: t) ↔ ' '.toNat ≤ c.toNat ∧ Visible t :=
  List.forall_mem_cons

@[simp]
theorem nil : Visible [] :=
  nofun

theorem flatMap {α : Type*} {f : α → Text} {l : List α} (h : ∀ a ∈ l, Visible (f a)) :
    Visible (l.flatMap f) := by
  intro c hc
  have ⟨a, ha, hc⟩ := List.mem_flatMap.mp hc
  exact h a ha c hc

theorem digits (digits : JsonText.Digits) : Visible digits.text := by
  intro c hc
  have h := digits.isDigit c hc
  simp [Char.isDigit, UInt32.le_iff_toNat_le] at h
  exact le_trans (by decide) h.left

theorem number (n : JsonText.Number) : Visible n.text := by
  simp only [JsonText.Number.text, append_iff]
  refine ⟨⟨⟨?_, digits _⟩, ?_⟩, ?_⟩
  · cases n.negative <;> simp
  · cases n.fraction <;> simp [digits]
  · rcases n.exponent with _ | ⟨upper, sign, _⟩
    case none => simp
    case some =>
      rcases sign with _ | _ | _ <;> cases upper <;> simp [digits, JsonText.Sign.char]

theorem hexDigit {c : Char} (h : JsonText.isHexDigit c = true) : ' '.toNat ≤ c.toNat := by
  simp only [JsonText.isHexDigit, Char.isDigit, Bool.or_eq_true, Bool.and_eq_true,
    decide_eq_true_eq, Char.le_def, UInt32.le_iff_toNat_le] at h
  rcases h with (⟨h, _⟩ | ⟨h, _⟩) | ⟨h, _⟩ <;> exact le_trans (by decide) h

theorem piece (p : JsonText.Piece) : Visible p.text := by
  cases p
  case plain c h  => simpa [JsonText.Piece.text] using h.left
  case escape e   => cases e <;> simp [JsonText.Piece.text, JsonText.Escape.char]
  case unicode digits h =>
    have hv : Visible digits := fun c hc => hexDigit (h.right c hc)
    simpa [JsonText.Piece.text] using hv

theorem quoted (pieces : List JsonText.Piece) : Visible (JsonText.quoted pieces) := by
  simpa [JsonText.quoted] using flatMap fun p _ => piece p

theorem array {values : List (JsonText.Tree .value)} (h : ∀ value ∈ values, Visible value.text) :
    Visible (array values).text := by
  have he : ∀ value values, (∀ v ∈ value :: values, Visible (JsonText.Tree.text v)) →
      Visible (array.elements value values).text := by
    intro value values h
    induction values generalizing value
    case nil => simpa [array.elements, element, JsonText.Tree.text] using h
    case cons value' values hi =>
      have hi := hi value' fun v hv => h v (.tail _ hv)
      simpa [array.elements, element, JsonText.Tree.text, hi] using h value (by simp)
  cases values
  case nil  => simp [Serde.array, JsonText.Tree.text]
  case cons => simp [Serde.array, JsonText.Tree.text, he _ _ h]

theorem object {items : List (JsonText.Tree .member)} (h : ∀ item ∈ items, Visible item.text) :
    Visible (object items).text := by
  have hm : ∀ item items, (∀ i ∈ item :: items, Visible (JsonText.Tree.text i)) →
      Visible (object.members item items).text := by
    intro item items h
    induction items generalizing item
    case nil => simpa [object.members, JsonText.Tree.text] using h
    case cons item' items hi =>
      have hi := hi item' fun i hi => h i (.tail _ hi)
      simpa [object.members, JsonText.Tree.text, hi] using h item (by simp)
  cases items
  case nil  => simp [Serde.object, JsonText.Tree.text]
  case cons => simp [Serde.object, JsonText.Tree.text, hm _ _ h]

end Visible

mutual

theorem visible_tree : ∀ value : Value F, Visible value.tree.text
  | .null        => by simp [Value.tree, JsonText.Tree.text]
  | .bool b      => by cases b <;> simp [Value.tree, JsonText.Tree.text]
  | .integer n   => Visible.number _
  | .float x     => by
    unfold Value.tree
    split
    case isTrue  => exact Visible.number _
    case isFalse => simp [JsonText.Tree.text]
  | .string s    => Visible.quoted _
  | .seq values  => Visible.array (visible_seqTrees values)
  | .map entries => Visible.object (visible_mapTrees entries)

theorem visible_seqTrees :
    ∀ values : List (Value F), ∀ value ∈ seqTrees values, Visible value.text
  | []              => nofun
  | value :: values => List.forall_mem_cons.mpr ⟨visible_tree value, visible_seqTrees values⟩

theorem visible_mapTrees :
    ∀ entries : List (String × Value F), ∀ item ∈ mapTrees entries, Visible item.text
  | []                      => nofun
  | (key, value) :: entries => by
    have h := visible_tree value
    refine List.forall_mem_cons.mpr ⟨?_, visible_mapTrees entries⟩
    simpa [member, element, JsonText.Tree.text, Visible.quoted] using h

end

-- What is written stays on one line.
theorem newline_not_mem_text {value : Value F} : '\n' ∉ value.text :=
  (visible_tree value).newline_not_mem

-- A map is written as a JSON object.
theorem text_mem_composites {entries : List (String × Value F)} :
    (Value.map entries).text ∈ JsonText.composites := by
  refine ⟨_, ?_, rfl⟩
  cases entries <;> rfl

end Serde
