import Mathlib.Data.List.Basic
import Mathlib.Tactic.Common
import Xfr.Library.CharBoundary
import Xfr.Library.Whitespace

open Utf8 (Text size sliceTo floorCharBoundary)

-- The general category `Cc` of Unicode.
def Char.isControl (c : Char) : Bool :=
  c.toNat < 0x20 ∨ (0x7F ≤ c.toNat ∧ c.toNat ≤ 0x9F)

-- Text which remembers which of its characters come from somebody else.
namespace Marked

structure Glyph where
  char    : Char
  foreign : Bool
  deriving DecidableEq

abbrev Line := List Glyph

def own (text : Text) : Line :=
  text.map fun c => ⟨c, false⟩

def foreign (text : Text) : Line :=
  text.map fun c => ⟨c, true⟩

def text (line : Line) : Text :=
  line.map Glyph.char

-- No control character was let in.
def Clean (line : Line) : Prop :=
  ∀ g ∈ line, g.foreign = true → g.char.isControl = false

def Tame (text : Text) : Prop :=
  ∀ c ∈ text, c.isControl = false

variable {line line' : Line} {t t' : Text}

@[simp]
theorem text_own : text (own t) = t := by
  simp [text, own, Function.comp_def]

@[simp]
theorem text_foreign : text (foreign t) = t := by
  simp [text, foreign, Function.comp_def]

@[simp]
theorem text_append : text (line ++ line') = text line ++ text line' :=
  List.map_append

@[simp]
theorem clean_nil : Clean [] :=
  fun _ h => nomatch h

@[simp]
theorem clean_append : Clean (line ++ line') ↔ Clean line ∧ Clean line' :=
  List.forall_mem_append

@[simp]
theorem clean_own : Clean (own t) := by
  simp [Clean, own]

@[simp]
theorem clean_foreign : Clean (foreign t) ↔ Tame t := by
  simp [Clean, foreign, Tame]

@[simp]
theorem clean_filter_own {p : Char → Bool} : Clean ((own t).filter (p ·.char)) := by
  simp [Clean, own]

@[simp]
theorem clean_filter_foreign {p : Char → Bool} :
    Clean ((foreign t).filter (p ·.char)) ↔ Tame (t.filter p) := by
  simp [Clean, foreign, Tame]

@[simp]
theorem tame_append : Tame (t ++ t') ↔ Tame t ∧ Tame t' :=
  List.forall_mem_append

theorem Clean.subset (h : Clean line) (hs : line' ⊆ line) : Clean line' :=
  fun g hg => h g (hs hg)

theorem clean_flatMap {α : Type*} {as : List α} {f : α → Line} :
    Clean (as.flatMap f) ↔ ∀ a ∈ as, Clean (f a) := by
  simp only [Clean, List.mem_flatMap]
  exact ⟨fun h a ha g hg => h g ⟨a, ha, hg⟩, fun h g ⟨a, ha, hg⟩ => h a ha g hg⟩

theorem clean_intercalate {sep : Line} {lines : List Line} (hs : Clean sep) :
    Clean (sep.intercalate lines) ↔ ∀ line ∈ lines, Clean line := by
  induction lines
  case nil => simp
  case cons line lines hi =>
    cases lines
    case nil  => simp
    case cons => simp [List.intercalate_cons_cons, hs, hi]

-- Control characters are dropped, and a long text is cut off.
def strip (most : Nat) (t : Text) : Text :=
  (t.filter (!·.isControl)).take most

theorem tame_strip {most : Nat} : Tame (strip most t) := by
  intro c hc
  simpa using (List.mem_filter.mp (List.mem_of_mem_take hc)).right

-- Control characters become spaces of our own.
def blank (line : Line) : Line :=
  line.map fun g => if g.char.isControl then ⟨' ', false⟩ else g

theorem clean_blank : Clean (blank line) := by
  intro g hg hf
  have ⟨g', _, he⟩ := List.mem_map.mp hg
  split at he
  case isTrue    => simp [← he] at hf
  case isFalse h => simpa [← he] using h

-- What stands between whitespace.
def words (line : Line) : List Line :=
  (line.splitOnP (·.char.isWhiteSpace)).filter (!·.isEmpty)

theorem mem_of_mem_splitOnP {α : Type*} {p : α → Bool} {l part : List α} {a : α}
    (hp : part ∈ l.splitOnP p) (ha : a ∈ part) : a ∈ l := by
  induction l generalizing part
  case nil => simp_all
  case cons b l hi =>
    rw [List.splitOnP_cons_eq_if_modifyHead] at hp
    split at hp
    case isTrue =>
      cases List.mem_cons.mp hp
      case inl he => simp [he] at ha
      case inr hm => exact .tail _ (hi hm ha)
    case isFalse =>
      cases hs : l.splitOnP p
      case nil => exact absurd hs (List.splitOnP_ne_nil p l)
      case cons first rest =>
        rw [hs, List.modifyHead_cons] at hp
        cases List.mem_cons.mp hp
        case inl he =>
          cases List.mem_cons.mp (he ▸ ha)
          case inl he => exact he ▸ .head _
          case inr ha => exact .tail _ (hi (by simp [hs]) ha)
        case inr hm => exact .tail _ (hi (by simp [hs, hm]) ha)

-- The beginning which fits into a number of bytes, without a part of a character.
def truncate (room : Nat) (line : Line) : Line :=
  let t := text line
  let stop := floorCharBoundary t (min (size t) room)
  line.take ((sliceTo t stop).elim 0 List.length)

theorem truncate_subset {room : Nat} : truncate room line ⊆ line :=
  List.take_subset ..

-- One line, with single spaces between the words.
def flatten (room : Nat) (line : Line) : Line :=
  truncate room ((own [' ']).intercalate (words (blank line)))

theorem clean_flatten {room : Nat} : Clean (flatten room line) := by
  refine Clean.subset ((clean_intercalate clean_own).mpr fun word hw => ?_) truncate_subset
  exact clean_blank.subset fun _ => mem_of_mem_splitOnP (List.mem_filter.mp hw).left

end Marked
