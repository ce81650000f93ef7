import Mathlib.Algebra.Group.Basic
import Mathlib.Algebra.GroupWithZero.Nat
import Mathlib.Data.Int.Cast.Defs
import Mathlib.Data.List.Nodup
import Mathlib.Tactic.Common

-- The values between the types of a program and a self-describing format, and descriptions of
-- types which say how a type is written and read.
namespace Serde

-- `F` stands for the floating numbers.
inductive Value (F : Type*)
  | null
  | bool (b : Bool)
  | integer (n : Int)
  | float (x : F)
  | string (s : String)
  | seq (values : List (Value F))
  | map (entries : List (String × Value F))

variable {F α β σ τ : Type*}

mutual

def Value.floats : Value F → List F
  | .float x     => [x]
  | .seq values  => seqFloats values
  | .map entries => mapFloats entries
  | _            => []

def seqFloats : List (Value F) → List F
  | []              => []
  | value :: values => value.floats ++ seqFloats values

def mapFloats : List (String × Value F) → List F
  | []                    => []
  | (_, value) :: entries => value.floats ++ mapFloats entries

end

-- A type which knows its way into the values and back. No value but the absent one is written as
-- null.
structure Codec (F α : Type*) where
  serialize             : α → Value F
  deserialize           : Value F → Option α
  floats                : α → List F
  deserialize_serialize : ∀ a, deserialize (serialize a) = some a
  serialize_ne_null     : ∀ a, serialize a ≠ .null
  floats_serialize      : ∀ a, (serialize a).floats = floats a

namespace Codec

def bool : Codec F Bool where
  serialize := .bool
  deserialize
    | .bool b => some b
    | _       => none
  floats _ := []
  deserialize_serialize _ := rfl
  serialize_ne_null _ := nofun
  floats_serialize _ := rfl

def string : Codec F String where
  serialize := .string
  deserialize
    | .string s => some s
    | _         => none
  floats _ := []
  deserialize_serialize _ := rfl
  serialize_ne_null _ := nofun
  floats_serialize _ := rfl

-- An integer is read as a floating number, too.
def float [IntCast F] : Codec F F where
  serialize := .float
  deserialize
    | .float x   => some x
    | .integer n => some n
    | _          => none
  floats x := [x]
  deserialize_serialize _ := rfl
  serialize_ne_null _ := nofun
  floats_serialize _ := rfl

def unsigned (bound : Nat) : Value F → Option Nat
  | .integer n => if 0 ≤ n ∧ n < bound then some n.toNat else none
  | _          => none

theorem unsigned_integer {bound n : Nat} (h : n < bound) :
    unsigned bound (.integer n : Value F) = some n := by
  simp [unsigned, h]

def u8 : Codec F UInt8 where
  serialize n := .integer n.toNat
  deserialize value := (unsigned (2 ^ 8) value).map .ofNat
  floats _ := []
  deserialize_serialize n := by simp [unsigned_integer n.toNat_lt_size]
  serialize_ne_null _ := nofun
  floats_serialize _ := rfl

def u16 : Codec F UInt16 where
  serialize n := .integer n.toNat
  deserialize value := (unsigned (2 ^ 16) value).map .ofNat
  floats _ := []
  deserialize_serialize n := by simp [unsigned_integer n.toNat_lt_size]
  serialize_ne_null _ := nofun
  floats_serialize _ := rfl

def u32 : Codec F UInt32 where
  serialize n := .integer n.toNat
  deserialize value := (unsigned (2 ^ 32) value).map .ofNat
  floats _ := []
  deserialize_serialize n := by simp [unsigned_integer n.toNat_lt_size]
  serialize_ne_null _ := nofun
  floats_serialize _ := rfl

def u64 : Codec F UInt64 where
  serialize n := .integer n.toNat
  deserialize value := (unsigned (2 ^ 64) value).map .ofNat
  floats _ := []
  deserialize_serialize n := by simp [unsigned_integer n.toNat_lt_size]
  serialize_ne_null _ := nofun
  floats_serialize _ := rfl

-- A sequence of elements of one type.
def seq (codec : Codec F α) : Codec F (List α) where
  serialize values := .seq (values.map codec.serialize)
  deserialize
    | .seq values => values.mapM codec.deserialize
    | _           => none
  floats values := values.flatMap codec.floats
  deserialize_serialize values := by
    induction values
    case nil          => rfl
    case cons _ _ hi  => simp_all [codec.deserialize_serialize]
  serialize_ne_null _ := nofun
  floats_serialize values := by
    induction values
    case nil         => rfl
    case cons _ _ hi => simp_all [Value.floats, seqFloats, codec.floats_serialize]

-- One of a few names. They are written as strings, and read from strings only.
def unitVariant (all : List α) (name : α → String)
    (h : ∀ a, all.find? (name · = name a) = some a) : Codec F α where
  serialize a := .string (name a)
  deserialize
    | .string s => all.find? (name · = s)
    | _         => none
  floats _ := []
  deserialize_serialize := h
  serialize_ne_null _ := nofun
  floats_serialize _ := rfl

end Codec

-- What may stand, or be missing, under a key.
structure Field (F α : Type*) where
  write        : α → Option (Value F)
  read         : Option (Value F) → Option α
  floats       : α → List F
  read_write   : ∀ a, read (write a) = some a
  floats_write : ∀ a, (write a).elim [] Value.floats = floats a

namespace Field

def required (codec : Codec F α) : Field F α where
  write a := codec.serialize a
  read value := value.bind codec.deserialize
  floats := codec.floats
  read_write := codec.deserialize_serialize
  floats_write := codec.floats_serialize

-- A missing option is read like a null.
def readOption (codec : Codec F α) : Option (Value F) → Option (Option α)
  | none | some .null => some none
  | some value        => (codec.deserialize value).map some

theorem readOption_serialize {codec : Codec F α} {a : α} :
    readOption codec (codec.serialize a) = some (some a) := by
  have h := codec.deserialize_serialize a
  have hn := codec.serialize_ne_null a
  unfold readOption
  split <;> simp_all

-- An option which is skipped if there is none.
def optional (codec : Codec F α) : Field F (Option α) where
  write a := a.map codec.serialize
  read := readOption codec
  floats a := a.elim [] codec.floats
  read_write
    | none   => rfl
    | some _ => readOption_serialize
  floats_write
    | none   => rfl
    | some a => codec.floats_serialize a

-- An option which is written as null if there is none.
def nullable (codec : Codec F α) : Field F (Option α) where
  write a := some (a.elim .null codec.serialize)
  read := readOption codec
  floats a := a.elim [] codec.floats
  read_write
    | none   => rfl
    | some _ => readOption_serialize
  floats_write
    | none   => rfl
    | some a => codec.floats_serialize a

-- A flag which is skipped, and by default, false.
def flag : Field F Bool where
  write b := if b then some (.bool true) else none
  read
    | none       => some false
    | some value => Codec.bool.deserialize value
  floats _ := []
  read_write b := by cases b <;> rfl
  floats_write b := by cases b <;> rfl

end Field

-- A key may not be there twice.
def get (key : String) (entries : List (String × Value F)) : Option (Option (Value F)) :=
  match entries.filter (·.1 = key) with
  | []           => some none
  | [(_, value)] => some (some value)
  | _            => none

-- The name which a map is tagged with, and its other entries.
def untag (tag : String) : Value F → Option (String × List (String × Value F))
  | .map entries =>
    match get tag entries with
    | some (some (.string name)) => some (name, entries.filter (·.1 ≠ tag))
    | _                          => none
  | _ => none

-- Fields which are skipped do not show up.
def present (fields : List (String × Option (Value F))) : List (String × Value F) :=
  fields.filterMap fun (key, value) => value.map (key, ·)

section

variable {fields : List (String × Option (Value F))} {key : String} {value : Option (Value F)}

@[simp]
theorem present_cons :
    present ((key, value) :: fields) = (value.map (key, ·)).toList ++ present fields := by
  cases value <;> rfl

theorem filter_present_of_not_mem (h : key ∉ fields.map Prod.fst) :
    (present fields).filter (·.1 = key) = [] := by
  induction fields
  case nil => rfl
  case cons field _ hi =>
    have ⟨hk, hf⟩ := not_or.mp (List.mem_cons.not.mp h)
    rcases field with ⟨_, _ | _⟩ <;> simp [hi hf, Ne.symm hk]

theorem get_present (hn : (fields.map Prod.fst).Nodup) (hm : (key, value) ∈ fields) :
    get key (present fields) = some value := by
  suffices h : (present fields).filter (·.1 = key) = (value.map (key, ·)).toList by
    cases value <;> simp [get, h]
  induction fields
  case nil => contradiction
  case cons field fields hi =>
    rcases field with ⟨key', value'⟩
    have ⟨hk, hn⟩ := List.nodup_cons.mp hn
    rw [present_cons, List.filter_append]
    cases List.mem_cons.mp hm
    case inl he =>
      rw [Prod.mk.injEq] at he
      rw [← he.1] at hk ⊢
      rw [filter_present_of_not_mem hk, he.2]
      cases value' <;> simp
    case inr hm =>
      have hne : key' ≠ key := fun he => hk (List.mem_map.mpr ⟨_, hm, he.symm⟩)
      rw [hi hn hm]
      cases value' <;> simp [hne]

theorem mapFloats_present :
    mapFloats (present fields) = fields.flatMap fun field => field.2.elim [] Value.floats := by
  induction fields
  case nil => rfl
  case cons field _ hi =>
    rcases field with ⟨_, _ | _⟩ <;> simp [mapFloats, hi]

end

-- A structure whose fields come one after another. It is read from all entries which hold what the
-- fields are written as, whatever other entries there are.
structure Record (F σ α : Type*) where
  keys          : List String
  fields        : σ → List (String × Option (Value F))
  read          : List (String × Value F) → Option α
  value         : σ → α
  floats        : σ → List F
  keys_fields   : ∀ s, (fields s).map Prod.fst = keys
  read_fields   : ∀ s entries, (∀ field ∈ fields s, get field.1 entries = some field.2) →
    read entries = some (value s)
  floats_fields : ∀ s, ((fields s).flatMap fun field => field.2.elim [] Value.floats) = floats s

namespace Record

def make (constructor : α) : Record F σ α where
  keys := []
  fields _ := []
  read _ := some constructor
  value _ := constructor
  floats _ := []
  keys_fields _ := rfl
  read_fields _ _ _ := rfl
  floats_fields _ := rfl

def field (record : Record F σ (β → α)) (key : String) (projection : σ → β) (f : Field F β) :
    Record F σ α where
  keys := record.keys ++ [key]
  fields s := record.fields s ++ [(key, f.write (projection s))]
  read entries :=
    (record.read entries).bind fun make =>
      (get key entries).bind fun value => (f.read value).map make
  value s := record.value s (projection s)
  floats s := record.floats s ++ f.floats (projection s)
  keys_fields s := by simp [record.keys_fields]
  read_fields s entries h := by
    have hr := record.read_fields s entries fun field hm => h field (by simp [hm])
    have hg := h (key, f.write (projection s)) (by simp)
    simp [hr, hg, f.read_write]
  floats_fields s := by simp [record.floats_fields, f.floats_write]

variable {record : Record F σ (β → α)} {key : String} {projection : σ → β} {f : Field F β}

@[simp]
theorem keys_make {constructor : α} : (make constructor : Record F σ α).keys = [] :=
  rfl

@[simp]
theorem keys_field : (record.field key projection f).keys = record.keys ++ [key] :=
  rfl

theorem read_present (record : Record F σ α) (h : record.keys.Nodup) (s : σ) :
    record.read (present (record.fields s)) = some (record.value s) :=
  record.read_fields s _ fun _ => get_present (record.keys_fields s ▸ h)

-- The codec of a structure of its own. It is read from a map only, and not from a sequence of the
-- values of its fields, which no serializer writes.
def codec (record : Record F σ σ) (hk : record.keys.Nodup) (hv : ∀ s, record.value s = s) :
    Codec F σ where
  serialize s := .map (present (record.fields s))
  deserialize
    | .map entries => record.read entries
    | _            => none
  floats := record.floats
  deserialize_serialize s := (record.read_present hk s).trans (congrArg some (hv s))
  serialize_ne_null _ := nofun
  floats_serialize s := by rw [Value.floats, mapFloats_present, record.floats_fields]

-- A structure which is tagged with a name among its fields.
def tagged (record : Record F σ σ) (tag name : String) (s : σ) : Value F :=
  .map ((tag, .string name) :: present (record.fields s))

theorem untag_tagged {record : Record F σ σ} {tag name : String} {s : σ}
    (hk : tag ∉ record.keys) :
    untag tag (record.tagged tag name s) = some (name, present (record.fields s)) := by
  have hf := filter_present_of_not_mem (record.keys_fields s ▸ hk)
  have hr : (present (record.fields s)).filter (·.1 ≠ tag) = present (record.fields s) := by
    simpa [List.filter_eq_nil_iff] using hf
  simp only [ne_eq, decide_not] at hr
  simp [untag, tagged, get, hf, hr]

theorem floats_tagged {record : Record F σ σ} {tag name : String} {s : σ} :
    (record.tagged tag name s).floats = record.floats s := by
  simp [tagged, Value.floats, mapFloats, mapFloats_present, record.floats_fields]

end Record

end Serde
