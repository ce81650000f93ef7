import Mathlib.Data.List.Basic

-- Comma-separated values. A field which is not quoted has none of the characters which need quotes, and
-- a record ends with its line, in one of the usual ways.
namespace Csv

def specials : List Char :=
  [',', '"', '\r', '\n']

-- Text which may stand in a field without quotes.
def Plain (text : List Char) : Prop :=
  ∀ c ∈ text, c ∉ specials

instance {text : List Char} : Decidable (Plain text) :=
  List.decidableBAll _ text

def plain (c : Char) : Bool :=
  c ∉ specials

-- Reads behind the quotes which open a field. Quotes inside are doubled.
def readQuoted : List Char → Option (List Char × List Char)
  | []             => none
  | '"' :: '"' :: s => (readQuoted s).map (Prod.map ('"' :: ·) id)
  | '"' :: s        => some ([], s)
  | c :: s          => (readQuoted s).map (Prod.map (c :: ·) id)

def readField (s : List Char) : Option (List Char × List Char) :=
  if s.head? = some '"' then readQuoted s.tail else some (s.takeWhile plain, s.dropWhile plain)

def readRecord : Nat → List Char → Option (List (List Char) × List Char)
  | 0,     _ => none
  | k + 1, s => do
    let (field, rest) ← readField s
    match rest with
    | []                   => return ([field], [])
    | ',' :: rest          => return (← readRecord k rest).map (field :: ·) id
    | '\n' :: rest         => return ([field], rest)
    | '\r' :: '\n' :: rest => return ([field], rest)
    | _                    => none

def readRecords : Nat → List Char → Option (List (List (List Char)))
  | _,     []     => some []
  | 0,     _      => none
  | k + 1, c :: s => do
    let (record, rest) ← readRecord (s.length + 1) (c :: s)
    return record :: (← readRecords k rest)

def read (text : List Char) : Option (List (List (List Char))) :=
  readRecords text.length text

def line (record : List (List Char)) : List Char :=
  [','].intercalate record ++ ['\n']

variable {text field value rest s : List Char} {record : List (List Char)} {c : Char}
variable {records : List (List (List Char))} {k : Nat}

theorem Plain.append {text' : List Char} (h : Plain text) (h' : Plain text') : Plain (text ++ text') :=
  fun c hc => (List.mem_append.mp hc).elim (h c) (h' c)

theorem readField_plain (h : Plain field) (hc : c ∈ specials) (hq : c ≠ '"') :
    readField (field ++ c :: rest) = some (field, c :: rest) := by
  have hp : ∀ d ∈ field, plain d := fun d hd => decide_eq_true (h d hd)
  have hn : ¬plain c := by simpa [plain] using hc
  have hh : (field ++ c :: rest).head? ≠ some '"' := by
    cases field
    case nil => simpa using hq
    case cons d field => exact fun hd => h d (by simp) (by simp_all [specials])
  rw [readField, if_neg hh, List.takeWhile_append_of_pos hp, List.dropWhile_append_of_pos hp,
    List.takeWhile_cons_of_neg hn, List.dropWhile_cons_of_neg hn, List.append_nil]

theorem readRecord_line (hn : record ≠ []) (h : ∀ field ∈ record, Plain field)
    (hk : record.length ≤ k) : readRecord k (line record ++ rest) = some (record, rest) := by
  induction record generalizing k
  case nil => exact absurd rfl hn
  case cons field record hi =>
    have ⟨k, hk'⟩ := Nat.exists_eq_succ_of_ne_zero (Nat.ne_of_gt (Nat.lt_of_lt_of_le (by simp) hk))
    subst hk'
    cases record
    case nil =>
      have hf : readField (field ++ '\n' :: rest) = some (field, '\n' :: rest) :=
        readField_plain (h field (by simp)) (by decide) (by decide)
      simp only [line, List.intercalate_singleton, List.append_assoc, List.singleton_append, readRecord,
        hf]
      rfl
    case cons next record =>
      have hf : readField (field ++ ',' :: (line (next :: record) ++ rest)) =
          some (field, ',' :: (line (next :: record) ++ rest)) :=
        readField_plain (h field (by simp)) (by decide) (by decide)
      have hl : line (field :: next :: record) ++ rest =
          field ++ ',' :: (line (next :: record) ++ rest) := by
        simp [line, List.intercalate]
      have hr := hi (by simp) (fun f hf => h f (by simp [hf])) (Nat.le_of_succ_le_succ hk)
      simp only [hl, readRecord, hf, Option.bind_eq_bind, Option.bind_some, hr]
      rfl

theorem length_le_line : record.length ≤ (line record).length := by
  induction record
  case nil => exact Nat.zero_le _
  case cons field record hi =>
    cases record
    case nil => simp [line]
    case cons next record =>
      have hl : line (field :: next :: record) = field ++ ',' :: line (next :: record) := by
        simp [line, List.intercalate]
      rw [hl, List.length_append, List.length_cons, List.length_cons (a := ',')]
      omega

theorem readRecords_line (hn : record ≠ []) (h : ∀ field ∈ record, Plain field) :
    readRecords (k + 1) (line record ++ rest) = (readRecords k rest).map (record :: ·) := by
  have ⟨c, tail, hc⟩ := List.exists_cons_of_ne_nil (l := line record) (by simp [line])
  have hl : record.length ≤ (line record).length := length_le_line
  rw [hc, List.length_cons] at hl
  have hk : record.length ≤ (tail ++ rest).length + 1 := by
    rw [List.length_append]
    omega
  have hr := @readRecord_line rest _ _ hn h hk
  rw [hc, List.cons_append] at hr
  rw [hc, List.cons_append, readRecords, hr]
  simp only [Option.bind_eq_bind, Option.bind_some]
  cases readRecords k rest <;> rfl

theorem readRecords_lines (hn : ∀ record ∈ records, record ≠ [])
    (h : ∀ record ∈ records, ∀ field ∈ record, Plain field)
    (hk : (records.flatMap line).length ≤ k) : readRecords k (records.flatMap line) = some records := by
  induction records generalizing k
  case nil => cases k <;> rfl
  case cons record records hi =>
    have hl : (line record).length = ([','].intercalate record).length + 1 := by simp [line]
    rw [List.flatMap_cons, List.length_append] at hk
    have ⟨k, hk'⟩ := Nat.exists_eq_succ_of_ne_zero (n := k) (by omega)
    subst hk'
    have hi := hi (k := k) (fun r hr => hn r (by simp [hr])) (fun r hr => h r (by simp [hr])) (by omega)
    rw [List.flatMap_cons, readRecords_line (hn record (by simp)) (h record (by simp)), hi]
    rfl

-- What is written line by line is read back.
theorem read_lines (hn : ∀ record ∈ records, record ≠ [])
    (h : ∀ record ∈ records, ∀ field ∈ record, Plain field) :
    read (records.flatMap line) = some records :=
  readRecords_lines hn h (Nat.le_refl _)

def escape (text : List Char) : List Char :=
  text.flatMap fun c => if c = '"' then ['"', '"'] else [c]

theorem escape_cons : escape (c :: text) = (if c = '"' then ['"', '"'] else [c]) ++ escape text :=
  List.flatMap_cons

theorem readQuoted_eq (h : readQuoted s = some (value, rest)) : s = escape value ++ '"' :: rest := by
  induction s using readQuoted.induct generalizing value
  case case1 => cases h
  case case2 s hi =>
    have ⟨⟨value', rest'⟩, hr, he⟩ := Option.map_eq_some_iff.mp h
    have ⟨hv, hs⟩ := Prod.mk.inj he
    subst hv hs
    exact congrArg ('"' :: '"' :: ·) (hi hr)
  case case3 s hs =>
    rw [readQuoted] at h
    case x_1 => exact hs
    obtain ⟨rfl, rfl⟩ := Prod.mk.inj (Option.some_inj.mp h)
    rfl
  case case4 c s hd hc hi =>
    rw [readQuoted] at h
    case x_1 => exact hd
    case x_2 => exact hc
    have ⟨⟨value', rest'⟩, hr, he⟩ := Option.map_eq_some_iff.mp h
    have ⟨hv, hs⟩ := Prod.mk.inj he
    subst hv hs
    rw [hi hr, id, escape_cons, if_neg hc]
    rfl

def toComma : List Char → Nat
  | []     => 0
  | c :: s => if c = ',' then 0 else toComma s + 1

theorem toComma_append : toComma (text ++ ',' :: rest) = toComma text := by
  induction text
  case nil => rfl
  case cons c text hi => rw [List.cons_append, toComma, toComma, hi]

-- Where the first comma is tells a field from its quoted form: the latter is the longer one.
theorem toComma_le_escape : toComma text ≤ toComma (escape text ++ '"' :: rest) := by
  induction text
  case nil => exact Nat.zero_le _
  case cons c text hi =>
    rw [escape_cons, toComma]
    split
    case isTrue => exact Nat.zero_le _
    case isFalse hc =>
      split
      case isTrue =>
        have hq : toComma (['"', '"'] ++ escape text ++ '"' :: rest) =
            toComma (escape text ++ '"' :: rest) + 2 := rfl
        omega
      case isFalse =>
        have hq : toComma ([c] ++ escape text ++ '"' :: rest) =
            toComma (escape text ++ '"' :: rest) + 1 := if_neg hc
        omega

-- A text in front of a comma is read as itself only if it needs no quotes.
theorem plain_of_readField (h : readField (text ++ ',' :: rest) = some (text, s)) : Plain text := by
  unfold readField at h
  split at h
  case isFalse =>
    have ht := (Prod.mk.inj (Option.some_inj.mp h)).left
    intro c hc
    have hp : plain c := List.all_eq_true.mp List.all_takeWhile c (ht.symm ▸ hc)
    exact of_decide_eq_true hp
  case isTrue hq =>
    cases text
    case nil => exact nofun
    case cons c text =>
      have hc : c = '"' := by simpa using hq
      subst hc
      have he := readQuoted_eq h
      have hl : toComma ('"' :: text) ≤ toComma (escape ('"' :: text) ++ '"' :: s) :=
        toComma_le_escape
      have hs : toComma ('"' :: text) = toComma text + 1 := rfl
      rw [← he, List.cons_append, List.tail_cons, toComma_append, hs] at hl
      omega

theorem readRecord_head {r : List Char} (h : readRecord k s = some (record, r)) :
    ∃ field r', readField s = some (field, r') ∧ record.head? = some field := by
  cases k
  case zero => cases h
  case succ k =>
    have ⟨⟨field, r'⟩, hf, h⟩ := Option.bind_eq_some_iff.mp h
    refine ⟨field, r', hf, ?_⟩
    dsimp only at h
    split at h
    case h_2 =>
      have ⟨⟨_, _⟩, _, he⟩ := Option.bind_eq_some_iff.mp h
      rw [← (Prod.mk.inj (Option.some_inj.mp he)).left]
      rfl
    case h_5 => cases h
    all_goals
      rw [← (Prod.mk.inj (Option.some_inj.mp h)).left]
      rfl

-- Behind a proper line, a text is only read as the first field of the next one if it needs no quotes.
theorem plain_of_read {header header' row : List (List Char)} (hn : header ≠ [])
    (h : ∀ field ∈ header, Plain field)
    (hr : read (line header ++ (text ++ ',' :: rest)) = some [header', row])
    (ht : row.head? = some text) : Plain text := by
  have hl : (line header).length = ([','].intercalate header).length + 1 := by simp [line]
  have ⟨k, hk⟩ := Nat.exists_eq_succ_of_ne_zero (n := (line header ++ (text ++ ',' :: rest)).length)
    (by rw [List.length_append]; omega)
  rw [read, hk, readRecords_line hn h] at hr
  have ⟨records, hs, he⟩ := Option.map_eq_some_iff.mp hr
  rw [(List.cons_eq_cons.mp he).right] at hs
  have ⟨d, more, hd⟩ := List.exists_cons_of_ne_nil (l := text ++ ',' :: rest) (by simp)
  have ⟨j, hj⟩ := Nat.exists_eq_succ_of_ne_zero (n := k) (by
    rw [List.length_append, hd, List.length_cons] at hk
    omega)
  rw [hd, hj, readRecords] at hs
  have ⟨⟨record, r⟩, hf, hs⟩ := Option.bind_eq_some_iff.mp hs
  have ⟨records, _, hs⟩ := Option.bind_eq_some_iff.mp hs
  have hr : record = row := (List.cons_eq_cons.mp (Option.some_inj.mp hs)).left
  have ⟨field, r', hf, hh⟩ := readRecord_head hf
  have hv : field = text := Option.some_inj.mp (hh.symm.trans (hr ▸ ht))
  rw [← hd, hv] at hf
  exact plain_of_readField hf

end Csv
