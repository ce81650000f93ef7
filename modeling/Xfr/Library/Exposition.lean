import Mathlib.Data.List.Infix
import Mathlib.Tactic.Common

-- The text format in which metrics are exposed: lines of help and types, and samples with labels.
-- Comments and empty lines are skipped. Numbers with exponents, which the format has as well, are not
-- read.
namespace Exposition

abbrev Text := List Char

abbrev Label := Text × Text

structure Sample where
  name      : Text
  labels    : List Label  := []
  value     : Text
  timestamp : Option Text := none
  deriving DecidableEq

inductive Line
  | help (name text : Text)
  | type (name kind : Text)
  | sample (s : Sample)
  deriving DecidableEq

def isBlank (c : Char) : Bool :=
  c = ' ' || c = '\t'

def dropBlanks (text : Text) : Text :=
  text.dropWhile isBlank

def token (text : Text) : Text × Text :=
  text.span (!isBlank ·)

def isNameStart (c : Char) : Bool :=
  c.isAlpha || c = '_' || c = ':'

def isNameChar (c : Char) : Bool :=
  isNameStart c || c.isDigit

def isMetricName (name : Text) : Bool :=
  name.head?.any isNameStart && name.all isNameChar

def isLabelName (name : Text) : Bool :=
  isMetricName name && !name.contains ':'

def kinds : List Text :=
  ["counter".toList, "gauge".toList, "histogram".toList, "summary".toList, "untyped".toList]

def isDecimal (text : Text) : Bool :=
  let (whole, rest) := text.span Char.isDigit
  !whole.isEmpty && match rest with
    | []              => true
    | '.' :: fraction => !fraction.isEmpty && fraction.all Char.isDigit
    | _               => false

def isNumber (text : Text) : Bool :=
  text = "NaN".toList || text = "inf".toList || match text with
    | '-' :: text => text = "inf".toList || isDecimal text
    | text        => isDecimal text

def isInteger : Text → Bool
  | '-' :: text => !text.isEmpty && text.all Char.isDigit
  | text        => !text.isEmpty && text.all Char.isDigit

def unescapeHelp : Text → Option Text
  | '\\' :: '\\' :: text => (unescapeHelp text).map ('\\' :: ·)
  | '\\' :: 'n' :: text  => (unescapeHelp text).map ('\n' :: ·)
  | '\\' :: _            => none
  | c :: text            => (unescapeHelp text).map (c :: ·)
  | []                   => some []

-- The value of a label up to the closing quote, and what is behind it.
def readQuoted : Text → Option (Text × Text)
  | '"' :: rest          => some ([], rest)
  | '\\' :: '\\' :: rest => (readQuoted rest).map (Prod.map ('\\' :: ·) id)
  | '\\' :: '"' :: rest  => (readQuoted rest).map (Prod.map ('"' :: ·) id)
  | '\\' :: 'n' :: rest  => (readQuoted rest).map (Prod.map ('\n' :: ·) id)
  | '\\' :: _            => none
  | c :: rest            => (readQuoted rest).map (Prod.map (c :: ·) id)
  | []                   => none

def readLabel (text : Text) : Option (Label × Text) :=
  let (name, rest) := text.span isNameChar
  if isLabelName name then
    match dropBlanks rest with
    | '=' :: rest =>
      match dropBlanks rest with
      | '"' :: rest => (readQuoted rest).map fun (value, rest) => ((name, value), rest)
      | _           => none
    | _           => none
  else none

-- Labels behind an opening brace. There are no more than the given number of them.
def readLabels : Nat → Text → Option (List Label × Text)
  | 0,     _    => none
  | n + 1, text =>
    match dropBlanks text with
    | '}' :: rest => some ([], rest)
    | text        =>
      match readLabel text with
      | none               => none
      | some (label, rest) =>
        match dropBlanks rest with
        | ',' :: rest => (readLabels n rest).map (Prod.map (label :: ·) id)
        | '}' :: rest => some ([label], rest)
        | _           => none

def readValue (name : Text) (labels : List Label) (text : Text) : Option Sample :=
  let (value, rest)     := token (dropBlanks text)
  let (timestamp, rest) := token (dropBlanks rest)
  if isNumber value ∧ (timestamp = [] ∨ isInteger timestamp) ∧ dropBlanks rest = [] then
    some { name, labels, value, timestamp := if timestamp = [] then none else some timestamp }
  else none

def readSample (text : Text) : Option Sample :=
  let (name, rest) := text.span isNameChar
  if isMetricName name then
    match dropBlanks rest with
    | '{' :: rest => (readLabels (rest.length + 1) rest).bind fun (labels, rest) =>
      if (labels.map Prod.fst).Nodup then readValue name labels rest else none
    | rest        => readValue name [] rest
  else none

-- What stands behind a hash sign is a comment, unless it begins with one of two words.
def readHash (text : Text) : Option (Option Line) :=
  let (word, rest) := token (dropBlanks text)
  let (name, rest) := token (dropBlanks rest)
  if word = "HELP".toList then
    if isMetricName name then (unescapeHelp (dropBlanks rest)).map fun text => some (.help name text)
    else none
  else if word = "TYPE".toList then
    let (kind, rest) := token (dropBlanks rest)
    if isMetricName name ∧ kind ∈ kinds ∧ dropBlanks rest = [] then some (some (.type name kind))
    else none
  else some none

def readLine (text : Text) : Option (Option Line) :=
  match dropBlanks text with
  | []        => some none
  | '#' :: text => readHash text
  | text      => (readSample text).map fun s => some (.sample s)

def read (text : Text) : Option (List Line) :=
  ((text.splitOn '\n').mapM readLine).map List.reduceOption

def escapeChar (c : Char) : Text :=
  if c = '\\' then ['\\', '\\'] else if c = '"' then ['\\', '"'] else if c = '\n' then ['\\', 'n']
  else [c]

def escape (text : Text) : Text :=
  text.flatMap escapeChar

def renderLabel (label : Label) : Text :=
  label.fst ++ ['=', '"'] ++ escape label.snd ++ ['"']

def renderLabels : List Label → Text
  | []     => []
  | labels => '{' :: [','].intercalate (labels.map renderLabel) ++ ['}']

def Sample.render (s : Sample) : Text :=
  s.name ++ renderLabels s.labels ++ [' '] ++ s.value

def Line.render : Line → Text
  | .help name text => "# HELP ".toList ++ name ++ [' '] ++ text
  | .type name kind => "# TYPE ".toList ++ name ++ [' '] ++ kind
  | .sample s       => s.render

def render (lines : List Line) : Text :=
  lines.flatMap fun line => line.render ++ ['\n']

-- What can be written without escapes.
structure PlainHelp (text : Text) : Prop where
  newline   : '\n' ∉ text
  backslash : '\\' ∉ text
  blank     : ∀ c ∈ text.head?, isBlank c = false

structure ProperSample (s : Sample) : Prop where
  name      : isMetricName s.name = true
  labels    : ∀ label ∈ s.labels, isLabelName label.fst = true
  distinct  : (s.labels.map Prod.fst).Nodup
  value     : isNumber s.value = true
  timestamp : s.timestamp = none

def Line.Proper : Line → Prop
  | .help name text => isMetricName name = true ∧ PlainHelp text
  | .type name kind => isMetricName name = true ∧ kind ∈ kinds
  | .sample s       => ProperSample s

variable {text rest name kind value : Text} {c : Char} {labels : List Label} {n : Nat}

theorem span_append {p : Char → Bool} (h : ∀ c ∈ text, p c = true)
    (hr : ∀ c ∈ rest.head?, p c = false) : (text ++ rest).span p = (text, rest) := by
  rw [List.span_eq_takeWhile_dropWhile, List.takeWhile_append_of_pos h, List.dropWhile_append_of_pos h]
  cases rest
  case nil         => simp
  case cons c rest => simp [hr c rfl]

theorem dropBlanks_eq (h : ∀ c ∈ text.head?, isBlank c = false) : dropBlanks text = text := by
  cases text
  case nil         => rfl
  case cons c text => exact List.dropWhile_cons_of_neg (by simp [h c rfl])

theorem dropBlanks_cons (h : isBlank c = false) : dropBlanks (c :: text) = c :: text :=
  List.dropWhile_cons_of_neg (by simp [h])

theorem dropBlanks_cons_blank (h : ∀ c ∈ text.head?, isBlank c = false) :
    dropBlanks (' ' :: text) = text := by
  rw [dropBlanks, List.dropWhile_cons_of_pos (by decide)]
  exact dropBlanks_eq h

theorem isBlank_of_isNameChar (h : isNameChar c = true) : isBlank c = false := by
  simp only [isBlank, Bool.or_eq_false_iff, decide_eq_false_iff_not]
  exact ⟨fun hc => by simp [hc, isNameChar, isNameStart] at h,
    fun hc => by simp [hc, isNameChar, isNameStart] at h⟩

theorem all_of_isMetricName (h : isMetricName name = true) : ∀ c ∈ name, isNameChar c = true := by
  simp only [isMetricName, Bool.and_eq_true, List.all_eq_true] at h
  exact h.right

theorem isMetricName_of_isLabelName (h : isLabelName name = true) : isMetricName name = true := by
  simp only [isLabelName, Bool.and_eq_true] at h
  exact h.left

-- Names are not empty.
theorem exists_cons_of_isMetricName (h : isMetricName name = true) :
    ∃ c rest, name = c :: rest ∧ isNameChar c = true := by
  cases name
  case nil         => exact absurd h (by decide)
  case cons c rest => exact ⟨c, rest, rfl, all_of_isMetricName h c List.mem_cons_self⟩

-- The characters of numbers.
def isNumberChar (c : Char) : Bool :=
  c.isDigit || "NaNinf.-".toList.contains c

theorem all_of_isDecimal (h : isDecimal text = true) :
    text ≠ [] ∧ ∀ c ∈ text, isNumberChar c = true := by
  unfold isDecimal at h
  rw [List.span_eq_takeWhile_dropWhile] at h
  simp only [Bool.and_eq_true, Bool.not_eq_true', List.isEmpty_eq_false_iff] at h
  have ⟨hw, hr⟩ := h
  have digits : ∀ c ∈ text.takeWhile Char.isDigit, isNumberChar c = true := fun c hc => by
    have hd : c.isDigit = true := List.all_eq_true.mp List.all_takeWhile c hc
    simp [isNumberChar, hd]
  have others : ∀ c ∈ text.dropWhile Char.isDigit, isNumberChar c = true := by
    split at hr
    case h_1 hd => simp [hd]
    case h_2 fraction hd =>
      rw [hd]
      simp only [Bool.and_eq_true, List.all_eq_true] at hr
      intro c hc
      cases List.mem_cons.mp hc
      case inl hc => exact hc ▸ rfl
      case inr hc => simp [isNumberChar, hr.right c hc]
    case h_3 => exact absurd hr (by decide)
  constructor
  case left =>
    intro hn
    simp [hn] at hw
  case right =>
    intro c hc
    rw [← List.takeWhile_append_dropWhile (p := Char.isDigit) (l := text)] at hc
    exact (List.mem_append.mp hc).elim (digits c) (others c)

theorem all_of_isNumber (h : isNumber text = true) :
    text ≠ [] ∧ ∀ c ∈ text, isNumberChar c = true := by
  have names : ∀ t ∈ ["NaN".toList, "inf".toList], t ≠ [] ∧ ∀ c ∈ t, isNumberChar c = true := by
    have ha : ∀ t ∈ ["NaN".toList, "inf".toList], t ≠ [] ∧ t.all isNumberChar = true := by decide
    exact fun t ht => ⟨(ha t ht).left, List.all_eq_true.mp (ha t ht).right⟩
  simp only [isNumber, Bool.or_eq_true, decide_eq_true_eq, or_assoc] at h
  rcases h with h | h | h
  · exact h ▸ names _ (by simp)
  · exact h ▸ names _ (by simp)
  · split at h
    case h_1 text =>
      have minus (ht : ∀ c ∈ text, isNumberChar c = true) :
          '-' :: text ≠ [] ∧ ∀ c ∈ '-' :: text, isNumberChar c = true :=
        ⟨List.cons_ne_nil _ _, List.forall_mem_cons.mpr ⟨rfl, ht⟩⟩
      simp only [Bool.or_eq_true, decide_eq_true_eq] at h
      cases h
      case inl h => exact minus (h ▸ (names _ (by simp)).right)
      case inr h => exact minus (all_of_isDecimal h).right
    case h_2 => exact all_of_isDecimal h

theorem isNumber_of_digits (hn : text ≠ []) (h : ∀ c ∈ text, c.isDigit = true) :
    isNumber text = true := by
  have hd : isDecimal text = true := by
    have hs : text.span Char.isDigit = (text, []) := by
      have hs : (text ++ []).span Char.isDigit = (text, []) := span_append h nofun
      rwa [List.append_nil] at hs
    unfold isDecimal
    rw [hs]
    simpa using hn
  simp only [isNumber, Bool.or_eq_true]
  right
  split
  case h_1 => exact absurd (h '-' List.mem_cons_self) (by decide)
  case h_2 => exact hd

theorem isNumberChar_ne (h : isNumberChar c = true) :
    isBlank c = false ∧ c ≠ '\n' ∧ c ≠ '#' ∧ c ≠ '{' := by
  have hd (d : Char) (hd : isNumberChar d = false) : c ≠ d := fun hc => by simp [hc, hd] at h
  refine ⟨?_, hd '\n' (by decide), hd '#' (by decide), hd '{' (by decide)⟩
  simpa [isBlank] using ⟨hd ' ' (by decide), hd '\t' (by decide)⟩

theorem escape_cons : escape (c :: text) = escapeChar c ++ escape text :=
  rfl

theorem escape_eq (h : ∀ c ∈ text, escapeChar c = [c]) : escape text = text := by
  induction text
  case nil            => rfl
  case cons c text hi =>
    have ⟨hc, ht⟩ := List.forall_mem_cons.mp h
    rw [escape_cons, hc, hi ht]
    rfl

theorem readQuoted_escape : readQuoted (escape text ++ '"' :: rest) = some (text, rest) := by
  induction text
  case nil => rfl
  case cons c text hi =>
    rw [escape_cons, List.append_assoc]
    by_cases hb : c = '\\'
    case pos => simp [escapeChar, hb, readQuoted, hi]
    case neg =>
      by_cases hq : c = '"'
      case pos => simp [escapeChar, hq, readQuoted, hi]
      case neg =>
        by_cases hn : c = '\n'
        case pos => simp [escapeChar, hn, readQuoted, hi]
        case neg => simp [escapeChar, hb, hq, hn, readQuoted, hi]

theorem readLabel_render {label : Label} (h : isLabelName label.fst = true) :
    readLabel (renderLabel label ++ rest) = some (label, rest) := by
  have ha := all_of_isMetricName (isMetricName_of_isLabelName h)
  have hs : (renderLabel label ++ rest).span isNameChar =
      (label.fst, '=' :: '"' :: (escape label.snd ++ '"' :: rest)) := by
    have he : renderLabel label ++ rest =
        label.fst ++ '=' :: '"' :: (escape label.snd ++ '"' :: rest) := by simp [renderLabel]
    rw [he]
    exact span_append ha (by simp; decide)
  have hd : dropBlanks ('=' :: '"' :: (escape label.snd ++ '"' :: rest)) =
      '=' :: '"' :: (escape label.snd ++ '"' :: rest) := dropBlanks_cons rfl
  have hq : dropBlanks ('"' :: (escape label.snd ++ '"' :: rest)) =
      '"' :: (escape label.snd ++ '"' :: rest) := dropBlanks_cons rfl
  simp only [readLabel, hs, h, if_true, hd, hq, readQuoted_escape, Option.map_some]

-- A label starts with its name.
theorem exists_cons_of_label {label : Label} (h : isLabelName label.fst = true) :
    ∃ c rest, renderLabel label = c :: rest ∧ isNameChar c = true := by
  have ⟨c, name, hn, hc⟩ := exists_cons_of_isMetricName (isMetricName_of_isLabelName h)
  exact ⟨c, _, by rw [renderLabel, hn]; rfl, hc⟩

theorem readLabels_render (hl : ∀ label ∈ labels, isLabelName label.fst = true)
    (hn : labels ≠ []) (hk : labels.length ≤ n) :
    readLabels n ([','].intercalate (labels.map renderLabel) ++ '}' :: rest) =
      some (labels, rest) := by
  induction labels generalizing n
  case nil => exact absurd rfl hn
  case cons label labels hi =>
    have ⟨h, ht⟩ := List.forall_mem_cons.mp hl
    cases n
    case zero => exact absurd hk (by simp)
    case succ n =>
      have step (more : Text) : readLabels (n + 1) (renderLabel label ++ more) =
          match dropBlanks more with
          | ',' :: rest => (readLabels n rest).map (Prod.map (label :: ·) id)
          | '}' :: rest => some ([label], rest)
          | _           => none := by
        have ⟨c, tail, hc, hcn⟩ := exists_cons_of_label h
        have hd : dropBlanks (renderLabel label ++ more) = renderLabel label ++ more := by
          apply dropBlanks_eq
          rw [hc]
          simpa using isBlank_of_isNameChar hcn
        rw [readLabels, hd]
        split
        case h_1 he =>
          rw [hc, List.cons_append] at he
          have he := (List.cons.inj he).left
          exact absurd hcn (by rw [he]; decide)
        case h_2 => rw [readLabel_render h]
      cases labels
      case nil =>
        have he : [','].intercalate (List.map renderLabel [label]) ++ '}' :: rest =
            renderLabel label ++ '}' :: rest := by simp [List.intercalate]
        have hd : dropBlanks ('}' :: rest) = '}' :: rest := dropBlanks_cons rfl
        rw [he, step, hd]
        rfl
      case cons label' labels =>
        have he : [','].intercalate (List.map renderLabel (label :: label' :: labels)) ++ '}' :: rest =
            renderLabel label ++ ',' ::
              ([','].intercalate (List.map renderLabel (label' :: labels)) ++ '}' :: rest) := by
          simp [List.intercalate]
        have hi := hi ht (List.cons_ne_nil _ _) (Nat.le_of_succ_le_succ hk)
        have hd (more : Text) : dropBlanks (',' :: more) = ',' :: more :=
          dropBlanks_cons rfl
        rw [he, step, hd]
        simp only [hi, Option.map_some, Prod.map, id]

theorem length_le_intercalate :
    labels.length ≤ ([','].intercalate (labels.map renderLabel)).length + 1 := by
  induction labels
  case nil => simp
  case cons label labels hi =>
    cases labels
    case nil => simp
    case cons label' labels =>
      have he : [','].intercalate ((label :: label' :: labels).map renderLabel) =
          renderLabel label ++ ',' :: [','].intercalate ((label' :: labels).map renderLabel) := by
        simp [List.intercalate]
      rw [he, List.length_append]
      simp only [List.length_cons] at hi ⊢
      omega

theorem readSample_render {s : Sample} (p : ProperSample s) : readSample s.render = some s := by
  have ⟨hv, hc⟩ := all_of_isNumber p.value
  have ha := all_of_isMetricName p.name
  have head : ∀ c ∈ s.value.head?, isBlank c = false := fun c h =>
    (isNumberChar_ne (hc c (List.mem_of_mem_head? h))).left
  have value (labels : List Label) : readValue s.name labels (' ' :: s.value) =
      some { s with labels } := by
    have hs : token s.value = (s.value, []) := by
      have ht : (s.value ++ []).span (!isBlank ·) = (s.value, []) :=
        span_append (fun c h => by simp [(isNumberChar_ne (hc c h)).left]) nofun
      simpa [token] using ht
    have hd : dropBlanks [] = [] := rfl
    have ht : token [] = ([], []) := rfl
    simp only [readValue, dropBlanks_cons_blank head, hs, hd, ht, p.value, p.timestamp, and_self,
      true_or, if_true]
  unfold readSample
  cases hl : s.labels
  case nil =>
    have hs : s.render.span isNameChar = (s.name, ' ' :: s.value) := by
      have he : s.render = s.name ++ ' ' :: s.value := by simp [Sample.render, hl, renderLabels]
      rw [he]
      exact span_append ha (by simp; decide)
    simp only [hs, p.name, if_true, dropBlanks_cons_blank head]
    split
    case h_1 rest he =>
      have hb := (isNumberChar_ne (hc '{' (he ▸ List.mem_cons_self))).right.right.right
      exact absurd rfl hb
    case h_2 =>
      have hr : readValue s.name [] s.value = readValue s.name [] (' ' :: s.value) := by
        simp only [readValue, dropBlanks_cons_blank head, dropBlanks_eq head]
      rw [hr, value, ← hl]
  case cons label labels =>
    have hn : label :: labels ≠ [] := List.cons_ne_nil _ _
    have he : s.render = s.name ++ '{' ::
        ([','].intercalate ((label :: labels).map renderLabel) ++ '}' :: ' ' :: s.value) := by
      simp [Sample.render, hl, renderLabels]
    have hs : s.render.span isNameChar = (s.name, '{' ::
        ([','].intercalate ((label :: labels).map renderLabel) ++ '}' :: ' ' :: s.value)) := by
      rw [he]
      exact span_append ha (by simp; decide)
    have hd (more : Text) : dropBlanks ('{' :: more) = '{' :: more := dropBlanks_cons rfl
    have hk : (label :: labels).length ≤
        ([','].intercalate ((label :: labels).map renderLabel) ++ '}' :: ' ' :: s.value).length + 1 := by
      rw [List.length_append]
      exact length_le_intercalate.trans (by omega)
    have hr := @readLabels_render (' ' :: s.value) _ _ (hl ▸ p.labels) hn hk
    have hdist : ((label :: labels).map Prod.fst).Nodup := hl ▸ p.distinct
    simp only [hs, p.name, if_true, hd, hr, Option.bind_some, hdist, value]
    rw [← hl]

theorem not_blank_of_any (h : text.any isBlank = false) : ∀ c ∈ text, isBlank c = false := by
  simpa using h

theorem token_append (h : ∀ c ∈ text, isBlank c = false) :
    token (text ++ ' ' :: rest) = (text, ' ' :: rest) :=
  span_append (fun c hc => by simp [h c hc]) (by simp; decide)

theorem token_eq (h : ∀ c ∈ text, isBlank c = false) : token text = (text, []) := by
  have hs : (text ++ []).span (!isBlank ·) = (text, []) :=
    span_append (fun c hc => by simp [h c hc]) nofun
  simpa [token] using hs

theorem unescapeHelp_eq (h : '\\' ∉ text) : unescapeHelp text = some text := by
  induction text
  case nil => rfl
  case cons c text hi =>
    have ⟨hc, ht⟩ := not_or.mp (List.mem_cons.not.mp h)
    rw [unescapeHelp, hi ht, Option.map_some]
    all_goals
      intros
      simp_all

theorem name_not_blank (h : isMetricName name = true) : ∀ c ∈ name, isBlank c = false :=
  fun c hc => isBlank_of_isNameChar (all_of_isMetricName h c hc)

theorem head_not_blank (h : isMetricName name = true) :
    ∀ c ∈ (name ++ rest).head?, isBlank c = false := by
  have ⟨c, tail, hn, hc⟩ := exists_cons_of_isMetricName h
  rw [hn]
  simpa using isBlank_of_isNameChar hc

theorem readHash_help (h : isMetricName name = true) (p : PlainHelp text) :
    readHash (" HELP ".toList ++ name ++ [' '] ++ text) = some (some (.help name text)) := by
  have hw : ∀ c ∈ "HELP".toList, isBlank c = false := not_blank_of_any (by decide)
  have hd : dropBlanks (" HELP ".toList ++ name ++ [' '] ++ text) =
      "HELP".toList ++ ' ' :: (name ++ ' ' :: text) := by
    have he : " HELP ".toList ++ name ++ [' '] ++ text =
        ' ' :: ("HELP".toList ++ ' ' :: (name ++ ' ' :: text)) := by simp
    rw [he]
    exact dropBlanks_cons_blank fun _ hc => Option.some_inj.mp hc ▸ rfl
  simp only [readHash, hd, token_append hw, dropBlanks_cons_blank (head_not_blank h),
    token_append (name_not_blank h), if_true, h, dropBlanks_cons_blank p.blank,
    unescapeHelp_eq p.backslash, Option.map_some]

theorem readHash_type (h : isMetricName name = true) (hk : kind ∈ kinds) :
    readHash (" TYPE ".toList ++ name ++ [' '] ++ kind) = some (some (.type name kind)) := by
  have hw : ∀ c ∈ "TYPE".toList, isBlank c = false := not_blank_of_any (by decide)
  have ht : "TYPE".toList ≠ "HELP".toList := by decide
  have hall : ∀ kind ∈ kinds, kind.any isBlank = false := by decide
  have hkb := not_blank_of_any (hall kind hk)
  have hd : dropBlanks (" TYPE ".toList ++ name ++ [' '] ++ kind) =
      "TYPE".toList ++ ' ' :: (name ++ ' ' :: kind) := by
    have he : " TYPE ".toList ++ name ++ [' '] ++ kind =
        ' ' :: ("TYPE".toList ++ ' ' :: (name ++ ' ' :: kind)) := by simp
    rw [he]
    exact dropBlanks_cons_blank fun _ hc => Option.some_inj.mp hc ▸ rfl
  have hb : dropBlanks (' ' :: kind) = kind :=
    dropBlanks_cons_blank fun c hc => hkb c (List.mem_of_mem_head? hc)
  have hn : dropBlanks [] = [] := rfl
  simp only [readHash, hd, token_append hw, dropBlanks_cons_blank (head_not_blank h),
    token_append (name_not_blank h), ht, if_false, if_true, h, hb, token_eq hkb, hk, hn, and_self]

theorem readLine_hash : readLine ('#' :: text) = readHash text := by
  have hd : dropBlanks ('#' :: text) = '#' :: text := dropBlanks_cons (by decide)
  simp only [readLine, hd]

theorem readLine_name (h : isNameChar c = true) :
    readLine (c :: text) = (readSample (c :: text)).map fun s => some (.sample s) := by
  unfold readLine
  rw [dropBlanks_cons (isBlank_of_isNameChar h)]
  split
  case h_1 he => exact absurd he (List.cons_ne_nil _ _)
  case h_2 he =>
    have hx := (List.cons.inj he).left
    exact absurd h (by rw [hx]; decide)
  case h_3 => rfl

theorem render_help :
    (Line.help name text).render = '#' :: (" HELP ".toList ++ name ++ [' '] ++ text) := by
  have hw : "# HELP ".toList = '#' :: " HELP ".toList := by decide
  have hr : (Line.help name text).render = "# HELP ".toList ++ name ++ [' '] ++ text := rfl
  rw [hr, hw]
  simp only [List.cons_append]

theorem render_type :
    (Line.type name kind).render = '#' :: (" TYPE ".toList ++ name ++ [' '] ++ kind) := by
  have hw : "# TYPE ".toList = '#' :: " TYPE ".toList := by decide
  have hr : (Line.type name kind).render = "# TYPE ".toList ++ name ++ [' '] ++ kind := rfl
  rw [hr, hw]
  simp only [List.cons_append]

theorem render_sample {s : Sample} : (Line.sample s).render = s.render :=
  rfl

-- Each line is read back as what it was written for.
theorem readLine_render {line : Line} (p : line.Proper) : readLine line.render = some (some line) := by
  cases line
  case help name text =>
    have ⟨h, p⟩ := p
    rw [render_help, readLine_hash, readHash_help h p]
  case type name kind =>
    have ⟨h, hk⟩ := p
    rw [render_type, readLine_hash, readHash_type h hk]
  case sample s =>
    have p : ProperSample s := p
    have ⟨c, tail, hn, hc⟩ := exists_cons_of_isMetricName p.name
    have ⟨more, he⟩ : ∃ more, s.render = c :: more := ⟨_, by rw [Sample.render, hn]; rfl⟩
    rw [render_sample, he, readLine_name hc, ← he, readSample_render p, Option.map_some]

-- A comment says nothing.
theorem readHash_comment {word : Text} (hw : ∀ c ∈ word, isBlank c = false)
    (hn : word ≠ "HELP".toList ∧ word ≠ "TYPE".toList ∧ word ≠ []) :
    readHash (' ' :: (word ++ ' ' :: rest)) = some none := by
  have hd : dropBlanks (' ' :: (word ++ ' ' :: rest)) = word ++ ' ' :: rest := by
    apply dropBlanks_cons_blank
    cases word
    case nil         => exact absurd rfl hn.right.right
    case cons c word => simpa using hw c List.mem_cons_self
  simp only [readHash, hd, token_append hw, hn.left, hn.right.left, if_false]

theorem mem_intercalate {texts : List Text} (h : c ∈ [','].intercalate texts) (hc : c ≠ ',') :
    ∃ text ∈ texts, c ∈ text := by
  induction texts
  case nil => exact absurd h List.not_mem_nil
  case cons text texts hi =>
    cases texts
    case nil => exact ⟨text, List.mem_cons_self, by simpa [List.intercalate] using h⟩
    case cons text' texts =>
      have he : [','].intercalate (text :: text' :: texts) =
          text ++ ',' :: [','].intercalate (text' :: texts) := by simp [List.intercalate]
      rw [he, List.mem_append, List.mem_cons] at h
      match h with
      | .inl h          => exact ⟨text, List.mem_cons_self, h⟩
      | .inr (.inl h)   => exact absurd h hc
      | .inr (.inr h)   =>
        have ⟨text, ht, hm⟩ := hi h
        exact ⟨text, List.mem_cons_of_mem _ ht, hm⟩

theorem newline_not_mem_name (h : isMetricName name = true) : '\n' ∉ name :=
  fun hm => absurd (all_of_isMetricName h _ hm) (by decide)

theorem newline_not_mem_escape : '\n' ∉ escape text := by
  intro hm
  have ⟨c, _, hc⟩ := List.mem_flatMap.mp hm
  unfold escapeChar at hc
  split_ifs at hc
  case pos           => simp at hc
  case pos           => simp at hc
  case pos           => simp at hc
  case neg hb hq hn  => exact hn (List.mem_singleton.mp hc).symm

theorem newline_not_mem_render {line : Line} (p : line.Proper) : '\n' ∉ line.render := by
  cases line
  case help name text =>
    have ⟨h, p⟩ := p
    rw [render_help]
    simp [newline_not_mem_name h, p.newline]
  case type name kind =>
    have ⟨h, hk⟩ := p
    have hall : ∀ kind ∈ kinds, '\n' ∉ kind := by decide
    rw [render_type]
    simp [newline_not_mem_name h, hall kind hk]
  case sample s =>
    have p : ProperSample s := p
    have hv : '\n' ∉ s.value := fun hm =>
      absurd ((all_of_isNumber p.value).right _ hm) (by decide)
    have hl : '\n' ∉ renderLabels s.labels := by
      cases hl : s.labels
      case nil => exact List.not_mem_nil
      case cons label labels =>
        have hi : '\n' ∉ [','].intercalate ((label :: labels).map renderLabel) := by
          intro hm
          have ⟨text, ht, hm⟩ := mem_intercalate hm (by decide)
          have ⟨label, hl', he⟩ := List.mem_map.mp ht
          have hn := newline_not_mem_name (isMetricName_of_isLabelName (p.labels label (hl ▸ hl')))
          simp [← he, renderLabel, hn, newline_not_mem_escape] at hm
        simpa [renderLabels] using hi
    simp [render_sample, Sample.render, newline_not_mem_name p.name, hl, hv]

theorem read_cons (h : '\n' ∉ text) :
    read (text ++ '\n' :: rest) = (readLine text).bind fun line =>
      (read rest).map fun lines => line.toList ++ lines := by
  rw [read, read, List.splitOn_append_cons_self_of_not_mem h, List.mapM_cons]
  cases readLine text
  case none => rfl
  case some line =>
    cases (rest.splitOn '\n').mapM readLine
    case none       => rfl
    case some lines => cases line <;> rfl

-- A text is read back as the lines it was written for.
theorem read_render {lines : List Line} (h : ∀ line ∈ lines, line.Proper) :
    read (render lines) = some lines := by
  induction lines
  case nil => rfl
  case cons line lines hi =>
    have ⟨p, ht⟩ := List.forall_mem_cons.mp h
    have hr : render (line :: lines) = line.render ++ '\n' :: render lines := by simp [render]
    rw [hr, read_cons (newline_not_mem_render p), readLine_render p, hi ht]
    rfl

end Exposition
