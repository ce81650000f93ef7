import Std.Data.TreeMap.Lemmas
import Xfr.Library.Affix
import Xfr.Library.Base64
import Xfr.Library.Percent
import Xfr.Library.Whitespace
import Xfr.Report.Sample

open Utf8 (Text)

-- An address of a gateway: what of it the segments of a path are added to, and its query.
structure Url where
  path  : Text
  query : Option Text
  deriving DecidableEq

-- How the library for addresses changes a path.
namespace Url

def isDropped (c : Char) : Bool :=
  c = '\t' || c = '\n' || c = '\r'

def isDot (segment : Text) : Bool :=
  segment = ".".toList || segment = "..".toList

def popIfEmpty (url : Url) : Url :=
  if url.path.length > 1 ∧ url.path.getLast? = some '/' then { url with path := url.path.dropLast }
  else url

-- What is left of the characters of a text.
def kept (text : Text) : Text :=
  text.filter (!isDropped ·)

-- The path without the segment in front of its last slash.
def parent (path : Text) : Text :=
  if path = ['/'] then path else path.dropLast.rdropWhile (· ≠ '/')

-- The path of the root takes no further slash. Dot segments are skipped, unless they only become dot
-- segments once characters were dropped: one dot then leaves an empty segment, and two dots remove
-- the segment before.
def push (keep : Char → Bool) (url : Url) (text : Text) : Url :=
  if isDot text then url else
    let path := if url.path = ['/'] then url.path else url.path ++ ['/']
    if kept text = ".".toList then { url with path }
    else if kept text = "..".toList then { url with path := parent path }
    else { url with path := path ++ Percent.encode keep (kept text) }

end Url

namespace PushGateway

abbrev Label := Text × Text

abbrev LabelMap := Std.TreeMap Text Text

inductive LabelError
  | invalid (name : Text)
  | noValue (label : Text)
  | duplicate (name : Text)

-- The texts show names as the language does for debugging.
def LabelError.toText (debug : Text → Text) : LabelError → Text
  | .invalid name   => "invalid or reserved push label name ".toList ++ debug name
  | .noValue label  => "push label must be key=value: ".toList ++ debug label
  | .duplicate name => "duplicate push label ".toList ++ debug name

def reserved : List Text :=
  ["job", "role", "server", "client", "protocol", "test_direction", "direction", "view", "test_id",
    "stream_id"].map String.toList

-- Names are compared character by character.
local instance : LawfulBEq Text :=
  inferInstance

def isName (name : Text) : Bool :=
  !name.isEmpty && name.zipIdx.all (fun (c, i) => c.isAlpha || c = '_' || (i > 0 && c.isDigit)) &&
    !"__".toList.isPrefixOf name && !"U__".toList.isPrefixOf name && name ∉ reserved

def validatePushLabels (labels : LabelMap) : Except LabelError Unit :=
  match labels.keys.find? (!isName ·) with
  | some name => .error (.invalid name)
  | none      => .ok ()

def addOverride (overrides : LabelMap) (label : Text) : Except LabelError LabelMap :=
  match Affix.splitOnce ['='] label with
  | none               => .error (.noValue label)
  | some (name, value) =>
    if name ∈ overrides then .error (.duplicate name) else .ok (overrides.insert name value)

def mergePushLabels (labels : LabelMap) (cli : List Text) : Except LabelError LabelMap := do
  let overrides ← cli.foldlM addOverride ∅
  let labels := labels.insertMany overrides.toList
  validatePushLabels labels
  return labels

-- Names which the program gives itself are made of letters and underscores.
def isTame (name : Text) : Bool :=
  !name.isEmpty && name.all fun c => c.isAlphanum || c = '_'

end PushGateway

open PushGateway

structure PushGatewayClient where
  url            : Url
  groupingLabels : List Label                              := []
  test           : Option (Protocol × Protocol.Direction)  := none
  labels         : LabelMap                                := ∅
  job            : Option Text                             := none
  tame           : ∀ label ∈ groupingLabels, isTame label.fst = true := by simp

-- The name under which the other end is reported.
inductive EndpointName
  | server
  | client

namespace PushGatewayClient

def endpointName : EndpointName → Text
  | .server => "server".toList
  | .client => "client".toList

theorem isTame_endpointName {name : EndpointName} : isTame (endpointName name) = true := by
  cases name <;> decide

def withTest (client : PushGatewayClient) (protocol : Protocol) (direction : Protocol.Direction) :
    PushGatewayClient :=
  { client with test := some (protocol, direction) }

def withLabels (client : PushGatewayClient) (labels : LabelMap) :
    Except LabelError PushGatewayClient := do
  validatePushLabels labels
  return { client with labels }

def withJob (client : PushGatewayClient) (job : Text) : Option PushGatewayClient :=
  if (Utf8.trim job).isEmpty then none else some { client with job }

def withEndpoint (client : PushGatewayClient) (name : EndpointName) (value role : Text) :
    PushGatewayClient :=
  { client with
    groupingLabels := [("role".toList, role), (endpointName name, value)]
    tame           := by
      have hr : isTame "role".toList = true := by decide
      exact List.forall_mem_cons.mpr ⟨hr, List.forall_mem_singleton.mpr isTame_endpointName⟩ }

-- In lower case, as it is grouped.
def protocolName : Protocol → Text
  | .tcp  => "tcp".toList
  | .udp  => "udp".toList
  | .quic => "quic".toList

def directionName : Protocol.Direction → Text
  | .upload   => "upload".toList
  | .download => "download".toList
  | .bidir    => "bidir".toList

-- Without the context of a test the program panics when there is a job.
def testLabels (client : PushGatewayClient) : Option (List Label) :=
  match client.job with
  | none   => some []
  | some _ => client.test.map fun (protocol, direction) =>
    [("protocol".toList, protocolName protocol), ("test_direction".toList, directionName direction)]

-- The job and the labels in their order.
def grouping (client : PushGatewayClient) (testId : Text) : Option (List Label) :=
  client.testLabels.map fun labels =>
    ("job".toList, client.job.getD ("xfr_test_".toList ++ testId)) ::
      (client.groupingLabels ++ labels ++ client.labels.toList)

def inBase64 (value : Text) : Bool :=
  value.isEmpty || value.contains '/' || Url.isDot value

def marker : Text :=
  "@base64".toList

-- The segments of a label.
def segments (label : Label) : List Text :=
  let (name, value) := label
  if inBase64 value then
    [name ++ marker, if value.isEmpty then ['='] else Base64.encode (Utf8.encode value)]
  else [name, value]

def pushUrl (keep : Char → Bool) (client : PushGatewayClient) (testId : Text) : Option Url :=
  (client.grouping testId).map fun labels =>
    (labels.flatMap segments).foldl (Url.push keep) (client.url.popIfEmpty.push keep "metrics".toList)

end PushGatewayClient

-- What a gateway reads from an address.
namespace PushGateway

-- The path which was configured, without a slash behind it.
def gatewayPath (url : Url) : Text :=
  if url.popIfEmpty.path = ['/'] then [] else url.popIfEmpty.path

def readLabel (name value : Text) : Option Label :=
  match Affix.splitOnce PushGatewayClient.marker name with
  | some (name, []) =>
    (Base64.decode (value.rdropWhile (· = '='))).map fun bytes => (name, Utf8.decodeLossy bytes)
  | _               => some (name, value)

def readLabels : List Text → Option (List Label)
  | []                    => some []
  | name :: value :: rest => do
    let label ← readLabel name value
    let labels ← readLabels rest
    return label :: labels
  | [_]                   => none

def read (gateway : Text) (url : Url) : Option (List Label) :=
  if gateway.isPrefixOf url.path then
    match ((url.path.drop gateway.length).splitOn '/').map Percent.decode with
    | [] :: metrics :: segments => if metrics = "metrics".toList then readLabels segments else none
    | _                         => none
  else none

end PushGateway

namespace Url

variable {keep : Char → Bool} {url : Url} {text : Text} {texts : List Text}

theorem kept_eq_self (hd : ∀ c ∈ text, isDropped c = false) : kept text = text :=
  List.filter_eq_self.mpr (by simpa using hd)

-- A text without a trace of a dot segment is appended.
theorem push_eq (h : url.path ≠ ['/']) (ht : isDot text = false) (hk : isDot (kept text) = false) :
    url.push keep text = { url with path := url.path ++ '/' :: Percent.encode keep (kept text) } := by
  simp only [isDot, Bool.or_eq_false_iff, decide_eq_false_iff_not] at hk
  simp only [push, h, ht, hk.left, hk.right, Bool.false_eq_true, if_false, List.append_assoc,
    List.singleton_append]

theorem query_push : (url.push keep text).query = url.query := by
  simp only [push]
  split_ifs <;> rfl

theorem push_dot (h : url.path ≠ ['/']) (ht : isDot text = false) (hk : kept text = ".".toList) :
    url.push keep text = { url with path := url.path ++ ['/'] } := by
  simp [push, h, ht, hk]

-- Two dots take back what was pushed before.
theorem push_dots {path segment : Text} (hp : url.path = path ++ '/' :: segment) (h : path ≠ [])
    (hs : '/' ∉ segment) (ht : isDot text = false) (hk : kept text = "..".toList) :
    url.push keep text = { url with path := path ++ ['/'] } := by
  have hn : url.path ≠ ['/'] := fun he => by
    have hl := congrArg List.length (hp.symm.trans he)
    have := List.length_pos_of_ne_nil h
    simp only [List.length_append, List.length_cons, List.length_nil] at hl
    omega
  have hr : (path ++ '/' :: segment).rdropWhile (· ≠ '/') = path ++ ['/'] := by
    have hd : (path ++ ['/'] ++ segment).rdropWhile (· ≠ '/') = path ++ ['/'] := by
      rw [List.rdropWhile, List.reverse_append, List.dropWhile_append_of_pos]
      · simp
      · exact fun c hc => decide_eq_true fun he => hs (he ▸ List.mem_reverse.mp hc)
    rwa [List.append_assoc] at hd
  have hl : url.path ++ ['/'] ≠ ['/'] := fun he => by
    have hl := congrArg List.length he
    simp only [hp, List.length_append, List.length_cons, List.length_nil] at hl
    omega
  have hpar : parent (url.path ++ ['/']) = path ++ ['/'] := by
    rw [parent, if_neg hl, List.dropLast_concat, hp, hr]
  simp [push, hn, ht, hk, hpar]

example : (push (·.isAlpha) ⟨"/metrics/job".toList, none⟩ "\t.".toList).path =
    "/metrics/job/".toList := by decide

example : (push (·.isAlpha) ⟨"/metrics/job".toList, none⟩ "\t..".toList).path =
    "/metrics/".toList := by decide

end Url

namespace PushGateway

open Url PushGatewayClient

variable {keep : Char → Bool} {url : Url} {name value : Text} {label : Label} {labels : List Label}
variable {client : PushGatewayClient} {testId : Text}

-- The names and the signs of a text in base64 pass through unchanged.
def passes (c : Char) : Bool :=
  c.isAlphanum || c = '_' || c = '@' || c = '-' || c = '='

theorem isDropped_of_passes {c : Char} (h : passes c = true) : isDropped c = false := by
  simp only [isDropped, Bool.or_eq_false_iff, decide_eq_false_iff_not]
  exact ⟨⟨fun hc => by simp [hc, passes] at h, fun hc => by simp [hc, passes] at h⟩,
    fun hc => by simp [hc, passes] at h⟩

theorem not_isDot_of_passes {text : Text} (h : ∀ c ∈ text, passes c = true) :
    isDot text = false := by
  have hn : '.' ∉ text := fun hc => absurd (h '.' hc) (by decide)
  cases hd : isDot text
  case false => rfl
  case true  =>
    have hd : text = ".".toList ∨ text = "..".toList := by simpa [isDot] using hd
    cases hd
    case inl hd => exact absurd (by simp [hd]) hn
    case inr hd => exact absurd (by simp [hd]) hn

theorem kept_of_passes {text : Text} (h : ∀ c ∈ text, passes c = true) : kept text = text :=
  kept_eq_self fun c hc => isDropped_of_passes (h c hc)

theorem push_of_passes {text : Text} (hu : url.path ≠ ['/']) (h : ∀ c ∈ text, passes c = true) :
    url.push keep text = { url with path := url.path ++ '/' :: Percent.encode keep text } := by
  have hk := kept_of_passes h
  have hd := not_isDot_of_passes h
  rw [push_eq hu hd (hk.symm ▸ hd), hk]

theorem passes_symbol {c : Char} (h : c ∈ Base64.symbols) : passes c = true ∧ c ≠ '=' := by
  have hd : Base64.symbols.all (fun c => passes c && c ≠ '=') = true := by decide +kernel
  simpa using List.all_eq_true.mp hd c h

theorem passes_of_isTame (h : isTame name = true) : ∀ c ∈ name, passes c = true ∧ c ≠ '@' := by
  intro c hc
  have ht : c.isAlphanum = true ∨ c = '_' := by
    simp only [isTame, Bool.and_eq_true, List.all_eq_true] at h
    simpa using h.right c hc
  cases ht
  case inl ha => exact ⟨by simp [passes, ha], fun he => by simp [he, Char.isAlphanum] at ha⟩
  case inr hu => exact ⟨by simp [passes, hu], by simp [hu]⟩

-- The segment of a value in base64, and how it is read back.
def base64Segment (value : Text) : Text :=
  if value.isEmpty then ['='] else Base64.encode (Utf8.encode value)

theorem passes_base64 : ∀ c ∈ base64Segment value, passes c = true := by
  intro c hc
  unfold base64Segment at hc
  split at hc
  case isTrue  => exact List.mem_singleton.mp hc ▸ rfl
  case isFalse => exact (passes_symbol (Base64.mem_symbols c hc)).left

theorem readLabel_base64 (h : isTame name = true) :
    readLabel (name ++ marker) (base64Segment value) = some (name, value) := by
  have hn : '@' ∉ name := fun hc => (passes_of_isTame h '@' hc).right rfl
  have hs : Affix.splitOnce marker (name ++ marker) = some (name, []) := by
    have hm : marker = '@' :: "base64".toList := by decide
    have hs : Affix.splitOnce ('@' :: "base64".toList) (name ++ ('@' :: "base64".toList ++ [])) =
        some (name, []) := Affix.splitOnce_append hn
    rwa [List.append_nil, ← hm] at hs
  have hd : Base64.decode ((base64Segment value).rdropWhile (· = '=')) =
      some (Utf8.encode value) := by
    unfold base64Segment
    split
    case isTrue he =>
      rw [List.isEmpty_iff.mp he]
      rfl
    case isFalse =>
      have hr : (Base64.encode (Utf8.encode value)).rdropWhile (· = '=') =
          Base64.encode (Utf8.encode value) := by
        apply List.rdropWhile_eq_self_iff.mpr
        intro hl
        have hm := Base64.mem_symbols _ (List.getLast_mem hl)
        simpa using (passes_symbol hm).right
      rw [hr, Base64.decode_encode]
  simp only [readLabel, hs, hd, Option.map_some, Utf8.decodeLossy_encode]

theorem readLabel_plain (h : isTame name = true) : readLabel name value = some (name, value) := by
  have hn : '@' ∉ name := fun hc => (passes_of_isTame h '@' hc).right rfl
  have hs : Affix.splitOnce marker name = none := Affix.splitOnce_eq_none hn
  simp only [readLabel, hs]

-- What the address takes over as it is, or hides in base64.
def Survives (value : Text) : Prop :=
  '/' ∈ value ∨ ∀ c ∈ value, isDropped c = false

instance : DecidablePred Survives := fun value =>
  inferInstanceAs (Decidable ('/' ∈ value ∨ ∀ c ∈ value, isDropped c = false))

-- The segments which a label leaves in an address.
def left (label : Label) : List Text :=
  let (name, value) := label
  if inBase64 value then [name ++ marker, base64Segment value]
  else if kept value = "..".toList then [[]]
  else [name, if kept value = ".".toList then [] else kept value]

theorem left_base64 (hb : inBase64 value = true) :
    left (name, value) = [name ++ marker, base64Segment value] :=
  if_pos hb

theorem length_left_le : (left label).length ≤ 2 := by
  unfold left
  split
  split
  case isTrue  => simp
  case isFalse => split <;> simp

theorem length_flatMap_left_le : (labels.flatMap left).length ≤ 2 * labels.length := by
  induction labels
  case nil             => simp
  case cons label _ hi =>
    have := @length_left_le label
    rw [List.flatMap_cons, List.length_append, List.length_cons]
    omega

def encoded (keep : Char → Bool) (texts : List Text) : Text :=
  texts.flatMap fun segment => '/' :: Percent.encode keep segment

theorem passes_marked (h : isTame name = true) : ∀ c ∈ name ++ marker, passes c = true := by
  intro c hc
  cases List.mem_append.mp hc
  case inl hc => exact (passes_of_isTame h c hc).left
  case inr hc =>
    have hm : marker.all passes = true := by decide
    exact List.all_eq_true.mp hm c hc

-- A label is appended, unless its value takes back its name.
theorem push_label (hs : keep '/' = false) (h : 1 < url.path.length)
    (ht : isTame name = true) : (segments (name, value)).foldl (push keep) url =
      { url with path := url.path ++ encoded keep (left (name, value)) } := by
  have hu : url.path ≠ ['/'] := fun he => by simp [he] at h
  have step {text : Text} : url.path ++ '/' :: Percent.encode keep text ≠ ['/'] := fun he => by
    have hl := congrArg List.length he
    simp only [List.length_append, List.length_cons, List.length_nil] at hl
    omega
  cases hb : inBase64 value
  case true =>
    have hv : (if value.isEmpty then ['='] else Base64.encode (Utf8.encode value)) =
      base64Segment value := rfl
    simp only [segments, hb, if_true, left_base64 hb, hv, List.foldl_cons, List.foldl_nil]
    rw [push_of_passes hu (passes_marked ht), push_of_passes step passes_base64]
    simp [encoded]
  case false =>
    have hn : ∀ c ∈ name, passes c = true := fun c hc => (passes_of_isTame ht c hc).left
    have hd : isDot value = false := by
      simp only [inBase64, Bool.or_eq_false_iff] at hb
      exact hb.right
    simp only [segments, hb, Bool.false_eq_true, if_false, List.foldl_cons, List.foldl_nil, left]
    rw [push_of_passes hu hn]
    by_cases h2 : kept value = "..".toList
    case pos =>
      have hne : url.path ≠ [] := fun he => by simp [he] at h
      have hn : '/' ∉ Percent.encode keep name := Percent.not_mem_encode hs (by decide) (by decide)
      rw [push_dots rfl hne hn hd h2, if_pos h2]
      simp [encoded, Percent.encode]
    case neg =>
      rw [if_neg h2]
      by_cases h1 : kept value = ".".toList
      case pos =>
        rw [push_dot step hd h1, if_pos h1]
        simp [encoded, Percent.encode]
      case neg =>
        have hk : isDot (kept value) = false := by
          simp only [isDot, h1, h2, decide_false, Bool.or_false]
        rw [push_eq step hd hk, if_neg h1]
        simp [encoded]

theorem push_labels (hs : keep '/' = false) (h : 1 < url.path.length)
    (tame : ∀ label ∈ labels, isTame label.fst = true) :
    (labels.flatMap segments).foldl (push keep) url =
      { url with path := url.path ++ encoded keep (labels.flatMap left) } := by
  induction labels generalizing url
  case nil => simp [encoded]
  case cons label labels hi =>
    have ⟨ht, tame⟩ := List.forall_mem_cons.mp tame
    rw [List.flatMap_cons, List.foldl_append, push_label hs h ht, hi _ tame]
    · simp [encoded]
    · rw [List.length_append]
      omega

theorem length_of_readLabels {texts : List Text} (h : readLabels texts = some labels) :
    texts.length = 2 * labels.length := by
  fun_induction readLabels texts generalizing labels
  case case1 => simp [← Option.some_inj.mp h]
  case case2 hi =>
    have ⟨_, _, h⟩ := Option.bind_eq_some_iff.mp h
    have ⟨_, hr, h⟩ := Option.bind_eq_some_iff.mp h
    cases h
    have := hi hr
    simp only [List.length_cons]
    omega
  case case3 => exact absurd h nofun

theorem readLabels_cons {texts : List Text} :
    readLabels (name :: value :: texts) = some (label :: labels) ↔
      readLabel name value = some label ∧ readLabels texts = some labels := by
  simp [readLabels, Option.bind_eq_some_iff]

-- A plain value is read back unless the address drops some of its characters.
theorem plain_survives_iff (hb : inBase64 value = false) : kept value = value ↔ Survives value := by
  have hs : '/' ∉ value := fun h => by simp [inBase64, h] at hb
  constructor
  case mp  => exact fun h => .inr (by simpa using List.filter_eq_self.mp h)
  case mpr => exact fun h => kept_eq_self (h.resolve_left hs)

theorem survives_of_inBase64 (hb : inBase64 value = true) : Survives value := by
  simp only [inBase64, Bool.or_eq_true, List.isEmpty_iff, List.contains_iff_mem] at hb
  cases hb
  case inl hb =>
    cases hb
    case inl hb => exact .inr (by simp [hb])
    case inr hb => exact .inl hb
  case inr hb =>
    have hd : value = ".".toList ∨ value = "..".toList := by simpa [isDot] using hb
    cases hd
    case inl hd => exact .inr (by simp [hd, isDropped])
    case inr hd => exact .inr (by simp [hd, isDropped])

theorem readLabels_iff (tame : ∀ label ∈ labels, isTame label.fst = true) :
    readLabels (labels.flatMap left) = some labels ↔ ∀ label ∈ labels, Survives label.snd := by
  induction labels
  case nil => exact iff_of_true rfl (by simp)
  case cons label labels hi =>
    have ⟨name, value⟩ := label
    have ⟨ht, tame⟩ := List.forall_mem_cons.mp tame
    rw [List.flatMap_cons, List.forall_mem_cons, ← hi tame]
    cases hb : inBase64 value
    case true =>
      rw [left_base64 hb, List.cons_append, List.cons_append, List.nil_append, readLabels_cons]
      exact and_congr_left fun _ =>
        iff_of_true (readLabel_base64 ht) (survives_of_inBase64 hb)
    case false =>
      have hd : isDot value = false := by
        simp only [inBase64, Bool.or_eq_false_iff] at hb
        exact hb.right
      simp only [isDot, Bool.or_eq_false_iff, decide_eq_false_iff_not] at hd
      rw [← plain_survives_iff hb]
      by_cases h2 : kept value = "..".toList
      case pos =>
        -- The name is taken back, which leaves too few segments for the labels.
        refine iff_of_false (fun h => ?_) fun h => hd.right (h.left.symm.trans h2)
        have hl := length_of_readLabels h
        have hr := @length_flatMap_left_le labels
        simp only [left, hb, Bool.false_eq_true, if_false, h2, if_true, List.cons_append,
          List.nil_append, List.length_cons] at hl
        omega
      case neg =>
        simp only [left, hb, Bool.false_eq_true, if_false, h2, List.cons_append, List.nil_append,
          readLabels_cons, readLabel_plain ht, Option.some.injEq, Prod.mk.injEq, true_and]
        refine and_congr_left fun _ => ?_
        by_cases h1 : kept value = ".".toList
        case pos =>
          rw [if_pos h1]
          refine iff_of_false (fun h => ?_) fun h => hd.left (h.symm.trans h1)
          exact absurd (h ▸ h1) (by decide)
        case neg => rw [if_neg h1]

theorem path_push_metrics : (url.popIfEmpty.push keep "metrics".toList).path =
    gatewayPath url ++ '/' :: Percent.encode keep "metrics".toList := by
  have hd : isDot "metrics".toList = false := by decide
  have hk : kept "metrics".toList = "metrics".toList := by decide
  have h1 : "metrics".toList ≠ ".".toList := by decide
  have h2 : "metrics".toList ≠ "..".toList := by decide
  simp only [push, hd, hk, h1, h2, gatewayPath, Bool.false_eq_true, if_false]
  split
  case isTrue h  => simp [h]
  case isFalse h => simp [List.append_assoc]

theorem path_pushUrl (hk : keep '%' = false) (hs : keep '/' = false)
    (h : client.grouping testId = some labels) (tame : ∀ label ∈ labels, isTame label.fst = true)
    (hu : client.pushUrl keep testId = some url) :
    url.query = client.url.query ∧ url.path = gatewayPath client.url ++
      encoded keep ("metrics".toList :: labels.flatMap left) := by
  simp only [pushUrl, h, Option.map_some, Option.some.injEq] at hu
  have hm := @path_push_metrics keep client.url
  have hne : Percent.encode keep "metrics".toList ≠ [] := fun he => by
    have hd := @Percent.decode_encode keep "metrics".toList hk
    rw [he] at hd
    exact absurd hd (by decide)
  have hl : 1 < (client.url.popIfEmpty.push keep "metrics".toList).path.length := by
    have := List.length_pos_of_ne_nil hne
    rw [hm, List.length_append, List.length_cons]
    omega
  rw [push_labels hs hl tame] at hu
  subst hu
  refine ⟨query_push.trans ?_, ?_⟩
  · unfold popIfEmpty
    split <;> rfl
  · simp only [hm, encoded, List.flatMap_cons, List.append_assoc]

theorem read_eq (hk : keep '%' = false) (hs : keep '/' = false) {gateway : Text} {texts : List Text}
    (hp : url.path = gateway ++ encoded keep ("metrics".toList :: texts)) :
    read gateway url = readLabels texts := by
  let segments := ("metrics".toList :: texts).map (Percent.encode keep)
  have hf : encoded keep ("metrics".toList :: texts) = ['/'].intercalate ([] :: segments) := by
    simp only [encoded, segments]
    generalize "metrics".toList :: texts = ts
    induction ts
    case nil => rfl
    case cons t ts hi =>
      rw [List.flatMap_cons, hi]
      cases ts <;> simp [List.intercalate]
  have hd : url.path.drop gateway.length = ['/'].intercalate ([] :: segments) := by
    rw [hp, List.drop_left, hf]
  have hn : ∀ segment ∈ [] :: segments, '/' ∉ segment := by
    intro segment h
    cases List.mem_cons.mp h
    case inl h => simp [h]
    case inr h =>
      have ⟨_, _, h⟩ := List.mem_map.mp h
      exact h ▸ Percent.not_mem_encode hs (by decide) (by decide)
  have hsplit : ((url.path.drop gateway.length).splitOn '/').map Percent.decode =
      [] :: "metrics".toList :: texts := by
    have hc : (Percent.decode ∘ Percent.encode keep) = id :=
      funext fun text => Percent.decode_encode hk
    rw [hd, List.splitOn_intercalate '/' hn (List.cons_ne_nil _ _), List.map_cons, List.map_map, hc,
      List.map_id]
    rfl
  have hpre : gateway.isPrefixOf url.path = true := by
    rw [hp, List.isPrefixOf_iff_prefix]
    exact List.prefix_append _ _
  simp only [read, hpre, if_true, hsplit]

theorem isTame_of_isName (h : isName name = true) : isTame name = true := by
  simp only [isName, Bool.and_eq_true] at h
  obtain ⟨⟨⟨⟨hn, ha⟩, _⟩, _⟩, _⟩ := h
  simp only [isTame, Bool.and_eq_true]
  refine ⟨hn, List.all_eq_true.mpr fun c hc => ?_⟩
  obtain ⟨i, hi⟩ := List.mem_iff_getElem?.mp hc
  have hz : (c, i) ∈ name.zipIdx := List.mk_mem_zipIdx_iff_getElem?.mpr hi
  have hc := List.all_eq_true.mp ha _ hz
  simp only [Bool.or_eq_true, Bool.and_eq_true, decide_eq_true_eq] at hc
  simp only [Char.isAlphanum, Bool.or_eq_true, decide_eq_true_eq]
  tauto

theorem tame_grouping (hv : validatePushLabels client.labels = .ok ()) {labels : List Label}
    (h : client.grouping testId = some labels) : ∀ label ∈ labels, isTame label.fst = true := by
  have ⟨tests, ht, h⟩ := Option.map_eq_some_iff.mp h
  have tests : ∀ label ∈ tests, isTame label.fst = true := by
    unfold testLabels at ht
    split at ht
    case h_1 => simp [← Option.some_inj.mp ht]
    case h_2 =>
      have ⟨_, _, ht⟩ := Option.map_eq_some_iff.mp ht
      rw [← ht]
      simp
      decide
  have named : ∀ label ∈ client.labels.toList, isTame label.fst = true := by
    intro label hl
    have hk : label.fst ∈ client.labels.keys := by
      rw [← Std.TreeMap.map_fst_toList_eq_keys]
      exact List.mem_map_of_mem hl
    unfold validatePushLabels at hv
    split at hv
    case h_1 => exact absurd hv nofun
    case h_2 hf =>
      have := List.find?_eq_none.mp hf _ hk
      exact isTame_of_isName (by simpa using this)
  rw [← h]
  intro label hl
  simp only [List.mem_cons, List.mem_append, or_assoc] at hl
  rcases hl with hl | hl | hl | hl
  · have hj : isTame "job".toList = true := by decide
    exact hl ▸ hj
  · exact client.tame label hl
  · exact tests label hl
  · exact named label hl

-- Reading an address back gives the job and the labels exactly if the address drops no character of
-- a value which is not in base64.
theorem read_pushUrl_iff (keep : Char → Bool) (client : PushGatewayClient) (testId : Text)
    (hk : keep '%' = false) (hs : keep '/' = false)
    (hv : validatePushLabels client.labels = .ok ())
    (ht : client.job.isSome → client.test.isSome) :
    ∃ labels url, client.grouping testId = some labels ∧ client.pushUrl keep testId = some url ∧
      url.query = client.url.query ∧
      (read (gatewayPath client.url) url = some labels ↔
        ∀ label ∈ labels, Survives label.snd) := by
  have ⟨labels, hg⟩ : ∃ labels, client.grouping testId = some labels := by
    unfold grouping testLabels
    cases hj : client.job
    case none   => exact ⟨_, rfl⟩
    case some _ =>
      have ⟨_, ht⟩ := Option.isSome_iff_exists.mp (ht (by simp [hj]))
      exact ⟨_, by simp [ht]; rfl⟩
  have ⟨url, hu⟩ : ∃ url, client.pushUrl keep testId = some url :=
    ⟨_, by simp only [pushUrl, hg, Option.map_some]; rfl⟩
  have tame := tame_grouping hv hg
  have ⟨hq, hp⟩ := path_pushUrl hk hs hg tame hu
  refine ⟨labels, url, hg, hu, hq, ?_⟩
  rw [read_eq hk hs hp]
  exact readLabels_iff tame

-- The gateway of the tests, and the signs which need no escape in a segment.
def localhost : PushGatewayClient where
  url := ⟨"/".toList, none⟩

def unreserved (c : Char) : Bool :=
  c.isAlphanum || c = '_' || c = '.' || c = '-' || c = '=' || c = '@'

theorem read_pushUrl_localhost : ∃ labels url, localhost.grouping "a/b".toList = some labels ∧
    localhost.pushUrl unreserved "a/b".toList = some url ∧ url.query = none ∧
    (read (gatewayPath localhost.url) url = some labels ↔
      ∀ label ∈ labels, Survives label.snd) :=
  read_pushUrl_iff unreserved localhost "a/b".toList (by decide) (by decide) rfl nofun

-- A tab in the identifier of a test gets lost.
theorem tab_lost : localhost.grouping "a\tb".toList =
      some [("job".toList, "xfr_test_a\tb".toList)] ∧
    (localhost.pushUrl unreserved "a\tb".toList).bind (read (gatewayPath localhost.url)) =
      some [("job".toList, "xfr_test_ab".toList)] := by
  decide +kernel

end PushGateway
