import Mathlib.Data.List.Nodup
import Mathlib.Data.List.Flatten
import Xfr.Library.Exposition

-- Families of metrics: the samples of a family stand below its own help and type.
namespace Exposition

structure Family where
  name    : Text
  help    : Text
  kind    : Text
  samples : List (List Label × Text)

def relabelled (name value : Text) (labels : List Label) : List Label :=
  labels.map fun label => (label.fst, if label.fst = name then value else label.snd)

theorem relabelled_cons {name value n v : Text} {labels : List Label} :
    relabelled name value ((n, v) :: labels) =
      (n, if n = name then value else v) :: relabelled name value labels :=
  rfl

namespace Family

def lines (f : Family) : List Line :=
  .help f.name f.help :: .type f.name f.kind ::
    f.samples.map fun (labels, value) => .sample { name := f.name, labels, value }

-- The same samples with another value of a label.
def relabel (name value : Text) (f : Family) : Family :=
  { f with samples := f.samples.map fun s => (relabelled name value s.fst, s.snd) }

theorem relabel_eq {name value : Text} {f : Family}
    (h : ∀ s ∈ f.samples, ∀ label ∈ s.fst, label.fst ≠ name) : f.relabel name value = f := by
  have hs : ∀ s ∈ f.samples, (relabelled name value s.fst, s.snd) = s := by
    intro s hs
    have hl : ∀ label ∈ s.fst, (label.fst, if label.fst = name then value else label.snd) = label := by
      intro label hl
      rw [if_neg (h s hs label hl)]
    rw [relabelled, List.map_congr_left hl, List.map_id']
  rw [relabel, List.map_congr_left hs, List.map_id']

end Family

-- The labels and the value of a sample.
structure ProperPoint (s : List Label × Text) : Prop where
  labels   : ∀ label ∈ s.fst, isLabelName label.fst = true
  distinct : (s.fst.map Prod.fst).Nodup
  value    : isNumber s.snd = true

namespace Family

structure Proper (f : Family) : Prop where
  name   : isMetricName f.name = true
  help   : PlainHelp f.help
  kind   : f.kind ∈ kinds
  points : ∀ s ∈ f.samples, ProperPoint s

-- There is no hash sign within the lines of the family.
structure Searchable (f : Family) : Prop extends Proper f where
  hashHelp   : '#' ∉ f.help
  hashLabels : ∀ s ∈ f.samples, ∀ label ∈ s.fst, '#' ∉ label.snd

variable {f : Family}

theorem Proper.lines (p : f.Proper) : ∀ line ∈ f.lines, line.Proper := by
  intro line hl
  match List.mem_cons.mp hl with
  | .inl he => exact he ▸ ⟨p.name, p.help⟩
  | .inr hl =>
    match List.mem_cons.mp hl with
    | .inl he => exact he ▸ ⟨p.name, p.kind⟩
    | .inr hl =>
      have ⟨s, hs, he⟩ := List.mem_map.mp hl
      have h := p.points s hs
      exact he ▸ ⟨p.name, h.labels, h.distinct, h.value, rfl⟩

theorem hash_not_mem_name {name : Text} (h : isMetricName name = true) : '#' ∉ name :=
  fun hm => absurd (all_of_isMetricName h _ hm) (by decide)

theorem hash_not_mem_escape {text : Text} (h : '#' ∉ text) : '#' ∉ escape text := by
  intro hm
  have ⟨c, hc, hm⟩ := List.mem_flatMap.mp hm
  unfold escapeChar at hm
  split_ifs at hm
  case pos => simp at hm
  case pos => simp at hm
  case pos => simp at hm
  case neg => exact h (List.mem_singleton.mp hm ▸ hc)

theorem Searchable.hash (p : f.Searchable) : ∀ line ∈ f.lines, '#' ∉ line.render.tail := by
  have hn := hash_not_mem_name p.name
  intro line hl
  match List.mem_cons.mp hl with
  | .inl he =>
    rw [he, render_help]
    simp [hn, p.hashHelp]
  | .inr hl =>
    match List.mem_cons.mp hl with
    | .inl he =>
      have hk : ∀ kind ∈ kinds, '#' ∉ kind := by decide
      rw [he, render_type]
      simp [hn, hk f.kind p.kind]
    | .inr hl =>
      have ⟨s, hs, he⟩ := List.mem_map.mp hl
      have hp := p.points s hs
      have hv : '#' ∉ s.snd := fun hm => absurd ((all_of_isNumber hp.value).right _ hm) (by decide)
      have hlabels : '#' ∉ renderLabels s.fst := by
        cases hs' : s.fst
        case nil => exact List.not_mem_nil
        case cons label labels =>
          have hi : '#' ∉ [','].intercalate ((label :: labels).map renderLabel) := by
            intro hm
            have ⟨text, ht, hm⟩ := mem_intercalate hm (by decide)
            have ⟨label, hl', he⟩ := List.mem_map.mp ht
            have hl' : label ∈ s.fst := hs' ▸ hl'
            have hn := hash_not_mem_name (isMetricName_of_isLabelName (hp.labels label hl'))
            have hv := hash_not_mem_escape (p.hashLabels s hs label hl')
            simp [← he, renderLabel, hn, hv] at hm
          simpa [renderLabels] using hi
      have hr : '#' ∉ line.render := by
        rw [← he, render_sample]
        simp [Sample.render, hn, hlabels, hv]
      exact fun hm => hr (List.mem_of_mem_tail hm)

end Family

-- Each family occurs once, and so does each series.
structure Grouped (families : List Family) : Prop where
  names  : (families.map (·.name)).Nodup
  series : (families.flatMap fun f => f.samples.map fun s => (f.name, s.fst)).Nodup

variable {families : List Family} {lines : List Line} {line : Line} {text before rest : Text}

theorem Grouped.of_labels (hn : (families.map (·.name)).Nodup)
    (hl : ∀ f ∈ families, (f.samples.map Prod.fst).Nodup) : Grouped families where
  names  := hn
  series := by
    rw [List.nodup_flatMap]
    constructor
    case left =>
      intro f hf
      have hd := (hl f hf).map (f := fun labels => (f.name, labels)) fun _ _ h => (Prod.mk.inj h).right
      rwa [List.map_map] at hd
    case right =>
      have hp := List.pairwise_map.mp hn
      refine hp.imp fun {f g} hne => ?_
      intro series hf hg
      have ⟨_, _, hf⟩ := List.mem_map.mp hf
      have ⟨_, _, hg⟩ := List.mem_map.mp hg
      exact hne (congrArg Prod.fst (hf.trans hg.symm))

def renderFamilies (families : List Family) : Text :=
  render (families.flatMap Family.lines)

theorem render_append {more : List Line} : render (lines ++ more) = render lines ++ render more :=
  List.flatMap_append

theorem renderFamilies_append {more : List Family} :
    renderFamilies (families ++ more) = renderFamilies families ++ renderFamilies more := by
  rw [renderFamilies, List.flatMap_append, render_append]
  rfl

theorem renderFamilies_cons {f : Family} :
    renderFamilies (f :: families) = render f.lines ++ renderFamilies families := by
  rw [renderFamilies, List.flatMap_cons, render_append]
  rfl

theorem read_renderFamilies (h : ∀ f ∈ families, f.Proper) :
    read (renderFamilies families) = some (families.flatMap Family.lines) := by
  apply read_render
  intro line hl
  have ⟨f, hf, hl⟩ := List.mem_flatMap.mp hl
  exact (h f hf).lines line hl

-- A text which ends with a separator is found behind another separator, or not before it.
theorem infix_separator {c : Char} (ht : c ∉ text) (hb : c ∉ before)
    (h : text ++ [c] <:+: before ++ c :: rest) : text <:+ before ∨ text ++ [c] <:+: rest := by
  have first {before : Text} (hb : c ∉ before) (h : text ++ [c] <+: before ++ c :: rest) :
      text = before := by
    have ⟨more, h⟩ := h
    have head {t more : Text} (ht : c ∉ t) : (t ++ c :: more).takeWhile (· ≠ c) = t := by
      have hd : ∀ d ∈ t, decide (d ≠ c) = true := fun d hd => by
        simpa using fun (he : d = c) => ht (he ▸ hd)
      rw [List.takeWhile_append_of_pos hd]
      simp
    calc text
      _ = (text ++ c :: more).takeWhile (· ≠ c)   := (head ht).symm
      _ = (before ++ c :: rest).takeWhile (· ≠ c) := by rw [← h, List.append_assoc]; rfl
      _ = before                                  := head hb
  induction before
  case nil =>
    cases List.infix_cons_iff.mp h
    case inl h => exact .inl (first hb h ▸ List.suffix_rfl)
    case inr h => exact .inr h
  case cons d before hi =>
    cases List.infix_cons_iff.mp h
    case inl h => exact .inl (first hb h ▸ List.suffix_rfl)
    case inr h =>
      cases hi (fun hm => hb (List.mem_cons_of_mem _ hm)) h
      case inl h => exact .inl (h.trans (List.suffix_cons ..))
      case inr h => exact .inr h

theorem render_injective {line' : Line} (p : line.Proper) (p' : line'.Proper)
    (h : line.render = line'.render) : line = line' := by
  have hr := readLine_render p
  rw [h, readLine_render p'] at hr
  exact (Option.some.inj (Option.some.inj hr)).symm

-- A line which begins with a hash sign is found in a text only where it was written, when no line has
-- another hash sign.
theorem infix_render_iff (p : line.Proper) (hline : line.render.head? = some '#')
    (hl : ∀ l ∈ lines, l.Proper) (hash : ∀ l ∈ lines, '#' ∉ l.render.tail) :
    line.render ++ ['\n'] <:+: render lines ↔ line ∈ lines := by
  induction lines
  case nil => simp [render]
  case cons l lines hi =>
    obtain ⟨pl, hl⟩ := List.forall_mem_cons.mp hl
    obtain ⟨hashl, hash⟩ := List.forall_mem_cons.mp hash
    have hr : render (l :: lines) = l.render ++ '\n' :: render lines := by simp [render]
    rw [hr, List.mem_cons, ← hi hl hash]
    constructor
    case mp =>
      intro h
      cases infix_separator (newline_not_mem_render p) (newline_not_mem_render pl) h
      case inr h => exact .inr h
      case inl h =>
        obtain ⟨before, h⟩ := h
        cases before
        case nil => exact .inl (render_injective p pl h)
        case cons c before =>
          have hm : '#' ∈ l.render.tail := by
            rw [← h]
            exact List.mem_append_right _ (List.mem_of_mem_head? hline)
          exact absurd hm hashl
    case mpr =>
      intro h
      cases h
      case inl h => exact ⟨[], render lines, by simp [h]⟩
      case inr h => exact h.trans ⟨l.render ++ ['\n'], [], by simp⟩

-- The type of a family is found in a text when the family is there.
theorem infix_type_iff {name kind : Text} (hm : isMetricName name = true) (hk : kind ∈ kinds)
    (h : ∀ f ∈ families, f.Searchable) (same : ∀ f ∈ families, f.kind = kind) :
    (Line.type name kind).render ++ ['\n'] <:+: renderFamilies families ↔
      name ∈ families.map (·.name) := by
  have hl : ∀ line ∈ families.flatMap Family.lines, line.Proper := by
    intro line hl
    have ⟨f, hf, hl⟩ := List.mem_flatMap.mp hl
    exact (h f hf).lines line hl
  have hash : ∀ line ∈ families.flatMap Family.lines, '#' ∉ line.render.tail := by
    intro line hl
    have ⟨f, hf, hl⟩ := List.mem_flatMap.mp hl
    exact (h f hf).hash line hl
  have hd : (Line.type name kind).render.head? = some '#' := by rw [render_type, List.head?_cons]
  have hp : (Line.type name kind).Proper := ⟨hm, hk⟩
  rw [renderFamilies, infix_render_iff hp hd hl hash, List.mem_flatMap, List.mem_map]
  constructor
  case mp =>
    intro ⟨f, hf, hl⟩
    refine ⟨f, hf, ?_⟩
    simp only [Family.lines, List.mem_cons, List.mem_map, reduceCtorEq, and_false, exists_false,
      or_false, false_or, Line.type.injEq] at hl
    exact hl.left.symm
  case mpr =>
    intro ⟨f, hf, he⟩
    refine ⟨f, hf, ?_⟩
    rw [← he, ← same f hf]
    exact List.mem_cons_of_mem _ List.mem_cons_self

end Exposition
