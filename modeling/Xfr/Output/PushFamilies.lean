import Xfr.Output.PushMetrics

open Exposition

-- The families which a payload is made of.
namespace PushMetrics

variable {F : Type} (f : Floats F)

def Header.family (h : Header) (samples : List (List Label × Text)) : Family where
  name    := h.name.toList
  help    := h.help.toList
  kind    := h.metricType.toList
  samples := samples

def single (metric : Header × F) : Family :=
  metric.fst.family [([], f.display metric.snd)]

def streamLabels (testId : Text) (id : UInt8) : List Label :=
  [("test_id".toList, testId), ("stream_id".toList, integer id.toNat)]

def streamFamily (testId : Text) (streams : List (StreamSample F))
    (metric : Header × (StreamSample F → F)) : Family :=
  metric.fst.family (streams.map fun s => (streamLabels testId s.id, f.display (metric.snd s)))

def sampleFamilies (testId : Text) (elapsedMs bytesTotal : UInt64) (throughputMbps : F)
    (streams : List (StreamSample F)) (tcpInfo : Option Messages.TcpInfoSnapshot)
    (udpStats : List (Messages.UdpStats F)) : List Family :=
  (aggregateMetrics f elapsedMs bytesTotal throughputMbps).map (single f) ++
  (if streams.isEmpty then [] else (streamMetrics f).map (streamFamily f testId streams)) ++
  tcpInfo.toList.flatMap (fun tcpInfo => (tcpMetrics f tcpInfo).map (single f)) ++
  (if udpStats.isEmpty then [] else (udpMetrics f udpStats).map (single f))

def directionLabels (metric : DirectionMetric) (sample : DirectionalUdp F) : List Label :=
  ("direction".toList, sample.direction.name.toList) ::
    if metric = .bytes ∨ metric = .throughputMbps then [("view".toList, sample.view.name.toList)]
    else []

def directionSamples (samples : List (DirectionalUdp F)) (metric : DirectionMetric) :
    List (List Label × Text) :=
  samples.filterMap fun sample => (metric.value f sample).map (directionLabels metric sample, ·)

def directionHeader (familyPrefix : String) (metric : DirectionMetric) : Header :=
  ⟨familyPrefix ++ "_" ++ metric.name, metric.help, "gauge"⟩

def directionFamily (familyPrefix : String) (samples : List (DirectionalUdp F))
    (metric : DirectionMetric) : Family :=
  (directionHeader familyPrefix metric).family (directionSamples f samples metric)

-- A family without samples is not written.
def directionFamilies (familyPrefix : String) (samples : List (DirectionalUdp F)) : List Family :=
  (DirectionMetric.all.map (directionFamily f familyPrefix samples)).filter (!·.samples.isEmpty)

def gaugeHeader (metric : String) : Header :=
  ⟨"xfr_last_test_" ++ metric, "Most recently pushed test snapshot " ++ metric, "gauge"⟩

-- A gauge of a snapshot with its samples.
def gaugeFamily (gauge : String × List (List Label × Text)) : Family :=
  (gaugeHeader gauge.fst).family gauge.snd

def plainGauge (metric : String × Text) : String × List (List Label × Text) :=
  (metric.fst, [([], metric.snd)])

def viewLabels (view : String) : List Label :=
  if view = "" then [] else [("view".toList, "receiver".toList)]

def availabilityLabels (view : String) (sample : DirectionalUdp F) : List Label :=
  ("direction".toList, sample.direction.name.toList) :: viewLabels view

def availabilityGauge (samples : List (DirectionalUdp F))
    (entry : String × String × (DirectionalUdp F → Bool)) : String × List (List Label × Text) :=
  (entry.fst, samples.map fun sample =>
    (availabilityLabels entry.snd.fst sample, integer (entry.snd.snd sample).toNat))

end PushMetrics

namespace PushGatewayClient

open PushMetrics

variable {F : Type} (f : Floats F)

def resultFamilies (client : PushGatewayClient) (result : Messages.TestResult F) : List Family :=
  sampleFamilies f result.id.toList result.durationMs result.bytesTotal result.throughputMbps
    (result.streams.map fun s => ⟨s.id, s.bytes, s.throughputMbps, s.retransmits.getD 0⟩)
    result.tcpInfo result.udpStats.toList ++
  client.udpDirection.toList.flatMap fun direction =>
    directionFamilies f "xfr_udp_direction" (resultDirections result direction)

def metricsFamilies (client : PushGatewayClient) (stats : StatsReading F) : List Family :=
  sampleFamilies f stats.testId.toList stats.elapsedMs stats.totalBytes
    (throughput f stats.elapsedMs stats.totalBytes) stats.streams stats.finalLocalTcpInfo
    stats.udpStats ++
  client.udpDirection.toList.flatMap fun direction =>
    directionFamilies f "xfr_udp_direction" (statsDirections f stats direction)

def gauges (client : PushGatewayClient) (result : Messages.TestResult F) :
    List (String × List (List Label × Text)) :=
  (snapshotMetrics f result).map plainGauge ++
  result.tcpInfo.toList.flatMap (fun tcp => (snapshotTcpMetrics tcp).map plainGauge) ++
  client.udpDirection.toList.flatMap fun direction =>
    availability.map (availabilityGauge (resultDirections result direction))

def snapshotFamilies (client : PushGatewayClient) (result : Messages.TestResult F) : List Family :=
  (client.gauges f result).map gaugeFamily ++
  client.udpDirection.toList.flatMap fun direction =>
    directionFamilies f "xfr_last_test_udp_direction"
      ((resultDirections result direction).map (·.whole))

end PushGatewayClient

-- Each writer adds the lines of its families to the text.
namespace PushMetrics

variable {F : Type} {f : Floats F} {output testId : Text}

theorem replace_eq {c : Char} {new : String} {text : Text} :
    replace c new text = text.flatMap fun x => if x = c then new.toList else [x] :=
  rfl

theorem escapeTestId_eq : escapeTestId testId = escape testId := by
  rw [escapeTestId, escape, replace_eq, replace_eq, replace_eq, List.flatMap_assoc, List.flatMap_assoc]
  congr 1
  funext c
  unfold escapeChar
  by_cases hb : c = '\\'
  case pos =>
    subst hb
    decide
  case neg =>
    by_cases hq : c = '"'
    case pos =>
      subst hq
      decide
    case neg =>
      by_cases hn : c = '\n'
      case pos =>
        subst hn
        decide
      case neg => simp [hb, hq, hn]

theorem foldl_append {α : Type} {write : Text → α → Text} {text : α → Text} {xs : List α}
    (h : ∀ output, ∀ x ∈ xs, write output x = output ++ text x) :
    xs.foldl write output = output ++ xs.flatMap text := by
  induction xs generalizing output
  case nil          => simp
  case cons x xs hi =>
    rw [List.foldl_cons, h output x List.mem_cons_self,
      hi fun output y hy => h output y (List.mem_cons_of_mem _ hy), List.flatMap_cons, List.append_assoc]

theorem renderFamilies_map {α : Type} {family : α → Family} {xs : List α} :
    renderFamilies (xs.map family) = xs.flatMap fun x => render (family x).lines := by
  induction xs
  case nil          => rfl
  case cons x xs hi => rw [List.map_cons, renderFamilies_cons, hi, List.flatMap_cons]

theorem render_cons {line : Line} {lines : List Line} :
    render (line :: lines) = line.render ++ ['\n'] ++ render lines :=
  rfl

theorem render_family {h : Header} {samples : List (List Label × Text)} :
    render (h.family samples).lines = writeFamilyHeader [] h ++ render (samples.map fun s =>
      .sample { name := h.name.toList, labels := s.fst, value := s.snd }) := by
  have hh : (Line.help h.name.toList h.help.toList).render =
      "# HELP ".toList ++ h.name.toList ++ [' '] ++ h.help.toList := rfl
  have ht : (Line.type h.name.toList h.metricType.toList).render =
      "# TYPE ".toList ++ h.name.toList ++ [' '] ++ h.metricType.toList := rfl
  simp only [Header.family, Family.lines, render_cons, hh, ht, writeFamilyHeader, List.append_assoc,
    List.nil_append]

theorem writeFamilyHeader_eq {h : Header} :
    writeFamilyHeader output h = output ++ writeFamilyHeader [] h := by
  simp only [writeFamilyHeader, List.append_assoc, List.nil_append]

theorem writeMetric_eq {metric : Header × F} :
    writeMetric f output metric = output ++ render (single f metric).lines := by
  have hs : render [Line.sample { name := metric.fst.name.toList, value := f.display metric.snd }] =
      metric.fst.name.toList ++ [' '] ++ f.display metric.snd ++ ['\n'] := by
    simp [render, render_sample, Sample.render, renderLabels]
  rw [single, render_family, List.map_singleton, hs, writeMetric, writeSample, writeFamilyHeader_eq]
  simp only [List.append_assoc]

theorem writeMetrics_eq {metrics : List (Header × F)} :
    metrics.foldl (writeMetric f) output = output ++ renderFamilies (metrics.map (single f)) := by
  have h (output : Text) : ∀ metric ∈ metrics,
      writeMetric f output metric = output ++ render (single f metric).lines :=
    fun _ _ => writeMetric_eq
  rw [foldl_append h, renderFamilies_map]

theorem isDigit_integer {n : Nat} : ∀ c ∈ integer n, c.isDigit = true :=
  fun _ => Nat.isDigit_of_mem_toDigits (by decide) (by decide)

theorem escape_integer {n : Nat} : escape (integer n) = integer n := by
  apply escape_eq
  intro c hc
  have hd := isDigit_integer c hc
  have hne (d : Char) (h : d.isDigit = false) : c ≠ d := fun he => by simp [he, h] at hd
  simp [escapeChar, hne '\\' (by decide), hne '"' (by decide), hne '\n' (by decide)]

theorem writeStream_eq {metric : Header × (StreamSample F → F)} {s : StreamSample F} :
    writeStream f (escapeTestId testId) metric output s = output ++ render [.sample {
      name   := metric.fst.name.toList
      labels := streamLabels testId s.id
      value  := f.display (metric.snd s) }] := by
  have hl : renderLabels (streamLabels testId s.id) = "\x7btest_id=\"".toList ++ escape testId ++
      "\",stream_id=\"".toList ++ integer s.id.toNat ++ ['"', '}'] := by
    simp [streamLabels, renderLabels, renderLabel, List.intercalate, escape_integer]
  have he : "\"\x7d ".toList = ['"', '}'] ++ [' '] := by decide
  rw [writeStream, escapeTestId_eq, he]
  simp only [render_cons, render_sample, Sample.render, hl, List.append_assoc]
  rfl

theorem render_flatMap {α : Type} {line : α → Line} {xs : List α} :
    render (xs.map line) = xs.flatMap fun x => render [line x] := by
  induction xs
  case nil          => rfl
  case cons x xs hi =>
    rw [List.map_cons, render_cons, hi, List.flatMap_cons]
    simp [render]

theorem writeStreams_eq {streams : List (StreamSample F)} :
    (streamMetrics f).foldl (fun output metric => streams.foldl
      (writeStream f (escapeTestId testId) metric) (writeFamilyHeader output metric.fst)) output =
    output ++ renderFamilies ((streamMetrics f).map (streamFamily f testId streams)) := by
  have h (output : Text) : ∀ metric ∈ streamMetrics f,
      streams.foldl (writeStream f (escapeTestId testId) metric)
        (writeFamilyHeader output metric.fst) =
      output ++ render (streamFamily f testId streams metric).lines := by
    intro metric _
    have hs (output : Text) : ∀ s ∈ streams, writeStream f (escapeTestId testId) metric output s =
        output ++ _ := fun s _ => writeStream_eq
    rw [foldl_append hs, streamFamily, render_family, List.map_map, render_flatMap,
      writeFamilyHeader_eq, List.append_assoc]
    rfl
  rw [foldl_append h, renderFamilies_map]

theorem formatSamples_eq {elapsedMs bytesTotal : UInt64} {throughputMbps : F}
    {streams : List (StreamSample F)} {tcpInfo : Option Messages.TcpInfoSnapshot}
    {udpStats : List (Messages.UdpStats F)} :
    formatSamples f testId elapsedMs bytesTotal throughputMbps streams tcpInfo udpStats =
      "# Test ID: ".toList ++ escape testId ++ ['\n'] ++ renderFamilies
        (sampleFamilies f testId elapsedMs bytesTotal throughputMbps streams tcpInfo udpStats) := by
  have hstreams (output : Text) : (if streams.isEmpty then output else
      (streamMetrics f).foldl (fun output metric => streams.foldl
        (writeStream f (escapeTestId testId) metric) (writeFamilyHeader output metric.fst)) output) =
      output ++ renderFamilies (if streams.isEmpty then []
        else (streamMetrics f).map (streamFamily f testId streams)) := by
    cases streams.isEmpty
    case true  => simp [renderFamilies, render]
    case false => exact writeStreams_eq
  have hudp (output : Text) : (if udpStats.isEmpty then output else
      (udpMetrics f udpStats).foldl (writeMetric f) output) =
      output ++ renderFamilies
        (if udpStats.isEmpty then [] else (udpMetrics f udpStats).map (single f)) := by
    cases udpStats.isEmpty
    case true  => simp [renderFamilies, render]
    case false => exact writeMetrics_eq
  unfold formatSamples
  simp only [hstreams, hudp, sampleFamilies, renderFamilies_append]
  rw [writeMetrics_eq, escapeTestId_eq]
  cases tcpInfo
  case none         => simp [renderFamilies, render]
  case some tcpInfo => simp [writeMetrics_eq]

theorem renderLabels_direction {metric : DirectionMetric} {sample : DirectionalUdp F} :
    renderLabels (directionLabels metric sample) = '{' :: (if metric = .bytes ∨ metric = .throughputMbps
      then quoted "direction" sample.direction.name ++ [','] ++ quoted "view" sample.view.name
      else quoted "direction" sample.direction.name) ++ ['}'] := by
  have hd : escape sample.direction.name.toList = sample.direction.name.toList := by
    cases sample.direction <;> decide
  have hv : escape sample.view.name.toList = sample.view.name.toList := by
    cases sample.view <;> decide
  unfold directionLabels
  split_ifs <;> simp [renderLabels, renderLabel, List.intercalate, quoted, hd, hv]

-- A direction without a value is left out.
theorem writeDirection_none {name : String} {metric : DirectionMetric} {sample : DirectionalUdp F}
    {written : Text × Bool} (h : metric.value f sample = none) :
    writeDirection f name metric written sample = written := by
  simp only [writeDirection, h]

theorem writeDirection_some {name : String} {metric : DirectionMetric} {sample : DirectionalUdp F}
    {value : Text} {more : Bool} (h : metric.value f sample = some value) :
    writeDirection f name metric (output, more) sample =
      ((if more then output else writeFamilyHeader output ⟨name, metric.help, "gauge"⟩) ++ render [
        .sample { name := name.toList, labels := directionLabels metric sample, value }], true) := by
  have he : "\x7d ".toList = ['}', ' '] := by decide
  simp only [writeDirection, h, he, render_cons, render_sample, Sample.render, renderLabels_direction]
  simp [render]

theorem writeDirections_true {name : String} {metric : DirectionMetric}
    {samples : List (DirectionalUdp F)} :
    samples.foldl (writeDirection f name metric) (output, true) =
      (output ++ render ((directionSamples f samples metric).map fun s =>
        .sample { name := name.toList, labels := s.fst, value := s.snd }), true) := by
  induction samples generalizing output
  case nil => simp [directionSamples, render]
  case cons sample samples hi =>
    rw [List.foldl_cons]
    cases h : metric.value f sample
    case none =>
      rw [writeDirection_none h, hi]
      simp [directionSamples, h]
    case some value =>
      rw [writeDirection_some h, hi]
      simp [directionSamples, h, render]

-- The header comes before the first sample.
theorem writeDirections_eq {name : String} {metric : DirectionMetric}
    {samples : List (DirectionalUdp F)} :
    (samples.foldl (writeDirection f name metric) (output, false)).fst =
      if (directionSamples f samples metric).isEmpty then output
      else output ++ render
        (Header.family ⟨name, metric.help, "gauge"⟩ (directionSamples f samples metric)).lines := by
  induction samples
  case nil => simp [directionSamples]
  case cons sample samples hi =>
    rw [List.foldl_cons]
    cases h : metric.value f sample
    case none =>
      rw [writeDirection_none h, hi]
      simp [directionSamples, h]
    case some value =>
      rw [writeDirection_some h, writeDirections_true, render_family, writeFamilyHeader_eq]
      simp [directionSamples, h, render]

theorem renderFamilies_filter {α : Type} {family : α → Family} {p : Family → Bool} {xs : List α} :
    renderFamilies ((xs.map family).filter p) =
      xs.flatMap fun x => renderFamilies ([family x].filter p) := by
  induction xs
  case nil => rfl
  case cons x xs hi =>
    rw [List.flatMap_cons, ← hi, ← renderFamilies_append, ← List.filter_append, List.map_cons,
      List.singleton_append]

theorem appendUdpDirectionsNamed_eq {samples : List (DirectionalUdp F)} {familyPrefix : String} :
    appendUdpDirectionsNamed f output samples familyPrefix =
      output ++ renderFamilies (directionFamilies f familyPrefix samples) := by
  have h (output : Text) : ∀ metric ∈ DirectionMetric.all,
      (samples.foldl (writeDirection f (familyPrefix ++ "_" ++ metric.name) metric)
        (output, false)).fst = output ++ renderFamilies
          ([directionFamily f familyPrefix samples metric].filter (!·.samples.isEmpty)) := by
    intro metric _
    rw [writeDirections_eq]
    cases he : (directionSamples f samples metric).isEmpty
    case true  => simp [directionFamily, Header.family, he, renderFamilies, render]
    case false => simp [directionFamily, Header.family, he, renderFamilies, directionHeader]
  rw [appendUdpDirectionsNamed, foldl_append h, directionFamilies, renderFamilies_filter]

-- Families among which the header of a gauge can be searched for.
def Findable (families : List Family) : Prop :=
  ∀ f ∈ families, f.Searchable ∧ f.kind = "gauge".toList

def writeGauge (metric : String) (output : Text) (s : List Label × Text) : Text :=
  snapshotGauge output metric (renderLabels s.fst) s.snd

variable {metric : String} {families : List Family} {samples more : List (List Label × Text)}

theorem toList_gaugeName : (gaugeHeader metric).name.toList = "xfr_last_test_".toList ++ metric.toList :=
  String.toList_append

theorem toList_gaugeHelp : (gaugeHeader metric).help.toList =
    "Most recently pushed test snapshot ".toList ++ metric.toList :=
  String.toList_append

theorem gauge_type : "# TYPE xfr_last_test_".toList ++ metric.toList ++ " gauge\n".toList =
    (Line.type (gaugeHeader metric).name.toList "gauge".toList).render ++ ['\n'] := by
  have hs : "# TYPE xfr_last_test_".toList = "# TYPE ".toList ++ "xfr_last_test_".toList := by decide
  have hg : " gauge\n".toList = [' '] ++ "gauge".toList ++ ['\n'] := by decide
  have hr : (Line.type (gaugeHeader metric).name.toList "gauge".toList).render =
      "# TYPE ".toList ++ (gaugeHeader metric).name.toList ++ [' '] ++ "gauge".toList := rfl
  rw [hr, toList_gaugeName, hs, hg]
  simp only [List.append_assoc]

theorem gauge_help : "# HELP xfr_last_test_".toList ++ metric.toList ++
    " Most recently pushed test snapshot ".toList ++ metric.toList =
      "# HELP ".toList ++ (gaugeHeader metric).name.toList ++ [' '] ++
        (gaugeHeader metric).help.toList := by
  have hs : "# HELP xfr_last_test_".toList = "# HELP ".toList ++ "xfr_last_test_".toList := by decide
  have hh : " Most recently pushed test snapshot ".toList =
      [' '] ++ "Most recently pushed test snapshot ".toList := by decide
  rw [toList_gaugeName, toList_gaugeHelp, hs, hh]
  simp only [List.append_assoc]

-- Without the newline at its end.
theorem gauge_trim : ((Line.type (gaugeHeader metric).name.toList "gauge".toList).render ++
    ['\n']).rdropWhile Char.isWhiteSpace =
      (Line.type (gaugeHeader metric).name.toList "gauge".toList).render := by
  have he : "gauge".toList = "gaug".toList ++ ['e'] := by decide
  have hr : (Line.type (gaugeHeader metric).name.toList "gauge".toList).render =
      "# TYPE ".toList ++ (gaugeHeader metric).name.toList ++ [' '] ++ "gauge".toList := rfl
  rw [List.rdropWhile_concat_pos _ _ _ (by decide), hr, he, ← List.append_assoc,
    List.rdropWhile_concat_neg _ _ _ (by decide)]

theorem gauge_header : writeFamilyHeader output (gaugeHeader metric) =
    output ++ ("# HELP xfr_last_test_".toList ++ metric.toList ++
      " Most recently pushed test snapshot ".toList ++ metric.toList) ++ ['\n'] ++
      (Line.type (gaugeHeader metric).name.toList "gauge".toList).render ++ ['\n'] := by
  have hk : (gaugeHeader metric).metricType = "gauge" := rfl
  have hr : (Line.type (gaugeHeader metric).name.toList "gauge".toList).render =
      "# TYPE ".toList ++ (gaugeHeader metric).name.toList ++ [' '] ++ "gauge".toList := rfl
  rw [gauge_help, hr, writeFamilyHeader, hk]
  simp only [List.append_assoc]

theorem snapshotGauge_eq {labels value : Text} : snapshotGauge output metric labels value =
    (if (Line.type (gaugeHeader metric).name.toList "gauge".toList).render ++ ['\n'] <:+: output
      then output else writeFamilyHeader output (gaugeHeader metric)) ++
    ((gaugeHeader metric).name.toList ++ labels ++ [' '] ++ value ++ ['\n']) := by
  unfold snapshotGauge
  rw [gauge_type]
  dsimp only
  rw [gauge_trim, gauge_header]
  simp only [toList_gaugeName, List.append_assoc]

theorem Findable.prefix (h : Findable (families ++ [gaugeFamily (metric, samples ++ more)])) :
    Findable (families ++ [gaugeFamily (metric, samples)]) := by
  intro f hf
  cases List.mem_append.mp hf
  case inl hf => exact h f (List.mem_append_left _ hf)
  case inr hf =>
    have ⟨p, hk⟩ := h _ (List.mem_append_right _ (List.mem_singleton_self _))
    rw [List.mem_singleton.mp hf]
    constructor
    case right => exact hk
    case left =>
      exact { name       := p.name
              help       := p.help
              kind       := p.kind
              points     := fun s hs => p.points s (List.mem_append_left _ hs)
              hashHelp   := p.hashHelp
              hashLabels := fun s hs => p.hashLabels s (List.mem_append_left _ hs) }

theorem Findable.infix_iff (h : Findable families)
    (hm : isMetricName (gaugeHeader metric).name.toList = true) :
    (Line.type (gaugeHeader metric).name.toList "gauge".toList).render ++ ['\n'] <:+:
      renderFamilies families ↔ (gaugeHeader metric).name.toList ∈ families.map (·.name) :=
  infix_type_iff hm (by decide) (fun f hf => (h f hf).left) fun f hf => (h f hf).right

theorem render_point {name : Text} {s : List Label × Text} :
    render [.sample { name, labels := s.fst, value := s.snd }] =
      name ++ renderLabels s.fst ++ [' '] ++ s.snd ++ ['\n'] := by
  simp [render, render_sample, Sample.render]

theorem writeGauge_first {s : List Label × Text} (h : Findable families)
    (hm : isMetricName (gaugeHeader metric).name.toList = true)
    (hn : (gaugeHeader metric).name.toList ∉ families.map (·.name)) :
    writeGauge metric (renderFamilies families) s =
      renderFamilies (families ++ [gaugeFamily (metric, [s])]) := by
  have hr : renderFamilies [gaugeFamily (metric, [s])] =
      render (gaugeFamily (metric, [s])).lines := by simp [renderFamilies]
  rw [writeGauge, snapshotGauge_eq, if_neg ((h.infix_iff hm).not.mpr hn), renderFamilies_append, hr,
    gaugeFamily, render_family, List.map_singleton, render_point, writeFamilyHeader_eq,
    List.append_assoc]

theorem writeGauge_more {s : List Label × Text}
    (h : Findable (families ++ [gaugeFamily (metric, samples)])) :
    writeGauge metric (renderFamilies (families ++ [gaugeFamily (metric, samples)])) s =
      renderFamilies (families ++ [gaugeFamily (metric, samples ++ [s])]) := by
  have hm := (h _ (List.mem_append_right _ (List.mem_singleton_self _))).left.name
  have hn : (gaugeHeader metric).name.toList ∈
      (families ++ [gaugeFamily (metric, samples)]).map (·.name) := by
    simp [gaugeFamily, Header.family]
  have hr (samples : List (List Label × Text)) : renderFamilies [gaugeFamily (metric, samples)] =
      render (gaugeFamily (metric, samples)).lines := by simp [renderFamilies]
  rw [writeGauge, snapshotGauge_eq, if_pos ((h.infix_iff hm).mpr hn), renderFamilies_append,
    renderFamilies_append, hr, hr, gaugeFamily, gaugeFamily, render_family, render_family,
    List.map_append, render_append, List.map_singleton, render_point]
  simp only [List.append_assoc]

-- The samples of one gauge are written one after the other.
theorem writeGauges_more (h : Findable (families ++ [gaugeFamily (metric, samples ++ more)])) :
    more.foldl (writeGauge metric) (renderFamilies (families ++ [gaugeFamily (metric, samples)])) =
      renderFamilies (families ++ [gaugeFamily (metric, samples ++ more)]) := by
  induction more generalizing samples
  case nil => simp
  case cons s more hi =>
    have he : samples ++ s :: more = samples ++ [s] ++ more := by simp
    rw [List.foldl_cons, writeGauge_more h.prefix, hi (he ▸ h), ← he]

theorem writeGauges {gauges : List (String × List (List Label × Text))}
    (h : Findable (families ++ gauges.map gaugeFamily))
    (hs : ∀ gauge ∈ gauges, gauge.snd ≠ [])
    (hn : ((families ++ gauges.map gaugeFamily).map (·.name)).Nodup) :
    gauges.foldl (fun output gauge => gauge.snd.foldl (writeGauge gauge.fst) output)
      (renderFamilies families) = renderFamilies (families ++ gauges.map gaugeFamily) := by
  induction gauges generalizing families
  case nil => simp
  case cons gauge gauges hi =>
    have ⟨hs, hss⟩ := List.forall_mem_cons.mp hs
    have he : families ++ (gauge :: gauges).map gaugeFamily =
        families ++ [gaugeFamily gauge] ++ gauges.map gaugeFamily := by simp
    have hfirst : gauge.snd.foldl (writeGauge gauge.fst) (renderFamilies families) =
        renderFamilies (families ++ [gaugeFamily gauge]) := by
      have hf : Findable (families ++ [gaugeFamily gauge]) := fun f hf =>
        h f (he ▸ List.mem_append_left _ hf)
      have ⟨metric, samples⟩ := gauge
      cases samples
      case nil => exact absurd rfl hs
      case cons s samples =>
        have hm := (hf _ (List.mem_append_right _ (List.mem_singleton_self _))).left.name
        have hnew : (gaugeHeader metric).name.toList ∉ families.map (·.name) := by
          rw [List.map_append, List.nodup_append] at hn
          intro hmem
          exact hn.right.right _ hmem _ List.mem_cons_self rfl
        rw [List.foldl_cons, writeGauge_first (fun f hm => hf f (List.mem_append_left _ hm)) hm hnew]
        exact writeGauges_more hf
    rw [List.foldl_cons, hfirst, hi (he ▸ h) hss (he ▸ hn), ← he]

end PushMetrics
