import Xfr.Library.Decimal
import Xfr.Output.PushFamilies

open Exposition

-- The families of a payload are proper, and each occurs once.
namespace PushMetrics

def Header.text (h : Header) : Text × Text × Text :=
  (h.name.toList, h.help.toList, h.metricType.toList)

def header (f : Family) : Text × Text × Text :=
  (f.name, f.help, f.kind)

def isPlain (c : Char) : Bool :=
  c ≠ '\n' && c ≠ '\\' && c ≠ '#'

def isPlainHelp (text : Text) : Bool :=
  text.all isPlain && !text.head?.any isBlank

structure ProperHeader (header : Text × Text × Text) : Prop where
  name : isMetricName header.fst = true
  help : isPlainHelp header.snd.fst = true
  kind : header.snd.snd ∈ kinds

-- The headers of all families of a test, in their order.
def testHeaders : List Header :=
  aggregateHeaders ++ streamHeaders ++ tcpHeaders ++ udpHeaders ++
    DirectionMetric.all.map (directionHeader "xfr_udp_direction")

def gaugeNames : List String :=
  ["bytes", "throughput_mbps", "duration_seconds", "streams", "tcp_info_available",
    "tcp_rtt_microseconds", "tcp_retransmits", "tcp_cwnd_bytes", "udp_direction_available",
    "udp_direction_quality_available", "udp_direction_jitter_available"]

def snapshotHeaders : List Header :=
  gaugeNames.map gaugeHeader ++
    DirectionMetric.all.map (directionHeader "xfr_last_test_udp_direction")

structure ProperTable (table : List Header) : Prop where
  proper : ∀ h ∈ table, ProperHeader h.text
  names  : (table.map (·.name)).Nodup

theorem isMetricName_append {name more : Text} (h : isMetricName name = true)
    (hm : more.all isNameChar = true) : isMetricName (name ++ more) = true := by
  have ⟨c, rest, hn, _⟩ := exists_cons_of_isMetricName h
  simp only [isMetricName, Bool.and_eq_true] at h ⊢
  refine ⟨?_, by rw [List.all_append, h.right, hm]; rfl⟩
  rw [hn] at h ⊢
  exact h.left

theorem isPlainHelp_append {text more : Text} (h : isPlainHelp text = true) (hn : text ≠ [])
    (hm : more.all isPlain = true) : isPlainHelp (text ++ more) = true := by
  simp only [isPlainHelp, Bool.and_eq_true] at h ⊢
  rw [List.all_append, h.left, hm, List.head?_append_of_ne_nil _ hn]
  exact ⟨rfl, h.right⟩

theorem isPlain_of_isNameChar {name : Text} (h : name.all isNameChar = true) :
    name.all isPlain = true := by
  rw [List.all_eq_true] at h ⊢
  intro c hc
  have hne (d : Char) (hd : isNameChar d = false) : c ≠ d := fun he => by simp [← he, h c hc] at hd
  simp [isPlain, hne '\n' (by decide), hne '\\' (by decide), hne '#' (by decide)]

theorem gauge_mem_kinds : "gauge".toList ∈ kinds := by
  decide

theorem properHeader_gauge {metric : String} (h : metric.toList.all isNameChar = true) :
    ProperHeader (gaugeHeader metric).text where
  name := by
    rw [Header.text, toList_gaugeName]
    exact isMetricName_append (by decide +kernel) h
  help := by
    rw [Header.text, toList_gaugeHelp]
    exact isPlainHelp_append (by decide +kernel) (by decide +kernel) (isPlain_of_isNameChar h)
  kind := by
    simp only [Header.text, gaugeHeader]
    exact gauge_mem_kinds

theorem properHeader_direction {familyPrefix : String} {metric : DirectionMetric}
    (h : isMetricName familyPrefix.toList = true) :
    ProperHeader (directionHeader familyPrefix metric).text where
  name := by
    have hu : "_".toList.all isNameChar = true := by decide
    have hm : metric.name.toList.all isNameChar = true := by cases metric <;> decide +kernel
    rw [Header.text, directionHeader, String.toList_append, String.toList_append]
    exact isMetricName_append (isMetricName_append h hu) hm
  help := by
    have hh : isPlainHelp metric.help.toList = true := by cases metric <;> decide +kernel
    exact hh
  kind := by
    simp only [Header.text, directionHeader]
    exact gauge_mem_kinds

theorem testHeaders_proper : ProperTable testHeaders where
  proper := by
    have hs : ∀ h ∈ aggregateHeaders ++ streamHeaders ++ tcpHeaders ++ udpHeaders,
        isMetricName h.text.fst = true ∧ isPlainHelp h.text.snd.fst = true ∧
          h.text.snd.snd ∈ kinds := by
      decide +kernel
    intro h hm
    cases List.mem_append.mp hm
    case inl hm =>
      have ⟨name, help, kind⟩ := hs h hm
      exact ⟨name, help, kind⟩
    case inr hm =>
      have ⟨metric, _, he⟩ := List.mem_map.mp hm
      exact he ▸ properHeader_direction (by decide +kernel)
  names  := by decide +kernel

theorem snapshotHeaders_proper : ProperTable snapshotHeaders where
  proper := by
    have hg : ∀ metric ∈ gaugeNames, metric.toList.all isNameChar = true := by decide +kernel
    intro h hm
    cases List.mem_append.mp hm
    case inl hm =>
      have ⟨metric, hm, he⟩ := List.mem_map.mp hm
      exact he ▸ properHeader_gauge (hg metric hm)
    case inr hm =>
      have ⟨metric, _, he⟩ := List.mem_map.mp hm
      exact he ▸ properHeader_direction (by decide +kernel)
  names  := by decide +kernel

-- Families with headers of a table, in its order.
structure Tabled (table : List Header) (families : List Family) : Prop where
  headers : List.Sublist (families.map header) (table.map Header.text)
  points  : ∀ f ∈ families, ∀ s ∈ f.samples, ProperPoint s
  series  : ∀ f ∈ families, (f.samples.map Prod.fst).Nodup

variable {F : Type} {f : Floats F} {table table' : List Header} {families families' : List Family}

theorem plainHelp_of_isPlainHelp {text : Text} (h : isPlainHelp text = true) :
    PlainHelp text ∧ '#' ∉ text := by
  simp only [isPlainHelp, Bool.and_eq_true, List.all_eq_true, Bool.not_eq_true'] at h
  have ⟨ha, hs⟩ := h
  have hne (d : Char) (hd : isPlain d = false) : d ∉ text := fun hm => by simp [ha d hm] at hd
  constructor
  case right => exact hne '#' (by decide)
  case left =>
    refine ⟨hne '\n' (by decide), hne '\\' (by decide), fun c hc => ?_⟩
    cases hx : isBlank c
    case false => rfl
    case true  => simp [Option.mem_def.mp hc, hx] at hs

namespace Tabled

theorem nil : Tabled table [] where
  headers := List.nil_sublist _
  points  := nofun
  series  := nofun

theorem append (h : Tabled table families) (h' : Tabled table' families') :
    Tabled (table ++ table') (families ++ families') where
  headers := by
    rw [List.map_append, List.map_append]
    exact h.headers.append h'.headers
  points  := fun f hf => (List.mem_append.mp hf).elim (h.points f) (h'.points f)
  series  := fun f hf => (List.mem_append.mp hf).elim (h.series f) (h'.series f)

theorem of_map {α : Type} {xs : List α} {family : α → Family} {head : α → Header}
    (hh : ∀ x ∈ xs, header (family x) = (head x).text)
    (hp : ∀ x ∈ xs, ∀ s ∈ (family x).samples, ProperPoint s)
    (hs : ∀ x ∈ xs, ((family x).samples.map Prod.fst).Nodup) :
    Tabled (xs.map head) (xs.map family) where
  headers := by
    have he : xs.map (header ∘ family) = xs.map (Header.text ∘ head) := List.map_congr_left hh
    rw [List.map_map, List.map_map, he]
  points  := List.forall_mem_map.mpr hp
  series  := List.forall_mem_map.mpr hs

theorem filter {p : Family → Bool} (h : Tabled table families) :
    Tabled table (families.filter p) where
  headers := (List.filter_sublist.map _).trans h.headers
  points  := fun f hf => h.points f (List.mem_of_mem_filter hf)
  series  := fun f hf => h.series f (List.mem_of_mem_filter hf)

variable (t : ProperTable table) (h : Tabled table families)

include t h

theorem properHeader {f : Family} (hf : f ∈ families) : ProperHeader (header f) := by
  have ⟨head, hm, he⟩ := List.mem_map.mp (h.headers.subset (List.mem_map_of_mem hf))
  exact he ▸ t.proper head hm

theorem proper : ∀ f ∈ families, f.Proper := by
  intro f hf
  have p := h.properHeader t hf
  exact ⟨p.name, (plainHelp_of_isPlainHelp p.help).left, p.kind, h.points f hf⟩

theorem hash_not_mem : ∀ f ∈ families, '#' ∉ f.help :=
  fun _ hf => (plainHelp_of_isPlainHelp (h.properHeader t hf).help).right

theorem grouped : Grouped families := by
  have hn : (families.map (·.name)).Nodup := by
    have ht := t.names.map fun _ _ => String.toList_inj.mp
    have hs := h.headers.map Prod.fst
    rw [List.map_map] at ht
    rw [List.map_map, List.map_map] at hs
    exact ht.sublist hs
  exact Grouped.of_labels hn h.series

end Tabled

theorem isNumber_integer {n : Nat} : isNumber (integer n) = true :=
  isNumber_of_digits Nat.toDigits_ne_nil isDigit_integer

theorem properPoint_nil {value : Text} (h : isNumber value = true) : ProperPoint ([], value) where
  labels   := nofun
  distinct := List.nodup_nil
  value    := h

-- Families with one sample each.
theorem tabled_single {metrics : List (Header × F)} :
    Tabled (metrics.map Prod.fst) (metrics.map (single f)) := by
  apply Tabled.of_map
  case hh => exact fun _ _ => rfl
  case hp =>
    intro metric _ s hs
    exact List.mem_singleton.mp hs ▸ properPoint_nil (f.number _)
  case hs => exact fun _ _ => List.nodup_singleton _

variable {testId : Text} {streams : List (StreamSample F)}

theorem properPoint_stream {id : UInt8} {value : Text} (h : isNumber value = true) :
    ProperPoint (streamLabels testId id, value) where
  labels   := by
    have hn : ∀ name ∈ ["test_id".toList, "stream_id".toList], isLabelName name = true := by decide
    simpa [streamLabels] using hn
  distinct := by
    have hn : ["test_id".toList, "stream_id".toList].Nodup := by decide
    exact hn
  value    := h

theorem streamLabels_injective : Function.Injective (streamLabels testId) := by
  intro id id' h
  have hn : integer id.toNat = integer id'.toNat := by simpa [streamLabels] using h
  have hv := congrArg Decimal.value hn
  simp only [integer, Decimal.value_toDigits] at hv
  exact UInt8.toNat_inj.mp hv

theorem tabled_streams {metrics : List (Header × (StreamSample F → F))}
    (h : (streams.map (·.id)).Nodup) :
    Tabled (metrics.map Prod.fst) (metrics.map (streamFamily f testId streams)) := by
  apply Tabled.of_map
  case hh => exact fun _ _ => rfl
  case hp =>
    intro metric _ s hs
    have ⟨sample, _, he⟩ := List.mem_map.mp hs
    exact he ▸ properPoint_stream (f.number _)
  case hs =>
    intro metric _
    have hn := h.map (@streamLabels_injective testId)
    rw [List.map_map] at hn
    rwa [streamFamily, Header.family, List.map_map]

theorem tabled_samples {elapsedMs bytesTotal : UInt64} {throughputMbps : F}
    {tcpInfo : Option Messages.TcpInfoSnapshot} {udpStats : List (Messages.UdpStats F)}
    (h : (streams.map (·.id)).Nodup) :
    Tabled (aggregateHeaders ++ streamHeaders ++ tcpHeaders ++ udpHeaders) (sampleFamilies f testId
      elapsedMs bytesTotal throughputMbps streams tcpInfo udpStats) := by
  have haggregate : Tabled aggregateHeaders
      ((aggregateMetrics f elapsedMs bytesTotal throughputMbps).map (single f)) := by
    have ht := @tabled_single F f (aggregateMetrics f elapsedMs bytesTotal throughputMbps)
    have he : (aggregateMetrics f elapsedMs bytesTotal throughputMbps).map Prod.fst =
        aggregateHeaders := List.map_fst_zip (Nat.le_refl 3)
    rwa [he] at ht
  have hstreams : Tabled streamHeaders (if streams.isEmpty then []
      else (streamMetrics f).map (streamFamily f testId streams)) := by
    have ht := @tabled_streams F f testId streams (streamMetrics f) h
    have he : (streamMetrics f).map Prod.fst = streamHeaders := List.map_fst_zip (Nat.le_refl 3)
    rw [he] at ht
    cases streams.isEmpty
    case true  => exact .nil
    case false => exact ht
  have htcp : Tabled tcpHeaders
      (tcpInfo.toList.flatMap fun tcpInfo => (tcpMetrics f tcpInfo).map (single f)) := by
    cases tcpInfo
    case none => exact .nil
    case some tcpInfo =>
      have ht := @tabled_single F f (tcpMetrics f tcpInfo)
      have he : (tcpMetrics f tcpInfo).map Prod.fst = tcpHeaders := List.map_fst_zip (Nat.le_refl 3)
      rw [he] at ht
      simpa using ht
  have hudp : Tabled udpHeaders
      (if udpStats.isEmpty then [] else (udpMetrics f udpStats).map (single f)) := by
    have ht := @tabled_single F f (udpMetrics f udpStats)
    have he : (udpMetrics f udpStats).map Prod.fst = udpHeaders := List.map_fst_zip (Nat.le_refl 5)
    rw [he] at ht
    cases udpStats.isEmpty
    case true  => exact .nil
    case false => exact ht
  exact ((haggregate.append hstreams).append htcp).append hudp

variable {samples : List (DirectionalUdp F)} {metric : DirectionMetric} {sample : DirectionalUdp F}
  {value : Text}

theorem isNumber_value (h : metric.value f sample = some value) : isNumber value = true := by
  cases metric <;> simp only [DirectionMetric.value, Option.map_eq_some_iff] at h
  all_goals
    have ⟨_, _, he⟩ := h
    subst he
  case bytes           => exact isNumber_integer
  case throughputMbps  => exact f.number _
  case packetsExpected => exact isNumber_integer
  case packetsReceived => exact isNumber_integer
  case packetsLost     => exact isNumber_integer
  case lostPercent     => exact f.number _
  case jitterMs        => exact f.number _

-- The names of labels of directions.
theorem directionLabels_names {label : Label} (h : label ∈ directionLabels metric sample) :
    label.fst ∈ ["direction".toList, "view".toList] := by
  unfold directionLabels at h
  split_ifs at h
  case pos => cases List.mem_cons.mp h with
    | inl h => simp [h]
    | inr h => simp [List.mem_singleton.mp h]
  case neg => simp [List.mem_singleton.mp h]

theorem properPoint_of_names {labels : List Label}
    (hl : List.Sublist (labels.map Prod.fst) ["direction".toList, "view".toList])
    (h : isNumber value = true) : ProperPoint (labels, value) where
  labels   := by
    have hn : ∀ name ∈ ["direction".toList, "view".toList], isLabelName name = true := by decide
    exact fun label hm => hn _ (hl.subset (List.mem_map_of_mem hm))
  distinct := by
    have hn : ["direction".toList, "view".toList].Nodup := by decide
    exact hn.sublist hl
  value    := h

theorem directionLabels_sublist : List.Sublist ((directionLabels metric sample).map Prod.fst)
    ["direction".toList, "view".toList] := by
  unfold directionLabels
  split_ifs <;> simp

theorem name_injective : Function.Injective fun way : Way => way.name.toList := by
  intro way way' h
  have hn : way.name = way'.name := String.toList_inj.mp h
  cases way <;> cases way' <;> simp_all [Way.name]

-- The labels tell the direction.
theorem nodup_of_directions {labels : DirectionalUdp F → List Label}
    (hl : ∀ sample, (labels sample).head? = some ("direction".toList, sample.direction.name.toList))
    (h : (samples.map (·.direction)).Nodup) : samples.Pairwise fun a b => labels a ≠ labels b := by
  refine (List.pairwise_map.mp h).imp fun {a b} hne he => hne ?_
  have hd := congrArg List.head? he
  rw [hl, hl] at hd
  exact name_injective (Prod.mk.inj (Option.some.inj hd)).right

theorem tabled_directions {familyPrefix : String} (h : (samples.map (·.direction)).Nodup) :
    Tabled (DirectionMetric.all.map (directionHeader familyPrefix))
      (directionFamilies f familyPrefix samples) := by
  apply Tabled.filter
  apply Tabled.of_map
  case hh => exact fun _ _ => rfl
  case hp =>
    intro metric _ s hs
    have ⟨sample, _, he⟩ := List.mem_filterMap.mp hs
    have ⟨value, hv, he⟩ := Option.map_eq_some_iff.mp he
    exact he ▸ properPoint_of_names directionLabels_sublist (isNumber_value hv)
  case hs =>
    intro metric _
    refine List.pairwise_map.mpr (List.pairwise_filterMap.mpr ?_)
    refine (@nodup_of_directions F samples (directionLabels metric) (fun _ => rfl) h).imp ?_
    intro a b hne s hs s' hs' he
    have ⟨_, _, hs⟩ := Option.map_eq_some_iff.mp hs
    have ⟨_, _, hs'⟩ := Option.map_eq_some_iff.mp hs'
    rw [← hs, ← hs'] at he
    exact hne he

theorem tabled_gauge {metrics : List (String × Text)} (h : ∀ m ∈ metrics, isNumber m.snd = true) :
    Tabled ((metrics.map Prod.fst).map gaugeHeader) ((metrics.map plainGauge).map gaugeFamily) := by
  rw [List.map_map, List.map_map]
  apply Tabled.of_map
  case hh => exact fun _ _ => rfl
  case hp => exact fun m hm s hs => List.mem_singleton.mp hs ▸ properPoint_nil (h m hm)
  case hs => exact fun _ _ => List.nodup_singleton _

theorem availabilityLabels_sublist {view : String} :
    List.Sublist ((availabilityLabels view sample).map Prod.fst)
      ["direction".toList, "view".toList] := by
  unfold availabilityLabels viewLabels
  split_ifs <;> simp

theorem tabled_availability {entries : List (String × String × (DirectionalUdp F → Bool))}
    (h : (samples.map (·.direction)).Nodup) :
    Tabled ((entries.map Prod.fst).map gaugeHeader)
      ((entries.map (availabilityGauge samples)).map gaugeFamily) := by
  rw [List.map_map, List.map_map]
  apply Tabled.of_map
  case hh => exact fun _ _ => rfl
  case hp =>
    intro entry _ s hs
    have ⟨sample, _, he⟩ := List.mem_map.mp hs
    exact he ▸ properPoint_of_names availabilityLabels_sublist isNumber_integer
  case hs =>
    intro entry _
    refine List.pairwise_map.mpr (List.pairwise_map.mpr ?_)
    exact @nodup_of_directions F samples (availabilityLabels entry.snd.fst) (fun _ => rfl) h

theorem directions_result {result : Messages.TestResult F} {direction : Protocol.Direction} :
    ((resultDirections result direction).map (·.direction)).Nodup := by
  cases direction
  case upload   => exact List.nodup_singleton _
  case download => exact List.nodup_singleton _
  case bidir    => simp [resultDirections]

theorem directions_whole {result : Messages.TestResult F} {direction : Protocol.Direction} :
    (((resultDirections result direction).map (·.whole)).map (·.direction)).Nodup := by
  have hw : ((·.direction) ∘ (·.whole) : DirectionalUdp F → Way) = (·.direction) := by
    funext sample
    simp only [Function.comp, DirectionalUdp.whole]
    split_ifs <;> rfl
  rw [List.map_map, hw]
  exact directions_result

-- What is said about a direction.
theorem snapshotDirection_eq {output : Text}
    {entry : String × String × (DirectionalUdp F → Bool)} (h : entry ∈ @availability F) :
    snapshotDirection entry.fst entry.snd.fst entry.snd.snd output sample =
      writeGauge entry.fst output (availabilityLabels entry.snd.fst sample,
        integer (entry.snd.snd sample).toNat) := by
  have hd : escape sample.direction.name.toList = sample.direction.name.toList := by
    cases sample.direction <;> decide
  have hv : escape ['r', 'e', 'c', 'e', 'i', 'v', 'e', 'r'] =
      ['r', 'e', 'c', 'e', 'i', 'v', 'e', 'r'] := by decide
  have hview : entry.snd.fst ∈ ["", ",view=\"receiver\""] := by
    simp only [availability, List.mem_cons, List.not_mem_nil, or_false] at h
    rcases h with h | h | h <;> simp [h]
  have hl : "\x7bdirection=\"".toList ++ sample.direction.name.toList ++ ['"'] ++
      entry.snd.fst.toList ++ ['}'] = renderLabels (availabilityLabels entry.snd.fst sample) := by
    generalize entry.snd.fst = view at hview ⊢
    simp only [List.mem_cons, List.not_mem_nil, or_false] at hview
    cases hview
    case inl h => simp [h, availabilityLabels, viewLabels, renderLabels, renderLabel, hd]
    case inr h => simp [h, availabilityLabels, viewLabels, renderLabels, renderLabel, hd, hv]
  rw [snapshotDirection, hl, writeGauge]

end PushMetrics

namespace PushGatewayClient

open PushMetrics

variable {F : Type} {f : Floats F} {client : PushGatewayClient} {result : Messages.TestResult F}
  {stats : StatsReading F}

theorem directions_stats {direction : Protocol.Direction} :
    ((statsDirections f stats direction).map (·.direction)).Nodup := by
  cases direction
  case upload   => exact List.nodup_singleton _
  case download => exact List.nodup_singleton _
  case bidir    => simp [statsDirections]

theorem tabled_optional {table : List Header} {families : Protocol.Direction → List Family}
    (h : ∀ direction, Tabled table (families direction)) :
    Tabled table (client.udpDirection.toList.flatMap families) := by
  cases client.udpDirection
  case none           => exact .nil
  case some direction => simpa using h direction

theorem tabled_resultFamilies (h : (result.streams.map (·.id)).Nodup) :
    Tabled testHeaders (client.resultFamilies f result) := by
  refine (tabled_samples ?_).append (tabled_optional fun _ => tabled_directions directions_result)
  rwa [List.map_map]

theorem tabled_metricsFamilies (h : (stats.streams.map (·.id)).Nodup) :
    Tabled testHeaders (client.metricsFamilies f stats) :=
  (tabled_samples h).append (tabled_optional fun _ => tabled_directions directions_stats)

theorem tabled_gauges :
    Tabled (gaugeNames.map gaugeHeader) ((client.gauges f result).map gaugeFamily) := by
  have hnames : gaugeNames = ["bytes", "throughput_mbps", "duration_seconds", "streams",
      "tcp_info_available"] ++ ["tcp_rtt_microseconds", "tcp_retransmits", "tcp_cwnd_bytes"] ++
      (@availability F).map Prod.fst := rfl
  have hsnapshot : Tabled (["bytes", "throughput_mbps", "duration_seconds", "streams",
      "tcp_info_available"].map gaugeHeader)
      (((snapshotMetrics f result).map plainGauge).map gaugeFamily) := by
    have hn : ∀ metric ∈ snapshotMetrics f result, isNumber metric.snd = true := by
      simp [snapshotMetrics, isNumber_integer, f.number]
    exact tabled_gauge hn
  have htcp : Tabled (["tcp_rtt_microseconds", "tcp_retransmits", "tcp_cwnd_bytes"].map gaugeHeader)
      ((result.tcpInfo.toList.flatMap fun tcp => (snapshotTcpMetrics tcp).map plainGauge).map
        gaugeFamily) := by
    cases result.tcpInfo
    case none => exact .nil
    case some tcp =>
      have hn : ∀ metric ∈ snapshotTcpMetrics tcp, isNumber metric.snd = true := by
        simp [snapshotTcpMetrics, isNumber_integer]
      have ht := tabled_gauge hn
      rw [Option.toList_some, List.flatMap_singleton]
      exact ht
  have havail : Tabled (((@availability F).map Prod.fst).map gaugeHeader)
      ((client.udpDirection.toList.flatMap fun direction =>
        availability.map (availabilityGauge (resultDirections result direction))).map
          gaugeFamily) := by
    rw [List.map_flatMap]
    exact tabled_optional fun _ => tabled_availability directions_result
  rw [hnames, List.map_append, List.map_append, gauges, List.map_append, List.map_append]
  exact (hsnapshot.append htcp).append havail

theorem tabled_snapshotFamilies : Tabled snapshotHeaders (client.snapshotFamilies f result) :=
  tabled_gauges.append (tabled_optional fun _ => tabled_directions directions_whole)

theorem formatResult_eq : client.formatResult f result =
    "# Test ID: ".toList ++ escape result.id.toList ++ ['\n'] ++
      renderFamilies (client.resultFamilies f result) := by
  unfold formatResult resultFamilies
  rw [formatSamples_eq, renderFamilies_append]
  cases client.udpDirection
  case none => simp [renderFamilies, render]
  case some direction =>
    simp only [appendUdpDirections, appendUdpDirectionsNamed_eq, Option.toList_some,
      List.flatMap_singleton, List.append_assoc]

theorem formatMetrics_eq : client.formatMetrics f stats =
    "# Test ID: ".toList ++ escape stats.testId.toList ++ ['\n'] ++
      renderFamilies (client.metricsFamilies f stats) := by
  unfold formatMetrics metricsFamilies
  rw [formatSamples_eq, renderFamilies_append]
  cases client.udpDirection
  case none => simp [renderFamilies, render]
  case some direction =>
    simp only [appendUdpDirections, appendUdpDirectionsNamed_eq, Option.toList_some,
      List.flatMap_singleton, List.append_assoc]

theorem hash_not_mem_gauges : ∀ gauge ∈ client.gauges f result, ∀ s ∈ gauge.snd,
    ∀ label ∈ s.fst, '#' ∉ label.snd := by
  have single {metrics : List (String × Text)} : ∀ g ∈ metrics.map plainGauge, ∀ s ∈ g.snd,
      ∀ label ∈ s.fst, '#' ∉ label.snd := by
    intro g hg s hs
    have ⟨metric, _, he⟩ := List.mem_map.mp hg
    rw [← he] at hs
    rw [List.mem_singleton.mp hs]
    nofun
  intro g hg
  rw [gauges, List.mem_append, List.mem_append] at hg
  match hg with
  | .inl (.inl hg) => exact single g hg
  | .inl (.inr hg) =>
    have ⟨tcp, _, hg⟩ := List.mem_flatMap.mp hg
    exact single g hg
  | .inr hg        =>
    have ⟨direction, _, hg⟩ := List.mem_flatMap.mp hg
    have ⟨entry, _, he⟩ := List.mem_map.mp hg
    intro s hs label hl
    rw [← he] at hs
    have ⟨sample, _, he⟩ := List.mem_map.mp hs
    rw [← he] at hl
    have hd : '#' ∉ sample.direction.name.toList := by cases sample.direction <;> decide
    have hr : '#' ∉ "receiver".toList := by decide
    simp only [availabilityLabels, viewLabels, List.mem_cons] at hl
    cases hl
    case inl hl => exact hl ▸ hd
    case inr hl =>
      split_ifs at hl
      case pos => exact absurd hl List.not_mem_nil
      case neg => exact List.mem_singleton.mp hl ▸ hr

theorem findable_gauges : Findable ((client.gauges f result).map gaugeFamily) := by
  have ht : ProperTable (gaugeNames.map gaugeHeader) := {
    proper := fun h hm => snapshotHeaders_proper.proper h (List.mem_append_left _ hm)
    names  := by
      have hn := snapshotHeaders_proper.names
      rw [snapshotHeaders, List.map_append] at hn
      exact hn.of_append_left }
  intro family hf
  have p    := tabled_gauges.proper ht family hf
  have hash := tabled_gauges.hash_not_mem ht family hf
  have ⟨g, hg, he⟩ := List.mem_map.mp hf
  subst he
  exact ⟨{ p with hashHelp := hash, hashLabels := hash_not_mem_gauges g hg },
    by simp only [gaugeFamily, gaugeHeader, Header.family]⟩

theorem gauges_ne_nil : ∀ gauge ∈ client.gauges f result, gauge.snd ≠ [] := by
  have single {metrics : List (String × Text)} : ∀ g ∈ metrics.map plainGauge, g.snd ≠ [] := by
    intro g hg
    have ⟨metric, _, he⟩ := List.mem_map.mp hg
    exact he ▸ List.cons_ne_nil _ _
  intro g hg
  rw [gauges, List.mem_append, List.mem_append] at hg
  match hg with
  | .inl (.inl hg) => exact single g hg
  | .inl (.inr hg) =>
    have ⟨tcp, _, hg⟩ := List.mem_flatMap.mp hg
    exact single g hg
  | .inr hg        =>
    have ⟨direction, _, hg⟩ := List.mem_flatMap.mp hg
    have ⟨entry, _, he⟩ := List.mem_map.mp hg
    rw [← he]
    cases direction <;> simp [availabilityGauge, resultDirections]

-- The gauges are written one after the other, each with its header.
theorem write_gauges : (client.gauges f result).foldl
    (fun output gauge => gauge.snd.foldl (writeGauge gauge.fst) output) [] =
      renderFamilies ((client.gauges f result).map gaugeFamily) := by
  have hw := @writeGauges [] (client.gauges f result) findable_gauges gauges_ne_nil
  have ht : Tabled snapshotHeaders (client.snapshotFamilies f result) := tabled_snapshotFamilies
  have hnames := (ht.grouped snapshotHeaders_proper).names
  rw [snapshotFamilies, List.map_append] at hnames
  exact hw hnames.of_append_left

theorem formatSnapshot_eq :
    client.formatSnapshot f result = renderFamilies (client.snapshotFamilies f result) := by
  have gaugeFold (metrics : List (String × Text)) (output : Text) :
      metrics.foldl (fun output metric => snapshotGauge output metric.fst [] metric.snd) output =
      (metrics.map plainGauge).foldl
        (fun output gauge => gauge.snd.foldl (writeGauge gauge.fst) output) output := by
    rw [List.foldl_map]
    rfl
  have availabilityFold {write : Text → String × String × (DirectionalUdp F → Bool) → Text}
      (samples : List (DirectionalUdp F)) (output : Text) (hw : ∀ output entry, write output entry =
        samples.foldl (snapshotDirection entry.1 entry.2.1 entry.2.2) output) :
      availability.foldl write output =
      (availability.map (availabilityGauge samples)).foldl
        (fun output gauge => gauge.snd.foldl (writeGauge gauge.fst) output) output := by
    rw [List.foldl_map]
    apply List.foldl_ext
    intro output entry he
    simp only [hw, availabilityGauge, List.foldl_map]
    apply List.foldl_ext
    exact fun _ _ _ => snapshotDirection_eq he
  rw [snapshotFamilies, renderFamilies_append, ← write_gauges, gauges, List.foldl_append,
    List.foldl_append, ← gaugeFold]
  unfold formatSnapshot
  simp (disch := exact fun _ _ => rfl) only [gaugeFold, availabilityFold,
    appendUdpDirectionsNamed_eq]
  cases result.tcpInfo <;> cases client.udpDirection <;> simp [renderFamilies, render]

end PushGatewayClient
