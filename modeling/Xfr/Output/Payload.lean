import Xfr.Output.PushTable

open Exposition

namespace PushMetrics

-- Every label with the id of the test has this id, and whatever belongs to a stream has it.
def Named (id : Text) (families : List Family) : Prop :=
  ∀ family ∈ families, ∀ s ∈ family.samples,
    (∀ label ∈ s.fst, label.fst = "test_id".toList → label.snd = id) ∧
    ("stream_id".toList ∈ s.fst.map Prod.fst → ("test_id".toList, id) ∈ s.fst)

def rename (id : Text) : Family → Family :=
  Family.relabel "test_id".toList id

-- Families which are about no stream.
def Streamless (families : List Family) : Prop :=
  ∀ family ∈ families, ∀ s ∈ family.samples, ∀ label ∈ s.fst,
    label.fst ∈ ["direction".toList, "view".toList]

variable {F : Type} {f : Floats F} {families families' : List Family} {testId id : Text}
  {streams : List (StreamSample F)}

theorem Named.append (h : Named id families) (h' : Named id families') :
    Named id (families ++ families') :=
  fun family hf => (List.mem_append.mp hf).elim (h family) (h' family)

theorem Streamless.append (h : Streamless families) (h' : Streamless families') :
    Streamless (families ++ families') :=
  fun family hf => (List.mem_append.mp hf).elim (h family) (h' family)

theorem Streamless.named (h : Streamless families) : Named id families := by
  have ht : "test_id".toList ∉ ["direction".toList, "view".toList] := by decide
  have hs : "stream_id".toList ∉ ["direction".toList, "view".toList] := by decide
  intro family hf s hm
  constructor
  case left =>
    intro label hl he
    have hn := h family hf s hm label hl
    rw [he] at hn
    exact absurd hn ht
  case right =>
    intro hx
    have ⟨label, hl, he⟩ := List.mem_map.mp hx
    have hn := h family hf s hm label hl
    rw [he] at hn
    exact absurd hn hs

theorem Streamless.rename (h : Streamless families) : families.map (rename id) = families := by
  have ht : "test_id".toList ∉ ["direction".toList, "view".toList] := by decide
  have hfamily : ∀ family ∈ families, PushMetrics.rename id family = family := by
    intro family hf
    apply Family.relabel_eq
    intro s hs label hl he
    have hn := h family hf s hs label hl
    rw [he] at hn
    exact ht hn
  rw [List.map_congr_left hfamily, List.map_id']

theorem streamless_single {metrics : List (Header × F)} : Streamless (metrics.map (single f)) := by
  intro family hf s hs
  have ⟨metric, _, he⟩ := List.mem_map.mp hf
  rw [← he] at hs
  rw [List.mem_singleton.mp hs]
  nofun

theorem streamless_directions {familyPrefix : String} {samples : List (DirectionalUdp F)} :
    Streamless (directionFamilies f familyPrefix samples) := by
  intro family hf s hs label hl
  have ⟨metric, _, he⟩ := List.mem_map.mp (List.mem_of_mem_filter hf)
  rw [← he] at hs
  have ⟨sample, _, hs⟩ := List.mem_filterMap.mp hs
  have ⟨value, _, he⟩ := Option.map_eq_some_iff.mp hs
  rw [← he] at hl
  exact directionLabels_names hl

theorem named_streams {metrics : List (Header × (StreamSample F → F))} :
    Named testId (metrics.map (streamFamily f testId streams)) := by
  have hne : "stream_id".toList ≠ "test_id".toList := by decide
  intro family hf s hs
  have ⟨metric, _, he⟩ := List.mem_map.mp hf
  rw [← he] at hs
  have ⟨sample, _, he⟩ := List.mem_map.mp hs
  rw [← he]
  constructor
  case right => exact fun _ => List.mem_cons_self
  case left =>
    intro label hl hn
    cases List.mem_cons.mp hl
    case inl hl => rw [hl]
    case inr hl =>
      rw [List.mem_singleton.mp hl] at hn
      exact absurd hn hne

theorem rename_streams {metrics : List (Header × (StreamSample F → F))} :
    (metrics.map (streamFamily f testId streams)).map (rename id) =
      metrics.map (streamFamily f id streams) := by
  have hne : "stream_id".toList ≠ "test_id".toList := by decide
  rw [List.map_map]
  apply List.map_congr_left
  intro metric _
  have hl (sample : StreamSample F) : relabelled "test_id".toList id (streamLabels testId sample.id) =
      streamLabels id sample.id := by
    generalize hn : "test_id".toList = name at hne
    rw [streamLabels, streamLabels, hn, relabelled_cons, relabelled_cons, if_pos rfl, if_neg hne]
    rfl
  have hs : streams.map ((fun s => (relabelled "test_id".toList id s.fst, s.snd)) ∘ fun s =>
      (streamLabels testId s.id, f.display (metric.snd s))) =
      streams.map fun s => (streamLabels id s.id, f.display (metric.snd s)) :=
    List.map_congr_left fun sample _ => by rw [Function.comp, hl]
  rw [Function.comp, rename, streamFamily, streamFamily, Header.family, Family.relabel, List.map_map, hs]
  rfl

section Samples

variable {elapsedMs bytesTotal : UInt64} {throughputMbps : F}
  {tcpInfo : Option Messages.TcpInfoSnapshot} {udpStats : List (Messages.UdpStats F)}

theorem streamless_tcp : Streamless
    (tcpInfo.toList.flatMap fun tcpInfo => (tcpMetrics f tcpInfo).map (single f)) := by
  cases tcpInfo
  case none => exact nofun
  case some tcpInfo =>
    rw [Option.toList_some, List.flatMap_singleton]
    exact streamless_single

theorem streamless_udp :
    Streamless (if udpStats.isEmpty then [] else (udpMetrics f udpStats).map (single f)) := by
  cases udpStats.isEmpty
  case true  => exact nofun
  case false => exact streamless_single

theorem named_samples : Named testId (sampleFamilies f testId elapsedMs bytesTotal throughputMbps
    streams tcpInfo udpStats) := by
  have hstreams : Named testId (if streams.isEmpty then []
      else (streamMetrics f).map (streamFamily f testId streams)) := by
    cases streams.isEmpty
    case true  => exact nofun
    case false => exact named_streams
  exact ((streamless_single.named.append hstreams).append streamless_tcp.named).append
    streamless_udp.named

theorem rename_samples : (sampleFamilies f testId elapsedMs bytesTotal throughputMbps streams tcpInfo
    udpStats).map (rename id) =
      sampleFamilies f id elapsedMs bytesTotal throughputMbps streams tcpInfo udpStats := by
  have hstreams : (if streams.isEmpty then []
      else (streamMetrics f).map (streamFamily f testId streams)).map (rename id) =
      if streams.isEmpty then [] else (streamMetrics f).map (streamFamily f id streams) := by
    cases streams.isEmpty
    case true  => rfl
    case false => exact rename_streams
  simp only [sampleFamilies, List.map_append, hstreams, streamless_single.rename,
    streamless_tcp.rename, streamless_udp.rename]

end Samples

theorem streamless_optional {client : PushGatewayClient}
    {families : Protocol.Direction → List Family} (h : ∀ direction, Streamless (families direction)) :
    Streamless (client.udpDirection.toList.flatMap families) := by
  cases client.udpDirection
  case none           => exact nofun
  case some direction => simpa using h direction

theorem streamless_snapshot {client : PushGatewayClient} {result : Messages.TestResult F} :
    Streamless (client.snapshotFamilies f result) := by
  have single {metrics : List (String × Text)} :
      Streamless ((metrics.map plainGauge).map gaugeFamily) := by
    intro family hf s hs
    have ⟨g, hg, he⟩ := List.mem_map.mp hf
    have ⟨metric, _, hm⟩ := List.mem_map.mp hg
    rw [← he, ← hm] at hs
    rw [List.mem_singleton.mp hs]
    nofun
  have htcp : Streamless ((result.tcpInfo.toList.flatMap fun tcp =>
      (PushGatewayClient.snapshotTcpMetrics tcp).map plainGauge).map gaugeFamily) := by
    cases result.tcpInfo
    case none => exact nofun
    case some tcp =>
      rw [Option.toList_some, List.flatMap_singleton]
      exact single
  have havail : Streamless ((client.udpDirection.toList.flatMap fun direction =>
      availability.map (availabilityGauge (resultDirections result direction))).map gaugeFamily) := by
    rw [List.map_flatMap]
    apply streamless_optional
    intro direction family hf s hs label hl
    have ⟨g, hg, he⟩ := List.mem_map.mp hf
    have ⟨entry, _, hm⟩ := List.mem_map.mp hg
    rw [← he, ← hm] at hs
    have ⟨sample, _, he⟩ := List.mem_map.mp hs
    rw [← he] at hl
    exact availabilityLabels_sublist.subset (List.mem_map_of_mem hl)
  rw [PushGatewayClient.snapshotFamilies, PushGatewayClient.gauges, List.map_append, List.map_append]
  exact ((single.append htcp).append havail).append (streamless_optional fun _ => streamless_directions)

-- The line which a text begins with is a comment.
theorem read_testId (h : ∀ family ∈ families, family.Proper) :
    read ("# Test ID: ".toList ++ escape testId ++ ['\n'] ++ renderFamilies families) =
      some (families.flatMap Family.lines) := by
  have hn : '\n' ∉ "# Test ID: ".toList ++ escape testId := by
    have hp : '\n' ∉ "# Test ID: ".toList := by decide
    simp only [List.mem_append, not_or]
    exact ⟨hp, newline_not_mem_escape⟩
  have hc : readLine ("# Test ID: ".toList ++ escape testId) = some none := by
    have he : "# Test ID: ".toList ++ escape testId =
        '#' :: ' ' :: ("Test".toList ++ ' ' :: ("ID: ".toList ++ escape testId)) := by simp
    rw [he, readLine_hash]
    exact readHash_comment (not_blank_of_any (by decide)) (by decide)
  rw [List.append_assoc, List.singleton_append, read_cons hn, hc, Option.bind_some,
    read_renderFamilies h]
  rfl

end PushMetrics

open PushMetrics

-- What is sent to a gateway: the statistics of a test, its result, or the snapshot of a job.
inductive Payload (F : Type)
  | metrics (stats : StatsReading F)
  | result (result : Messages.TestResult F)
  | snapshot (result : Messages.TestResult F)

namespace Payload

variable {F : Type} {f : Floats F} {client : PushGatewayClient}

def testId : Payload F → String
  | metrics stats   => stats.testId
  | result r        => r.id
  | snapshot r      => r.id

def withTestId (id : String) : Payload F → Payload F
  | metrics stats   => metrics { stats with testId := id }
  | result r        => result { r with id }
  | snapshot r      => snapshot { r with id }

def streamIds : Payload F → List UInt8
  | metrics stats   => stats.streams.map (·.id)
  | result r        => r.streams.map (·.id)
  | snapshot r      => r.streams.map (·.id)

def format (f : Floats F) (client : PushGatewayClient) : Payload F → Text
  | metrics stats   => client.formatMetrics f stats
  | result r        => client.formatResult f r
  | snapshot r      => client.formatSnapshot f r

def families (f : Floats F) (client : PushGatewayClient) : Payload F → List Family
  | metrics stats   => client.metricsFamilies f stats
  | result r        => client.resultFamilies f r
  | snapshot r      => client.snapshotFamilies f r

theorem grouped {payload : Payload F} (h : payload.streamIds.Nodup) :
    Grouped (payload.families f client) := by
  cases payload
  case metrics  => exact (PushGatewayClient.tabled_metricsFamilies h).grouped testHeaders_proper
  case result   => exact (PushGatewayClient.tabled_resultFamilies h).grouped testHeaders_proper
  case snapshot => exact PushGatewayClient.tabled_snapshotFamilies.grouped snapshotHeaders_proper

theorem read_format {payload : Payload F} (h : payload.streamIds.Nodup) :
    read (payload.format f client) = some ((payload.families f client).flatMap Family.lines) := by
  cases payload
  case metrics stats =>
    have hp := (@PushGatewayClient.tabled_metricsFamilies F f client stats h).proper testHeaders_proper
    rw [format, PushGatewayClient.formatMetrics_eq, read_testId hp]
    rfl
  case result r =>
    have hp := (@PushGatewayClient.tabled_resultFamilies F f client r h).proper testHeaders_proper
    rw [format, PushGatewayClient.formatResult_eq, read_testId hp]
    rfl
  case snapshot r =>
    have hp := (@PushGatewayClient.tabled_snapshotFamilies F f client r).proper
      snapshotHeaders_proper
    rw [format, PushGatewayClient.formatSnapshot_eq, read_renderFamilies hp]
    rfl

theorem named {payload : Payload F} : Named payload.testId.toList (payload.families f client) := by
  cases payload
  case metrics  => exact named_samples.append (streamless_optional fun _ => streamless_directions).named
  case result   => exact named_samples.append (streamless_optional fun _ => streamless_directions).named
  case snapshot => exact streamless_snapshot.named

-- Another id of the test changes nothing but the labels with it.
theorem families_withTestId {payload : Payload F} {id : String} :
    (payload.withTestId id).families f client =
      (payload.families f client).map (rename id.toList) := by
  have hd {samples : Protocol.Direction → List (DirectionalUdp F)} := @Streamless.rename _ id.toList
    (@streamless_optional client (fun direction =>
      directionFamilies f "xfr_udp_direction" (samples direction))
      fun _ => streamless_directions)
  cases payload
  case metrics stats =>
    simp only [families, PushGatewayClient.metricsFamilies, List.map_append, rename_samples, hd]
    rfl
  case result r =>
    simp only [families, PushGatewayClient.resultFamilies, List.map_append, rename_samples, hd]
    rfl
  case snapshot r => exact streamless_snapshot.rename.symm

-- A payload is read back as its families, each of them once and with its own header before its samples,
-- whatever the id of the test is.
theorem wellFormed (payload : Payload F) (h : payload.streamIds.Nodup) :
    read (payload.format f client) = some ((payload.families f client).flatMap Family.lines) ∧
    Grouped (payload.families f client) ∧
    Named payload.testId.toList (payload.families f client) ∧
    ∀ id : String, read ((payload.withTestId id).format f client) =
      some (((payload.families f client).map (Family.relabel "test_id".toList id.toList)).flatMap
        Family.lines) := by
  refine ⟨read_format h, grouped h, named, fun id => ?_⟩
  have hs : (payload.withTestId id).streamIds.Nodup := by cases payload <;> exact h
  rw [read_format hs, families_withTestId]
  rfl

-- Numbers without fractions.
def wholeNumbers : Floats Nat where
  ofNat   := id
  div     := (· / ·)
  mul     := (· * ·)
  max     := Nat.max
  display := integer
  number  := fun _ => isNumber_integer

-- The statistics of a test with two streams, and with an id which has to be escaped.
def twoStreams : Payload Nat := metrics {
  testId             := "quote\"slash\\\nnewline"
  elapsedMs          := 1000
  totalBytes         := 250000
  streams            := [⟨0, 125000, 1, 0⟩, ⟨1, 125000, 1, 0⟩]
  finalLocalTcpInfo  := none
  udpStats           := []
  udpReceiverStats   := none
  totalBytesReceived := 0
  totalBytesSent     := 250000 }

theorem wellFormed_twoStreams : twoStreams.streamIds.Nodup ∧
    read (twoStreams.format wholeNumbers { url := ⟨['/'], none⟩ }) =
      some ((twoStreams.families wholeNumbers { url := ⟨['/'], none⟩ }).flatMap Family.lines) :=
  have h : twoStreams.streamIds.Nodup := by decide
  ⟨h, (wellFormed twoStreams h).left⟩

end Payload
