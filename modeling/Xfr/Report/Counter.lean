import Xfr.Library.Coalesce
import Xfr.Report.Sample

-- The counters of a stream whose deltas the intervals carry.
inductive Counter
  | bytes
  | bytesSent
  | bytesReceived
  | retransmits
  deriving DecidableEq

namespace Counter

-- The retransmits are unknown without TCP information.
def read : Counter → Reading → Option Nat
  | bytes,         r => some r.totalBytes
  | bytesSent,     r => some r.counters.bytesSent
  | bytesReceived, r => some r.counters.bytesReceived
  | retransmits,   r => r.tcpInfo.map (·.retransmits)

def delta : Counter → IntervalStats → Nat
  | bytes         => (·.bytes)
  | bytesSent     => (·.bytesSent)
  | bytesReceived => (·.bytesReceived)
  | retransmits   => (·.retransmits)

def last : Counter → StreamStats → Nat
  | bytes         => (·.lastBytes)
  | bytesSent     => (·.lastBytesSent)
  | bytesReceived => (·.lastBytesReceived)
  | retransmits   => (·.lastTcpRetransmits)

-- Where the delta of the counter is in a message, which is written from the view of the client.
def reported : Counter → StreamInterval → Option Nat
  | bytes         => (some ·.bytes)
  | bytesSent     => (·.bytesReceived)
  | bytesReceived => (·.bytesSent)
  | retransmits   => (·.retransmits)

-- The directions of a stream are only told apart in bidirectional tests.
def IsReported (direction : Protocol.Direction) : Counter → Prop
  | bytes     | retransmits   => True
  | bytesSent | bytesReceived => direction = .bidir

variable {c : Counter} {s : StreamStats} {r : Reading} {older newer : IntervalStats × Nat}

theorem read_le_max {n : Nat} (h : c.read r = some n) : n ≤ U64.max := by
  cases c <;> simp only [read, Option.some_inj, Option.map_eq_some_iff] at h
  case bytes         => exact h ▸ U64.wrappingAdd_le_max
  case bytesSent     => exact h ▸ r.counters.bytesSent_le
  case bytesReceived => exact h ▸ r.counters.bytesReceived_le
  case retransmits   => have ⟨info, _, hi⟩ := h; exact hi ▸ info.retransmits_le

theorem last_recordInterval : c.last (s.recordInterval r).2 = (c.read r).getD (c.last s) := by
  cases c
  case retransmits => cases h : r.tcpInfo <;> simp [last, read, StreamStats.recordInterval, h]
  all_goals rfl

theorem delta_recordInterval :
    c.delta (s.recordInterval r).1 = (c.read r).getD (c.last s) - c.last s := by
  cases c
  case retransmits =>
    cases h : r.tcpInfo <;> simp [delta, last, read, StreamStats.recordInterval, h, U64.saturatingSub]
  all_goals rfl

theorem delta_mergeInterval : c.delta (Sample.mergeInterval older newer).1 =
    U64.saturatingAdd (c.delta older.1) (c.delta newer.1) := by
  cases c <;> rfl

theorem reported_toInterval {direction : Protocol.Direction} {i : IntervalStats}
    (h : c.IsReported direction) :
    c.reported (s.toIntervalWithDirection i (direction = .bidir)) = some (c.delta i) := by
  cases c <;> simp_all [IsReported, reported, delta, StreamStats.toIntervalWithDirection]

end Counter

-- Counters do not go back.
def Reading.Le (r r' : Reading) : Prop :=
  ∀ (c : Counter), ∀ n ∈ c.read r, ∀ n' ∈ c.read r', n ≤ n'

namespace StreamStats

-- The stream after its intervals were recorded.
def replay (s : StreamStats) (readings : List Reading) : StreamStats :=
  readings.foldl (fun s r => (s.recordInterval r).2) s

variable {s : StreamStats} {readings : List Reading} {r : Reading} {c : Counter}

theorem replay_concat : s.replay (readings ++ [r]) = ((s.replay readings).recordInterval r).2 := by
  simp [replay]

-- A stream remembers the last known value of its counters.
theorem last_replay : c.last (s.replay readings) =
    (readings.filterMap c.read).getLast?.getD (c.last s) := by
  induction readings using List.reverseRecOn
  case nil => rfl
  case append_singleton readings r hi =>
    rw [replay_concat, Counter.last_recordInterval, hi]
    cases h : c.read r <;> simp [h]

-- What a new stream remembers of the readings is not beyond the next one.
theorem last_replay_le {n : Nat} (hz : c.last s = 0)
    (h : (readings ++ [r]).Pairwise Reading.Le) (hr : c.read r = some n) :
    c.last (s.replay readings) ≤ n := by
  rw [last_replay, hz]
  cases hl : (readings.filterMap c.read).getLast?
  case none   => exact Nat.zero_le _
  case some m =>
    have ⟨r', hm, hr'⟩ := List.mem_filterMap.mp (List.mem_of_getLast? hl)
    have hle := (List.pairwise_append.mp h).right.right r' hm r (List.mem_singleton_self r)
    exact hle c m hr' n hr

theorem last_replay_le_max (hz : c.last s = 0) : c.last (s.replay readings) ≤ U64.max := by
  rw [last_replay, hz]
  cases hl : (readings.filterMap c.read).getLast?
  case none   => exact Nat.zero_le _
  case some m =>
    have ⟨_, _, hr⟩ := List.mem_filterMap.mp (List.mem_of_getLast? hl)
    exact Counter.read_le_max hr

theorem streamId_replay : (s.replay readings).streamId = s.streamId := by
  induction readings using List.reverseRecOn
  case nil                   => rfl
  case append_singleton _ hi => rw [replay_concat, ← hi]; rfl

end StreamStats

namespace Sample

def HasLength (n : Nat) (x : Sample) : Prop :=
  x.intervals.length = n ∧ x.durations.length = n

def delta (c : Counter) (i : Nat) (x : Sample) : Nat :=
  x.intervals[i]?.elim 0 c.delta

def duration (i : Nat) (x : Sample) : Nat :=
  x.durations[i]?.getD 0

-- What is not summed up over an interval.
def gauges (x : Sample) : Nat × List IntervalStats :=
  (x.elapsedMs, x.intervals.map fun i => {
    i with
    bytes          := 0
    throughputMbps := 0.0
    retransmits    := 0
    lost           := 0
    bytesSent      := 0
    bytesReceived  := 0
  })

variable {n i : Nat} {c : Counter} {x y : Sample}

theorem HasLength.merge (hx : x.HasLength n) (hy : y.HasLength n) : (x.merge y).HasLength n := by
  simp [HasLength, Sample.merge, hx.left, hx.right, hy.left, hy.right]

theorem getElem?_merge (hx : x.HasLength n) (hy : y.HasLength n) (hi : i < n) :
    ∃ p q, x.intervals[i]? = some p.1 ∧ x.durations[i]? = some p.2 ∧
      y.intervals[i]? = some q.1 ∧ y.durations[i]? = some q.2 ∧
      (x.merge y).intervals[i]? = some (mergeInterval p q).1 ∧
      (x.merge y).durations[i]? = some (mergeInterval p q).2 := by
  have ⟨hx₁, hx₂⟩ := hx
  have ⟨hy₁, hy₂⟩ := hy
  refine ⟨(x.intervals[i], x.durations[i]), (y.intervals[i], y.durations[i]), ?_⟩
  simp [Sample.merge, hx₁, hx₂, hy₁, hy₂, hi]

theorem delta_of_le (hx : x.HasLength n) (hi : n ≤ i) : x.delta c i = 0 := by
  simp [delta, List.getElem?_eq_none (hx.left.trans_le hi)]

theorem duration_of_le (hx : x.HasLength n) (hi : n ≤ i) : x.duration i = 0 := by
  simp [duration, List.getElem?_eq_none (hx.right.trans_le hi)]

-- Deltas add up as long as their sum is a number of 64 bits.
theorem delta_merge (hx : x.HasLength n) (hy : y.HasLength n)
    (h : x.delta c i + y.delta c i ≤ U64.max) :
    (x.merge y).delta c i = x.delta c i + y.delta c i := by
  cases Nat.lt_or_ge i n
  case inr hi => rw [delta_of_le hx hi, delta_of_le hy hi, delta_of_le (hx.merge hy) hi]
  case inl hi =>
    have ⟨p, q, hp, _, hq, _, hm, _⟩ := getElem?_merge hx hy hi
    simp only [delta, hp, hq, hm, Option.elim_some] at h ⊢
    rw [Counter.delta_mergeInterval, U64.saturatingAdd_eq_add h]

theorem duration_merge (hx : x.HasLength n) (hy : y.HasLength n) :
    (x.merge y).duration i = x.duration i + y.duration i := by
  cases Nat.lt_or_ge i n
  case inr hi => rw [duration_of_le hx hi, duration_of_le hy hi, duration_of_le (hx.merge hy) hi]
  case inl hi =>
    have ⟨p, q, _, hp, _, hq, _, hm⟩ := getElem?_merge hx hy hi
    simp only [duration, hp, hq, hm, Option.getD_some]
    rfl

theorem gauges_merge (hx : x.HasLength n) (hy : y.HasLength n) :
    (x.merge y).gauges = y.gauges := by
  refine congrArg (y.elapsedMs, ·) ?_
  apply List.ext_getElem?
  intro i
  cases Nat.lt_or_ge i n
  case inl hi =>
    have ⟨p, q, _, _, hq, _, hm, _⟩ := getElem?_merge hx hy hi
    simp only [List.getElem?_map, hq, hm]
    rfl
  case inr hi =>
    simp [(hx.merge hy).left.trans_le hi, hy.left.trans_le hi]

-- Of the streams a message only carries the identifiers.
theorem message_congr {config : ReportLoopConfig} {streams streams' : List StreamStats}
    (h : streams.map (·.streamId) = streams'.map (·.streamId)) :
    x.message config streams = x.message config streams' := by
  have h := congrArg (fun ids => List.zipWith (fun id interval =>
    (StreamStats.new id 0).toIntervalWithDirection interval (config.direction = .bidir)) ids
    x.intervals) h
  simp only [List.zipWith_map_left] at h
  exact congrArg (ControlMessage.interval config.id x.elapsedMs ·
    (toAggregateWithDirection x.intervals (config.direction = .bidir))) h

end Sample

-- The sum of a counter's deltas in the messages is the sum of those in the samples.
def ControlMessage.reported (c : Counter) (i : Nat) : ControlMessage → Nat
  | interval _ _ streams _ => (streams[i]?.bind c.reported).getD 0
  | cancelled _            => 0

theorem Sample.reported_message {config : ReportLoopConfig} {streams : List StreamStats}
    {c : Counter} {i n : Nat} {x : Sample} (hx : x.HasLength n) (hs : streams.length = n)
    (hc : c.IsReported config.direction) :
    (x.message config streams).reported c i = x.delta c i := by
  cases Nat.lt_or_ge i n
  case inl hi =>
    have hsi : i < streams.length := by rwa [hs]
    have hxi : i < x.intervals.length := by rwa [hx.left]
    have hr := Counter.reported_toInterval (s := streams[i]) (i := x.intervals[i]) hc
    simp [message, ControlMessage.reported, delta, hsi, hxi, hr]
  case inr hi =>
    have hxi : x.intervals.length ≤ i := hx.left.trans_le hi
    simp [message, ControlMessage.reported, delta, hxi]

theorem Sample.getElem?_capture {streams : List StreamStats} {readings : List Reading}
    {i : Nat} {s : StreamStats} {r : Reading} (elapsedMs : Nat) (hs : streams[i]? = some s)
    (hr : readings[i]? = some r) :
    (capture streams readings elapsedMs).1.intervals[i]? = some (s.recordInterval r).1 ∧
    (capture streams readings elapsedMs).2[i]? = some (s.recordInterval r).2 := by
  simp [capture, List.getElem?_zipWith, hs, hr]

-- The readings of one stream.
def readings (i : Nat) (ticks : List (List Reading)) : List Reading :=
  ticks.filterMap (·[i]?)

theorem readings_concat {ticks : List (List Reading)} {rs : List Reading} {i : Nat} {r : Reading}
    (h : rs[i]? = some r) : readings i (ticks ++ [rs]) = readings i ticks ++ [r] := by
  simp [readings, h]

theorem readings_pairwise {ticks : List (List Reading)} {i : Nat}
    (h : ticks.Pairwise (List.Forall₂ Reading.Le)) : (readings i ticks).Pairwise Reading.Le := by
  refine h.filterMap _ fun rs rs' hrs r hr r' hr' => ?_
  have ⟨hi, he⟩ := List.getElem?_eq_some_iff.mp hr
  have ⟨hi', he'⟩ := List.getElem?_eq_some_iff.mp hr'
  subst he he'
  exact hrs.get hi hi'

-- The samples which were captured at the ticks, and the streams afterwards.
inductive Captured (fresh : List StreamStats) :
    List (List Reading) → List Sample → List StreamStats → Prop
  | start : Captured fresh [] [] fresh
  | tick {ticks samples streams readings} (elapsedMs : Nat) :
    Captured fresh ticks samples streams → readings.length = streams.length →
    Captured fresh (ticks ++ [readings])
      (samples ++ [(Sample.capture streams readings elapsedMs).1])
      (Sample.capture streams readings elapsedMs).2

namespace Captured

variable {fresh streams : List StreamStats} {ticks : List (List Reading)} {samples : List Sample}
variable {i : Nat} {s : StreamStats}

theorem length_streams (h : Captured fresh ticks samples streams) :
    streams.length = fresh.length := by
  induction h
  case start           => rfl
  case tick _ _ hl hi  => simp [Sample.capture, hl, hi]

theorem hasLength (h : Captured fresh ticks samples streams) :
    ∀ x ∈ samples, x.HasLength fresh.length := by
  induction h
  case start => simp
  case tick _ h hl hi =>
    simp only [List.mem_append, List.mem_singleton]
    rintro x (hx | hx)
    · exact hi x hx
    · simp [hx, Sample.HasLength, Sample.capture, hl, h.length_streams]

theorem getElem?_readings {rs : List Reading} (h : Captured fresh ticks samples streams)
    (hl : rs.length = streams.length) (hs : fresh[i]? = some s) : ∃ r, rs[i]? = some r := by
  have ⟨hi, _⟩ := List.getElem?_eq_some_iff.mp hs
  have hi : i < rs.length := by rwa [hl, h.length_streams]
  exact ⟨rs[i], List.getElem?_eq_getElem hi⟩

-- Every stream replays its readings.
theorem getElem?_streams (h : Captured fresh ticks samples streams) (hs : fresh[i]? = some s) :
    streams[i]? = some (s.replay (readings i ticks)) := by
  induction h
  case start => exact hs
  case tick ticks samples streams rs _ h hl hi =>
    have ⟨r, hr⟩ := h.getElem?_readings hl hs
    rw [(Sample.getElem?_capture _ hi hr).right, readings_concat hr, StreamStats.replay_concat]

theorem streamIds (h : Captured fresh ticks samples streams) :
    streams.map (·.streamId) = fresh.map (·.streamId) := by
  apply List.ext_getElem?
  intro i
  simp only [List.getElem?_map]
  cases hs : fresh[i]?
  case some s => simp [h.getElem?_streams hs, StreamStats.streamId_replay]
  case none =>
    have hl : streams.length ≤ i := by rw [h.length_streams]; exact List.getElem?_eq_none_iff.mp hs
    simp [hl]

-- Since nothing goes back, the deltas of a stream add up to what it remembers.
theorem sum_delta {c : Counter} (h : Captured fresh ticks samples streams)
    (increasing : ticks.Pairwise (List.Forall₂ Reading.Le)) (hs : fresh[i]? = some s)
    (hz : c.last s = 0) :
    (samples.map (Sample.delta c i)).sum = c.last (s.replay (readings i ticks)) := by
  induction h
  case start => exact hz.symm
  case tick ticks samples streams rs elapsedMs h hl hi =>
    have hi := hi (increasing.sublist (List.sublist_append_left ..))
    have ⟨r, hr⟩ := h.getElem?_readings hl hs
    have hp := readings_pairwise (i := i) increasing
    rw [readings_concat hr] at hp ⊢
    have hle : c.last (s.replay (readings i ticks)) ≤
        (c.read r).getD (c.last (s.replay (readings i ticks))) := by
      cases hc : c.read r
      case none   => exact Nat.le_refl _
      case some n => exact StreamStats.last_replay_le hz hp hc
    have hd : (Sample.capture streams rs elapsedMs).1.delta c i =
        (c.read r).getD (c.last (s.replay (readings i ticks))) -
          c.last (s.replay (readings i ticks)) := by
      have hg := (Sample.getElem?_capture elapsedMs (h.getElem?_streams hs) hr).left
      simp only [Sample.delta, hg, Option.elim_some, Counter.delta_recordInterval]
    rw [StreamStats.replay_concat, Counter.last_recordInterval]
    simp only [List.map_append, List.map_cons, List.map_nil, List.sum_append, List.sum_singleton]
    rw [hi, hd]
    omega

end Captured
