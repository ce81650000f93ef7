import Xfr.Library.System
import Xfr.Report.Counter
import Xfr.Report.UdpStats
import Xfr.Tracker.Exact

-- The losses of a server's streams, from the trackers to the samples which the messages are made of.
-- The samples since the last message are only there to speak about them.
structure LossPath where
  receivers : List Receiver
  streams   : List StreamStats
  pending   : Option Sample
  samples   : List Sample

inductive LossEvent
  | record (stream : Nat) (call : Call)
  -- What a tick reads besides the progress of the streams.
  | tick (readings : List Reading) (elapsedMs : Nat)
  | emit

namespace LossPath

def new (startTimes : List Nat) : LossPath where
  receivers := startTimes.map fun _ => .new
  streams   := startTimes.mapIdx StreamStats.new
  pending   := none
  samples   := []

def snapshot (r : Receiver) (reading : Reading) : Reading :=
  { reading with udpProgress := r.udpProgress }

def capture (s : LossPath) (readings : List Reading) (elapsedMs : Nat) : Sample × List StreamStats :=
  Sample.capture s.streams (List.zipWith snapshot s.receivers readings) elapsedMs

def step : System LossPath LossEvent
  | s, .record i call            =>
    s.receivers[i]?.map fun r => { s with receivers := s.receivers.set i (r.record call) }
  | s, .tick readings elapsedMs =>
    if readings.length = s.streams.length then
      let (sample, streams) := s.capture readings elapsedMs
      some { s with
        streams := streams
        pending := some (s.pending.elim sample (·.merge sample))
        samples := s.samples ++ [sample] }
    else
      none
  | s, .emit                    => some { s with pending := none, samples := [] }

end LossPath

namespace IntervalStats

-- The counters of losses are 64-bit numbers.
structure Fits (i : IntervalStats) : Prop where
  lost                      : i.lost ≤ U64.max
  cumulativePacketsReceived : i.cumulativePacketsReceived ≤ U64.max
  cumulativePacketsLost     : i.cumulativePacketsLost ≤ U64.max

end IntervalStats

namespace StreamStats

variable {s : StreamStats} {r : Reading}

theorem fits_recordInterval (h : r.udpProgress.Fits) : (s.recordInterval r).1.Fits where
  lost                      := (Nat.sub_le ..).trans h.lost
  cumulativePacketsReceived := h.received
  cumulativePacketsLost     := h.lost

-- The delta is the exact one unless the loss went back.
theorem lost_recordInterval :
    ((s.recordInterval r).1.lost : Int) = max 0 ((r.udpProgress.packetsLost : Int) - s.lastUdpLost) := by
  simp only [recordInterval, U64.saturatingSub]
  omega

end StreamStats

namespace Sample

variable {n i : Nat} {x y : Sample} {isBidir : Bool}

def lost (i : Nat) (x : Sample) : Nat :=
  x.intervals[i]?.elim 0 (·.lost)

structure Fits (n : Nat) (x : Sample) : Prop where
  length    : x.HasLength n
  intervals : ∀ i ∈ x.intervals, i.Fits

theorem Fits.lost_le (f : x.Fits n) : x.lost i ≤ U64.max := by
  unfold lost
  cases h : x.intervals[i]?
  case none   => exact Nat.zero_le _
  case some y => exact (f.intervals y (List.mem_of_getElem? h)).lost

theorem lost_merge (hx : x.HasLength n) (hy : y.HasLength n) :
    (x.merge y).lost i = U64.saturatingAdd (x.lost i) (y.lost i) := by
  cases Nat.lt_or_ge i n
  case inl hi =>
    have ⟨p, q, hp, _, hq, _, hm, _⟩ := getElem?_merge hx hy hi
    simp only [lost, hp, hq, hm, Option.elim_some]
    rfl
  case inr hi =>
    have he {z : Sample} (hz : z.HasLength n) : z.lost i = 0 := by
      rw [lost, List.getElem?_eq_none (hz.left.trans_le hi)]
      rfl
    rw [he hx, he hy, he (hx.merge hy)]
    rfl

-- However many samples there are, their deltas add up, to the largest number at most.
theorem lost_mergeAll {samples : List Sample} (fits : ∀ x ∈ samples, x.Fits n)
    (h : Coalescer.mergeAll Sample.merge samples = some x) :
    x.HasLength n ∧ x.lost i = min (samples.map (·.lost i)).sum U64.max := by
  refine Coalescer.mergeAll_induction (Q := fun xs x => (∀ y ∈ xs, y.Fits n) →
    x.HasLength n ∧ x.lost i = min (xs.map (·.lost i)).sum U64.max) ?single ?concat h fits
  case single =>
    intro x fits
    have f := fits x (List.mem_singleton_self x)
    exact ⟨f.length, by simpa using f.lost_le⟩
  case concat =>
    intro xs x y hi fits
    simp only [List.mem_append, List.mem_singleton] at fits
    have ⟨hx, hl⟩ := hi fun z hz => fits z (.inl hz)
    have f := fits y (.inr rfl)
    refine ⟨hx.merge f.length, ?_⟩
    rw [lost_merge hx f.length, hl, U64.saturatingAdd_min_max, List.map_append, List.sum_append,
      List.map_singleton, List.sum_singleton]

-- The losses of an interval message are those of all streams, to the largest number at most.
theorem lost_toAggregate : (toAggregateWithDirection x.intervals isBidir).lost.getD 0 =
    min (x.intervals.map (·.lost)).sum U64.max := by
  have hg (t : Nat) : (if t > 0 then some t else none).getD 0 = t := by
    split
    case isTrue  => rfl
    case isFalse => exact (Nat.eq_zero_of_not_pos ‹_›).symm
  rw [← U64.sum_saturatingAdd]
  exact hg _

-- So is the progress of the streams.
theorem progress_toAggregate :
    (toAggregateWithDirection x.intervals isBidir).udpProgress.getD .zero = {
      packetsReceived := min (x.intervals.map (·.cumulativePacketsReceived)).sum U64.max
      packetsLost     := min (x.intervals.map (·.cumulativePacketsLost)).sum U64.max } := by
  have hg (r l : Nat) : (if r > 0 ∨ l > 0 then some (UdpIntervalProgress.mk r l) else none).getD
      .zero = ⟨r, l⟩ := by
    split
    case isTrue    => rfl
    case isFalse h =>
      have : r = 0 ∧ l = 0 := by omega
      rw [this.left, this.right]
      rfl
  rw [← U64.sum_saturatingAdd, ← U64.sum_saturatingAdd]
  exact hg _ _

end Sample

namespace LossPath

-- What is known of every state: the counters of all receivers and samples are in their ranges, and the
-- pending sample is what became of the samples since the last message.
structure Inv (n : Nat) (s : LossPath) : Prop where
  receivers : s.receivers.length = n ∧ ∀ r ∈ s.receivers, r.Fits
  streams   : s.streams.length = n
  samples   : ∀ x ∈ s.samples, x.Fits n
  pending   : s.pending = Coalescer.mergeAll Sample.merge s.samples

variable {n : Nat} {s s' : LossPath} {e : LossEvent} {readings : List Reading} {elapsedMs : Nat}

theorem new_inv {startTimes : List Nat} : Inv startTimes.length (new startTimes) where
  receivers := by simp [new, Receiver.new_fits]
  streams   := by simp [new]
  samples   := by simp [new]
  pending   := rfl

theorem Inv.capture (i : Inv n s) (hl : readings.length = s.streams.length) :
    (s.capture readings elapsedMs).1.Fits n ∧ (s.capture readings elapsedMs).2.length = n := by
  have hr := i.receivers.left
  have hs := i.streams
  have hz : (List.zipWith StreamStats.recordInterval s.streams
      (List.zipWith snapshot s.receivers readings)).length = n := by
    simp [hr, hs, hl]
  refine ⟨⟨?_, fun x hx => ?_⟩, by simpa [LossPath.capture, Sample.capture] using hz⟩
  · simp [LossPath.capture, Sample.capture, Sample.HasLength, hr, hs, hl]
  · obtain ⟨_, hp, hx⟩ := List.mem_map.mp hx
    obtain ⟨k, hk, hp⟩ := List.mem_iff_getElem.mp hp
    rw [List.getElem_zipWith, List.getElem_zipWith] at hp
    rw [← hx, ← hp]
    exact StreamStats.fits_recordInterval (i.receivers.right _ (List.getElem_mem _)).udpProgress

theorem step_inv (i : Inv n s) (h : step s e = some s') : Inv n s' := by
  cases e
  case record stream call =>
    have ⟨r, hr, h⟩ := Option.map_eq_some_iff.mp h
    cases h
    have ⟨hl, hf⟩ := i.receivers
    refine { i with receivers := ⟨by simpa using hl, fun r' hr' => ?_⟩ }
    cases List.mem_or_eq_of_mem_set hr'
    case inl hm => exact hf r' hm
    case inr he => exact he ▸ (hf r (List.mem_of_getElem? hr)).record
  case tick readings elapsedMs =>
    have ⟨hl, h⟩ := Option.ite_none_right_eq_some.mp h
    cases h
    have ⟨hf, hs⟩ := @Inv.capture n s readings elapsedMs i hl
    exact {
      receivers := i.receivers
      streams   := hs
      samples   := fun x hx => by
        cases List.mem_append.mp hx
        case inl hx => exact i.samples x hx
        case inr hx => exact List.mem_singleton.mp hx ▸ hf
      pending   := by rw [Coalescer.mergeAll_concat, ← i.pending]
    }
  case emit =>
    cases h
    exact { receivers := i.receivers, streams := i.streams, samples := nofun, pending := rfl }

-- No addition and no subtraction of a state which is reached leaves its range: those of the trackers
-- are exact, and the others stop at the largest number. A delta is the exact one, or nothing where a
-- late packet took losses back.
structure Total (s : LossPath) : Prop where
  tracker   : ∀ r ∈ s.receivers, ∀ call,
    PacketTracker.Exact.record r.tracker call = some (r.tracker.record call)
  published : ∀ r ∈ s.receivers, r.udpProgress.Fits
  interval  : ∀ r ∈ s.receivers, ∀ stream ∈ s.streams, ∀ reading,
    let recorded := stream.recordInterval (snapshot r reading)
    (recorded.1.lost : Int) = max 0 ((r.udpProgress.packetsLost : Int) - stream.lastUdpLost) ∧
      recorded.1.Fits ∧ recorded.2.lastUdpLost = r.udpProgress.packetsLost
  merged    : ∀ {x}, s.pending = some x → ∀ i,
    x.lost i = min (s.samples.map (·.lost i)).sum U64.max
  aggregate : ∀ {x}, s.pending = some x → ∀ isBidir,
    (toAggregateWithDirection x.intervals isBidir).lost.getD 0 =
      min (x.intervals.map (·.lost)).sum U64.max ∧
    (toAggregateWithDirection x.intervals isBidir).udpProgress.getD .zero = {
      packetsReceived := min (x.intervals.map (·.cumulativePacketsReceived)).sum U64.max
      packetsLost     := min (x.intervals.map (·.cumulativePacketsLost)).sum U64.max }

theorem Inv.total (i : Inv n s) : Total s where
  tracker   := fun r hr => PacketTracker.Exact.record_eq (i.receivers.right r hr).tracker
  published := fun r hr => (i.receivers.right r hr).udpProgress
  interval  := fun r hr _ _ _ =>
    ⟨StreamStats.lost_recordInterval,
      StreamStats.fits_recordInterval (i.receivers.right r hr).udpProgress, rfl⟩
  merged    := fun hx _ => (Sample.lost_mergeAll i.samples (i.pending ▸ hx)).right
  aggregate := fun _ _ => ⟨Sample.lost_toAggregate, Sample.progress_toAggregate⟩

-- The results of any number of streams add up in the same way.
theorem aggregateUdpStats_total {stats : List UdpStats} (h : stats ≠ []) :
    ∃ total, UdpStats.aggregateUdpStats stats = some total ∧
      total.lost = min (stats.map (·.lost)).sum U64.max ∧
      total.packetsReceived = min (stats.map (·.packetsReceived)).sum U64.max ∧
      total.packetsSent = min (stats.map (·.packetsSent)).sum U64.max ∧
      total.outOfOrder = min (stats.map (·.outOfOrder)).sum U64.max := by
  have he : ¬(stats.isEmpty = true ∨ (false = true ∧ ¬stats.any UdpStats.isObserved = true)) := by
    simpa using h
  refine ⟨_, if_neg he, ?_⟩
  exact ⟨U64.sum_saturatingAdd, U64.sum_saturatingAdd, U64.sum_saturatingAdd,
    U64.sum_saturatingAdd⟩

theorem loss_total {startTimes : List Nat} {es : List LossEvent}
    (h : step.run (new startTimes) es = some s) :
    Total s ∧ ∀ stats : List UdpStats, stats ≠ [] →
      ∃ total, UdpStats.aggregateUdpStats stats = some total ∧
        total.lost = min (stats.map (·.lost)).sum U64.max ∧
        total.packetsReceived = min (stats.map (·.packetsReceived)).sum U64.max ∧
        total.packetsSent = min (stats.map (·.packetsSent)).sum U64.max ∧
        total.outOfOrder = min (stats.map (·.outOfOrder)).sum U64.max :=
  ⟨(System.run_invariant step_inv new_inv h).total, fun _ => aggregateUdpStats_total⟩

-- Two packets confirm a jump to the end of the range on each of two streams, so that the losses of both
-- are too many for one number.
def jumps : List LossEvent :=
  let reading : Reading := {
    now         := 0
    totals      := ⟨0, 0, Nat.zero_le _, Nat.zero_le _⟩
    counters    := ⟨0, 0, Nat.zero_le _, Nat.zero_le _⟩
    udpJitterUs := 0
    udpProgress := .zero
    tcpInfo     := none
  }
  [
    .record 0 (.recordUnique 18446744073709551614), .record 0 (.recordUnique 18446744073709551615),
    .record 1 (.recordUnique 18446744073709551614), .record 1 (.recordUnique 18446744073709551615),
    .tick [reading, reading] 1000
  ]

theorem loss_total_jumps : ∃ s x, step.run (new [0, 0]) jumps = some s ∧ s.pending = some x ∧
    (x.intervals.map (·.lost)).sum > U64.max ∧
    (toAggregateWithDirection x.intervals false).lost.getD 0 = U64.max := by
  have hm : ((step.run (new [0, 0]) jumps).bind fun s => s.pending.map fun x =>
      decide ((x.intervals.map (·.lost)).sum > U64.max)) = some true := by
    decide
  have ⟨s, hr, hm⟩ := Option.bind_eq_some_iff.mp hm
  have ⟨x, hx, hm⟩ := Option.map_eq_some_iff.mp hm
  have hm := of_decide_eq_true hm
  have hl := (((loss_total hr).left.aggregate hx) false).left
  exact ⟨s, x, hr, hx, hm, hl.trans (Nat.min_eq_right hm.le)⟩

end LossPath
