import Xfr.Feedback.Fresh
import Xfr.Library.Freshest
import Xfr.Library.System
import Xfr.Tracker.Refinement

-- A stream of an upload test on the server. From time to time the counters which its receiver
-- published are read, for a feedback datagram or for an interval. The counters were read first when
-- they were all zero.
structure FeedbackStream where
  receiver  : Receiver
  published : List UdpIntervalProgress

namespace FeedbackStream

def new : FeedbackStream where
  receiver  := .new
  published := [.zero]

def record (s : FeedbackStream) (call : Call) : FeedbackStream :=
  { s with receiver := s.receiver.record call }

def snapshot (s : FeedbackStream) : FeedbackStream :=
  { s with published := s.published ++ [s.receiver.udpProgress] }

end FeedbackStream

-- The streams are on the server, and the rest is on the client: a feedback slot for each stream, the
-- filter, and the progress which the filter accepted so far.
structure FeedbackTest where
  streams  : List FeedbackStream
  slots    : List UdpIntervalProgress
  filter   : UdpProgressFilter
  accepted : List UdpIntervalProgress

-- Everything which was published may arrive at any later time, any number of times, or never. The
-- readings in an interval message are given by their numbers, one for each stream.
inductive FeedbackEvent
  | record   (stream : Nat) (call : Call)
  | snapshot (stream : Nat)
  | feedback (stream n : Nat) (elapsedMs : UInt64)
  | interval (ns : List Nat)
  | tick

namespace FeedbackTest

open UdpIntervalProgress Freshest

def new (streams : UInt8) : FeedbackTest where
  streams  := List.replicate streams.toNat .new
  slots    := List.replicate streams.toNat .zero
  filter   := .new
  accepted := []

def readings (t : FeedbackTest) (ns : List Nat) : Option (List UdpIntervalProgress) :=
  if ns.length = t.streams.length then
    (List.zip t.streams ns).mapM fun (s, n) => s.published[n]?
  else
    none

def apply (t : FeedbackTest) (progress : UdpIntervalProgress) : FeedbackTest :=
  let (filtered, filter) := t.filter.apply progress
  { t with filter, accepted := t.accepted ++ filtered.toList }

def receiveInterval (t : FeedbackTest) (udpProgress : Option UdpIntervalProgress) : FeedbackTest :=
  udpProgress.elim t t.apply

def receiveFeedback (t : FeedbackTest) (streamIndex : Nat) (packet : UdpFeedbackPacket) :
    FeedbackTest :=
  { t with slots := (storeUdpFeedback t.slots streamIndex packet).2 }

-- The task which sums up the feedback slots once per second. It skips empty aggregates.
def tick (t : FeedbackTest) : FeedbackTest :=
  let aggregate := total t.slots
  if aggregate.isEmpty then t else t.apply aggregate

def update (t : FeedbackTest) (stream : Nat) (f : FeedbackStream → FeedbackStream) :
    Option FeedbackTest :=
  t.streams[stream]?.map fun s => { t with streams := t.streams.set stream (f s) }

def system : System FeedbackTest FeedbackEvent
  | t, .record stream call          => t.update stream (·.record call)
  | t, .snapshot stream             => t.update stream (·.snapshot)
  | t, .feedback stream n elapsedMs =>
    (t.streams[stream]?.bind (·.published[n]?)).map fun snap =>
      t.receiveFeedback stream (.ofSnapshot stream elapsedMs snap)
  | t, .interval ns                 => (t.readings ns).map (t.receiveInterval <| aggregate ·)
  | t, .tick                        => some t.tick

end FeedbackTest

-- The numbers of a stream's snapshots which reached its slot, and of those which reached the filter
-- in a test of this one stream.
structure Heard where
  slot   : List Nat
  filter : List Nat

namespace Heard

def new : Heard where
  slot   := [0]
  filter := [0]

def observe (stream : Nat) (h : Heard) : FeedbackEvent → Heard
  | .feedback stream' n _ => if stream' = stream then { h with slot := n :: h.slot } else h
  | .interval ns          => { h with filter := ns[stream]?.toList ++ h.filter }
  | .tick                 => { h with filter := h.slot ++ h.filter }
  | .record .. | .snapshot .. => h

theorem slot_feedback {h : Heard} {stream stream' n : Nat} {elapsedMs : UInt64} :
    (h.observe stream (.feedback stream' n elapsedMs)).slot =
      if stream' = stream then n :: h.slot else h.slot := by
  by_cases hi : stream' = stream <;> simp [observe, hi]

theorem filter_feedback {h : Heard} {stream stream' n : Nat} {elapsedMs : UInt64} :
    (h.observe stream (.feedback stream' n elapsedMs)).filter = h.filter := by
  by_cases hi : stream' = stream <;> simp [observe, hi]

def ofRun (stream : Nat) (events : List FeedbackEvent) : Heard :=
  events.foldl (observe stream) new

end Heard

namespace FeedbackStream

open UdpIntervalProgress

structure Fits (s : FeedbackStream) : Prop where
  receiver  : s.receiver.Fits
  published : ∀ p ∈ s.published, p.Fits
  chain     : (s.published ++ [s.receiver.udpProgress]).Pairwise Precedes

variable {s : FeedbackStream} {call : Call}

theorem new_fits : Fits new where
  receiver  := Receiver.new_fits
  published := by simpa [new] using zero_fits
  chain     := by simpa [new] using .refl

theorem Fits.pairwise (f : s.Fits) : s.published.Pairwise Precedes :=
  (List.pairwise_append.mp f.chain).left

theorem Fits.record (f : s.Fits) : (s.record call).Fits where
  receiver  := f.receiver.record
  published := f.published
  chain     := by
    have ⟨hp, _, hc⟩ := List.pairwise_append.mp f.chain
    refine List.pairwise_append.mpr ⟨hp, List.pairwise_singleton .., fun p hm q hq => ?_⟩
    obtain rfl := List.mem_singleton.mp hq
    exact (hc p hm _ (List.mem_singleton_self _)).trans f.receiver.precedes_record

theorem Fits.snapshot (f : s.Fits) : s.snapshot.Fits where
  receiver  := f.receiver
  published p hp := by
    cases List.mem_append.mp hp
    case inl hp => exact f.published p hp
    case inr hp => exact List.mem_singleton.mp hp ▸ f.receiver.udpProgress
  chain     := by
    have ⟨_, _, hc⟩ := List.pairwise_append.mp f.chain
    refine List.pairwise_append.mpr ⟨f.chain, List.pairwise_singleton .., fun p hm q hq => ?_⟩
    obtain rfl := List.mem_singleton.mp hq
    cases List.mem_append.mp hm
    case inl hm => exact hc p hm _ (List.mem_singleton_self _)
    case inr hm => exact List.mem_singleton.mp hm ▸ .refl

end FeedbackStream

namespace PacketTracker.Agrees

variable {t : PacketTracker} {r : Reference} {sequence : Nat}

theorem progress (a : Agrees t r) : t.progress = ⟨min r.received U64.max, r.lost⟩ := by
  simp [PacketTracker.progress, a.received, Reference.lost, ← a.lost]

-- A new packet within one window of the high-water mark is accepted.
theorem recordUnique_near (a : Agrees t r) {h : Nat} (hh : r.highest = some h)
    (hs : sequence ∉ r.accepted) (hm : sequence ≤ U64.max)
    (hl : h < sequence + PACKET_TRACKER_WINDOW) (hu : sequence ≤ h + PACKET_TRACKER_WINDOW) :
    (t.recordUnique sequence).1 = true ∧ Agrees (t.recordUnique sequence).2 (r.add sequence) := by
  have ha : r.record sequence = (true, r.add sequence) := by
    have hf : r.isFar sequence = false := by simpa [Reference.isFar, hh] using hu
    have hb : r.behind sequence < PACKET_TRACKER_WINDOW := by
      rw [Reference.behind_eq hh]
      omega
    simp only [Reference.record, hf, Reference.accept, hs, hb]
    rfl
  simpa only [ha] using a.recordUnique hm

end PacketTracker.Agrees

namespace UdpProgressFilter

open UdpIntervalProgress Freshest

variable {f : UdpProgressFilter} {p : UdpIntervalProgress}

-- What the client knows of the progress. It starts with no packets.
def shown (f : UdpProgressFilter) : UdpIntervalProgress :=
  f.latest.getD zero

theorem apply_cases : f.apply p = (none, f) ∧ ¬f.shown ≤ p ∨
    f.apply p = (some p, { f with latest := some p }) ∧ f.shown ≤ p := by
  unfold apply shown
  cases f.latest
  case none => exact .inr ⟨rfl, zero_le⟩
  case some q =>
    by_cases h : p.isAtLeastAsFreshAs q
    case pos => exact .inr ⟨by simp [h], h⟩
    case neg => exact .inl ⟨by simp [h], h⟩

theorem shown_apply : (f.apply p).2.shown = keep f.shown p := by
  rcases apply_cases (f := f) (p := p) with ⟨ha, h⟩ | ⟨ha, h⟩
  · rw [ha, keep, if_neg h]
  · rw [ha, keep, if_pos h]
    rfl

end UdpProgressFilter

namespace FeedbackTest

open UdpIntervalProgress Freshest

variable {t t' : FeedbackTest} {stream : Nat} {heard : Heard} {p slot : UdpIntervalProgress}

theorem tick_eq : t.tick = t.receiveInterval (aggregate t.slots) := by
  by_cases h : (total t.slots).isEmpty <;> simp [tick, aggregate, receiveInterval, h]

theorem streams_receiveInterval {udpProgress : Option UdpIntervalProgress} :
    (t.receiveInterval udpProgress).streams = t.streams := by
  cases udpProgress <;> rfl

theorem slots_receiveInterval {udpProgress : Option UdpIntervalProgress} :
    (t.receiveInterval udpProgress).slots = t.slots := by
  cases udpProgress <;> rfl

theorem shown_receiveInterval (f : p.Fits) :
    (t.receiveInterval (aggregate [p])).filter.shown = keep t.filter.shown p := by
  rw [aggregate, total_single f]
  split
  case isFalse => exact UdpProgressFilter.shown_apply
  case isTrue h =>
    have hp : p = zero := by
      cases p
      simp_all [isEmpty, zero]
    subst hp
    unfold keep
    split
    case isTrue hz  => exact le_zero hz
    case isFalse hz => rfl

theorem slots_receiveFeedback (packet : UdpFeedbackPacket) (hi : packet.streamId.toNat = stream)
    (h : t.slots[stream]? = some slot) :
    (t.receiveFeedback stream packet).slots =
      t.slots.set stream (keep slot packet.toProgress) := by
  simp only [receiveFeedback, storeUdpFeedback, hi, h, keep]
  by_cases hf : slot ≤ packet.toProgress
  case pos =>
    have hf' : packet.toProgress.isAtLeastAsFreshAs slot := hf
    simp [hf, hf']
  case neg =>
    have hf' : ¬packet.toProgress.isAtLeastAsFreshAs slot := hf
    have ⟨_, hg⟩ := List.getElem?_eq_some_iff.mp h
    have hs : t.slots.set stream slot = t.slots := hg ▸ List.set_getElem_self _
    simp [hf, hf', hs]

-- The slot of a stream keeps the freshest of the snapshots which reached it, and so does the filter
-- if there are no other streams.
structure Inv (stream : Nat) (heard : Heard) (t : FeedbackTest) : Prop where
  streams_le   : t.streams.length < 2 ^ 8
  slots_length : t.slots.length = t.streams.length
  fits         : ∀ s ∈ t.streams, s.Fits
  slot         : ∀ s, t.streams[stream]? = some s → ∀ slot, t.slots[stream]? = some slot →
                   Keeps s.published heard.slot slot
  filter       : t.streams.length = 1 → ∀ s, t.streams[stream]? = some s →
                   Keeps s.published heard.filter t.filter.shown

namespace Inv

theorem new {streams : UInt8} : Inv stream .new (.new streams) where
  streams_le   := by simpa [FeedbackTest.new] using streams.toNat_lt
  slots_length := by simp [FeedbackTest.new]
  fits s hs    := List.eq_of_mem_replicate hs ▸ FeedbackStream.new_fits
  slot s hs slot hl := by
    have hs := List.eq_of_mem_replicate (List.mem_of_getElem? hs)
    have hl := List.eq_of_mem_replicate (List.mem_of_getElem? hl)
    exact hs ▸ hl ▸ .single rfl
  filter _ s hs := by
    have hs := List.eq_of_mem_replicate (List.mem_of_getElem? hs)
    exact hs ▸ .single rfl

-- A step of the server may publish something.
theorem update (i : Inv stream heard t) {stream' : Nat} {f : FeedbackStream → FeedbackStream}
    (hf : ∀ {s}, s.Fits → (f s).Fits) (hp : ∀ s, ∃ vs, (f s).published = s.published ++ vs)
    (h : t.update stream' f = some t') : Inv stream heard t' := by
  have ⟨s', hs', ht⟩ := Option.map_eq_some_iff.mp h
  subst ht
  have ⟨hl', _⟩ := List.getElem?_eq_some_iff.mp hs'
  have keeps {ns : List Nat} {kept : UdpIntervalProgress}
      (hk : ∀ s, t.streams[stream]? = some s → Keeps s.published ns kept) (s : FeedbackStream)
      (hs : (t.streams.set stream' (f s'))[stream]? = some s) : Keeps s.published ns kept := by
    by_cases hi : stream' = stream
    case neg => exact hk s (by rwa [List.getElem?_set_ne hi] at hs)
    case pos =>
      subst hi
      rw [List.getElem?_set_self hl'] at hs
      have ⟨vs, hv⟩ := hp s'
      exact Option.some_inj.mp hs ▸ hv ▸ (hk s' hs').append
  exact {
    streams_le   := by simpa using i.streams_le
    slots_length := by simpa using i.slots_length
    fits s hs    := by
      cases List.mem_or_eq_of_mem_set hs
      case inl hs => exact i.fits s hs
      case inr hs => exact hs ▸ hf (i.fits s' (List.mem_of_getElem? hs'))
    slot s hs slot hl := keeps (fun s hs => i.slot s hs slot hl) s hs
    filter h1         := keeps (i.filter (by simpa using h1))
  }

theorem feedback (i : Inv stream heard t) {stream' n : Nat} {elapsedMs : UInt64}
    (h : system t (.feedback stream' n elapsedMs) = some t') :
    Inv stream (heard.observe stream (.feedback stream' n elapsedMs)) t' := by
  have ⟨p, hp, ht⟩ := Option.map_eq_some_iff.mp h
  have ⟨s', hs', hn⟩ := Option.bind_eq_some_iff.mp hp
  subst ht
  have ⟨hl', _⟩ := List.getElem?_eq_some_iff.mp hs'
  have hb : stream' < 2 ^ 16 := by
    have := i.streams_le
    omega
  obtain ⟨slot', hslot⟩ : ∃ slot, t.slots[stream']? = some slot :=
    ⟨_, List.getElem?_eq_getElem (i.slots_length ▸ hl')⟩
  have hr := slots_receiveFeedback (.ofSnapshot stream' elapsedMs p)
    (UInt16.toNat_ofNat_of_lt' hb) hslot
  exact {
    streams_le   := i.streams_le
    slots_length := by
      rw [hr, List.length_set]
      exact i.slots_length
    fits         := i.fits
    slot s hs slot hl := by
      rw [hr] at hl
      rw [Heard.slot_feedback]
      split
      case isTrue hi =>
        subst hi
        rw [List.getElem?_set_self (i.slots_length ▸ hl')] at hl
        have hk := i.slot s hs slot' hslot
        obtain rfl := Option.some_inj.mp (hs.symm.trans hs')
        have hc := (i.fits s (List.mem_of_getElem? hs)).pairwise.imp Precedes.le
        exact Option.some_inj.mp hl ▸ hk.keep (.single hn) hc
      case isFalse hi =>
        rw [List.getElem?_set_ne hi] at hl
        exact i.slot s hs slot hl
    filter h1 s hs := by
      rw [Heard.filter_feedback]
      exact i.filter h1 s hs
  }

-- Without other streams a message or an aggregate is about the one stream.
theorem receiveInterval (i : Inv stream heard t) {udpProgress : Option UdpIntervalProgress}
    {ns : List Nat}
    (h : t.streams.length = 1 → ∀ s, t.streams[stream]? = some s →
      ∃ p, udpProgress = aggregate [p] ∧ Keeps s.published ns p) :
    Inv stream { heard with filter := ns ++ heard.filter } (t.receiveInterval udpProgress) where
  streams_le   := by simpa only [streams_receiveInterval] using i.streams_le
  slots_length := by simpa [streams_receiveInterval, slots_receiveInterval] using i.slots_length
  fits         := by simpa only [streams_receiveInterval] using i.fits
  slot         := by simpa only [streams_receiveInterval, slots_receiveInterval] using i.slot
  filter h1 s hs := by
    rw [streams_receiveInterval] at h1 hs
    have ⟨p, hp, hk⟩ := h h1 s hs
    have f := i.fits s (List.mem_of_getElem? hs)
    have ⟨_, _, hn⟩ := hk.greatest.left
    rw [hp, shown_receiveInterval (f.published p (List.mem_of_getElem? hn))]
    exact (i.filter h1 s hs).keep hk (f.pairwise.imp Precedes.le)

theorem interval (i : Inv stream heard t) {ns : List Nat}
    (h : system t (.interval ns) = some t') :
    Inv stream (heard.observe stream (.interval ns)) t' := by
  have ⟨ps, hp, ht⟩ := Option.map_eq_some_iff.mp h
  subst ht
  refine i.receiveInterval fun h1 s hs => ?_
  have ⟨s', hss⟩ := List.length_eq_one_iff.mp h1
  have ⟨hi, _⟩ := List.getElem?_eq_some_iff.mp hs
  have hi : stream = 0 := by omega
  subst hi
  obtain rfl : s' = s := by simpa [hss] using hs
  have ⟨hn, hp⟩ : ns.length = 1 ∧ (List.zip t.streams ns).mapM (fun (s, n) => s.published[n]?) =
      some ps := by
    simpa [readings, h1] using hp
  have ⟨n, hn⟩ := List.length_eq_one_iff.mp hn
  subst hn
  have ⟨p, hp, hps⟩ : ∃ p, s'.published[n]? = some p ∧ [p] = ps := by
    simpa [hss, List.mapM_cons, Option.bind_eq_some_iff] using hp
  exact ⟨p, by rw [hps], .single hp⟩

theorem tick (i : Inv stream heard t) : Inv stream (heard.observe stream .tick) t.tick := by
  rw [tick_eq]
  refine i.receiveInterval fun h1 s hs => ?_
  have ⟨slot, hl⟩ := List.length_eq_one_iff.mp (i.slots_length.trans h1)
  have ⟨hi, _⟩ := List.getElem?_eq_some_iff.mp hs
  have hi : stream = 0 := by omega
  subst hi
  exact ⟨slot, by rw [hl], i.slot s hs slot (by simp [hl])⟩

theorem step (i : Inv stream heard t) {e : FeedbackEvent} (h : system t e = some t') :
    Inv stream (heard.observe stream e) t' := by
  cases e
  case record stream' call =>
    exact i.update .record (fun s => ⟨[], (List.append_nil _).symm⟩) h
  case snapshot stream' => exact i.update .snapshot (fun s => ⟨_, rfl⟩) h
  case feedback => exact i.feedback h
  case interval => exact i.interval h
  case tick     => exact Option.some_inj.mp h ▸ i.tick

theorem run {streams : UInt8} {events : List FeedbackEvent}
    (h : system.run (.new streams) events = some t) : Inv stream (.ofRun stream events) t :=
  System.run_foldl (fun i h => i.step h) new h

end Inv

-- What the filter lets through does not go back.
structure Forward (t : FeedbackTest) : Prop where
  accepted : t.accepted.Pairwise (· ≤ ·)
  shown    : ∀ p ∈ t.accepted, p ≤ t.filter.shown

namespace Forward

theorem apply (f : Forward t) : Forward (t.apply p) := by
  rcases UdpProgressFilter.apply_cases (f := t.filter) (p := p) with ⟨ha, h⟩ | ⟨ha, h⟩
  · simpa [FeedbackTest.apply, ha] using f
  · have hp : ∀ q ∈ t.accepted, q ≤ p := fun q hq => le_trans (f.shown q hq) h
    refine ⟨?_, ?_⟩
    · simpa [FeedbackTest.apply, ha, List.pairwise_append] using ⟨f.accepted, hp⟩
    · intro q hq
      simp only [FeedbackTest.apply, ha, Option.toList_some, List.mem_append] at hq ⊢
      cases hq
      case inl hq => exact hp q hq
      case inr hq => exact le_of_eq (List.mem_singleton.mp hq)

theorem receiveInterval (f : Forward t) {udpProgress : Option UdpIntervalProgress} :
    Forward (t.receiveInterval udpProgress) := by
  cases udpProgress
  case none   => exact f
  case some p => exact f.apply

theorem step (f : Forward t) {e : FeedbackEvent} (h : system t e = some t') : Forward t' := by
  cases e
  case record | snapshot | feedback =>
    have ⟨_, _, h⟩ := Option.map_eq_some_iff.mp h
    exact h ▸ ⟨f.accepted, f.shown⟩
  case interval =>
    have ⟨_, _, h⟩ := Option.map_eq_some_iff.mp h
    exact h ▸ f.receiveInterval
  case tick =>
    obtain rfl := Option.some_inj.mp h
    exact tick_eq ▸ f.receiveInterval

end Forward

-- Each slot shows the newest snapshot of its stream which reached it, in a test of one stream the
-- filter shows the newest which reached it, and with any number of streams the progress which the
-- filter accepts does not go back.
theorem newest_run {streams : UInt8} {events : List FeedbackEvent}
    (h : system.run (.new streams) events = some t) :
    (∀ (stream : Nat) s, t.streams[stream]? = some s →
      ∀ p, newest? s.published (Heard.ofRun stream events).slot = some p →
        ∃ slot, t.slots[stream]? = some slot ∧ slot.Shows p) ∧
    (∀ s, t.streams = [s] →
      ∀ p, newest? s.published (Heard.ofRun 0 events).filter = some p → t.filter.shown.Shows p) ∧
    t.accepted.Pairwise (· ≤ ·) := by
  refine ⟨fun stream s hs p hp => ?_, fun s hs p hp => ?_, ?_⟩
  case refine_1 =>
    have i : Inv stream (.ofRun stream events) t := .run h
    have ⟨hl, _⟩ := List.getElem?_eq_some_iff.mp hs
    have ⟨slot, hslot⟩ : ∃ slot, t.slots[stream]? = some slot :=
      ⟨_, List.getElem?_eq_getElem (i.slots_length ▸ hl)⟩
    have hn := (i.slot s hs slot hslot).newest (i.fits s (List.mem_of_getElem? hs)).pairwise hp
    exact ⟨slot, hslot, Precedes.shows hn.right hn.left⟩
  case refine_2 =>
    have i : Inv 0 (.ofRun 0 events) t := .run h
    have hk := i.filter (by simp [hs]) s (by simp [hs])
    have hn := hk.newest (i.fits s (by simp [hs])).pairwise hp
    exact Precedes.shows hn.right hn.left
  case refine_3 =>
    have f : Forward t := System.run_invariant (fun f h => f.step h) ⟨.nil, by simp [new]⟩ h
    exact f.accepted

-- The older snapshot comes second, both as feedback and as an interval message.
def overtaken : List FeedbackEvent := [
  .record 0 (.recordUnique 0), .snapshot 0, .record 0 (.recordUnique 2), .snapshot 0,
  .feedback 0 2 1000, .feedback 0 1 500, .tick, .interval [1]
]

theorem newest_run_overtaken : ∃ t s, system.run (.new 1) overtaken = some t ∧ t.streams = [s] ∧
    newest? s.published (Heard.ofRun 0 overtaken).filter = some ⟨2, 1⟩ ∧
    t.filter.shown.Shows ⟨2, 1⟩ :=
  have h : system.run (.new 1) overtaken = some _ := rfl
  ⟨_, _, h, rfl, rfl, (newest_run h).right.left _ rfl _ rfl⟩

-- One stream, whose packets arrive in order but for the last two. When the last one fills its gap,
-- the counter of received packets is already saturated.
def saturating : List FeedbackEvent :=
  (PacketTracker.inOrder (2 ^ 64 - 2)).map (.record 0 <| .recordUnique ·) ++ [
    .record 0 (.recordUnique 0xFFFFFFFFFFFFFFFF), .snapshot 0,
    .record 0 (.recordUnique 0xFFFFFFFFFFFFFFFE), .snapshot 0,
    .feedback 0 2 0, .feedback 0 1 0
  ]

theorem run_record {s : FeedbackStream} (hs : t.streams = [s]) (sequences : List UInt64) :
    ∃ s', system.run t (sequences.map (.record 0 <| .recordUnique ·)) =
        some { t with streams := [s'] } ∧ s'.published = s.published ∧
      s'.receiver.tracker = PacketTracker.machine.after s.receiver.tracker sequences := by
  induction sequences generalizing t s
  case nil => exact ⟨s, by simp [← hs], rfl, rfl⟩
  case cons sequence _ hi =>
    have ht : system t (.record 0 (.recordUnique sequence)) =
        some { t with streams := [s.record (.recordUnique sequence)] } := by
      simp [system, update, hs]
    have ⟨s', hr, hp, ha⟩ := hi (t := { t with streams := [s.record (.recordUnique sequence)] }) rfl
    refine ⟨s', by simpa [System.run_cons, ht] using hr, hp, ?_⟩
    rw [ha, Mealy.after_cons, FeedbackStream.record, Receiver.tracker_record]
    rfl

theorem observe_record {h : Heard} (sequences : List UInt64) :
    (sequences.map fun s => FeedbackEvent.record 0 (.recordUnique s)).foldl
      (Heard.observe stream) h = h := by
  induction sequences
  case nil       => rfl
  case cons _ hi => exact hi

-- What the tracker counts after each of the last two packets.
theorem saturating_counts {r : PacketTracker}
    (hr : r = PacketTracker.machine.after .new (PacketTracker.inOrder (2 ^ 64 - 2))) :
    ∃ r' r'', r.record (.recordUnique 0xFFFFFFFFFFFFFFFF) = (true, r') ∧
      r'.progress = ⟨U64.max, 1⟩ ∧ r'.record (.recordUnique 0xFFFFFFFFFFFFFFFE) = (true, r'') ∧
      r''.progress = ⟨U64.max, 0⟩ := by
  obtain ⟨_, a⟩ := PacketTracker.Agrees.run (PacketTracker.inOrder (2 ^ 64 - 2))
  have hm := PacketTracker.accepted_inOrder (n := 2 ^ 64 - 2) (by omega)
  rw [← hr] at a
  generalize PacketTracker.Reference.machine.after .new _ = f at a hm
  have hf : f.received = 2 ^ 64 - 2 := by rw [PacketTracker.Reference.received, hm, Finset.card_range]
  have hh : f.highest = some (2 ^ 64 - 3) := by
    rw [PacketTracker.Reference.highest_eq_some_iff, hm]
    exact ⟨by simp, fun s hs => by simp at hs; omega⟩
  have hn : 2 ^ 64 - 1 ∉ f.accepted := by simp [hm]
  have hn' : 2 ^ 64 - 2 ∉ (f.add (2 ^ 64 - 1)).accepted := by simp [hm]
  have hh' : (f.add (2 ^ 64 - 1)).highest = some (2 ^ 64 - 1) := by simp [hh]
  have hh'' : ((f.add (2 ^ 64 - 1)).add (2 ^ 64 - 2)).highest = some (2 ^ 64 - 1) := by
    rw [PacketTracker.Reference.highest_add, hh']
    simp
  have hr' := PacketTracker.Reference.received_add hn
  have hr'' := PacketTracker.Reference.received_add hn'
  obtain ⟨ho, a'⟩ := a.recordUnique_near hh hn (by simp [U64.max])
    (by simp [PACKET_TRACKER_WINDOW]) (by simp [PACKET_TRACKER_WINDOW])
  obtain ⟨ho', a''⟩ := a'.recordUnique_near hh' hn' (by simp [U64.max])
    (by simp [PACKET_TRACKER_WINDOW]) (by simp [PACKET_TRACKER_WINDOW])
  refine ⟨_, _, Prod.ext ho rfl, ?_, Prod.ext ho' rfl, ?_⟩
  · refine a'.progress.trans ?_
    rw [PacketTracker.Reference.lost, PacketTracker.Reference.span, hr', hf, hh']
    simp [U64.max]
  · refine a''.progress.trans ?_
    rw [PacketTracker.Reference.lost, PacketTracker.Reference.span, hr'', hr', hf, hh'']
    simp [U64.max]

-- Of the two snapshots which arrive in the wrong order, the older one is kept: both counted as many
-- packets as the counter holds.
theorem saturated_reordered : ∃ t s, system.run (.new 1) saturating = some t ∧ t.streams = [s] ∧
    newest? s.published (Heard.ofRun 0 saturating).slot = some ⟨U64.max, 0⟩ ∧
    t.slots = [⟨U64.max, 1⟩] := by
  have ⟨s, hs, hp, ht⟩ := run_record (t := .new 1) (s := .new) rfl (PacketTracker.inOrder (2 ^ 64 - 2))
  have ⟨r', r'', ho, hc, ho', hc'⟩ := saturating_counts ht
  have h₁ : s.receiver.record (.recordUnique 0xFFFFFFFFFFFFFFFF) = ⟨r', ⟨U64.max, 1⟩⟩ := by
    simp only [Receiver.record, ho, hc]
  have h₂ : Receiver.record ⟨r', ⟨U64.max, 1⟩⟩ (.recordUnique 0xFFFFFFFFFFFFFFFE) =
      ⟨r'', ⟨U64.max, 0⟩⟩ := by
    simp only [Receiver.record, ho', hc']
  have hh : Heard.ofRun 0 saturating = ⟨[1, 2, 0], [0]⟩ := by
    rw [Heard.ofRun, saturating, List.foldl_append, observe_record]
    rfl
  have hr : system.run (.new 1) saturating = some {
      streams  := [⟨⟨r'', ⟨U64.max, 0⟩⟩, [.zero, ⟨U64.max, 1⟩, ⟨U64.max, 0⟩]⟩]
      slots    := [⟨U64.max, 1⟩]
      filter   := .new
      accepted := []
    } := by
    simp only [saturating, System.run_append, hs, Option.bind_some, System.run_cons, system, update,
      FeedbackStream.record, FeedbackStream.snapshot, List.getElem?_cons_zero, Option.map_some,
      List.set_cons_zero, h₁, h₂, hp]
    rfl
  exact ⟨_, _, hr, rfl, by rw [hh]; rfl, rfl⟩

end FeedbackTest
