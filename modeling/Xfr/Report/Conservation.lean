import Mathlib.Algebra.Order.BigOperators.Group.List
import Xfr.Control.Channel
import Xfr.Report.Counter
import Xfr.Report.Wire

open Utf8 (Text)

namespace Phase

-- The sample which is still pending, unless samples were given up.
def pending? : Phase → Option (Option Sample)
  | head l | select l  => some l.pending
  | failed _           => none
  | ended ending _ _ _ => if ending = .cancelled then none else some none

-- The messages of the intervals, as far as they are encoded and as they wait for it at the end.
def Announced (messages intervals : List Text) : Phase → Prop
  | head l | select l           => messages = intervals ∧ l.cancelled = false
  | failed _                    => True
  | ended ending _ r none       => ending ≠ .cancelled → r.codec.isSome →
                                     r.cancelled = none ∧ messages ++ r.pending.toList = intervals
  | ended ending _ r (some f)   => r.codec = none ∧
                                     (ending ≠ .cancelled →
                                       messages ++ f.queue = intervals ++ [f.result])

end Phase

namespace Report

variable {aead : Aead} {serialize : ControlMessage → Option Text} {config : ReportLoopConfig}
variable {fresh : List StreamStats} {s s' : Report} {c : Coalescer Sample} {texts : List Text}
variable {l l' : Loop}

-- What was captured at the ticks went through a queue of one pending sample into the messages.
structure Accounted (serialize : ControlMessage → Option Text) (config : ReportLoopConfig)
    (fresh : List StreamStats) (s : Report) (c : Coalescer Sample) (texts : List Text) : Prop where
  captured   : Captured fresh s.ticks c.pushed s.streams
  emitted    : c.emitted = s.samples
  pending    : ∀ p, s.phase.pending? = some p → c.pending = p
  serialized : s.samples.map (fun x => serialize (x.message config fresh)) = texts.map some
  announced  : s.phase.Announced s.messages texts

def Accounts (serialize : ControlMessage → Option Text) (config : ReportLoopConfig)
    (fresh : List StreamStats) (c : Coalescer Sample) (s' : Report) : Prop :=
  ∃ c' texts', Relation.ReflTransGen (Coalescer.Step Sample.merge) c c' ∧
    Accounted serialize config fresh s' c' texts'

namespace Accounted

theorem init {now : Nat} {codec : ControlWriter} {recvClosed sendClosed : Bool} :
    Accounted serialize config fresh (.init now fresh codec recvClosed sendClosed) .empty [] where
  captured   := .start
  emitted    := rfl
  pending    := by simp [Report.init, Phase.pending?, Coalescer.empty, Loop.init]
  serialized := rfl
  announced  := ⟨rfl, rfl⟩

-- Nothing was sampled or turned into a message.
theorem keep (a : Accounted serialize config fresh s c texts) (hst : s'.streams = s.streams)
    (ht : s'.ticks = s.ticks) (hs : s'.samples = s.samples)
    (hp : ∀ p, s'.phase.pending? = some p → s.phase.pending? = some p)
    (ha : s'.phase.Announced s'.messages texts) : Accounts serialize config fresh c s' := by
  refine ⟨c, texts, .refl, ?_⟩
  constructor
  case captured   => rw [ht, hst]; exact a.captured
  case emitted    => rw [hs]; exact a.emitted
  case pending    => exact fun p h => a.pending p (hp p h)
  case serialized => rw [hs]; exact a.serialized
  case announced  => exact ha

theorem fail (a : Accounted serialize config fresh s c texts) {failure : Failure} :
    Accounts serialize config fresh c { s with phase := .failed failure } :=
  a.keep rfl rfl rfl (by simp [Phase.pending?]) trivial

-- The pending sample became a message.
theorem emit (a : Accounted serialize config fresh s c texts) {x : Sample} {text : Text}
    (hc : c.pending = some x) (hx : serialize (x.message config s.streams) = some text)
    (hst : s'.streams = s.streams) (ht : s'.ticks = s.ticks) (hs : s'.samples = s.samples ++ [x])
    (hp : ∀ p, s'.phase.pending? = some p → p = none)
    (ha : s'.phase.Announced s'.messages (texts ++ [text])) :
    Accounts serialize config fresh c s' := by
  rw [Sample.message_congr a.captured.streamIds] at hx
  refine ⟨c.emit, texts ++ [text], .single .emit, ?_⟩
  constructor
  case captured   => rw [ht, hst]; exact a.captured
  case emitted    => simp [hs, Coalescer.emit, hc, a.emitted]
  case pending    => exact fun p h => (hp p h).symm
  case serialized => simp [hs, a.serialized, hx]
  case announced  => exact ha

theorem loop (a : Accounted serialize config fresh s c texts)
    (hp : s.phase = .head l ∨ s.phase = .select l) :
    s.phase.pending? = some l.pending ∧ s.messages = texts ∧ l.cancelled = false := by
  have ha := a.announced
  rcases hp with hp | hp <;> (rw [hp] at ha ⊢; exact ⟨rfl, ha⟩)

theorem leave (a : Accounted serialize config fresh s c texts)
    (hp : s.phase = .head l ∨ s.phase = .select l) (k : l.Kept l') {ending : Ending}
    (hc : l'.cancelled = decide (ending = .cancelled)) :
    Accounts serialize config fresh c (s.leave serialize config ending l') := by
  have ⟨hpend, hm, _⟩ := a.loop hp
  unfold Report.leave terminal
  cases hcan : l'.cancelled
  case true =>
    have he : ending = .cancelled := by simpa [hcan] using hc.symm
    simp only [↓reduceIte]
    cases serialize (.cancelled config.id)
    case none   => exact a.fail
    case some _ => exact a.keep rfl rfl (by simp) (by simp [Phase.pending?, he]) fun h => absurd he h
  case false =>
    have he : ending ≠ .cancelled := by simpa [hcan] using hc.symm
    simp only [Bool.false_eq_true, ↓reduceIte]
    cases hl : l'.pending
    case none =>
      refine a.keep rfl rfl (by simp) (fun p h => ?_) fun _ _ => ⟨rfl, by simpa using hm⟩
      rw [hpend, ← k.pending, hl]
      simpa [Phase.pending?, he] using h
    case some x =>
      dsimp only
      cases hx : serialize (x.message config s.streams)
      case none      => exact a.fail
      case some text =>
        have hcp : c.pending = some x := (a.pending _ hpend).trans (k.pending ▸ hl)
        exact a.emit hcp hx rfl rfl (by simp) (by simp [Phase.pending?, he])
          fun _ _ => ⟨rfl, by simp [hm]⟩

theorem settle (a : Accounted serialize config fresh s c texts)
    (hp : s.phase = .head l ∨ s.phase = .select l) {o : Outcome} (k : o.Keeps l) :
    Accounts serialize config fresh c (s.settle serialize config o) := by
  have ⟨hpend, hm, hc⟩ := a.loop hp
  cases o
  case leave => exact a.leave hp k.left (by rw [k.right, hc, Bool.false_or])
  case next l' =>
    refine a.keep rfl rfl rfl (fun p h => ?_) ⟨hm, k.right.trans hc⟩
    rwa [hpend, ← k.left.pending]

theorem head (a : Accounted serialize config fresh s c texts) (hp : s.phase = .head l) :
    Accounts serialize config fresh c (s.head aead serialize config l) := by
  have ⟨hpend, hm, hc⟩ := a.loop (.inl hp)
  unfold Report.head
  split
  case isTrue => exact a.leave (.inl hp) ⟨rfl, rfl, rfl⟩ (by simp [hc])
  case isFalse =>
    split
    case h_1 x _ hx =>
      split
      case h_1 => exact a.fail
      case h_2 text ht =>
        split
        case h_1 => exact a.fail
        case h_2 s' he =>
          have ⟨_, _, _, hs⟩ := encode_eq_ok_iff.mp he
          subst hs
          have hcp : c.pending = some x := (a.pending _ hpend).trans hx
          exact a.emit hcp ht rfl rfl rfl (by simp [Phase.pending?]) ⟨by simp [hm], hc⟩
    case h_2 => exact a.keep rfl rfl rfl (fun p h => hpend.trans h) ⟨hm, hc⟩

-- A sample is merged into the one which is still pending.
theorem tick (a : Accounted serialize config fresh s c texts) (hp : s.phase = .select l)
    {readings : List Reading} (hl : readings.length = s.streams.length) :
    Accounts serialize config fresh c (s.tick serialize config l readings) := by
  have ⟨hpend, hm, hc⟩ := a.loop (.inr hp)
  unfold Report.tick
  split
  case isTrue => exact a.leave (.inr hp) ⟨rfl, rfl, rfl⟩ (by simp [hc])
  case isFalse =>
    let x := (Sample.capture s.streams readings (l.elapsed s.now / 10 ^ 6)).1
    refine ⟨_, texts, .single (.push x), ?_⟩
    constructor
    case captured   => exact a.captured.tick _ hl
    case emitted    => exact a.emitted
    case pending    => simp [Phase.pending?, Coalescer.push, a.pending _ hpend, x]
    case serialized => exact a.serialized
    case announced  => exact ⟨hm, hc⟩

theorem loopStep (a : Accounted serialize config fresh s c texts) (hp : s.phase = .select l)
    {e : Event} (h : s.loopStep serialize config l e = some s') :
    Accounts serialize config fresh c s' := by
  obtain ⟨hpend, hm, hc⟩ := a.loop (.inr hp)
  cases e <;> simp only [Report.loopStep, Option.ite_none_right_eq_some, reduceCtorEq] at h
  case deadline    =>
    exact Option.some_inj.mp h.right ▸ a.leave (.inr hp) ⟨rfl, rfl, rfl⟩ (by simp [hc])
  case drain       => exact Option.some_inj.mp h.right ▸ a.settle (.inr hp) Loop.drain_keeps
  case receiveDone => exact Option.some_inj.mp h.right ▸ a.settle (.inr hp) Loop.receiveDone_keeps
  case sendingDone => exact Option.some_inj.mp h.right ▸ a.settle (.inr hp) Loop.sendingDone_keeps
  case tick        => exact Option.some_inj.mp h.right ▸ a.tick hp h.left
  case command cmd =>
    have h := Option.some_inj.mp h
    subst h
    have a : Accounted serialize config fresh
        { s with finishedAt := if cmd = some .finish then s.finishedAt.or (some s.now)
                  else s.finishedAt } c texts :=
      ⟨a.captured, a.emitted, a.pending, a.serialized, a.announced⟩
    exact a.settle (.inr hp) Loop.command_keeps
  case written accepted =>
    split at h
    case h_2       => contradiction
    case h_1 frame =>
      obtain ⟨_, h⟩ := Option.ite_none_right_eq_some.mp h
      have h := Option.some_inj.mp h
      subst h
      rcases accepted with _ | _ | n
      case none      => exact a.fail
      case some.zero => exact a.fail
      case some.succ => exact a.keep rfl rfl rfl (fun p h => hpend.trans h) ⟨hm, hc⟩

theorem finish (a : Accounted serialize config fresh s c texts) {ending : Ending} {endedAt : Nat}
    {r : Reporting} {result : Text} (hp : s.phase = .ended ending endedAt r none) :
    Accounts serialize config fresh c (s.finish ending endedAt r result) := by
  have ha := a.announced
  rw [hp] at ha
  unfold Report.finish
  split
  case h_1           => exact a.keep rfl rfl rfl (fun _ h => h) a.announced
  case h_2 codec hcd =>
    refine a.keep rfl rfl rfl (fun p h => hp ▸ h) ⟨rfl, fun he => ?_⟩
    have ⟨hn, hm⟩ := ha he (by simp [hcd])
    simp [hn, ← hm]

theorem flushStep (a : Accounted serialize config fresh s c texts) {ending : Ending}
    {endedAt : Nat} {r : Reporting} {f : Flush} {e : Event}
    (hp : s.phase = .ended ending endedAt r (some f))
    (h : s.flushStep aead ending endedAt r f e = some s') :
    Accounts serialize config fresh c s' := by
  have ha := a.announced
  rw [hp] at ha
  obtain ⟨ht, hm⟩ := ha
  have done : Phase.Announced s.messages texts (.ended ending endedAt r none) := by
    intro _ h
    simp [ht] at h
  cases e <;> simp only [Report.flushStep, Option.ite_none_right_eq_some, reduceCtorEq] at h
  case encode =>
    obtain ⟨⟨f', t⟩, hf, he⟩ := Option.map_eq_some_iff.mp h
    subst he
    unfold flushEncode at hf
    split at hf
    case h_2 => contradiction
    case h_1 text queue _ hq =>
      split at hf
      case h_1 =>
        obtain ⟨hf, hs⟩ := Prod.mk.inj (Option.some_inj.mp hf)
        subst hf hs
        exact a.keep rfl rfl rfl (fun p h => hp ▸ h) done
      case h_2 he =>
        obtain ⟨hf, hs⟩ := Prod.mk.inj (Option.some_inj.mp hf)
        subst hf hs
        obtain ⟨_, _, _, hs⟩ := encode_eq_ok_iff.mp he
        subst hs
        refine a.keep rfl rfl rfl (fun p h => hp ▸ h) ⟨ht, fun he => ?_⟩
        simpa [hq] using hm he
  case write accepted =>
    split at h
    case h_2       => contradiction
    case h_1 frame =>
      obtain ⟨_, h⟩ := Option.ite_none_right_eq_some.mp h
      have h := Option.some_inj.mp h
      subst h
      rcases accepted with _ | _ | n
      case none      => exact a.keep rfl rfl rfl (fun p h => hp ▸ h) done
      case some.zero => exact a.keep rfl rfl rfl (fun p h => hp ▸ h) done
      case some.succ => exact a.keep rfl rfl rfl (fun p h => hp ▸ h) ⟨ht, hm⟩
  case flushed => exact Option.some_inj.mp h.right ▸ a.keep rfl rfl rfl (fun p h => hp ▸ h) done
  case expire  => exact Option.some_inj.mp h.right ▸ a.keep rfl rfl rfl (fun p h => hp ▸ h) done

theorem step (a : Accounted serialize config fresh s c texts) {e : Nat × Event}
    (h : Report.step aead serialize config s e = some s') :
    Accounts serialize config fresh c s' := by
  have ⟨now, e⟩ := e
  have ⟨_, h⟩ := step_cases h
  have a : Accounted serialize config fresh { s with now } c texts :=
    ⟨a.captured, a.emitted, a.pending, a.serialized, a.announced⟩
  cases h
  case closeReceive  => exact a.keep rfl rfl rfl (fun _ h => h) a.announced
  case closeSend     => exact a.keep rfl rfl rfl (fun _ h => h) a.announced
  case head l hp     => exact a.head hp
  case loop l hp h   => exact a.loopStep hp h
  case finish hp     => exact a.finish hp
  case flush hp h    => exact a.flushStep hp h

end Accounted
end Report

-- A merged sample has the deltas and the durations of its group, and is as recent as the newest of it.
structure Sample.Merges (group : List Sample) (x : Sample) : Prop where
  deltas    : ∀ c i, x.delta c i = (group.map (delta c i)).sum
  durations : ∀ i, x.duration i = (group.map (duration i)).sum
  newest    : group.getLast?.map gauges = some x.gauges

namespace Captured

variable {streams : List StreamStats} {ticks : List (List Reading)} {samples : List Sample}
variable {ids : List (Nat × Nat)}

theorem last_new {c : Counter} {id start : Nat} : c.last (.new id start) = 0 := by
  cases c <;> rfl

theorem getElem?_new {i : Nat} (hi : i < ids.length) :
    (ids.map fun s => StreamStats.new s.1 s.2)[i]? = some (.new ids[i].1 ids[i].2) := by
  simp [hi]

theorem sum_delta_new {c : Counter} {i : Nat}
    (h : Captured (ids.map fun s => .new s.1 s.2) ticks samples streams)
    (increasing : ticks.Pairwise (List.Forall₂ Reading.Le)) (hi : i < ids.length) :
    (samples.map (Sample.delta c i)).sum =
      ((readings i ticks).filterMap c.read).getLast?.getD 0 := by
  rw [h.sum_delta increasing (getElem?_new hi) last_new, StreamStats.last_replay, last_new]

theorem sum_delta_le_max {c : Counter} {i : Nat}
    (h : Captured (ids.map fun s => .new s.1 s.2) ticks samples streams)
    (increasing : ticks.Pairwise (List.Forall₂ Reading.Le)) :
    (samples.map (Sample.delta c i)).sum ≤ U64.max := by
  cases Nat.lt_or_ge i ids.length
  case inl hi =>
    rw [h.sum_delta increasing (getElem?_new hi) last_new]
    exact StreamStats.last_replay_le_max last_new
  case inr hi =>
    have hz : (samples.map (Sample.delta c i)).sum = 0 := by
      apply List.sum_eq_zero
      intro d hd
      have ⟨x, hx, hd⟩ := List.mem_map.mp hd
      exact hd ▸ Sample.delta_of_le (h.hasLength x hx) (by simpa using hi)
    exact hz ▸ Nat.zero_le _

-- The samples of a group which was captured in a row.
theorem merges (h : Captured (ids.map fun s => .new s.1 s.2) ticks samples streams)
    (increasing : ticks.Pairwise (List.Forall₂ Reading.Le)) {group : List Sample} {x : Sample}
    (hg : group.Sublist samples) (hx : Coalescer.mergeAll Sample.merge group = some x) :
    Sample.Merges group x := by
  have hP : ∀ y ∈ group, y.HasLength _ := fun y hy => h.hasLength y (hg.subset hy)
  constructor
  case deltas =>
    intro c i
    have hb := (hg.map (Sample.delta c i)).sum_le_sum (by simp)
    exact Coalescer.mergeAll_sum .merge Sample.delta_merge hP
      (hb.trans (h.sum_delta_le_max increasing)) hx
  case durations =>
    intro i
    exact Coalescer.mergeAll_sum .merge (fun hx hy _ => Sample.duration_merge hx hy) hP le_rfl hx
  case newest => exact Coalescer.mergeAll_gauge .merge Sample.gauges_merge hP hx

end Captured

namespace Report

def Balanced (serialize : ControlMessage → Option Text) (config : ReportLoopConfig)
    (fresh : List StreamStats) (s : Report) : Prop :=
  ∃ c texts, (∃ groups last, Coalescer.Grouped Sample.merge c groups last) ∧
    Accounted serialize config fresh s c texts

namespace Balanced

variable {aead : Aead} {serialize : ControlMessage → Option Text} {config : ReportLoopConfig}
variable {fresh : List StreamStats} {s s' : Report}

theorem init {now : Nat} {codec : ControlWriter} {recvClosed sendClosed : Bool} :
    Balanced serialize config fresh (.init now fresh codec recvClosed sendClosed) :=
  ⟨.empty, [], ⟨[], [], .empty⟩, .init⟩

theorem step (b : Balanced serialize config fresh s) {e : Nat × Event}
    (h : Report.step aead serialize config s e = some s') : Balanced serialize config fresh s' := by
  have ⟨_, _, ⟨_, _, g⟩, a⟩ := b
  have ⟨c, texts, steps, a⟩ := a.step h
  exact ⟨c, texts, g.steps steps, a⟩

end Balanced

-- The samples which became messages, with the pending one, account for every reading which was
-- taken at a tick: each is the merge of consecutive samples, their deltas add up to the counters at
-- the last tick, and the messages carry them. A report which ended without a cancel has nothing
-- pending.
theorem conserved_run (aead : Aead) (serialize : ControlMessage → Option Text)
    (config : ReportLoopConfig) {codec : ControlWriter} {now : Nat} {ids : List (Nat × Nat)}
    {recvClosed sendClosed : Bool} {events : List (Nat × Event)} {s : Report}
    {pending : Option Sample}
    (run : (step aead serialize config).run
      (.init now (ids.map fun s => .new s.1 s.2) codec recvClosed sendClosed) events = some s)
    (increasing : s.ticks.Pairwise (List.Forall₂ Reading.Le))
    (hp : s.phase.pending? = some pending) :
    let fresh := ids.map fun s => StreamStats.new s.1 s.2
    let samples := s.samples ++ pending.toList
    (∃ groups, Captured fresh s.ticks groups.flatten s.streams ∧
      List.Forall₂ Sample.Merges groups samples) ∧
    (∃ intervals, s.samples.map (fun x => serialize (x.message config fresh)) = intervals.map some ∧
      s.phase.Announced s.messages intervals) ∧
    ∀ c i, i < ids.length →
      let counter := ((readings i s.ticks).filterMap c.read).getLast?.getD 0
      (samples.map (Sample.delta c i)).sum = counter ∧
      (c.IsReported config.direction →
        (samples.map fun x => (x.message config fresh).reported c i).sum = counter) := by
  have ⟨c, texts, ⟨groups, last, g⟩, a⟩ := System.run_invariant (Balanced.step · ·) .init run
  have hc : c.emitted ++ c.pending.toList = s.samples ++ pending.toList := by
    rw [a.emitted, a.pending _ hp]
  have h := a.captured
  refine ⟨?_, ⟨texts, a.serialized, a.announced⟩, fun cnt i hi => ?_⟩
  · have ⟨groups, hg, hm⟩ := g.forall₂
    rw [← hg] at h
    rw [hc] at hm
    have hm := (List.forall₂_and_left _ _).mpr ⟨fun _ => List.sublist_flatten_of_mem, hm⟩
    exact ⟨groups, h, hm.imp fun _ _ hgx => h.merges increasing hgx.left hgx.right⟩
  · have hd := g.sum_eq .merge Sample.delta_merge h.hasLength
      (h.sum_delta_le_max increasing (c := cnt) (i := i))
    rw [hc, h.sum_delta_new increasing hi] at hd
    refine ⟨hd, fun hr => ?_⟩
    have hl := g.closed .merge h.hasLength
    rw [hc] at hl
    rw [← hd]
    refine congrArg List.sum (List.map_congr_left fun x hx => ?_)
    exact Sample.reported_message (hl x hx) rfl hr

def reading (now : Nat) (received retransmits : UInt64) : Reading :=
  let counters : Counters := {
    bytesSent := 0, bytesReceived := received.toNat, bytesReceived_le := U64.le_max received
  }
  let info : TcpInfoSnapshot := {
    retransmits := retransmits.toNat, rttUs := 30, cwnd := 10, retransmits_le := U64.le_max _
  }
  ⟨now, counters, counters, 0, ⟨0, 0⟩, some info⟩

theorem reading_le {now now' : Nat} {received received' retransmits retransmits' : UInt64}
    (h : received.toNat ≤ received'.toNat) (h' : retransmits.toNat ≤ retransmits'.toNat) :
    (reading now received retransmits).Le (reading now' received' retransmits') := by
  have hm (n : UInt64) : U64.wrappingAdd 0 n.toNat = n.toNat := by
    rw [U64.wrappingAdd, Nat.zero_add, Nat.mod_eq_of_lt n.toNat_lt]
  intro c
  cases c <;> simp [Counter.read, Reading.totalBytes, reading, hm, h, h']

-- The samples of the second and the third tick are merged while the first message is in flight.
def coalesced : List (Nat × Event) :=
  [
    (0, .head), (1, .tick [reading 1 100 2]), (1, .head), (2, .tick [reading 2 250 2]), (2, .head),
    (3, .written (some 1)), (3, .head), (4, .tick [reading 4 300 7]), (4, .head), (5, .command none)
  ]

theorem conserved_run_coalesced :
    ∃ s, (step Channel.transparent (fun _ => some ['i'])
        ⟨['a'], .tcp, 100, .upload, false, false⟩).run
        (.init 0 ([(0, 0)].map fun s => .new s.1 s.2) .plaintext true true) coalesced = some s ∧
      s.samples.length = 2 ∧ (s.samples.map (Sample.delta .bytes 0)).sum = 300 ∧
      (s.samples.map (Sample.delta .retransmits 0)).sum = 7 := by
  let ticks := [[reading 1 100 2], [reading 2 250 2], [reading 4 300 7]]
  have hm : ((step Channel.transparent (fun _ => some ['i'])
      ⟨['a'], .tcp, 100, .upload, false, false⟩).run
      (.init 0 ([(0, 0)].map fun s => .new s.1 s.2) .plaintext true true) coalesced).map
      (fun s => (s.ticks, s.phase.pending?, s.samples.length)) = some (ticks, some none, 2) := rfl
  have ⟨s, run, hs⟩ := Option.map_eq_some_iff.mp hm
  simp only [Prod.mk.injEq] at hs
  have ⟨ht, hp, hl⟩ := hs
  have increasing : s.ticks.Pairwise (List.Forall₂ Reading.Le) := by
    rw [ht]
    repeat' constructor
    all_goals simp [reading_le]
  have ⟨_, _, h⟩ := conserved_run _ _ _ run increasing hp
  have hb := (h .bytes 0 (by decide)).left
  have hr := (h .retransmits 0 (by decide)).left
  rw [ht] at hb hr
  simp only [Option.toList_none, List.append_nil] at hb hr
  exact ⟨s, run, hl, hb.trans rfl, hr.trans rfl⟩

end Report
