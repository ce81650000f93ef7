import Xfr.Transfer.Lane

open Utf8 (Text)

namespace SendLoop

variable {b b' : ByteBudget} {budget budget' : Option ByteBudget} {l l' : SendLoop} {e : SendEvent}

-- Only the end of a write changes the number of written bytes.
theorem step_written_eq (hw : e.isWritten = false) (h : step (b, l) e = some (b', l')) :
    l'.written = l.written := by
  unfold step at h
  dsimp only at h
  split at h
  case h_3 | h_9 | h_11 =>
    obtain ⟨_, h⟩ := Option.ite_none_right_eq_some.mp h
    cases h
    rfl
  case h_6 =>
    split at h
    all_goals
      cases h
      rfl
  case h_10 => contradiction
  case h_15 => contradiction
  all_goals
    cases h
    rfl

theorem stepWithin_written_eq (hw : e.isWritten = false)
    (h : l.stepWithin budget e = some (budget', l')) : l'.written = l.written := by
  unfold stepWithin at h
  split at h
  case h_1 =>
    obtain ⟨_, hs, he⟩ := Option.map_eq_some_iff.mp h
    cases he
    exact step_written_eq hw hs
  case h_2 =>
    split at h
    case h_1 => cases h; rfl
    case h_2 =>
      obtain ⟨_, hs, he⟩ := Option.map_eq_some_iff.mp h
      cases he
      exact step_written_eq hw hs

theorem stepWithin_written_add {n : Nat}
    (h : l.stepWithin budget (.written n) = some (budget', l')) : l'.written = l.written + n := by
  have hstep {b b' : ByteBudget} (h : step (b, l) (.written n) = some (b', l')) :
      l'.written = l.written + n := by
    unfold step at h
    dsimp only at h
    split at h
    case h_10 he =>
      cases he
      obtain ⟨_, h⟩ := Option.ite_none_right_eq_some.mp h
      cases h
      exact written_wrote
    all_goals simp_all
  unfold stepWithin at h
  split at h
  case h_1 =>
    obtain ⟨_, hs, he⟩ := Option.map_eq_some_iff.mp h
    cases he
    exact hstep hs
  case h_2 =>
    split at h
    case h_1 he => cases he
    case h_2 =>
      obtain ⟨_, hs, he⟩ := Option.map_eq_some_iff.mp h
      cases he
      exact hstep hs

end SendLoop

-- What fresh loops write stays within the budget, and uses it up when all of them stop at its end.
theorem SendLoop.written_run {total : UInt64} {loops loops' : List SendLoop}
    {events : List (Nat × SendEvent)} {b : ByteBudget}
    (fresh : ∀ l ∈ loops, l.written = 0 ∧ l.outstanding = 0 ∧ ¬l.Resigned)
    (run : step.interleave.run (.new total, loops) events = some (b, loops')) :
    (loops'.map (·.written)).sum ≤ total.toNat ∧
    (loops ≠ [] → (∀ l ∈ loops', l.point = .spent) →
      (loops'.map (·.written)).sum = total.toNat) := by
  have hsum : (loops'.map fun l => l.outstanding + l.written).sum =
      (loops'.map (·.outstanding)).sum + (loops'.map (·.written)).sum :=
    List.sum_map_add
  have fresh₀ : (loops.map fun l => l.outstanding + l.written).sum = 0 := by
    apply List.sum_eq_zero
    intro n hn
    obtain ⟨l, hl, hn⟩ := List.mem_map.mp hn
    rw [← hn, (fresh l hl).left, (fresh l hl).right.left, Nat.add_zero]
  have conserved : b.remaining + (loops'.map fun l => l.outstanding + l.written).sum = total.toNat :=
    System.run_conserved (fun hle => step_conserved (hle.trans (U64.le_max total)))
      (by rw [fresh₀]; rfl) run
  rw [hsum] at conserved
  refine ⟨by omega, fun hne spent => ?_⟩
  obtain ⟨l, hl⟩ := List.exists_mem_of_ne_nil _ hne
  have final := System.run_resigned step_resigned step_resigns ⟨l, hl, (fresh l hl).right.right⟩ run
    fun l hl => .inr (spent l hl)
  have settled : (loops'.map (·.outstanding)).sum = 0 := by
    apply List.sum_eq_zero
    intro n hn
    obtain ⟨l, hl, hn⟩ := List.mem_map.mp hn
    rw [← hn, outstanding, spent l hl]
    rfl
  omega

theorem clampBytesSentToAcked_le {bytesSent : Nat} {acked : Option Nat} :
    clampBytesSentToAcked bytesSent acked ≤ bytesSent ∧
      ∀ a ∈ acked, clampBytesSentToAcked bytesSent acked ≤ a := by
  cases acked
  case none => exact ⟨Nat.le_refl _, by simp⟩
  case some a =>
    simp only [clampBytesSentToAcked, Option.mem_def, Option.some_inj, forall_eq']
    split <;> omega

-- A first line, up to and including its newline, or nothing.
def Greeting (hello : Bytes) : Prop :=
  hello = [] ∨ ∃ first, hello = first ++ [newline] ∧ newline ∉ first

-- The first line is in front of everything else that was written.
def Outbound.Wrote (hello written : Bytes) (sent : Nat) : Outbound → Prop
  | greeting rest => written ++ rest = hello ∧ sent = 0
  | _             => hello <+: written ∧ written.length = hello.length + sent

-- The counter of a stream which is left is not above what was written, nor above what the peer has
-- acknowledged if the connection was aborted.
def Outbound.Reported (c : Conduit UInt8) (sent bytesSent : Nat) : Outbound → Prop
  | closed failed acked =>
    bytesSent ≤ sent ∧
    (c.cut → ∀ a ∈ acked, bytesSent ≤ a ∧ a ≤ c.arrived) ∧
    (c.cut = false → failed = false → bytesSent = sent % 2 ^ 64)
  | _                   => bytesSent = sent % 2 ^ 64 ∧ c.finished = false ∧ c.cut = false

-- The first line is taken alone, and the receive loop counts what follows it.
def Inbound.Read (hello : Bytes) (c : Conduit UInt8) : Inbound → Prop
  | greeting line  => ∃ first, hello = first ++ [newline] ∧ c.received = line ∧ line <+: first
  | routed text    => ∃ first, hello = first ++ [newline] ∧ c.received = hello ∧
                        text = Utf8.decodeLossy first
  | refused        => True
  | receiving loop =>
    ∃ counted, loop.bytesReceived = counted % 2 ^ 64 ∧ hello.length + counted ≤ c.taken ∧
      (loop.point = .reading → hello.length + counted = c.taken) ∧
      (loop.point = .ended .eof → hello.length + counted = c.taken ∧ c.atEnd)

variable {hello : Bytes} {c c' : Conduit UInt8}

-- Only data is taken from a stream.
theorem ReceiveEvent.takeFrom_eq {e : ReceiveEvent} (hn : ∀ n, e ≠ .read (.data n))
    (h : e.takeFrom c = some c') : c' = c := by
  unfold ReceiveEvent.takeFrom at h
  split at h
  case h_1 n => exact absurd rfl (hn n)
  case h_2   => exact (Option.some_inj.mp (Option.ite_none_right_eq_some.mp h).right).symm
  case h_3   => exact (Option.some_inj.mp h).symm

theorem Inbound.Read.of_eq {i : Inbound} (h : i.Read hello c) (hr : c'.received = c.received)
    (ht : c'.taken = c.taken) (he : c.atEnd → c'.atEnd) : i.Read hello c' := by
  cases i
  case greeting line  => simpa only [Read, hr] using h
  case routed text    => simpa only [Read, hr] using h
  case refused        => trivial
  case receiving loop =>
    obtain ⟨counted, hc, hle, hp, hend⟩ := h
    rw [← ht] at hle hp hend
    exact ⟨counted, hc, hle, hp, fun h => ⟨(hend h).left, he (hend h).right⟩⟩

theorem Inbound.Read.write {i : Inbound} {bytes : Bytes} (h : i.Read hello c)
    (hw : c.write bytes = some c') : i.Read hello c' := by
  have hr := Conduit.received_write hw
  obtain ⟨ho, hc⟩ := Conduit.write_eq_some_iff.mp hw
  refine h.of_eq hr (by rw [hc]) fun he => ?_
  simp [Conduit.atEnd] at he
  simp [he.left] at ho

theorem Inbound.Read.arrive {i : Inbound} {n : Nat} (h : i.Read hello c)
    (ha : c.arrive n = some c') : i.Read hello c' := by
  obtain ⟨_, hc⟩ := Conduit.arrive_eq_some_iff.mp ha
  subst hc
  exact h.of_eq rfl rfl id

namespace Lane

variable {linux : Bool} {t t' : Traffic} {l l' : Lane}

theorem hangUp_frame :
    (l.hangUp linux t).written = l.conduit.written ∧ (l.hangUp linux t).taken = l.conduit.taken ∧
    (l.hangUp linux t).arrived = l.conduit.arrived ∧
    (l.hangUp linux t).received = l.conduit.received ∧
    (l.hangUp linux t).cut = (l.abortive linux t || l.conduit.cut) := by
  unfold hangUp
  cases l.abortive linux t <;> exact ⟨rfl, rfl, rfl, rfl, rfl⟩

structure Valid (hello : Bytes) (l : Lane) : Prop where
  greeting : Greeting hello
  fresh    : l.receiver.bytesReceived = 0 ∧ l.receiver.point = .reading
  wrote    : l.outbound.Wrote hello l.conduit.written l.sender.written
  reported : l.outbound.Reported l.conduit l.sender.written l.bytesSent
  failed   : ∀ {acked}, l.outbound = .closed true acked → l.sender.exit = some .failed
  read     : l.inbound.Read hello l.conduit

namespace Valid

theorem greet {n : Nat} (v : Valid hello l) (h : l.greet n = some l') : Valid hello l' := by
  unfold Lane.greet at h
  split at h
  case h_2 => contradiction
  case h_1 rest ho =>
    obtain ⟨c, hw, h⟩ := Option.map_eq_some_iff.mp h
    subst h
    have hread := v.read.write hw
    obtain ⟨_, hc⟩ := Conduit.write_eq_some_iff.mp hw
    have hwrote := v.wrote
    have hrep := v.reported
    rw [ho] at hwrote hrep
    obtain ⟨hh, hs⟩ := hwrote
    have hcw : c.written = l.conduit.written ++ rest.take n := by rw [hc]
    have hcf : c.finished = l.conduit.finished ∧ c.cut = l.conduit.cut := by rw [hc]; exact ⟨rfl, rfl⟩
    have hall : c.written ++ rest.drop n = hello := by
      rw [hcw, List.append_assoc, List.take_append_drop, hh]
    refine ⟨v.greeting, v.fresh, ?wrote, ?reported, ?failed, hread⟩
    case failed => dsimp only; split <;> simp
    case wrote =>
      dsimp only
      split
      case isFalse => exact ⟨hall, hs⟩
      case isTrue hd =>
        have hall : c.written = hello := by rw [← hall, hd, List.append_nil]
        exact ⟨hall ▸ List.prefix_rfl, by rw [hall, hs]; rfl⟩
    case reported =>
      dsimp only
      split <;> exact ⟨hrep.left, hcf.left.trans hrep.right.left, hcf.right.trans hrep.right.right⟩

theorem send {e : SendEvent} (v : Valid hello l) (h : l.send t e = some (t', l')) :
    Valid hello l' := by
  obtain ⟨⟨ho, he⟩, h⟩ := Option.ite_none_right_eq_some.mp h
  obtain ⟨⟨budget, sender⟩, hs, h⟩ := Option.map_eq_some_iff.mp h
  obtain ⟨_, h⟩ := Prod.mk.inj h
  have hw := SendLoop.stepWithin_written_eq he hs
  subst h
  have hwrote := v.wrote
  have hrep := v.reported
  rw [← hw] at hwrote hrep
  exact ⟨v.greeting, v.fresh, hwrote, hrep, by simp [ho], v.read⟩

theorem write {bytes : Bytes} (v : Valid hello l) (h : l.write t bytes = some (t', l')) :
    Valid hello l' := by
  obtain ⟨ho, h⟩ := Option.ite_none_right_eq_some.mp h
  obtain ⟨⟨budget, sender⟩, hs, h⟩ := Option.bind_eq_some_iff.mp h
  obtain ⟨c, hc, h⟩ := Option.bind_eq_some_iff.mp h
  obtain ⟨_, h⟩ := Prod.mk.inj (Option.some_inj.mp h)
  subst h
  have hw := SendLoop.stepWithin_written_add hs
  have hread := v.read.write hc
  obtain ⟨_, hc⟩ := Conduit.write_eq_some_iff.mp hc
  have hwrote := v.wrote
  have hrep := v.reported
  rw [ho] at hwrote hrep
  refine ⟨v.greeting, v.fresh, ?wrote, ?reported, by simp [ho], hread⟩
  case wrote =>
    dsimp only
    rw [ho, hc, hw]
    refine ⟨hwrote.left.trans (List.prefix_append ..), ?_⟩
    rw [List.length_append, hwrote.right, Nat.add_assoc]
  case reported =>
    dsimp only
    rw [ho, hc, hw]
    refine ⟨?_, hrep.right⟩
    rw [hrep.left, U64.wrappingAdd, Nat.mod_add_mod]

-- What the receiver knows of a stream which was still open.
theorem read_hangUp (v : Valid hello l) (ho : l.outbound = .sending) :
    l.inbound.Read hello (l.hangUp linux t) := by
  obtain ⟨_, ht, _, hr, _⟩ := @hangUp_frame linux t l
  have hrep := v.reported
  rw [ho] at hrep
  refine v.read.of_eq hr ht fun he => ?_
  simp [Conduit.atEnd, hrep.right.left] at he

theorem wrote_hangUp {failed : Bool} {acked : Option Nat} (v : Valid hello l)
    (ho : l.outbound = .sending) :
    (Outbound.closed failed acked).Wrote hello (l.hangUp linux t).written l.sender.written := by
  have hwrote := v.wrote
  rw [ho] at hwrote
  rw [hangUp_frame.left]
  exact hwrote

-- A connection is only aborted in a timed test, where the counter is clamped.
theorem reported_hangUp {failed : Bool} {acked : Option Nat} {bytesSent : Nat} (v : Valid hello l)
    (ho : l.outbound = .sending) (ha : l.acknowledges linux acked)
    (hle : bytesSent ≤ l.bytesSent)
    (hcut : l.abortive linux t → ∀ a ∈ acked, bytesSent ≤ a)
    (hkept : ¬l.abortive linux t → failed = false → bytesSent = l.bytesSent) :
    (Outbound.closed failed acked).Reported (l.hangUp linux t) l.sender.written bytesSent := by
  obtain ⟨_, _, harr, _, hc⟩ := @hangUp_frame linux t l
  have hrep := v.reported
  rw [ho] at hrep
  rw [hrep.right.right, Bool.or_false] at hc
  refine ⟨?_, ?_, ?_⟩
  · exact hle.trans (hrep.left ▸ Nat.mod_le ..)
  · intro h a hm
    rw [hc] at h
    have : acked = some a := hm
    simp [acknowledges, this] at ha
    exact ⟨hcut h a hm, harr ▸ ha.right⟩
  · intro h hf
    rw [hc] at h
    rw [hkept (by simp [h]) hf, hrep.left]

theorem close {acked : Option Nat} (v : Valid hello l) (h : l.close linux t acked = some l') :
    Valid hello l' := by
  obtain ⟨⟨ho, _, ha⟩, h⟩ := Option.ite_none_right_eq_some.mp h
  have h := Option.some_inj.mp h
  subst h
  refine ⟨v.greeting, v.fresh, v.wrote_hangUp ho, v.reported_hangUp ho ha ?_ ?_ ?_, by simp,
    v.read_hangUp ho⟩
  · split
    case isTrue  => exact clampBytesSentToAcked_le.left
    case isFalse => exact Nat.le_refl _
  · intro h
    have h : linux ∧ t.budget = none ∧ l.sender.transport = .tcp := by simpa [abortive] using h
    rw [if_pos h.right]
    exact clampBytesSentToAcked_le.right
  · intro h _
    split
    case isFalse  => rfl
    case isTrue h' =>
      -- No other system than Linux knows what was acknowledged.
      have hl : linux = false := by
        cases linux
        case false => rfl
        case true  => exact absurd (by simpa [abortive] using h') h
      have : acked = none := by
        cases acked
        case none   => rfl
        case some a => simp [acknowledges, hl] at ha
      rw [this]
      rfl

theorem fail {acked : Option Nat} (v : Valid hello l) (h : l.fail linux t acked = some l') :
    Valid hello l' := by
  obtain ⟨⟨ho, he, ha⟩, h⟩ := Option.ite_none_right_eq_some.mp h
  have h := Option.some_inj.mp h
  subst h
  refine ⟨v.greeting, v.fresh, v.wrote_hangUp ho, v.reported_hangUp ho ha ?_ ?_ ?_, fun _ => he,
    v.read_hangUp ho⟩
  · split
    case isTrue  => exact clampBytesSentToAcked_le.left
    case isFalse => exact Nat.le_refl _
  · intro h
    have h : linux ∧ t.budget = none ∧ l.sender.transport = .tcp := by simpa [abortive] using h
    rw [if_pos h.right.right]
    exact clampBytesSentToAcked_le.right
  · intro _ h
    contradiction

theorem arrive {n : Nat} {c : Conduit UInt8} (v : Valid hello l) (h : l.conduit.arrive n = some c) :
    Valid hello { l with conduit := c } := by
  have hread := v.read.arrive h
  obtain ⟨⟨_, hcut⟩, hc⟩ := Conduit.arrive_eq_some_iff.mp h
  have hwrote := v.wrote
  have hrep := v.reported
  refine ⟨v.greeting, v.fresh, ?wrote, ?reported, v.failed, hread⟩
  case wrote    => rw [hc]; exact hwrote
  case reported =>
    rw [hc]
    cases ho : l.outbound
    case greeting => rw [ho] at hrep; exact hrep
    case sending  => rw [ho] at hrep; exact hrep
    case closed   =>
      rw [ho] at hrep
      exact ⟨hrep.left, fun h => absurd h (by simp [hcut]), hrep.right.right⟩

-- What was read of the stream changed, and nothing else.
theorem of_read {c : Conduit UInt8} {i : Inbound} (v : Valid hello l)
    (hw : c.written = l.conduit.written) (ha : c.arrived = l.conduit.arrived)
    (hf : c.finished = l.conduit.finished) (hc : c.cut = l.conduit.cut) (hi : i.Read hello c) :
    Valid hello { l with conduit := c, inbound := i } where
  greeting := v.greeting
  fresh    := v.fresh
  wrote    := hw ▸ v.wrote
  reported := by
    have hrep := v.reported
    dsimp only
    cases ho : l.outbound <;> rw [ho] at hrep
    case greeting => exact ⟨hrep.left, hf.trans hrep.right.left, hc.trans hrep.right.right⟩
    case sending  => exact ⟨hrep.left, hf.trans hrep.right.left, hc.trans hrep.right.right⟩
    case closed   => simpa only [Outbound.Reported, hc, ha] using hrep
  failed   := v.failed
  read     := hi

theorem take {n : Nat} {bytes : Bytes} {i : Inbound} (v : Valid hello l)
    (h : l.conduit.take n = some (bytes, c)) (hi : i.Read hello c) :
    Valid hello { l with conduit := c, inbound := i } := by
  obtain ⟨_, _, hc⟩ := Conduit.take_eq_some_iff.mp h
  subst hc
  exact v.of_read rfl rfl rfl rfl hi

-- What was received so far is a beginning of the first line or goes on behind it.
theorem comparable (v : Valid hello l) (h : c.written = l.conduit.written)
    (hl : c.received.length ≤ hello.length) : c.received <+: hello := by
  have hp : c.received <+: l.conduit.written := h ▸ c.received_prefix
  have hwrote := v.wrote
  cases ho : l.outbound <;> rw [ho] at hwrote
  case greeting rest => exact hp.trans ⟨rest, hwrote.left⟩
  case sending       => exact List.prefix_of_prefix_length_le hp hwrote.left hl
  case closed        => exact List.prefix_of_prefix_length_le hp hwrote.left hl

theorem readByte (v : Valid hello l) (h : l.readByte = some l') : Valid hello l' := by
  unfold Lane.readByte at h
  split at h
  case h_2 => contradiction
  case h_1 line hi =>
    obtain ⟨⟨bytes, c⟩, ht, h⟩ := Option.bind_eq_some_iff.mp h
    obtain ⟨b, hb, h⟩ := Option.bind_eq_some_iff.mp h
    have h := Option.some_inj.mp h
    subst h
    refine v.take ht ?_
    have hread := v.read
    rw [hi] at hread
    obtain ⟨first, hh, hr, hp⟩ := hread
    obtain ⟨hrc, hlen, hw⟩ := Conduit.received_take ht
    have hbytes : bytes = [b] := by
      obtain ⟨b', hb'⟩ := List.length_eq_one_iff.mp hlen
      subst hb'
      simpa using hb
    have hnot : newline ∉ first := by
      rcases v.greeting with hn | ⟨first', hf, hn⟩
      case inl => simp [hn] at hh
      case inr =>
        rw [(List.append_inj_left' (hf.symm.trans hh) rfl)] at hn
        exact hn
    rw [hr, hbytes] at hrc
    have hle := hp.length_le
    have hcomp : line ++ [b] <+: first ++ [newline] := by
      rw [← hh, ← hrc]
      refine v.comparable hw ?_
      rw [hrc, hh, List.length_append, List.length_append]
      exact Nat.add_le_add_right hle 1
    -- Either this is the newline, or the first line goes on.
    rcases List.prefix_concat_iff.mp hcomp with he | hp'
    case inl =>
      obtain ⟨hl, hb⟩ := List.append_inj' he rfl
      have hb : b = newline := by simpa using hb
      subst hl hb
      rw [Lane.greeted, if_pos rfl]
      exact ⟨line, hh, hrc.trans hh.symm, rfl⟩
    case inr =>
      have hb : b ≠ newline := by
        intro hb
        exact hnot (hp'.subset (by simp [hb]))
      rw [Lane.greeted, if_neg hb]
      split
      case isTrue  => trivial
      case isFalse => exact ⟨first, hh, hrc, hp'⟩

theorem serve (v : Valid hello l) (h : l.serve t = some l') : Valid hello l' := by
  unfold Lane.serve at h
  split at h
  case h_2 => contradiction
  case h_1 text hi =>
    have h := Option.some_inj.mp h
    subst h
    have hread := v.read
    rw [hi] at hread
    obtain ⟨_, _, hr, _⟩ := hread
    have htaken : hello.length = l.conduit.taken := by rw [← hr, Conduit.length_received]
    obtain ⟨hz, hp⟩ := v.fresh
    refine v.of_read rfl rfl rfl rfl ⟨0, hz, htaken.le, fun _ => htaken, fun h => ?_⟩
    simp [hp] at h

theorem refuse (v : Valid hello l) (h : l.refuse = some l') : Valid hello l' := by
  unfold Lane.refuse at h
  split at h
  case h_3 => contradiction
  all_goals
    have h := Option.some_inj.mp h
    subst h
    exact v.of_read rfl rfl rfl rfl trivial

theorem effect {loop loop' : ReceiveLoop} {e : ReceiveEvent} (v : Valid hello l)
    (hread : (Inbound.receiving loop).Read hello l.conduit) (ef : loop.Effect e loop')
    (hc : e.takeFrom l.conduit = some c) :
    Valid hello { l with conduit := c, inbound := .receiving loop' } := by
  obtain ⟨counted, hcount, hle, hp, hend⟩ := hread
  cases ef
  case count n hr =>
    obtain ⟨⟨bytes, c'⟩, ht, hc⟩ := Option.map_eq_some_iff.mp hc
    subst hc
    refine v.take ht ⟨counted + n, ?_, ?_, ?_, fun he => absurd (hr.symm.trans he) (by simp)⟩
    all_goals
      obtain ⟨_, _, hc⟩ := Conduit.take_eq_some_iff.mp ht
      have hr' := hp hr
      subst hc
    · rw [ReceiveLoop.addBytesReceived, hcount, U64.wrappingAdd, Nat.mod_add_mod]
    · dsimp only
      omega
    · intro _
      dsimp only
      omega
  case drain n deadline hd =>
    obtain ⟨⟨bytes, c'⟩, ht, hc⟩ := Option.map_eq_some_iff.mp hc
    subst hc
    refine v.take ht ⟨counted, hcount, ?_, fun hr => absurd (hd.symm.trans hr) (by simp),
      fun he => absurd (hd.symm.trans he) (by simp)⟩
    obtain ⟨_, _, hc⟩ := Conduit.take_eq_some_iff.mp ht
    subst hc
    dsimp only
    omega
  case eof hr =>
    obtain ⟨he, hc⟩ := Option.ite_none_right_eq_some.mp hc
    have hc := Option.some_inj.mp hc
    subst hc
    exact v.of_read rfl rfl rfl rfl ⟨counted, hcount, hle, fun _ => hp hr, fun _ => ⟨hp hr, he⟩⟩
  case stay hn =>
    rw [ReceiveEvent.takeFrom_eq hn hc]
    exact v.of_read rfl rfl rfl rfl ⟨counted, hcount, hle, hp, hend⟩
  case leave hn hb hr he =>
    rw [ReceiveEvent.takeFrom_eq hn hc]
    exact v.of_read rfl rfl rfl rfl
      ⟨counted, hb.trans hcount, hle, fun h => absurd h hr, fun h => absurd h he⟩

theorem receive {e : ReceiveEvent} (v : Valid hello l) (h : l.receive t e = some l') :
    Valid hello l' := by
  unfold Lane.receive at h
  split at h
  case h_2 => contradiction
  case h_1 loop hi =>
    obtain ⟨loop', hl, h⟩ := Option.bind_eq_some_iff.mp h
    obtain ⟨c, hc, h⟩ := Option.bind_eq_some_iff.mp h
    have h := Option.some_inj.mp h
    subst h
    have hread := v.read
    rw [hi] at hread
    exact v.effect hread (ReceiveLoop.step_effect hl) hc

-- Whatever happens to a stream, its ends agree on what went through it.
theorem step {e : LaneEvent} (v : Valid hello l) (h : Lane.step linux (t, l) e = some (t', l')) :
    Valid hello l' := by
  cases e
  case send e      => exact v.send h
  case write bytes => exact v.write h
  case arrive n    =>
    obtain ⟨c, hc, h⟩ := Option.map_eq_some_iff.mp h
    obtain ⟨_, h⟩ := Prod.mk.inj h
    subst h
    exact v.arrive hc
  case cancel =>
    obtain ⟨_, h⟩ := Prod.mk.inj (Option.some_inj.mp h)
    exact h ▸ v
  case tick n =>
    obtain ⟨_, h⟩ := Prod.mk.inj (Option.some_inj.mp h)
    exact h ▸ v
  all_goals
    obtain ⟨_, hs, h⟩ := Option.map_eq_some_iff.mp h
    obtain ⟨_, h⟩ := Prod.mk.inj h
    subst h
  case greet n     => exact v.greet hs
  case close acked => exact v.close hs
  case fail acked  => exact v.fail hs
  case readByte    => exact v.readByte hs
  case serve       => exact v.serve hs
  case refuse      => exact v.refuse hs
  case receive e   => exact v.receive hs

theorem start {config : LaneConfig} {now : Nat} : Valid config.greeting (config.start now) := by
  have hs : config.sender.start.written = 0 := Sender.start_fresh.left
  have hr : (config.receiver.start now).bytesReceived = 0 ∧
      (config.receiver.start now).point = .reading := by
    cases config.receiver <;> exact ⟨rfl, rfl⟩
  have hg : Greeting config.greeting := by
    unfold LaneConfig.greeting
    cases config.hello
    case none       => exact .inl rfl
    case some hello =>
      exact .inr ⟨Utf8.encode hello.text, rfl, Framing.newline_notMem_encode hello.no_newline⟩
  refine ⟨hg, hr, ?_, ?_, ?_, ?_⟩
  all_goals
    unfold LaneConfig.start
    dsimp only
    split
  case refine_1.isTrue h  => rw [hs, h]; exact ⟨List.prefix_rfl, rfl⟩
  case refine_1.isFalse   => exact ⟨rfl, hs⟩
  case refine_2.isTrue    => rw [hs]; exact ⟨rfl, rfl, rfl⟩
  case refine_2.isFalse   => rw [hs]; exact ⟨rfl, rfl, rfl⟩
  case refine_3.isTrue    => simp
  case refine_3.isFalse   => simp
  case refine_4.isTrue h  =>
    rw [h]
    exact ⟨0, hr.left, Nat.le_refl 0, fun _ => rfl, fun he => absurd (hr.right.symm.trans he) (by simp)⟩
  case refine_4.isFalse h =>
    rcases hg with hn | ⟨first, hf, _⟩
    case inl => exact absurd hn h
    case inr => exact ⟨first, hf, rfl, List.nil_prefix⟩

end Valid

def bytesReceived (l : Lane) : Nat :=
  match l.inbound with
  | .receiving loop => loop.bytesReceived
  | _               => 0

-- The receive loop got to the end of the stream.
def complete (l : Lane) : Bool :=
  match l.inbound with
  | .receiving loop => loop.point = .ended .eof
  | _               => false

theorem complete_iff :
    l.complete ↔ ∃ loop, l.inbound = .receiving loop ∧ loop.point = .ended .eof := by
  unfold complete
  split
  case h_1 h => simp [h]
  case h_2 h =>
    simp only [Bool.false_eq_true, false_iff, not_exists, not_and]
    exact fun loop hi => absurd hi (h loop)

namespace Valid

-- What was taken behind the first line was written by the send loop.
theorem taken_le (v : Valid hello l) {counted : Nat}
    (h : hello.length + counted ≤ l.conduit.taken) : counted ≤ l.sender.written := by
  have := l.conduit.taken_le
  have := l.conduit.arrived_le
  have hwrote := v.wrote
  cases ho : l.outbound <;> rw [ho] at hwrote
  case greeting rest =>
    have hl := congrArg List.length hwrote.left
    rw [List.length_append] at hl
    omega
  case sending => have := hwrote.right; omega
  case closed  => have := hwrote.right; omega

theorem bytesReceived_le (v : Valid hello l) : l.bytesReceived ≤ l.sender.written := by
  have hread := v.read
  unfold bytesReceived
  split
  case h_2 => exact Nat.zero_le _
  case h_1 loop hi =>
    rw [hi] at hread
    obtain ⟨counted, hc, hle, _⟩ := hread
    exact hc ▸ (Nat.mod_le ..).trans (v.taken_le hle)

theorem bytesSent_le (v : Valid hello l) : l.bytesSent ≤ l.sender.written := by
  have hrep := v.reported
  cases ho : l.outbound <;> rw [ho] at hrep
  case greeting => exact hrep.left ▸ Nat.mod_le ..
  case sending  => exact hrep.left ▸ Nat.mod_le ..
  case closed   => exact hrep.left

-- A stream which was read to its end was closed by the sender, and all of it was counted.
theorem closed_of_complete (v : Valid hello l) (h : l.complete) :
    ∃ failed acked, l.outbound = .closed failed acked ∧
      l.bytesReceived = l.sender.written % 2 ^ 64 ∧
      (failed = false → l.bytesSent = l.sender.written % 2 ^ 64) := by
  obtain ⟨loop, hi, hp⟩ := complete_iff.mp h
  have hread := v.read
  rw [hi] at hread
  obtain ⟨counted, hc, _, _, hend⟩ := hread
  obtain ⟨ht, he⟩ := hend hp
  have he : l.conduit.finished ∧ l.conduit.cut = false ∧
      l.conduit.taken = l.conduit.written.length := by simpa [Conduit.atEnd] using he
  have hb : l.bytesReceived = counted % 2 ^ 64 := by rw [← hc, bytesReceived, hi]
  have hrep := v.reported
  have hwrote := v.wrote
  cases ho : l.outbound <;> rw [ho] at hrep hwrote
  case greeting => simp [hrep.right.left] at he
  case sending  => simp [hrep.right.left] at he
  case closed failed acked =>
    have : counted = l.sender.written := by
      have := hwrote.right
      omega
    exact ⟨failed, acked, rfl, this ▸ hb, hrep.right.right he.right.left⟩

end Valid

-- A step is one of the send loop on the budget, or it leaves both of them alone.
theorem step_projects {e : LaneEvent} (hb : t.budget.isSome)
    (h : step linux (t, l) e = some (t', l')) :
    t'.budget.isSome ∧
      (t'.budget.getD (.new 0) = t.budget.getD (.new 0) ∧ l'.sender = l.sender ∨
        ∃ e', SendLoop.step (t.budget.getD (.new 0), l.sender) e' =
          some (t'.budget.getD (.new 0), l'.sender)) := by
  obtain ⟨b, hb'⟩ := Option.isSome_iff_exists.mp hb
  have hstep {budget : Option ByteBudget} {sender : SendLoop} {e : SendEvent}
      (h : l.sender.stepWithin t.budget e = some (budget, sender)) :
      budget.isSome ∧ ∃ e', SendLoop.step (t.budget.getD (.new 0), l.sender) e' =
        some (budget.getD (.new 0), sender) := by
    rw [hb'] at h ⊢
    obtain ⟨⟨b', sender'⟩, hs, he⟩ := Option.map_eq_some_iff.mp h
    cases he
    exact ⟨rfl, e, hs⟩
  cases e
  case send e =>
    obtain ⟨_, h⟩ := Option.ite_none_right_eq_some.mp h
    obtain ⟨⟨budget, sender⟩, hs, h⟩ := Option.map_eq_some_iff.mp h
    cases h
    exact (hstep hs).imp_right .inr
  case write bytes =>
    obtain ⟨_, h⟩ := Option.ite_none_right_eq_some.mp h
    obtain ⟨⟨budget, sender⟩, hs, h⟩ := Option.bind_eq_some_iff.mp h
    obtain ⟨c, _, h⟩ := Option.bind_eq_some_iff.mp h
    cases h
    exact (hstep hs).imp_right .inr
  case cancel => cases h; exact ⟨hb, .inl ⟨rfl, rfl⟩⟩
  case tick   => cases h; exact ⟨hb, .inl ⟨rfl, rfl⟩⟩
  case arrive n =>
    obtain ⟨c, _, h⟩ := Option.map_eq_some_iff.mp h
    cases h
    exact ⟨hb, .inl ⟨rfl, rfl⟩⟩
  all_goals
    obtain ⟨l₁, hs, h⟩ := Option.map_eq_some_iff.mp h
    cases h
    refine ⟨hb, .inl ⟨rfl, ?_⟩⟩
  case greet n =>
    unfold greet at hs
    split at hs
    case h_2 => contradiction
    case h_1 =>
      obtain ⟨_, _, hs⟩ := Option.map_eq_some_iff.mp hs
      exact hs ▸ rfl
  case close acked =>
    obtain ⟨_, hs⟩ := Option.ite_none_right_eq_some.mp hs
    exact Option.some_inj.mp hs ▸ rfl
  case fail acked =>
    obtain ⟨_, hs⟩ := Option.ite_none_right_eq_some.mp hs
    exact Option.some_inj.mp hs ▸ rfl
  case readByte =>
    unfold readByte at hs
    split at hs
    case h_2 => contradiction
    case h_1 =>
      obtain ⟨_, _, hs⟩ := Option.bind_eq_some_iff.mp hs
      obtain ⟨_, _, hs⟩ := Option.bind_eq_some_iff.mp hs
      exact Option.some_inj.mp hs ▸ rfl
  case serve =>
    unfold serve at hs
    split at hs
    case h_2 => contradiction
    case h_1 => exact Option.some_inj.mp hs ▸ rfl
  case refuse =>
    unfold refuse at hs
    split at hs
    case h_3 => contradiction
    all_goals exact Option.some_inj.mp hs ▸ rfl
  case receive e =>
    unfold receive at hs
    split at hs
    case h_2 => contradiction
    case h_1 =>
      obtain ⟨_, _, hs⟩ := Option.bind_eq_some_iff.mp hs
      obtain ⟨_, _, hs⟩ := Option.bind_eq_some_iff.mp hs
      exact Option.some_inj.mp hs ▸ rfl

-- A stream is routed by its first line, without a byte of what follows it. The counter of a sender
-- which is done does not exceed what it wrote, nor what had arrived when the connection was aborted,
-- and it agrees with the receiver when the stream was read to its end.
structure Honest (config : LaneConfig) (l : Lane) : Prop where
  routed    : ∀ {text}, l.inbound = .routed text →
                l.conduit.received = config.greeting ∧ ∀ hello ∈ config.hello, text = hello.text
  bytesSent : l.bytesSent ≤ l.sender.written
  aborted   : ∀ {failed acked}, l.outbound = .closed failed acked → l.conduit.cut →
                ∀ a ∈ acked, l.bytesSent ≤ a ∧ a ≤ l.conduit.arrived
  agrees    : ∀ {acked}, l.outbound = .closed false acked → l.complete →
                l.bytesReceived = l.bytesSent

theorem Valid.honest {config : LaneConfig} (v : Valid config.greeting l) : Honest config l where
  routed    := by
    intro text hi
    have hread := v.read
    rw [hi] at hread
    obtain ⟨first, hh, hr, ht⟩ := hread
    refine ⟨hr, fun hello hc => ?_⟩
    have hc : config.hello = some hello := hc
    have hg : Utf8.encode hello.text ++ [newline] = first ++ [newline] := by
      rw [← hh, LaneConfig.greeting, hc]
      rfl
    rw [ht, ← (List.append_inj_left' hg rfl), Utf8.decodeLossy_encode]
  bytesSent := v.bytesSent_le
  aborted   := by
    intro failed acked ho
    have hrep := v.reported
    rw [ho] at hrep
    exact hrep.right.left
  agrees    := by
    intro acked ho h
    obtain ⟨failed, acked', ho', hr, hs⟩ := v.closed_of_complete h
    have hf : failed = false := by
      rw [ho] at ho'
      injection ho' with hf _
      exact hf.symm
    rw [hr, hs hf]

end Lane

namespace Traffic

def start (budget : Option ByteBudget) (now : Nat) : Traffic where
  budget := budget
  cancel := false
  now    := now

variable {linux : Bool} {configs : List LaneConfig} {now : Nat} {events : List (Nat × LaneEvent)}
  {t : Traffic} {lanes : List Lane}

theorem run_valid {budget : Option ByteBudget}
    (run : (Lane.step linux).interleave.run (start budget now, configs.map (·.start now)) events =
      some (t, lanes)) :
    List.Forall₂ (fun config l => Lane.Valid config.greeting l) configs lanes := by
  refine (System.run_forall₂ (J := fun _ => True)
    (K := fun config l => Lane.Valid (LaneConfig.greeting config) l)
    (fun h => ⟨fun _ => trivial, fun _ v => v.step h⟩) trivial ?_ run).right
  rw [List.forall₂_map_right_iff]
  exact List.forall₂_same.mpr fun config _ => .start

-- A byte budget is delivered: no byte is counted which was not written, and when all send loops
-- stopped at the spent budget and all receive loops got to the end of their streams, both sides have
-- counted all of it.
theorem delivered_run {total : UInt64}
    (run : (Lane.step linux).interleave.run
      (start (some (.new total)) now, configs.map (·.start now)) events = some (t, lanes)) :
    (lanes.map (·.bytesReceived)).sum ≤ (lanes.map (·.sender.written)).sum ∧
    (lanes.map (·.sender.written)).sum ≤ total.toNat ∧
    (configs ≠ [] → (∀ l ∈ lanes, l.sender.point = .spent ∧ l.complete) →
      (lanes.map (·.bytesSent)).sum = total.toNat ∧
      (lanes.map (·.bytesReceived)).sum = total.toNat) := by
  have hv := run_valid run
  have valid : ∀ l ∈ lanes, ∃ hello, l.Valid hello := by
    intro l hl
    obtain ⟨i, hi, hl⟩ := List.mem_iff_getElem.mp hl
    have hlen := hv.length_eq
    subst hl
    exact ⟨_, (List.forall₂_iff_get.mp hv).right i (by omega) hi⟩
  have hle : (lanes.map (·.bytesReceived)).sum ≤ (lanes.map (·.sender.written)).sum := by
    refine List.sum_le_sum fun l hl => ?_
    obtain ⟨_, v⟩ := valid l hl
    exact v.bytesReceived_le
  -- The send loops of the streams are a run of the loops which share the budget.
  have ⟨events', run'⟩ : ∃ events', SendLoop.step.interleave.run
      (.new total, (configs.map (·.start now)).map (·.sender)) events' =
        some (t.budget.getD (.new 0), lanes.map (·.sender)) :=
    (System.run_project (J := fun t => t.budget.isSome) (p := fun t => t.budget.getD (.new 0))
      Lane.step_projects rfl run).right
  have fresh : ∀ l ∈ (configs.map (·.start now)).map (·.sender),
      l.written = 0 ∧ l.outstanding = 0 ∧ ¬l.Resigned := by
    simp [LaneConfig.start, Sender.start_fresh]
  have ⟨hN, hspent⟩ := SendLoop.written_run fresh run'
  have hmap : (lanes.map (·.sender)).map (·.written) = lanes.map (·.sender.written) := List.map_map
  rw [hmap] at hN hspent
  refine ⟨hle, hN, fun hne done => ?_⟩
  have hall := hspent (by simpa using hne) (by simpa using fun l hl => (done l hl).left)
  -- No counter has wrapped around.
  have hlt : ∀ l ∈ lanes, l.sender.written % 2 ^ 64 = l.sender.written := by
    intro l hl
    have : l.sender.written ≤ (lanes.map (·.sender.written)).sum :=
      List.single_le_sum (by simp) _ (List.mem_map_of_mem hl)
    have : total.toNat < 2 ^ 64 := total.toNat_lt
    exact Nat.mod_eq_of_lt (by omega)
  have counted : ∀ l ∈ lanes, l.bytesSent = l.sender.written ∧
      l.bytesReceived = l.sender.written := by
    intro l hl
    obtain ⟨_, v⟩ := valid l hl
    obtain ⟨failed, acked, ho, hr, hs⟩ := v.closed_of_complete (done l hl).right
    rw [hlt l hl] at hr hs
    refine ⟨hs ?_, hr⟩
    cases failed
    case false => rfl
    case true  =>
      have := v.failed ho
      simp [SendLoop.exit, (done l hl).left] at this
  have hsent : lanes.map (·.bytesSent) = lanes.map (·.sender.written) :=
    List.map_congr_left fun l hl => (counted l hl).left
  have hreceived : lanes.map (·.bytesReceived) = lanes.map (·.sender.written) :=
    List.map_congr_left fun l hl => (counted l hl).right
  rw [hsent, hreceived]
  exact ⟨hall, hall⟩

-- Both ends of a stream agree on what went through it, in timed tests and in those with a budget.
theorem honest_run {budget : Option ByteBudget}
    (run : (Lane.step linux).interleave.run (start budget now, configs.map (·.start now)) events =
      some (t, lanes)) :
    List.Forall₂ Lane.Honest configs lanes :=
  (run_valid run).imp fun _ _ v => v.honest

-- Two streams share six bytes. The first one is on a shared port, and its last write is short.
def greeting : Line MAX_LINE_LENGTH where
  text       := ['h']
  no_newline := by decide
  fits       := by decide

def pair : List LaneConfig :=
  [⟨.sendData { bufferSize := 4 } false none, .receiveData { bufferSize := 4 } 0, some greeting⟩,
    ⟨.sendQuicData false none, .receiveQuicData, none⟩]

def turn (i : Nat) (es : List LaneEvent) : List (Nat × LaneEvent) :=
  es.map (i, ·)

def claim : List LaneEvent :=
  [.send .claim, .send .load, .send (.attempt false)]

def paced : List LaneEvent :=
  [.send .refund, .send (.paced false)]

def exchange : List (Nat × LaneEvent) :=
  [
    turn 0 [.greet 1, .greet 1, .arrive 2], turn 0 claim, turn 0 [.write [1, 2, 3], .arrive 1],
    turn 0 [.readByte, .readByte, .serve, .receive (.read (.data 1))],
    turn 1 claim, turn 1 [.write [4, 5]],
    turn 0 paced, turn 0 claim, turn 0 [.write [6]], turn 0 paced, turn 0 claim,
    turn 0 [.close (some 3), .arrive 3, .receive (.read (.data 3)), .receive (.read .eof)],
    turn 1 paced, turn 1 claim,
    turn 1 [.close none, .arrive 2, .receive (.read (.data 2)), .receive (.read .eof)]
  ].flatten

theorem run_exchange :
    ∃ t lanes, (Lane.step true).interleave.run
        (start (some (.new 6)) 0, pair.map (·.start 0)) exchange = some (t, lanes) ∧
      ∀ l ∈ lanes, l.sender.point = .spent ∧ l.complete := by
  have hm : ((Lane.step true).interleave.run
      (start (some (.new 6)) 0, pair.map (·.start 0)) exchange).map
      (·.2.map fun l => (l.sender.point, l.complete)) = some [(.spent, true), (.spent, true)] := by
    decide +kernel
  obtain ⟨⟨t, lanes⟩, run, hp⟩ := Option.map_eq_some_iff.mp hm
  refine ⟨t, lanes, run, fun l hl => ?_⟩
  have hl : (l.sender.point, l.complete) ∈ lanes.map fun l => (l.sender.point, l.complete) :=
    List.mem_map_of_mem hl
  simpa [hp] using hl

theorem delivered_run_exchange :
    ∃ t lanes, (Lane.step true).interleave.run
        (start (some (.new 6)) 0, pair.map (·.start 0)) exchange = some (t, lanes) ∧
      (lanes.map (·.bytesSent)).sum = 6 ∧ (lanes.map (·.bytesReceived)).sum = 6 :=
  have ⟨t, lanes, run, done⟩ := run_exchange
  ⟨t, lanes, run, (delivered_run run).right.right (by simp [pair]) done⟩

theorem honest_run_exchange :
    ∃ t lanes, (Lane.step true).interleave.run
        (start (some (.new 6)) 0, pair.map (·.start 0)) exchange = some (t, lanes) ∧
      List.Forall₂ Lane.Honest pair lanes :=
  have ⟨t, lanes, run, _⟩ := run_exchange
  ⟨t, lanes, run, honest_run run⟩

end Traffic
