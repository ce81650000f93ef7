import Xfr.Control.Channel
import Xfr.Report.Turn
import Xfr.Report.Wire

open Utf8 (Text)

-- How a test is wired to its report: the loops which do not exist in a test keep no sender, and the
-- channel of their completion is closed from the start.
namespace Wiring

variable (protocol : Protocol) (direction : Protocol.Direction) (byteBudget : Option Nat)

def endOnServerSend : Bool :=
  byteBudget.isSome ∧ (direction = .download ∨ direction = .bidir)

def receiversReport : Bool :=
  byteBudget.isSome ∧ protocol ≠ .udp

def config (id : Text) (duration : Nat) : ReportLoopConfig where
  id              := id
  protocol        := protocol
  duration        := duration
  direction       := direction
  byteBudgetTest  := byteBudget.isSome
  endOnServerSend := endOnServerSend direction byteBudget

def report (now : Nat) (streams : List StreamStats) (codec : ControlWriter) : Report :=
  .init now streams codec (!receiversReport protocol byteBudget)
    (!endOnServerSend direction byteBudget)

end Wiring

def Phase.ending? : Phase → Option (Ending × Nat)
  | ended ending endedAt _ _ => some (ending, endedAt)
  | _                        => none

namespace Report

-- The loop only ends by itself once late datagrams had the time to arrive.
def Graceful (grace : Nat) (s : Report) : Prop :=
  ∀ ending endedAt, s.phase.ending? = some (ending, endedAt) →
    ending = .cancelled ∨ ending = .deadline ∨ ending = .readerExited ∨
    ∀ finishedAt ∈ s.finishedAt, finishedAt + grace ≤ endedAt

-- The end of the receive loops is not taken for the end of the drain.
def drains (s : Report) : Nat × Event → Bool
  | (now, .receiveDone) =>
    match s.phase with
    | .select l => l.drainUntil.all (· ≤ now)
    | _         => true
  | _ => true

end Report

-- The drain of a loop lasts from the first `Finish` until the grace is over.
structure Loop.Draining (grace : Nat) (l : Loop) (finishedAt : Option Nat) : Prop where
  drainUntil     : l.drainUntil = finishedAt.map (· + grace)
  clientFinished : l.clientFinished = false

namespace Loop

variable {config : ReportLoopConfig} {l : Loop}

-- In an upload the end of the drain is the end of the loop.
theorem drain_upload (hd : config.direction = .upload) (now : Nat) :
    ∃ l', l.drain config now = .leave .drainExpired l' := by
  simp [drain, transferComplete, hd, budgetTransferComplete]

theorem receiveDone_upload (hd : config.direction = .upload) (hu : l.drainUntil.isSome) (now : Nat) :
    ∃ l', l.receiveDone config now = .leave .received l' := by
  simp [receiveDone, transferComplete, hd, hu, budgetTransferComplete]

-- The first `Finish` starts the drain, which then goes on.
theorem Draining.finish {finishedAt : Option Nat} {grace : Nat} (d : l.Draining grace finishedAt)
    (hc : config.byteBudgetTest) (hg : finishDrainGrace config.protocol = grace)
    (now : Nat) : ∃ l', l.command config now (some .finish) = .next l' ∧
      l'.Draining grace (finishedAt.or (some now)) := by
  have hd := d.drainUntil
  have hf := d.clientFinished
  cases finishedAt
  case none =>
    refine ⟨{ l with drainUntil := some (now + grace) }, ?_, ⟨rfl, hf⟩⟩
    simp [command, hc, hd, hf, hg]
  case some => exact ⟨l, by simp [command, hd], d⟩

end Loop

namespace Report

def Draining (grace : Nat) (s : Report) : Prop :=
  match s.phase with
  | .head l | .select l => l.Draining grace s.finishedAt
  | _                   => True

variable {aead : Aead} {serialize : ControlMessage → Option Text} {config : ReportLoopConfig}
variable {s s' : Report} {l l' : Loop} {id : Text} {duration bytes grace : Nat}

theorem graceful_of_none (h : s.phase.ending? = none) : s.Graceful grace := by
  simp [Graceful, h]

theorem terminal_isSome (serializes : ∀ message, (serialize message).isSome) :
    (s.terminal serialize config l).isSome := by
  unfold terminal
  split
  case isTrue  => simp [serializes]
  case isFalse => split <;> simp [serializes]

theorem draining_leave {ending : Ending} : (s.leave serialize config ending l).Draining grace := by
  unfold leave
  cases s.terminal serialize config l <;> trivial

theorem graceful_leave_iff (serializes : ∀ message, (serialize message).isSome) {ending : Ending} :
    (s.leave serialize config ending l).Graceful grace ↔
      ending = .cancelled ∨ ending = .deadline ∨ ending = .readerExited ∨
      ∀ finishedAt ∈ s.finishedAt, finishedAt + grace ≤ s.now := by
  have ⟨_, ht⟩ : ∃ t, s.terminal serialize config l = some t :=
    Option.isSome_iff_exists.mp (terminal_isSome serializes)
  unfold leave
  rw [ht]
  simp [Graceful, Phase.ending?]

theorem graceful_head (serializes : ∀ message, (serialize message).isSome)
    (d : l.Draining grace s.finishedAt) :
    (s.head aead serialize config l).Draining grace ∧
    (s.head aead serialize config l).Graceful grace := by
  unfold head
  split
  case isTrue =>
    exact ⟨draining_leave, (graceful_leave_iff serializes).mpr (by simp)⟩
  case isFalse =>
    split
    case h_2 => exact ⟨d, graceful_of_none rfl⟩
    case h_1 =>
      split
      case h_1 => exact ⟨trivial, graceful_of_none rfl⟩
      case h_2 =>
        split
        case h_1 => exact ⟨trivial, graceful_of_none rfl⟩
        case h_2 he =>
          have ⟨_, _, _, hs⟩ := encode_eq_ok_iff.mp he
          subst hs
          exact ⟨⟨d.drainUntil, d.clientFinished⟩, graceful_of_none rfl⟩

theorem graceful_command (serializes : ∀ message, (serialize message).isSome)
    (hc : config.byteBudgetTest) (hg : finishDrainGrace config.protocol = grace)
    (d : l.Draining grace s.finishedAt) (cmd : Option ControlCommand) :
    (s.command serialize config l cmd).Draining grace ∧
    (s.command serialize config l cmd).Graceful grace := by
  unfold command
  match cmd with
  | some .finish =>
    have ⟨l', hl, d⟩ := d.finish hc hg s.now
    rw [hl]
    exact ⟨d, graceful_of_none rfl⟩
  | some .cancel =>
    exact ⟨draining_leave, (graceful_leave_iff serializes).mpr (by simp)⟩
  | some .pause  => exact ⟨⟨d.drainUntil, d.clientFinished⟩, graceful_of_none rfl⟩
  | some .resume =>
    cases hp : l.pauseStart <;> simp only [Loop.command, hp]
    case none   => exact ⟨d, graceful_of_none rfl⟩
    case some _ => exact ⟨⟨d.drainUntil, d.clientFinished⟩, graceful_of_none rfl⟩
  | none =>
    exact ⟨draining_leave, (graceful_leave_iff serializes).mpr (by simp)⟩

-- In an upload over UDP the loop ends too early exactly where the closed channel of the receive
-- loops wins against the drain.
theorem graceful_loopStep (serializes : ∀ message, (serialize message).isSome)
    (wired : config = Wiring.config .udp .upload (some bytes) id duration)
    (hgrace : finishDrainGrace config.protocol = grace) {e : Event} (hp : s.phase = .select l)
    (d : l.Draining grace s.finishedAt)
    (h : s.loopStep serialize config l e = some s') :
    s'.Draining grace ∧ (s'.Graceful grace ↔ s.drains (s.now, e)) := by
  have hu : config.protocol = .udp := by rw [wired]; rfl
  have hc : config.byteBudgetTest = true := by rw [wired]; rfl
  have hs : config.endOnServerSend = false := by rw [wired]; rfl
  have hdir : config.direction = .upload := by rw [wired]; rfl
  have hd := d.drainUntil
  cases e <;> simp only [loopStep, Option.ite_none_right_eq_some, reduceCtorEq] at h
  case deadline =>
    refine Option.some_inj.mp h.right ▸ ⟨draining_leave, (graceful_leave_iff serializes).trans ?_⟩
    simp [drains]
  case drain =>
    obtain ⟨hn, h⟩ := h
    obtain ⟨l', hl⟩ := Loop.drain_upload (l := l) hdir s.now
    rw [hl, settle] at h
    refine Option.some_inj.mp h ▸ ⟨draining_leave, (graceful_leave_iff serializes).trans ?_⟩
    cases hf : s.finishedAt
    case none   => simp [hd, hf] at hn
    case some _ => simpa [hd, hf, drains] using hn
  case receiveDone =>
    obtain ⟨hn, h⟩ := h
    have hn : l.drainUntil.isSome := by simpa [hu] using hn.right
    obtain ⟨l', hl⟩ := Loop.receiveDone_upload hdir hn s.now
    rw [hl, settle] at h
    refine Option.some_inj.mp h ▸ ⟨draining_leave, (graceful_leave_iff serializes).trans ?_⟩
    cases hf : s.finishedAt <;> simp [hd, hf, hp, drains]
  case sendingDone => simp [hs] at h
  case tick readings =>
    have h := Option.some_inj.mp h.right
    subst h
    unfold tick
    split
    case isTrue =>
      exact ⟨draining_leave, (graceful_leave_iff serializes).trans (by simp [drains])⟩
    case isFalse => exact ⟨⟨hd, d.clientFinished⟩, iff_of_true (graceful_of_none rfl) rfl⟩
  case command cmd =>
    obtain ⟨hd, hg⟩ := graceful_command (s := s) serializes hc hgrace d cmd
    exact Option.some_inj.mp h ▸ ⟨hd, by simp [hg, drains]⟩
  case written accepted =>
    split at h
    case h_2 => contradiction
    case h_1 =>
      obtain ⟨_, h⟩ := Option.ite_none_right_eq_some.mp h
      have h := Option.some_inj.mp h
      subst h
      rcases accepted with _ | _ | n
      case none      => exact ⟨trivial, iff_of_true (graceful_of_none rfl) rfl⟩
      case some.zero => exact ⟨trivial, iff_of_true (graceful_of_none rfl) rfl⟩
      case some.succ =>
        exact ⟨⟨hd, d.clientFinished⟩, iff_of_true (graceful_of_none rfl) rfl⟩

-- What ended stays as it ended.
theorem graceful_ended {ending : Ending} {endedAt : Nat} {r r' : Reporting} {f f' : Option Flush}
    {e : Nat × Event} (hp : s.phase = .ended ending endedAt r f)
    (hp' : s'.phase = .ended ending endedAt r' f') (hf : s'.finishedAt = s.finishedAt) :
    s'.Draining grace ∧ (s'.Graceful grace ↔ s.Graceful grace ∧ s.drains e) := by
  have hd : s.drains e := by
    unfold drains
    split <;> simp [hp]
  simp [Draining, Graceful, Phase.ending?, hp, hp', hf, hd]

theorem graceful_step (serializes : ∀ message, (serialize message).isSome)
    (wired : config = Wiring.config .udp .upload (some bytes) id duration)
    (hgrace : finishDrainGrace config.protocol = grace) {e : Nat × Event}
    (d : s.Draining grace) (h : step aead serialize config s e = some s') :
    s'.Draining grace ∧ (s'.Graceful grace ↔ s.Graceful grace ∧ s.drains e) := by
  have ⟨now, e⟩ := e
  have ⟨_, h⟩ := step_cases h
  cases h
  case closeReceive => exact ⟨d, by simp [Graceful, drains]⟩
  case closeSend    => exact ⟨d, by simp [Graceful, drains]⟩
  case head l hp =>
    have hp : s.phase = .head l := hp
    have d : l.Draining grace s.finishedAt := by simpa [Draining, hp] using d
    have ⟨hd, hg⟩ : Draining grace (head aead serialize config { s with now } l) ∧
        Graceful grace (head aead serialize config { s with now } l) :=
      graceful_head serializes d
    exact ⟨hd, iff_of_true hg ⟨graceful_of_none (by rw [hp]; rfl), rfl⟩⟩
  case loop l hp h =>
    have hp : s.phase = .select l := hp
    have d : l.Draining grace s.finishedAt := by simpa [Draining, hp] using d
    have ⟨hd, hg⟩ := graceful_loopStep (s := { s with now }) serializes wired hgrace hp d h
    have hs : s.Graceful grace := graceful_of_none (by rw [hp]; rfl)
    exact ⟨hd, hg.trans (and_iff_right hs).symm⟩
  case finish ending endedAt r result hp =>
    unfold finish
    split
    case h_1 => exact graceful_ended hp hp rfl
    case h_2 => exact graceful_ended hp rfl rfl
  case flush ending endedAt r f hp h =>
    have hf := flushStep_flushed h
    have ⟨_, hp'⟩ := hf.phase
    exact graceful_ended hp hp' hf.finishedAt

-- After the client's `Finish`, an upload with a byte budget over UDP goes on for the grace in exactly
-- those runs in which the closed channel of the receive loops never wins against the drain.
theorem graceful_iff (aead : Aead) {serialize : ControlMessage → Option Text}
    (serializes : ∀ message, (serialize message).isSome) {id : Text} {duration bytes now : Nat}
    {streams : List StreamStats} {codec : ControlWriter} {events : List (Nat × Event)} {s : Report}
    (run : (step aead serialize (Wiring.config .udp .upload (some bytes) id duration)).run
      (Wiring.report .udp .upload (some bytes) now streams codec) events = some s) :
    s.Graceful FINISH_DRAIN_GRACE_UDP ↔
      ((step aead serialize (Wiring.config .udp .upload (some bytes) id duration)).guard drains).run
        (Wiring.report .udp .upload (some bytes) now streams codec) events = some s := by
  exact System.run_guard_iff (I := Draining FINISH_DRAIN_GRACE_UDP)
    (graceful_step serializes rfl rfl · ·) ⟨rfl, rfl⟩ (graceful_of_none rfl) run

-- An upload of 1000 bytes over one stream, of which 400 have arrived when the client sends `Finish`.
def budgetReport : Report :=
  Wiring.report .udp .upload (some 1000) 0 [.new 0 0] .plaintext

def budgetConfig : ReportLoopConfig :=
  Wiring.config .udp .upload (some 1000) ['a'] 0

def arrived (now : Nat) (received : UInt64) : Reading :=
  let counters : Counters := {
    bytesSent := 0, bytesSent_le := Nat.zero_le _,
    bytesReceived := received.toNat, bytesReceived_le := U64.le_max received
  }
  ⟨now, counters, counters, 0, ⟨0, 0⟩, none⟩

def finishInFlight : List (Nat × Event) :=
  [(0, .head), (900, .tick [arrived 900 400]), (900, .head), (1000, .command (some .finish)),
    (1000, .head)]

-- The rest arrives in the drain.
theorem graceful_iff_drained :
    ∃ s, (step Channel.transparent (fun _ => some ['i']) budgetConfig).run budgetReport
        (finishInFlight ++ [(100001000, .tick [arrived 100001000 1000]), (100001000, .head),
          (250001000, .drain)]) = some s ∧
      s.streams.map (·.lastBytes) = [1000] ∧ s.Graceful FINISH_DRAIN_GRACE_UDP := by
  let late : List (Nat × Event) :=
    [(100001000, .tick [arrived 100001000 1000]), (100001000, .head), (250001000, .drain)]
  have hm : (((step Channel.transparent (fun _ => some ['i']) budgetConfig).guard drains).run
      budgetReport (finishInFlight ++ late)).map (·.streams.map (·.lastBytes)) = some [1000] := rfl
  have ⟨s, guarded, hs⟩ := Option.map_eq_some_iff.mp hm
  have run := System.run_of_guard guarded
  exact ⟨s, run, hs, (graceful_iff _ (fun _ => rfl) run).mpr guarded⟩

-- The channel of the receive loops is closed from the start, and ends the drain one nanosecond
-- after the client's `Finish`, before the rest arrives.
theorem closed_channel_ends_drain :
    ∃ s, (step Channel.transparent (fun _ => some ['i']) budgetConfig).run budgetReport
        (finishInFlight ++ [(1001, .receiveDone)]) = some s ∧
      s.streams.map (·.lastBytes) = [400] ∧ ¬s.Graceful FINISH_DRAIN_GRACE_UDP := by
  have hm : ((step Channel.transparent (fun _ => some ['i']) budgetConfig).run budgetReport
      (finishInFlight ++ [(1001, .receiveDone)])).map
      (fun s => (s.phase.ending?, s.finishedAt, s.streams.map (·.lastBytes))) =
      some (some (.received, 1001), some 1000, [400]) := rfl
  have ⟨s, run, hs⟩ := Option.map_eq_some_iff.mp hm
  simp only [Prod.mk.injEq] at hs
  have ⟨hp, hf, hb⟩ := hs
  exact ⟨s, run, hb, by simp [Graceful, hp, hf, FINISH_DRAIN_GRACE_UDP]⟩

end Report
