import Xfr.Report.Basic

open Utf8 (Text)

namespace Phase

def loop? : Phase → Option Loop
  | head l | select l => some l
  | _                 => none

end Phase

-- What one turn of the loop can do with its variables: at the head, or in a branch of the select.
inductive Loop.Turn (config : ReportLoopConfig) (now : Nat) (l : Loop) : Event → Outcome → Prop
  | head {current pending codec} :
    l.timedOut config now = false →
    Turn config now l .head (.next { l with current, pending, codec })
  | timedOut {e} :
    l.timedOut config now → (e = .head ∨ ∃ readings, e = .tick readings) →
    Turn config now l e (.leave .deadline l)
  | deadline :
    (l.durationUntil config).any (· ≤ now) → Turn config now l .deadline (.leave .deadline l)
  | drain :
    l.drainUntil.any (· ≤ now) → Turn config now l .drain (l.drain config now)
  | receiveDone :
    (l.drainUntil.isSome ∨ (config.byteBudgetTest ∧ config.protocol ≠ .udp ∧ l.receivedAt.isNone)) →
    Turn config now l .receiveDone (l.receiveDone config now)
  | sendingDone :
    config.endOnServerSend → l.serverSendDone = false →
    Turn config now l .sendingDone (l.sendingDone config now)
  | tick {readings pending} :
    l.timedOut config now = false → Turn config now l (.tick readings) (.next { l with pending })
  | command {cmd} : Turn config now l (.command cmd) (l.command config now cmd)
  | written {accepted current} : Turn config now l (.written accepted) (.next { l with current })

-- Why a turn is the last one.
theorem Loop.Turn.leave {config : ReportLoopConfig} {now : Nat} {l l' : Loop} {e : Event}
    {ending : Ending} (h : l.Turn config now e (.leave ending l')) :
    (ending = .deadline ∧ (l.timedOut config now ∨ (l.durationUntil config).any (· ≤ now))) ∨
    (ending = .cancelled ∧ l'.cancelled) ∨ ending = .readerExited ∨
    (ending ≠ .deadline ∧ l'.transferComplete config ∧ l'.cancelled = l.cancelled) := by
  generalize ho : Outcome.leave ending l' = o at h
  cases h
  case head         => cases ho
  case tick         => cases ho
  case written      => cases ho
  case timedOut h _ => cases ho; exact .inl ⟨rfl, .inl h⟩
  case deadline h   => cases ho; exact .inl ⟨rfl, .inr h⟩
  case drain =>
    unfold Loop.drain at ho
    dsimp only at ho
    split at ho <;> cases ho
    case isTrue hc => exact .inr <| .inr <| .inr ⟨nofun, hc, rfl⟩
  case sendingDone =>
    unfold Loop.sendingDone at ho
    dsimp only at ho
    split at ho <;> cases ho
    case isTrue hc => exact .inr <| .inr <| .inr ⟨nofun, hc, rfl⟩
  case receiveDone =>
    unfold Loop.receiveDone at ho
    dsimp only at ho
    split at ho
    case isFalse => cases ho
    case isTrue  =>
      split at ho <;> cases ho
      case isTrue hc => exact .inr <| .inr <| .inr ⟨nofun, hc, rfl⟩
  case command =>
    unfold Loop.command at ho
    split at ho
    case h_1 => split at ho <;> cases ho
    case h_2 => cases ho; exact .inr <| .inl ⟨rfl, rfl⟩
    case h_3 => cases ho
    case h_4 => split at ho <;> cases ho
    case h_5 => cases ho; exact .inr <| .inr <| .inl rfl

theorem Loop.Turn.next {config : ReportLoopConfig} {now : Nat} {l l' : Loop} {e : Event}
    (h : l.Turn config now e (.next l')) : l'.cancelled = l.cancelled := by
  generalize ho : Outcome.next l' = o at h
  cases h
  case head     => cases ho; rfl
  case tick     => cases ho; rfl
  case written  => cases ho; rfl
  case timedOut => cases ho
  case deadline => cases ho
  case drain =>
    unfold Loop.drain at ho
    dsimp only at ho
    split at ho <;> cases ho
    rfl
  case sendingDone =>
    unfold Loop.sendingDone at ho
    dsimp only at ho
    split at ho <;> cases ho
    rfl
  case receiveDone =>
    unfold Loop.receiveDone at ho
    dsimp only at ho
    split at ho
    case isFalse => cases ho; rfl
    case isTrue  =>
      split at ho <;> cases ho
      rfl
  case command =>
    unfold Loop.command at ho
    split at ho
    case h_1 => split at ho <;> cases ho <;> rfl
    case h_2 => cases ho
    case h_3 => cases ho; rfl
    case h_4 => split at ho <;> cases ho <;> rfl
    case h_5 => cases ho

-- A report whose loop was left hands over what the loop had at the end.
structure Reporting.Of (config : ReportLoopConfig) (l : Loop) (r : Reporting) : Prop where
  start       : r.start = l.start
  pausedTotal : r.pausedTotal = l.pausedTotal
  pauseStart  : r.pauseStart = l.pauseStart
  transferEnd : r.transferEnd = Report.transferEnd config l

-- Where a turn of the loop leads to, unless something fails.
def Phase.Follows (config : ReportLoopConfig) (now : Nat) (e : Event) (phase : Phase) : Outcome → Prop
  | .next l         => match e with
                       | .head => phase = .select l
                       | _     => phase = .head l
  | .leave ending l => ∃ r, phase = .ended ending now r none ∧ r.Of config l

theorem Phase.Follows.next {config : ReportLoopConfig} {now : Nat} {e : Event} {phase : Phase}
    {l : Loop} (h : phase.Follows config now e (.next l)) :
    (e = .head ∧ phase = .select l) ∨ (e ≠ .head ∧ phase = .head l) := by
  cases e
  case head => exact .inl ⟨rfl, h⟩
  all_goals exact .inr ⟨nofun, h⟩

namespace Report

variable {aead : Aead} {serialize : ControlMessage → Option Text} {config : ReportLoopConfig}
variable {s s' : Report} {l : Loop} {e : Event} {o : Outcome}

theorem leave_follows {ending : Ending} :
    (∃ failure, (s.leave serialize config ending l).phase = .failed failure) ∨
    (s.leave serialize config ending l).phase.Follows config s.now e (.leave ending l) := by
  unfold leave
  split
  case h_1 => exact .inl ⟨_, rfl⟩
  case h_2 => exact .inr ⟨_, rfl, ⟨rfl, rfl, rfl, rfl⟩⟩

theorem settle_follows (e : Event) (he : e ≠ .head) :
    (∃ failure, (s.settle serialize config o).phase = .failed failure) ∨
    (s.settle serialize config o).phase.Follows config s.now e o := by
  cases o
  case leave => exact leave_follows
  case next l =>
    cases e
    case head => contradiction
    all_goals exact .inr rfl

@[simp]
theorem leave_now {ending : Ending} : (s.leave serialize config ending l).now = s.now := by
  unfold leave
  split <;> rfl

@[simp]
theorem settle_now : (s.settle serialize config o).now = s.now := by
  cases o
  case next  => rfl
  case leave => exact leave_now

theorem head_turn :
    (∃ failure, (s.head aead serialize config l).phase = .failed failure) ∨
    ∃ o, l.Turn config s.now .head o ∧
      (s.head aead serialize config l).phase.Follows config s.now .head o := by
  unfold head
  split
  case isTrue ht  => exact leave_follows.imp_right fun h => ⟨_, .timedOut ht (.inl rfl), h⟩
  case isFalse ht =>
    have ht : l.timedOut config s.now = false := by simpa using ht
    split
    case h_2 => exact .inr ⟨_, .head ht, rfl⟩
    case h_1 =>
      split
      case h_1 => exact .inl ⟨_, rfl⟩
      case h_2 =>
        split
        case h_1 => exact .inl ⟨_, rfl⟩
        case h_2 => exact .inr ⟨_, .head ht, rfl⟩

theorem loopStep_turn (h : s.loopStep serialize config l e = some s') :
    (∃ failure, s'.phase = .failed failure) ∨
    ∃ o, l.Turn config s.now e o ∧ s'.phase.Follows config s.now e o := by
  unfold loopStep at h
  split at h
  case h_8 => contradiction
  case h_6 =>
    obtain rfl := Option.some_inj.mp h
    exact (settle_follows (.command _) nofun).imp_right fun h => ⟨_, .command, h⟩
  case h_1 =>
    split at h
    case isFalse   => contradiction
    case isTrue hd =>
      obtain rfl := Option.some_inj.mp h
      exact leave_follows.imp_right fun h => ⟨_, .deadline hd, h⟩
  case h_2 =>
    split at h
    case isFalse   => contradiction
    case isTrue hd =>
      obtain rfl := Option.some_inj.mp h
      exact (settle_follows .drain nofun).imp_right fun h => ⟨_, .drain hd, h⟩
  case h_3 =>
    split at h
    case isFalse   => contradiction
    case isTrue hd =>
      obtain rfl := Option.some_inj.mp h
      exact (settle_follows .receiveDone nofun).imp_right fun h => ⟨_, .receiveDone hd.right, h⟩
  case h_4 =>
    split at h
    case isFalse   => contradiction
    case isTrue hd =>
      obtain rfl := Option.some_inj.mp h
      have hs : l.serverSendDone = false := by simpa using hd.right.right
      exact (settle_follows .sendingDone nofun).imp_right fun h => ⟨_, .sendingDone hd.right.left hs, h⟩
  case h_5 =>
    split at h
    case isFalse => contradiction
    case isTrue  =>
      obtain rfl := Option.some_inj.mp h
      unfold tick
      split
      case isTrue ht  =>
        exact leave_follows.imp_right fun h => ⟨_, .timedOut ht (.inr ⟨_, rfl⟩), h⟩
      case isFalse ht => exact .inr ⟨_, .tick (by simpa using ht), rfl⟩
  case h_7 =>
    split at h
    case h_2       => contradiction
    case h_1 frame =>
      split at h
      case isFalse => contradiction
      case isTrue  =>
        obtain rfl := Option.some_inj.mp h
        unfold written
        split
        case h_1 => exact .inl ⟨_, rfl⟩
        case h_2 => exact .inl ⟨_, rfl⟩
        case h_3 => exact .inr ⟨_, .written, rfl⟩

-- The inversion rule for a report whose loop is going.
theorem step_turn (h : Step aead serialize config s e s') (hl : s.phase.loop? = some l) :
    (s'.phase = s.phase ∧ (e = .closeReceive ∨ e = .closeSend)) ∨
    (∃ failure, s'.phase = .failed failure) ∨
    ∃ o, l.Turn config s.now e o ∧ s'.phase.Follows config s.now e o := by
  cases h
  case closeReceive => exact .inl ⟨rfl, .inl rfl⟩
  case closeSend    => exact .inl ⟨rfl, .inr rfl⟩
  case head l' hp   =>
    obtain rfl : l' = l := by simpa [hp, Phase.loop?] using hl
    exact .inr head_turn
  case loop l' hp h =>
    obtain rfl : l' = l := by simpa [hp, Phase.loop?] using hl
    exact .inr (loopStep_turn h)
  case finish hp => simp [hp, Phase.loop?] at hl
  case flush hp _ => simp [hp, Phase.loop?] at hl

theorem encode_frame {codec codec' : ControlWriter} {text : Text} {frame : Frame}
    (h : s.encode aead codec text = .ok (frame, codec', s')) :
    s'.now = s.now ∧ s'.finishedAt = s.finishedAt := by
  unfold encode at h
  split at h
  case h_1 =>
    cases h
    exact ⟨rfl, rfl⟩
  case h_2 => contradiction

theorem head_now : (s.head aead serialize config l).now = s.now := by
  unfold head
  split
  case isTrue  => exact leave_now
  case isFalse =>
    split
    case h_2 => rfl
    case h_1 =>
      split
      case h_1 => rfl
      case h_2 =>
        split
        case h_1   => rfl
        case h_2 h =>
          have hn := (encode_frame h).left
          exact hn

theorem tick_now {readings : List Reading} : (s.tick serialize config l readings).now = s.now := by
  unfold tick
  split
  case isTrue  => exact leave_now
  case isFalse => rfl

theorem loopStep_now (h : s.loopStep serialize config l e = some s') : s'.now = s.now := by
  unfold loopStep at h
  split at h
  case h_6 => exact Option.some_inj.mp h ▸ settle_now
  case h_8 => contradiction
  case h_7 =>
    split at h
    case h_2 => contradiction
    case h_1 =>
      split at h
      case isFalse => contradiction
      case isTrue  =>
        obtain rfl := Option.some_inj.mp h
        unfold written
        split <;> rfl
  all_goals
    split at h
    case isFalse => contradiction
    case isTrue  =>
      obtain rfl := Option.some_inj.mp h
      first | exact leave_now | exact settle_now | exact tick_now

-- Writing the terminal messages leaves alone what is reported.
structure Flushed (s : Report) (ending : Ending) (endedAt : Nat) (r : Reporting) (s' : Report) :
    Prop where
  now        : s'.now = s.now
  finishedAt : s'.finishedAt = s.finishedAt
  phase      : ∃ f, s'.phase = .ended ending endedAt r f

theorem flushEncode_frame {f : Flush} {f' : Option Flush}
    (h : s.flushEncode aead f = some (f', s')) :
    s'.now = s.now ∧ s'.finishedAt = s.finishedAt := by
  unfold flushEncode at h
  split at h
  case h_2 => contradiction
  case h_1 =>
    split at h
    case h_1    =>
      cases h
      exact ⟨rfl, rfl⟩
    case h_2 he =>
      have hf := encode_frame he
      cases h
      exact hf

theorem flushWrite_frame {f : Flush} {frame : Frame} {accepted : Option Nat} :
    (s.flushWrite f frame accepted).2.now = s.now ∧
      (s.flushWrite f frame accepted).2.finishedAt = s.finishedAt := by
  unfold flushWrite
  split <;> exact ⟨rfl, rfl⟩

theorem flushStep_flushed {ending : Ending} {endedAt : Nat} {r : Reporting} {f : Flush}
    (h : s.flushStep aead ending endedAt r f e = some s') : Flushed s ending endedAt r s' := by
  unfold flushStep at h
  split at h
  case h_1 =>
    have ⟨⟨f', s₁⟩, hf, hs⟩ := Option.map_eq_some_iff.mp h
    have ⟨hn, hd⟩ := flushEncode_frame hf
    exact hs ▸ ⟨hn, hd, f', rfl⟩
  case h_2 =>
    split at h
    case h_2 => contradiction
    case h_1 =>
      split at h
      case isFalse => contradiction
      case isTrue  =>
        have hs := Option.some_inj.mp h
        exact hs ▸ ⟨flushWrite_frame.left, flushWrite_frame.right, _, rfl⟩
  case h_3 =>
    split at h
    case isFalse => contradiction
    case isTrue  => exact Option.some_inj.mp h ▸ ⟨rfl, rfl, none, rfl⟩
  case h_4 =>
    split at h
    case isFalse => contradiction
    case isTrue  => exact Option.some_inj.mp h ▸ ⟨rfl, rfl, none, rfl⟩
  case h_5 => contradiction

-- Time passes between the steps only.
theorem step_now (h : Step aead serialize config s e s') : s'.now = s.now := by
  cases h
  case closeReceive => rfl
  case closeSend    => rfl
  case head         => exact head_now
  case loop h       => exact loopStep_now h
  case flush h      => exact (flushStep_flushed h).now
  case finish       =>
    unfold Report.finish
    split <;> rfl

end Report
