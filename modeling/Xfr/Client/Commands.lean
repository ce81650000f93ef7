import Xfr.Client.ControlLoop
import Xfr.Control.ReaderTasks
import Xfr.Report.Clock

open Utf8 (Text)
open Messages (Deliverable controlCommand controlCommands)
open Serde (Value FloatText)

-- Whether a test is paused by some commands, if it was before.
def ControlCommand.pauses (paused : Bool) : ControlCommand → Bool
  | pause           => true
  | resume          => false
  | cancel | finish => paused

def pausedBy (cmds : List ControlCommand) : Bool :=
  cmds.foldl ControlCommand.pauses false

-- The commands which a report loop has taken.
def takenCommands (events : List (Nat × Event)) : List ControlCommand :=
  events.filterMap fun e =>
    match e.2 with
    | .command cmd => cmd
    | _            => none

namespace Stopwatch

variable {w : Stopwatch} {events : List (Nat × Event)}

theorem observe_running {e : Event} : (w.observe e).running =
    !((takenCommands [(0, e)]).foldl ControlCommand.pauses (!w.running)) := by
  cases e
  case command cmd =>
    cases cmd
    case none     => simp [observe, takenCommands]
    case some cmd => cases cmd <;> simp [observe, takenCommands, ControlCommand.pauses, pause, resume]
  all_goals simp [observe, takenCommands]

-- The stopwatch of a loop runs unless the commands which it has taken have paused the test.
theorem foldl_follow_running : (events.foldl follow w).running =
    !((takenCommands events).foldl ControlCommand.pauses (!w.running)) := by
  induction events generalizing w
  case nil => simp [takenCommands]
  case cons e events hi =>
    have hc : takenCommands (e :: events) = takenCommands [(0, e.2)] ++ takenCommands events := by
      simp only [takenCommands, List.filterMap_cons, List.filterMap_nil]
      split <;> rfl
    rw [List.foldl_cons, hi, hc, List.foldl_append, follow, observe_running, advance_running,
      Bool.not_not]

end Stopwatch

variable {F : Type} [IntCast F]

-- The commands of a client, as they are sent.
def Message.command : Message → Option (Messages.ControlMessage F)
  | .cancel id reason => some (.cancel ⟨.ofList id, .ofList reason⟩)
  | .finish id        => some (.finish ⟨.ofList id⟩)
  | .pause id         => some (.pause ⟨.ofList id⟩)
  | .resume id        => some (.resume ⟨.ofList id⟩)
  | _                 => none

variable (F) in
def serializeCommand [FloatText F] (m : Message) : Except Text Text :=
  match (m.command : Option (Messages.ControlMessage F)) with
  | some m => .ok m.serialize
  | none   => .error "not a command".toList

-- All messages which a control loop writes.
def ClientRun.commands (run : ClientRun) : List (Messages.ControlMessage F) :=
  [
    .cancel ⟨.ofList run.testId, .ofList "User requested cancellation".toList⟩,
    .finish ⟨.ofList run.testId⟩,
    .pause ⟨.ofList run.testId⟩,
    .resume ⟨.ofList run.testId⟩
  ]

namespace ControlLoop

variable [FloatText F] {run : ClientRun} {s s' : ControlLoop} {a : ControlArm} {e : ControlEvent}
  {log : List (Messages.ControlMessage F)}

-- What the loop has written: commands for its test, which leave the other side paused if and only if
-- its own streams are.
structure Logged (run : ClientRun) (log : List (Messages.ControlMessage F)) (s : ControlLoop) :
    Prop where
  written  : s.written = log.map (·.serialize)
  commands : ∀ m ∈ log, m ∈ run.commands
  paused   : run.supportsPause →
               pausedBy (log.filterMap (controlCommand (.ofList run.testId))) = s.pauseTx

namespace Logged

theorem start {now : Nat} : Logged run ([] : List (Messages.ControlMessage F)) (run.start now) where
  written  := rfl
  commands := by simp
  paused   := fun _ => rfl

-- Neither the written messages nor the pause change.
theorem of_eq (h : Logged run log s) (hw : s'.written = s.written) (hp : s'.pauseTx = s.pauseTx) :
    Logged run log s' where
  written  := hw.trans h.written
  commands := h.commands
  paused   := hp ▸ h.paused

theorem stopStreams (h : Logged run log s) : Logged run log (s.stopStreams run) := by
  unfold ControlLoop.stopStreams
  split <;> exact h.of_eq rfl rfl

theorem break' {outcome : Except Text Message} (h : Logged run log s) :
    Logged run log (s.break' outcome) :=
  h.of_eq rfl rfl

-- A command is written, and the pause is what it says.
theorem write {m : Messages.ControlMessage F} {cmd : ControlCommand} (h : Logged run log s)
    (hm : m ∈ run.commands) (hc : controlCommand (.ofList run.testId) m = some cmd)
    (hw : s'.written = s.written ++ [m.serialize])
    (hp : run.supportsPause → s'.pauseTx = cmd.pauses s.pauseTx) :
    Logged run (log ++ [m]) s' where
  written  := by simp [hw, h.written]
  commands := by
    intro m' hm'
    rcases List.mem_append.mp hm' with hm' | hm'
    case inl => exact h.commands m' hm'
    case inr => exact List.mem_singleton.mp hm' ▸ hm
  paused   := by
    intro hs
    rw [hp hs, ← h.paused hs]
    simp [pausedBy, List.filterMap_append, hc]

end Logged

section Arms

variable (hs : run.serialize = serializeCommand F)

include hs

theorem onCancelRequest_logged (h : Logged run log s) :
    ∃ log : List (Messages.ControlMessage F), Logged run log (s.onCancelRequest run) := by
  let m : Messages.ControlMessage F :=
    .cancel ⟨.ofList run.testId, .ofList "User requested cancellation".toList⟩
  have hl : run.serialize (.cancel run.testId "User requested cancellation".toList) =
      .ok m.serialize := by rw [hs]; rfl
  have hc : controlCommand (.ofList run.testId) m = some .cancel := if_pos rfl
  unfold onCancelRequest
  rw [hl]
  exact ⟨_, h.write (by simp [m, ClientRun.commands]) hc rfl fun _ => rfl⟩

theorem onPauseRequest_logged {paused : Bool} (h : Logged run log s) :
    ∃ log : List (Messages.ControlMessage F), Logged run log (s.onPauseRequest run paused) := by
  have hw : (s.togglePause paused).written = s.written ∧
      (s.togglePause paused).pauseTx = paused := by
    unfold togglePause
    dsimp only
    split
    case isTrue  => split <;> exact ⟨rfl, rfl⟩
    case isFalse => split <;> exact ⟨rfl, rfl⟩
  unfold onPauseRequest
  dsimp only
  split
  case isFalse hn =>
    exact ⟨log, hw.left.trans h.written, h.commands, fun hp => absurd hp hn⟩
  case isTrue hp =>
    -- Either of the two messages says what the streams are told.
    cases paused
    case false =>
      let m : Messages.ControlMessage F := .resume ⟨.ofList run.testId⟩
      have hl : run.serialize (.resume run.testId) = .ok m.serialize := by rw [hs]; rfl
      have hc : controlCommand (.ofList run.testId) m = some .resume := if_pos rfl
      simp only [Bool.false_eq_true, if_false, hl]
      exact ⟨_, h.write (by simp [m, ClientRun.commands]) hc (by rw [← hw.left]; rfl) fun _ => hw.right⟩
    case true =>
      let m : Messages.ControlMessage F := .pause ⟨.ofList run.testId⟩
      have hl : run.serialize (.pause run.testId) = .ok m.serialize := by rw [hs]; rfl
      have hc : controlCommand (.ofList run.testId) m = some .pause := if_pos rfl
      simp only [if_true, hl]
      exact ⟨_, h.write (by simp [m, ClientRun.commands]) hc (by rw [← hw.left]; rfl) fun _ => hw.right⟩

theorem onSendingDone_logged (h : Logged run log s) :
    ∃ log : List (Messages.ControlMessage F), Logged run log (s.onSendingDone run) := by
  let m : Messages.ControlMessage F := .finish ⟨.ofList run.testId⟩
  have hl : run.serialize (.finish run.testId) = .ok m.serialize := by rw [hs]; rfl
  have hc : controlCommand (.ofList run.testId) m = some .finish := if_pos rfl
  unfold onSendingDone
  simp only [hl]
  exact ⟨_, h.write (by simp [m, ClientRun.commands]) hc rfl fun _ => rfl⟩

theorem arm_logged (h : Logged run log s) (ha : s.arm run a = some s') :
    ∃ log : List (Messages.ControlMessage F), Logged run log s' := by
  unfold arm at ha
  split at ha
  case h_1 | h_2 | h_3 =>
    have ha := Option.some_inj.mp ha
    subst ha
    exact ⟨log, h.stopStreams.break'⟩
  case h_4 m =>
    have ha := Option.some_inj.mp ha
    subst ha
    refine ⟨log, ?_⟩
    unfold onMessage
    split
    case h_1 => exact h.stopStreams.break'
    case h_2 => exact h.stopStreams.break'
    case h_3 => exact h.stopStreams.of_eq rfl rfl
    case h_4 => exact h
  case h_5 cancel =>
    obtain ⟨_, ha⟩ := Option.ite_none_right_eq_some.mp ha
    have ha := Option.some_inj.mp ha
    subst ha
    cases cancel
    case false => exact ⟨log, h⟩
    case true  => exact onCancelRequest_logged hs h
  case h_7 paused =>
    obtain ⟨_, ha⟩ := Option.ite_none_right_eq_some.mp ha
    have ha := Option.some_inj.mp ha
    subst ha
    exact onPauseRequest_logged hs h
  case h_6 | h_8 | h_9 =>
    obtain ⟨_, ha⟩ := Option.ite_none_right_eq_some.mp ha
    have ha := Option.some_inj.mp ha
    subst ha
    exact ⟨log, h.of_eq rfl rfl⟩
  case h_10 =>
    obtain ⟨_, ha⟩ := Option.ite_none_right_eq_some.mp ha
    have ha := Option.some_inj.mp ha
    subst ha
    exact onSendingDone_logged hs h
  case h_11 =>
    obtain ⟨_, ha⟩ := Option.ite_none_right_eq_some.mp ha
    have ha := Option.some_inj.mp ha
    subst ha
    exact ⟨log, h.stopStreams.break'⟩

theorem run_logged {now : Nat} {events : List ControlEvent}
    (h : (step run).run (run.start now) events = some s) :
    ∃ log : List (Messages.ControlMessage F), Logged run log s := by
  refine System.run_invariant
    (I := fun s => ∃ log : List (Messages.ControlMessage F), Logged run log s)
    ?_ ⟨[], .start⟩ h
  intro s e s' ⟨log, hl⟩ h
  obtain ⟨_, h⟩ := Option.ite_none_left_eq_some.mp h
  split at h
  case h_1 =>
    obtain ⟨_, h⟩ := Option.ite_none_right_eq_some.mp h
    have h := Option.some_inj.mp h
    subst h
    exact ⟨log, hl.of_eq rfl rfl⟩
  case h_2 => exact arm_logged hs hl h
  case h_3 =>
    have h := Option.some_inj.mp h
    subst h
    exact ⟨log, hl.of_eq rfl rfl⟩
  case h_4 => cases h

end Arms

section Delivery

variable {parse : Text → Option (Value F)} {aead : Aead} {codec : ControlWriter}
  {st : ControlStream} {now : Nat} {events : List ControlEvent} {fills : Fills}

-- What the server takes of a beginning of the control stream of a client: its first commands, each
-- once, and all that were encoded when their frames have arrived.
structure Delivered (aead : Aead) (parse : Text → Option (Value F)) (run : ClientRun)
    (codec : ControlWriter) (log : List (Messages.ControlMessage F)) (st : ControlStream)
    (fills : Fills) (k : Nat) (tail : Bytes) : Prop where
  cut   : FrameStream.Cut st.frames fills.flatten k tail
  cmds  : (codec = .plaintext → tail = []) → ∀ {fuel}, k < fuel →
            controlCommands aead parse (.ofList run.testId) fuel codec.peer fills =
              some ((log.take k).filterMap (controlCommand (.ofList run.testId)))
  whole : fills.flatten = st.frames.flatten → k = st.messages.length ∧ tail = []

theorem Logged.delivered (tagged : aead.Tagged) (hl : Logged run log s)
    (hd : ∀ m ∈ run.commands, Deliverable parse m)
    (sound : st.Sound (ControlWriter.encode? aead) codec) (hw : st.messages <+: s.written)
    (hi : codec.Intact fills) (hp : fills.flatten <+: st.wire) :
    ∃ k tail, Delivered aead parse run codec log st fills k tail := by
  obtain ⟨codec', he, _⟩ := sound.encoded
  have hm : st.messages = (log.take st.messages.length).map (·.serialize) := by
    rw [List.map_take, ← hl.written]
    exact List.prefix_iff_eq_take.mp hw
  have hlen : st.frames.length = st.messages.length := FrameStream.encodeAll_length he
  rw [hm] at he
  have hd : ∀ m ∈ log.take st.messages.length, Deliverable parse m :=
    fun m hm => hd m (hl.commands m (List.mem_of_mem_take hm))
  obtain ⟨k, tail, cut, whole⟩ := FrameStream.exists_cut (hp.trans sound.prefix_wire)
  refine ⟨k, tail, cut, fun hc fuel hk => ?_, fun h => ?_⟩
  case refine_1 =>
    have hk' : min k st.messages.length = k := Nat.min_eq_left (hlen ▸ cut.count)
    rw [(Messages.tasks_eq tagged _ hd he cut hi hc hk).right, List.take_take, hk']
  case refine_2 => exact ⟨(whole h).left.trans hlen, (whole h).right⟩

-- In any run of the control loop of a client, and for any part of its stream in any pieces: the server
-- takes the commands of the client in their order, none twice and none before it has arrived.
theorem commands_run (tagged : aead.Tagged) (hs : run.serialize = serializeCommand F)
    (h : (step run).run (run.start now) events = some s)
    (hd : ∀ m ∈ run.commands (F := F), Deliverable parse m)
    (stream : Relation.ReflTransGen (FrameStream.Step (ControlWriter.encode? aead)) (.start codec) st)
    (hw : st.messages <+: s.written) (hi : codec.Intact fills) (hp : fills.flatten <+: st.wire) :
    ∃ log : List (Messages.ControlMessage F),
      s.written = log.map (·.serialize) ∧ (∀ m ∈ log, m ∈ run.commands) ∧
      ∃ k tail, Delivered aead parse run codec log st fills k tail := by
  obtain ⟨log, hl⟩ := run_logged hs h
  exact ⟨log, hl.written, hl.commands,
    hl.delivered tagged hd (FrameStream.Sound.start.steps stream) hw hi hp⟩

-- When a report loop has taken everything which the client has sent, the server holds the test to be
-- paused if and only if the client does.
theorem pause_agreement (tagged : aead.Tagged) (hs : run.serialize = serializeCommand F)
    (supports : run.supportsPause) (h : (step run).run (run.start now) events = some s)
    (hd : ∀ m ∈ run.commands (F := F), Deliverable parse m)
    (stream : Relation.ReflTransGen (FrameStream.Step (ControlWriter.encode? aead)) (.start codec) st)
    (hw : st.messages = s.written) (hi : codec.Intact fills)
    (arrived : fills.flatten = st.frames.flatten) (hp : fills.flatten <+: st.wire)
    {reportAead : Aead} {serialize : ControlMessage → Option Text} {config : ReportLoopConfig}
    {reportCodec : ControlWriter} {begin : Nat} {streams : List StreamStats}
    {recvClosed sendClosed : Bool} {taken : List (Nat × Event)} {r : Report} {fuel : Nat}
    (report : (Report.step reportAead serialize config).run
      (.init begin streams reportCodec recvClosed sendClosed) taken = some r)
    (hk : st.messages.length < fuel)
    (all : controlCommands aead parse (.ofList run.testId) fuel codec.peer fills =
      some (takenCommands taken))
    {l : Loop} (hl : r.phase.loop? = some l) :
    l.pauseStart.isSome = s.pauseTx := by
  obtain ⟨log, hlog⟩ := run_logged (F := F) hs h
  obtain ⟨k, tail, d⟩ :=
    hlog.delivered tagged hd (FrameStream.Sound.start.steps stream) (hw ▸ List.prefix_rfl) hi hp
  obtain ⟨hk', ht⟩ := d.whole arrived
  have hcmds := d.cmds (fun _ => ht) (hk' ▸ hk)
  have hlen : k = log.length := by rw [hk', hw, hlog.written, List.length_map]
  rw [all, Option.some_inj, hlen, List.take_length] at hcmds
  -- The variables of the loop agree with a stopwatch which follows the same commands.
  have clocked : Report.Clocked config begin (taken.foldl Stopwatch.follow (.start begin)) r :=
    System.run_foldl Report.Clocked.step .init report
  have hr : (taken.foldl Stopwatch.follow (.start begin)).running = l.pauseStart.isNone :=
    (clocked.loop l hl).running
  have hf : (taken.foldl Stopwatch.follow (.start begin)).running = !pausedBy (takenCommands taken) :=
    Stopwatch.foldl_follow_running
  have hp : pausedBy (takenCommands taken) = s.pauseTx := hcmds ▸ hlog.paused supports
  have hn : l.pauseStart.isNone = !s.pauseTx := by rw [← hr, hf, hp]
  cases hs : l.pauseStart <;> simp_all

end Delivery

section Example

-- A client which asks for a pause.
def pausing : ClientRun where
  transport      := .tcp
  testId         := ['t']
  duration       := 0
  supportsPause  := true
  finishOnBudget := false
  serialize      := serializeCommand Messages.Tenths

def parseCommand (text : Text) : Option (Value Messages.Tenths) :=
  (pausing.commands.find? fun m : Messages.ControlMessage Messages.Tenths => m.serialize = text).map
    (·.value)

theorem deliverable_commands : ∀ m ∈ pausing.commands, Deliverable parseCommand m := by
  intro m hm
  simp only [ClientRun.commands, List.mem_cons, List.not_mem_nil, or_false] at hm
  rcases hm with rfl | rfl | rfl | rfl
  all_goals exact ⟨fun _ => rfl, fun _ _ => rfl, rfl, by decide +kernel⟩

def sealing : ControlWriter :=
  .protectedBy (.new [] .c2s)

def pauseLine : Text :=
  (.pause ⟨"t"⟩ : Messages.ControlMessage Messages.Tenths).serialize

-- The command is on its way to the server.
def pauseStream : ControlStream where
  codec    := (ControlWriter.encode? .tagging sealing pauseLine).map (·.snd)
  messages := [pauseLine]
  frames   := ((ControlWriter.encode? .tagging sealing pauseLine).map (·.fst)).toList
  wire     := (((ControlWriter.encode? .tagging sealing pauseLine).map (·.fst)).toList).flatten
  rest     := []

theorem pauseStream_steps :
    Relation.ReflTransGen (FrameStream.Step (ControlWriter.encode? .tagging)) (.start sealing)
      pauseStream := by
  have hf : (ControlWriter.encode? .tagging sealing pauseLine).isSome := by decide +kernel
  obtain ⟨⟨frame, codec⟩, hf⟩ := Option.isSome_iff_exists.mp hf
  have he : FrameStream.encodeAll (ControlWriter.encode? .tagging) sealing [pauseLine] =
      some ([frame], codec) := by simp [FrameStream.encodeAll, hf]
  simpa [pauseStream, hf, FrameStream.start] using
    FrameStream.steps_of_encodeAll (s := .start sealing) rfl rfl he

theorem commands_run_pausing :
    ∃ s log k tail, (step pausing).run (pausing.start 0) [.arm (.pauseRequest true)] = some s ∧
      s.written = [pauseLine] ∧
      Delivered .tagging parseCommand pausing sealing log pauseStream [pauseStream.wire.take 9] k
        tail := by
  have hr : ((step pausing).run (pausing.start 0) [.arm (.pauseRequest true)]).map (·.written) =
      some [pauseLine] := by decide +kernel
  obtain ⟨s, run, hw⟩ := Option.map_eq_some_iff.mp hr
  have hp : [pauseStream.wire.take 9].flatten <+: pauseStream.wire := by
    simpa using List.take_prefix _ _
  obtain ⟨log, _, _, k, tail, d⟩ := commands_run Aead.tagging_tagged rfl run deliverable_commands
    pauseStream_steps (hw ▸ List.prefix_rfl) trivial hp
  exact ⟨s, log, k, tail, run, hw, d⟩

theorem pause_agreement_pausing :
    ∃ s r l, (step pausing).run (pausing.start 0) [.arm (.pauseRequest true)] = some s ∧
      (Report.step .tagging (fun _ => none) ⟨['t'], .tcp, 100, .upload, false, false⟩).run
        (.init 0 [.new 0 0] .plaintext true true) [(0, .head), (1, .command (some .pause))] =
          some r ∧
      r.phase.loop? = some l ∧ s.pauseTx ∧ l.pauseStart.isSome = s.pauseTx := by
  have hr : ((step pausing).run (pausing.start 0) [.arm (.pauseRequest true)]).map
      (fun s => (s.written, s.pauseTx)) = some ([pauseLine], true) := by decide +kernel
  obtain ⟨s, run, hs⟩ := Option.map_eq_some_iff.mp hr
  obtain ⟨hw, hp⟩ := Prod.mk.inj hs
  have hr : (((Report.step .tagging (fun _ => none)
      ⟨['t'], .tcp, 100, .upload, false, false⟩).run
      (.init 0 [.new 0 0] .plaintext true true) [(0, .head), (1, .command (some .pause))]).bind
      (·.phase.loop?)).isSome := by decide +kernel
  obtain ⟨l, hl⟩ := Option.isSome_iff_exists.mp hr
  obtain ⟨r, report, hl⟩ := Option.bind_eq_some_iff.mp hl
  have all : controlCommands .tagging parseCommand "t" 2 sealing.peer
      [pauseStream.wire.take 9, pauseStream.wire.drop 9] = some [.pause] := by decide +kernel
  have arrived : [pauseStream.wire.take 9, pauseStream.wire.drop 9].flatten =
      pauseStream.frames.flatten := by simp [pauseStream]
  exact ⟨s, r, l, run, report, hl, hp, pause_agreement Aead.tagging_tagged rfl rfl run
    deliverable_commands pauseStream_steps hw.symm trivial arrived (by simp) report
    (by decide) all hl⟩

end Example
end ControlLoop
