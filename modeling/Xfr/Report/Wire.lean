import Xfr.Library.FrameStream
import Xfr.Report.Basic

open Utf8 (Text)

def ControlWriter.encode? (aead : Aead) (w : ControlWriter) (text : Text) :
    Option (Bytes × ControlWriter) :=
  match w.encodeMessage aead text with
  | (.ok frame, w) => some (frame, w)
  | (.error _, _)  => none

-- The stream of a control connection.
abbrev ControlStream := FrameStream ControlWriter Text UInt8

namespace Frame

def rest (current : Option Frame) : Bytes :=
  current.elim [] remaining

@[simp]
theorem rest_accept {f : Frame} {n : Nat} : rest (f.accept n) = f.remaining.drop n := by
  unfold accept
  dsimp only
  split
  case isTrue h =>
    have : f.offset + n = f.bytes.length := by simpa [complete] using h
    simp [rest, remaining, this]
  case isFalse => simp [rest, remaining]

end Frame

namespace Phase

def codec : Phase → Option ControlWriter
  | head l | select l      => some l.codec
  | failed _               => none
  | ended _ _ r none       => r.codec
  | ended _ _ _ (some f)   => some f.codec

def rest : Phase → Bytes
  | head l | select l      => Frame.rest l.current
  | failed _               => []
  | ended _ _ r none       => Frame.rest r.current
  | ended _ _ _ (some f)   => Frame.rest f.current

end Phase

-- The branches of the select which only change the loop's bookkeeping.
structure Loop.Kept (l l' : Loop) : Prop where
  codec   : l'.codec = l.codec
  current : l'.current = l.current
  pending : l'.pending = l.pending

def Outcome.Keeps (l : Loop) : Outcome → Prop
  | next l'         => l.Kept l' ∧ l'.cancelled = l.cancelled
  | leave ending l' => l.Kept l' ∧ l'.cancelled = (l.cancelled || ending = .cancelled)

namespace Loop

variable {config : ReportLoopConfig} {l : Loop} {now : Nat}

theorem drain_keeps : (l.drain config now).Keeps l := by
  unfold drain
  dsimp only
  split <;> exact ⟨⟨rfl, rfl, rfl⟩, by simp⟩

theorem receiveDone_keeps : (l.receiveDone config now).Keeps l := by
  unfold receiveDone
  dsimp only
  split
  · split <;> exact ⟨⟨rfl, rfl, rfl⟩, by simp⟩
  · exact ⟨⟨rfl, rfl, rfl⟩, rfl⟩

theorem sendingDone_keeps : (l.sendingDone config now).Keeps l := by
  unfold sendingDone
  dsimp only
  split <;> exact ⟨⟨rfl, rfl, rfl⟩, by simp⟩

theorem command_keeps {cmd : Option ControlCommand} : (l.command config now cmd).Keeps l := by
  unfold command
  split
  · split <;> exact ⟨⟨rfl, rfl, rfl⟩, rfl⟩
  · exact ⟨⟨rfl, rfl, rfl⟩, by simp⟩
  · exact ⟨⟨rfl, rfl, rfl⟩, rfl⟩
  · split <;> exact ⟨⟨rfl, rfl, rfl⟩, rfl⟩
  · exact ⟨⟨rfl, rfl, rfl⟩, by simp⟩

end Loop

namespace Report

variable {aead : Aead} {serialize : ControlMessage → Option Text} {config : ReportLoopConfig}
variable {s s' : Report}

-- The report stands for a stream of frames. Once the codec is gone, the rest of the frame in flight
-- is forgotten.
structure Refines (s : Report) (st : ControlStream) : Prop where
  wire     : st.wire = s.wire
  messages : st.messages = s.messages
  frames   : st.frames = s.frames
  codec    : st.codec = s.phase.codec
  rest     : s.phase.codec.isSome → st.rest = s.phase.rest

-- The stream may take any number of steps while the report takes one.
def Simulates (aead : Aead) (s s' : Report) : Prop :=
  ∀ st, Refines s st →
    ∃ st', Relation.ReflTransGen (FrameStream.Step (ControlWriter.encode? aead)) st st' ∧
      Refines s' st'

-- Nothing was encoded or written, and if the stream is not given up it is still the same.
structure Quiet (s s' : Report) : Prop where
  wire     : s'.wire = s.wire
  messages : s'.messages = s.messages
  frames   : s'.frames = s.frames
  phase    : s'.phase.codec = none ∨
               (s'.phase.codec = s.phase.codec ∧ s'.phase.rest = s.phase.rest)

theorem Quiet.simulates (h : Quiet s s') : Simulates aead s s' := by
  intro st r
  rcases h.phase with hc | ⟨hc, hr⟩
  case inl =>
    refine ⟨{ st with codec := none }, .single .close, ?_⟩
    constructor
    case wire     => rw [r.wire, h.wire]
    case messages => rw [r.messages, h.messages]
    case frames   => rw [r.frames, h.frames]
    case codec    => rw [hc]
    case rest     => simp [hc]
  case inr =>
    refine ⟨st, .refl, ?_⟩
    constructor
    case wire     => rw [r.wire, h.wire]
    case messages => rw [r.messages, h.messages]
    case frames   => rw [r.frames, h.frames]
    case codec    => rw [r.codec, hc]
    case rest     => rw [hc, hr]; exact r.rest

-- Leaving the loop keeps the frame in flight.
theorem leave_quiet {ending : Ending} {l l' : Loop} (hp : s.phase.codec = some l.codec)
    (hr : s.phase.rest = Frame.rest l.current) (hc : l'.codec = l.codec)
    (hf : l'.current = l.current) : Quiet s (s.leave serialize config ending l') := by
  unfold leave
  cases s.terminal serialize config l'
  case none   => exact ⟨rfl, rfl, rfl, .inl rfl⟩
  case some _ =>
    refine ⟨rfl, rfl, rfl, .inr ⟨?_, ?_⟩⟩
    · rw [hp, ← hc]; rfl
    · rw [hr, ← hf]; rfl

theorem settle_quiet {l : Loop} {o : Outcome} (hp : s.phase.codec = some l.codec)
    (hr : s.phase.rest = Frame.rest l.current) (h : o.Keeps l) :
    Quiet s (s.settle serialize config o) := by
  cases o
  case leave _ l' => exact leave_quiet hp hr h.left.codec h.left.current
  case next l' =>
    refine ⟨rfl, rfl, rfl, .inr ⟨?_, ?_⟩⟩
    · rw [hp, ← h.left.codec]; rfl
    · rw [hr, ← h.left.current]; rfl

theorem encode_eq_ok_iff {codec codec' : ControlWriter} {text : Text} {frame : Frame} :
    s.encode aead codec text = .ok (frame, codec', s') ↔
      ∃ bytes, codec.encode? aead text = some (bytes, codec') ∧ frame = ⟨bytes, 0⟩ ∧
        s' = { s with messages := s.messages ++ [text], frames := s.frames ++ [bytes] } := by
  unfold encode ControlWriter.encode?
  cases codec.encodeMessage aead text with | mk r c =>
  cases r <;> simp [eq_comm, and_assoc, and_left_comm]

-- A message is encoded when nothing is in flight, and its frame is in flight then.
theorem simulates_encode {codec codec' : ControlWriter} {text : Text} {frame : Frame}
    (hp : s.phase.codec = some codec) (hr : s.phase.rest = [])
    (h : s.encode aead codec text = .ok (frame, codec', s')) {s'' : Report}
    (hw : s''.wire = s'.wire) (hm : s''.messages = s'.messages) (hf : s''.frames = s'.frames)
    (hp' : s''.phase.codec = some codec') (hr' : s''.phase.rest = frame.remaining) :
    Simulates aead s s'' := by
  have ⟨bytes, he, hb, hs⟩ := encode_eq_ok_iff.mp h
  subst hb hs
  intro st r
  have hc : st.codec = some codec := by rw [r.codec, hp]
  have hn : st.rest = [] := by rw [r.rest (by simp [hp]), hr]
  refine ⟨_, .single <| .encode hc hn he, ?_⟩
  constructor
  case wire     => simp [hw, r.wire]
  case messages => simp [hm, r.messages]
  case frames   => simp [hf, r.frames]
  case codec    => simp [hp']
  case rest     => simp [hr', Frame.remaining]

theorem simulates_write {codec : ControlWriter} {frame : Frame} {n : Nat}
    (hp : s.phase.codec = some codec) (hr : s.phase.rest = frame.remaining)
    (hw : s'.wire = s.wire ++ frame.remaining.take n) (hm : s'.messages = s.messages)
    (hf : s'.frames = s.frames) (hp' : s'.phase.codec = some codec)
    (hr' : s'.phase.rest = frame.remaining.drop n) : Simulates aead s s' := by
  intro st r
  have hc : st.codec = some codec := by rw [r.codec, hp]
  have hn : st.rest = frame.remaining := by rw [r.rest (by simp [hp]), hr]
  refine ⟨_, .single <| .write n hc, ?_⟩
  constructor
  case wire     => simp [hw, r.wire, hn]
  case messages => simp [hm, r.messages]
  case frames   => simp [hf, r.frames]
  case codec    => simp [hp', hc]
  case rest     => simp [hr', hn]

theorem head_simulates {l : Loop} (hp : s.phase = .head l) :
    Simulates aead s (s.head aead serialize config l) := by
  have hc : s.phase.codec = some l.codec := by rw [hp]; rfl
  have hr : s.phase.rest = Frame.rest l.current := by rw [hp]; rfl
  unfold head
  split
  case isTrue => exact (leave_quiet hc hr rfl rfl).simulates
  case isFalse =>
    split
    case h_1 sample hcur _ =>
      split
      case h_1 => exact Quiet.simulates ⟨rfl, rfl, rfl, .inl rfl⟩
      case h_2 text _ =>
        split
        case h_1 => exact Quiet.simulates ⟨rfl, rfl, rfl, .inl rfl⟩
        case h_2 frame codec s' he =>
          exact simulates_encode hc (by rw [hr, hcur]; rfl) he rfl rfl rfl rfl rfl
    case h_2 => exact Quiet.simulates ⟨rfl, rfl, rfl, .inr ⟨hc.symm, hr.symm⟩⟩

theorem loopStep_simulates {l : Loop} {e : Event} (hp : s.phase = .select l)
    (h : s.loopStep serialize config l e = some s') : Simulates aead s s' := by
  have hc : s.phase.codec = some l.codec := by rw [hp]; rfl
  have hr : s.phase.rest = Frame.rest l.current := by rw [hp]; rfl
  cases e <;> simp only [loopStep, Option.ite_none_right_eq_some, reduceCtorEq] at h
  case deadline    => exact Option.some_inj.mp h.right ▸ (leave_quiet hc hr rfl rfl).simulates
  case drain       => exact Option.some_inj.mp h.right ▸ (settle_quiet hc hr Loop.drain_keeps).simulates
  case receiveDone =>
    exact Option.some_inj.mp h.right ▸ (settle_quiet hc hr Loop.receiveDone_keeps).simulates
  case sendingDone =>
    exact Option.some_inj.mp h.right ▸ (settle_quiet hc hr Loop.sendingDone_keeps).simulates
  case tick readings =>
    have h := Option.some_inj.mp h.right
    subst h
    unfold tick
    split
    case isTrue  => exact (leave_quiet hc hr rfl rfl).simulates
    case isFalse => exact Quiet.simulates ⟨rfl, rfl, rfl, .inr ⟨hc.symm, hr.symm⟩⟩
  case command cmd =>
    have h := Option.some_inj.mp h
    subst h
    have q : Quiet { s with finishedAt := if cmd = some .finish then s.finishedAt.or (some s.now)
        else s.finishedAt } (s.command serialize config l cmd) :=
      settle_quiet hc hr Loop.command_keeps
    exact Quiet.simulates ⟨q.wire, q.messages, q.frames, q.phase⟩
  case written accepted =>
    split at h
    case h_2           => contradiction
    case h_1 frame hcur =>
      have ⟨_, h⟩ := Option.ite_none_right_eq_some.mp h
      have h := Option.some_inj.mp h
      subst h
      have hf : s.phase.rest = frame.remaining := by rw [hr, hcur]; rfl
      match accepted with
      | none | some 0  => exact Quiet.simulates ⟨rfl, rfl, rfl, .inl rfl⟩
      | some (n + 1)   => exact simulates_write hc hf rfl rfl rfl rfl Frame.rest_accept

theorem flushStep_simulates {ending : Ending} {endedAt : Nat} {r : Reporting} {f : Flush} {e : Event}
    (hp : s.phase = .ended ending endedAt r (some f)) (ht : r.codec = none)
    (h : s.flushStep aead ending endedAt r f e = some s') : Simulates aead s s' := by
  have hc : s.phase.codec = some f.codec := by rw [hp]; rfl
  have hr : s.phase.rest = Frame.rest f.current := by rw [hp]; rfl
  cases e <;> simp only [flushStep, Option.ite_none_right_eq_some, reduceCtorEq] at h
  case encode =>
    have ⟨⟨f', t⟩, hf, he⟩ := Option.map_eq_some_iff.mp h
    subst he
    unfold flushEncode at hf
    split at hf
    case h_2 => contradiction
    case h_1 text queue hcur _ =>
      split at hf
      case h_1 =>
        have ⟨hf, hs⟩ := Prod.mk.inj (Option.some_inj.mp hf)
        subst hf hs
        exact Quiet.simulates ⟨rfl, rfl, rfl, .inl ht⟩
      case h_2 frame codec t' he =>
        have ⟨hf, hs⟩ := Prod.mk.inj (Option.some_inj.mp hf)
        subst hf hs
        exact simulates_encode hc (by rw [hr, hcur]; rfl) he rfl rfl rfl rfl rfl
  case write accepted =>
    split at h
    case h_2            => contradiction
    case h_1 frame hcur =>
      have ⟨_, h⟩ := Option.ite_none_right_eq_some.mp h
      have h := Option.some_inj.mp h
      subst h
      have hf : s.phase.rest = frame.remaining := by rw [hr, hcur]; rfl
      match accepted with
      | none | some 0  => exact Quiet.simulates ⟨rfl, rfl, rfl, .inl ht⟩
      | some (n + 1)   => exact simulates_write hc hf rfl rfl rfl rfl Frame.rest_accept
  case flushed ok => exact Option.some_inj.mp h.right ▸ Quiet.simulates ⟨rfl, rfl, rfl, .inl ht⟩
  case expire     => exact Option.some_inj.mp h.right ▸ Quiet.simulates ⟨rfl, rfl, rfl, .inl ht⟩

theorem finish_quiet {ending : Ending} {endedAt : Nat} {r : Reporting} {result : Text}
    (hp : s.phase = .ended ending endedAt r none) :
    Quiet s (s.finish ending endedAt r result) := by
  have hc : s.phase.codec = r.codec := by rw [hp]; rfl
  have hr : s.phase.rest = Frame.rest r.current := by rw [hp]; rfl
  unfold finish
  split
  case h_1           => exact ⟨rfl, rfl, rfl, .inr ⟨rfl, rfl⟩⟩
  case h_2 codec hcd => exact ⟨rfl, rfl, rfl, .inr ⟨by rw [hc, hcd]; rfl, hr.symm⟩⟩

end Report
