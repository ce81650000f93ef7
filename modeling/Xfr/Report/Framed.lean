import Xfr.Control.Channel
import Xfr.Report.Wire

open Utf8 (Text)

namespace ControlWriter

variable {aead : Aead}

-- Frame for frame, the messages as they are encoded: lines of text, or frames which are numbered
-- from the sequence number of the codec on.
def Frames (aead : Aead) (messages : List Text) (frames : List Bytes) : ControlWriter → Prop
  | plaintext        => frames = messages.map line
  | protectedBy send =>
    frames.length = messages.length ∧
    ∀ i message frame, messages[i]? = some message → frames[i]? = some frame →
      let codec := { send with seq := .ofNat (send.seq.toNat + i) }
      send.seq.toNat + i < 2 ^ 64 ∧ ∃ ciphertext,
        aead.encrypt codec.key codec.nonce codec.aad (Utf8.encode message) = some ciphertext ∧
        frame = Bytes.toBe 4 (8 + ciphertext.length) ++
          (Bytes.toLe 8 (send.seq.toNat + i) ++ ciphertext)

theorem encode?_protectedBy {send : ControlCodec} {text : Text} {frame : Bytes} {w : ControlWriter}
    (h : (protectedBy send).encode? aead text = some (frame, w)) :
    ∃ send' ciphertext, w = protectedBy send' ∧ send.advance = some send' ∧
      aead.encrypt send.key send.nonce send.aad (Utf8.encode text) = some ciphertext ∧
      frame = Bytes.toBe 4 (8 + ciphertext.length) ++ (Bytes.toLe 8 send.seq.toNat ++ ciphertext) := by
  unfold encode? encodeMessage sealFrame at h
  cases hs : send.sealMessage aead (Utf8.encode text) with | mk payload send' =>
  cases payload with
  | error _    => simp [hs] at h
  | ok payload =>
    simp only [hs, Option.some_inj, Prod.mk.injEq] at h
    have ⟨ha, ciphertext, he, hp⟩ := ControlCodec.sealMessage_eq_ok_iff.mp hs
    exact ⟨send', ciphertext, h.right.symm, ha, he, by simp [← h.left, hp]⟩

theorem frames_of_encodeAll {w w' : ControlWriter} {messages : List Text} {frames : List Bytes}
    (h : FrameStream.encodeAll (encode? aead) w messages = some (frames, w')) :
    w.Frames aead messages frames := by
  induction messages generalizing w w' frames
  case nil =>
    obtain ⟨hf, _⟩ := Prod.mk.inj (Option.some_inj.mp h)
    subst hf
    cases w <;> simp [Frames]
  case cons message messages hi =>
    simp only [FrameStream.encodeAll, Option.bind_eq_bind, Option.pure_def, Option.bind_eq_some_iff,
      Option.some_inj, Prod.mk.injEq] at h
    obtain ⟨⟨frame, w₁⟩, he, ⟨frames', w₂⟩, hes, hf, _⟩ := h
    subst hf
    have hi := hi hes
    cases w with
    | plaintext =>
      obtain ⟨hf, hw⟩ := Prod.mk.inj (Option.some_inj.mp he)
      subst hf hw
      exact congrArg (line message :: ·) hi
    | protectedBy send =>
      obtain ⟨send', ciphertext, hw, ha, hc, hf⟩ := encode?_protectedBy he
      subst hw
      have hs := ControlCodec.advance_seq ha
      obtain ⟨hlt, hse⟩ := ControlCodec.advance_eq_some_iff.mp ha
      refine ⟨congrArg (· + 1) hi.left, ?_⟩
      intro i m f hm hf'
      cases i with
      | zero =>
        have hm : message = m := by simpa using hm
        have hf' : frame = f := by simpa using hf'
        subst hm hf'
        exact ⟨by simpa using Nat.lt_of_succ_lt hlt, ciphertext, by simpa using hc, hf⟩
      | succ i =>
        have hi := hi.right i m f (by simpa using hm) (by simpa using hf')
        have hn : send'.seq.toNat + i = send.seq.toNat + (i + 1) := by omega
        rw [hn] at hi
        simpa [hse] using hi

end ControlWriter

namespace Phase

-- A flush holds the codec, and after all of its queue the result is the last message.
def Flushing (messages : List Text) : Phase → Prop
  | ended _ _ r (some f) => r.codec = none ∧ (messages ++ f.queue).getLast? = some f.result
  | _                    => True

end Phase

namespace Report

variable {aead : Aead} {serialize : ControlMessage → Option Text} {config : ReportLoopConfig}
variable {s s' : Report} {codec : ControlWriter}

-- The steps of the loop report no result and flush nothing.
structure Unreported (s s' : Report) : Prop where
  reported : s'.reported = s.reported
  flushing : ∀ messages, s'.phase.Flushing messages

theorem leave_unreported {ending : Ending} {l : Loop} :
    Unreported s (s.leave serialize config ending l) := by
  unfold leave
  cases s.terminal serialize config l <;> exact ⟨rfl, fun _ => trivial⟩

theorem settle_unreported {o : Outcome} : Unreported s (s.settle serialize config o) := by
  cases o
  case next  => exact ⟨rfl, fun _ => trivial⟩
  case leave => exact leave_unreported

theorem encode_reported {codec' : ControlWriter} {text : Text} {frame : Frame}
    (h : s.encode aead codec text = .ok (frame, codec', s')) : s'.reported = s.reported := by
  have ⟨_, _, _, hs⟩ := encode_eq_ok_iff.mp h
  rw [hs]

theorem head_unreported {l : Loop} : Unreported s (s.head aead serialize config l) := by
  unfold head
  split
  case isTrue => exact leave_unreported
  case isFalse =>
    split
    case h_2 => exact ⟨rfl, fun _ => trivial⟩
    case h_1 =>
      split
      case h_1 => exact ⟨rfl, fun _ => trivial⟩
      case h_2 =>
        split
        case h_1    => exact ⟨rfl, fun _ => trivial⟩
        case h_2 he =>
          have hr := encode_reported he
          exact ⟨hr, fun _ => trivial⟩

theorem loopStep_unreported {l : Loop} {e : Event}
    (h : s.loopStep serialize config l e = some s') : Unreported s s' := by
  cases e <;> simp only [loopStep, Option.ite_none_right_eq_some, reduceCtorEq] at h
  case deadline    => exact Option.some_inj.mp h.right ▸ leave_unreported
  case drain       => exact Option.some_inj.mp h.right ▸ settle_unreported
  case receiveDone => exact Option.some_inj.mp h.right ▸ settle_unreported
  case sendingDone => exact Option.some_inj.mp h.right ▸ settle_unreported
  case tick =>
    have h := Option.some_inj.mp h.right
    subst h
    unfold tick
    split
    case isTrue  => exact leave_unreported
    case isFalse => exact ⟨rfl, fun _ => trivial⟩
  case command cmd =>
    have h := Option.some_inj.mp h
    subst h
    have u : Unreported _ (s.command serialize config l cmd) := settle_unreported
    exact ⟨u.reported, u.flushing⟩
  case written accepted =>
    split at h
    case h_2 => contradiction
    case h_1 =>
      obtain ⟨_, h⟩ := Option.ite_none_right_eq_some.mp h
      have h := Option.some_inj.mp h
      subst h
      rcases accepted with _ | _ | n
      all_goals exact ⟨rfl, fun _ => trivial⟩

-- The report stands for a sound stream. A reported result is the last message, it was written with
-- everything before it, and nothing is written after it.
structure Framed (aead : Aead) (codec : ControlWriter) (s : Report) : Prop where
  stream    : ∃ st, Refines s st ∧ st.Sound (ControlWriter.encode? aead) codec
  flushing  : s.phase.Flushing s.messages
  delivered : ∀ result ∈ s.reported,
                s.phase.codec = none ∧ s.messages.getLast? = some result ∧ s.wire = s.frames.flatten
  once      : s.reported.length ≤ 1

namespace Framed

theorem init {now : Nat} {streams : List StreamStats} {recvClosed sendClosed : Bool} :
    Framed aead codec (.init now streams codec recvClosed sendClosed) where
  stream    := ⟨.start codec, ⟨rfl, rfl, rfl, rfl, fun _ => rfl⟩, .start⟩
  flushing  := trivial
  delivered := by simp [Report.init]
  once      := Nat.zero_le _

theorem simulates (f : Framed aead codec s) (h : Simulates aead s s') :
    ∃ st, Refines s' st ∧ st.Sound (ControlWriter.encode? aead) codec := by
  have ⟨st, r, hs⟩ := f.stream
  have ⟨st', steps, r'⟩ := h st r
  exact ⟨st', r', hs.steps steps⟩

-- While the codec is there, no result was reported.
theorem unreported (f : Framed aead codec s) (hc : s.phase.codec.isSome) : s.reported = [] := by
  apply List.eq_nil_iff_forall_not_mem.mpr
  intro result hr
  have := (f.delivered result hr).left
  simp [this] at hc

-- A step which leaves the reported results alone while the codec is there.
theorem of_unreported (f : Framed aead codec s) (hc : s.phase.codec.isSome)
    (h : Simulates aead s s') (hr : s'.reported = s.reported)
    (hf : s'.phase.Flushing s'.messages) : Framed aead codec s' := by
  have hn : s'.reported = [] := by rw [hr, f.unreported hc]
  constructor
  case stream    => exact f.simulates h
  case flushing  => exact hf
  case delivered => simp [hn]
  case once      => simp [hn]

theorem of_quiet (f : Framed aead codec s) (h : Quiet s s') (hp : s'.phase = s.phase)
    (hr : s'.reported = s.reported) : Framed aead codec s' := by
  constructor
  case stream    => exact f.simulates h.simulates
  case flushing  => rw [hp, h.messages]; exact f.flushing
  case delivered => rw [hp, hr, h.messages, h.wire, h.frames]; exact f.delivered
  case once      => rw [hr]; exact f.once

-- When nothing is left of the frame in flight, all frames are on the wire.
theorem wire_eq (f : Framed aead codec s) (hc : s.phase.codec.isSome) (hr : s.phase.rest = []) :
    s.wire = s.frames.flatten := by
  have ⟨st, r, hs⟩ := f.stream
  have hw := hs.written
  rwa [r.rest hc, hr, List.append_nil, r.wire, r.frames] at hw

theorem flushStep (i : Framed aead codec s) {ending : Ending} {endedAt : Nat} {r : Reporting}
    {f : Flush} {e : Event} (hp : s.phase = .ended ending endedAt r (some f))
    (h : s.flushStep aead ending endedAt r f e = some s') : Framed aead codec s' := by
  have hf := i.flushing
  rw [hp] at hf
  obtain ⟨ht, hl⟩ := hf
  have hc : s.phase.codec.isSome := by rw [hp]; rfl
  have hsim := flushStep_simulates hp ht h
  cases e <;> simp only [Report.flushStep, Option.ite_none_right_eq_some, reduceCtorEq] at h
  case encode =>
    obtain ⟨⟨f', t⟩, hf, he⟩ := Option.map_eq_some_iff.mp h
    subst he
    unfold flushEncode at hf
    split at hf
    case h_2 => contradiction
    case h_1 text queue hcur hq =>
      split at hf
      case h_1 =>
        obtain ⟨hf, hs⟩ := Prod.mk.inj (Option.some_inj.mp hf)
        subst hf hs
        exact i.of_unreported hc hsim rfl trivial
      case h_2 frame codec t' he =>
        obtain ⟨hf, hs⟩ := Prod.mk.inj (Option.some_inj.mp hf)
        subst hf hs
        obtain ⟨_, _, _, hs⟩ := encode_eq_ok_iff.mp he
        have hr := encode_reported he
        refine i.of_unreported hc hsim hr ⟨ht, ?_⟩
        simpa [hs, hq] using hl
  case write accepted =>
    split at h
    case h_2       => contradiction
    case h_1 frame =>
      obtain ⟨_, h⟩ := Option.ite_none_right_eq_some.mp h
      have h := Option.some_inj.mp h
      subst h
      rcases accepted with _ | _ | n
      case none      => exact i.of_unreported hc hsim rfl trivial
      case some.zero => exact i.of_unreported hc hsim rfl trivial
      case some.succ => exact i.of_unreported hc hsim rfl ⟨ht, hl⟩
  case expire =>
    have h := Option.some_inj.mp h.right
    subst h
    exact i.of_unreported hc hsim rfl trivial
  case flushed ok =>
    obtain ⟨⟨hcur, hq⟩, h⟩ := h
    have h := Option.some_inj.mp h
    subst h
    have hw : s.wire = s.frames.flatten := by
      apply i.wire_eq hc
      rw [hp, Phase.rest, Option.isNone_iff_eq_none.mp hcur]
      rfl
    have hl : s.messages.getLast? = some f.result := by simpa [hq] using hl
    have hn := i.unreported hc
    cases ok
    case false => exact i.of_unreported hc hsim rfl trivial
    case true  =>
      constructor
      case stream    => exact i.simulates hsim
      case flushing  => trivial
      case delivered => simp [hn, hl, hw, Phase.codec, ht]
      case once      => simp [hn]

theorem step (i : Framed aead codec s) {e : Nat × Event}
    (h : Report.step aead serialize config s e = some s') : Framed aead codec s' := by
  have ⟨now, e⟩ := e
  have ⟨_, h⟩ := step_cases h
  have i : Framed aead codec { s with now } :=
    i.of_quiet ⟨rfl, rfl, rfl, .inr ⟨rfl, rfl⟩⟩ rfl rfl
  cases h
  case closeReceive => exact i.of_quiet ⟨rfl, rfl, rfl, .inr ⟨rfl, rfl⟩⟩ rfl rfl
  case closeSend    => exact i.of_quiet ⟨rfl, rfl, rfl, .inr ⟨rfl, rfl⟩⟩ rfl rfl
  case head l hp =>
    exact i.of_unreported (by rw [hp]; rfl) (head_simulates hp) head_unreported.reported
      (head_unreported.flushing _)
  case loop l hp h =>
    have u := loopStep_unreported h
    exact i.of_unreported (by rw [hp]; rfl) (loopStep_simulates hp h) u.reported (u.flushing _)
  case finish ending endedAt r result hp =>
    have hq : Quiet _ ({ s with now }.finish ending endedAt r result) := finish_quiet hp
    unfold Report.finish at hq ⊢
    cases hr : r.codec
    case none   => exact i
    case some _ =>
      simp only [hr] at hq
      exact i.of_unreported (by rw [hp]; simp [Phase.codec, hr]) hq.simulates rfl ⟨rfl, by simp⟩
  case flush hp h => exact i.flushStep hp h

end Framed

-- What a session finds on its control stream after any run of the report loop: a prefix of the
-- encoded frames, which are numbered without gaps, and all of them once a result was reported.
theorem framed_run (aead : Aead) (serialize : ControlMessage → Option Text)
    (config : ReportLoopConfig) {codec : ControlWriter} {now : Nat} {streams : List StreamStats}
    {recvClosed sendClosed : Bool} {events : List (Nat × Event)} {s : Report}
    (run : (step aead serialize config).run
      (.init now streams codec recvClosed sendClosed) events = some s) :
    s.wire <+: s.frames.flatten ∧
    codec.Frames aead s.messages s.frames ∧
    (∀ result ∈ s.reported, s.messages.getLast? = some result ∧ s.wire = s.frames.flatten) ∧
    s.reported.length ≤ 1 := by
  have f : Framed aead codec s := System.run_invariant (Framed.step · ·) Framed.init run
  have ⟨st, r, hs⟩ := f.stream
  have ⟨_, he, _⟩ := hs.encoded
  rw [r.messages, r.frames] at he
  refine ⟨?_, ControlWriter.frames_of_encodeAll he, fun _ h => (f.delivered _ h).right, f.once⟩
  rw [← r.wire, ← r.frames]
  exact hs.prefix_wire

-- An upload whose first frame takes several writes, with a second sample in between.
def backpressured : List (Nat × Event) :=
  let counters : Counters := { bytesSent := 0, bytesReceived := 9, bytesSent_le := Nat.zero_le _ }
  let reading : Reading := ⟨1, counters, counters, 0, ⟨0, 0⟩, none⟩
  [
    (0, .head), (1, .tick [reading]), (1, .head), (2, .written (some 5)), (2, .head),
    (3, .tick [reading]), (3, .head), (4, .written (some 29)), (4, .head), (5, .written (some 1)),
    (5, .head), (6, .command none), (7, .finish ['r']), (7, .write (some 33)), (7, .encode),
    (8, .write (some 4)), (8, .write (some 30)), (9, .flushed true), (9, .finish ['r'])
  ]

theorem framed_run_backpressured :
    ∃ s, (step Channel.transparent (fun _ => some ['i'])
        ⟨['a'], .tcp, 100, .upload, false, false⟩).run
        (.init 0 [.new 0 0] (.protectedBy (.new [] .s2c)) true true) backpressured = some s ∧
      s.reported = [['r']] ∧ s.wire.length = 102 ∧ s.wire = s.frames.flatten := by
  have hm : ((step Channel.transparent (fun _ => some ['i'])
      ⟨['a'], .tcp, 100, .upload, false, false⟩).run
      (.init 0 [.new 0 0] (.protectedBy (.new [] .s2c)) true true) backpressured).map
      (fun s => (s.reported, s.wire.length)) = some ([['r']], 102) := by decide
  have ⟨s, run, hs⟩ := Option.map_eq_some_iff.mp hm
  have ⟨hr, hw⟩ := Prod.mk.inj hs
  have ⟨_, _, hd, _⟩ := framed_run _ _ _ run
  exact ⟨s, run, hr, hw, (hd ['r'] (by simp [hr])).right⟩

end Report
