import Mathlib.Logic.Relation
import Mathlib.Tactic.Common

-- A writer which encodes messages to frames with a codec that changes from message to message, and
-- puts the frames on a wire piece by piece.
structure FrameStream (κ μ β : Type*) where
  codec    : Option κ
  messages : List μ
  frames   : List (List β)
  wire     : List β
  rest     : List β

namespace FrameStream

variable {κ μ β : Type*}

def start (codec : κ) : FrameStream κ μ β where
  codec    := some codec
  messages := []
  frames   := []
  wire     := []
  rest     := []

variable (encode : κ → μ → Option (List β × κ))

inductive Step (s : FrameStream κ μ β) : FrameStream κ μ β → Prop
  -- The next message is only encoded when the frame before it is on the wire.
  | encode {codec codec' message frame} :
    s.codec = some codec → s.rest = [] → encode codec message = some (frame, codec') →
    Step s { s with
      codec    := some codec'
      messages := s.messages ++ [message]
      frames   := s.frames ++ [frame]
      rest     := frame }
  | write {codec} (n : Nat) :
    s.codec = some codec → Step s { s with wire := s.wire ++ s.rest.take n, rest := s.rest.drop n }
  -- Without its codec the stream is dead.
  | close : Step s { s with codec := none }

def encodeAll : κ → List μ → Option (List (List β) × κ)
  | codec, []                  => some ([], codec)
  | codec, message :: messages => do
    let (frame, codec) ← encode codec message
    let (frames, codec) ← encodeAll codec messages
    return (frame :: frames, codec)

variable {encode} {s s' : FrameStream κ μ β} {codec codec' codec'' : κ}

theorem encodeAll_concat {messages : List μ} {message : μ} {frames : List (List β)}
    {frame : List β} (hs : encodeAll encode codec messages = some (frames, codec'))
    (h : encode codec' message = some (frame, codec'')) :
    encodeAll encode codec (messages ++ [message]) = some (frames ++ [frame], codec'') := by
  induction messages generalizing codec frames
  case nil =>
    have ⟨hf, hc⟩ := Prod.mk.inj (Option.some_inj.mp hs)
    subst hf hc
    simp [encodeAll, h]
  case cons m messages hi =>
    simp only [encodeAll, Option.bind_eq_bind, Option.pure_def, Option.bind_eq_some_iff,
      Option.some_inj, Prod.mk.injEq] at hs
    have ⟨⟨f, c⟩, he, ⟨fs, c'⟩, hes, hf, hc⟩ := hs
    subst hf hc
    simp [encodeAll, he, hi hes]

theorem encodeAll_take {messages : List μ} {frames : List (List β)}
    (h : encodeAll encode codec messages = some (frames, codec')) (k : Nat) :
    ∃ codec'', encodeAll encode codec (messages.take k) = some (frames.take k, codec'') := by
  induction messages generalizing codec frames k
  case nil =>
    obtain ⟨hf, _⟩ := Prod.mk.inj (Option.some_inj.mp h)
    exact ⟨codec, by simp [encodeAll, ← hf]⟩
  case cons m messages hi =>
    simp only [encodeAll, Option.bind_eq_bind, Option.pure_def, Option.bind_eq_some_iff,
      Option.some_inj, Prod.mk.injEq] at h
    obtain ⟨⟨f, c⟩, he, ⟨fs, c'⟩, hes, hf, hc⟩ := h
    subst hf hc
    cases k
    case zero   => exact ⟨codec, by simp [encodeAll]⟩
    case succ k =>
      obtain ⟨c'', h⟩ := hi hes k
      exact ⟨c'', by simp [encodeAll, he, h]⟩

theorem encodeAll_length {messages : List μ} {frames : List (List β)}
    (h : encodeAll encode codec messages = some (frames, codec')) :
    frames.length = messages.length := by
  induction messages generalizing codec frames
  case nil =>
    obtain ⟨hf, _⟩ := Prod.mk.inj (Option.some_inj.mp h)
    simp [← hf]
  case cons m messages hi =>
    simp only [encodeAll, Option.bind_eq_bind, Option.pure_def, Option.bind_eq_some_iff,
      Option.some_inj, Prod.mk.injEq] at h
    obtain ⟨⟨f, c⟩, he, ⟨fs, c'⟩, hes, hf, hc⟩ := h
    subst hf hc
    simp [hi hes]

-- A beginning of the frames: a number of whole ones, and a part of the next one.
structure Cut (frames : List (List β)) (bytes : List β) (k : Nat) (tail : List β) : Prop where
  count : k ≤ frames.length
  bytes : bytes = (frames.take k).flatten ++ tail
  tail  : tail = [] ∨ ∃ frame ∈ frames, tail <+: frame ∧ tail ≠ frame

theorem exists_cut_of_prefix {frames : List (List β)} {bytes : List β} (h : bytes <+: frames.flatten) :
    ∃ k tail, Cut frames bytes k tail := by
  induction frames generalizing bytes
  case nil =>
    have h : bytes = [] := by simpa using h
    exact ⟨0, [], Nat.le_refl 0, h, .inl rfl⟩
  case cons f fs hi =>
    obtain ⟨rest, h⟩ := h
    rcases List.append_eq_append_iff.mp h with ⟨more, hf, _⟩ | ⟨bytes', hb, hp⟩
    case inr =>
      obtain ⟨k, tail, c⟩ := hi ⟨rest, hp.symm⟩
      refine ⟨k + 1, tail, Nat.succ_le_succ c.count, ?_, c.tail.imp_right ?_⟩
      · rw [hb, c.bytes, List.take_succ_cons, List.flatten_cons, List.append_assoc]
      · exact fun ⟨frame, hm, h⟩ => ⟨frame, List.mem_cons_of_mem _ hm, h⟩
    case inl =>
      by_cases he : bytes = f
      case neg =>
        have hp : bytes <+: f := ⟨more, hf.symm⟩
        exact ⟨0, bytes, Nat.zero_le _, rfl, .inr ⟨f, List.mem_cons_self .., hp, he⟩⟩
      case pos =>
        refine ⟨1, [], Nat.succ_le_succ (Nat.zero_le _), ?_, .inl rfl⟩
        simp [he]

-- All frames are cut behind the last one.
theorem exists_cut {frames : List (List β)} {bytes : List β} (h : bytes <+: frames.flatten) :
    ∃ k tail, Cut frames bytes k tail ∧
      (bytes = frames.flatten → k = frames.length ∧ tail = []) := by
  by_cases hf : bytes = frames.flatten
  case neg =>
    obtain ⟨k, tail, cut⟩ := exists_cut_of_prefix h
    exact ⟨k, tail, cut, fun h' => absurd h' hf⟩
  case pos =>
    refine ⟨frames.length, [], ⟨Nat.le_refl _, ?_, .inl rfl⟩, fun _ => ⟨rfl, rfl⟩⟩
    rw [List.take_length, List.append_nil, hf]

section Read

variable {ρ ι ε ν : Type*}

-- Reads a number of messages one after another.
def readAll (read : ρ → ι → Except ε (ν × ρ × ι)) : Nat → ρ → ι → Except ε (List ν × ρ × ι)
  | 0,         reader, input => .ok ([], reader, input)
  | count + 1, reader, input => do
    let (message, reader, input) ← read reader input
    let (messages, reader, input) ← readAll read count reader input
    return (message :: messages, reader, input)

theorem readAll_cons {read : ρ → ι → Except ε (ν × ρ × ι)} {count : Nat} {reader reader' : ρ}
    {input input' : ι} {message : ν} {messages : List ν}
    (h : readAll read (count + 1) reader input = .ok (message :: messages, reader', input')) :
    ∃ reader₁ input₁, read reader input = .ok (message, reader₁, input₁) ∧
      readAll read count reader₁ input₁ = .ok (messages, reader', input') := by
  rw [readAll] at h
  cases hr : read reader input
  case error e => simp [hr, bind, Except.bind] at h
  case ok r    =>
    obtain ⟨m, reader₁, input₁⟩ := r
    cases hrs : readAll read count reader₁ input₁
    case error e => simp [hr, hrs, bind, Except.bind] at h
    case ok rs   =>
      obtain ⟨ms, reader₂, input₂⟩ := rs
      simp only [hr, hrs, bind, Except.bind, pure, Except.pure, Except.ok.injEq, Prod.mk.injEq,
        List.cons.injEq] at h
      obtain ⟨⟨hm, hms⟩, hr', hi'⟩ := h
      subst hm hms hr' hi'
      exact ⟨reader₁, input₁, rfl, hrs⟩

-- What every read preserves while it yields the next one of the expected messages holds at the end.
theorem readAll_eq {read : ρ → ι → Except ε (ν × ρ × ι)} {out : μ → ν} {Q : List μ → ρ → ι → Prop}
    (step : ∀ {message messages reader input}, Q (message :: messages) reader input →
      ∃ reader' input', read reader input = .ok (out message, reader', input') ∧
        Q messages reader' input')
    {messages : List μ} {reader : ρ} {input : ι} (h : Q messages reader input) :
    ∃ reader' input', readAll read messages.length reader input =
      .ok (messages.map out, reader', input') ∧ Q [] reader' input' := by
  induction messages generalizing reader input
  case nil => exact ⟨reader, input, rfl, h⟩
  case cons m messages hi =>
    obtain ⟨reader', input', hr, hq⟩ := step h
    obtain ⟨reader'', input'', hrs, hq⟩ := hi hq
    refine ⟨reader'', input'', ?_, hq⟩
    simp [readAll, hr, hrs, bind, Except.bind, pure, Except.pure]

end Read

-- The wire and the rest of the frame in flight are the frames, in the order of their messages.
structure Sound (encode : κ → μ → Option (List β × κ)) (codec : κ) (s : FrameStream κ μ β) :
    Prop where
  written : s.wire ++ s.rest = s.frames.flatten
  encoded : ∃ codec', encodeAll encode codec s.messages = some (s.frames, codec') ∧
              ∀ c ∈ s.codec, c = codec'

namespace Sound

theorem start : Sound encode codec (start codec) where
  written := rfl
  encoded := ⟨codec, rfl, by simp [FrameStream.start]⟩

theorem step (h : Sound encode codec s) (st : Step encode s s') : Sound encode codec s' := by
  have ⟨c, he, hc⟩ := h.encoded
  cases st
  case encode codec' codec'' message frame hcodec hrest hframe =>
    have : codec' = c := hc _ hcodec
    subst this
    constructor
    case written => simp [← h.written, hrest]
    case encoded => exact ⟨codec'', encodeAll_concat he hframe, by simp⟩
  case write n _ =>
    constructor
    case written => simp [← h.written]
    case encoded => exact ⟨c, he, hc⟩
  case close =>
    constructor
    case written => exact h.written
    case encoded => exact ⟨c, he, by simp⟩

theorem steps (h : Sound encode codec s) (st : Relation.ReflTransGen (Step encode) s s') :
    Sound encode codec s' := by
  induction st
  case refl         => exact h
  case tail _ st hi => exact hi.step st

theorem prefix_wire (h : Sound encode codec s) : s.wire <+: s.frames.flatten :=
  ⟨s.rest, h.written⟩

end Sound

-- A writer which is not given up puts everything on the wire.
theorem steps_of_encodeAll {messages : List μ} {frames : List (List β)}
    (hc : s.codec = some codec) (hr : s.rest = [])
    (h : encodeAll encode codec messages = some (frames, codec')) :
    Relation.ReflTransGen (Step encode) s {
      codec    := some codec'
      messages := s.messages ++ messages
      frames   := s.frames ++ frames
      wire     := s.wire ++ frames.flatten
      rest     := [] } := by
  induction messages generalizing s codec frames
  case nil =>
    obtain ⟨hf, hc'⟩ := Prod.mk.inj (Option.some_inj.mp h)
    subst hf hc'
    obtain ⟨codec', _, _, _, rest⟩ := s
    dsimp only at hc hr
    subst hc hr
    simpa using Relation.ReflTransGen.refl
  case cons m ms hi =>
    obtain ⟨⟨f, codec₁⟩, hf, h⟩ := Option.bind_eq_some_iff.mp h
    obtain ⟨⟨fs, codec₂⟩, hfs, h⟩ := Option.bind_eq_some_iff.mp h
    obtain ⟨h, hc'⟩ := Prod.mk.inj (Option.some_inj.mp h)
    subst h hc'
    refine .head (.encode hc hr hf) (.head (.write f.length rfl) ?_)
    have h := hi (s := {
      codec    := some codec₁
      messages := s.messages ++ [m]
      frames   := s.frames ++ [f]
      wire     := s.wire ++ f
      rest     := [] }) rfl rfl hfs
    simpa using h

end FrameStream
