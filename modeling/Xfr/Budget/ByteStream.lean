import Xfr.Budget.Rounding
import Xfr.Library.Buffer
import Xfr.Library.ErrorKind
import Xfr.Library.Laps

-- What the kernel took of a write, and what the caller gets to know.
structure Chunk where
  queued : Bytes
  result : Except ErrorKind Nat

namespace Chunk

-- A call offers bytes to the kernel. It takes up to some number of them, or it fails.
def call (offered : Bytes) : (answer : Except ErrorKind Nat) → Chunk
  | .ok n       => { queued := offered.take n, result := .ok (offered.take n).length }
  | .error kind => { queued := [], result := .error kind }

-- A socket which would block is tried again, with the same slice.
def unblocked (c : Chunk) : Chunk :=
  match c.result with
  | .error .wouldBlock => { c with result := .ok 0 }
  | _                  => c

end Chunk

-- A memory file with the payload.
structure ZerocopyPayload where
  file : Bytes
  len  : Nat

namespace ZerocopyPayload

-- There are no memory files, and no `sendfile`, on some platforms.
def new (supported : Bool) (payload : Bytes) : Option ZerocopyPayload :=
  if supported ∧ payload ≠ [] then some { file := payload, len := payload.length } else none

-- An interrupted call is made once more. There is no result as long as all calls are interrupted.
def sendfile (offered : Bytes) : (answers : List (Except ErrorKind Nat)) → Option Chunk
  | []                             => none
  | .error .interrupted :: answers => sendfile offered answers
  | answer :: _                    => some (.call offered answer)

def sendfileOnce (p : ZerocopyPayload) (offset maxLen : Nat)
    (answers : List (Except ErrorKind Nat)) : Option Chunk :=
  let remaining := min (p.len - offset) maxLen
  if remaining = 0 then
    some { queued := [], result := .ok 0 }
  else
    sendfile ((p.file.drop offset).take remaining) answers

def sendChunk (p : ZerocopyPayload) (offset maxLen : Nat) (answers : List (Except ErrorKind Nat)) :
    Option Chunk :=
  (p.sendfileOnce offset maxLen answers).map (·.unblocked)

end ZerocopyPayload

def setupZerocopy (config : TcpConfig) (supported : Bool) (buffer : Bytes) :
    Option ZerocopyPayload :=
  if config.zerocopy then ZerocopyPayload.new supported buffer else none

-- An ordinary write makes one call. A socket which takes nothing of a slice is an error.
def tryWrite (buffer : Bytes) (answer : Except ErrorKind Nat) : Chunk :=
  let c := Chunk.call buffer answer
  match c.result with
  | .ok 0 => if buffer = [] then c else { c with result := .error .writeZero }
  | _     => c.unblocked

def writeChunk (buffer : Bytes) (offset : Nat) (zerocopy : Option ZerocopyPayload)
    (answers : List (Except ErrorKind Nat)) : Option Chunk :=
  match zerocopy with
  | some payload => payload.sendChunk offset buffer.length answers
  | none         => answers.head?.map (tryWrite buffer)

namespace SendLoop

-- Without a budget a claim is granted at once.
def stepWithin : Option ByteBudget → SendLoop → SendEvent → Option (Option ByteBudget × SendLoop)
  | some b, l, e => (step (b, l) e).map fun (b, l) => (some b, l)
  | none,   l, e =>
    match l.point, e with
    | .head, .claim => some (none, l.goto (if l.want = 0 then .spent else .writing l.want))
    | _,     _      => (step (⟨0⟩, l) e).map fun (_, l) => (none, l)

end SendLoop

-- The end of a write, which moves on with the bytes that were written.
def SendEvent.isWrite : SendEvent → Bool
  | written _ | rejected | failed => true
  | _                             => false

inductive TcpSender
  | sendData
  | sendDataHalf

def TcpSender.loop : TcpSender → TcpConfig → Bool → Option Nat → SendLoop
  | sendData     => .sendData
  | sendDataHalf => .sendDataHalf

-- A TCP send loop, with its payload and the bytes on its socket.
structure ByteStream where
  loop     : SendLoop
  budget   : Option ByteBudget
  buffer   : Bytes
  zerocopy : Option ZerocopyPayload
  socket   : Bytes

inductive StreamEvent
  | loop (e : SendEvent)
  | write (answers : List (Except ErrorKind Nat))
  -- What the other loops make of the budget.
  | others (b : ByteBudget)

namespace ByteStream

-- The payload is all zeros, or it is random.
def fill (config : TcpConfig) (bitrate : Option Nat) (payload : Nat → UInt8) : Bytes :=
  (List.range (bufSize config.bufferSize bitrate)).map payload

def start (sender : TcpSender) (config : TcpConfig) (finite : Bool) (bitrate : Option Nat)
    (payload : Nat → UInt8) (budget : Option ByteBudget) (supported : Bool) : ByteStream :=
  let buffer := fill config bitrate payload
  let zerocopy := setupZerocopy config supported buffer
  {
    loop     := { sender.loop config finite bitrate with zerocopy := zerocopy.isSome }
    budget   := budget
    buffer   := buffer
    zerocopy := zerocopy
    socket   := []
  }

-- A socket which rejects zero-copy sends gets regular writes from then on.
def outcome (s : ByteStream) : (result : Except ErrorKind Nat) → SendEvent
  | .ok n       => .written n
  | .error kind =>
    if s.zerocopy.isSome ∧ (kind = .unsupported ∨ kind = .invalidInput) then .rejected else .failed

def slice (s : ByteStream) (claimed : Nat) : Except OutOfBounds Bytes :=
  Buffer.slice s.buffer s.loop.chunkOffset (s.loop.chunkOffset + claimed)

def wrote (s : ByteStream) (chunk : Chunk) : Option ByteStream := do
  let (budget, loop) ← s.loop.stepWithin s.budget (s.outcome chunk.result)
  return { s with
    loop     := loop
    budget   := budget
    zerocopy := if loop.zerocopy then s.zerocopy else none
    socket   := s.socket ++ chunk.queued }

def step : System ByteStream StreamEvent
  | s, .others b      => s.budget.map fun _ => { s with budget := some b }
  | s, .loop e        =>
    if e.isWrite then
      none
    else
      (s.loop.stepWithin s.budget e).map fun (budget, loop) => { s with loop, budget }
  | s, .write answers =>
    match s.loop.point with
    | .writing claimed =>
      match s.slice claimed with
      | .error _  => none
      | .ok slice => do
        let chunk ← writeChunk slice s.loop.chunkOffset s.zerocopy answers
        s.wrote chunk
    | _                => none

end ByteStream

namespace Chunk

variable {offered : Bytes} {c : Chunk}

-- A chunk is the beginning of what was offered, and its caller gets to know where it ends.
structure Of (offered : Bytes) (c : Chunk) : Prop where
  queued : c.queued <+: offered
  ok     : ∀ {n}, c.result = .ok n → n = c.queued.length
  error  : ∀ {kind}, c.result = .error kind → c.queued = []

theorem Of.call {answer : Except ErrorKind Nat} : Of offered (.call offered answer) := by
  cases answer
  case ok n =>
    exact { queued := List.take_prefix .., ok := fun h => (Except.ok.inj h).symm, error := nofun }
  case error kind =>
    exact { queued := List.nil_prefix, ok := nofun, error := fun _ => rfl }

theorem Of.unblocked (o : Of offered c) : Of offered c.unblocked := by
  unfold Chunk.unblocked
  split
  case h_2 => exact o
  case h_1 h =>
    have hq := o.error h
    exact { queued := o.queued, ok := fun h => by simpa [hq] using h.symm, error := nofun }

theorem Of.written {answer : Except ErrorKind Nat} : Of offered (tryWrite offered answer) := by
  have o := @Of.call offered answer
  unfold tryWrite
  dsimp only
  split
  case h_2 => exact o.unblocked
  case h_1 h =>
    have hq : (Chunk.call offered answer).queued = [] := List.eq_nil_of_length_eq_zero (o.ok h).symm
    split
    case isTrue  => exact o
    case isFalse => exact { queued := o.queued, ok := nofun, error := fun _ => hq }

theorem queued_unblocked : c.unblocked.queued = c.queued := by
  unfold unblocked
  split <;> rfl

theorem queued_tryWrite {answer : Except ErrorKind Nat} :
    (tryWrite offered answer).queued = (call offered answer).queued := by
  unfold tryWrite
  dsimp only
  split
  case h_1 => split <;> rfl
  case h_2 => exact queued_unblocked

theorem Of.sendfile {answers : List (Except ErrorKind Nat)}
    (h : ZerocopyPayload.sendfile offered answers = some c) : Of offered c := by
  fun_induction ZerocopyPayload.sendfile offered answers
  case case1         => contradiction
  case case2 hi      => exact hi h
  case case3         => exact Option.some_inj.mp h ▸ .call

end Chunk

namespace ZerocopyPayload

variable {p : ZerocopyPayload} {offset claimed : Nat} {answers : List (Except ErrorKind Nat)}

-- The memory file holds the same bytes at the offset as the buffer.
theorem sendfileOnce_eq (hl : p.len = p.file.length) (hc : 0 < claimed)
    (hb : offset + claimed ≤ p.file.length) :
    p.sendfileOnce offset claimed answers =
      sendfile ((p.file.drop offset).take claimed) answers := by
  have hr : min (p.len - offset) claimed = claimed := by omega
  rw [sendfileOnce, hr]
  exact if_neg hc.ne'

end ZerocopyPayload

namespace SendLoop

variable {b b' : ByteBudget} {budget budget' : Option ByteBudget} {l l' : SendLoop} {e : SendEvent}
  {claimed n : Nat}

-- A step which ends no write leaves the position of the loop as it is.
structure Moves (l l' : SendLoop) : Prop where
  frame : l' = l.goto l'.point
  claim : ∀ {claimed}, l'.point = .writing claimed → 0 < claimed ∧ claimed ≤ l.want

theorem Moves.goto {point : SendPoint} (h : ∀ {claimed}, point ≠ .writing claimed) :
    Moves l (l.goto point) where
  frame := rfl
  claim := fun hp => absurd hp h

theorem step_moves (hw : e.isWrite = false) (h : step (b, l) e = some (b', l')) : Moves l l' := by
  unfold step at h
  dsimp only at h
  split at h
  case h_2 hp => cases h; exact { frame := rfl, claim := fun hc => by simp [hp] at hc }
  case h_1 | h_4 | h_5 | h_7 | h_8 =>
    cases h
    exact .goto nofun
  case h_3 | h_9 =>
    have ⟨_, h⟩ := Option.ite_none_right_eq_some.mp h
    cases h
    exact .goto nofun
  case h_6 =>
    split at h
    case h_1 => cases h; exact .goto nofun
    case h_2 claimed hn ha =>
      cases h
      refine { frame := rfl, claim := fun hc => ?_ }
      obtain rfl := SendPoint.writing.inj hc
      have hz := Nat.pos_of_ne_zero hn
      cases ByteBudget.attempt_granted ha
      case inl hg => omega
      case inr hg => omega
    case h_3 => cases h; exact .goto nofun
  case h_10 | h_11 | h_12 => contradiction
  case h_13 bytes next hp =>
    cases h
    exact .goto (by cases next <;> nofun)
  case h_14 cancelled hp =>
    cases h
    exact .goto (by cases cancelled <;> nofun)
  case h_15 => contradiction

theorem stepWithin_moves (hw : e.isWrite = false)
    (h : l.stepWithin budget e = some (budget', l')) : Moves l l' := by
  unfold stepWithin at h
  split at h
  case h_1 =>
    have ⟨_, hs, he⟩ := Option.map_eq_some_iff.mp h
    cases he
    exact step_moves hw hs
  case h_2 =>
    split at h
    case h_2 =>
      have ⟨_, hs, he⟩ := Option.map_eq_some_iff.mp h
      cases he
      exact step_moves hw hs
    case h_1 =>
      cases h
      refine { frame := rfl, claim := fun hc => ?_ }
      have hw := l.want_pos
      rw [if_neg hw.ne'] at hc
      obtain rfl := SendPoint.writing.inj hc
      exact ⟨hw, Nat.le_refl _⟩

theorem wrote_frame :
    (l.wrote n).transport = l.transport ∧ (l.wrote n).bufferLen = l.bufferLen ∧
      (l.wrote n).zerocopy = l.zerocopy := by
  unfold wrote
  split
  case h_1 => exact ⟨rfl, rfl, rfl⟩
  case h_2 => split <;> exact ⟨rfl, rfl, rfl⟩

theorem chunkOffset_wrote (ht : l.transport = .tcp) :
    (l.wrote n).chunkOffset = if l.chunkOffset + n ≥ l.bufferLen then 0 else l.chunkOffset + n := by
  unfold wrote
  split
  case h_1 hq => simp [ht] at hq
  case h_2    => split <;> rfl

-- A write returns the rest of its claim.
theorem stepWithin_written (hp : l.point = .writing claimed) (hn : n ≤ claimed) :
    l.stepWithin budget (.written n) =
      some (budget, (l.wrote n).goto (.refunding (claimed - n) .pacing)) := by
  cases budget <;> simp [stepWithin, step, hp, hn]

theorem stepWithin_rejected (hp : l.point = .writing claimed) (hz : l.zerocopy) :
    l.stepWithin budget .rejected =
      some (budget, { l with zerocopy := false }.goto (.refunding claimed .head)) := by
  cases budget <;> simp [stepWithin, step, hp, hz]

theorem stepWithin_failed (hp : l.point = .writing claimed) :
    l.stepWithin budget .failed =
      some (budget, l.goto (.refunding claimed (.interrupted .failed))) := by
  cases budget <;> simp [stepWithin, step, hp]

end SendLoop

namespace ByteStream

variable {s s' : ByteStream} {claimed : Nat} {chunk : Chunk} {answers : List (Except ErrorKind Nat)}

-- The socket has the payload up to the offset, after some whole buffers. A memory file has the same
-- payload, and a claim does not go past the end of the buffer.
structure Intact (s : ByteStream) : Prop where
  transport : s.loop.transport = .tcp
  length    : s.buffer.length = s.loop.bufferLen
  zerocopy  : s.loop.zerocopy = s.zerocopy.isSome
  payload   : ∀ p ∈ s.zerocopy, p.file = s.buffer ∧ p.len = s.buffer.length
  claim     : ∀ {claimed}, s.loop.point = .writing claimed →
    0 < claimed ∧ s.loop.chunkOffset + claimed ≤ s.buffer.length
  position  : ∃ k, s.socket = laps s.buffer k s.loop.chunkOffset
  written   : s.socket.length = s.loop.written

def rest (s : ByteStream) (claimed : Nat) : Bytes :=
  (s.buffer.drop s.loop.chunkOffset).take claimed

theorem Intact.slice_eq (i : Intact s) (hp : s.loop.point = .writing claimed) :
    s.slice claimed = .ok (s.rest claimed) :=
  Buffer.slice_eq (i.claim hp).right

theorem Intact.length_rest (i : Intact s) (hp : s.loop.point = .writing claimed) :
    (s.rest claimed).length = claimed := by
  have := (i.claim hp).right
  simp only [rest, List.length_take, List.length_drop]
  omega

-- Both ways to write offer the same slice to the kernel.
theorem Intact.chunk_of (i : Intact s) (hp : s.loop.point = .writing claimed)
    (h : writeChunk (s.rest claimed) s.loop.chunkOffset s.zerocopy answers = some chunk) :
    chunk.Of (s.rest claimed) := by
  have ⟨hc, hb⟩ := i.claim hp
  unfold writeChunk at h
  split at h
  case h_2 =>
    have ⟨_, _, h⟩ := Option.map_eq_some_iff.mp h
    exact h ▸ .written
  case h_1 p hz =>
    have ⟨hf, hl⟩ := i.payload p hz
    have ⟨c, h, hu⟩ := Option.map_eq_some_iff.mp h
    rw [i.length_rest hp, ZerocopyPayload.sendfileOnce_eq (hf ▸ hl) hc (hf ▸ hb), hf] at h
    exact hu ▸ (Chunk.Of.sendfile h).unblocked

theorem wrote_eq {budget : Option ByteBudget} {loop : SendLoop}
    (h : s.loop.stepWithin s.budget (s.outcome chunk.result) = some (budget, loop)) :
    s.wrote chunk = some { s with
      loop     := loop
      budget   := budget
      zerocopy := if loop.zerocopy then s.zerocopy else none
      socket   := s.socket ++ chunk.queued } := by
  simp [wrote, h]

-- The bytes of a write follow those before it.
theorem Intact.position_wrote {n : Nat} (i : Intact s) (hp : s.loop.point = .writing claimed)
    (hq : chunk.queued <+: s.rest claimed) (hn : n = chunk.queued.length) :
    ∃ k, s.socket ++ chunk.queued = laps s.buffer k (s.loop.wrote n).chunkOffset := by
  have ⟨k, hs⟩ := i.position
  have hb := (i.claim hp).right
  have hl : n ≤ claimed := by
    rw [hn, ← i.length_rest hp]
    exact hq.length_le
  have hd : chunk.queued = (s.buffer.drop s.loop.chunkOffset).take n := by
    rw [List.prefix_iff_eq_take.mp hq, ← hn, rest, List.take_take, Nat.min_eq_left hl]
  rw [hs, hd, Laps.laps_append, SendLoop.chunkOffset_wrote i.transport, ← i.length]
  split
  case isFalse => exact ⟨k, rfl⟩
  case isTrue hge =>
    have he : s.loop.chunkOffset + n = s.buffer.length := by omega
    exact ⟨k + 1, by rw [he, Laps.laps_length]⟩

-- The payload of a socket which takes zero-copy sends stays there.
theorem Intact.kept (i : Intact s) : (if s.loop.zerocopy then s.zerocopy else none) = s.zerocopy := by
  rw [i.zerocopy]
  cases s.zerocopy <;> rfl

-- Any chunk is the end of a write.
theorem Intact.wrote (i : Intact s) (hp : s.loop.point = .writing claimed)
    (hc : chunk.Of (s.rest claimed)) : ∃ s', s.wrote chunk = some s' ∧ s'.Intact := by
  cases hr : chunk.result
  case ok n =>
    have hn := hc.ok hr
    have hl : n ≤ claimed := by
      rw [hn, ← i.length_rest hp]
      exact hc.queued.length_le
    have ⟨ht, hb, hz⟩ := @SendLoop.wrote_frame s.loop n
    have hk : (if (s.loop.wrote n).zerocopy then s.zerocopy else none) = s.zerocopy := by
      rw [hz, i.kept]
    refine ⟨_, wrote_eq (by rw [hr]; exact SendLoop.stepWithin_written hp hl), ?_⟩
    exact {
      transport := ht.trans i.transport
      length    := i.length.trans hb.symm
      zerocopy  := (hz.trans i.zerocopy).trans (congrArg Option.isSome hk.symm)
      payload   := fun p hp => i.payload p (hk ▸ hp)
      claim     := nofun
      position  := i.position_wrote hp hc.queued hn
      written   := by
        have hw : s.loop.written + n = (s.loop.wrote n).written := SendLoop.written_wrote.symm
        rw [List.length_append, i.written, ← hn]
        exact hw
    }
  case error kind =>
    have hs : s.socket ++ chunk.queued = s.socket := by rw [hc.error hr, List.append_nil]
    have position : ∃ k, s.socket ++ chunk.queued = laps s.buffer k s.loop.chunkOffset := by
      rw [hs]
      exact i.position
    have written : (s.socket ++ chunk.queued).length = s.loop.written := by
      rw [hs]
      exact i.written
    by_cases hk : s.zerocopy.isSome ∧ (kind = .unsupported ∨ kind = .invalidInput)
    case pos =>
      have ho : s.outcome chunk.result = .rejected := by simp only [hr, outcome, if_pos hk]
      have hz : s.loop.zerocopy := i.zerocopy ▸ hk.left
      refine ⟨_, wrote_eq (by rw [ho]; exact SendLoop.stepWithin_rejected hp hz), ?_⟩
      exact {
        transport := i.transport
        length    := i.length
        zerocopy  := rfl
        payload   := nofun
        claim     := nofun
        position  := position
        written   := written
      }
    case neg =>
      have ho : s.outcome chunk.result = .failed := by simp only [hr, outcome, if_neg hk]
      refine ⟨_, wrote_eq (by rw [ho]; exact SendLoop.stepWithin_failed hp), ?_⟩
      exact {
        transport := i.transport
        length    := i.length
        zerocopy  := i.zerocopy.trans (congrArg Option.isSome i.kept.symm)
        payload   := fun p hp => i.payload p (i.kept ▸ hp)
        claim     := nofun
        position  := position
        written   := written
      }

theorem buffer_wrote (h : s.wrote chunk = some s') : s'.buffer = s.buffer := by
  have ⟨_, _, h⟩ := Option.bind_eq_some_iff.mp h
  exact Option.some_inj.mp h ▸ rfl

theorem Intact.moves {budget : Option ByteBudget} {loop : SendLoop} (i : Intact s)
    (m : s.loop.Moves loop) : Intact { s with loop, budget } := by
  have hf := m.frame
  have hb : s.loop.want = s.buffer.length - s.loop.chunkOffset := by
    rw [SendLoop.want, i.transport, i.length]
  have ho : s.loop.chunkOffset < s.buffer.length := i.length ▸ s.loop.chunkOffset_lt
  rw [hf]
  exact {
    transport := i.transport
    length    := i.length
    zerocopy  := i.zerocopy
    payload   := i.payload
    claim     := fun hp => by
      have := m.claim hp
      dsimp only [SendLoop.goto]
      omega
    position  := i.position
    written   := i.written
  }

theorem step_intact {e : StreamEvent} (i : Intact s) (h : step s e = some s') :
    Intact s' ∧ s'.buffer = s.buffer := by
  cases e
  case others b =>
    have ⟨_, _, h⟩ := Option.map_eq_some_iff.mp h
    cases h
    exact ⟨{ i with }, rfl⟩
  case loop e =>
    have ⟨hw, h⟩ := Option.ite_none_left_eq_some.mp h
    have ⟨_, hs, h⟩ := Option.map_eq_some_iff.mp h
    cases h
    exact ⟨i.moves <| SendLoop.stepWithin_moves (Bool.eq_false_of_not_eq_true hw) hs, rfl⟩
  case write answers =>
    unfold step at h
    dsimp only at h
    split at h
    case h_2 => contradiction
    case h_1 claimed hp =>
      rw [i.slice_eq hp] at h
      have ⟨chunk, hc, h⟩ := Option.bind_eq_some_iff.mp h
      have ⟨_, hw, i'⟩ := i.wrote hp (i.chunk_of hp hc)
      obtain rfl := Option.some_inj.mp (hw.symm.trans h)
      exact ⟨i', buffer_wrote h⟩

variable {sender : TcpSender} {config : TcpConfig} {finite supported : Bool} {bitrate : Option Nat}
  {payload : Nat → UInt8} {budget : Option ByteBudget} {es : List StreamEvent}

theorem start_intact : Intact (start sender config finite bitrate payload budget supported) where
  transport := by cases sender <;> rfl
  length    := by cases sender <;> simp [start, fill] <;> rfl
  zerocopy  := rfl
  payload   := fun p hp => by
    obtain ⟨_, hp⟩ := Option.ite_none_right_eq_some.mp hp
    obtain ⟨_, hp⟩ := Option.ite_none_right_eq_some.mp hp
    exact Option.some_inj.mp hp ▸ ⟨rfl, rfl⟩
  claim     := by intro _ h; cases sender <;> cases h
  position  := ⟨0, by cases sender <;> rfl⟩
  written   := by cases sender <;> rfl

theorem run_intact
    (h : step.run (start sender config finite bitrate payload budget supported) es = some s) :
    Intact s ∧ s.buffer = fill config bitrate payload :=
  System.run_invariant (I := fun s => Intact s ∧ s.buffer = fill config bitrate payload)
    (fun i h => have ⟨i', hb⟩ := step_intact i.left h; ⟨i', hb.trans i.right⟩)
    ⟨start_intact, rfl⟩ h

-- Both ways to write put the same bytes on the socket when the kernel takes as many of them.
theorem Intact.queued_eq {n : Nat} (i : Intact s) (hp : s.loop.point = .writing claimed) :
    (writeChunk (s.rest claimed) s.loop.chunkOffset s.zerocopy [.ok n]).map (·.queued) =
      some ((s.rest claimed).take n) := by
  have ⟨hc, hb⟩ := i.claim hp
  unfold writeChunk
  split
  case h_2 => exact congrArg some Chunk.queued_tryWrite
  case h_1 p hz =>
    have ⟨hf, hl⟩ := i.payload p hz
    rw [ZerocopyPayload.sendChunk, i.length_rest hp,
      ZerocopyPayload.sendfileOnce_eq (hf ▸ hl) hc (hf ▸ hb), hf, Option.map_map]
    exact congrArg some Chunk.queued_unblocked

-- What is on the socket is a beginning of the payload, repeated without an end. The offset tells where
-- it goes on. A write takes a part of its slice, which is as long as its claim, and there is a step for
-- every way in which it can end.
structure Repeats (s : ByteStream) : Prop where
  stream  : ∃ k, s.socket <+: (List.replicate k s.buffer).flatten
  written : s.socket.length = s.loop.written
  offset  : s.loop.chunkOffset < s.buffer.length ∧
    s.loop.chunkOffset = s.socket.length % s.buffer.length
  write   : ∀ {claimed}, s.loop.point = .writing claimed →
    ∃ slice, s.slice claimed = .ok slice ∧ slice.length = claimed ∧
      (∀ {answers chunk}, writeChunk slice s.loop.chunkOffset s.zerocopy answers = some chunk →
        chunk.queued <+: slice ∧
        ∃ s', step s (.write answers) = some s' ∧ s'.socket = s.socket ++ chunk.queued) ∧
      ∀ n, (writeChunk slice s.loop.chunkOffset s.zerocopy [.ok n]).map (·.queued) =
        (writeChunk slice s.loop.chunkOffset none [.ok n]).map (·.queued)

theorem Intact.step_write (i : Intact s) (hp : s.loop.point = .writing claimed)
    (h : writeChunk (s.rest claimed) s.loop.chunkOffset s.zerocopy answers = some chunk) :
    ∃ s', step s (.write answers) = some s' ∧ s'.socket = s.socket ++ chunk.queued := by
  have ⟨s', hw, _⟩ := i.wrote hp (i.chunk_of hp h)
  have hs : step s (.write answers) = some s' := by
    simp only [step, hp, i.slice_eq hp, h, Option.bind_eq_bind, Option.bind_some, hw]
  have ⟨_, _, hw⟩ := Option.bind_eq_some_iff.mp hw
  exact ⟨s', hs, Option.some_inj.mp hw ▸ rfl⟩

theorem Intact.repeats (i : Intact s) : Repeats s where
  stream  := by
    have ⟨k, hs⟩ := i.position
    exact ⟨k + 1, hs ▸ Laps.laps_prefix_succ⟩
  written := i.written
  offset  := by
    have ⟨k, hs⟩ := i.position
    have ho : s.loop.chunkOffset < s.buffer.length := i.length ▸ s.loop.chunkOffset_lt
    refine ⟨ho, ?_⟩
    rw [hs, Laps.length_laps ho.le, Nat.add_comm, Nat.add_mul_mod_self_right, Nat.mod_eq_of_lt ho]
  write   := fun hp => by
    refine ⟨_, i.slice_eq hp, i.length_rest hp, fun h => ?_, fun n => ?_⟩
    · exact ⟨(i.chunk_of hp h).queued, i.step_write hp h⟩
    · exact (i.queued_eq hp).trans <| congrArg some (@Chunk.queued_tryWrite _ (.ok n)).symm

-- The states of all runs, of both send loops.
def Reached (s : ByteStream) : Prop :=
  ∃ sender config finite bitrate payload budget supported es,
    step.run (start sender config finite bitrate payload budget supported) es = some s

-- The bytes on a socket do not depend on the way they got there, but for their number.
theorem byte_stream
    (h : step.run (start sender config finite bitrate payload budget supported) es = some s) :
    s.buffer = fill config bitrate payload ∧ Repeats s ∧
    ∀ s', Reached s' → s'.buffer = s.buffer → s.socket.length ≤ s'.socket.length →
      s.socket <+: s'.socket := by
  have ⟨i, hf⟩ := run_intact h
  refine ⟨hf, i.repeats, fun s' ⟨_, _, _, _, _, _, _, _, h'⟩ hb hl => ?_⟩
  have ⟨k, hs⟩ := i.position
  have ⟨k', hs'⟩ := (run_intact h').left.position
  rw [hb] at hs'
  rw [hs, hs'] at hl ⊢
  exact Laps.laps_prefix_laps hl

-- The socket rejects the second zero-copy send, and gets the rest with ordinary writes.
def demoted : List StreamEvent :=
  let claim : List StreamEvent := [.loop .claim, .loop .load, .loop (.attempt false)]
  claim ++ [.write [.error .interrupted, .ok 3], .loop .refund, .loop (.paced false)] ++
    claim ++ [.write [.error .unsupported], .loop .refund] ++
    claim ++ [.write [.error .wouldBlock], .loop .refund, .loop (.paced false)] ++
    claim ++ [.write [.ok 2], .loop .refund, .loop (.paced false)] ++
    claim ++ [.write [.ok 1]]

theorem byte_stream_demoted :
    ∃ s, step.run (start .sendData { bufferSize := 5, zerocopy := true } true none UInt8.ofNat
        (some ⟨6⟩) true) demoted = some s ∧
      s.socket = [0, 1, 2, 3, 4, 0] ∧ Repeats s := by
  have hm : (step.run (start .sendData { bufferSize := 5, zerocopy := true } true none UInt8.ofNat
      (some ⟨6⟩) true) demoted).map (·.socket) = some [0, 1, 2, 3, 4, 0] := by decide
  have ⟨s, hr, hs⟩ := Option.map_eq_some_iff.mp hm
  exact ⟨s, hr, hs, (byte_stream hr).right.left⟩

end ByteStream
