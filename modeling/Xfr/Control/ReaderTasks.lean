import Xfr.Control.Reading
import Xfr.Messages.Control

open Utf8 (Text)
open Serde (Value FloatText)

namespace Messages

variable {F : Type} [IntCast F]

-- What the control loop of a client gets to see.
inductive ClientControlEvent (F : Type)
  | message (m : ControlMessage F)
  | eof
  | readFailed (e : ReadError)
  | unparsable (e : ControlMessage.DeserializeError)

-- The task of a client which reads its control stream, up to the end of it or the first error.
def clientControlEvents (aead : Aead) (parse : Text → Option (Value F)) :
    (fuel : Nat) → ControlReader → Fills → Option (List (ClientControlEvent F))
  | 0,        _,          _     => none
  | fuel + 1, ctrlReader, fills =>
    match ctrlReader.readMessage aead fills with
    | .error e                     => some [.readFailed e]
    | .ok (line, ctrlReader, fills) =>
      if Utf8.trim line = [] then some [.eof] else
        match ControlMessage.deserialize parse (Utf8.trim line) with
        | .error e => some [.unparsable e]
        | .ok m    => (clientControlEvents aead parse fuel ctrlReader fills).map (.message m :: ·)

-- Only messages with the identifier of the test are commands for it.
def controlCommand (id : String) : ControlMessage F → Option ControlCommand
  | .cancel fields => if fields.id = id then some .cancel else none
  | .pause fields  => if fields.id = id then some .pause else none
  | .finish fields => if fields.id = id then some .finish else none
  | .resume fields => if fields.id = id then some .resume else none
  | _              => none

-- The task of a server. A message which cannot be parsed is skipped.
def controlCommands (aead : Aead) (parse : Text → Option (Value F)) (id : String) :
    (fuel : Nat) → ControlReader → Fills → Option (List ControlCommand)
  | 0,        _,          _     => none
  | fuel + 1, ctrlReader, fills =>
    match ctrlReader.readMessage aead fills with
    | .error _                      => some []
    | .ok (line, ctrlReader, fills) =>
      if Utf8.trim line = [] then some [] else
        let cmd :=
          match ControlMessage.deserialize parse (Utf8.trim line) with
          | .error _ => none
          | .ok m    => controlCommand id m
        (controlCommands aead parse id fuel ctrlReader fills).map (cmd.toList ++ ·)

variable [FloatText F]

-- A message which fits into a frame, and which the parser reads back.
structure Deliverable (parse : Text → Option (Value F)) (m : ControlMessage F) : Prop where
  reads  : ControlMessage.ReadsBack parse m.value
  finite : ∀ x ∈ m.floats, FloatText.isFinite x = true
  valid  : m.bothAcked = false
  fits   : 8 + ((Utf8.encode m.serialize).length + 16) ≤ 1024 * 1024

variable {parse : Text → Option (Value F)} {m : ControlMessage F} {w : ControlWriter}

namespace Deliverable

theorem transmissible (d : Deliverable parse m) : Transmissible m.serialize where
  no_newline := Serde.newline_not_mem_text
  fits       := d.fits

theorem deserialize (d : Deliverable parse m) :
    ControlMessage.deserialize parse m.serialize = .ok m := by
  rw [ControlMessage.deserialize_serialize d.reads d.finite, ControlMessage.validate, d.valid]
  rfl

end Deliverable

theorem serialize_composite : m.serialize ∈ JsonText.composites := by
  cases m <;> exact Serde.text_mem_composites

theorem trim_presented : Utf8.trim (w.presented m.serialize) = m.serialize := by
  cases w
  case protectedBy => exact JsonText.trim_composite serialize_composite
  case plaintext   =>
    have h : Utf8.trim ([] ++ m.serialize ++ ['\n']) = m.serialize :=
      (JsonText.enclosed_of_composite serialize_composite).trim_around (by simp)
        (List.forall_mem_singleton.mpr rfl)
    simpa [ControlWriter.presented] using h

theorem serialize_ne_nil : m.serialize ≠ [] := by
  intro h
  have hc : m.serialize ∈ JsonText.composites := serialize_composite
  rw [h] at hc
  cases JsonText.enclosed_of_composite hc

variable {aead : Aead} {messages : List (ControlMessage F)} {reader reader' : ControlReader}
  {fills fills' : Fills} {fuel : Nat} {id : String}

-- The client is told of every message which is read, one after another.
theorem clientControlEvents_readAll (hd : ∀ m ∈ messages, Deliverable parse m)
    (h : FrameStream.readAll (ControlWriter.read aead) messages.length reader fills =
      .ok (messages.map fun m => w.presented m.serialize, reader', fills')) :
    clientControlEvents aead parse (messages.length + fuel) reader fills =
      (clientControlEvents aead parse fuel reader' fills').map
        (messages.map .message ++ ·) := by
  induction messages generalizing reader fills
  case nil =>
    obtain ⟨_, h⟩ := Prod.mk.inj (Except.ok.inj h)
    obtain ⟨hr, hf⟩ := Prod.mk.inj h
    subst hr hf
    simp
  case cons m ms hi =>
    obtain ⟨reader₁, fills₁, hr, hrs⟩ := FrameStream.readAll_cons h
    have hr : reader.readMessage aead fills = .ok (w.presented m.serialize, reader₁, fills₁) := hr
    have hi := hi (fun m hm => hd m (List.mem_cons_of_mem _ hm)) hrs
    have hf : (m :: ms).length + fuel = ms.length + fuel + 1 := Nat.succ_add ..
    rw [hf, clientControlEvents, hr]
    simp only [trim_presented, if_neg serialize_ne_nil, (hd m (List.mem_cons_self ..)).deserialize,
      hi, Option.map_map]
    rfl

-- The server takes the commands among them.
theorem controlCommands_readAll (hd : ∀ m ∈ messages, Deliverable parse m)
    (h : FrameStream.readAll (ControlWriter.read aead) messages.length reader fills =
      .ok (messages.map fun m => w.presented m.serialize, reader', fills')) :
    controlCommands aead parse id (messages.length + fuel) reader fills =
      (controlCommands aead parse id fuel reader' fills').map
        (messages.filterMap (controlCommand id) ++ ·) := by
  induction messages generalizing reader fills
  case nil =>
    obtain ⟨_, h⟩ := Prod.mk.inj (Except.ok.inj h)
    obtain ⟨hr, hf⟩ := Prod.mk.inj h
    subst hr hf
    simp
  case cons m ms hi =>
    obtain ⟨reader₁, fills₁, hr, hrs⟩ := FrameStream.readAll_cons h
    have hr : reader.readMessage aead fills = .ok (w.presented m.serialize, reader₁, fills₁) := hr
    have hi := hi (fun m hm => hd m (List.mem_cons_of_mem _ hm)) hrs
    have hf : (m :: ms).length + fuel = ms.length + fuel + 1 := Nat.succ_add ..
    rw [hf, controlCommands, hr]
    simp only [trim_presented, if_neg serialize_ne_nil, (hd m (List.mem_cons_self ..)).deserialize,
      hi, Option.map_map]
    congr 1
    funext rest
    cases hc : controlCommand id m <;> simp [hc]

-- The end of what the client is told, when the connection is closed.
def lastEvent : ControlWriter → ClientControlEvent F
  | .plaintext     => .eof
  | .protectedBy _ => .readFailed .unexpectedEof

variable {codec codec' : ControlWriter} {frames : List Bytes} {k : Nat} {tail : Bytes}

-- Whatever part of the stream arrives, and in whatever pieces: both tasks take exactly the messages
-- which have arrived as a whole, in the order in which they were written.
theorem tasks_eq (tagged : aead.Tagged) (id : String) (hd : ∀ m ∈ messages, Deliverable parse m)
    (he : FrameStream.encodeAll (ControlWriter.encode? aead) codec
      (messages.map ControlMessage.serialize) = some (frames, codec'))
    (cut : FrameStream.Cut frames fills.flatten k tail) (hi : codec.Intact fills)
    (hp : codec = .plaintext → tail = []) (hk : k < fuel) :
    clientControlEvents aead parse fuel codec.peer fills =
      some ((messages.take k).map .message ++ [lastEvent codec]) ∧
    controlCommands aead parse id fuel codec.peer fills =
      some ((messages.take k).filterMap (controlCommand id)) := by
  have ht : ∀ t ∈ messages.map ControlMessage.serialize, Transmissible t := by
    intro t ht
    obtain ⟨m, hm, ht⟩ := List.mem_map.mp ht
    exact ht ▸ (hd m hm).transmissible
  have hd' : ∀ m ∈ messages.take k, Deliverable parse m :=
    fun m hm => hd m (List.mem_of_mem_take hm)
  obtain ⟨reader, fills', hread, hend⟩ := ControlWriter.readAll_cut tagged ht he cut hi hp
  have hlen : (messages.take k).length = k := by
    have hc := cut.count
    rw [FrameStream.encodeAll_length he, List.length_map] at hc
    rw [List.length_take, Nat.min_eq_left hc]
  have hread : FrameStream.readAll (ControlWriter.read aead) (messages.take k).length codec.peer
      fills = .ok ((messages.take k).map fun m => codec.presented m.serialize, reader, fills') := by
    rw [hlen, hread, ← List.map_take, List.map_map]
    rfl
  obtain ⟨fuel, hf⟩ : ∃ fuel', fuel = (messages.take k).length + (fuel' + 1) :=
    ⟨fuel - k - 1, by omega⟩
  have hend : reader.readMessage aead fills' = codec.exhausted := hend
  rw [hf, clientControlEvents_readAll hd' hread, controlCommands_readAll hd' hread,
    clientControlEvents, controlCommands, hend]
  cases codec <;> simp [ControlWriter.exhausted, lastEvent, Utf8.trim]

end Messages
