import Xfr.Control.Reading
import Xfr.Handshake.Gate
import Xfr.Library.JsonText
import Xfr.Library.Runs

open Utf8 (Text)
open ExceptT (Fails Passes Relates Runs)

-- Two transports of which the second reads what the first one writes.
inductive ProtectedControl.Peers : ProtectedControl → ProtectedControl → Prop
  | plaintext : Peers .plaintext .plaintext
  | protectedBy {a b : Codecs} : a.send = b.recv → Peers (.protectedBy a) (.protectedBy b)

-- Writing does not change what is going to be read.
theorem ProtectedControl.Peers.writeMessage {w r : ProtectedControl} (p : Peers w r) {aead : Aead}
    {text : Text} : Peers w (r.writeMessage aead text).2 := by
  cases p
  case plaintext      => exact .plaintext
  case protectedBy hp => exact .protectedBy hp

-- The messages of a handshake can be written.
def ProtectedControl.Writes (aead : Aead) (transport : ProtectedControl) : Prop :=
  ∀ text : Text, (Utf8.encode text).length < MAX_LINE_LENGTH →
    ∃ bytes, (transport.writeMessage aead text).1 = .ok bytes

namespace Handshake

-- What happened stays happened.
def Wire.Before (w w' : Wire) : Prop :=
  w.trace <+: w'.trace

instance : Std.Refl Wire.Before where
  refl _ := List.prefix_rfl

instance : IsTrans Wire Wire.Before where
  trans _ _ _ := List.IsPrefix.trans

abbrev Grows {α : Type} (m : Handshake α) : Prop :=
  Relates Wire.Before m

section Operations

variable {α ε : Type} {aead : Aead} {json : Json} {transport : ProtectedControl} {message : Message}
  {text error : Text} {limit : Option String}

theorem grows_record {e : Event} : Grows (record e) :=
  fun _ => List.prefix_append ..

theorem grows_fault : Grows fault :=
  fun _ => List.prefix_rfl

theorem grows_operate : Grows operate := by
  refine .bind grows_fault fun f => ?_
  split
  case h_1 => exact .throw
  case h_2 => exact .pure

theorem grows_read {next : Fills → Except HandshakeError (α × Fills)} : Grows (read limit next) := by
  refine .bind grows_fault fun f => ?_
  split
  case h_1 => exact .throw
  case h_2 => exact .pure
  case h_3 =>
    intro w
    rw [ExceptT.run_bind_ok .get]
    cases h : next w.inbox
    case error => exact List.prefix_rfl
    case ok r  => exact List.prefix_rfl

theorem grows_write : Grows (write text message) :=
  .bind grows_record fun _ => grows_operate

theorem grows_orThrow {a : Option α} : Grows (orThrow a text) := by
  cases a
  case none => exact .throw
  case some => exact .pure

theorem grows_ofExcept {error : ε → HandshakeError} {r : Except ε α} : Grows (ofExcept error r) := by
  cases r
  case error => exact .throw
  case ok    => exact .pure

theorem grows_ensure {ok : Bool} : Grows (ensure ok text) := by
  cases ok
  case false => exact .throw
  case true  => exact .pure

theorem grows_parse : Grows (parse json text) := by
  unfold parse
  split
  case h_1 => exact .throw
  case h_2 => exact .bind grows_record fun _ => .pure

theorem grows_send : Grows (send json message) := by
  unfold send
  split
  case h_1 => exact .throw
  case h_2 => exact .bind grows_write fun _ => .pure

theorem grows_sendProtected : Grows (sendProtected aead json transport message) := by
  unfold sendProtected
  split
  case h_1 => exact .throw
  case h_2 =>
    split
    case h_1 => exact .throw
    case h_2 => exact .bind grows_write fun _ => .pure

theorem grows_refuse : Grows (refuse json text error : Handshake α) :=
  .bind grows_send fun _ => .throw

theorem grows_refuseUnless {ok : Bool} : Grows (refuseUnless json ok text error) := by
  cases ok
  case false => exact grows_refuse
  case true  => exact .pure

theorem grows_refuseProtected :
    Grows (refuseProtected aead json transport text error : Handshake α) :=
  .bind grows_sendProtected fun _ => .throw

theorem grows_refuseProtectedOn {check : Except (Text × Text) Unit} :
    Grows (refuseProtectedOn aead json transport check) := by
  unfold refuseProtectedOn
  split
  case h_1 => exact .pure
  case h_2 => exact grows_refuseProtected

-- A line is read, and what follows depends on the message.
theorem grows_reply {f : Text → Message → Handshake α} (h : ∀ line m, Grows (f line m)) :
    Grows (do let line ← ofExcept id (← receiveLine limit); f line (← parse json line)) :=
  .bind grows_read fun _ => .bind grows_ofExcept fun line => .bind grows_parse (h line)

end Operations

-- A message which is read as it was written, also when its text arrives in pieces.
structure Carries (json : Json) (message : Message) (text : Text) : Prop where
  serialize   : json.serialize message = some text
  deserialize : json.deserialize text = some message
  enclosed    : JsonText.Enclosed text
  no_newline  : '\n' ∉ text
  ascii       : ∀ c ∈ text, c.toNat < 128
  fits        : (Utf8.encode text).length < MAX_LINE_LENGTH

-- What is going to be read, in fills of any sizes.
structure Holds (inbox : Fills) (bytes : Bytes) : Prop where
  flatten : inbox.flatten = bytes
  ne_nil  : ∀ fill ∈ inbox, fill ≠ []

theorem Holds.drop {inbox : Fills} {bytes rest : Bytes} (h : Holds inbox (bytes ++ rest)) :
    Holds (inbox.drop bytes.length) rest where
  flatten := by rw [Chunks.flatten_drop, h.flatten, List.drop_left]
  ne_nil  := Chunks.ne_nil_of_mem_drop h.ne_nil

section Calm

variable {α ε : Type} {aead : Aead} {json : Json} {transport transport' : ProtectedControl}
  {message : Message} {text error : Text} {limit : Option String} {inbox inbox' : Fills}
  {t : List Event} {e : Event} {a : α} {w : Wire} {bytes rest : Bytes}

theorem runs_record : Runs (record e) ⟨inbox, [], t⟩ () ⟨inbox, [], t ++ [e]⟩ :=
  rfl

theorem runs_fault : Runs fault ⟨inbox, [], t⟩ none ⟨inbox, [], t⟩ :=
  rfl

theorem runs_operate : Runs operate ⟨inbox, [], t⟩ () ⟨inbox, [], t⟩ :=
  rfl

theorem runs_read {next : Fills → Except HandshakeError (α × Fills)}
    (h : next inbox = .ok (a, inbox')) :
    Runs (read limit next) ⟨inbox, [], t⟩ (.ok a) ⟨inbox', [], t⟩ := by
  refine .bind runs_fault ?_
  cases limit
  all_goals
    refine .bind .get ?_
    simp only [h]
    rfl

theorem runs_orThrow : Runs (orThrow (some a) text) w a w :=
  rfl

theorem runs_ofExcept {f : ε → HandshakeError} {r : Except ε α} (h : r = .ok a) :
    Runs (ofExcept f r) w a w :=
  h ▸ rfl

theorem runs_ensure {ok : Bool} (h : ok = true) : Runs (ensure ok text) w () w :=
  h ▸ rfl

theorem runs_refuseUnless {ok : Bool} (h : ok = true) :
    Runs (refuseUnless json ok text error) w () w :=
  h ▸ rfl

theorem fails_ofExcept {f : ε → HandshakeError} {error : ε} {r : Except ε α}
    (h : r = .error error) : Fails (ofExcept f r) w (f error) w :=
  h ▸ rfl

theorem fails_orThrow : Fails (orThrow (none : Option α) text) w (.text text) w :=
  rfl

theorem fails_ensure {ok : Bool} (h : ok = false) : Fails (ensure ok text) w (.text text) w :=
  h ▸ rfl

theorem runs_send (c : Carries json message text) :
    Runs (send json message) ⟨inbox, [], t⟩ text ⟨inbox, [], t ++ [.sent text message]⟩ := by
  simp only [send, c.serialize]
  rfl

theorem runs_sendProtected (c : Carries json message text)
    (h : transport.writeMessage aead text = (.ok bytes, transport')) :
    Runs (sendProtected aead json transport message) ⟨inbox, [], t⟩ transport'
      ⟨inbox, [], t ++ [.sent text message]⟩ := by
  simp only [sendProtected, c.serialize, h]
  rfl

theorem runs_refuseProtectedOn {check : Except (Text × Text) Unit} (h : check = .ok ()) :
    Runs (refuseProtectedOn aead json transport check) w () w :=
  h ▸ rfl

theorem fails_refuse {text' : Text} (c : Carries json (.error text') text) :
    Fails (refuse json text' error : Handshake α) ⟨inbox, [], t⟩ (.text error)
      ⟨inbox, [], t ++ [.sent text (.error text')]⟩ :=
  .after (runs_send c) .throw

theorem isContinuation_eq_false {c : Char} {b : UInt8} (hc : c.toNat < 128)
    (h : b ∈ String.utf8EncodeChar c) : Utf8.isContinuation b = false := by
  unfold String.utf8EncodeChar at h
  rw [show c.val.toNat = c.toNat from rfl] at h
  generalize c.toNat = v at hc h
  dsimp only at h
  rw [if_pos (by omega), List.mem_singleton] at h
  subst h
  simp [Utf8.isContinuation]
  omega

-- Where each character is one byte, no fill begins inside of a character.
theorem Carries.decode (c : Carries json message text) (h : Holds inbox (line text ++ rest)) :
    (inbox.take (line text).length).flatMap Utf8.decodeLossy = text ++ ['\n'] := by
  have htake : (inbox.take (line text).length).flatten = Utf8.encode (text ++ ['\n']) := by
    rw [Chunks.flatten_take, h.flatten, List.take_left, Utf8.encode_append]
    rfl
  have hne := Chunks.ne_nil_of_mem_take (n := (line text).length) h.ne_nil
  refine (Utf8.flatMap_decodeLossy_eq_iff htake hne).mpr fun fill hf => ?_
  cases fill
  case nil       => exact absurd rfl (hne [] hf)
  case cons b bs =>
    have hb : b ∈ Utf8.encode (text ++ ['\n']) := by
      rw [← htake]
      exact List.mem_flatten.mpr ⟨b :: bs, hf, List.mem_cons_self ..⟩
    obtain ⟨d, hd, hb⟩ := List.mem_flatMap.mp hb
    refine isContinuation_eq_false (c := d) ?_ hb
    rcases List.mem_append.mp hd with hd | hd
    case inl => exact c.ascii d hd
    case inr => rw [List.mem_singleton.mp hd]; decide

theorem readLine_line {limit : Nat} (hl : MAX_LINE_LENGTH ≤ limit) (c : Carries json message text)
    (h : Holds inbox (line text ++ rest)) :
    readLine limit inbox 0 [] =
      .ok (text ++ ['\n'], (line text).length, inbox.drop (line text).length) := by
  have hf : inbox.flatten = Utf8.encode text ++ newline :: rest := by simp [h.flatten, line]
  have hlen : (line text).length = (Utf8.encode text).length + 1 := by simp [line]
  have hfits := c.fits
  rw [Framing.readLine_eq (Framing.newline_notMem_encode c.no_newline) (by omega) hf, List.nil_append,
    ← hlen, c.decode h, Nat.zero_add, hlen]

theorem runs_receiveLine (c : Carries json message text) (h : Holds inbox (line text ++ rest)) :
    Runs (receiveLine limit) ⟨inbox, [], t⟩ (.ok (text ++ ['\n']))
      ⟨inbox.drop (line text).length, [], t⟩ := by
  refine runs_read ?_
  simp only [readBoundedLine, readLine_line (Nat.le_refl _) c h]
  rfl

theorem runs_receive (h : transport.readMessage aead inbox = .ok (text, transport', inbox')) :
    Runs (receive aead transport limit) ⟨inbox, [], t⟩ (.ok (text, transport'))
      ⟨inbox', [], t⟩ := by
  refine runs_read ?_
  simp only [h]
  rfl

theorem Carries.trim (c : Carries json message text) : Utf8.trim text = text := by
  have h : Utf8.trim ([] ++ text ++ []) = text := c.enclosed.trim_around (by simp) (by simp)
  simpa using h

theorem Carries.trim_line (c : Carries json message text) : Utf8.trim (text ++ ['\n']) = text := by
  have h : Utf8.trim ([] ++ text ++ ['\n']) = text :=
    c.enclosed.trim_around (by simp) (by simp; rfl)
  simpa using h

-- What is read is a line, or the content of a frame.
theorem runs_parse (c : Carries json message text) {read : Text} (h : Utf8.trim read = text) :
    Runs (parse json read) ⟨inbox, [], t⟩ message ⟨inbox, [], t ++ [.heard text message]⟩ := by
  simp only [parse, h, c.deserialize]
  rfl

end Calm
section Transports

variable {aead : Aead} {json : Json} {message : Message} {text : Text} {w r : ProtectedControl}
  {inbox : Fills} {bytes rest : Bytes}

theorem Carries.transmissible (c : Carries json message text) : Transmissible text where
  no_newline := c.no_newline
  fits       := by
    have h := c.fits
    simp only [MAX_LINE_LENGTH] at h
    omega

-- Reading does not change what is going to be written.
theorem Carries.readMessage (c : Carries json message text) (tagged : aead.Tagged)
    (p : ProtectedControl.Peers w r) (hw : (w.writeMessage aead text).1 = .ok bytes)
    (h : Holds inbox (bytes ++ rest)) :
    ∃ read r' inbox', r.readMessage aead inbox = .ok (read, r', inbox') ∧
      Utf8.trim read = text ∧ read ≠ [] ∧ inbox'.flatten = rest ∧
      ∀ text, (r'.writeMessage aead text).1 = (r.writeMessage aead text).1 := by
  cases p
  case plaintext =>
    cases hw
    refine ⟨text ++ ['\n'], .plaintext, inbox.drop (line text).length, ?_, c.trim_line, by simp,
      h.drop.flatten, fun _ => rfl⟩
    have hl : MAX_LINE_LENGTH ≤ 1024 * 1024 := by decide
    simp only [ProtectedControl.readMessage, readLine_line hl c h, bind, Except.bind, pure,
      Except.pure]
  case protectedBy a b hp =>
    cases hs : sealFrame aead a.send text with | mk sealed send' =>
    simp only [ProtectedControl.writeMessage, hs] at hw
    subst hw
    have he : (ControlWriter.protectedBy a.send).encode? aead text = some (bytes, .protectedBy send') := by
      simp [ControlWriter.encode?, ControlWriter.encodeMessage, hs]
    obtain ⟨send'', payload, _, hb, hl, ho⟩ :=
      ControlWriter.encode?_prefixed tagged c.transmissible he
    subst hb
    obtain ⟨inbox', hf, hr⟩ := readFrame_eq aead b.recv hl h.flatten
    rw [← hp, ho] at hr
    refine ⟨text, .protectedBy { b with recv := send'' }, inbox', ?_, c.trim, ?_, hf, fun _ => rfl⟩
    · simp only [ProtectedControl.readMessage, ← hp, hr, Utf8.decodeLossy_encode, bind, Except.bind,
        pure, Except.pure]
    · intro hn
      cases hn ▸ c.enclosed

end Transports
end Handshake
