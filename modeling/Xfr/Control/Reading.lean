import Xfr.Control.Framing
import Xfr.Report.Framed

open Utf8 (Text)

-- The tag of an authenticated cipher comes with the encrypted bytes.
def Aead.Tagged (aead : Aead) : Prop :=
  ∀ {key nonce aad msg ciphertext : Bytes}, aead.encrypt key nonce aad msg = some ciphertext →
    ciphertext.length = msg.length + 16

-- A cipher which does nothing but append its tag.
def Aead.tagging : Aead where
  encrypt _ _ _ msg := some (msg ++ List.replicate 16 0)
  decrypt _ _ _ ciphertext := some (ciphertext.take (ciphertext.length - 16))
  decrypt_encrypt := by
    rintro _ _ _ msg _ ⟨⟩
    simp

theorem Aead.tagging_tagged : Aead.tagging.Tagged := by
  rintro _ _ _ msg _ ⟨⟩
  simp

-- One line of text which fits into a frame.
structure Transmissible (text : Text) : Prop where
  no_newline : '\n' ∉ text
  fits       : 8 + ((Utf8.encode text).length + 16) ≤ 1024 * 1024

theorem Transmissible.line_fits {text : Text} (h : Transmissible text) :
    (line text).length ≤ 1024 * 1024 := by
  have := h.fits
  simp only [line, List.length_append, List.length_singleton]
  omega

section Exact

variable {n : Nat} {fills : Fills} {bytes rest : Bytes}

theorem readExact_eq (h : fills.flatten = bytes ++ rest) :
    readExact bytes.length fills = .ok (bytes, fills.drop bytes.length) ∧
      (fills.drop bytes.length).flatten = rest := by
  have ht : (fills.take bytes.length).flatten = bytes := by simp [h]
  refine ⟨?_, by simp [h]⟩
  simp [readExact, ht]

theorem readExact_eof (h : fills.flatten.length < n) :
    readExact n fills = .error .unexpectedEof := by
  have hl : (fills.take n).flatten.length < n := by
    rw [Chunks.flatten_take, List.length_take]
    omega
  rw [readExact, if_pos hl]

end Exact

-- A length prefix and what it announces.
def prefixed (payload : Bytes) : Bytes :=
  Bytes.toBe 4 payload.length ++ payload

section Frame

variable {aead : Aead} {recv : ControlCodec} {payload rest tail : Bytes} {fills : Fills}

theorem ofBe_length (h : payload.length ≤ 1024 * 1024) :
    Bytes.ofBe (Bytes.toBe 4 payload.length) = payload.length := by
  rw [Bytes.ofBe_toBe]
  exact Nat.mod_eq_of_lt (by omega)

theorem readFrame_eq (aead : Aead) (recv : ControlCodec) (hl : payload.length ≤ 1024 * 1024)
    (h : fills.flatten = prefixed payload ++ rest) :
    ∃ fills', fills'.flatten = rest ∧
      readFrame aead recv fills =
        match recv.openPayload aead payload with
        | (.ok plaintext, recv) => .ok (Utf8.decodeLossy plaintext, recv, fills')
        | (.error e, _)         => .error (.codec e) := by
  rw [prefixed, List.append_assoc] at h
  have ⟨hr, hd⟩ := readExact_eq h
  have ⟨hr', hd'⟩ := readExact_eq hd
  rw [Bytes.length_toBe] at hr hr' hd'
  refine ⟨_, hd', ?_⟩
  simp only [readFrame, hr, bind, Except.bind, ofBe_length hl]
  rw [if_neg (by omega)]
  simp only [pure, Except.pure, hr']
  cases recv.openPayload aead payload with | mk r recv' =>
  cases r <;> rfl

-- Before a frame is complete, nothing of it is handed over.
theorem readFrame_eof (hl : payload.length ≤ 1024 * 1024) (hp : tail <+: prefixed payload)
    (hn : tail ≠ prefixed payload) (h : fills.flatten = tail) :
    readFrame aead recv fills = .error .unexpectedEof := by
  have hlen : tail.length < 4 + payload.length := by
    have hle := hp.length_le
    have hne : tail.length ≠ (prefixed payload).length := fun he => hn (hp.eq_of_length he)
    simp only [prefixed, List.length_append, Bytes.length_toBe] at hle hne
    omega
  by_cases h4 : tail.length < 4
  case pos => simp [readFrame, readExact_eof (h ▸ h4), bind, Except.bind]
  case neg =>
    obtain ⟨more, hm⟩ := List.prefix_of_prefix_length_le (List.prefix_append _ _) hp
      (by rw [Bytes.length_toBe]; omega)
    have hf : fills.flatten = Bytes.toBe 4 payload.length ++ more := h.trans hm.symm
    have ⟨hr, hd⟩ := readExact_eq hf
    rw [Bytes.length_toBe] at hr hd
    have hshort : (fills.drop 4).flatten.length < payload.length := by
      rw [hd]
      have := congrArg List.length hm
      rw [List.length_append, Bytes.length_toBe] at this
      omega
    simp only [readFrame, hr, bind, Except.bind, ofBe_length hl]
    rw [if_neg (by omega)]
    simp only [readExact_eof hshort]

theorem readFrame_nil (h : fills.flatten = []) :
    readFrame aead recv fills = .error .unexpectedEof := by
  have hshort : fills.flatten.length < 4 := by rw [h]; decide
  simp [readFrame, readExact_eof hshort, bind, Except.bind]

end Frame

namespace ControlWriter

-- The reader on the other side, when it has read everything which was encoded so far.
def peer : ControlWriter → ControlReader
  | plaintext        => .plaintext
  | protectedBy send => .protectedBy send

-- A line is handed over with its newline.
def presented : ControlWriter → Text → Text
  | plaintext,     text => text ++ ['\n']
  | protectedBy _, text => text

-- Lines are converted fill by fill, so that none may begin inside of a character.
def Intact : ControlWriter → Fills → Prop
  | plaintext,     fills => ∀ f ∈ fills, f ≠ [] ∧ Utf8.startsInside f = false
  | protectedBy _, _     => True

variable {aead : Aead} {send : ControlCodec} {w codec codec' : ControlWriter} {text : Text}
  {frame tail : Bytes} {fills : Fills} {messages : List Text} {frames : List Bytes}

theorem encode?_prefixed (tagged : aead.Tagged) (ht : Transmissible text)
    (h : (protectedBy send).encode? aead text = some (frame, w)) :
    ∃ send' payload, w = protectedBy send' ∧ frame = prefixed payload ∧
      payload.length ≤ 1024 * 1024 ∧
      send.openPayload aead payload = (.ok (Utf8.encode text), send') := by
  obtain ⟨send', ciphertext, hw, ha, hc, hf⟩ := encode?_protectedBy h
  have hl := tagged hc
  have hfits := ht.fits
  have hlen : (Bytes.toLe 8 send.seq.toNat ++ ciphertext).length = 8 + ciphertext.length := by
    rw [List.length_append, Bytes.length_toLe]
  refine ⟨send', Bytes.toLe 8 send.seq.toNat ++ ciphertext, hw, ?_, by omega, ?_⟩
  · rw [hf, prefixed, hlen]
  · refine ControlCodec.openPayload_eq_ok_iff.mpr ⟨by omega, ?_, ?_, ha⟩
    · rw [List.take_left' Bytes.length_toLe, Bytes.ofLe_toLe]
      exact UInt64.toNat_inj.mp (by simp)
    · rw [List.drop_left' Bytes.length_toLe]
      exact aead.decrypt_encrypt hc

def read (aead : Aead) (reader : ControlReader) (fills : Fills) :
    Except ReadError (Text × ControlReader × Fills) :=
  reader.readMessage aead fills

-- The frames of some messages are still to be read.
def Sealed (aead : Aead) (tail : Bytes) (messages : List Text) (reader : ControlReader)
    (fills : Fills) : Prop :=
  ∃ send frames codec, reader = .protectedBy send ∧ (∀ m ∈ messages, Transmissible m) ∧
    FrameStream.encodeAll (encode? aead) (protectedBy send) messages = some (frames, codec) ∧
    fills.flatten = frames.flatten ++ tail

-- The reader keeps up with the codec of the writer.
theorem read_sealed (tagged : aead.Tagged) {reader : ControlReader}
    (h : Sealed aead tail (text :: messages) reader fills) :
    ∃ reader' fills', read aead reader fills = .ok (text, reader', fills') ∧
      Sealed aead tail messages reader' fills' := by
  obtain ⟨send, frames, codec, hr, ht, he, hf⟩ := h
  subst hr
  simp only [FrameStream.encodeAll, Option.bind_eq_bind, Option.pure_def,
    Option.bind_eq_some_iff, Option.some_inj, Prod.mk.injEq] at he
  obtain ⟨⟨frame, w⟩, he, ⟨frames', w'⟩, hes, hfs, _⟩ := he
  obtain ⟨send', payload, hw, hp, hl, ho⟩ := encode?_prefixed tagged (ht _ (by simp)) he
  subst hfs hw hp
  rw [List.flatten_cons, List.append_assoc] at hf
  obtain ⟨fills', hf', hread⟩ := readFrame_eq aead send hl hf
  rw [ho] at hread
  refine ⟨.protectedBy send', fills', ?_, send', frames', w', rfl,
    fun m hm => ht m (List.mem_cons_of_mem _ hm), hes, hf'⟩
  simp [read, ControlReader.readMessage, hread, Utf8.decodeLossy_encode, bind, Except.bind, pure,
    Except.pure]

theorem readAll_protectedBy (tagged : aead.Tagged) (ht : ∀ m ∈ messages, Transmissible m)
    (he : FrameStream.encodeAll (encode? aead) (protectedBy send) messages = some (frames, codec'))
    (hf : fills.flatten = frames.flatten ++ tail) :
    ∃ recv fills', FrameStream.readAll (read aead) messages.length (.protectedBy send) fills =
      .ok (messages, .protectedBy recv, fills') ∧ fills'.flatten = tail := by
  obtain ⟨reader', fills', hread, send', frames', _, hr, _, he', hf'⟩ :=
    FrameStream.readAll_eq (Q := Sealed aead tail) (read_sealed tagged)
      ⟨send, frames, codec', rfl, ht, he, hf⟩
  obtain ⟨hfs, _⟩ := Prod.mk.inj (Option.some_inj.mp he')
  subst hr
  exact ⟨send', fills', by simpa using hread, by simpa [← hfs] using hf'⟩

theorem startsInside_lines : Utf8.startsInside (messages.map line).flatten = false := by
  cases messages
  case nil => rfl
  case cons m ms =>
    have hw : Utf8.startsInside ([newline] ++ (ms.map line).flatten) = false := rfl
    simpa [line, List.append_assoc] using Utf8.startsInside_encode hw

theorem encodeAll_plaintext
    (h : FrameStream.encodeAll (encode? aead) plaintext messages = some (frames, codec')) :
    frames = messages.map line :=
  frames_of_encodeAll h

-- The lines of some messages are still to be read.
def Lines (messages : List Text) (reader : ControlReader) (fills : Fills) : Prop :=
  reader = .plaintext ∧ (∀ m ∈ messages, Transmissible m) ∧ plaintext.Intact fills ∧
    fills.flatten = (messages.map line).flatten

theorem read_lines {reader : ControlReader} (h : Lines (text :: messages) reader fills) :
    ∃ reader' fills', read aead reader fills = .ok (text ++ ['\n'], reader', fills') ∧
      Lines messages reader' fills' := by
  obtain ⟨hr, ht, hi, hf⟩ := h
  subst hr
  have hm := ht text (List.mem_cons_self ..)
  let n := (Utf8.encode text).length + 1
  have hl : fills.flatten = Utf8.encode text ++ newline :: (messages.map line).flatten := by
    simpa [line] using hf
  have hfits : 0 + (Utf8.encode text).length + 1 ≤ 1024 * 1024 := by
    simpa [line] using hm.line_fits
  have htake : (fills.take n).flatten = Utf8.encode (text ++ ['\n']) := by
    rw [Chunks.flatten_take, hl, Utf8.encode_append]
    simp [n, List.take_append, List.take_of_length_le]
    rfl
  have hdrop : (fills.drop n).flatten = (messages.map line).flatten := by
    rw [Chunks.flatten_drop, hl]
    simp [n, List.drop_append]
  have hn : ∀ f ∈ fills, f ≠ [] := fun f hf => (hi f hf).left
  have hnd := Chunks.ne_nil_of_mem_drop (n := n) hn
  -- What follows the line begins with a character.
  have hhead : ∀ f ∈ (fills.drop n).head?, Utf8.startsInside f = false := by
    intro f hf
    obtain ⟨fs, hfs⟩ := List.head?_eq_some_iff.mp hf
    have hs : Utf8.startsInside (messages.map line).flatten = false := startsInside_lines
    rwa [← hdrop, hfs, List.flatten_cons, Utf8.startsInside_append (hnd f (by simp [hfs]))] at hs
  obtain ⟨hit, hid⟩ := (Chunks.forall_iff_take_drop (n := n)
    (fun f k hk => by rw [Utf8.startsInside_take hk]) hn hhead).mp fun f hf => (hi f hf).right
  have hdecode := (Utf8.flatMap_decodeLossy_eq_iff htake (Chunks.ne_nil_of_mem_take hn)).mpr hit
  refine ⟨.plaintext, fills.drop n, ?_, rfl, fun m hm => ht m (List.mem_cons_of_mem _ hm),
    fun f hf => ⟨hnd f hf, hid f hf⟩, hdrop⟩
  simp only [read, ControlReader.readMessage,
    Framing.readLine_eq (Framing.newline_notMem_encode hm.no_newline) hfits hl, List.nil_append]
  rw [hdecode]
  rfl

theorem readAll_plaintext (aead : Aead) (ht : ∀ m ∈ messages, Transmissible m)
    (hi : plaintext.Intact fills) (hf : fills.flatten = (messages.map line).flatten) :
    FrameStream.readAll (read aead) messages.length .plaintext fills =
      .ok (messages.map (· ++ ['\n']), .plaintext, []) := by
  obtain ⟨reader', fills', hread, hr, _, hi', hf'⟩ :=
    FrameStream.readAll_eq (Q := Lines) read_lines ⟨rfl, ht, hi, hf⟩
  have hnil : fills' = [] := by
    refine List.eq_nil_iff_forall_not_mem.mpr fun f hm => (hi' f hm).left ?_
    exact List.eq_nil_iff_forall_not_mem.mpr fun b hb => by
      simpa [hf'] using List.mem_flatten_of_mem hm hb
  subst hr hnil
  exact hread

-- Every frame has its length in front.
theorem prefixed_of_mem (tagged : aead.Tagged) (ht : ∀ m ∈ messages, Transmissible m)
    (he : FrameStream.encodeAll (encode? aead) (protectedBy send) messages = some (frames, codec'))
    (hm : frame ∈ frames) :
    ∃ payload : Bytes, payload.length ≤ 1024 * 1024 ∧ frame = prefixed payload := by
  obtain ⟨hlen, hframes⟩ := frames_of_encodeAll he
  obtain ⟨i, hi, hf⟩ := List.mem_iff_getElem.mp hm
  have hi' : i < messages.length := hlen ▸ hi
  obtain ⟨_, ciphertext, hc, hframe⟩ := hframes i messages[i] frame
    (List.getElem?_eq_getElem hi') (hf ▸ List.getElem?_eq_getElem hi)
  have hl := tagged hc
  have hfits := (ht _ (List.getElem_mem hi')).fits
  refine ⟨Bytes.toLe 8 (send.seq.toNat + i) ++ ciphertext, ?_, ?_⟩
  · rw [List.length_append, Bytes.length_toLe]
    omega
  · rw [hframe, prefixed, List.length_append, Bytes.length_toLe]

-- What the reader finds behind everything which was written.
def exhausted : ControlWriter → Except ReadError (Text × ControlReader × Fills)
  | plaintext     => .ok ([], .plaintext, [])
  | protectedBy _ => .error .unexpectedEof

-- Of a beginning of the frames, the reader takes exactly the whole ones. Nothing of the next one is
-- handed over, unless it is a line.
theorem readAll_cut (tagged : aead.Tagged) (ht : ∀ m ∈ messages, Transmissible m)
    (he : FrameStream.encodeAll (encode? aead) codec messages = some (frames, codec')) {k : Nat}
    (cut : FrameStream.Cut frames fills.flatten k tail) (hi : codec.Intact fills)
    (hp : codec = plaintext → tail = []) :
    ∃ reader fills', FrameStream.readAll (read aead) k codec.peer fills =
      .ok ((messages.take k).map codec.presented, reader, fills') ∧
      read aead reader fills' = codec.exhausted := by
  have ⟨codec'', hk⟩ := FrameStream.encodeAll_take he k
  have hlen : (messages.take k).length = k := by
    have := cut.count
    rw [FrameStream.encodeAll_length he] at this
    rw [List.length_take, Nat.min_eq_left this]
  have htk : ∀ m ∈ messages.take k, Transmissible m := fun m hm => ht m (List.mem_of_mem_take hm)
  cases codec
  case plaintext =>
    have hf := cut.bytes
    rw [hp rfl, List.append_nil, encodeAll_plaintext hk] at hf
    have hread := readAll_plaintext aead htk hi hf
    rw [hlen] at hread
    exact ⟨.plaintext, [], hread, rfl⟩
  case protectedBy send =>
    obtain ⟨recv, fills', hread, hf⟩ := readAll_protectedBy tagged htk hk cut.bytes
    rw [hlen] at hread
    have hid : (messages.take k).map (protectedBy send).presented = messages.take k :=
      List.map_id _
    refine ⟨.protectedBy recv, fills', by rw [hid]; exact hread, ?_⟩
    have hframe : readFrame aead recv fills' = .error .unexpectedEof := by
      rcases cut.tail with hn | ⟨frame, hm, hpre, hne⟩
      case inl => exact readFrame_nil (hf.trans hn)
      case inr =>
        obtain ⟨payload, hl, hf'⟩ := prefixed_of_mem tagged ht he hm
        subst hf'
        exact readFrame_eof hl hpre hne hf
    simp [read, ControlReader.readMessage, hframe, bind, Except.bind, exhausted]

end ControlWriter
