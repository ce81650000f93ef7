import Xfr.Control.Transport

open Utf8 (Text)

-- A serialized message: one line of text which the reader accepts.
structure Line (limit : Nat) where
  text       : Text
  no_newline : '\n' ∉ text
  fits       : (line text).length ≤ limit

namespace Framing

variable {limit total : Nat} {text : Text} {fills : Fills} {bytes rest : Bytes}

theorem newline_notMem_encode (h : '\n' ∉ text) : newline ∉ Utf8.encode text := by
  intro hc
  have ⟨c, hm, hb⟩ := List.mem_flatMap.mp hc
  have hv : c.toNat = newline.toNat := Utf8.toNat_eq_of_mem_encodeChar hb (by decide)
  have : c = '\n' := Char.toNat_inj.mp hv
  exact h (this ▸ hm)

theorem findIdx?_eq_none (h : newline ∉ bytes) : bytes.findIdx? (· = newline) = none := by
  simpa [List.findIdx?_eq_none_iff] using fun b hb (hc : b = newline) => h (hc ▸ hb)

-- The reader takes as many bytes as the line has, fill by fill, and leaves the rest alone.
theorem readLine_eq (hn : newline ∉ bytes) (hl : total + bytes.length + 1 ≤ limit)
    (h : fills.flatten = bytes ++ newline :: rest) :
    readLine limit fills total text =
      .ok (text ++ (fills.take (bytes.length + 1)).flatMap Utf8.decodeLossy,
        total + bytes.length + 1, fills.drop (bytes.length + 1)) := by
  induction fills generalizing bytes total text
  case nil => simp at h
  case cons fill fills hi =>
    -- Either the line goes on after this fill, or it ends in it.
    have hcut : (∃ bytes', bytes = fill ++ bytes' ∧ fills.flatten = bytes' ++ newline :: rest) ∨
        ∃ fill', fill = bytes ++ newline :: fill' := by
      rcases List.append_eq_append_iff.mp h with ⟨bytes', hb, hr⟩ | ⟨fill', hf, hr⟩
      · exact .inl ⟨bytes', hb, hr⟩
      · cases fill'
        case nil          => exact .inl ⟨[], by simpa using hf.symm, by simpa using hr.symm⟩
        case cons b fill' => exact .inr ⟨fill', by rw [hf, (List.cons.inj hr).left]⟩
    rw [readLine]
    rcases hcut with ⟨bytes', hb, hr⟩ | ⟨fill', hf⟩
    case inl =>
      subst hb
      have ⟨hnf, hnb⟩ : newline ∉ fill ∧ newline ∉ bytes' := by simpa using hn
      have hlen : (fill ++ bytes').length = fill.length + bytes'.length := List.length_append
      have htake : fill.length + bytes'.length + 1 - fill.length = bytes'.length + 1 := by omega
      simp only [findIdx?_eq_none hnf]
      rw [if_neg (by omega), hi hnb (by omega) hr, Chunks.take, Chunks.drop, hlen, htake]
      simp only [show fill.length ≤ fill.length + bytes'.length + 1 by omega, if_true,
        Nat.succ_ne_zero, if_false, List.flatMap_cons, List.append_assoc]
      simp only [Nat.add_assoc]
    case inr =>
      subst hf
      have hidx : (bytes ++ newline :: fill').findIdx? (· = newline) = some bytes.length := by
        simp [List.findIdx?_append, findIdx?_eq_none hn, List.findIdx?_cons]
      simp only [hidx]
      rw [if_neg (by omega), Chunks.take_of_le_length (Nat.succ_ne_zero _) (by simp),
        List.flatMap_singleton, Nat.add_assoc]

def wire (lines : List (Line limit)) : Bytes :=
  lines.flatMap (line ·.text)

-- Reads a number of messages one after another.
def readMessages (read : Fills → Except ReadError (Text × Fills)) :
    Nat → Fills → Except ReadError (List Text)
  | 0,         _     => .ok []
  | count + 1, fills => do
    let (text, fills) ← read fills
    let texts ← readMessages read count fills
    return text :: texts

theorem encode_line {l : Line limit} : line l.text = Utf8.encode (l.text ++ ['\n']) := by
  rw [Utf8.encode_append]
  rfl

theorem startsInside_wire {lines : List (Line limit)} : Utf8.startsInside (wire lines) = false := by
  cases lines
  case nil => rfl
  case cons l lines =>
    have hw : Utf8.startsInside ([newline] ++ wire lines) = false := rfl
    simpa [wire, line, List.append_assoc] using Utf8.startsInside_encode hw

-- The lines which were written are the lines which are read exactly if no fill of the buffer begins
-- inside of a character.
theorem readMessages_eq_iff {read : Fills → Except ReadError (Text × Fills)}
    (hr : ∀ fills, read fills = (readLine limit fills 0 []).map fun r => (r.1, r.2.2))
    (lines : List (Line limit)) (fills : Fills) (hn : ∀ f ∈ fills, f ≠ [])
    (h : fills.flatten = wire lines) :
    readMessages read lines.length fills = .ok (lines.map (·.text ++ ['\n'])) ↔
      ∀ f ∈ fills, Utf8.startsInside f = false := by
  induction lines generalizing fills
  case nil =>
    have : fills = [] := by
      cases fills
      case nil      => rfl
      case cons f _ => exact absurd (by simp_all [wire]) (hn f (by simp))
    simp [this, readMessages]
  case cons l lines hi =>
    let n := (Utf8.encode l.text).length + 1
    have hl : fills.flatten = Utf8.encode l.text ++ newline :: wire lines := by
      simpa [wire, line] using h
    have hfits : 0 + (Utf8.encode l.text).length + 1 ≤ limit := by simpa [line] using l.fits
    have htake : (fills.take n).flatten = Utf8.encode (l.text ++ ['\n']) := by
      rw [← encode_line, Chunks.flatten_take, hl, line]
      simp [n, List.take_append, List.take_of_length_le]
    have hdrop : (fills.drop n).flatten = wire lines := by
      rw [Chunks.flatten_drop, hl]
      simp [n, List.drop_append]
    have hread : read fills = .ok ((fills.take n).flatMap Utf8.decodeLossy, fills.drop n) := by
      rw [hr, readLine_eq (newline_notMem_encode l.no_newline) hfits hl]
      rfl
    have hnd := Chunks.ne_nil_of_mem_drop (n := n) hn
    have hhead : ∀ f ∈ (fills.drop n).head?, Utf8.startsInside f = false := by
      intro f hf
      have ⟨fs, hfs⟩ := List.head?_eq_some_iff.mp hf
      have hs : Utf8.startsInside (wire lines) = false := startsInside_wire
      rwa [← hdrop, hfs, List.flatten_cons, Utf8.startsInside_append (hnd f (by simp [hfs]))] at hs
    have hcut := Chunks.forall_iff_take_drop (n := n)
      (fun f k hk => by rw [Utf8.startsInside_take hk]) hn hhead
    rw [hcut, ← hi _ hnd hdrop,
      ← Utf8.flatMap_decodeLossy_eq_iff htake (Chunks.ne_nil_of_mem_take hn)]
    simp only [List.length_cons, readMessages, hread, List.map_cons]
    cases hm : readMessages read lines.length (fills.drop n) <;>
      simp [hm, bind, Except.bind, pure, Except.pure]

-- The plaintext readers of both control transports, and the reader of the handshake.
theorem plaintext_readers_eq_iff (aead : Aead) (fills : Fills) (hn : ∀ f ∈ fills, f ≠ []) :
    (∀ lines : List (Line (1024 * 1024)), fills.flatten = wire lines →
      (readMessages (fun fills => (ControlReader.plaintext.readMessage aead fills).map
        fun r => (r.1, r.2.2)) lines.length fills = .ok (lines.map (·.text ++ ['\n'])) ↔
        ∀ f ∈ fills, Utf8.startsInside f = false) ∧
      (readMessages (fun fills => (ProtectedControl.plaintext.readMessage aead fills).map
        fun r => (r.1, r.2.2)) lines.length fills = .ok (lines.map (·.text ++ ['\n'])) ↔
        ∀ f ∈ fills, Utf8.startsInside f = false)) ∧
    (∀ lines : List (Line MAX_LINE_LENGTH), fills.flatten = wire lines →
      (readMessages (fun fills => (readBoundedLine fills).map fun r => (r.1, r.2.2))
        lines.length fills = .ok (lines.map (·.text ++ ['\n'])) ↔
        ∀ f ∈ fills, Utf8.startsInside f = false)) := by
  refine ⟨fun lines h => ⟨?_, ?_⟩, fun lines h => ?_⟩
  · refine readMessages_eq_iff (fun fills => ?_) lines fills hn h
    cases hr : readLine (1024 * 1024) fills 0 [] <;>
      simp [ControlReader.readMessage, hr, bind, Except.bind, pure, Except.pure, Except.map]
  · refine readMessages_eq_iff (fun fills => ?_) lines fills hn h
    cases hr : readLine (1024 * 1024) fills 0 [] <;>
      simp [ProtectedControl.readMessage, hr, bind, Except.bind, pure, Except.pure, Except.map]
  · exact readMessages_eq_iff (fun _ => rfl) lines fills hn h

-- Fills which end between two characters do no harm.
theorem readBoundedLine_between_characters :
    readMessages (fun fills => (readBoundedLine fills).map fun r => (r.1, r.2.2)) 1
      [[0x68], [0xC3, 0xA9], [newline]] = .ok [['h', 'é', '\n']] :=
  have never : Aead := ⟨fun _ _ _ _ => none, fun _ _ _ _ => none, by simp⟩
  have readers := plaintext_readers_eq_iff never [[0x68], [0xC3, 0xA9], [newline]] (by decide)
  (readers.right [⟨['h', 'é'], by decide, by decide⟩] (by decide)).mpr (by decide)

-- A fill of the buffer ends between the two bytes of a character.
theorem readers_split_character :
    [[0xC3], [0xA9, newline]].flatten = line ['é'] ∧
    readMessages (fun fills => (readBoundedLine fills).map fun r => (r.1, r.2.2)) 1
      [[0xC3], [0xA9, newline]] = .ok [[Utf8.replacement, Utf8.replacement, '\n']] ∧
    (∀ aead, readMessages (fun fills => (ControlReader.plaintext.readMessage aead fills).map
      fun r => (r.1, r.2.2)) 1 [[0xC3], [0xA9, newline]] =
        .ok [[Utf8.replacement, Utf8.replacement, '\n']]) ∧
    [Utf8.replacement, Utf8.replacement, '\n'] ≠ ['é'] ++ ['\n'] :=
  ⟨by decide, by rfl, fun _ => by rfl, by decide⟩

end Framing
