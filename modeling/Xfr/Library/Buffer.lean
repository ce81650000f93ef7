import Xfr.Library.Bytes

-- Slices of byte buffers. An access out of bounds is an error of its own, so that code which never
-- makes one can be told apart.
inductive OutOfBounds
  | outOfBounds
  deriving DecidableEq

-- A decoder refuses what is no packet, with no access out of bounds, and reads a packet from exactly
-- the buffers which look like it.
structure Reads {π : Type*} (decode : Bytes → Except OutOfBounds (Option π))
    (Looks : π → Bytes → Prop) : Prop where
  cases : ∀ buffer, (decode buffer = .ok none ∧ ∀ p, ¬Looks p buffer) ∨
    ∃ p, decode buffer = .ok (some p) ∧ Looks p buffer
  inj : ∀ {p p' buffer}, Looks p buffer → Looks p' buffer → p = p'

namespace Reads

variable {π : Type*} {decode : Bytes → Except OutOfBounds (Option π)} {Looks : π → Bytes → Prop}
  {p : π} {buffer : Bytes}

theorem total (r : Reads decode Looks) (buffer : Bytes) : ∃ read, decode buffer = .ok read := by
  cases r.cases buffer
  case inl h => exact ⟨_, h.left⟩
  case inr h =>
    have ⟨p, h, _⟩ := h
    exact ⟨_, h⟩

theorem eq_some_iff (r : Reads decode Looks) :
    decode buffer = .ok (some p) ↔ Looks p buffer := by
  cases r.cases buffer
  case inl h => simp [h.left, h.right p]
  case inr h =>
    have ⟨p', he, hp⟩ := h
    simp only [he, Except.ok.injEq, Option.some.injEq]
    exact ⟨fun h => h ▸ hp, fun h => r.inj hp h⟩

end Reads

namespace Buffer

def get (buffer : Bytes) (i : Nat) : Except OutOfBounds UInt8 :=
  match buffer[i]? with
  | none   => .error .outOfBounds
  | some b => .ok b

def slice (buffer : Bytes) (start stop : Nat) : Except OutOfBounds Bytes :=
  if start ≤ stop ∧ stop ≤ buffer.length then
    .ok <| (buffer.drop start).take (stop - start)
  else
    .error .outOfBounds

def copyFromSlice (buffer : Bytes) (start stop : Nat) (source : Bytes) :
    Except OutOfBounds Bytes :=
  if start ≤ stop ∧ stop ≤ buffer.length ∧ source.length = stop - start then
    .ok <| buffer.take start ++ source ++ buffer.drop stop
  else
    .error .outOfBounds

-- A slice and what is copied to it.
structure Segment where
  start  : Nat
  stop   : Nat
  source : Bytes

def copyAll (buffer : Bytes) (segments : List Segment) : Except OutOfBounds Bytes :=
  segments.foldlM (fun buffer s => copyFromSlice buffer s.start s.stop s.source) buffer

-- Segments which follow each other, up to some length.
def Ascending (length : Nat) : (offset : Nat) → List Segment → Prop
  | _,      []            => True
  | offset, s :: segments =>
    offset ≤ s.start ∧ s.start ≤ s.stop ∧ s.stop ≤ length ∧ s.source.length = s.stop - s.start ∧
      Ascending length s.stop segments

-- A part of the buffer, told by where it begins.
def Has (buffer : Bytes) (offset : Nat) (part : Bytes) : Prop :=
  ∀ k < part.length, buffer[offset + k]? = part[k]?

variable {buffer out source part : Bytes} {start stop offset i : Nat} {b : UInt8}

namespace Has

theorem getElem? (h : Has buffer offset part) (hl : offset ≤ i) (hu : i < offset + part.length) :
    buffer[i]? = part[i - offset]? := by
  have hi := h (i - offset) (by omega)
  rwa [Nat.add_sub_cancel' hl] at hi

theorem congr (h : Has buffer offset part) (h' : Has out offset part) (hl : offset ≤ i)
    (hu : i < offset + part.length) : out[i]? = buffer[i]? := by
  rw [h.getElem? hl hu, h'.getElem? hl hu]

theorem singleton_iff : Has buffer i [b] ↔ buffer[i]? = some b := by
  simp [Has]

theorem of_append {before after : Bytes} : Has (before ++ part ++ after) before.length part := by
  intro k hk
  rw [List.append_assoc, List.getElem?_append_right (Nat.le_add_right ..), Nat.add_sub_cancel_left,
    List.getElem?_append_left hk]

theorem take {n : Nat} (h : Has buffer offset part) (hn : offset + part.length ≤ n) :
    Has (buffer.take n) offset part := by
  intro k hk
  rw [List.getElem?_take_of_lt (by omega), h k hk]

theorem inj {part' : Bytes} (h : Has buffer offset part) (h' : Has buffer offset part')
    (hl : part.length = part'.length) : part = part' := by
  refine List.ext_getElem? fun k => ?_
  by_cases hk : k < part.length
  case pos => rw [← h k hk, h' k (hl ▸ hk)]
  case neg => rw [List.getElem?_eq_none (by omega), List.getElem?_eq_none (by omega)]

end Has

theorem get_eq_ok_iff : get buffer i = .ok b ↔ Has buffer i [b] := by
  rw [Has.singleton_iff, get]
  split <;> simp_all

theorem exists_get (h : i < buffer.length) : ∃ b, get buffer i = .ok b ∧ Has buffer i [b] := by
  have hg : get buffer i = .ok buffer[i] := by simp [get, h]
  exact ⟨buffer[i], hg, get_eq_ok_iff.mp hg⟩

theorem exists_slice (h : start ≤ stop ∧ stop ≤ buffer.length) :
    ∃ part, slice buffer start stop = .ok part ∧ part.length = stop - start ∧
      Has buffer start part := by
  have hl : ((buffer.drop start).take (stop - start)).length = stop - start := by
    simp only [List.length_take, List.length_drop]
    omega
  refine ⟨_, if_pos h, hl, fun k hk => ?_⟩
  rw [List.getElem?_take_of_lt (by omega), List.getElem?_drop]

theorem slice_eq {n : Nat} (h : start + n ≤ buffer.length) :
    slice buffer start (start + n) = .ok ((buffer.drop start).take n) := by
  rw [slice, if_pos ⟨Nat.le_add_right .., h⟩, Nat.add_sub_cancel_left]

-- Only the slice changes.
theorem exists_copyFromSlice (h : start ≤ stop ∧ stop ≤ buffer.length)
    (hs : source.length = stop - start) :
    ∃ out, copyFromSlice buffer start stop source = .ok out ∧ out.length = buffer.length ∧
      Has out start source ∧
      ∀ {offset part}, Has buffer offset part → offset + part.length ≤ start →
        Has out offset part := by
  have hl : (buffer.take start).length = start := by
    simp only [List.length_take]
    omega
  refine ⟨buffer.take start ++ source ++ buffer.drop stop, if_pos ⟨h.left, h.right, hs⟩, ?_, ?_, ?_⟩
  · simp only [List.length_append, List.length_take, List.length_drop]
    omega
  · intro k hk
    rw [List.append_assoc, List.getElem?_append_right (by omega), hl, Nat.add_sub_cancel_left,
      List.getElem?_append_left hk]
  · intro offset part hp hd k hk
    rw [List.append_assoc, List.getElem?_append_left (by omega),
      List.getElem?_take_of_lt (by omega), hp k hk]

theorem exists_copyAll {segments : List Segment}
    (h : Ascending buffer.length offset segments) :
    ∃ out, copyAll buffer segments = .ok out ∧ out.length = buffer.length ∧
      (∀ s ∈ segments, Has out s.start s.source) ∧
      ∀ {i part}, Has buffer i part → i + part.length ≤ offset → Has out i part := by
  induction segments generalizing buffer offset
  case nil => exact ⟨buffer, rfl, rfl, by simp, fun h _ => h⟩
  case cons s segments hi =>
    have ⟨hs, hl, hu, hn, ha⟩ := h
    have ⟨b, hb, hbl, hbs, hbk⟩ := exists_copyFromSlice ⟨hl, hu⟩ hn
    have ⟨out, ho, hol, hos, hok⟩ := hi (hbl.symm ▸ ha)
    refine ⟨out, ?_, hol.trans hbl, ?_, ?_⟩
    · simpa [copyAll, hb, bind, Except.bind] using ho
    · intro s' hm
      cases List.mem_cons.mp hm
      case inl he => exact he ▸ hok hbs (by omega)
      case inr hm => exact hos s' hm
    · exact fun hp hle => hok (hbk hp (by omega)) (by omega)

end Buffer
