import Xfr.Udp.Packet

open Buffer (Has Segment)

def PROBE_MAGIC : Bytes := Bytes.ascii "XFRP"
def PROBE_VERSION : UInt8 := 1
def PROBE_HEADER_SIZE : Nat := 16
def PROBE_KIND_PROBE : UInt8 := 1
def PROBE_KIND_ACK : UInt8 := 2
def PROBE_KIND_ECHO : UInt8 := 3

structure ProbePacket where
  kind         : UInt8
  seq          : UInt32
  declaredSize : UInt16
  deriving DecidableEq

namespace ProbePacket

-- Flags and the end of the header are reserved.
def segments (p : ProbePacket) : List Segment := [
  ⟨0, 4, PROBE_MAGIC⟩,
  ⟨4, 5, [PROBE_VERSION]⟩,
  ⟨5, 6, [p.kind]⟩,
  ⟨6, 8, Bytes.toBe 2 0⟩,
  ⟨8, 12, Bytes.toBe 4 p.seq.toNat⟩,
  ⟨12, 14, Bytes.toBe 2 p.declaredSize.toNat⟩,
  ⟨14, 16, Bytes.toBe 2 0⟩]

def wireLen (p : ProbePacket) : Nat :=
  if p.kind = PROBE_KIND_ACK then PROBE_HEADER_SIZE else p.declaredSize.toNat

-- How much of the buffer is to be sent. The padding is left as it is.
def encode (p : ProbePacket) (buffer : Bytes) : Checked (Option Nat × Bytes) := do
  if p.wireLen < PROBE_HEADER_SIZE ∨ buffer.length < p.wireLen then return (none, buffer)
  let buffer ← Buffer.copyAll buffer p.segments
  return (some p.wireLen, buffer)

def decode (buffer : Bytes) : Checked (Option ProbePacket) := do
  if buffer.length < PROBE_HEADER_SIZE then return none
  if (← Buffer.slice buffer 0 4) ≠ PROBE_MAGIC then return none
  if (← Buffer.get buffer 4) ≠ PROBE_VERSION then return none
  let kind ← Buffer.get buffer 5
  if ¬(kind = PROBE_KIND_PROBE ∨ kind = PROBE_KIND_ACK ∨ kind = PROBE_KIND_ECHO) then return none
  let seq ← Buffer.slice buffer 8 12
  let declaredSize ← Buffer.slice buffer 12 14
  let seq := UInt32.ofNat (Bytes.ofBe seq)
  let declaredSize := UInt16.ofNat (Bytes.ofBe declaredSize)
  if (kind = PROBE_KIND_PROBE ∨ kind = PROBE_KIND_ECHO) ∧
    (declaredSize.toNat < PROBE_HEADER_SIZE ∨ buffer.length < declaredSize.toNat) then return none
  return some { kind, seq, declaredSize }

def IsKnown (p : ProbePacket) : Prop :=
  p.kind = PROBE_KIND_PROBE ∨ p.kind = PROBE_KIND_ACK ∨ p.kind = PROBE_KIND_ECHO

def IsPadded (p : ProbePacket) : Prop :=
  p.kind = PROBE_KIND_PROBE ∨ p.kind = PROBE_KIND_ECHO

-- Padding has to begin after the header, and to be there.
def Fits (p : ProbePacket) (length : Nat) : Prop :=
  p.IsPadded → PROBE_HEADER_SIZE ≤ p.declaredSize.toNat ∧ p.declaredSize.toNat ≤ length

structure Layout (p : ProbePacket) (buffer : Bytes) : Prop where
  magic        : Has buffer 0 PROBE_MAGIC
  version      : Has buffer 4 [PROBE_VERSION]
  kind         : Has buffer 5 [p.kind]
  seq          : Has buffer 8 (Bytes.toBe 4 p.seq.toNat)
  declaredSize : Has buffer 12 (Bytes.toBe 2 p.declaredSize.toNat)

variable {p : ProbePacket} {buffer : Bytes}

@[simp]
theorem length_magic : PROBE_MAGIC.length = 4 := by
  decide

theorem exists_encode (hm : PROBE_HEADER_SIZE ≤ p.wireLen) (hl : p.wireLen ≤ buffer.length) :
    ∃ out, p.encode buffer = .ok (some p.wireLen, out) ∧ out.length = buffer.length ∧
      p.Layout out := by
  have ha : Buffer.Ascending buffer.length 0 p.segments := by
    simp only [PROBE_HEADER_SIZE] at hm
    simp [Buffer.Ascending, segments]
    omega
  obtain ⟨out, ho, hol, hs, _⟩ := Buffer.exists_copyAll ha
  have hn : ¬(p.wireLen < PROBE_HEADER_SIZE ∨ buffer.length < p.wireLen) := by omega
  refine ⟨out, ?_, hol, ?_⟩
  · simp [encode, hn, ho, bind, Except.bind, pure, Except.pure]
  · simp only [segments, List.forall_mem_cons] at hs
    obtain ⟨magic, version, kind, _, seq, declaredSize, _⟩ := hs
    exact ⟨magic, version, kind, seq, declaredSize⟩

theorem Layout.inj {p p' : ProbePacket} (h : Layout p buffer) (h' : Layout p' buffer) :
    p = p' := by
  have hk := h.kind.inj h'.kind rfl
  have hs := uint32_inj <| h.seq.inj h'.seq (by simp)
  have hd := uint16_inj <| h.declaredSize.inj h'.declaredSize (by simp)
  cases p
  cases p'
  simp_all

-- The header is short enough for every part of what is sent to be in it.
theorem Layout.take {n : Nat} (h : Layout p buffer) (hn : PROBE_HEADER_SIZE ≤ n) :
    Layout p (buffer.take n) := by
  have hn : 16 ≤ n := hn
  refine ⟨h.magic.take ?_, h.version.take ?_, h.kind.take ?_, h.seq.take ?_, h.declaredSize.take ?_⟩
  all_goals
    simp
    omega

theorem decode_cases (hl : PROBE_HEADER_SIZE ≤ buffer.length) :
    (decode buffer = .ok none ∧ ∀ p, ¬(IsKnown p ∧ Fits p buffer.length ∧ Layout p buffer)) ∨
    ∃ p, decode buffer = .ok (some p) ∧ IsKnown p ∧ Fits p buffer.length ∧ Layout p buffer := by
  have hn : 16 ≤ buffer.length := hl
  have ⟨magic, em, lm, hm⟩ := @Buffer.exists_slice buffer 0 4 (by omega)
  have ⟨version, ev, hv⟩ := @Buffer.exists_get buffer 4 (by omega)
  have ⟨kind, ek, hk⟩ := @Buffer.exists_get buffer 5 (by omega)
  have ⟨seq, es, ls, hs⟩ := @Buffer.exists_slice buffer 8 12 (by omega)
  have ⟨declaredSize, ed, ld, hd⟩ := @Buffer.exists_slice buffer 12 14 (by omega)
  let read : ProbePacket :=
    ⟨kind, UInt32.ofNat (Bytes.ofBe seq), UInt16.ofNat (Bytes.ofBe declaredSize)⟩
  have layout (hm' : magic = PROBE_MAGIC) (hv' : version = PROBE_VERSION) : Layout read buffer :=
    ⟨hm' ▸ hm, hv' ▸ hv, hk, (toBe_uint32 ls).symm ▸ hs, (toBe_uint16 ld).symm ▸ hd⟩
  by_cases ha : magic = PROBE_MAGIC ∧ version = PROBE_VERSION ∧ IsKnown read ∧
      Fits read buffer.length
  case pos =>
    obtain ⟨rfl, rfl, known, fits⟩ := ha
    refine .inr ⟨read, ?_, known, fits, layout rfl rfl⟩
    simp only [decode, Nat.not_lt.mpr hl, em, ev, ek, es, ed, bind, Except.bind, pure, Except.pure]
    simp only [IsKnown, Fits, IsPadded, read] at known fits
    grind
  case neg =>
    refine .inl ⟨?_, fun p ⟨known, fits, h⟩ => ha ?_⟩
    · simp only [decode, Nat.not_lt.mpr hl, em, ev, ek, es, ed, bind, Except.bind, pure, Except.pure]
      simp only [IsKnown, Fits, IsPadded, read] at ha
      grind
    · have hm' := hm.inj h.magic (by simp [lm])
      have hv' := (List.cons.inj (hv.inj h.version rfl)).left
      have hr : read = p := (layout hm' hv').inj h
      exact ⟨hm', hv', hr ▸ known, hr ▸ fits⟩

theorem decode_reads : Reads decode fun p buffer => PROBE_HEADER_SIZE ≤ buffer.length ∧
    IsKnown p ∧ Fits p buffer.length ∧ Layout p buffer where
  cases buffer := by
    by_cases hl : PROBE_HEADER_SIZE ≤ buffer.length
    case pos => simpa [hl] using decode_cases hl
    case neg => exact .inl ⟨by simp [decode, Nat.not_le.mp hl]; rfl, fun _ h => hl h.left⟩
  inj h h' := h.right.right.right.inj h'.right.right.right

end ProbePacket
