import Xfr.Library.Bytes

inductive Direction
  | c2s
  | s2c
  deriving DecidableEq

namespace Direction

def info : Direction → Bytes
  | c2s => Bytes.ascii "xfr-protected-control-c2s"
  | s2c => Bytes.ascii "xfr-protected-control-s2c"

def tag : Direction → UInt8
  | c2s => 0x00
  | s2c => 0x01

theorem tag_injective {d d' : Direction} (h : d.tag = d'.tag) : d = d' := by
  cases d <;> cases d' <;> simp_all [tag]

theorem info_injective : Function.Injective info := by
  intro d d' h
  cases d <;> cases d' <;> first | rfl | exact absurd h (by decide)

end Direction

-- The key derivation and the cipher come from libraries. All which is known of the cipher here is
-- that it decrypts what it encrypted.
structure Hkdf where
  extract : (salt ikm : Bytes) → Bytes
  expand  : (prk info : Bytes) → (length : Nat) → Option Bytes

structure Aead where
  encrypt : (key nonce aad msg : Bytes) → Option Bytes
  decrypt : (key nonce aad ciphertext : Bytes) → Option Bytes
  decrypt_encrypt {key nonce aad msg ciphertext : Bytes} :
    encrypt key nonce aad msg = some ciphertext → decrypt key nonce aad ciphertext = some msg

inductive CodecError
  | keyExpansion (key : String)
  | encryption
  | overflow
  | tooShort
  | sequenceMismatch (expected got : UInt64)
  | decryption
  deriving DecidableEq

def CodecError.message : CodecError → String
  | keyExpansion key              => "HKDF-Expand failed for " ++ key ++ " key"
  | encryption                    => "AEAD encryption failed"
  | overflow                      => "sequence number overflow"
  | tooShort                      => "protected frame too short"
  | sequenceMismatch expected got =>
    "sequence mismatch: expected " ++ toString expected ++ ", got " ++ toString got
  | decryption                    => "AEAD decryption failed"

def NONCE_LEN : Nat := 12

def deriveKeys (hkdf : Hkdf) (clientNonce serverNonce keyMaterial : Bytes) :
    Except CodecError (Bytes × Bytes × Bytes) := do
  let prk := hkdf.extract (clientNonce ++ serverNonce) keyMaterial
  let expand (name : String) (info : Bytes) : Except CodecError Bytes :=
    (hkdf.expand prk info 32).elim (.error <| .keyExpansion name) .ok
  let c2sKey ← expand "c2s" Direction.c2s.info
  let s2cKey ← expand "s2c" Direction.s2c.info
  let s2cAuthKey ← expand "s2c auth" (Bytes.ascii "xfr-protected-control-s2c-auth")
  return (c2sKey, s2cKey, s2cAuthKey)

-- Stateful codec for one direction of the protected control channel. The sequence number increases
-- with every message and also serves as the nonce.
structure ControlCodec where
  key       : Bytes
  direction : Direction
  seq       : UInt64
  deriving DecidableEq

namespace ControlCodec

def new (key : Bytes) (direction : Direction) : ControlCodec where
  key       := key
  direction := direction
  seq       := 0

def derivePair (hkdf : Hkdf) (clientNonce serverNonce keyMaterial : Bytes) :
    Except CodecError (ControlCodec × ControlCodec) := do
  let (c2s, s2c, _) ← deriveKeys hkdf clientNonce serverNonce keyMaterial
  return (new c2s .c2s, new s2c .s2c)

def nonce (c : ControlCodec) : Bytes :=
  Bytes.toLe 8 c.seq.toNat ++ List.replicate (NONCE_LEN - 8) 0

def aad (c : ControlCodec) : Bytes :=
  Bytes.toLe 8 c.seq.toNat ++ [c.direction.tag]

-- Moves on to the next sequence number, unless there is none.
def advance (c : ControlCodec) : Option ControlCodec :=
  if c.seq.toNat + 1 < 2 ^ 64 then some { c with seq := c.seq + 1 } else none

-- Encrypts a message. The frame is lost when the sequence number cannot move on.
def sealMessage (aead : Aead) (c : ControlCodec) (plaintext : Bytes) :
    Except CodecError Bytes × ControlCodec :=
  match aead.encrypt c.key c.nonce c.aad plaintext with
  | none            => (.error .encryption, c)
  | some ciphertext =>
    match c.advance with
    | none    => (.error .overflow, c)
    | some c' => (.ok (Bytes.toLe 8 c.seq.toNat ++ ciphertext), c')

def openPayload (aead : Aead) (c : ControlCodec) (payload : Bytes) :
    Except CodecError Bytes × ControlCodec :=
  if payload.length < 8 + 16 then (.error .tooShort, c) else
    let seq := UInt64.ofNat (Bytes.ofLe (payload.take 8))
    if seq ≠ c.seq then (.error (.sequenceMismatch c.seq seq), c) else
      match aead.decrypt c.key c.nonce c.aad (payload.drop 8) with
      | none           => (.error .decryption, c)
      | some plaintext =>
        match c.advance with
        | none    => (.error .overflow, c)
        | some c' => (.ok plaintext, c')

variable {aead : Aead} {c c' : ControlCodec}

theorem advance_eq_some_iff :
    c.advance = some c' ↔ c.seq.toNat + 1 < 2 ^ 64 ∧ c' = { c with seq := c.seq + 1 } := by
  unfold advance
  split <;> simp_all [eq_comm]

theorem advance_eq_none_iff : c.advance = none ↔ 2 ^ 64 ≤ c.seq.toNat + 1 := by
  simp [advance]

theorem advance_seq (h : c.advance = some c') : c'.seq.toNat = c.seq.toNat + 1 := by
  have ⟨hlt, he⟩ := advance_eq_some_iff.mp h
  simpa [he, UInt64.toNat_add] using hlt

theorem aad_injective (h : c.aad = c'.aad) : c.seq = c'.seq ∧ c.direction = c'.direction := by
  have ⟨hs, hd⟩ := List.append_inj h (by simp)
  exact ⟨Bytes.toLe_uint64_injective hs, Direction.tag_injective (List.singleton_inj.mp hd)⟩

theorem nonce_injective (h : c.nonce = c'.nonce) : c.seq = c'.seq :=
  Bytes.toLe_uint64_injective (List.append_inj_left' h rfl)

-- A frame is sealed under the current sequence number, which then moves on.
theorem sealMessage_eq_ok_iff {plaintext frame : Bytes} :
    c.sealMessage aead plaintext = (.ok frame, c') ↔
      c.advance = some c' ∧ ∃ ciphertext,
        aead.encrypt c.key c.nonce c.aad plaintext = some ciphertext ∧
        frame = Bytes.toLe 8 c.seq.toNat ++ ciphertext := by
  unfold sealMessage
  cases aead.encrypt c.key c.nonce c.aad plaintext <;> cases c.advance <;> simp [eq_comm, and_comm]

theorem openPayload_eq_ok_iff {payload plaintext : Bytes} :
    c.openPayload aead payload = (.ok plaintext, c') ↔
      8 + 16 ≤ payload.length ∧ UInt64.ofNat (Bytes.ofLe (payload.take 8)) = c.seq ∧
      aead.decrypt c.key c.nonce c.aad (payload.drop 8) = some plaintext ∧
      c.advance = some c' := by
  unfold openPayload
  split
  case isTrue  => simp; omega
  case isFalse hl =>
    dsimp only
    split
    case isTrue hs  => simp [hs]
    case isFalse hs =>
      have hl : 24 ≤ payload.length := by omega
      have hs : UInt64.ofNat (Bytes.ofLe (payload.take 8)) = c.seq := by simpa using hs
      cases aead.decrypt c.key c.nonce c.aad (payload.drop 8) <;> cases c.advance <;> simp [hl, hs]

theorem sealMessage_error {plaintext : Bytes} {e : CodecError}
    (h : c.sealMessage aead plaintext = (.error e, c')) :
    c' = c ∧ (aead.encrypt c.key c.nonce c.aad plaintext = none ∨ c.advance = none) := by
  unfold sealMessage at h
  split at h
  · simp_all
  · split at h <;> simp_all

-- A payload which cannot be opened leaves no trace.
theorem openPayload_error {payload : Bytes} {e : CodecError}
    (h : c.openPayload aead payload = (.error e, c')) : c' = c := by
  unfold openPayload at h
  split at h
  · simp_all
  · dsimp only at h
    split at h
    · simp_all
    · split at h
      · simp_all
      · split at h <;> simp_all

end ControlCodec

-- The codecs of one side: which one sends depends on the side.
structure Codecs where
  send : ControlCodec
  recv : ControlCodec

def Codecs.protectedClient (c2s s2c : ControlCodec) : Codecs where
  send := c2s
  recv := s2c

def Codecs.protectedServer (c2s s2c : ControlCodec) : Codecs where
  send := s2c
  recv := c2s
