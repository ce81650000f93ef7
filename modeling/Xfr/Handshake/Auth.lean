import Xfr.Control.Codec
import Xfr.Library.Utf8
import Xfr.Session.Message

open Utf8 (Text)

-- What authentication takes from libraries. The exporter is the one of the TLS session of a
-- connection.
structure Crypto where
  hmac     : (key msg : Bytes) → Bytes
  hkdf     : Hkdf
  aead     : Aead
  exporter : (label context : Bytes) → Option Bytes

namespace Hex

def digit (n : Nat) : Char :=
  Char.ofNat <| if n < 10 then '0'.toNat + n else 'a'.toNat + (n - 10)

def encode (bytes : Bytes) : Text :=
  bytes.flatMap fun b => [digit (b.toNat / 16), digit (b.toNat % 16)]

theorem digit_injective : ∀ n < 16, ∀ m < 16, digit n = digit m → n = m := by
  decide

theorem encode_injective {a b : Bytes} (h : encode a = encode b) : a = b := by
  induction a generalizing b
  case nil =>
    cases b
    case nil  => rfl
    case cons => simp [encode] at h
  case cons x a hi =>
    cases b
    case nil      => simp [encode] at h
    case cons y b =>
      simp only [encode, List.flatMap_cons, List.cons_append, List.nil_append,
        List.cons.injEq] at h
      have ⟨hd, hm, h⟩ := h
      have hd := digit_injective _ (by have := x.toNat_lt; omega) _ (by have := y.toNat_lt; omega) hd
      have hm := digit_injective _ (Nat.mod_lt _ (by decide)) _ (Nat.mod_lt _ (by decide)) hm
      have hx : x = y := UInt8.toNat_inj.mp (by omega)
      rw [hx, hi h]

end Hex

-- Differences are collected, so that the time does not depend on where they are. Past the end of one
-- side, it counts as zero.
def constantTimeEq (a b : Bytes) : Bool :=
  let len    := max a.length b.length
  let result := (List.range len).foldl (fun r i => r ||| (a.getD i 0 ^^^ b.getD i 0)) (0 : UInt8)
  let result := result ||| (if a.length ≠ b.length then 1 else 0)
  result = 0

theorem foldl_or_eq_zero {ι : Type*} {f : ι → UInt8} {is : List ι} {r : UInt8} :
    is.foldl (fun r i => r ||| f i) r = 0 ↔ r = 0 ∧ ∀ i ∈ is, f i = 0 := by
  induction is generalizing r
  case nil          => simp
  case cons _ _ hi  => simp [hi, and_assoc]

theorem constantTimeEq_iff {a b : Bytes} : constantTimeEq a b = true ↔ a = b := by
  simp only [constantTimeEq, decide_eq_true_eq, UInt8.or_eq_zero_iff, foldl_or_eq_zero,
    List.mem_range, UInt8.xor_eq_zero_iff, true_and]
  constructor
  case mpr =>
    intro h
    simp [h]
  case mp =>
    intro ⟨hs, hl⟩
    have hl : a.length = b.length := by
      by_contra hn
      simp [hn] at hl
    refine List.ext_getElem hl fun i ha hb => ?_
    simpa [ha, hb] using hs i (by omega)

namespace Auth

variable (hmac : (key msg : Bytes) → Bytes)

def computeResponseWithKey (nonce : Text) (key : Bytes) : Text :=
  Hex.encode <| hmac key (Utf8.encode nonce)

def computeResponse (nonce psk : Text) : Text :=
  computeResponseWithKey hmac nonce (Utf8.encode psk)

def verifyResponseWithKey (nonce : Text) (key : Bytes) (response : Text) : Bool :=
  let expected := computeResponseWithKey hmac nonce key
  constantTimeEq (Utf8.encode expected) (Utf8.encode response)

def verifyResponse (nonce psk response : Text) : Bool :=
  verifyResponseWithKey hmac nonce (Utf8.encode psk) response

end Auth

-- The proof that the server has the key as well. It covers both hellos.
namespace ServerProof

variable (crypto : Crypto)

def computeWithKey (clientHello serverHello : Bytes) (clientNonce serverNonce : Text)
    (keyMaterial : Bytes) : Except CodecError Text := do
  let (_, _, s2cAuthKey) ←
    deriveKeys crypto.hkdf (Utf8.encode clientNonce) (Utf8.encode serverNonce) keyMaterial
  return Hex.encode <| crypto.hmac s2cAuthKey (clientHello ++ serverHello)

def compute (clientHello serverHello : Bytes) (clientNonce serverNonce psk : Text) :
    Except CodecError Text :=
  computeWithKey crypto clientHello serverHello clientNonce serverNonce (Utf8.encode psk)

def verifyWithKey (clientHello serverHello : Bytes) (clientNonce serverNonce : Text)
    (keyMaterial : Bytes) (expected : Text) : Except CodecError Bool := do
  let actual ← computeWithKey crypto clientHello serverHello clientNonce serverNonce keyMaterial
  return constantTimeEq (Utf8.encode actual) (Utf8.encode expected)

def verify (clientHello serverHello : Bytes) (clientNonce serverNonce psk expected : Text) :
    Except CodecError Bool :=
  verifyWithKey crypto clientHello serverHello clientNonce serverNonce (Utf8.encode psk) expected

variable {crypto : Crypto} {clientHello serverHello keyMaterial : Bytes}
  {clientNonce serverNonce proof : Text}

theorem computeWithKey_ok
    (h : computeWithKey crypto clientHello serverHello clientNonce serverNonce keyMaterial =
      .ok proof) :
    ∃ key, proof = Hex.encode (crypto.hmac key (clientHello ++ serverHello)) := by
  unfold computeWithKey at h
  cases hk : deriveKeys crypto.hkdf (Utf8.encode clientNonce) (Utf8.encode serverNonce) keyMaterial
  case error => simp [hk, bind, Except.bind] at h
  case ok keys =>
    simp only [hk, bind, Except.bind, pure, Except.pure, Except.ok.injEq] at h
    exact ⟨_, h.symm⟩

-- Only the right proof is accepted.
theorem computeWithKey_of_verify
    (h : verifyWithKey crypto clientHello serverHello clientNonce serverNonce keyMaterial proof =
      .ok true) :
    computeWithKey crypto clientHello serverHello clientNonce serverNonce keyMaterial =
      .ok proof := by
  unfold verifyWithKey at h
  cases hc : computeWithKey crypto clientHello serverHello clientNonce serverNonce keyMaterial
  case error => simp [hc, bind, Except.bind] at h
  case ok actual =>
    simp only [hc, bind, Except.bind, pure, Except.pure, Except.ok.injEq] at h
    rw [Utf8.encode_injective (constantTimeEq_iff.mp h)]

end ServerProof

inductive SessionKeyError
  | exporter
  | expand
  deriving DecidableEq

def SessionKeyError.message : SessionKeyError → String
  | exporter => "failed to export QUIC TLS channel-binding material"
  | expand   => "failed to derive QUIC PSK session key"

-- Over QUIC, the key is bound to the TLS session.
def derivePskSessionKey (crypto : Crypto) (psk : Text) : Except SessionKeyError Bytes :=
  match crypto.exporter (Bytes.ascii "EXPORTER-Channel-Binding") [] with
  | none          => .error .exporter
  | some exporter =>
    let prk := crypto.hkdf.extract exporter (Utf8.encode psk)
    (crypto.hkdf.expand prk (Bytes.ascii "xfr-quic-psk-session-v1") 32).elim (.error .expand) .ok

def PROTOCOL_VERSION : Text :=
  "1.1".toList

-- A sign is accepted in front of the digits.
def parseU32 (text : Text) : Option Nat :=
  let digits := if text.head? = some '+' then text.tail else text
  if digits = [] ∨ !digits.all Char.isDigit then none else
    let n := digits.foldl (fun n c => n * 10 + (c.toNat - '0'.toNat)) 0
    if n < 2 ^ 32 then some n else none

def parseProtocolMajor (version : Text) : Option Nat :=
  match version.splitOn '.' with
  | []             => none
  | first :: parts => do
    guard (first ≠ [])
    let major ← parseU32 first
    guard (parts.all fun part => part ≠ [] ∧ (parseU32 part).isSome)
    return major

-- Versions are compatible if their major versions are the same.
def versionsCompatible (a b : Text) : Bool :=
  match parseProtocolMajor a, parseProtocolMajor b with
  | some a, some b => a = b
  | _, _           => false

def PROTECTED_CONTROL_CAPABILITY : Text :=
  "protected_control_v1".toList

def QUIC_CHANNEL_BINDING_CAPABILITY : Text :=
  "quic_channel_binding_v1".toList

def SINGLE_PORT_UDP_CAPABILITY : Text :=
  "single_port_udp_v1".toList

def BYTE_BUDGET_CAPABILITY : Text :=
  "byte_budget_v1".toList

def UDP_PAYLOAD_SIZE_CAPABILITY : Text :=
  "udp_payload_size_v1".toList

def SUPPORTED_CAPABILITIES : List Text :=
  ["tcp", "udp", "quic", "multistream", "single_port_tcp", "pause_resume", "udp_feedback_v1",
    "zerocopy_v1", "mtu_probe_v1"].map String.toList ++
  [SINGLE_PORT_UDP_CAPABILITY, PROTECTED_CONTROL_CAPABILITY, QUIC_CHANNEL_BINDING_CAPABILITY,
    BYTE_BUDGET_CAPABILITY, UDP_PAYLOAD_SIZE_CAPABILITY]

-- An old peer sends no list at all.
def capabilityAdvertised (capabilities : Option (List Text)) (name : Text) : Bool :=
  match capabilities with
  | none              => false
  | some capabilities => capabilities.contains name

namespace Message

def clientHello : Message :=
  .hello PROTOCOL_VERSION (some SUPPORTED_CAPABILITIES) none none

def clientHelloWithNonce (clientNonce : Text) : Message :=
  .hello PROTOCOL_VERSION (some SUPPORTED_CAPABILITIES) none (some clientNonce)

def serverHelloWithCapabilities (capabilities : List Text) : Message :=
  .hello PROTOCOL_VERSION (some capabilities) none none

def serverHelloWithAuthAndCapabilities (nonce : Text) (capabilities : List Text) : Message :=
  .hello PROTOCOL_VERSION (some capabilities) (some ⟨"psk".toList, nonce⟩) none

end Message

example : versionsCompatible "1.0".toList PROTOCOL_VERSION = true := by decide

example : versionsCompatible "1.".toList PROTOCOL_VERSION = false := by decide
