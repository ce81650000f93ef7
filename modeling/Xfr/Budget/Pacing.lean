import Mathlib.Tactic.Ring
import Xfr.Budget.Udp

namespace PacingSchedule

variable {target : UInt64} {p : PayloadSize}

def bitsPerPacket (p : PayloadSize) : Nat :=
  p.bytes * 8

-- What a stream can send with one packet in each of the most ticks.
def bitratePerTick (p : PayloadSize) : Nat :=
  bitsPerPacket p * MAX_PACING_TICKS_PER_SEC

-- The schedule as it is computed when no operation may leave its range, divide by zero or truncate.
def checked (targetBitrate packetSize : Nat) : Option PacingSchedule := do
  let bitsPerPacket ← U64.checkedMul U64.max packetSize 8
  let bitratePerTick ← U64.checkedMul U64.max bitsPerPacket MAX_PACING_TICKS_PER_SEC
  let ticks ← U64.checkedDivCeil targetBitrate bitratePerTick
  let packetsPerTick := max 1 (min ticks MAX_PACED_PACKETS_PER_TICK)
  let bits ← U64.checkedMul (2 ^ 128 - 1) packetsPerTick bitsPerPacket
  let nanos ← U64.checkedMul (2 ^ 128 - 1) bits 1000000000
  let interval ← U64.checkedDivCeil nanos targetBitrate
  let intervalNanos ← U64.checkedCast (max 1 interval)
  return { intervalNanos, packetsPerTick }

def packets (target : UInt64) (p : PayloadSize) : Nat :=
  max 1 (min (U64.divCeil target.toNat (bitratePerTick p)) MAX_PACED_PACKETS_PER_TICK)

-- The schedule of a target bitrate, in exact arithmetic.
def exact (target : UInt64) (p : PayloadSize) : PacingSchedule where
  intervalNanos  :=
    max 1 (U64.divCeil (packets target p * bitsPerPacket p * 1000000000) target.toNat)
  packetsPerTick := packets target p

theorem packets_eq : packets target p =
    max 1 (min (U64.divCeil target.toNat (bitratePerTick p)) MAX_PACED_PACKETS_PER_TICK) :=
  rfl

theorem bitsPerPacket_bounds : 128 ≤ bitsPerPacket p ∧ bitsPerPacket p ≤ 524056 := by
  have hl : 16 ≤ p.bytes := p.header_le
  have hu : p.bytes ≤ 65507 := p.le_max
  unfold bitsPerPacket
  omega

theorem packets_bounds : 1 ≤ packets target p ∧ packets target p ≤ MAX_PACED_PACKETS_PER_TICK := by
  have : 1 ≤ MAX_PACED_PACKETS_PER_TICK := by decide
  unfold packets
  omega

theorem bits_le : packets target p * bitsPerPacket p ≤ 536633344 :=
  Nat.mul_le_mul packets_bounds.right bitsPerPacket_bounds.right

theorem intervalNanos_bounds (h : 0 < target) :
    1 ≤ (exact target p).intervalNanos ∧ (exact target p).intervalNanos ≤ U64.max := by
  have hb := @bits_le target p
  have ht : 0 < target.toNat := h
  have hd : U64.divCeil (packets target p * bitsPerPacket p * 1000000000) target.toNat ≤ _ :=
    U64.divCeil_le_self ht
  have hm : 536633344000000000 ≤ U64.max := by decide
  dsimp only [exact]
  omega

theorem bitratePerTick_bounds :
    0 < bitratePerTick p ∧ bitratePerTick p ≤ 5240560000 := by
  have := bitsPerPacket_bounds (p := p)
  unfold bitratePerTick MAX_PACING_TICKS_PER_SEC
  omega

theorem pacingSchedule_eq (h : 0 < target) :
    pacingSchedule target.toNat p.bytes = exact target p := by
  have hb := (bitsPerPacket_bounds (p := p)).right
  have hq := (bitratePerTick_bounds (p := p)).right
  have hn := @bits_le target p
  have hi := (intervalNanos_bounds (p := p) h).right
  have hm : 536633344000000000 ≤ U64.max ∧ 536633344000000000 ≤ 2 ^ 128 - 1 := by decide
  have e₁ : U64.saturatingMul p.bytes 8 = bitsPerPacket p :=
    U64.saturatingMul_eq_mul (show bitsPerPacket p ≤ U64.max by omega)
  have e₂ : U64.saturatingMul (bitsPerPacket p) MAX_PACING_TICKS_PER_SEC = bitratePerTick p :=
    U64.saturatingMul_eq_mul (show bitratePerTick p ≤ U64.max by omega)
  have e₃ : min (packets target p * bitsPerPacket p) (2 ^ 128 - 1) =
      packets target p * bitsPerPacket p := Nat.min_eq_left (by omega)
  have e₄ : min (packets target p * bitsPerPacket p * 1000000000) (2 ^ 128 - 1) =
      packets target p * bitsPerPacket p * 1000000000 := Nat.min_eq_left (by omega)
  have e₅ := Nat.min_eq_left ((Nat.le_max_right 1 _).trans hi)
  simp only [pacingSchedule, e₁, e₂, ← packets_eq, e₃, e₄, e₅, exact]

theorem checked_eq (h : 0 < target) : checked target.toNat p.bytes = some (exact target p) := by
  have ht : 0 < target.toNat := h
  have hb := (bitsPerPacket_bounds (p := p)).right
  have hq := bitratePerTick_bounds (p := p)
  have hn := @bits_le target p
  have hi := (intervalNanos_bounds (p := p) h).right
  have hm : 536633344000000000 ≤ U64.max ∧ 536633344000000000 ≤ 2 ^ 128 - 1 := by decide
  have e₁ : U64.checkedMul U64.max p.bytes 8 = some (bitsPerPacket p) :=
    U64.checkedMul_eq_some (show bitsPerPacket p ≤ U64.max by omega)
  have e₂ : U64.checkedMul U64.max (bitsPerPacket p) MAX_PACING_TICKS_PER_SEC =
      some (bitratePerTick p) :=
    U64.checkedMul_eq_some (show bitratePerTick p ≤ U64.max by omega)
  have e₃ : U64.checkedMul (2 ^ 128 - 1) (packets target p) (bitsPerPacket p) =
      some (packets target p * bitsPerPacket p) := U64.checkedMul_eq_some (by omega)
  have e₄ : U64.checkedMul (2 ^ 128 - 1) (packets target p * bitsPerPacket p) 1000000000 =
      some (packets target p * bitsPerPacket p * 1000000000) := U64.checkedMul_eq_some (by omega)
  refine Option.bind_eq_some_iff.mpr ⟨_, e₁, ?_⟩
  refine Option.bind_eq_some_iff.mpr ⟨_, e₂, ?_⟩
  refine Option.bind_eq_some_iff.mpr ⟨_, U64.checkedDivCeil_eq_some hq.left, ?_⟩
  refine Option.bind_eq_some_iff.mpr ⟨_, e₃, ?_⟩
  refine Option.bind_eq_some_iff.mpr ⟨_, e₄, ?_⟩
  refine Option.bind_eq_some_iff.mpr ⟨_, U64.checkedDivCeil_eq_some ht, ?_⟩
  exact Option.bind_eq_some_iff.mpr ⟨_, U64.checkedCast_eq_some hi, rfl⟩

-- The bits of a tick are never more than the target allows for its interval.
theorem exact_rate (h : 0 < target) :
    (exact target p).packetsPerTick * bitsPerPacket p * 1000000000 ≤
      target.toNat * (exact target p).intervalNanos := by
  have ht : 0 < target.toNat := h
  exact (U64.le_mul_divCeil ht).trans (Nat.mul_le_mul_left _ (Nat.le_max_right ..))

-- Batches are as large as needed for a tick of a tenth of a millisecond, if their bound allows it.
theorem exact_ticks (h : 0 < target)
    (hc : U64.divCeil target.toNat (bitratePerTick p) ≤ MAX_PACED_PACKETS_PER_TICK) :
    1000000000 ≤ MAX_PACING_TICKS_PER_SEC * (exact target p).intervalNanos := by
  have ht : 0 < target.toNat := h
  have hq := (bitratePerTick_bounds (p := p)).left
  have hp : U64.divCeil target.toNat (bitratePerTick p) ≤ (exact target p).packetsPerTick := by
    simp only [exact, packets, Nat.min_eq_left hc]
    exact Nat.le_max_right ..
  have hle : target.toNat ≤ bitratePerTick p * (exact target p).packetsPerTick :=
    (U64.le_mul_divCeil hq).trans (Nat.mul_le_mul_left _ hp)
  have hr := exact_rate (p := p) h
  have hk : target.toNat * 100000 ≤ target.toNat * (exact target p).intervalNanos := by
    calc
      target.toNat * 100000 ≤ bitratePerTick p * (exact target p).packetsPerTick * 100000 :=
        Nat.mul_le_mul_right _ hle
      _ = (exact target p).packetsPerTick * bitsPerPacket p * 1000000000 := by
        rw [bitratePerTick, MAX_PACING_TICKS_PER_SEC]
        ring
      _ ≤ target.toNat * (exact target p).intervalNanos := hr
  have := Nat.le_of_mul_le_mul_left hk ht
  unfold MAX_PACING_TICKS_PER_SEC
  omega

-- A schedule never sends faster than requested, and its ticks and batches are bounded. No number on
-- the way to it leaves its range.
structure Paces (target : UInt64) (p : PayloadSize) (s : PacingSchedule) : Prop where
  packets  : 1 ≤ s.packetsPerTick ∧ s.packetsPerTick ≤ MAX_PACED_PACKETS_PER_TICK
  interval : 1 ≤ s.intervalNanos ∧ s.intervalNanos ≤ U64.max
  rate     : s.packetsPerTick * (p.bytes * 8) * 1000000000 ≤ target.toNat * s.intervalNanos
  ticks    :
    U64.divCeil target.toNat (p.bytes * 8 * MAX_PACING_TICKS_PER_SEC) ≤ MAX_PACED_PACKETS_PER_TICK →
      1000000000 ≤ MAX_PACING_TICKS_PER_SEC * s.intervalNanos
  checked  : PacingSchedule.checked target.toNat p.bytes = some s

theorem pacing_schedule (h : 0 < target) :
    Paces target p (pacingSchedule target.toNat p.bytes) := by
  rw [pacingSchedule_eq h]
  exact {
    packets  := packets_bounds
    interval := intervalNanos_bounds h
    rate     := exact_rate h
    ticks    := exact_ticks h
    checked  := checked_eq h
  }

-- The default target, with the default packet size.
theorem pacing_schedule_default :
    Paces 1000000000 ⟨1400, by decide, by decide⟩
      (pacingSchedule (1000000000 : UInt64).toNat 1400) :=
  @pacing_schedule 1000000000 ⟨1400, by decide, by decide⟩ (by decide)

end PacingSchedule
