import Mathlib.Data.Nat.Cast.WithTop
import Mathlib.Order.Lattice.Nat
import Mathlib.Order.WithBot

-- A time limit is a number of which zero means that there is no limit.
namespace Extent

def extent (limit : Nat) : WithTop Nat :=
  if limit = 0 then ⊤ else limit

variable {a b limit : Nat}

@[simp]
theorem extent_zero : extent 0 = ⊤ :=
  rfl

theorem extent_pos (h : limit ≠ 0) : extent limit = limit :=
  if_neg h

@[simp]
theorem extent_eq_top : extent limit = ⊤ ↔ limit = 0 := by
  cases limit <;> simp [extent]

-- Two proper limits together are the smaller one, which the numbers of improper limits get wrong.
theorem extent_min (ha : a ≠ 0) (hb : b ≠ 0) : extent (min a b) = min (extent a) (extent b) := by
  have hm : min a b ≠ 0 := by omega
  simp only [extent_pos ha, extent_pos hb, extent_pos hm, Nat.cast_withTop, WithTop.coe_min]

end Extent

open Extent

-- Durations are counted in nanoseconds.
def fromSecs (secs : Nat) : Nat :=
  10 ^ 9 * secs

def asSecs (duration : Nat) : Nat :=
  duration / 10 ^ 9

@[simp]
theorem fromSecs_eq_zero {secs : Nat} : fromSecs secs = 0 ↔ secs = 0 := by
  unfold fromSecs
  omega

def MAX_TEST_DURATION : Nat :=
  fromSecs 3600

structure ServerPreset where
  maxDurationSecs : Option UInt64

def resolveServerMaxDuration (cliMaxDuration : Option Nat) (preset : Option ServerPreset) :
    Option Nat :=
  cliMaxDuration <|> preset.bind (·.maxDurationSecs.map (fromSecs ·.toNat))

def infiniteCapped (maxDur : Nat) : String :=
  "Infinite duration requested, capped to server max " ++ toString (asSecs maxDur) ++ "s"

def clientCapped (durationSecs : UInt32) (what : String) (max : Nat) : String :=
  "Client requested " ++ toString durationSecs ++ "s, capped to " ++ what ++ toString (asSecs max) ++
    "s"

-- The control path of TCP and UDP tests warns of all what it cuts off.
def HandleTestRequest.duration (durationSecs : UInt32) (serverMaxDuration : Option Nat) :
    Nat × List String :=
  let duration := fromSecs durationSecs.toNat
  if duration = 0 then
    match serverMaxDuration with
    | some maxDur => (maxDur, [infiniteCapped maxDur])
    | none        => (duration, [])
  else
    let (duration, warnings) :=
      if MAX_TEST_DURATION < duration then
        (MAX_TEST_DURATION, [clientCapped durationSecs "" MAX_TEST_DURATION])
      else
        (duration, [])
    match serverMaxDuration with
    | some maxDur =>
      if maxDur < duration then
        (maxDur, warnings ++ [clientCapped durationSecs "server max " maxDur])
      else
        (duration, warnings)
    | none => (duration, warnings)

def HandleQuicClient.duration (durationSecs : UInt32) (serverMaxDuration : Option Nat) :
    Nat × List String :=
  let duration := fromSecs durationSecs.toNat
  if duration = 0 then
    match serverMaxDuration with
    | some maxDur => (maxDur, [infiniteCapped maxDur])
    | none        => (duration, [])
  else
    let duration := if MAX_TEST_DURATION < duration then MAX_TEST_DURATION else duration
    match serverMaxDuration with
    | some maxDur => (if maxDur < duration then maxDur else duration, [])
    | none        => (duration, [])

variable {requested : Nat} {durationSecs : UInt32} {serverMaxDuration : Option Nat}

-- What is left of a request under the limit for each client and the maximum of this server.
def durationCap (requested : Nat) : Option Nat → Nat
  | none   => if requested = 0 then 0 else min requested MAX_TEST_DURATION
  | some m => if requested = 0 then m else min (min requested MAX_TEST_DURATION) m

theorem durationCap_zero : durationCap requested (some 0) = 0 := by
  simp [durationCap]

theorem ite_lt_eq_min {a b : Nat} : (if b < a then b else a) = min a b := by
  split <;> omega

theorem HandleTestRequest.duration_eq :
    (duration durationSecs serverMaxDuration).fst =
      durationCap (fromSecs durationSecs.toNat) serverMaxDuration := by
  unfold duration durationCap
  simp only [← ite_lt_eq_min]
  by_cases hz : fromSecs durationSecs.toNat = 0
  case pos => cases serverMaxDuration <;> simp only [hz, if_true]
  case neg =>
    by_cases hl : MAX_TEST_DURATION < fromSecs durationSecs.toNat
    case pos =>
      cases serverMaxDuration <;> simp only [if_neg hz, if_pos hl, apply_ite Prod.fst]
    case neg =>
      cases serverMaxDuration <;> simp only [if_neg hz, if_neg hl, apply_ite Prod.fst]

theorem HandleQuicClient.duration_eq :
    (duration durationSecs serverMaxDuration).fst =
      durationCap (fromSecs durationSecs.toNat) serverMaxDuration := by
  cases serverMaxDuration
  case none =>
    simp only [duration, durationCap, ite_lt_eq_min]
    split
    case isTrue h => exact h
    case isFalse  => rfl
  case some m =>
    simp only [duration, durationCap, ite_lt_eq_min]
    split <;> rfl

-- A proper limit, a proper maximum and a proper request are all obeyed. An infinite request is only
-- bound by the maximum.
theorem extent_durationCap (h : serverMaxDuration ≠ some 0) :
    extent (durationCap requested serverMaxDuration) =
      min (if requested = 0 then ⊤ else min (extent requested) (extent MAX_TEST_DURATION))
        (extent (serverMaxDuration.getD 0)) := by
  have hl : MAX_TEST_DURATION ≠ 0 := by simp [MAX_TEST_DURATION]
  cases serverMaxDuration
  case none =>
    by_cases hr : requested = 0
    case pos => simp [durationCap, hr]
    case neg => simp [durationCap, hr, extent_min hr hl]
  case some m =>
    have hm : m ≠ 0 := fun he => h (he ▸ rfl)
    by_cases hr : requested = 0
    case pos => simp [durationCap, hr]
    case neg =>
      have hrl : min requested MAX_TEST_DURATION ≠ 0 := by omega
      simp only [durationCap, if_neg hr, extent_min hrl hm, extent_min hr hl, Option.getD_some]

-- What a server promises on the length of a test. Lengths are compared as such: a test without end is
-- longer than each number of nanoseconds.
structure DurationCapped (durationSecs : UInt32) (serverMaxDuration : Option Nat)
    (tcp quic : Nat) : Prop where
  agree         : tcp = quic
  belowMaximum  : durationSecs ≠ 0 → ∀ m ∈ serverMaxDuration, extent tcp ≤ m
  belowLimit    : durationSecs ≠ 0 → extent tcp ≤ MAX_TEST_DURATION
  belowRequest  : durationSecs ≠ 0 → extent tcp ≤ fromSecs durationSecs.toNat
  bounded       : serverMaxDuration.isSome → extent tcp ≠ ⊤
  remainsFinite : durationSecs ≠ 0 → extent tcp ≠ ⊤

theorem fromSecs_ne_zero (h : durationSecs ≠ 0) : fromSecs durationSecs.toNat ≠ 0 :=
  fun hz => h <| UInt32.toNat_inj.mp <| fromSecs_eq_zero.mp hz

theorem durationCapped_of_pos (h : serverMaxDuration ≠ some 0) :
    DurationCapped durationSecs serverMaxDuration
      (durationCap (fromSecs durationSecs.toNat) serverMaxDuration)
      (durationCap (fromSecs durationSecs.toNat) serverMaxDuration) := by
  have hl : MAX_TEST_DURATION ≠ 0 := by simp [MAX_TEST_DURATION]
  have hc : extent (durationCap (fromSecs durationSecs.toNat) serverMaxDuration) = _ :=
    extent_durationCap h
  have finite (hd : durationSecs ≠ 0) :
      extent (durationCap (fromSecs durationSecs.toNat) serverMaxDuration) ≤
        fromSecs durationSecs.toNat ∧
      extent (durationCap (fromSecs durationSecs.toNat) serverMaxDuration) ≤ MAX_TEST_DURATION := by
    rw [hc, if_neg (fromSecs_ne_zero hd), extent_pos hl, extent_pos (fromSecs_ne_zero hd)]
    exact ⟨min_le_left _ _ |>.trans (min_le_left _ _), min_le_left _ _ |>.trans (min_le_right _ _)⟩
  have bounded (m : Nat) (hm : m ∈ serverMaxDuration) :
      extent (durationCap (fromSecs durationSecs.toNat) serverMaxDuration) ≤ m := by
    have hz : m ≠ 0 := fun he => h (he ▸ hm)
    rw [hc, hm, Option.getD_some, extent_pos hz]
    exact min_le_right _ _
  exact {
    agree         := rfl
    belowMaximum  := fun _ => bounded
    belowLimit    := fun hd => (finite hd).right
    belowRequest  := fun hd => (finite hd).left
    bounded       := fun hs => ne_top_of_le_ne_top WithTop.coe_ne_top <|
      bounded _ (Option.get_mem hs)
    remainsFinite := fun hd => ne_top_of_le_ne_top WithTop.coe_ne_top (finite hd).left
  }

-- A maximum of zero is taken for no end in the place of the shortest test.
theorem duration_capped_iff (durationSecs : UInt32) (cliMaxDuration : Option Nat)
    (preset : Option ServerPreset) :
    DurationCapped durationSecs (resolveServerMaxDuration cliMaxDuration preset)
      (HandleTestRequest.duration durationSecs
        (resolveServerMaxDuration cliMaxDuration preset)).fst
      (HandleQuicClient.duration durationSecs
        (resolveServerMaxDuration cliMaxDuration preset)).fst ↔
    resolveServerMaxDuration cliMaxDuration preset ≠ some 0 := by
  generalize resolveServerMaxDuration cliMaxDuration preset = serverMaxDuration
  rw [HandleTestRequest.duration_eq, HandleQuicClient.duration_eq]
  constructor
  case mpr => exact durationCapped_of_pos
  case mp =>
    rintro c rfl
    have hz : durationCap (fromSecs durationSecs.toNat) (some 0) = 0 := durationCap_zero
    exact c.bounded rfl (extent_eq_top.mpr hz)

theorem tcp_request_unbounded :
    (HandleTestRequest.duration 10 (resolveServerMaxDuration (some 0) none)).fst = 0 ∧
    ¬ DurationCapped 10 (resolveServerMaxDuration (some 0) none)
      (HandleTestRequest.duration 10 (resolveServerMaxDuration (some 0) none)).fst
      (HandleQuicClient.duration 10 (resolveServerMaxDuration (some 0) none)).fst := by
  have hd : (HandleTestRequest.duration 10 (resolveServerMaxDuration (some 0) none)).fst = 0 := by
    simp [HandleTestRequest.duration_eq, resolveServerMaxDuration, durationCap_zero]
  refine ⟨hd, fun c => c.remainsFinite (by decide) ?_⟩
  rw [hd, extent_zero]
