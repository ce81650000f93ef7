import Xfr.Library.Bisection

open Bisection (midpoint)

inductive SizeVerdict
  | pass
  | fail
  | localLimit
  | untested
  deriving DecidableEq

def ipOverhead (isIpv6 : Bool) : Nat :=
  if isIpv6 then 48 else 28

def MIN_PROBE_PAYLOAD : Nat := 548

def MAX_PROBE_PAYLOAD : Nat := 9188

def minProbePayload (isIpv6 : Bool) : Nat :=
  if isIpv6 then 1280 - ipOverhead true else MIN_PROBE_PAYLOAD

def sizeLadder (isIpv6 : Bool) : List Nat :=
  let overhead   := ipOverhead isIpv6
  let minPayload := minProbePayload isIpv6
  let maxPayload := 9216 - overhead
  let ladder     := [576, 1280, 1492, 1500, 4352, 9000, 9216].map (· - overhead)
  let ladder     := ladder.filter fun p => minPayload ≤ p ∧ p ≤ maxPayload
  let ladder     := if ladder.head? ≠ some minPayload then minPayload :: ladder else ladder
  let ladder     := if ladder.getLast? ≠ some maxPayload then ladder ++ [maxPayload] else ladder
  ladder.eraseReps

-- The largest size which passed so far is the low end of the search, the smallest one which failed its
-- high end.
structure SizeSearch where
  ladder    : List Nat
  ladderIdx : Nat        := 0
  low       : Option Nat := none
  high      : Option Nat := none
  inBinary  : Bool       := false
  pending   : Option Nat := none

namespace SizeSearch

def new (isIpv6 : Bool) : SizeSearch where
  ladder := sizeLadder isIpv6

def binaryMidpoint (s : SizeSearch) : Option Nat := do
  let low ← s.low
  let high ← s.high
  if high - low ≤ 1 then none else some (low + (high - low) / 2)

-- Rungs above a known failure are skipped.
def seek (high : Option Nat) : (rungs : List Nat) → (ladderIdx : Nat) → Nat × Option Nat
  | [],            ladderIdx => (ladderIdx, none)
  | size :: rungs, ladderIdx =>
    if high.any (size ≥ ·) then seek high rungs (ladderIdx + 1) else (ladderIdx, some size)

def nextSize (s : SizeSearch) : Option Nat × SizeSearch :=
  match s.pending with
  | some size => (some size, s)
  | none      =>
    let (next, s) :=
      if s.inBinary then
        (s.binaryMidpoint, s)
      else
        match seek s.high (s.ladder.drop s.ladderIdx) s.ladderIdx with
        | (ladderIdx, some size) => (some size, { s with ladderIdx })
        | (ladderIdx, none)      =>
          let s := { s with ladderIdx, inBinary := true }
          (s.binaryMidpoint, s)
    (next, { s with pending := next })

-- No verdict on the forward direction leaves it untested.
def record (s : SizeSearch) (size : Nat) (forward : SizeVerdict) : SizeSearch :=
  let s := { s with pending := none }
  let s := if s.inBinary then s else { s with ladderIdx := s.ladderIdx + 1 }
  match forward with
  | .pass              => if s.low.all (size > ·) then { s with low := some size } else s
  | .fail | .localLimit => if s.high.all (size < ·) then { s with high := some size } else s
  | .untested          => s

def forwardMax (s : SizeSearch) : Option Nat :=
  s.low

-- The sizes which were probed, with their verdicts.
abbrev History := List (Nat × SizeVerdict)

abbrev Oracle := History → Nat → { forward : SizeVerdict // forward ≠ .untested }

-- Probes one size after another until there is no further one.
def search (oracle : Oracle) : (fuel : Nat) → SizeSearch → History → Option (SizeSearch × History)
  | 0,        _, _       => none
  | fuel + 1, s, history =>
    match s.nextSize with
    | (none,      s) => some (s, history)
    | (some size, s) =>
      let forward := oracle history size
      search oracle fuel (s.record size forward) (history ++ [(size, forward.val)])

end SizeSearch

-- The rungs of a ladder get larger, and there is one.
structure Ladder where
  first  : Nat
  rest   : List Nat
  sorted : (first :: rest).Pairwise (· < ·)

namespace Ladder

def rungs (ladder : Ladder) : List Nat :=
  ladder.first :: ladder.rest

def top (ladder : Ladder) : Nat :=
  ladder.rungs.getLast (by simp [rungs])

-- The most probes of a search.
def bound (ladder : Ladder) : Nat :=
  ladder.rungs.length + Nat.clog 2 (ladder.top - ladder.first)

def ofFamily : (isIpv6 : Bool) → Ladder
  | false => ⟨548, [1252, 1464, 1472, 4324, 8972, 9188], by decide⟩
  | true  => ⟨1232, [1444, 1452, 4304, 8952, 9168], by decide⟩

theorem rungs_ofFamily {isIpv6 : Bool} : (ofFamily isIpv6).rungs = sizeLadder isIpv6 := by
  cases isIpv6 <;> decide

variable {ladder : Ladder} {size : Nat}

theorem mem_bounds (h : size ∈ ladder.rungs) : ladder.first ≤ size ∧ size ≤ ladder.top := by
  constructor
  case left =>
    cases List.mem_cons.mp h
    case inl h => exact Nat.le_of_eq h.symm
    case inr h => exact Nat.le_of_lt (List.rel_of_pairwise_cons ladder.sorted h)
  case right =>
    have hd : ladder.rungs.dropLast ++ [ladder.top] = ladder.rungs :=
      List.dropLast_concat_getLast _
    have sorted : ladder.rungs.Pairwise (· < ·) := ladder.sorted
    rw [← hd] at h sorted
    cases List.mem_append.mp h
    case inl h =>
      exact Nat.le_of_lt ((List.pairwise_append.mp sorted).right.right size h _ (by simp))
    case inr h => exact Nat.le_of_eq (List.mem_singleton.mp h)

theorem top_mem : ladder.top ∈ ladder.rungs :=
  List.getLast_mem _

end Ladder

namespace SizeSearch

variable {ladder : Ladder} {history : History} {s s' : SizeSearch} {size low high k : Nat}
  {forward : SizeVerdict} {oracle : Oracle}

def passes (sizes : List Nat) : History :=
  sizes.map (·, .pass)

-- So far every rung has passed.
structure Climbing (ladder : Ladder) (history : History) (s : SizeSearch) : Prop where
  ladder_eq  : s.ladder = ladder.rungs
  idx_le     : s.ladderIdx ≤ ladder.rungs.length
  low_eq     : s.low = (ladder.rungs.take s.ladderIdx).getLast?
  high_eq    : s.high = none
  binary     : s.inBinary = false
  pending    : s.pending = none
  history_eq : history = passes (ladder.rungs.take s.ladderIdx)

-- The first rung failed.
structure Refused (ladder : Ladder) (history : History) (s : SizeSearch) : Prop where
  low_eq     : s.low = none
  high_eq    : s.high = some ladder.first
  above      : s.inBinary = false → ∀ size ∈ s.ladder.drop s.ladderIdx, ladder.first ≤ size
  pending    : s.pending = none
  history_eq : ∃ forward ≠ SizeVerdict.pass, history = [(ladder.first, forward)]

-- One size passed and a larger one failed. What is between them is halved by every probe.
structure Bracketed (ladder : Ladder) (history : History) (s : SizeSearch) (low high : Nat) :
    Prop where
  low_eq    : s.low = some low
  high_eq   : s.high = some high
  above     : s.inBinary = false → ∀ size ∈ s.ladder.drop s.ladderIdx, high ≤ size
  pending   : s.pending = none
  first_le  : ladder.first ≤ low
  lt        : low < high
  le_top    : high ≤ ladder.top
  passed    : (low, .pass) ∈ history
  failed    : ∃ forward ≠ SizeVerdict.pass, (high, forward) ∈ history
  head      : history.head? = some (ladder.first, .pass)
  length_le : history.length + Nat.clog 2 (high - low) ≤ ladder.bound

inductive Phase (ladder : Ladder) (history : History) (s : SizeSearch) : Prop
  | climbing : Climbing ladder history s → Phase ladder history s
  | refused : Refused ladder history s → Phase ladder history s
  | bracketed {low high : Nat} : Bracketed ladder history s low high → Phase ladder history s

def start (ladder : Ladder) : SizeSearch where
  ladder := ladder.rungs

theorem climbing_start : Climbing ladder [] (start ladder) where
  ladder_eq  := rfl
  idx_le     := Nat.zero_le _
  low_eq     := rfl
  high_eq    := rfl
  binary     := rfl
  pending    := rfl
  history_eq := rfl

-- Rungs above a failure are never probed.
theorem seek_above {rungs : List Nat} (h : ∀ size ∈ rungs, high ≤ size) :
    seek (some high) rungs k = (k + rungs.length, none) := by
  induction rungs generalizing k
  case nil => rfl
  case cons size rungs hi =>
    have ⟨hs, h⟩ := List.forall_mem_cons.mp h
    rw [seek, if_pos (by simpa using hs), hi h, List.length_cons]
    congr 1
    omega

theorem seek_none {rungs : List Nat} : seek none rungs k = (k, rungs.head?) := by
  cases rungs <;> rfl

-- What is left to a search which knows a failure is to look between its ends.
theorem nextSize_above (hh : s.high = some high) (hp : s.pending = none)
    (above : s.inBinary = false → ∀ size ∈ s.ladder.drop s.ladderIdx, high ≤ size) :
    ∃ ladderIdx, s.nextSize = (s.binaryMidpoint,
      { s with ladderIdx, inBinary := true, pending := s.binaryMidpoint }) := by
  cases hb : s.inBinary
  case true =>
    refine ⟨s.ladderIdx, ?_⟩
    simp [nextSize, hp, hb]
  case false =>
    refine ⟨s.ladderIdx + (s.ladder.drop s.ladderIdx).length, ?_⟩
    simp only [nextSize, hp, hb, hh, seek_above (above hb), binaryMidpoint]
    rfl

theorem Climbing.nextSize (c : Climbing ladder history s) :
    (s.ladderIdx = ladder.rungs.length ∧ s.nextSize.1 = none) ∨
      ∃ size, ladder.rungs[s.ladderIdx]? = some size ∧
        s.nextSize = (some size, { s with pending := some size }) := by
  have hh : (s.ladder.drop s.ladderIdx).head? = ladder.rungs[s.ladderIdx]? := by
    rw [c.ladder_eq, List.head?_drop]
  cases hr : ladder.rungs[s.ladderIdx]?
  case none =>
    left
    have hl := List.getElem?_eq_none_iff.mp hr
    refine ⟨Nat.le_antisymm c.idx_le hl, ?_⟩
    simp [SizeSearch.nextSize, c.pending, c.binary, c.high_eq, seek_none, hh, hr, binaryMidpoint]
  case some size =>
    right
    refine ⟨size, rfl, ?_⟩
    simp [SizeSearch.nextSize, c.pending, c.binary, c.high_eq, seek_none, hh, hr]

theorem record_pass : s.record size .pass = { s with
    pending   := none
    ladderIdx := if s.inBinary then s.ladderIdx else s.ladderIdx + 1
    low       := if s.low.all (size > ·) then some size else s.low } := by
  cases hb : s.inBinary
  all_goals
    by_cases hl : s.low.all (size > ·)
    case pos => simp only [record, hb, hl, Bool.false_eq_true, if_true, if_false]
    case neg => simp only [record, hb, hl, Bool.false_eq_true, if_true, if_false]

theorem record_fail (hp : forward ≠ .pass) (hu : forward ≠ .untested) :
    s.record size forward = { s with
      pending   := none
      ladderIdx := if s.inBinary then s.ladderIdx else s.ladderIdx + 1
      high      := if s.high.all (size < ·) then some size else s.high } := by
  have hr : s.record size forward = s.record size .fail := by
    cases forward <;> first | contradiction | rfl
  rw [hr]
  cases hb : s.inBinary
  all_goals
    by_cases hl : s.high.all (size < ·)
    case pos => simp only [record, hb, hl, Bool.false_eq_true, if_true, if_false]
    case neg => simp only [record, hb, hl, Bool.false_eq_true, if_true, if_false]

theorem Climbing.lt_of_mem (hr : ladder.rungs[k]? = some size)
    (hl : low ∈ ladder.rungs.take k) : low < size := by
  have ⟨hk, hr⟩ := List.getElem?_eq_some_iff.mp hr
  have ⟨i, hi, he⟩ := List.mem_take_iff_getElem.mp hl
  have sorted : ladder.rungs.Pairwise (· < ·) := ladder.sorted
  rw [← he, ← hr]
  exact List.pairwise_iff_getElem.mp sorted i k (by omega) hk (by omega)

theorem Climbing.le_of_mem_drop (hr : ladder.rungs[k]? = some size)
    (hh : high ∈ ladder.rungs.drop (k + 1)) : size ≤ high := by
  have ⟨hk, hr⟩ := List.getElem?_eq_some_iff.mp hr
  have ⟨i, hi, he⟩ := List.mem_drop_iff_getElem.mp hh
  have sorted : ladder.rungs.Pairwise (· < ·) := ladder.sorted
  rw [← he, ← hr]
  exact Nat.le_of_lt (List.pairwise_iff_getElem.mp sorted k (k + 1 + i) hk (by omega) (by omega))

theorem Climbing.pass (c : Climbing ladder history s)
    (hr : ladder.rungs[s.ladderIdx]? = some size) :
    Climbing ladder (history ++ [(size, .pass)])
      ({ s with pending := some size }.record size .pass) := by
  have ⟨hk, he⟩ := List.getElem?_eq_some_iff.mp hr
  have ht : ladder.rungs.take (s.ladderIdx + 1) = ladder.rungs.take s.ladderIdx ++ [size] := by
    rw [List.take_add_one, hr]
    rfl
  have hl : s.low.all (size > ·) := by
    rw [Option.all_eq_true]
    intro low hl
    rw [c.low_eq] at hl
    simpa using lt_of_mem hr (List.mem_of_getLast? hl)
  rw [record_pass]
  exact {
    ladder_eq  := c.ladder_eq
    idx_le     := by simpa [c.binary] using Nat.succ_le_of_lt hk
    low_eq     := by simp [c.binary, ht, hl]
    high_eq    := c.high_eq
    binary     := c.binary
    pending    := rfl
    history_eq := by simp [c.binary, ht, passes, c.history_eq]
  }

-- The first failure ends the climb.
theorem Climbing.fail (c : Climbing ladder history s)
    (hr : ladder.rungs[s.ladderIdx]? = some size) (hp : forward ≠ .pass) (hu : forward ≠ .untested) :
    Phase ladder (history ++ [(size, forward)])
      ({ s with pending := some size }.record size forward) := by
  have ⟨hk, he⟩ := List.getElem?_eq_some_iff.mp hr
  have bounds := Ladder.mem_bounds (List.mem_of_getElem? hr)
  have above (high : Nat) (hh : high ∈ s.ladder.drop (s.ladderIdx + 1)) : size ≤ high :=
    le_of_mem_drop hr (c.ladder_eq ▸ hh)
  rw [record_fail hp hu]
  cases hl : (ladder.rungs.take s.ladderIdx).getLast?
  case none =>
    have hz : ladder.rungs.take s.ladderIdx = [] := List.getLast?_eq_none_iff.mp hl
    have hi : s.ladderIdx = 0 := by
      cases List.take_eq_nil_iff.mp hz
      case inl hi => exact hi
      case inr hn => simp [Ladder.rungs] at hn
    have hf : size = ladder.first := by
      rw [hi] at hr
      exact (Option.some_inj.mp hr).symm
    exact .refused {
      low_eq     := c.low_eq.trans hl
      high_eq    := by simp [c.high_eq, hf]
      above      := fun _ high hh => hf ▸ above high (by simpa [c.binary] using hh)
      pending    := rfl
      history_eq := ⟨forward, hp, by simp [c.history_eq, hz, passes, hf]⟩
    }
  case some low =>
    have hm := List.mem_of_getLast? hl
    have hfirst := (Ladder.mem_bounds (List.mem_of_mem_take hm)).left
    have hn : ladder.rungs.take s.ladderIdx ≠ [] := List.ne_nil_of_mem hm
    have hh : (passes (ladder.rungs.take s.ladderIdx)).head? = some (ladder.first, .pass) := by
      have hi : s.ladderIdx ≠ 0 := fun hi => hn (by rw [hi, List.take_zero])
      rw [passes, List.head?_map, List.head?_take, if_neg hi]
      rfl
    have hlen : history.length = s.ladderIdx := by
      rw [c.history_eq, passes, List.length_map, List.length_take]
      exact Nat.min_eq_left c.idx_le
    exact .bracketed {
      low_eq    := c.low_eq.trans hl
      high_eq   := by simp [c.high_eq]
      above     := fun _ high hh => above high (by simpa [c.binary] using hh)
      pending   := rfl
      first_le  := hfirst
      lt        := lt_of_mem hr hm
      le_top    := bounds.right
      passed    := by
        rw [c.history_eq]
        exact List.mem_append_left _ (List.mem_map_of_mem hm)
      failed    := ⟨forward, hp, by simp⟩
      head      := by rw [c.history_eq, List.head?_append, hh]; rfl
      length_le := by
        have hc : Nat.clog 2 (size - low) ≤ Nat.clog 2 (ladder.top - ladder.first) :=
          Nat.clog_mono_right 2 (by omega)
        rw [List.length_append, List.length_singleton, hlen, Ladder.bound]
        omega
    }

theorem Bracketed.nextSize (b : Bracketed ladder history s low high) :
    (high = low + 1 ∧ s.nextSize.1 = none) ∨
      1 < high - low ∧ ∃ ladderIdx, s.nextSize = (some (midpoint low high),
        { s with ladderIdx, inBinary := true, pending := some (midpoint low high) }) := by
  have ⟨ladderIdx, hn⟩ := nextSize_above b.high_eq b.pending b.above
  have hm : s.binaryMidpoint = if high - low ≤ 1 then none else some (midpoint low high) := by
    simp [binaryMidpoint, b.low_eq, b.high_eq, Bisection.midpoint]
  by_cases hd : high - low ≤ 1
  case pos =>
    have := b.lt
    exact .inl ⟨by omega, by rw [hn, hm, if_pos hd]⟩
  case neg =>
    rw [hm, if_neg hd] at hn
    exact .inr ⟨by omega, ladderIdx, hn⟩

theorem Bracketed.pass (b : Bracketed ladder history s low high) (hd : 1 < high - low) :
    Bracketed ladder (history ++ [(midpoint low high, .pass)])
      ({ s with ladderIdx := k, inBinary := true, pending := some size }.record
        (midpoint low high) .pass) (midpoint low high) high := by
  have hl := Bisection.lt_midpoint hd
  have hc := Bisection.clog_sub_midpoint hd
  have ⟨forward, hf, hm⟩ := b.failed
  rw [record_pass]
  exact {
    low_eq    := by simp [b.low_eq, hl]
    high_eq   := b.high_eq
    above     := nofun
    pending   := rfl
    first_le  := b.first_le.trans (Nat.le_of_lt hl)
    lt        := Bisection.midpoint_lt hd
    le_top    := b.le_top
    passed    := by simp
    failed    := ⟨forward, hf, List.mem_append_left _ hm⟩
    head      := by rw [List.head?_append, b.head]; rfl
    length_le := by
      have := b.length_le
      rw [List.length_append, List.length_singleton]
      omega
  }

theorem Bracketed.fail (b : Bracketed ladder history s low high) (hd : 1 < high - low)
    (hp : forward ≠ .pass) (hu : forward ≠ .untested) :
    Bracketed ladder (history ++ [(midpoint low high, forward)])
      ({ s with ladderIdx := k, inBinary := true, pending := some size }.record
        (midpoint low high) forward) low (midpoint low high) := by
  have hl := Bisection.midpoint_lt hd
  have hc := Bisection.clog_midpoint_sub hd
  rw [record_fail hp hu]
  exact {
    low_eq    := b.low_eq
    high_eq   := by simp [b.high_eq, hl]
    above     := nofun
    pending   := rfl
    first_le  := b.first_le
    lt        := Bisection.lt_midpoint hd
    le_top    := (Nat.le_of_lt hl).trans b.le_top
    passed    := List.mem_append_left _ b.passed
    failed    := ⟨forward, hp, by simp⟩
    head      := by rw [List.head?_append, b.head]; rfl
    length_le := by
      have := b.length_le
      rw [List.length_append, List.length_singleton]
      omega
  }

theorem Refused.nextSize (r : Refused ladder history s) : s.nextSize.1 = none := by
  have ⟨_, hn⟩ := nextSize_above r.high_eq r.pending r.above
  simp [hn, binaryMidpoint, r.low_eq]

-- Whatever the verdict on the next size is, the search stays in one of its phases.
theorem Phase.step (p : Phase ladder history s) (hn : s.nextSize = (some size, s'))
    (hu : forward ≠ .untested) :
    Phase ladder (history ++ [(size, forward)]) (s'.record size forward) := by
  cases p
  case refused r =>
    have := r.nextSize
    simp [hn] at this
  case climbing c =>
    cases c.nextSize
    case inl h => simp [hn] at h
    case inr h =>
      have ⟨_, hr, he⟩ := h
      cases hn.symm.trans he
      by_cases hp : forward = .pass
      case pos => exact hp ▸ .climbing (c.pass hr)
      case neg => exact c.fail hr hp hu
  case bracketed low high b =>
    cases b.nextSize
    case inl h => simp [hn] at h
    case inr h =>
      have ⟨hd, _, he⟩ := h
      cases hn.symm.trans he
      by_cases hp : forward = .pass
      case pos => exact hp ▸ .bracketed (b.pass hd)
      case neg => exact .bracketed (b.fail hd hp hu)

-- Every probe is one of the bounded number of probes.
theorem Phase.length_lt (p : Phase ladder history s) (hn : s.nextSize.1 ≠ none) :
    history.length < ladder.bound := by
  cases p
  case refused r => exact absurd r.nextSize hn
  case climbing c =>
    cases c.nextSize
    case inl h => exact absurd h.right hn
    case inr h =>
      have ⟨_, hr, _⟩ := h
      have ⟨hk, _⟩ := List.getElem?_eq_some_iff.mp hr
      rw [c.history_eq, passes, List.length_map, List.length_take, Ladder.bound]
      omega
  case bracketed low high b =>
    cases b.nextSize
    case inl h => exact absurd h.right hn
    case inr h =>
      have := Nat.clog_pos (by decide : 1 < 2) h.left
      have := b.length_le
      omega

theorem Phase.length_le (p : Phase ladder history s) : history.length ≤ ladder.bound := by
  cases p
  case climbing c =>
    rw [c.history_eq, passes, List.length_map, List.length_take, Ladder.bound]
    omega
  case refused r =>
    have ⟨_, _, hh⟩ := r.history_eq
    rw [hh, Ladder.bound, Ladder.rungs, List.length_singleton, List.length_cons]
    omega
  case bracketed b => exact Nat.le_of_add_right_le b.length_le

-- No probe is out of the range of the ladder.
theorem Phase.nextSize_bounds (p : Phase ladder history s) (hn : s.nextSize = (some size, s')) :
    ladder.first ≤ size ∧ size ≤ ladder.top := by
  cases p
  case refused r =>
    have := r.nextSize
    simp [hn] at this
  case climbing c =>
    cases c.nextSize
    case inl h => simp [hn] at h
    case inr h =>
      have ⟨_, hr, he⟩ := h
      cases hn.symm.trans he
      exact Ladder.mem_bounds (List.mem_of_getElem? hr)
  case bracketed low high b =>
    cases b.nextSize
    case inl h => simp [hn] at h
    case inr h =>
      have ⟨hd, _, he⟩ := h
      cases hn.symm.trans he
      have hl := Bisection.lt_midpoint hd
      have hu := Bisection.midpoint_lt hd
      exact ⟨b.first_le.trans hl.le, hu.le.trans b.le_top⟩

theorem Phase.low_lt (p : Phase ladder history s) (hl : s.low = some low)
    (hh : s.high = some high) : low < high := by
  cases p
  case climbing c    => simp [c.high_eq] at hh
  case refused r     => simp [r.low_eq] at hl
  case bracketed _ _ b =>
    rw [b.low_eq] at hl
    rw [b.high_eq] at hh
    exact Option.some_inj.mp hl ▸ Option.some_inj.mp hh ▸ b.lt

-- What a search found out when it is over.
structure Outcome (ladder : Ladder) (history : History) (s : SizeSearch) : Prop where
  refused : s.forwardMax = none ↔
    ∃ forward ≠ SizeVerdict.pass, history.head? = some (ladder.first, forward)
  found   : ∀ size, s.forwardMax = some size → (size, .pass) ∈ history ∧
    (size = ladder.top ∨ ∃ forward ≠ SizeVerdict.pass, (size + 1, forward) ∈ history)

theorem Phase.outcome (p : Phase ladder history s) (hn : s.nextSize.1 = none) :
    Outcome ladder history s := by
  cases p
  case refused r =>
    have ⟨forward, hp, hh⟩ := r.history_eq
    refine ⟨iff_of_true r.low_eq ⟨forward, hp, by rw [hh]; rfl⟩, fun size hs => ?_⟩
    exact nomatch r.low_eq.symm.trans hs
  case climbing c =>
    cases c.nextSize
    case inr h =>
      have ⟨_, _, he⟩ := h
      simp [he] at hn
    case inl h =>
      have ht : ladder.rungs.take s.ladderIdx = ladder.rungs := by rw [h.left, List.take_length]
      have hl : s.low = some ladder.top := by
        rw [c.low_eq, ht, List.getLast?_eq_some_getLast]
        rfl
      have hh : history = passes ladder.rungs := ht ▸ c.history_eq
      refine ⟨iff_of_false (fun h => nomatch hl.symm.trans h) ?_, fun size hs => ?_⟩
      · rintro ⟨forward, hp, hf⟩
        rw [hh] at hf
        exact hp (Prod.mk.inj (Option.some_inj.mp hf)).right.symm
      · have hs : ladder.top = size := Option.some_inj.mp (hl.symm.trans hs)
        exact ⟨hh ▸ List.mem_map_of_mem (hs ▸ Ladder.top_mem), .inl hs.symm⟩
  case bracketed low high b =>
    cases b.nextSize
    case inr h =>
      have ⟨_, _, he⟩ := h
      simp [he] at hn
    case inl h =>
      refine ⟨iff_of_false (fun h => nomatch b.low_eq.symm.trans h) ?_, fun size hs => ?_⟩
      · rintro ⟨forward, hp, hf⟩
        exact hp (Prod.mk.inj (Option.some_inj.mp (b.head.symm.trans hf))).right.symm
      · have hs : low = size := Option.some_inj.mp (b.low_eq.symm.trans hs)
        exact ⟨hs ▸ b.passed, .inr (hs ▸ h.left ▸ b.failed)⟩

-- The states which a search goes through, one after each probe.
inductive Reached (ladder : Ladder) (oracle : Oracle) : SizeSearch → History → Prop
  | start : Reached ladder oracle (start ladder) []
  | probe {s s' : SizeSearch} {history : History} {size : Nat} :
    Reached ladder oracle s history → s.nextSize = (some size, s') →
    Reached ladder oracle (s'.record size (oracle history size))
      (history ++ [(size, (oracle history size).val)])

theorem Reached.phase (r : Reached ladder oracle s history) : Phase ladder history s := by
  induction r
  case start           => exact .climbing climbing_start
  case probe hn phase  => exact phase.step hn (oracle _ _).property

theorem Reached.length_le (r : Reached ladder oracle s history) :
    history.length ≤ ladder.bound :=
  r.phase.length_le

-- The verdicts are those of the oracle.
theorem Reached.verdict (r : Reached ladder oracle s history) {entry : Nat × SizeVerdict}
    (h : entry ∈ history) : ∃ past, entry.2 = oracle past entry.1 := by
  induction r
  case start => simp at h
  case probe past size _ _ hi =>
    cases List.mem_append.mp h
    case inl h => exact hi h
    case inr h => exact ⟨_, by rw [List.mem_singleton.mp h]⟩

theorem search_ends {fuel : Nat} (r : Reached ladder oracle s history)
    (hf : ladder.bound < history.length + fuel) :
    ∃ s₁ s₂ history', search oracle fuel s history = some (s₂, history') ∧
      Reached ladder oracle s₁ history' ∧ s₁.nextSize = (none, s₂) := by
  induction fuel generalizing s history
  case zero =>
    have := r.length_le
    omega
  case succ fuel hi =>
    match hn : s.nextSize with
    | (none,      s') => exact ⟨s, s', history, by rw [search, hn], r, hn⟩
    | (some size, s') =>
      rw [search, hn]
      exact hi (r.probe hn) (by rw [List.length_append, List.length_singleton]; omega)

theorem low_nextSize : s.nextSize.2.low = s.low := by
  unfold nextSize
  split
  case h_1 => rfl
  case h_2 =>
    dsimp only
    split
    case isTrue  => rfl
    case isFalse => split <;> rfl

-- The limit of a path is what passes next to something which fails.
theorem Outcome.limit {limit : Nat} (o : Outcome ladder history s)
    (hr : Reached ladder oracle s' history)
    (path : ∀ past size, (oracle past size).val = .pass ↔ size ≤ limit)
    (hl : ladder.first ≤ limit) (hu : limit ≤ ladder.top) : s.forwardMax = some limit := by
  have verdict {size : Nat} {forward : SizeVerdict} (h : (size, forward) ∈ history) :
      forward = .pass ↔ size ≤ limit := by
    have ⟨past, hv⟩ := hr.verdict h
    rw [show forward = _ from hv]
    exact path past size
  cases hm : s.forwardMax
  case none =>
    have ⟨forward, hp, hh⟩ := o.refused.mp hm
    exact absurd ((verdict (List.mem_of_head? hh)).mpr hl) hp
  case some size =>
    have ⟨hp, hn⟩ := o.found size hm
    have hle : size ≤ limit := (verdict hp).mp rfl
    cases hn
    case inl ht => rw [Nat.le_antisymm hle (ht ▸ hu)]
    case inr hf =>
      have ⟨forward, hp, hf⟩ := hf
      have hlt : ¬size + 1 ≤ limit := fun h => hp ((verdict hf).mpr h)
      rw [show size = limit by omega]

-- Whatever an oracle answers, the search is over after a bounded number of probes, its low end stays
-- below its high end, and in the end it has a size which passed next to one which failed, or the top of
-- the ladder. Only without its first rung it has none. For a path with a limit the size is the limit.
theorem search_sound (ladder : Ladder) (oracle : Oracle) :
    (∀ s history, Reached ladder oracle s history → history.length ≤ ladder.bound ∧
      ∀ low high, s.low = some low → s.high = some high → low < high) ∧
    ∃ s history, search oracle (ladder.bound + 1) (start ladder) [] = some (s, history) ∧
      history.length ≤ ladder.bound ∧
      (s.forwardMax = none ↔
        ∃ forward ≠ SizeVerdict.pass, history.head? = some (ladder.first, forward)) ∧
      (∀ size, s.forwardMax = some size → (size, .pass) ∈ history ∧
        (size = ladder.top ∨ ∃ forward ≠ SizeVerdict.pass, (size + 1, forward) ∈ history)) ∧
      ∀ limit, ladder.first ≤ limit → limit ≤ ladder.top →
        (∀ past size, (oracle past size).val = .pass ↔ size ≤ limit) →
        s.forwardMax = some limit := by
  refine ⟨fun s history r => ⟨r.length_le, fun _ _ hl hh => r.phase.low_lt hl hh⟩, ?_⟩
  have init : Reached ladder oracle (start ladder) [] := .start
  have ⟨s₁, s₂, history, hs, r, hn⟩ := search_ends init
    (show ladder.bound < ([] : History).length + (ladder.bound + 1) by simp)
  have ho := r.phase.outcome (by rw [hn])
  have hm : s₂.forwardMax = s₁.forwardMax := by
    have := low_nextSize (s := s₁)
    rwa [hn] at this
  refine ⟨s₂, history, hs, r.length_le, ?_, ?_, ?_⟩
  · exact hm ▸ ho.refused
  · exact hm ▸ ho.found
  · exact fun limit hl hu path => hm ▸ ho.limit r path hl hu

-- The two ladders of the program.
theorem start_ofFamily {isIpv6 : Bool} : start (Ladder.ofFamily isIpv6) = new isIpv6 := by
  rw [start, Ladder.rungs_ofFamily]
  rfl

end SizeSearch
