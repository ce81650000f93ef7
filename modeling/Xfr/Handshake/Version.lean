import Xfr.Handshake.Auth
import Xfr.Library.Decimal

open Utf8 (Text)

namespace Version

variable {version a b part : Text} {major n : Nat}

-- A component of a version is an unsigned number of 32 bits.
abbrev Component (part : Text) : Prop :=
  Decimal.Numeral (2 ^ 32) part

-- A version is a list of components, of which the first one is the major.
def HasMajor (version : Text) (major : Nat) : Prop :=
  ∃ first rest, version = ['.'].intercalate (first :: rest) ∧
    (∀ part ∈ first :: rest, Component part) ∧ Decimal.value first = major

def Compatible (a b : Text) : Prop :=
  ∃ major, HasMajor a major ∧ HasMajor b major

def dropSign (part : Text) : Text :=
  if part.head? = some '+' then part.tail else part

-- The version without the signs in front of its components.
def dropSigns (version : Text) : Text :=
  ['.'].intercalate ((version.splitOn '.').map dropSign)

def Signed (version : Text) : Prop :=
  ∃ part ∈ version.splitOn '.', part.head? = some '+'

theorem hasMajor_iff : HasMajor version major ↔
    (∀ part ∈ version.splitOn '.', Component part) ∧
      (version.splitOn '.').head?.map Decimal.value = some major := by
  constructor
  case mp =>
    intro ⟨first, rest, hv, hc, hm⟩
    have hs : version.splitOn '.' = first :: rest := by
      rw [hv]
      exact List.splitOn_intercalate _ (fun part hp => (hc part hp).not_mem (by decide)) nofun
    rw [hs]
    exact ⟨hc, congrArg some hm⟩
  case mpr =>
    intro ⟨hc, hm⟩
    have ⟨first, hh, hm⟩ := Option.map_eq_some_iff.mp hm
    have ⟨rest, hs⟩ := List.head?_eq_some_iff.mp hh
    refine ⟨first, rest, ?_, hs ▸ hc, hm⟩
    rw [← hs, List.intercalate_splitOn]

theorem not_mem_of_mem_splitOn {c : Char} (h : part ∈ version.splitOn c) : c ∉ part := by
  induction version generalizing part
  case nil =>
    have hp : part = [] := by simpa using h
    simp [hp]
  case cons x version hi =>
    rw [List.splitOn_cons_eq_if_modifyHead] at h
    split at h
    case isTrue =>
      cases List.mem_cons.mp h
      case inl hp => simp [hp]
      case inr hp => exact hi hp
    case isFalse hx =>
      have ⟨head, tail, ht⟩ := List.exists_cons_of_ne_nil (List.splitOn_ne_nil c version)
      rw [ht, List.modifyHead_cons] at h
      cases List.mem_cons.mp h
      case inl hp =>
        have hc : c ≠ x := fun he => hx (by simp [he])
        rw [hp, List.mem_cons]
        exact not_or.mpr ⟨hc, hi (by simp [ht])⟩
      case inr hp => exact hi (by simp [ht, hp])

theorem mem_of_mem_dropSign {c : Char} (h : c ∈ dropSign part) : c ∈ part := by
  unfold dropSign at h
  split at h
  case isTrue  => exact List.mem_of_mem_tail h
  case isFalse => exact h

-- The signs are all that is dropped.
theorem splitOn_dropSigns :
    (dropSigns version).splitOn '.' = (version.splitOn '.').map dropSign := by
  refine List.splitOn_intercalate _ (fun part hp hm => ?_) (by simp)
  have ⟨part', hp', he⟩ := List.mem_map.mp hp
  exact not_mem_of_mem_splitOn hp' (mem_of_mem_dropSign (he ▸ hm))

theorem dropSigns_of_not_signed (h : ¬Signed version) : dropSigns version = version := by
  have hm : (version.splitOn '.').map dropSign = (version.splitOn '.').map id :=
    List.map_congr_left fun part hp => if_neg fun hs => h ⟨part, hp, hs⟩
  rw [dropSigns, hm, List.map_id, List.intercalate_splitOn]

theorem HasMajor.not_signed (h : HasMajor version major) : ¬Signed version := by
  intro ⟨part, hp, hs⟩
  have hc := (hasMajor_iff.mp h).left part hp
  exact hc.not_mem (by decide) (List.mem_of_mem_head? hs)

theorem parseU32_eq_some_iff :
    parseU32 part = some n ↔ Component (dropSign part) ∧ Decimal.value (dropSign part) = n := by
  have hf : (dropSign part).foldl (fun n c => n * 10 + (c.toNat - '0'.toNat)) 0 =
      Decimal.value (dropSign part) := by
    refine Decimal.foldl_eq.trans ?_
    rw [Nat.zero_mul, Nat.zero_add]
  have hp : parseU32 part = if dropSign part = [] ∨ !(dropSign part).all Char.isDigit then none else
      if Decimal.value (dropSign part) < 2 ^ 32 then some (Decimal.value (dropSign part)) else none := by
    rw [← hf]
    rfl
  rw [hp]
  constructor
  case mp =>
    intro h
    have ⟨hd, h⟩ := Option.ite_none_left_eq_some.mp h
    have ⟨hl, h⟩ := Option.ite_none_right_eq_some.mp h
    have ⟨hn, hd⟩ := not_or.mp hd
    exact ⟨⟨hn, by simpa using hd, hl⟩, Option.some_inj.mp h⟩
  case mpr =>
    intro ⟨hc, hv⟩
    have hd : ¬(dropSign part = [] ∨ !(dropSign part).all Char.isDigit) := by
      simpa using ⟨hc.ne_nil, hc.digits⟩
    rw [if_neg hd, if_pos hc.lt, hv]

theorem isSome_parseU32_iff : (part ≠ [] ∧ (parseU32 part).isSome) ↔ Component (dropSign part) := by
  constructor
  case mp =>
    intro ⟨_, h⟩
    have ⟨_, h⟩ := Option.isSome_iff_exists.mp h
    exact (parseU32_eq_some_iff.mp h).left
  case mpr =>
    intro h
    refine ⟨fun hp => h.ne_nil (by rw [hp]; rfl), ?_⟩
    exact Option.isSome_iff_exists.mpr ⟨_, parseU32_eq_some_iff.mpr ⟨h, rfl⟩⟩

theorem parseProtocolMajor_eq_some_iff :
    parseProtocolMajor version = some major ↔ HasMajor (dropSigns version) major := by
  rw [hasMajor_iff, splitOn_dropSigns, parseProtocolMajor]
  split
  case h_1 h => exact absurd h (List.splitOn_ne_nil _ _)
  case h_2 first parts h =>
    have hf (hc : Component (dropSign first)) : first ≠ [] := (isSome_parseU32_iff.mpr hc).left
    simp only [h, List.map_cons, List.forall_mem_cons, List.head?_cons, Option.map_some,
      Option.some_inj, List.forall_mem_map]
    simp only [Option.bind_eq_bind, Option.bind_eq_some_iff, Option.guard_eq_some', parseU32_eq_some_iff,
      List.all_eq_true, decide_eq_true_eq, isSome_parseU32_iff, Option.pure_def, Option.some_inj]
    constructor
    case mp =>
      rintro ⟨_, _, n, ⟨hc, hv⟩, _, hp, rfl⟩
      exact ⟨⟨hc, hp⟩, hv⟩
    case mpr =>
      intro ⟨⟨hc, hp⟩, hv⟩
      exact ⟨(), hf hc, major, ⟨hc, hv⟩, (), hp, rfl⟩

theorem versionsCompatible_iff :
    versionsCompatible a b = true ↔ Compatible (dropSigns a) (dropSigns b) := by
  simp only [Compatible, ← parseProtocolMajor_eq_some_iff]
  unfold versionsCompatible
  split
  case h_1 ha hb => simp [ha, hb, eq_comm]
  case h_2 hn =>
    simp only [Bool.false_eq_true, false_iff]
    intro ⟨major, ha, hb⟩
    exact hn _ _ ha hb

theorem compatible_comm : Compatible a b ↔ Compatible b a :=
  exists_congr fun _ => and_comm

-- Which versions are compatible does not depend on their order. As for the grammar, a component may
-- also have a sign.
theorem versions_compatible (a b : Text) :
    versionsCompatible a b = versionsCompatible b a ∧
    ((versionsCompatible a b = true ↔ Compatible a b) ↔
      (¬Signed a ∧ ¬Signed b) ∨ ¬Compatible (dropSigns a) (dropSigns b)) := by
  constructor
  case left =>
    rw [Bool.eq_iff_iff, versionsCompatible_iff, versionsCompatible_iff]
    exact compatible_comm
  case right =>
    rw [versionsCompatible_iff]
    constructor
    case mp =>
      intro h
      refine or_iff_not_imp_right.mpr fun hc => ?_
      have ⟨_, ha, hb⟩ := h.mp (not_not.mp hc)
      exact ⟨ha.not_signed, hb.not_signed⟩
    case mpr =>
      intro h
      cases h
      case inl h => rw [dropSigns_of_not_signed h.left, dropSigns_of_not_signed h.right]
      case inr h =>
        refine iff_of_false h fun hc => h ?_
        have ⟨_, ha, hb⟩ := hc
        rwa [dropSigns_of_not_signed ha.not_signed, dropSigns_of_not_signed hb.not_signed]

theorem sign_accepted : versionsCompatible "+1.1".toList PROTOCOL_VERSION = true ∧
    ¬Compatible "+1.1".toList PROTOCOL_VERSION := by
  refine ⟨by decide, fun ⟨_, ha, _⟩ => ?_⟩
  exact ha.not_signed ⟨"+1".toList, by decide, by decide⟩

end Version
