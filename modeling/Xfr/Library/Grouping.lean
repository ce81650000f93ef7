import Mathlib.Data.List.Basic

-- Items which are gathered into groups by a key. The first item with a key starts a group and every
-- further one is added to it.
structure Grouping (α β κ : Type*) where
  key     : α → κ
  keyOf   : β → κ
  start   : α → β
  add     : β → α → β
  started : ∀ a, keyOf (start a) = key a
  added   : ∀ b a, keyOf b = key a → keyOf (add b a) = key a

namespace Grouping

variable {α β κ : Type*} [DecidableEq κ] (g : Grouping α β κ) {groups : List β} {items : List α}
  {a : α} {b b' : β}

def record (groups : List β) (a : α) : List β :=
  match groups with
  | []          => [g.start a]
  | b :: groups => if g.keyOf b = g.key a then g.add b a :: groups else b :: record groups a

-- The items with the key of a group.
def itemsOf (items : List α) (k : κ) : List α :=
  items.filter (g.key · = k)

-- A group is what was made of the items with its key, in the order they came in.
structure Made (items : List α) (b : β) : Prop where
  made : ∃ first rest, g.itemsOf items (g.keyOf b) = first :: rest ∧ b = rest.foldl g.add (g.start first)

structure Grouped (items : List α) (groups : List β) : Prop where
  distinct : groups.Pairwise (g.keyOf · ≠ g.keyOf ·)
  made     : ∀ b ∈ groups, g.Made items b
  present  : ∀ a ∈ items, ∃ b ∈ groups, g.keyOf b = g.key a

variable {g}

theorem Made.keep (h : g.Made items b) (hn : g.keyOf b ≠ g.key a) : g.Made (items ++ [a]) b := by
  obtain ⟨first, rest, hi, hb⟩ := h.made
  refine ⟨first, rest, ?_, hb⟩
  have ha : [a].filter (g.key · = g.keyOf b) = [] :=
    List.filter_eq_nil_iff.mpr (by simpa using hn.symm)
  rw [← hi, itemsOf, List.filter_append, ha, List.append_nil, itemsOf]

theorem Made.add (h : g.Made items b) (hk : g.keyOf b = g.key a) :
    g.Made (items ++ [a]) (g.add b a) := by
  obtain ⟨first, rest, hi, hb⟩ := h.made
  refine ⟨first, rest ++ [a], ?_, ?_⟩
  · have ha : [a].filter (g.key · = g.keyOf b) = [a] := List.filter_eq_self.mpr (by simp [hk])
    rw [g.added b a hk, ← hk, itemsOf, List.filter_append, ha, ← itemsOf, hi]
    rfl
  · rw [List.foldl_append, ← hb]
    rfl

theorem Made.start (h : ∀ a' ∈ items, g.key a' ≠ g.key a) :
    g.Made (items ++ [a]) (g.start a) := by
  refine ⟨a, [], ?_, rfl⟩
  have hf : items.filter (g.key · = g.key a) = [] :=
    List.filter_eq_nil_iff.mpr fun a' ha => by simpa using h a' ha
  have ha : [a].filter (g.key · = g.key a) = [a] := List.filter_eq_self.mpr (by simp)
  rw [itemsOf, g.started, List.filter_append, hf, ha]
  rfl

-- Recording an item changes the group with its key, or adds that group.
theorem mem_record (hd : groups.Pairwise (g.keyOf · ≠ g.keyOf ·)) (h : b' ∈ g.record groups a) :
    (b' ∈ groups ∧ g.keyOf b' ≠ g.key a) ∨
    (∃ b ∈ groups, g.keyOf b = g.key a ∧ b' = g.add b a) ∨
    (b' = g.start a ∧ ∀ b ∈ groups, g.keyOf b ≠ g.key a) := by
  induction groups
  case nil => exact .inr <| .inr ⟨List.mem_singleton.mp h, nofun⟩
  case cons b groups hi =>
    have ⟨hb, hd⟩ := List.pairwise_cons.mp hd
    rw [record] at h
    split at h
    case isTrue hk =>
      cases List.mem_cons.mp h
      case inl h => exact .inr <| .inl ⟨b, List.mem_cons_self, hk, h⟩
      case inr h =>
        exact .inl ⟨List.mem_cons_of_mem b h, fun he => hb b' h (hk.trans he.symm)⟩
    case isFalse hk =>
      cases List.mem_cons.mp h
      case inl h => exact .inl ⟨h ▸ List.mem_cons_self, h ▸ hk⟩
      case inr h =>
        rcases hi hd h with ⟨hm, hn⟩ | ⟨b₁, hm, hr⟩ | ⟨hs, hn⟩
        · exact .inl ⟨List.mem_cons_of_mem b hm, hn⟩
        · exact .inr <| .inl ⟨b₁, List.mem_cons_of_mem b hm, hr⟩
        · exact .inr <| .inr ⟨hs, List.forall_mem_cons.mpr ⟨hk, hn⟩⟩

-- The keys are the ones before and the one of the item.
theorem mem_keys_record {k : κ} :
    (∃ b ∈ g.record groups a, g.keyOf b = k) ↔ (∃ b ∈ groups, g.keyOf b = k) ∨ g.key a = k := by
  induction groups
  case nil => simp [record, g.started]
  case cons b groups hi =>
    rw [record]
    split
    case isTrue hk =>
      rw [List.exists_mem_cons_iff, List.exists_mem_cons_iff, g.added b a hk, hk, or_right_comm,
        or_self]
    case isFalse hk =>
      rw [List.exists_mem_cons_iff, List.exists_mem_cons_iff, hi, or_assoc]

theorem distinct_record (h : groups.Pairwise (g.keyOf · ≠ g.keyOf ·)) :
    (g.record groups a).Pairwise (g.keyOf · ≠ g.keyOf ·) := by
  induction groups
  case nil => exact List.pairwise_singleton _ _
  case cons b groups hi =>
    have ⟨hb, hg⟩ := List.pairwise_cons.mp h
    rw [record]
    split
    case isTrue hk =>
      refine List.pairwise_cons.mpr ⟨fun b' hb' => ?_, hg⟩
      rw [g.added b a hk, ← hk]
      exact hb b' hb'
    case isFalse hk =>
      refine List.pairwise_cons.mpr ⟨fun b' hb' he => ?_, hi hg⟩
      cases mem_keys_record.mp ⟨b', hb', he.symm⟩
      case inl hm =>
        have ⟨b₁, hb₁, hk₁⟩ := hm
        exact hb b₁ hb₁ hk₁.symm
      case inr hm => exact hk hm.symm

theorem Grouped.nil : g.Grouped [] [] where
  distinct := .nil
  made     := nofun
  present  := nofun

theorem Grouped.record (h : g.Grouped items groups) :
    g.Grouped (items ++ [a]) (g.record groups a) where
  distinct := distinct_record h.distinct
  made b' hb := by
    rcases mem_record h.distinct hb with ⟨hm, hn⟩ | ⟨b, hm, hk, rfl⟩ | ⟨rfl, hn⟩
    · exact (h.made b' hm).keep hn
    · exact (h.made b hm).add hk
    · refine .start fun a' ha he => ?_
      have ⟨b, hb, hk⟩ := h.present a' ha
      exact hn b hb (hk.trans he)
  present a' ha := by
    refine mem_keys_record.mpr ?_
    cases List.mem_append.mp ha
    case inl ha => exact .inl (h.present a' ha)
    case inr ha => exact .inr (by rw [List.mem_singleton.mp ha])

theorem Grouped.foldl {items' : List α} (h : g.Grouped items groups) :
    g.Grouped (items ++ items') (items'.foldl g.record groups) := by
  induction items' generalizing items groups
  case nil => simpa using h
  case cons a items' hi =>
    have hr := hi (h.record (a := a))
    rwa [List.append_assoc, List.singleton_append] at hr

theorem grouped_foldl : g.Grouped items (items.foldl g.record []) := by
  have h : g.Grouped ([] ++ items) (items.foldl g.record []) := Grouped.nil.foldl
  rwa [List.nil_append] at h

end Grouping
