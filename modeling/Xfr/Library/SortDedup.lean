import Mathlib.Data.List.Destutter
import Mathlib.Data.List.Sort

-- A list which is sorted by a key and of which consecutive repetitions are dropped. When no two
-- elements share a key, it lists a set, and depends on nothing but the set.
namespace SortDedup

variable {α κ : Type*} [LinearOrder κ] {key : α → κ} {l l' : List α} {a : α}

def SortedBy (key : α → κ) (l : List α) : Prop :=
  l.Pairwise (key · < key ·)

def sortBy (key : α → κ) (l : List α) : List α :=
  l.insertionSort (key · ≤ key ·)

def sortDedup [DecidableEq α] (key : α → κ) (l : List α) : List α :=
  (sortBy key l).destutter (· ≠ ·)

theorem mem_sortBy : a ∈ sortBy key l ↔ a ∈ l :=
  List.mem_insertionSort _

theorem pairwise_sortBy : (sortBy key l).Pairwise (key · ≤ key ·) :=
  have : Std.Total (α := α) (key · ≤ key ·) := ⟨fun a b => le_total (key a) (key b)⟩
  have : IsTrans α (key · ≤ key ·) := ⟨fun _ _ _ h h' => le_trans h h'⟩
  List.pairwise_insertionSort _ l

-- Elements of which no two share a key are sorted without ties.
theorem sortedBy_sortBy (h : l.Pairwise (key · ≠ key ·)) : SortedBy key (sortBy key l) := by
  have hp : (sortBy key l).Pairwise (key · ≠ key ·) :=
    (List.perm_insertionSort _ l).symm.pairwise h fun hn => hn.symm
  exact pairwise_sortBy.imp₂ (fun _ _ hl hn => lt_of_le_of_ne hl hn) hp

theorem dedup_sortBy [DecidableEq α] (h : Function.Injective key) :
    sortDedup key l = (sortBy key l).dedup :=
  have : Std.Antisymm (α := α) (key · ≤ key ·) := ⟨fun _ _ hl hg => h (le_antisymm hl hg)⟩
  pairwise_sortBy.destutter_eq_dedup

theorem mem_sortDedup [DecidableEq α] (h : Function.Injective key) :
    a ∈ sortDedup key l ↔ a ∈ l := by
  rw [dedup_sortBy h, List.mem_dedup, mem_sortBy]

theorem sortedBy_sortDedup [DecidableEq α] (h : Function.Injective key) :
    SortedBy key (sortDedup key l) := by
  rw [dedup_sortBy h]
  have hs : (sortBy key l).dedup.Pairwise (key · ≤ key ·) :=
    pairwise_sortBy.sublist (List.dedup_sublist _)
  exact hs.imp₂ (fun _ _ hl hn => lt_of_le_of_ne hl (h.ne hn)) (List.nodup_dedup _)

-- What is sorted without ties is known from its elements.
theorem SortedBy.ext (h : SortedBy key l) (h' : SortedBy key l') (hm : ∀ a, a ∈ l ↔ a ∈ l') :
    l = l' :=
  have : Std.Irrefl (α := α) (key · < key ·) := ⟨fun a => lt_irrefl (key a)⟩
  have : Std.Antisymm (α := α) (key · < key ·) := ⟨fun _ _ h h' => absurd h' h.asymm⟩
  List.Pairwise.eq_of_mem_iff h h' hm

-- Lists of which each has what the other has, up to what is read of the elements.
theorem SortedBy.map_ext {β : Type*} {f : α → β} {k : β → κ} (hk : ∀ a, k (f a) = key a)
    (h : SortedBy key l) (h' : SortedBy key l') (hm : ∀ b, b ∈ l.map f ↔ b ∈ l'.map f) :
    l.map f = l'.map f := by
  have sorted {l : List α} (h : SortedBy key l) : SortedBy k (l.map f) :=
    List.pairwise_map.mpr (h.imp fun hl => by simpa only [hk] using hl)
  exact (sorted h).ext (sorted h') hm

end SortDedup
