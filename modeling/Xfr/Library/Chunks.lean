import Mathlib.Tactic.Common

-- A stream which arrives in chunks.
abbrev Chunks (α : Type*) := List (List α)

namespace Chunks

variable {α : Type*}

-- The chunks of the first `n` elements of the stream, and those of the rest.
def take (n : Nat) : Chunks α → Chunks α
  | []      => []
  | c :: cs =>
    if n = 0 then [] else if c.length ≤ n then c :: take (n - c.length) cs else [c.take n]

def drop (n : Nat) : Chunks α → Chunks α
  | []      => []
  | c :: cs => if c.length ≤ n then drop (n - c.length) cs else c.drop n :: cs

variable {n : Nat} {cs : Chunks α}

@[simp]
theorem take_zero : cs.take 0 = [] := by
  cases cs <;> rfl

-- Within its first chunk a stream is cut like a list.
theorem take_of_le_length {c : List α} (hz : n ≠ 0) (hn : n ≤ c.length) :
    take n (c :: cs) = [c.take n] := by
  rw [take, if_neg hz]
  split_ifs with hl
  · have : c.length = n := Nat.le_antisymm hl hn
    simp [← this]
  · rfl

@[simp]
theorem flatten_take : (cs.take n).flatten = cs.flatten.take n := by
  induction cs generalizing n
  case nil => simp [take]
  case cons c cs hi =>
    rw [take]
    split_ifs with hz hl
    · simp [hz]
    · simp [hi, List.take_append, List.take_of_length_le hl]
    · simp [List.take_append_of_le_length (Nat.le_of_not_le hl)]

@[simp]
theorem flatten_drop : (cs.drop n).flatten = cs.flatten.drop n := by
  induction cs generalizing n
  case nil => simp [drop]
  case cons c cs hi =>
    rw [drop]
    split_ifs with hl
    · simp [hi, List.drop_append, List.drop_eq_nil_of_le hl]
    · simp [List.drop_append_of_le_length (Nat.le_of_not_le hl)]

theorem ne_nil_of_mem_take (h : ∀ c ∈ cs, c ≠ []) : ∀ c ∈ cs.take n, c ≠ [] := by
  induction cs generalizing n
  case nil => exact h
  case cons c cs hi =>
    have ⟨hc, hcs⟩ := List.forall_mem_cons.mp h
    rw [take]
    split_ifs with hz hl
    · simp
    · exact List.forall_mem_cons.mpr ⟨hc, hi hcs⟩
    · simp [hz, hc]

theorem ne_nil_of_mem_drop (h : ∀ c ∈ cs, c ≠ []) : ∀ c ∈ cs.drop n, c ≠ [] := by
  induction cs generalizing n
  case nil => exact h
  case cons c cs hi =>
    have ⟨hc, hcs⟩ := List.forall_mem_cons.mp h
    rw [drop]
    split_ifs with hl
    · exact hi hcs
    · exact List.forall_mem_cons.mpr ⟨by simpa using hl, hcs⟩

-- Cutting a stream in two adds no more than one beginning of a chunk: that of the second part.
theorem forall_iff_take_drop {p : List α → Prop} (hp : ∀ c k, 0 < k → (p (c.take k) ↔ p c))
    (hn : ∀ c ∈ cs, c ≠ []) (hd : ∀ c ∈ (cs.drop n).head?, p c) :
    (∀ c ∈ cs, p c) ↔ (∀ c ∈ cs.take n, p c) ∧ (∀ c ∈ cs.drop n, p c) := by
  induction cs generalizing n
  case nil => simp [take, drop]
  case cons c cs hi =>
    have ⟨hc, hcs⟩ := List.forall_mem_cons.mp hn
    rw [take, drop] at *
    split_ifs at hd ⊢ with hz hl hl
    · simp [hz, hc] at hl
    · simp [hz]
    · rw [List.forall_mem_cons, List.forall_mem_cons, hi hcs hd, and_assoc]
    · have hdc : p (c.drop n) := by simpa using hd
      simp [hp c n (Nat.pos_of_ne_zero hz), hdc]

end Chunks
