import Mathlib.Data.List.Dedup

-- The keys which were used most recently, each of them once and the oldest first.
namespace Recent

variable {κ : Type*} {n : Nat} {k : κ} {history d a q : List κ}

-- The beginning of a list does not matter where enough of it is left.
theorem drop_append_excess (h : n ≤ q.length) :
    (a ++ q).drop ((a ++ q).length - n) = q.drop (q.length - n) := by
  rw [List.drop_append, List.length_append, List.drop_of_length_le (by omega), List.nil_append]
  congr 1
  omega

variable [DecidableEq κ]

def recent (n : Nat) (history : List κ) : List κ :=
  history.dedup.drop (history.dedup.length - n)

-- A bounded queue in which a key moves to the end when it is used again.
def touch (n : Nat) (k : κ) (q : List κ) : List κ :=
  let q := q.erase k ++ [k]
  q.drop (q.length - n)

theorem dedup_concat : (history ++ [k]).dedup = history.dedup.erase k ++ [k] := by
  induction history
  case nil => simp
  case cons x history hi =>
    by_cases hk : x = k
    case pos =>
      subst hk
      have hm : x ∈ history ++ [x] := by simp
      rw [List.cons_append, List.dedup_cons_of_mem hm, hi]
      by_cases hx : x ∈ history
      case pos => rw [List.dedup_cons_of_mem hx]
      case neg =>
        have hd : x ∉ history.dedup := fun h => hx (List.mem_dedup.mp h)
        rw [List.dedup_cons_of_notMem hx, List.erase_cons_head, List.erase_of_not_mem hd]
    case neg =>
      have hm : x ∈ history ++ [k] ↔ x ∈ history := by simp [hk]
      by_cases hx : x ∈ history
      case pos => rw [List.cons_append, List.dedup_cons_of_mem (hm.mpr hx), hi,
        List.dedup_cons_of_mem hx]
      case neg =>
        have he : ((x :: history.dedup).erase k) = x :: history.dedup.erase k :=
          List.erase_cons_tail (by simpa using hk)
        rw [List.cons_append, List.dedup_cons_of_notMem fun h => hx (hm.mp h), hi,
          List.dedup_cons_of_notMem hx, he, List.cons_append]

theorem recent_concat (hn : 0 < n) : recent n (history ++ [k]) = touch n k (recent n history) := by
  rw [recent, dedup_concat, recent]
  have nodup := List.nodup_dedup history
  generalize history.dedup = d at nodup
  by_cases hd : d.length ≤ n
  case pos => rw [Nat.sub_eq_zero_of_le hd, List.drop_zero, touch]
  case neg =>
    have hs := List.take_append_drop (d.length - n) d
    have hl : (d.drop (d.length - n)).length = n := by
      rw [List.length_drop]
      omega
    generalize d.take (d.length - n) = a, d.drop (d.length - n) = q at hs hl
    have ⟨a', ha⟩ : ∃ a', d.erase k = a' ++ q.erase k := by
      rw [← hs, List.erase_append]
      split
      case isFalse => exact ⟨a, rfl⟩
      case isTrue hk =>
        have hq : k ∉ q := fun hq => (List.nodup_append.mp (hs ▸ nodup)).right.right k hk k hq rfl
        exact ⟨a.erase k, by rw [List.erase_of_not_mem hq]⟩
    have he := List.le_length_erase (l := q) (a := k)
    rw [touch, ha, List.append_assoc]
    exact drop_append_excess (by simp only [List.length_append, List.length_singleton]; omega)

theorem touch_eq : touch n k q =
    (q.eraseP (· = k) ++ [k]).drop ((q.eraseP (· = k) ++ [k]).length - n) := by
  have he : q.erase k = q.eraseP (· = k) := by
    rw [List.erase_eq_eraseP]
    congr 1
    exact funext fun x => decide_eq_decide.mpr eq_comm
  rw [touch, he]

theorem recent_nil : recent n ([] : List κ) = [] := by
  simp [recent]

end Recent
