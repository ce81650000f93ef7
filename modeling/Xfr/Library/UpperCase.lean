import Mathlib.Data.List.DropRight

-- Upper case, which is taken character by character. Beyond ASCII, the table of Unicode is only known
-- as far as that it leaves no character out and which characters of ASCII it makes use of.
structure UpperCase where
  upper   : Char → List Char
  ascii   : ∀ c, c.toNat < 128 → upper c = [c.toUpper]
  ne_nil  : ∀ c, upper c ≠ []
  foreign : ∀ c, 128 ≤ c.toNat → ∀ d ∈ upper c, 128 ≤ d.toNat ∨ d ∈ "AFHIJLNSTWY".toList

namespace UpperCase

variable {u : UpperCase} {c d letter : Char} {text : List Char}

def toUppercase (u : UpperCase) (text : List Char) : List Char :=
  text.flatMap u.upper

-- A character of ASCII which is the upper case of characters of ASCII only.
def Native (c : Char) : Prop :=
  c.toNat < 128 ∧ c ∉ "AFHIJLNSTWY".toList

instance : Decidable (Native c) :=
  inferInstanceAs (Decidable (_ ∧ _))

theorem forall_ascii {p : Char → Prop} (h : ∀ n : Fin 128, p (Char.ofNat n)) (hc : c.toNat < 128) :
    p c := by
  have hp := h ⟨c.toNat, hc⟩
  rwa [Char.ofNat_toNat] at hp

theorem native_of_isDigit (h : c.isDigit) : Native c := by
  have hd : '0'.toNat ≤ c.toNat ∧ c.toNat ≤ '9'.toNat := by
    simpa [Char.isDigit, UInt32.le_iff_toNat_le, ← Char.toNat_val] using h
  have hl : c.toNat < 128 := Nat.lt_of_le_of_lt hd.right (by decide)
  have hn := forall_ascii (p := fun c => c.isDigit → c ∉ "AFHIJLNSTWY".toList) (by decide) hl
  exact ⟨hl, hn h⟩

theorem toUpper_of_foreign (h : 128 ≤ c.toNat) : c.toUpper = c := by
  unfold Char.toUpper
  refine dif_neg fun hl => ?_
  have hz : c.toNat ≤ 'z'.toNat := UInt32.le_iff_toNat_le.mp hl.right
  exact absurd (Nat.le_trans h hz) (by decide)

-- Digits and signs are not touched.
theorem eq_of_toUpper (hc : c.toNat < 128) (h : c.toUpper.isDigit ∨ c.toUpper = '+') :
    c = c.toUpper := by
  have hu := forall_ascii (p := fun c => c.toUpper.isDigit ∨ c.toUpper = '+' → c = c.toUpper)
    (by decide) hc
  exact hu h

theorem mem_upper (h : d ∈ u.upper c) (hd : Native d) : c.toNat < 128 ∧ d = c.toUpper := by
  by_cases hc : c.toNat < 128
  case pos => exact ⟨hc, by simpa [u.ascii c hc] using h⟩
  case neg =>
    cases u.foreign c (Nat.le_of_not_lt hc) d h
    case inl hf => exact absurd hd.left (Nat.not_lt_of_le hf)
    case inr hf => exact absurd hf hd.right

theorem upper_eq (h : Native c.toUpper) : u.upper c = [c.toUpper] := by
  refine u.ascii c (Nat.lt_of_not_le fun hf => ?_)
  rw [toUpper_of_foreign hf] at h
  exact absurd h.left (Nat.not_lt_of_le hf)

theorem upper_digit (h : c.isDigit) : u.upper c = [c] := by
  have hn := native_of_isDigit h
  have hu := forall_ascii (p := fun c => c.isDigit → c.toUpper = c) (by decide) hn.left
  rw [u.ascii c hn.left, hu h]

theorem toUppercase_digits (h : ∀ c ∈ text, c.isDigit) : u.toUppercase text = text := by
  have hu : text.flatMap u.upper = text.flatMap (fun c => [c]) :=
    List.flatMap_congr fun c hc => upper_digit (h c hc)
  exact hu.trans (List.flatMap_singleton' text)

theorem digits_of_toUppercase (h : ∀ d ∈ u.toUppercase text, d.isDigit) : ∀ c ∈ text, c.isDigit := by
  intro c hc
  have ⟨d, rest, hd⟩ := List.exists_cons_of_ne_nil (u.ne_nil c)
  have hm : d ∈ u.upper c := by simp [hd]
  have hi : d.isDigit := h d (List.mem_flatMap.mpr ⟨c, hc, hm⟩)
  have ⟨hl, he⟩ := mem_upper hm (native_of_isDigit hi)
  rw [he] at hi
  exact eq_of_toUpper hl (.inl hi) ▸ hi

@[simp]
theorem toUppercase_eq_nil : u.toUppercase text = [] ↔ text = [] := by
  simp only [toUppercase, List.flatMap_eq_nil_iff, u.ne_nil, imp_false]
  exact List.eq_nil_iff_forall_not_mem.symm

theorem toUppercase_cons : u.toUppercase (c :: text) = u.upper c ++ u.toUppercase text :=
  List.flatMap_cons

theorem toUppercase_concat : u.toUppercase (text ++ [c]) = u.toUppercase text ++ u.upper c := by
  simp [toUppercase]

-- A native character is in front or at the end of the upper case only where it was before.
theorem head?_toUppercase (h : Native letter) :
    (u.toUppercase text).head? = some letter ↔ ∃ c ∈ text.head?, c.toUpper = letter := by
  cases text
  case nil => simp [toUppercase]
  case cons c text =>
    have ⟨d, rest, hd⟩ := List.exists_cons_of_ne_nil (u.ne_nil c)
    simp only [toUppercase_cons, hd, List.cons_append, List.head?_cons, Option.mem_def,
      Option.some_inj, exists_eq_left']
    constructor
    case mp =>
      intro he
      have hm : d ∈ u.upper c := by simp [hd]
      rw [he] at hm
      exact (mem_upper hm h).right.symm
    case mpr =>
      intro he
      rw [upper_eq (he ▸ h)] at hd
      exact (List.cons_eq_cons.mp hd).left.symm.trans he

theorem getLast?_toUppercase (h : Native letter) :
    (u.toUppercase text).getLast? = some letter ↔ ∃ c ∈ text.getLast?, c.toUpper = letter := by
  induction text using List.reverseRecOn
  case nil => simp [toUppercase]
  case append_singleton text c _ =>
    have ⟨rest, d, hd⟩ := List.eq_nil_or_concat' (u.upper c) |>.resolve_left (u.ne_nil c)
    simp only [toUppercase_concat, hd, ← List.append_assoc, List.getLast?_concat, Option.mem_def,
      Option.some_inj, exists_eq_left']
    constructor
    case mp =>
      intro he
      have hm : d ∈ u.upper c := by simp [hd]
      rw [he] at hm
      exact (mem_upper hm h).right.symm
    case mpr =>
      intro he
      rw [upper_eq (he ▸ h), ← List.nil_append [c.toUpper]] at hd
      exact (List.append_inj_right' hd rfl |> List.singleton_inj.mp).symm.trans he

theorem rdropWhile_toUppercase (h : Native letter) :
    (u.toUppercase text).rdropWhile (· = letter) =
      u.toUppercase (text.rdropWhile (·.toUpper = letter)) := by
  induction text using List.reverseRecOn
  case nil => simp [toUppercase]
  case append_singleton text c hi =>
    by_cases hc : c.toUpper = letter
    case pos =>
      rw [toUppercase_concat, upper_eq (hc ▸ h),
        List.rdropWhile_concat_pos _ _ _ (by simpa using hc), hi,
        List.rdropWhile_concat_pos _ _ _ (by simpa using hc)]
    case neg =>
      rw [List.rdropWhile_concat_neg _ _ _ (by simpa using hc), List.rdropWhile_eq_self_iff]
      intro hn he
      have hg := List.getLast?_eq_some_getLast hn
      rw [of_decide_eq_true he] at hg
      have ⟨c', hc', hl⟩ := (getLast?_toUppercase h).mp hg
      rw [List.getLast?_concat, Option.mem_some] at hc'
      exact hc (hc' ▸ hl)

theorem dropLast_toUppercase (h : Native letter) (hl : (u.toUppercase text).getLast? = some letter) :
    (u.toUppercase text).dropLast = u.toUppercase text.dropLast := by
  have ⟨c, hc, he⟩ := (getLast?_toUppercase h).mp hl
  have ⟨rest, hr⟩ := List.getLast?_eq_some_iff.mp hc
  rw [hr, toUppercase_concat, upper_eq (he ▸ h), List.dropLast_concat, List.dropLast_concat]

-- A table which knows the letters of ASCII and leaves the others.
def asciiOnly : UpperCase where
  upper c       := [c.toUpper]
  ascii _ _     := rfl
  ne_nil _      := List.cons_ne_nil _ _
  foreign c h d := by
    rw [List.mem_singleton, toUpper_of_foreign h]
    exact fun he => .inl (he ▸ h)

end UpperCase
