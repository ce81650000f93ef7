import Xfr.Access.Acl

open Utf8 (Text)

namespace Acl

variable {ν ε : Type*} {net : IpNetwork ν ε} {acl acl' : Acl ν} {ip ip' : IpAddr}

theorem isAllowed_iff : acl.isAllowed net ip = true ↔
    (∀ n ∈ acl.deny, net.contains n ip.normalize = false) ∧
      (acl.allow = [] ∨ ∃ n ∈ acl.allow, net.contains n ip.normalize = true) := by
  unfold isAllowed
  dsimp only
  split
  case isTrue hd =>
    have ⟨n, hn, hc⟩ := List.any_eq_true.mp hd
    constructor
    · exact (nomatch ·)
    · exact fun ⟨h, _⟩ => absurd hc (by simp [h n hn])
  case isFalse hd =>
    have hd' : ∀ n ∈ acl.deny, net.contains n ip.normalize = false := by simpa using hd
    split
    case isTrue ha  => exact iff_of_true rfl ⟨hd', .inl (List.isEmpty_iff.mp ha)⟩
    case isFalse ha =>
      have ha' : acl.allow ≠ [] := (ha <| List.isEmpty_iff.mpr ·)
      simp only [List.any_eq_true, ha', false_or]
      exact ⟨fun h => ⟨hd', h⟩, And.right⟩

theorem isAllowed_eq_false_iff : acl.isAllowed net ip = false ↔
    (∃ n ∈ acl.deny, net.contains n ip.normalize = true) ∨
      (acl.allow ≠ [] ∧ ∀ n ∈ acl.allow, net.contains n ip.normalize = false) := by
  rw [← Bool.not_eq_true, isAllowed_iff, not_and_or]
  simp

theorem isAllowed_normalize (h : ip'.normalize = ip.normalize) :
    acl.isAllowed net ip' = acl.isAllowed net ip := by
  unfold isAllowed
  rw [h]

-- The same rules in another order.
structure Equiv (acl acl' : Acl ν) : Prop where
  allow : acl.allow.Perm acl'.allow
  deny  : acl.deny.Perm acl'.deny

namespace Equiv

theorem refl (acl : Acl ν) : acl.Equiv acl :=
  ⟨.refl _, .refl _⟩

theorem trans {acl₁ acl₂ acl₃ : Acl ν} (h : acl₁.Equiv acl₂) (h' : acl₂.Equiv acl₃) :
    acl₁.Equiv acl₃ :=
  ⟨h.allow.trans h'.allow, h.deny.trans h'.deny⟩

theorem isAllowed (h : acl.Equiv acl') : acl'.isAllowed net ip = acl.isAllowed net ip := by
  have he : acl'.allow = [] ↔ acl.allow = [] :=
    ⟨fun ha => (ha ▸ h.allow).eq_nil, fun ha => (ha ▸ h.allow.symm).eq_nil⟩
  rw [Bool.eq_iff_iff, isAllowed_iff, isAllowed_iff, he]
  simp only [h.allow.mem_iff, h.deny.mem_iff]

end Equiv

-- What the log says about a peer: a rule which decided about it, or that there is none.
def Explains (net : IpNetwork ν ε) (acl : Acl ν) (ip : IpAddr) : Option Text → Prop
  | none =>
    (∀ n ∈ acl.deny ++ acl.allow, net.contains n ip.normalize = false) ∧
      (acl.isAllowed net ip = true ↔ acl.allow = [])
  | some rule =>
    (∃ n ∈ acl.deny, net.contains n ip.normalize = true ∧
      rule = "deny ".toList ++ net.display n ∧ acl.isAllowed net ip = false) ∨
    (∃ n ∈ acl.allow, net.contains n ip.normalize = true ∧
      rule = "allow ".toList ++ net.display n ∧ acl.isAllowed net ip = true)

theorem explains_matchedRule : acl.Explains net ip (acl.matchedRule net ip) := by
  unfold matchedRule
  dsimp only
  split
  case h_1 n hd =>
    have hm := List.mem_of_find?_eq_some hd
    have hc := List.find?_some hd
    exact .inl ⟨n, hm, hc, rfl, isAllowed_eq_false_iff.mpr <| .inl ⟨n, hm, hc⟩⟩
  case h_2 hd =>
    have hd' : ∀ n ∈ acl.deny, net.contains n ip.normalize = false := by simpa using hd
    split
    case h_1 n ha =>
      have hm := List.mem_of_find?_eq_some ha
      have hc := List.find?_some ha
      exact .inr ⟨n, hm, hc, rfl, isAllowed_iff.mpr ⟨hd', .inr ⟨n, hm, hc⟩⟩⟩
    case h_2 ha =>
      have ha' : ∀ n ∈ acl.allow, net.contains n ip.normalize = false := by simpa using ha
      constructor
      · exact fun n hn => (List.mem_append.mp hn).elim (hd' n) (ha' n)
      · rw [isAllowed_iff]
        exact ⟨fun ⟨_, h⟩ => h.resolve_right fun ⟨n, hn, hc⟩ => by simp [ha' n hn] at hc,
          fun h => ⟨hd', .inl h⟩⟩

-- The decision about a peer, which may be written in two ways.
structure Decides (net : IpNetwork ν ε) (acl : Acl ν) (ip : IpAddr) : Prop where
  order     : ∀ acl', acl.Equiv acl' → acl'.isAllowed net ip = acl.isAllowed net ip
  mapped    : ∀ ip' ∈ ip.forms, acl.isAllowed net ip' = acl.isAllowed net ip
  deny      : ∀ n ∈ acl.deny, ∀ ip' ∈ ip.forms, net.contains n ip' = true →
    acl.isAllowed net ip = false
  unmatched : (∀ n ∈ acl.deny ++ acl.allow, ∀ ip' ∈ ip.forms, net.contains n ip' = false) →
    (acl.isAllowed net ip = true ↔ acl.allow = [])
  rule      : acl.Explains net ip (acl.matchedRule net ip)

-- Only the form without the mapping is compared with the rules. So a denied network which has the
-- mapped form of a peer rejects it only if there is another reason to do so.
def Covers (net : IpNetwork ν ε) (acl : Acl ν) (ip : IpAddr) : Prop :=
  ∀ octets, ip.normalize = .v4 octets →
    ∀ n ∈ acl.deny, net.contains n (.mapped octets) = true →
      (∃ m ∈ acl.deny, net.contains m (.v4 octets) = true) ∨
      (acl.allow ≠ [] ∧ ∀ m ∈ acl.allow, net.contains m (.v4 octets) = false)

theorem isAllowed_of_unmatched
    (h : ∀ n ∈ acl.deny ++ acl.allow, ∀ ip' ∈ ip.forms, net.contains n ip' = false) :
    acl.isAllowed net ip = true ↔ acl.allow = [] := by
  have h' : ∀ n ∈ acl.deny ++ acl.allow, net.contains n ip.normalize = false :=
    fun n hn => h n hn _ IpAddr.normalize_mem_forms
  have hd : ∀ n ∈ acl.deny, net.contains n ip.normalize = false :=
    fun n hn => h' n <| List.mem_append_left _ hn
  have ha : ¬∃ n ∈ acl.allow, net.contains n ip.normalize = true :=
    fun ⟨n, hn, hc⟩ => by simp [h' n <| List.mem_append_right _ hn] at hc
  rw [isAllowed_iff]
  exact ⟨fun ⟨_, h⟩ => h.resolve_right ha, fun h => ⟨hd, .inl h⟩⟩

theorem Covers.isAllowed {n : ν} (h : acl.Covers net ip) (hn : n ∈ acl.deny) (hf : ip' ∈ ip.forms)
    (hc : net.contains n ip' = true) : acl.isAllowed net ip = false := by
  rw [isAllowed_eq_false_iff]
  unfold IpAddr.forms at hf
  split at hf
  case h_1 octets ho =>
    rcases List.mem_pair.mp hf with rfl | rfl
    · exact .inl ⟨n, hn, ho ▸ hc⟩
    · exact ho ▸ h octets ho n hn hc
  case h_2 segments ho =>
    obtain rfl := List.mem_singleton.mp hf
    exact .inl ⟨n, hn, ho ▸ hc⟩

theorem decides_iff (net : IpNetwork ν ε) (acl : Acl ν) (ip : IpAddr) :
    acl.Decides net ip ↔ acl.Covers net ip where
  mp h octets ho n hn hc := by
    have hf : .mapped octets ∈ ip.forms := by
      rw [IpAddr.forms, ho]
      exact List.mem_pair.mpr <| .inr rfl
    exact ho ▸ isAllowed_eq_false_iff.mp (h.deny n hn _ hf hc)
  mpr h := {
    order     := fun _ he => he.isAllowed
    mapped    := fun _ hf => isAllowed_normalize <| IpAddr.normalize_of_mem_forms hf
    deny      := fun _ hn _ hf hc => h.isAllowed hn hf hc
    unmatched := isAllowed_of_unmatched
    rule      := explains_matchedRule
  }

end Acl

-- Networks of both families, given by an address and the length of their prefix.
inductive Cidr
  | v4 (address : BitVec 32) (length : Fin 33)
  | v6 (address : BitVec 128) (length : Fin 129)
  deriving DecidableEq

namespace Cidr

-- A network of one family contains no address of the other one.
def contains : Cidr → IpAddr → Bool
  | v4 address length, .v4 octets   => octets >>> (32 - length.val) = address >>> (32 - length.val)
  | v6 address length, .v6 segments =>
    segments >>> (128 - length.val) = address >>> (128 - length.val)
  | _, _ => false

variable {ε : Type*} {net : IpNetwork Cidr ε} {acl : Acl Cidr} {ip : IpAddr}

-- Rules which deny only networks of IPv4 also deny what is mapped to IPv6.
theorem covers_of_v4 (hc : net.contains = contains)
    (h : ∀ n ∈ acl.deny, ∃ address length, n = v4 address length) : acl.Covers net ip := by
  intro octets _ n hn hm
  obtain ⟨address, length, rfl⟩ := h n hn
  rw [hc] at hm
  cases hm

-- `::ffff:10.0.0.0/104`
def mappedTen : Cidr :=
  v6 (0xFFFF0A000000#128) 104

def mappedTenText : Text :=
  "::ffff:10.0.0.0/104".toList

def mappedTenNetwork : IpNetwork Cidr Unit where
  parse text := if text = mappedTenText then .ok mappedTen else .error ()
  display _  := mappedTenText
  contains   := contains

-- The peer `::ffff:10.0.0.1` is in the only network which is denied, and it is allowed.
theorem mapped_rule_ignored : ∃ acl, Acl.fromRules mappedTenNetwork [] [mappedTenText] = .ok acl ∧
    ¬acl.Decides mappedTenNetwork (.v6 0xFFFF0A000001#128) := by
  refine ⟨⟨[], [mappedTen]⟩, by rfl, fun h => ?_⟩
  have hf : .v6 0xFFFF0A000001#128 ∈ IpAddr.forms (.v6 0xFFFF0A000001#128) := IpAddr.mem_forms
  have hd := h.deny mappedTen (List.mem_singleton.mpr rfl) _ hf (by decide)
  exact absurd hd (by decide)

end Cidr
