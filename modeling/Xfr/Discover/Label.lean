import Mathlib.Data.List.DropRight
import Xfr.Library.CharBoundary
import Xfr.Library.Decimal
import Xfr.Library.U64
import Xfr.Library.Whitespace

open Utf8 (Text encode size sliceTo floorCharBoundary trim)

-- A label of the domain name system has at most this many bytes.
abbrev DNS_LABEL_MAX : Nat := 63

abbrev DEFAULT_PORT : UInt16 := 5201

namespace Discover

def fnv1a16 (bytes : Bytes) : UInt16 :=
  let hash := bytes.foldl (fun hash b => (hash ^^^ b.toUInt32) * 16777619) (2166136261 : UInt32)
  hash.toUInt16

-- Four hexadecimal digits.
def hex4 (n : UInt16) : Text :=
  (Nat.toDigits 16 n.toNat).leftpad 4 '0'

-- What stands for the end of a name which is cut.
def hashSuffix (name : Text) : Text :=
  '-' :: hex4 (fnv1a16 (encode name))

-- The name, trimmed and clamped to a number of bytes. Cutting it would fail inside of a character.
def fitLabel (name : Text) (max : Nat) : Option Text :=
  let name := trim name
  if name = [] then
    some "xfr-server".toList
  else if size name ≤ max then
    some name
  else do
    let suffix := hashSuffix name
    let stop := floorCharBoundary name (← U64.checkedSub max (size suffix))
    let out ← sliceTo name stop
    return out ++ suffix

def dnsLabel (name : Text) : Option Text :=
  fitLabel name DNS_LABEL_MAX

def portSuffix (port : UInt16) : Text :=
  " (".toList ++ Nat.toDigits 10 port.toNat ++ ")".toList

-- Servers on one host differ in their ports only.
def instanceName (rawHostname : Text) (port : UInt16) : Option Text :=
  if port = DEFAULT_PORT then
    dnsLabel rawHostname
  else do
    let suffix := portSuffix port
    let host ← fitLabel rawHostname (← U64.checkedSub DNS_LABEL_MAX (size suffix))
    return host ++ suffix

variable {name label hostname : Text} {port port' : UInt16} {max b n : Nat} {c : Char}

-- What a label is which was made of a name for a number of bytes.
structure Fitted (name : Text) (max : Nat) (label : Text) : Prop where
  one_le : 1 ≤ size label
  le_max : size label ≤ max
  blank  : trim name = [] → label = "xfr-server".toList
  kept   : trim name ≠ [] → size (trim name) ≤ max → label = trim name
  cut    : max < size (trim name) →
    ∃ head tail, trim name = head ++ tail ∧ label = head ++ hashSuffix (trim name)

theorem mem_toDigits (hb : 1 < b) (h : c ∈ Nat.toDigits b n) : ∃ d < b, c = d.digitChar := by
  induction n using Nat.strongRecOn with
  | ind n hi =>
    rw [Nat.toDigits_eq_if hb] at h
    split at h
    case isTrue hn  => exact ⟨n, hn, List.mem_singleton.mp h⟩
    case isFalse hn =>
      cases List.mem_append.mp h
      case inl h => exact hi (n / b) (Nat.div_lt_self (by omega) hb) h
      case inr h => exact ⟨n % b, Nat.mod_lt n (by omega), List.mem_singleton.mp h⟩

theorem toNat_lt_of_mem_toDigits (hb : 1 < b) (hl : b ≤ 16) (h : c ∈ Nat.toDigits b n) :
    c.toNat < 128 := by
  have ascii : ∀ d : Fin 16, d.val.digitChar.toNat < 128 := by decide
  have ⟨d, hd, hc⟩ := mem_toDigits hb h
  exact hc ▸ ascii ⟨d, by omega⟩

theorem size_toDigits (hb : 1 < b) (hl : b ≤ 16) :
    size (Nat.toDigits b n) = (Nat.toDigits b n).length :=
  Utf8.size_eq_length fun _ => toNat_lt_of_mem_toDigits hb hl

theorem size_hex4 {n : UInt16} : size (hex4 n) = 4 := by
  have hl : (Nat.toDigits 16 n.toNat).length ≤ 4 :=
    (Nat.length_toDigits_le_iff (by decide) (by decide)).mpr n.toNat_lt
  have hz {k : Nat} : size (List.replicate k '0') = k := by
    rw [Utf8.size_eq_length fun c hc => List.eq_of_mem_replicate hc ▸ by decide,
      List.length_replicate]
  rw [hex4, List.leftpad, Utf8.size_append, hz, size_toDigits (by decide) (by decide)]
  omega

theorem size_hashSuffix : size (hashSuffix name) = 5 := by
  rw [hashSuffix, Utf8.size_cons, size_hex4]
  rfl

theorem size_portSuffix_le : size (portSuffix port) ≤ 8 := by
  have hl : (Nat.toDigits 10 port.toNat).length ≤ 5 := by
    refine (Nat.length_toDigits_le_iff (by decide) (by decide)).mpr ?_
    exact Nat.lt_of_lt_of_le port.toNat_lt (by decide)
  have ho : size " (".toList = 2 := by decide
  have hc : size ")".toList = 1 := by decide
  rw [portSuffix, Utf8.size_append, Utf8.size_append, size_toDigits (by decide) (by decide), ho, hc]
  omega

-- There is room for the fallback and for the end of a name which is cut.
theorem exists_fitLabel (h : 10 ≤ max) :
    ∃ label, fitLabel name max = some label ∧ Fitted name max label := by
  unfold fitLabel
  generalize hn : trim name = trimmed
  dsimp only
  split
  case isTrue hb =>
    have hs : size "xfr-server".toList = 10 := by decide
    refine ⟨_, rfl, ?_⟩
    exact {
      one_le := by omega
      le_max := hs ▸ h
      blank  := fun _ => rfl
      kept   := fun hk => absurd (hn.trans hb) hk
      cut    := fun hc => by simp [hn, hb, Utf8.size] at hc
    }
  case isFalse hb =>
    split
    case isTrue hk =>
      refine ⟨trimmed, rfl, ?_⟩
      exact {
        one_le := Nat.pos_of_ne_zero fun hz => hb (Utf8.size_eq_zero_iff.mp hz)
        le_max := hk
        blank  := fun he => absurd (hn.symm.trans he) hb
        kept   := fun _ _ => hn.symm
        cut    := fun hc => absurd hk (Nat.not_le_of_lt (hn ▸ hc))
      }
    case isFalse hk =>
      obtain ⟨head, tail, ht, hh, hs⟩ := @Utf8.exists_sliceTo trimmed (max - 5)
      rw [size_hashSuffix, U64.checkedSub_eq_some (by omega)]
      simp only [Option.bind_eq_bind, Option.bind_some, hs]
      refine ⟨_, rfl, ?_⟩
      have hl : size (head ++ hashSuffix trimmed) = size head + 5 := by
        rw [Utf8.size_append, size_hashSuffix]
      exact {
        one_le := by omega
        le_max := by omega
        blank  := fun he => absurd (hn.symm.trans he) hb
        kept   := fun _ he => absurd (hn ▸ he) hk
        cut    := fun _ => ⟨head, tail, hn.trans ht, by rw [hn]⟩
      }

-- A port is read off the end of a name.
theorem portSuffix_inj {host host' : Text} (h : host ++ portSuffix port = host' ++ portSuffix port') :
    port = port' := by
  have digits (p : UInt16) : ∀ c ∈ (Nat.toDigits 10 p.toNat).reverse, c.isDigit := fun c hc =>
    Nat.isDigit_of_mem_toDigits (by decide) (by decide) (List.mem_reverse.mp hc)
  have last {host : Text} {p : UInt16} : (host ++ portSuffix p).dropLast.rtakeWhile Char.isDigit =
      Nat.toDigits 10 p.toNat := by
    have hd : (host ++ portSuffix p).dropLast = host ++ [' ', '('] ++ Nat.toDigits 10 p.toNat := by
      rw [portSuffix, ← List.append_assoc, ← List.append_assoc]
      exact List.dropLast_concat
    rw [hd, List.rtakeWhile, List.reverse_append, List.takeWhile_append_of_pos (digits p),
      List.reverse_append]
    simp
  have he : Nat.toDigits 10 port.toNat = Nat.toDigits 10 port'.toNat := by rw [← last, h, last]
  refine UInt16.toNat_inj.mp ?_
  rw [← @Decimal.value_toDigits port.toNat, he, Decimal.value_toDigits]

theorem exists_instanceName (h : port ≠ DEFAULT_PORT) : ∃ host,
    instanceName hostname port = some (host ++ portSuffix port) ∧
    Fitted hostname (DNS_LABEL_MAX - size (portSuffix port)) host := by
  have hs : size (portSuffix port) ≤ 8 := size_portSuffix_le
  have hm : 10 ≤ DNS_LABEL_MAX - size (portSuffix port) := by
    unfold DNS_LABEL_MAX
    omega
  have ⟨host, hf, fitted⟩ := @exists_fitLabel hostname _ hm
  refine ⟨host, ?_, fitted⟩
  rw [instanceName, if_neg h]
  dsimp only
  rw [U64.checkedSub_eq_some (hs.trans (by decide)), Option.bind_eq_bind, Option.bind_some, hf]
  rfl

-- What is advertised for a host. A name is never too long, and different ports have different names.
structure Advertised (hostname : Text) (port : UInt16) (name : Text) : Prop where
  one_le   : 1 ≤ size name
  le_max   : size name ≤ DNS_LABEL_MAX
  label    : port = DEFAULT_PORT → Fitted hostname DNS_LABEL_MAX name
  suffixed : port ≠ DEFAULT_PORT → ∃ host, name = host ++ portSuffix port ∧
    Fitted hostname (DNS_LABEL_MAX - size (portSuffix port)) host
  distinct : ∀ port', port ≠ DEFAULT_PORT → port' ≠ DEFAULT_PORT → port' ≠ port →
    instanceName hostname port' ≠ some name

theorem names_advertised (hostname : Text) (port : UInt16) :
    (∃ label, dnsLabel hostname = some label ∧ Fitted hostname DNS_LABEL_MAX label) ∧
    ∃ name, instanceName hostname port = some name ∧ Advertised hostname port name := by
  have ⟨label, hl, fitted⟩ := @exists_fitLabel hostname DNS_LABEL_MAX (by decide)
  refine ⟨⟨label, hl, fitted⟩, ?_⟩
  by_cases hp : port = DEFAULT_PORT
  case pos =>
    refine ⟨label, by rw [instanceName, if_pos hp]; exact hl, ?_⟩
    exact {
      one_le   := fitted.one_le
      le_max   := fitted.le_max
      label    := fun _ => fitted
      suffixed := fun hn => absurd hp hn
      distinct := fun _ hn => absurd hp hn
    }
  case neg =>
    have ⟨host, hi, hf⟩ := @exists_instanceName hostname port hp
    have hs : size (portSuffix port) ≤ 8 := size_portSuffix_le
    have h₁ := hf.one_le
    have h₂ := hf.le_max
    refine ⟨host ++ portSuffix port, hi, ?_⟩
    exact {
      one_le   := by rw [Utf8.size_append]; omega
      le_max   := by rw [Utf8.size_append]; omega
      label    := fun hd => absurd hd hp
      suffixed := fun _ => ⟨host, rfl, hf⟩
      distinct := by
        intro port' _ hp' hne he
        have ⟨host', hi', _⟩ := @exists_instanceName hostname port' hp'
        exact hne <| portSuffix_inj <| Option.some_inj.mp (hi'.symm.trans he)
    }

-- The cut position of this name is inside of its second two-byte character.
example : dnsLabel (List.replicate 57 'a' ++ List.replicate 4 'é') =
    some (List.replicate 57 'a' ++ "-0f74".toList) := by
  decide +kernel

end Discover
