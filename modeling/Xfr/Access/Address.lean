import Mathlib.Data.BitVec

inductive IpAddr
  | v4 (octets : BitVec 32)
  | v6 (segments : BitVec 128)
  deriving DecidableEq

-- Addresses of IPv4 which are mapped to IPv6 are the same as without the mapping.
def IpAddr.normalize : IpAddr → IpAddr
  | v4 octets   => v4 octets
  | v6 segments =>
    if segments.extractLsb' 32 96 = 0xFFFF then v4 (segments.extractLsb' 0 32) else v6 segments

namespace IpAddr

def mapped (octets : BitVec 32) : IpAddr :=
  v6 (0xFFFF#96 ++ octets)

-- The ways to write the same peer. An address of IPv4 has two of them.
def forms (ip : IpAddr) : List IpAddr :=
  match ip.normalize with
  | v4 octets   => [v4 octets, mapped octets]
  | v6 segments => [v6 segments]

@[simp]
theorem normalize_v4 {octets : BitVec 32} : (v4 octets).normalize = v4 octets :=
  rfl

@[simp]
theorem normalize_mapped {octets : BitVec 32} : (mapped octets).normalize = v4 octets := by
  have hh : (0xFFFF#96 ++ octets).extractLsb' 32 96 = 0xFFFF#96 := BitVec.extractLsb'_append_eq_left
  have hl : (0xFFFF#96 ++ octets).extractLsb' 0 32 = octets := BitVec.extractLsb'_append_eq_right
  exact (if_pos hh).trans (congrArg v4 hl)

theorem normalize_eq_v4 {ip : IpAddr} {octets : BitVec 32} (h : ip.normalize = v4 octets) :
    ip = v4 octets ∨ ip = mapped octets := by
  cases ip
  case v4 octets' => exact .inl h
  case v6 segments =>
    simp only [normalize] at h
    split at h
    case isTrue hh =>
      obtain rfl := IpAddr.v4.inj h
      have hs : segments.extractLsb' 32 96 ++ segments.extractLsb' 0 32 = segments :=
        BitVec.extractLsb'_append_extractLsb'
      exact .inr <| congrArg v6 <| hs.symm.trans (by rw [hh]; rfl)
    case isFalse => cases h

theorem normalize_eq_v6 {ip : IpAddr} {segments : BitVec 128} (h : ip.normalize = v6 segments) :
    ip = v6 segments := by
  cases ip
  case v4 octets => cases h
  case v6 segments' =>
    simp only [normalize] at h
    split at h
    · cases h
    · exact h

theorem normalize_normalize {ip : IpAddr} : ip.normalize.normalize = ip.normalize := by
  cases h : ip.normalize
  case v4 octets   => rfl
  case v6 segments => exact normalize_eq_v6 h ▸ h

theorem mem_forms {ip : IpAddr} : ip ∈ ip.forms := by
  unfold forms
  split
  case h_1 octets h   => exact List.mem_pair.mpr (normalize_eq_v4 h)
  case h_2 segments h => exact List.mem_singleton.mpr (normalize_eq_v6 h)

theorem normalize_mem_forms {ip : IpAddr} : ip.normalize ∈ ip.forms := by
  unfold forms
  split
  case h_1 octets h   => simp [h]
  case h_2 segments h => simp [h]

theorem normalize_of_mem_forms {ip ip' : IpAddr} (h : ip' ∈ ip.forms) :
    ip'.normalize = ip.normalize := by
  unfold forms at h
  split at h
  case h_1 octets hn =>
    rcases List.mem_pair.mp h with rfl | rfl
    · exact hn.symm
    · exact normalize_mapped.trans hn.symm
  case h_2 segments hn =>
    obtain rfl := List.mem_singleton.mp h
    rw [← hn, normalize_normalize]

end IpAddr
