import Mathlib.Data.List.DropRight
import Xfr.Access.AddressText
import Xfr.Library.Affix
import Xfr.Library.ErrorKind

open Utf8 (Text)
open Affix

namespace IpAddr

def isLinkLocal (segments : BitVec 128) : Bool :=
  segments.extractLsb' 118 10 = 0x3FA#10

end IpAddr

-- Which interfaces there are, and if they can be looked up.
structure ZoneTable where
  unix          : Bool
  ifNameToIndex : Text → UInt32

inductive ScopedAddr
  | v4 (ip : BitVec 32) (port : UInt16)
  | v6 (ip : BitVec 128) (port : UInt16) (flowinfo scopeId : UInt32)
  deriving DecidableEq

structure IoError where
  kind : ErrorKind
  text : Text

inductive AddressError
  | invalidPort (port text : Text)
  | literal (error : IoError)
  | invalid (text : Text)

namespace ScopedAddr

def port : ScopedAddr → UInt16
  | v4 _ port     => port
  | v6 _ port _ _ => port

def display (t : IpText) : ScopedAddr → Text
  | v4 ip port => t.display (.v4 ip) ++ ':' :: number port.toNat
  | v6 ip port _ scopeId =>
    if scopeId = 0 then '[' :: t.display (.v6 ip) ++ "]:".toList ++ number port.toNat
    else '[' :: t.display (.v6 ip) ++ '%' :: number scopeId.toNat ++ "]:".toList ++ number port.toNat

-- A link-local address does not say by itself where it is.
def Scoped : ScopedAddr → Prop
  | v4 ..                    => True
  | v6 ip _ flowinfo scopeId => flowinfo = 0 ∧ (IpAddr.isLinkLocal ip → scopeId ≠ 0)

end ScopedAddr

def hostPort (host : Text) (port : UInt16) : Text :=
  let host := (host.dropWhile (· = '[')).rdropWhile (· = ']')
  if ':' ∈ host then '[' :: host ++ "]:".toList ++ number port.toNat
  else host ++ ':' :: number port.toNat

def parsePort (s host port : Text) : Except AddressError (Text × Option UInt16) :=
  match Unsigned.parse (2 ^ 16) port with
  | .ok n    => .ok (host, some (.ofNat n))
  | .error _ => .error (.invalidPort port s)

def splitHostPort (s : Text) : Except AddressError (Text × Option UInt16) :=
  match stripPrefix '[' s >>= stripSuffix ']' with
  | some host => .ok (host, none)
  | none      =>
    match stripPrefix '[' s >>= splitOnce "]:".toList with
    | some (host, port) => parsePort s host port
    | none              =>
      match splitOnce [':'] s with
      | some (host, port) => if ':' ∈ port then .ok (s, none) else parsePort s host port
      | none              => .ok (s, none)

def zoneToScopeId (zones : ZoneTable) (zone : Text) : Except IoError UInt32 :=
  match Unsigned.parse (2 ^ 32) zone with
  | .ok index => .ok (.ofNat index)
  | .error _  =>
    -- A name with a NUL inside is none of an interface.
    let index := if zones.unix ∧ '\x00' ∉ zone then zones.ifNameToIndex zone else 0
    if index ≠ 0 then .ok index
    else
      let reason :=
        if zones.unix then "no such interface"
        else "interface names are not supported on this platform; use the numeric index (e.g. %12)"
      .error ⟨.notFound, "IPv6 zone '%".toList ++ zone ++ "': ".toList ++ reason.toList⟩

def parseIpLiteral (t : IpText) (zones : ZoneTable) (host : Text) (port : UInt16) :
    Except IoError (Option ScopedAddr) :=
  let host := (stripPrefix '[' host >>= stripSuffix ']').getD host
  let (ip, zone) := match splitOnce ['%'] host with
    | some (ip, zone) => (ip, some zone)
    | none            => (host, none)
  match t.parse ip, zone with
  | some (.v6 ip), none =>
    if IpAddr.isLinkLocal ip then
      .error ⟨.invalidInput, "link-local address ".toList ++ t.display (.v6 ip) ++
        " needs an interface zone, e.g. ".toList ++ t.display (.v6 ip) ++ "%eth0".toList⟩
    else
      .ok (some (.v6 ip port 0 0))
  | some (.v4 ip), none      => .ok (some (.v4 ip port))
  | some (.v6 ip), some zone => do return some (.v6 ip port 0 (← zoneToScopeId zones zone))
  | none, none               => .ok none
  | _, some _                => .error ⟨.invalidInput, host ++
      ": a %zone is only valid on an IPv6 address (e.g. fe80::1%eth0)".toList⟩

def parseBindAddress (t : IpText) (zones : ZoneTable) (s : Text) : Except AddressError ScopedAddr := do
  let (host, port) ← splitHostPort s
  match parseIpLiteral t zones host (port.getD 0) with
  | .error e        => .error (.literal e)
  | .ok (some addr) => .ok addr
  | .ok none        => .error (.invalid ("Invalid bind address: ".toList ++ s ++
      ". Use IP or IP:port format (for IPv6: [::1], [::1]:port, or fe80::1%eth0 for link-local).".toList))

-- An interface an answer arrived on.
structure InterfaceId where
  name  : Text
  index : UInt32

inductive ScopedIp
  | v4 (octets : BitVec 32)
  | v6 (segments : BitVec 128) (scopeId : InterfaceId)

def zoneName (unix : Bool) (id : InterfaceId) : Text :=
  if unix ∧ id.name ≠ [] then id.name else number id.index.toNat

-- Only link-local addresses have a zone.
structure DiscoveredAddress where
  ip    : IpAddr
  zone  : Option Text
  zoned : zone.isSome → ∃ segments, ip = .v6 segments ∧ IpAddr.isLinkLocal segments

def ScopedIp.toIpAddr : ScopedIp → IpAddr
  | v4 octets     => .v4 octets
  | v6 segments _ => .v6 segments

def linkLocalZone (unix : Bool) : ScopedIp → Option Text
  | .v4 _                => none
  | .v6 segments scopeId =>
    if IpAddr.isLinkLocal segments ∧ scopeId.index ≠ 0 then some (zoneName unix scopeId) else none

def DiscoveredAddress.ofAnswer (unix : Bool) (addr : ScopedIp) : DiscoveredAddress where
  ip    := addr.toIpAddr
  zone  := linkLocalZone unix addr
  zoned := by
    cases addr
    case v4 => exact nofun
    case v6 segments scopeId =>
      intro h
      refine ⟨segments, rfl, ?_⟩
      by_contra hl
      simp [linkLocalZone, hl] at h

def DiscoveredAddress.display (t : IpText) (addr : DiscoveredAddress) : Text :=
  match addr.ip, addr.zone with
  | .v6 ip, some zone => '[' :: t.display (.v6 ip) ++ '%' :: zone ++ [']']
  | .v6 ip, none      => '[' :: t.display (.v6 ip) ++ [']']
  | ip, _             => t.display ip

variable {t : IpText} {zones : ZoneTable} {s host port zone ip text : Text} {n : UInt16}

theorem toNat_lt_size (n : UInt16) : n.toNat < 2 ^ 16 :=
  n.toNat_lt

theorem getLast?_number {c : Char} {n : Nat} (h : c.isDigit = false) :
    (text ++ number n).getLast? ≠ some c := by
  rw [number, List.getLast?_append_of_ne_nil _ Nat.toDigits_ne_nil]
  exact fun hl => not_mem_number h (List.mem_of_mem_getLast? hl)

@[simp]
theorem parsePort_number : parsePort s host (number n.toNat) = .ok (host, some n) := by
  have hn := Decimal.numeral_toDigits (toNat_lt_size n)
  rw [parsePort, number, Unsigned.parse_numeral hn, Decimal.value_toDigits]
  simp

-- The three forms in which a host is printed.
theorem splitHostPort_bracketed : splitHostPort ('[' :: host ++ [']']) = .ok (host, none) := by
  simp [splitHostPort]

theorem splitHostPort_bracketed_port (h : ']' ∉ host) :
    splitHostPort ('[' :: host ++ "]:".toList ++ number n.toNat) = .ok (host, some n) := by
  have hs : stripSuffix ']' (host ++ "]:".toList ++ number n.toNat) = none :=
    stripSuffix_eq_none (getLast?_number (by decide))
  have ho : splitOnce "]:".toList (host ++ "]:".toList ++ number n.toNat) =
      some (host, number n.toNat) := by
    rw [List.append_assoc]
    exact splitOnce_append h
  simp only [splitHostPort, List.cons_append, stripPrefix_cons, Option.bind_eq_bind, Option.bind_some,
    hs, ho, parsePort_number]

theorem splitHostPort_port (hb : host.head? ≠ some '[') (hc : ':' ∉ host) :
    splitHostPort (host ++ ':' :: number n.toNat) = .ok (host, some n) := by
  have hp : stripPrefix '[' (host ++ ':' :: number n.toNat) = none := by
    refine stripPrefix_eq_none ?_
    cases host <;> simp_all
  have ho : splitOnce [':'] (host ++ ':' :: number n.toNat) = some (host, number n.toNat) :=
    splitOnce_append hc
  have hn : ':' ∉ number n.toNat := not_mem_number (by decide)
  simp only [splitHostPort, hp, ho, Option.bind_eq_bind, Option.bind_none, if_neg hn, parsePort_number]

theorem hostPort_eq (hl : '[' ∉ host) (hr : ']' ∉ host) :
    hostPort host n = if ':' ∈ host then '[' :: host ++ "]:".toList ++ number n.toNat
      else host ++ ':' :: number n.toNat := by
  have hd : host.dropWhile (· = '[') = host := by
    cases host
    case nil => rfl
    case cons c host => simp_all [eq_comm]
  have ht : host.rdropWhile (· = ']') = host := by
    refine List.rdropWhile_eq_self_iff.mpr fun hn he => hr ?_
    exact of_decide_eq_true he ▸ List.getLast_mem hn
  simp only [hostPort, hd, ht]

theorem splitHostPort_hostPort (hl : '[' ∉ host) (hr : ']' ∉ host) :
    splitHostPort (hostPort host n) = .ok (host, some n) := by
  rw [hostPort_eq hl hr]
  split
  case isTrue     => exact splitHostPort_bracketed_port hr
  case isFalse hc => exact splitHostPort_port (fun hh => hl (List.mem_of_head? hh)) hc

variable {ip : BitVec 128} {octets : BitVec 32} {port : UInt16}

theorem stripPrefix_display {addr : IpAddr} : stripPrefix '[' (t.display addr) = none :=
  stripPrefix_eq_none (IpText.head?_ne (by decide))

theorem parseIpLiteral_v4 :
    parseIpLiteral t zones (t.display (.v4 octets)) port = .ok (some (.v4 octets port)) := by
  have hz : splitOnce ['%'] (t.display (.v4 octets)) = none :=
    splitOnce_eq_none (IpText.not_mem (by decide))
  simp only [parseIpLiteral, stripPrefix_display, hz, t.parse_display, Option.bind_eq_bind,
    Option.bind_none, Option.getD_none]

theorem parseIpLiteral_v6 (h : IpAddr.isLinkLocal ip = false) :
    parseIpLiteral t zones (t.display (.v6 ip)) port = .ok (some (.v6 ip port 0 0)) := by
  have hz : splitOnce ['%'] (t.display (.v6 ip)) = none :=
    splitOnce_eq_none (IpText.not_mem (by decide))
  simp only [parseIpLiteral, stripPrefix_display, hz, t.parse_display, h, Option.bind_eq_bind,
    Option.bind_none, Option.getD_none, Bool.false_eq_true, if_false]

theorem zoneToScopeId_numeral (h : Decimal.Numeral (2 ^ 32) zone) :
    zoneToScopeId zones zone = .ok (.ofNat (Decimal.value zone)) := by
  simp only [zoneToScopeId, Unsigned.parse_numeral h]

theorem parseIpLiteral_zone (h : Decimal.Numeral (2 ^ 32) zone) :
    parseIpLiteral t zones (t.display (.v6 ip) ++ '%' :: zone) port =
      .ok (some (.v6 ip port 0 (.ofNat (Decimal.value zone)))) := by
  have hp : stripPrefix '[' (t.display (.v6 ip) ++ '%' :: zone) = none := by
    refine stripPrefix_eq_none ?_
    rw [List.head?_append_of_ne_nil _ (List.ne_nil_of_mem (t.colon ip))]
    exact IpText.head?_ne (by decide)
  have hz : splitOnce ['%'] (t.display (.v6 ip) ++ '%' :: zone) = some (t.display (.v6 ip), zone) :=
    splitOnce_append (IpText.not_mem (by decide))
  simp only [parseIpLiteral, hp, hz, t.parse_display, zoneToScopeId_numeral h, Option.bind_eq_bind,
    Option.bind_none, Option.getD_none]
  rfl

-- What is printed for an address with a port is read as this address with this port.
theorem display_parsed {addr : ScopedAddr} (h : addr.Scoped) :
    ∃ host, splitHostPort (addr.display t) = .ok (host, some addr.port) ∧
      parseIpLiteral t zones host addr.port = .ok (some addr) := by
  cases addr
  case v4 octets port =>
    have hb : (t.display (.v4 octets)).head? ≠ some '[' := IpText.head?_ne (by decide)
    have hs := splitHostPort_port (n := port) hb IpText.colon_not_mem_v4
    exact ⟨_, hs, parseIpLiteral_v4⟩
  case v6 ip port flowinfo scopeId =>
    have ⟨hf, hl⟩ := h
    subst hf
    by_cases hz : scopeId = 0
    case pos =>
      subst hz
      have hn : IpAddr.isLinkLocal ip = false := by simpa using hl
      refine ⟨t.display (.v6 ip), ?_, parseIpLiteral_v6 hn⟩
      simp only [ScopedAddr.display, if_true]
      exact splitHostPort_bracketed_port (IpText.not_mem (by decide))
    case neg =>
      have hn : Decimal.Numeral (2 ^ 32) (number scopeId.toNat) :=
        Decimal.numeral_toDigits scopeId.toNat_lt
      have hb : ']' ∉ t.display (.v6 ip) ++ '%' :: number scopeId.toNat := by
        have hd : ']' ∉ number scopeId.toNat := not_mem_number (by decide)
        have ht : ']' ∉ t.display (.v6 ip) := IpText.not_mem (by decide)
        simp [hd, ht]
      have hv : UInt32.ofNat (Decimal.value (number scopeId.toNat)) = scopeId := by
        rw [number, Decimal.value_toDigits, UInt32.ofNat_toNat]
      refine ⟨t.display (.v6 ip) ++ '%' :: number scopeId.toNat, ?_, ?_⟩
      case refine_1 =>
        simp only [ScopedAddr.display, if_neg hz]
        exact splitHostPort_bracketed_port hb
      case refine_2 => exact (parseIpLiteral_zone hn).trans (by rw [hv]; rfl)

theorem parseBindAddress_display {addr : ScopedAddr} (h : addr.Scoped) :
    parseBindAddress t zones (addr.display t) = .ok addr := by
  have ⟨host, hs, hp⟩ := @display_parsed t zones addr h
  rw [parseBindAddress, hs]
  simp only [bind, Except.bind, Option.getD_some, hp]

theorem discovered_parsed {addr : DiscoveredAddress} (hm : zone ∈ addr.zone)
    (hz : Decimal.Numeral (2 ^ 32) zone) : ∃ host ip, addr.ip = .v6 ip ∧
    splitHostPort (addr.display t) = .ok (host, none) ∧
    splitHostPort (addr.display t ++ ':' :: number port.toNat) = .ok (host, some port) ∧
    parseIpLiteral t zones host port = .ok (some (.v6 ip port 0 (.ofNat (Decimal.value zone)))) := by
  have ⟨ip, hi, _⟩ := addr.zoned (Option.isSome_of_mem hm)
  have hd : addr.display t = '[' :: (t.display (.v6 ip) ++ '%' :: zone) ++ [']'] := by
    simp [DiscoveredAddress.display, hi, Option.mem_def.mp hm]
  have hb : ']' ∉ t.display (.v6 ip) ++ '%' :: zone := by
    have hn : ']' ∉ zone := hz.not_mem (by decide)
    have ht : ']' ∉ t.display (.v6 ip) := IpText.not_mem (by decide)
    simp [hn, ht]
  refine ⟨_, ip, hi, hd ▸ splitHostPort_bracketed, ?_, parseIpLiteral_zone hz⟩
  rw [hd, List.append_assoc]
  have hs := splitHostPort_bracketed_port (n := port) hb
  rwa [List.append_assoc] at hs

-- Addresses are read back from what is printed of them: the ones the client was called with, the ones
-- of sockets and the ones of servers on the network.
theorem addresses_round_trip (t : IpText) (zones : ZoneTable) :
    (∀ host port, '[' ∉ host → ']' ∉ host →
      splitHostPort (hostPort host port) = .ok (host, some port)) ∧
    (∀ addr : ScopedAddr, addr.Scoped → ∃ host,
      splitHostPort (addr.display t) = .ok (host, some addr.port) ∧
      parseIpLiteral t zones host addr.port = .ok (some addr)) ∧
    (∀ addr : DiscoveredAddress, ∀ zone ∈ addr.zone, Decimal.Numeral (2 ^ 32) zone → ∀ port,
      ∃ host ip, addr.ip = .v6 ip ∧ splitHostPort (addr.display t) = .ok (host, none) ∧
        splitHostPort (addr.display t ++ ':' :: number port.toNat) = .ok (host, some port) ∧
        parseIpLiteral t zones host port =
          .ok (some (.v6 ip port 0 (.ofNat (Decimal.value zone))))) :=
  ⟨fun _ _ => splitHostPort_hostPort, fun _ => display_parsed,
    fun _ _ hm hz _ => discovered_parsed hm hz⟩

theorem addresses_round_trip_link_local :
    splitHostPort (hostPort "fe80::1%eth0".toList 5201) = .ok ("fe80::1%eth0".toList, some 5201) ∧
    (∃ host, splitHostPort ((ScopedAddr.v6 0xFE801234123412341234123412341234#128 5201 0 2).display
        .full) = .ok (host, some 5201) ∧
      parseIpLiteral .full ⟨true, fun _ => 0⟩ host 5201 =
        .ok (some (.v6 0xFE801234123412341234123412341234#128 5201 0 2))) ∧
    ∃ host ip, IpAddr.v6 0xFE801234123412341234123412341234#128 = .v6 ip ∧
      splitHostPort ((DiscoveredAddress.ofAnswer false
        (.v6 0xFE801234123412341234123412341234#128 ⟨"eth0".toList, 2⟩)).display .full) =
          .ok (host, none) ∧
      splitHostPort ((DiscoveredAddress.ofAnswer false
        (.v6 0xFE801234123412341234123412341234#128 ⟨"eth0".toList, 2⟩)).display .full ++
          ':' :: number (5201 : UInt16).toNat) = .ok (host, some 5201) ∧
      parseIpLiteral .full ⟨true, fun _ => 0⟩ host 5201 = .ok (some (.v6 ip 5201 0 2)) := by
  have h := addresses_round_trip .full ⟨true, fun _ => 0⟩
  have hs : (ScopedAddr.v6 0xFE801234123412341234123412341234#128 5201 0 2).Scoped :=
    ⟨rfl, fun _ => by decide⟩
  have hn : Decimal.Numeral (2 ^ 32) ['2'] := ⟨by decide, by simp, by decide⟩
  have hv : UInt32.ofNat (Decimal.value ['2']) = 2 := by decide
  have hd := h.right.right (.ofAnswer false
    (.v6 0xFE801234123412341234123412341234#128 ⟨"eth0".toList, 2⟩)) ['2'] (by decide) hn 5201
  rw [hv] at hd
  exact ⟨h.left _ _ (by decide) (by decide), h.right.left _ hs, hd⟩
