import Mathlib.Data.List.Lex
import Mathlib.Data.Prod.Lex
import Mathlib.Order.WithBot
import Xfr.Discover.Label
import Xfr.Library.Grouping
import Xfr.Library.SortDedup
import Xfr.Output.Terminal

open Utf8 (Text)
open Terminal (DiscoveredServer)
open Terminal.DiscoveredServer (linkLocal)
open SortDedup (SortedBy sortBy sortDedup)

deriving instance DecidableEq for InterfaceId

deriving instance DecidableEq for DiscoveredAddress

namespace IpAddr

def isLoopback : IpAddr → Bool
  | v4 octets   => octets.extractLsb' 24 8 = 127
  | v6 segments => segments = 1

-- How late an address is listed. Bridges of containers are often in 172.16/12.
def preference (ip : IpAddr) : Nat :=
  if ip.isLoopback then 4
  else
    match ip with
    | v4 octets =>
      if octets.extractLsb' 16 16 = 0xA9FE then 3
      else if octets.extractLsb' 24 8 = 172 ∧ octets.extractLsb' 16 8 &&& 0xF0 = 16 then 1
      else 0
    | v6 segments => if isLinkLocal segments then 3 else 2

-- Addresses of IPv4 are before the ones of IPv6.
def rank : IpAddr → Nat ×ₗ Nat
  | v4 octets   => toLex (0, octets.toNat)
  | v6 segments => toLex (1, segments.toNat)

theorem rank_injective : Function.Injective rank := by
  intro ip ip' h
  cases ip <;> cases ip' <;> simp [rank, BitVec.toNat_inj] at h ⊢
  all_goals exact h

end IpAddr

namespace Discover

-- Texts are compared by their bytes.
def bytesOf (text : Text) : List Nat :=
  (Utf8.encode text).map UInt8.toNat

abbrev AddressKey : Type :=
  Nat ×ₗ (Nat ×ₗ Nat) ×ₗ WithBot (List Nat)

def addressKey (a : DiscoveredAddress) : AddressKey :=
  toLex (a.ip.preference, toLex (a.ip.rank, a.zone.map bytesOf))

def usableAddresses (answers own : List DiscoveredAddress) (ourHostname : Bool) :
    List DiscoveredAddress :=
  let ours := ourHostname && answers.any fun a => linkLocal a && decide (a ∈ own)
  let out := answers.filter fun a =>
    !linkLocal a || (a.zone.isSome && (!ours || decide (a ∈ own)))
  sortDedup addressKey out

def eqIgnoreAsciiCase (text text' : Text) : Bool :=
  text.map Char.toLower = text'.map Char.toLower

def isOurHostname (advertised ours : Text) : Bool :=
  let label := advertised.rdropWhile (· = '.')
  eqIgnoreAsciiCase label ours || eqIgnoreAsciiCase label (ours ++ ".local".toList)

-- What is known of the host on which it is searched.
structure Host where
  unix     : Bool
  hostname : Option Text
  addrs    : InterfaceId → List IpAddr

-- What was resolved of a service. The addresses are a set, which is listed in any order.
structure ServiceInfo where
  port      : UInt16
  hostname  : Text
  version   : Option Text
  addresses : List ScopedIp

-- All other events are only written to the log.
inductive ServiceEvent
  | serviceResolved (info : ServiceInfo)
  | serviceFound (serviceType name : Text)
  | searchStarted (serviceType : Text)
  | other

-- What one turn of the search has come to.
inductive Poll
  | event (e : ServiceEvent)
  | disconnected
  | elapsed

-- A turn of the search, with the time which is left when it starts.
structure Turn where
  remaining : Nat
  poll      : Poll

namespace ServiceInfo

def server (info : ServiceInfo) : DiscoveredServer where
  addresses := []
  port      := info.port
  hostname  := some info.hostname
  version   := info.version

def answers (unix : Bool) (info : ServiceInfo) : List DiscoveredAddress :=
  info.addresses.map (.ofAnswer unix)

def key (info : ServiceInfo) : Option Text × UInt16 :=
  (some info.hostname, info.port)

end ServiceInfo

abbrev Entry : Type :=
  List DiscoveredAddress × DiscoveredServer

-- There is one entry for each host and port, and the answers for it accumulate.
def gathering (unix : Bool) : Grouping ServiceInfo Entry (Option Text × UInt16) where
  key            := ServiceInfo.key
  keyOf entry    := (entry.snd.hostname, entry.snd.port)
  start info     := (info.answers unix, info.server)
  add entry info := (entry.fst ++ info.answers unix, info.server)
  started _      := rfl
  added _ _ _    := rfl

structure Browse where
  found     : List Entry
  receiving : List InterfaceId

def receive (receiving : List InterfaceId) : ScopedIp → List InterfaceId
  | .v4 _    => receiving
  | .v6 _ id => if id ∈ receiving then receiving else receiving ++ [id]

namespace Browse

def resolved (unix : Bool) (b : Browse) (info : ServiceInfo) : Browse where
  found     := (gathering unix).record b.found info
  receiving := info.addresses.foldl receive b.receiving

def handle (unix : Bool) (b : Browse) : ServiceEvent → Browse
  | .serviceResolved info => b.resolved unix info
  | _                     => b

def loop (unix : Bool) (b : Browse) : List Turn → Browse
  | []            => b
  | turn :: turns =>
    if turn.remaining = 0 then b
    else
      match turn.poll with
      | .event e      => (b.handle unix e).loop unix turns
      | .disconnected => b
      | .elapsed      => b.loop unix turns

end Browse

def ownAddress (unix : Bool) (id : InterfaceId) : IpAddr → Option DiscoveredAddress
  | .v4 _        => none
  | .v6 segments =>
    if h : IpAddr.isLinkLocal segments then
      some ⟨.v6 segments, some (zoneName unix id), fun _ => ⟨segments, rfl, h⟩⟩
    else
      none

def ownAddresses (host : Host) (receiving : List InterfaceId) : List DiscoveredAddress :=
  receiving.flatMap fun id => (host.addrs id).filterMap (ownAddress host.unix id)

def systemHostname (host : Host) : Text :=
  host.hostname.getD "xfr-server".toList

-- What is advertised is this label, followed by the domain.
def registeredHostname (host : Host) : Option Text := do
  return (← dnsLabel (systemHostname host)) ++ ".local.".toList

abbrev ServerKey : Type :=
  WithBot (List Nat) ×ₗ Nat

def serverKey (server : DiscoveredServer) : ServerKey :=
  toLex (server.hostname.map bytesOf, server.port.toNat)

def finish (own : List DiscoveredAddress) (ourLabel : Text) (entry : Entry) :
    Option DiscoveredServer :=
  let ourHostname := entry.snd.hostname.any (isOurHostname · ourLabel)
  let addresses := usableAddresses entry.fst own ourHostname
  if addresses ≠ [] then some { entry.snd with addresses := addresses } else none

def discover (host : Host) (turns : List Turn) : Option (List DiscoveredServer) := do
  let b := Browse.loop host.unix ⟨[], []⟩ turns
  let own := ownAddresses host b.receiving
  let ourLabel ← dnsLabel (systemHostname host)
  let servers := b.found.filterMap (finish own ourLabel)
  return sortBy serverKey servers

end Discover
