import Xfr.Discover.Browse

open Utf8 (Text)
open Terminal (DiscoveredServer)
open Terminal.DiscoveredServer (linkLocal)
open SortDedup (SortedBy sortBy sortDedup)

namespace Discover

-- The services which were resolved before the search came to its end.
def heard : List Turn → List ServiceInfo
  | []            => []
  | turn :: turns =>
    if turn.remaining = 0 then []
    else
      match turn.poll with
      | .event (.serviceResolved info) => info :: heard turns
      | .event _                       => heard turns
      | .disconnected                  => []
      | .elapsed                       => heard turns

variable {unix ourHostname : Bool} {b : Browse} {infos infos' : List ServiceInfo} {info : ServiceInfo}
  {turns turns' : List Turn} {a a' : DiscoveredAddress} {answers own : List DiscoveredAddress}
  {entry : Entry} {receiving : List InterfaceId} {id : InterfaceId} {host : Host} {label : Text}
  {server : DiscoveredServer} {servers : List DiscoveredServer} {key : Option Text × UInt16}

-- What a server which is known by its host and port has answered.
def Answered (unix : Bool) (infos : List ServiceInfo) (key : Option Text × UInt16)
    (a : DiscoveredAddress) : Prop :=
  ∃ info ∈ infos, info.key = key ∧ ∃ addr ∈ info.addresses, a = .ofAnswer unix addr

-- Something has arrived on the interface, no matter from which server.
def Arrived (infos : List ServiceInfo) (id : InterfaceId) : Prop :=
  ∃ info ∈ infos, ∃ segments, .v6 segments id ∈ info.addresses

-- A link-local address of this host, on an interface on which something arrived.
def Own (host : Host) (infos : List ServiceInfo) (a : DiscoveredAddress) : Prop :=
  ∃ id, Arrived infos id ∧ ∃ ip ∈ host.addrs id, ownAddress host.unix id ip = some a

-- A server on this host is known by its name and by an address of this host which it answered.
def IsOurs (host : Host) (label : Text) (infos : List ServiceInfo) (key : Option Text × UInt16) :
    Prop :=
  (∃ name ∈ key.fst, isOurHostname name label) ∧
  ∃ a, Answered host.unix infos key a ∧ linkLocal a ∧ Own host infos a

structure Usable (host : Host) (label : Text) (infos : List ServiceInfo)
    (key : Option Text × UInt16) (a : DiscoveredAddress) : Prop where
  answered : Answered host.unix infos key a
  zoned    : linkLocal a → a.zone.isSome
  own      : linkLocal a → IsOurs host label infos key → Own host infos a

theorem bytesOf_injective : Function.Injective bytesOf := fun _ _ h =>
  Utf8.encode_injective <| List.map_injective_iff.mpr (fun _ _ => UInt8.toNat_inj.mp) h

theorem addressKey_injective : Function.Injective addressKey := by
  intro a a' h
  have ⟨_, h⟩ := Prod.mk.inj (toLex.injective h)
  have ⟨hr, hz⟩ := Prod.mk.inj (toLex.injective h)
  have hi := IpAddr.rank_injective hr
  have hz := Option.map_injective bytesOf_injective hz
  cases a
  cases a'
  obtain rfl : _ = _ := hi
  obtain rfl : _ = _ := hz
  rfl

theorem mem_usableAddresses : a ∈ usableAddresses answers own ourHostname ↔
    a ∈ answers ∧ (linkLocal a → a.zone.isSome) ∧
    (linkLocal a → ourHostname ∧ (∃ a' ∈ answers, linkLocal a' ∧ a' ∈ own) → a ∈ own) := by
  rw [usableAddresses, SortDedup.mem_sortDedup addressKey_injective, List.mem_filter]
  refine and_congr_right fun _ => ?_
  cases linkLocal a
  case false => simp
  case true =>
    simp only [Bool.not_true, Bool.false_or, Bool.and_eq_true, Bool.or_eq_true,
      Bool.not_eq_true', ← Bool.not_eq_true, List.any_eq_true, decide_eq_true_eq, forall_const,
      imp_iff_not_or]

theorem loop_eq : b.loop unix turns = (heard turns).foldl (Browse.resolved unix) b := by
  induction turns generalizing b
  case nil => rfl
  case cons turn turns hi =>
    obtain ⟨remaining, poll⟩ := turn
    rw [Browse.loop, heard]
    split
    case isTrue hz  => rfl
    case isFalse hz =>
      cases poll
      case event event  => cases event <;> exact hi
      case disconnected => rfl
      case elapsed      => exact hi

theorem found_foldl : (infos.foldl (Browse.resolved unix) b).found =
    infos.foldl (gathering unix).record b.found := by
  induction infos generalizing b
  case nil               => rfl
  case cons info infos hi => exact hi

theorem mem_receive {addr : ScopedIp} :
    id ∈ receive receiving addr ↔ id ∈ receiving ∨ ∃ segments, addr = .v6 segments id := by
  cases addr
  case v4 => simp [receive]
  case v6 segments id' =>
    rw [receive]
    split
    case isTrue hm  =>
      refine ⟨.inl, ?_⟩
      rintro (h | ⟨_, he⟩)
      · exact h
      · exact (ScopedIp.v6.inj he).right ▸ hm
    case isFalse hm => simp [eq_comm]

theorem mem_receive_foldl {addrs : List ScopedIp} :
    id ∈ addrs.foldl receive receiving ↔ id ∈ receiving ∨ ∃ segments, .v6 segments id ∈ addrs := by
  induction addrs generalizing receiving
  case nil => simp
  case cons addr addrs hi =>
    simp only [List.foldl_cons, hi, mem_receive, List.mem_cons, exists_or, or_assoc, eq_comm]

theorem mem_receiving_foldl : id ∈ (infos.foldl (Browse.resolved unix) b).receiving ↔
    id ∈ b.receiving ∨ Arrived infos id := by
  induction infos generalizing b
  case nil => simp [Arrived]
  case cons info infos hi =>
    rw [List.foldl_cons, hi, Browse.resolved, mem_receive_foldl, or_assoc]
    simp [Arrived]

theorem mem_ownAddresses :
    a ∈ ownAddresses host (infos.foldl (Browse.resolved unix) ⟨[], []⟩).receiving ↔
    Own host infos a := by
  rw [ownAddresses, List.mem_flatMap]
  refine exists_congr fun id => and_congr (mem_receiving_foldl.trans (by simp)) ?_
  simp [List.mem_filterMap]

theorem foldl_add : infos.foldl (gathering unix).add entry =
    (entry.fst ++ infos.flatMap (·.answers unix),
      (infos.getLast?.map ServiceInfo.server).getD entry.snd) := by
  induction infos generalizing entry
  case nil => simp
  case cons info infos hi =>
    rw [List.foldl_cons, hi, List.getLast?_cons]
    cases infos.getLast? <;> simp [gathering]

-- What is known of the server of an entry: all of its answers, and the last thing it said.
structure Gathered (unix : Bool) (infos : List ServiceInfo) (entry : Entry) : Prop where
  answers : ∀ a, a ∈ entry.fst ↔ Answered unix infos ((gathering unix).keyOf entry) a
  latest  : (infos.filter (·.key = (gathering unix).keyOf entry)).getLast?.map ServiceInfo.server =
    some entry.snd

theorem gathered (h : (gathering unix).Made infos entry) : Gathered unix infos entry := by
  have ⟨first, rest, hi, he⟩ := h.made
  replace hi : infos.filter (·.key = (gathering unix).keyOf entry) = first :: rest := hi
  rw [foldl_add] at he
  constructor
  case answers =>
    intro a
    have ha : entry.fst = (first :: rest).flatMap (·.answers unix) := by rw [he]; rfl
    rw [ha, ← hi, List.mem_flatMap, Answered]
    refine exists_congr fun info => ?_
    rw [List.mem_filter, decide_eq_true_eq, and_assoc, ServiceInfo.answers, List.mem_map]
    simp only [eq_comm]
  case latest =>
    rw [hi, List.getLast?_cons, he]
    cases rest.getLast? <;> rfl

theorem grouped_loop : (gathering unix).Grouped (heard turns)
    (Browse.loop unix ⟨[], []⟩ turns).found := by
  rw [loop_eq, found_foldl]
  exact Grouping.grouped_foldl

-- What becomes of an entry when the search is over.
def finished (own : List DiscoveredAddress) (label : Text) (entry : Entry) : DiscoveredServer :=
  let ourHostname := entry.snd.hostname.any (isOurHostname · label)
  { entry.snd with addresses := usableAddresses entry.fst own ourHostname }

theorem finish_eq_some_iff : finish own label entry = some server ↔
    finished own label entry = server ∧ server.addresses ≠ [] := by
  rw [show finish own label entry = if (finished own label entry).addresses ≠ [] then
    some (finished own label entry) else none from rfl]
  split
  case isTrue hn  =>
    rw [Option.some_inj]
    exact ⟨fun h => ⟨h, h ▸ hn⟩, fun h => h.left⟩
  case isFalse hn =>
    refine ⟨nofun, ?_⟩
    rintro ⟨rfl, h⟩
    exact absurd h hn

-- The addresses of a server are the usable ones of all it has answered.
theorem mem_finished (h : Gathered host.unix infos entry) (ho : ∀ a, a ∈ own ↔ Own host infos a) :
    a ∈ (finished own label entry).addresses ↔
      Usable host label infos ((gathering host.unix).keyOf entry) a := by
  have hn : entry.snd.hostname.any (isOurHostname · label) ↔
      ∃ name ∈ ((gathering host.unix).keyOf entry).fst, isOurHostname name label :=
    Option.any_eq_true _ _
  rw [finished, mem_usableAddresses, h.answers, hn]
  simp only [h.answers, ho]
  exact ⟨fun ⟨ha, hz, hu⟩ => ⟨ha, hz, hu⟩, fun ⟨ha, hz, hu⟩ => ⟨ha, hz, hu⟩⟩

-- What a search lists when these services were resolved.
structure Listed (host : Host) (label : Text) (infos : List ServiceInfo)
    (servers : List DiscoveredServer) : Prop where
  sorted    : SortedBy serverKey servers
  complete  : ∀ key a, Usable host label infos key a →
    ∃ server ∈ servers, (server.hostname, server.port) = key
  nonempty  : ∀ server ∈ servers, server.addresses ≠ []
  addresses : ∀ server ∈ servers, SortedBy addressKey server.addresses ∧
    ∀ a, a ∈ server.addresses ↔ Usable host label infos (server.hostname, server.port) a
  latest    : ∀ server ∈ servers,
    (infos.filter (·.key = (server.hostname, server.port))).getLast?.map (·.version) =
      some server.version

theorem serverKey_injective {server server' : DiscoveredServer}
    (h : serverKey server = serverKey server') :
    (server.hostname, server.port) = (server'.hostname, server'.port) := by
  have ⟨hh, hp⟩ := Prod.mk.inj (toLex.injective h)
  exact Prod.ext (Option.map_injective bytesOf_injective hh) (UInt16.toNat_inj.mp hp)

theorem listed_finish {found : List Entry} (hg : (gathering host.unix).Grouped infos found)
    (ho : ∀ a, a ∈ own ↔ Own host infos a) :
    Listed host label infos (sortBy serverKey (found.filterMap (finish own label))) := by
  have of_mem {server} (h : server ∈ sortBy serverKey (found.filterMap (finish own label))) :
      ∃ entry ∈ found, finished own label entry = server ∧ server.addresses ≠ [] := by
    have ⟨entry, he, hf⟩ := List.mem_filterMap.mp (SortDedup.mem_sortBy.mp h)
    exact ⟨entry, he, finish_eq_some_iff.mp hf⟩
  constructor
  case sorted =>
    refine SortDedup.sortedBy_sortBy <| List.pairwise_filterMap.mpr <| hg.distinct.imp ?_
    intro entry entry' hn server hs server' hs' he
    obtain ⟨rfl, _⟩ := finish_eq_some_iff.mp hs
    obtain ⟨rfl, _⟩ := finish_eq_some_iff.mp hs'
    exact hn (serverKey_injective he)
  case complete =>
    intro key a hu
    have ⟨info, hi, hk, _⟩ := hu.answered
    have ⟨entry, he, hke⟩ := hg.present info hi
    replace hke : (gathering host.unix).keyOf entry = key := hke.trans hk
    have hm := (mem_finished (gathered (hg.made entry he)) ho).mpr (hke ▸ hu)
    have hf := finish_eq_some_iff.mpr ⟨rfl, List.ne_nil_of_mem hm⟩
    exact ⟨_, SortDedup.mem_sortBy.mpr <| List.mem_filterMap.mpr ⟨entry, he, hf⟩, hke⟩
  case nonempty =>
    intro server hs
    have ⟨_, _, _, hn⟩ := of_mem hs
    exact hn
  case addresses =>
    intro server hs
    obtain ⟨entry, he, rfl, _⟩ := of_mem hs
    exact ⟨SortDedup.sortedBy_sortDedup addressKey_injective,
      fun a => mem_finished (gathered (hg.made entry he)) ho⟩
  case latest =>
    intro server hs
    obtain ⟨entry, he, rfl, _⟩ := of_mem hs
    have hl := congrArg (Option.map (·.version)) (gathered (hg.made entry he)).latest
    rwa [Option.map_map] at hl

theorem exists_discover (host : Host) (turns : List Turn) : ∃ label servers,
    dnsLabel (systemHostname host) = some label ∧ discover host turns = some servers ∧
    Listed host label (heard turns) servers := by
  have ⟨label, hl, _⟩ := @exists_fitLabel (systemHostname host) DNS_LABEL_MAX (by decide)
  let b := Browse.loop host.unix ⟨[], []⟩ turns
  have ho (a) : a ∈ ownAddresses host b.receiving ↔ Own host (heard turns) a := by
    rw [show b = _ from loop_eq]
    exact mem_ownAddresses
  refine ⟨label, _, hl, ?_, listed_finish grouped_loop ho⟩
  rw [discover, dnsLabel, hl]
  rfl

-- A host recognizes the name which it advertises itself.
theorem isOurHostname_registered (h : dnsLabel (systemHostname host) = some label) :
    ∃ name, registeredHostname host = some name ∧ isOurHostname name label := by
  refine ⟨label ++ ".local.".toList, by rw [registeredHostname, h]; rfl, ?_⟩
  have ht : (label ++ ".local.".toList).rdropWhile (· = '.') = label ++ ".local".toList := by
    have hd : label ++ ".local.".toList = (label ++ ".local".toList) ++ ['.'] := by
      rw [List.append_assoc]
      rfl
    rw [hd, List.rdropWhile_concat_pos _ _ _ (by decide)]
    have hs : label ++ ".local".toList = (label ++ ".loca".toList) ++ ['l'] := by
      rw [List.append_assoc]
      rfl
    rw [hs, List.rdropWhile_concat_neg _ _ _ (by decide)]
  rw [isOurHostname, ht, Bool.or_eq_true]
  exact .inr (decide_eq_true rfl)

-- A search comes to a list without repetitions, of everything which is usable and nothing else. The
-- server on this host has no address of another interface when one of its own is heard.
theorem discover_listed (host : Host) (turns : List Turn) : ∃ label name servers,
    dnsLabel (systemHostname host) = some label ∧ registeredHostname host = some name ∧
    discover host turns = some servers ∧ Listed host label (heard turns) servers ∧
    ∀ server ∈ servers, server.hostname = some name →
      (∃ a, Answered host.unix (heard turns) (some name, server.port) a ∧ linkLocal a ∧
        Own host (heard turns) a) →
      ∀ a ∈ server.addresses, linkLocal a → Own host (heard turns) a := by
  have ⟨label, servers, hl, hd, listed⟩ := exists_discover host turns
  have ⟨name, hn, hr⟩ := isOurHostname_registered hl
  refine ⟨label, name, servers, hl, hn, hd, listed, ?_⟩
  intro server hs hh ha a hm hk
  have hu := ((listed.addresses server hs).right a).mp hm
  rw [hh] at hu
  exact hu.own hk ⟨⟨name, rfl, hr⟩, ha⟩

-- What was answered, by which server and about which address.
def answerSet (infos : List ServiceInfo) : Set ((Option Text × UInt16) × ScopedIp) :=
  { p | ∃ info ∈ infos, info.key = p.fst ∧ p.snd ∈ info.addresses }

theorem answered_iff : Answered unix infos key a ↔
    ∃ addr, (key, addr) ∈ answerSet infos ∧ a = .ofAnswer unix addr := by
  constructor
  · rintro ⟨info, hi, hk, addr, ha, he⟩
    exact ⟨addr, ⟨info, hi, hk, ha⟩, he⟩
  · rintro ⟨addr, ⟨info, hi, hk, ha⟩, he⟩
    exact ⟨info, hi, hk, addr, ha, he⟩

theorem arrived_iff : Arrived infos id ↔ ∃ key segments, (key, .v6 segments id) ∈ answerSet infos := by
  constructor
  · rintro ⟨info, hi, segments, ha⟩
    exact ⟨info.key, segments, info, hi, rfl, ha⟩
  · rintro ⟨_, segments, info, hi, _, ha⟩
    exact ⟨info, hi, segments, ha⟩

theorem usable_congr (h : answerSet infos = answerSet infos') :
    Usable host label infos key a ↔ Usable host label infos' key a := by
  have ha {a} : Answered host.unix infos key a ↔ Answered host.unix infos' key a := by
    rw [answered_iff, answered_iff, h]
  have ho {a} : Own host infos a ↔ Own host infos' a := by
    simp only [Own, arrived_iff, h]
  have hi : IsOurs host label infos key ↔ IsOurs host label infos' key := by
    simp only [IsOurs, ha, ho]
  constructor
  · exact fun hu => ⟨ha.mp hu.answered, hu.zoned, fun hl h => ho.mp (hu.own hl (hi.mpr h))⟩
  · exact fun hu => ⟨ha.mpr hu.answered, hu.zoned, fun hl h => ho.mpr (hu.own hl (hi.mp h))⟩

-- What is listed of a server, besides its version.
def shown (server : DiscoveredServer) : Option Text × UInt16 × List DiscoveredAddress :=
  (server.hostname, server.port, server.addresses)

theorem Listed.shown_of_mem {servers' : List DiscoveredServer}
    (h : Listed host label infos servers) (h' : Listed host label infos' servers')
    (he : answerSet infos = answerSet infos') {p} (hp : p ∈ servers.map shown) :
    p ∈ servers'.map shown := by
  obtain ⟨server, hs, rfl⟩ := List.mem_map.mp hp
  have ⟨sorted, hm⟩ := h.addresses server hs
  have ⟨a, ha⟩ := List.exists_mem_of_ne_nil _ (h.nonempty server hs)
  have hu := (usable_congr he).mp ((hm a).mp ha)
  have ⟨server', hs', hk⟩ := h'.complete _ a hu
  have ⟨sorted', hm'⟩ := h'.addresses server' hs'
  have hl : server'.addresses = server.addresses :=
    sorted'.ext sorted fun a => by rw [hm, hm', hk, usable_congr he]
  have ⟨hh, hp⟩ := Prod.mk.inj hk
  exact List.mem_map.mpr ⟨server', hs', by rw [shown, hh, hp, hl]; rfl⟩

-- The list does not depend on the order of the answers, on how often one is heard and on which of
-- them come together.
theorem discover_converges (host : Host) (turns turns' : List Turn)
    (h : answerSet (heard turns) = answerSet (heard turns')) :
    (discover host turns).map (·.map shown) = (discover host turns').map (·.map shown) := by
  have ⟨label, servers, hl, hd, listed⟩ := exists_discover host turns
  have ⟨label', servers', hl', hd', listed'⟩ := exists_discover host turns'
  obtain rfl : label = label' := Option.some_inj.mp (hl.symm.trans hl')
  have hm : servers.map shown = servers'.map shown := by
    let k (p : Option Text × UInt16 × List DiscoveredAddress) : ServerKey :=
      toLex (p.fst.map bytesOf, p.snd.fst.toNat)
    refine SortedBy.map_ext (k := k) (fun _ => rfl) listed.sorted listed'.sorted fun p => ?_
    exact ⟨listed.shown_of_mem listed' h, listed'.shown_of_mem listed h.symm⟩
  rw [hd, hd', Option.map_some, Option.map_some, hm]

def eth0 : InterfaceId :=
  ⟨"eth0".toList, 2⟩

def laptop : Host :=
  ⟨true, some "laptop".toList, fun _ => []⟩

def answer (addresses : List ScopedIp) : Turn :=
  ⟨1000, .event <| .serviceResolved ⟨5201, "box.local.".toList, some "0.13.0".toList, addresses⟩⟩

-- An address on the link and one of the local network, answered apart or together and twice.
theorem discover_converges_twice :
    (discover laptop [answer [.v6 0xFE800000000000000000000000000002 eth0], answer [.v4 0xC0A80114]]).map
        (·.map shown) =
      (discover laptop [
        answer [.v4 0xC0A80114, .v6 0xFE800000000000000000000000000002 eth0],
        ⟨900, .elapsed⟩,
        answer [.v4 0xC0A80114]
      ]).map (·.map shown) := by
  refine discover_converges _ _ _ (Set.ext fun p => ?_)
  simp [answerSet, heard, answer, ServiceInfo.key]
  tauto

end Discover
