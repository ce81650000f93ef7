import Xfr.Serve.Restored

open Utf8 (Text)

-- A connection which opened with a `DataHello`. Whoever opened it chose everything but the address.
structure DataConnection where
  peerIp      : IpAddr
  testId      : Text
  streamIndex : UInt16

-- The task of a stream, and the position of the statistics which it was given.
structure DataHandler where
  connection : DataConnection
  stream     : Nat

-- Whether a test collects its streams, and which of them it has.
inductive Collection
  | idle
  | collecting (received : List Bool)
  | done

-- Connections whose test was looked up wait until the channel to that test has room. `σ` is what is
-- kept about a stream.
structure DataStreams (ι σ : Type*) where
  server     : Server ι
  sending    : List (ι × DataConnection)
  channel    : ι → List DataConnection
  collection : ι → Collection
  handlers   : ι → List DataHandler
  stats      : ι → List σ

inductive DataEvent (ι σ : Type*)
  | session (x : ι) (e : Server.Event)
  | hello (c : DataConnection)
  -- The connection at a position is sent, or dropped with its channel.
  | send (k : Nat)
  | collect (x : ι)
  | receive (x : ι)
  -- Everything is collected, or the test is cancelled, or it takes too long.
  | stopCollecting (x : ι)
  -- The handler at a position updates its statistics.
  | transfer (x : ι) (k : Nat) (update : σ → σ)

namespace DataStreams

variable {ι σ : Type*} [DecidableEq ι]

def init (tests : ι → TestStart) (new : Nat → σ) : DataStreams ι σ where
  server       := .init
  sending      := []
  channel _    := []
  collection _ := .idle
  handlers _   := []
  stats x      := (List.range (tests x).streams).map new

-- The lookup and the comparison of addresses are made under the lock, the rest is not.
def routeDataHello (s : DataStreams ι σ) (c : DataConnection) : DataStreams ι σ :=
  match s.server.activeTests c.testId with
  | none   => s
  | some t =>
    if t.controlPeerIp.normalize ≠ c.peerIp.normalize then s else
      match t.dataStreamTx with
      | none    => s
      | some tx => { s with sending := s.sending ++ [(tx, c)] }

def enqueue (s : DataStreams ι σ) (x : ι) (c : DataConnection) : DataStreams ι σ :=
  { s with channel := Function.update s.channel x (s.channel x ++ [c]) }

def collect (s : DataStreams ι σ) (x : ι) (collection : Collection) : DataStreams ι σ :=
  { s with collection := Function.update s.collection x collection }

-- The receiver takes its channel with it.
def stopCollecting (s : DataStreams ι σ) (x : ι) : DataStreams ι σ :=
  { s.collect x .done with channel := Function.update s.channel x [] }

def spawn (s : DataStreams ι σ) (x : ι) (d : DataHandler) : DataStreams ι σ :=
  { s with handlers := Function.update s.handlers x (s.handlers x ++ [d]) }

-- The next connection of a test. It is dropped if its stream is out of range or already there.
def accept (s : DataStreams ι σ) (x : ι) (numStreams : Nat) (received : List Bool)
    (c : DataConnection) : DataStreams ι σ :=
  let i := c.streamIndex.toNat
  if i ≥ numStreams then s
  else if received[i]? = some true then s
  else (s.collect x (.collecting (received.set i true))).spawn x { connection := c, stream := i }

def step (tests : ι → TestStart) : System (DataStreams ι σ) (DataEvent ι σ)
  | _, .session _ (.dataHello _) => none
  | s, .session x e => (Server.step tests s.server (x, e)).map fun server => { s with server }
  | s, .hello c => some (s.routeDataHello c)
  | s, .send k =>
    match s.sending[k]? with
    | none        => none
    | some (x, c) =>
      let s' := { s with sending := s.sending.eraseIdx k }
      match s.collection x with
      | .done => some s'
      | _     => if (s.channel x).length < (tests x).streams then some (s'.enqueue x c) else none
  | s, .collect x =>
    match s.collection x with
    | .idle => some (s.collect x (.collecting (List.replicate (tests x).streams false)))
    | _     => none
  | s, .receive x =>
    match s.collection x, s.channel x with
    | .collecting received, c :: channel =>
      if received.any (!·) then
        some <| accept { s with channel := Function.update s.channel x channel } x
          (tests x).streams received c
      else
        none
    | _, _ => none
  | s, .stopCollecting x => some (s.stopCollecting x)
  | s, .transfer x k update =>
    match (s.handlers x)[k]? with
    | none   => none
    | some d => some { s with stats := Function.update s.stats x ((s.stats x).modify d.stream update) }

end DataStreams

-- A connection from where the control connection of the test comes from.
structure DataConnection.Fits (c : DataConnection) (test : TestStart) : Prop where
  testId : c.testId = test.id
  peerIp : c.peerIp.normalize = test.peerIp.normalize

-- A task for the stream which its connection asked for.
structure DataHandler.Fits (d : DataHandler) (test : TestStart) : Prop where
  connection : d.connection.Fits test
  stream     : d.stream = d.connection.streamIndex.toNat
  lt         : d.stream < test.streams

-- What has been collected covers all the streams which have a task.
def Collection.Covers (streams : Nat) (handlers : List DataHandler) : Collection → Prop
  | .idle                => handlers = []
  | .collecting received =>
    received.length = streams ∧ ∀ d ∈ handlers, received[d.stream]? = some true
  | .done                => True

namespace DataStreams

variable {ι σ : Type*} {tests : ι → TestStart} {new : Nat → σ}
  {s s' : DataStreams ι σ} {x : ι} {c : DataConnection} {d : DataHandler}

structure Inv (tests : ι → TestStart) (s : DataStreams ι σ) : Prop where
  activeTests : ∀ id t, s.server.activeTests id = some t →
                  ∃ x, (tests x).id = id ∧ (tests x).activeTest x = t
  sending     : ∀ p ∈ s.sending, p.2.Fits (tests p.1)
  channel     : ∀ x, ∀ c ∈ s.channel x, c.Fits (tests x)
  handlers    : ∀ x, ∀ d ∈ s.handlers x, d.Fits (tests x)
  nodup       : ∀ x, ((s.handlers x).map (·.stream)).Nodup
  covers      : ∀ x, (s.collection x).Covers (tests x).streams (s.handlers x)
  stats       : ∀ x, (s.stats x).length = (tests x).streams

namespace Inv

theorem init : Inv tests (init tests new) where
  activeTests := by simp [DataStreams.init, Server.init]
  sending     := by simp [DataStreams.init]
  channel     := by simp [DataStreams.init]
  handlers    := by simp [DataStreams.init]
  nodup       := by simp [DataStreams.init]
  covers x    := rfl
  stats       := by simp [DataStreams.init]

theorem routeDataHello (inv : Inv tests s) : Inv tests (s.routeDataHello c) := by
  unfold DataStreams.routeDataHello
  split
  case h_1 => exact inv
  case h_2 t ht =>
    split
    case isTrue => exact inv
    case isFalse hip =>
      split
      case h_1 => exact inv
      case h_2 tx htx =>
        have ⟨x, hid, he⟩ := inv.activeTests c.testId t ht
        subst he
        have hx : tx = x := TestStart.dataStreamTx_eq htx
        have fits : c.Fits (tests x) := ⟨hid.symm, (not_not.mp hip).symm⟩
        refine { inv with sending := fun p hp => ?_ }
        cases List.mem_append.mp hp
        case inl hp => exact inv.sending p hp
        case inr hp => exact List.mem_singleton.mp hp ▸ hx ▸ fits

theorem eraseIdx {k : Nat} (inv : Inv tests s) :
    Inv tests { s with sending := s.sending.eraseIdx k } :=
  { inv with sending := fun p hp => inv.sending p (List.mem_of_mem_eraseIdx hp) }

variable [DecidableEq ι]

theorem server {e : Server.Event} {server : Server ι} (inv : Inv tests s)
    (h : Server.step tests s.server (x, e) = some server) : Inv tests { s with server } where
  __ := inv
  activeTests id t ht := by
    have hi := inv.activeTests
    cases Server.step_cases h
    case start =>
      simp only [Server.goto_activeTests, Server.insert_activeTests, update_some_eq_some] at ht
      cases ht
      case inl ht => exact ⟨x, ht.left.symm, ht.right⟩
      case inr ht => exact hi id t ht.right
    case ackFailed =>
      simp only [Server.goto_activeTests, Server.removeActiveTest_activeTests,
        update_none_eq_some] at ht
      exact hi id t ht.right
    case cleanup =>
      simp only [Server.goto_activeTests, Server.removeActiveTest_activeTests,
        update_none_eq_some] at ht
      exact hi id t ht.right
    all_goals exact hi id t (by simpa using ht)

theorem enqueue (inv : Inv tests s) (fits : c.Fits (tests x)) : Inv tests (s.enqueue x c) := by
  refine { inv with channel := fun y c' hc => ?_ }
  by_cases hy : y = x
  case pos =>
    subst hy
    simp only [DataStreams.enqueue, Function.update_self, List.mem_append, List.mem_singleton] at hc
    cases hc
    case inl hc => exact inv.channel y c' hc
    case inr hc => exact hc ▸ fits
  case neg => exact inv.channel y c' (by simpa [DataStreams.enqueue, hy] using hc)

theorem setChannel {channel : List DataConnection} (inv : Inv tests s)
    (h : ∀ c ∈ channel, c ∈ s.channel x) :
    Inv tests { s with channel := Function.update s.channel x channel } := by
  refine { inv with channel := fun y c hc => ?_ }
  by_cases hy : y = x
  case pos =>
    subst hy
    exact inv.channel y c (h c (by simpa using hc))
  case neg => exact inv.channel y c (by simpa [hy] using hc)

theorem collect {collection : Collection} (inv : Inv tests s)
    (h : collection.Covers (tests x).streams (s.handlers x)) :
    Inv tests (s.collect x collection) := by
  refine { inv with covers := fun y => ?_ }
  by_cases hy : y = x
  case pos =>
    subst hy
    simpa [DataStreams.collect] using h
  case neg => simpa [DataStreams.collect, hy] using inv.covers y

theorem spawn (inv : Inv tests s) (fits : d.Fits (tests x))
    (fresh : ∀ d' ∈ s.handlers x, d'.stream ≠ d.stream)
    (h : (s.collection x).Covers (tests x).streams (s.handlers x ++ [d])) :
    Inv tests (s.spawn x d) := by
  refine { inv with handlers := fun y d' hd => ?_, nodup := fun y => ?_, covers := fun y => ?_ }
  all_goals
    by_cases hy : y = x
    case neg =>
      simp only [DataStreams.spawn, Function.update_of_ne hy] at *
      first | exact inv.handlers y d' hd | exact inv.nodup y | exact inv.covers y
  all_goals
    subst hy
    simp only [DataStreams.spawn, Function.update_self, List.mem_append, List.mem_singleton] at *
  · cases hd
    case inl hd => exact inv.handlers y d' hd
    case inr hd => exact hd ▸ fits
  · rw [List.map_append, List.map_singleton, List.nodup_append]
    refine ⟨inv.nodup y, List.nodup_singleton _, fun i hi j hj => ?_⟩
    have ⟨d', hd, hs⟩ := List.mem_map.mp hi
    exact List.mem_singleton.mp hj ▸ hs ▸ fresh d' hd
  · exact h

-- A task for a stream which has none yet.
theorem accept {received : List Bool} (inv : Inv tests s) (fits : c.Fits (tests x))
    (h : s.collection x = .collecting received) :
    Inv tests (s.accept x (tests x).streams received c) := by
  have ⟨hl, hc⟩ : (Collection.collecting received).Covers (tests x).streams (s.handlers x) :=
    h ▸ inv.covers x
  unfold DataStreams.accept
  dsimp only
  split
  case isTrue => exact inv
  case isFalse hi =>
    split
    case isTrue => exact inv
    case isFalse hr =>
      have hi : c.streamIndex.toNat < received.length := by omega
      have hset (d : DataHandler) (hd : d ∈ s.handlers x) :
          (received.set c.streamIndex.toNat true)[d.stream]? = some true := by
        by_cases he : c.streamIndex.toNat = d.stream
        case pos => rw [← he, List.getElem?_set_self hi]
        case neg => rw [List.getElem?_set_ne he, hc d hd]
      have covers : (Collection.collecting (received.set c.streamIndex.toNat true)).Covers
          (tests x).streams (s.handlers x) := ⟨by simpa using hl, hset⟩
      refine (inv.collect covers).spawn ⟨fits, rfl, hl ▸ hi⟩ ?_ ?_
      · intro d hd he
        have he : d.stream = c.streamIndex.toNat := he
        exact hr (he ▸ hc d hd)
      · simp only [DataStreams.collect, Function.update_self]
        refine ⟨by simpa using hl, fun d hd => ?_⟩
        cases List.mem_append.mp hd
        case inl hd => exact hset d hd
        case inr hd => rw [List.mem_singleton.mp hd, List.getElem?_set_self hi]

theorem transfer {d : DataHandler} {update : σ → σ} (inv : Inv tests s) :
    Inv tests { s with stats := Function.update s.stats x ((s.stats x).modify d.stream update) } := by
  refine { inv with stats := fun y => ?_ }
  by_cases hy : y = x
  case pos =>
    subst hy
    simpa using inv.stats y
  case neg => simpa [hy] using inv.stats y

theorem step {e : DataEvent ι σ} (inv : Inv tests s) (h : step tests s e = some s') :
    Inv tests s' := by
  cases e
  case session x e =>
    cases e
    case dataHello => contradiction
    all_goals
      have ⟨server, hs, he⟩ := Option.map_eq_some_iff.mp h
      exact he ▸ inv.server hs
  case hello c => exact Option.some_inj.mp h ▸ inv.routeDataHello
  case send k =>
    unfold DataStreams.step at h
    dsimp only at h
    split at h
    case h_1 => contradiction
    case h_2 x c hk =>
      have fits := inv.sending (x, c) (List.mem_of_getElem? hk)
      split at h
      case h_1 => exact Option.some_inj.mp h ▸ inv.eraseIdx
      case h_2 =>
        split at h
        case isTrue  => exact Option.some_inj.mp h ▸ inv.eraseIdx.enqueue fits
        case isFalse => contradiction
  case collect x =>
    unfold DataStreams.step at h
    dsimp only at h
    split at h
    case h_1 hx =>
      have hc : Collection.idle.Covers (tests x).streams (s.handlers x) := hx ▸ inv.covers x
      have hc : s.handlers x = [] := hc
      refine Option.some_inj.mp h ▸ inv.collect ?_
      simp [Collection.Covers, hc]
    case h_2 => contradiction
  case receive x =>
    unfold DataStreams.step at h
    dsimp only at h
    split at h
    case h_2 => contradiction
    case h_1 received c channel hx hc =>
      split at h
      case isFalse => contradiction
      case isTrue =>
        have hm : ∀ c' ∈ channel, c' ∈ s.channel x := fun c' h => hc ▸ List.mem_cons_of_mem c h
        have fits := inv.channel x c (hc ▸ List.mem_cons_self)
        exact Option.some_inj.mp h ▸ (inv.setChannel hm).accept fits hx
  case stopCollecting x =>
    have done : Inv tests (s.collect x .done) := inv.collect trivial
    exact Option.some_inj.mp h ▸ done.setChannel (by simp)
  case transfer x k update =>
    unfold DataStreams.step at h
    dsimp only at h
    split at h
    case h_1 => contradiction
    case h_2 => exact Option.some_inj.mp h ▸ inv.transfer

theorem run {events : List (DataEvent ι σ)}
    (h : (DataStreams.step tests).run (DataStreams.init tests new) events = some s) :
    Inv tests s :=
  System.run_invariant (fun inv hs => step inv hs) init h

end Inv
variable [DecidableEq ι] {e : DataEvent ι σ}

-- Statistics are only touched by the tasks which were given them.
theorem step_stats (h : step tests s e = some s') : s'.stats = s.stats ∨
    ∃ x k update d, e = .transfer x k update ∧ (s.handlers x)[k]? = some d ∧
      s'.stats = Function.update s.stats x ((s.stats x).modify d.stream update) := by
  cases e
  case transfer x k update =>
    unfold step at h
    dsimp only at h
    split at h
    case h_1       => contradiction
    case h_2 d hk  => exact .inr ⟨x, k, update, d, rfl, hk, Option.some_inj.mp h ▸ rfl⟩
  case session x e =>
    cases e
    case dataHello => contradiction
    all_goals
      have ⟨server, _, he⟩ := Option.map_eq_some_iff.mp h
      exact .inl (he ▸ rfl)
  all_goals
    left
    unfold step at h
    dsimp only at h
  case hello c =>
    rw [← Option.some_inj.mp h, routeDataHello]
    repeat' split
    all_goals rfl
  case send k =>
    repeat' split at h
    all_goals first | contradiction | exact Option.some_inj.mp h ▸ rfl
  case collect x =>
    split at h
    case h_1 => exact Option.some_inj.mp h ▸ rfl
    case h_2 => contradiction
  case receive x =>
    repeat' split at h
    case h_1.isTrue =>
      rw [← Option.some_inj.mp h, accept]
      repeat' split
      all_goals rfl
    all_goals contradiction
  case stopCollecting x => exact Option.some_inj.mp h ▸ rfl

-- Whatever connections there are, and from wherever: a test starts one task for each stream at most,
-- for its own streams and its own client, and a task keeps to the statistics of its stream.
theorem collection_sound (tests : ι → TestStart) (new : Nat → σ) (events : List (DataEvent ι σ))
    (s : DataStreams ι σ) (h : (step tests).run (init tests new) events = some s) (x : ι) :
    ((s.handlers x).map (·.stream)).Nodup ∧
    (∀ d ∈ s.handlers x, d.stream = d.connection.streamIndex.toNat ∧
      d.stream < (tests x).streams ∧ d.connection.testId = (tests x).id ∧
      d.connection.peerIp.normalize = (tests x).peerIp.normalize) ∧
    ∀ e s' (j : Nat), step tests s e = some s' → (s'.stats x)[j]? ≠ (s.stats x)[j]? →
      ∃ k update d, e = .transfer x k update ∧ (s.handlers x)[k]? = some d ∧ d.stream = j := by
  have inv := Inv.run h
  refine ⟨inv.nodup x, fun d hd => ?_, fun e s' j hs hne => ?_⟩
  · have fits := inv.handlers x d hd
    exact ⟨fits.stream, fits.lt, fits.connection.testId, fits.connection.peerIp⟩
  · cases step_stats hs
    case inl hs => exact absurd (by rw [hs]) hne
    case inr hs =>
      have ⟨y, k, update, d, he, hk, hs⟩ := hs
      by_cases hx : x = y
      case neg => exact absurd (by rw [hs, Function.update_of_ne hx]) hne
      case pos =>
        subst hx
        refine ⟨k, update, d, he, hk, ?_⟩
        rw [hs, Function.update_self] at hne
        by_contra hj
        exact hne (List.getElem?_modify_ne update _ hj)

-- A forged connection before that of the client, and another one after it.
def forged : List (DataEvent Unit Nat) :=
  [ .session () .start, .collect (),
    .hello { peerIp := .v4 2, testId := ['a'], streamIndex := 0 },
    .hello { peerIp := .mapped 1, testId := ['a'], streamIndex := 0 },
    .hello { peerIp := .v4 1, testId := ['a'], streamIndex := 0 },
    .send 0, .receive (), .send 0, .transfer () 0 (· + 1400) ]

def forgedTest : Unit → TestStart :=
  fun _ => { id := ['a'], protocol := .tcp, singlePort := true, streams := 2, peerIp := .v4 1 }

theorem collection_sound_forged : ∃ s : DataStreams Unit Nat,
    (step forgedTest).run (init forgedTest fun _ => 0) forged = some s ∧
    (s.handlers ()).length = 1 ∧ s.stats () = [1400, 0] ∧
    ((s.handlers ()).map (·.stream)).Nodup :=
  ⟨_, rfl, rfl, rfl, (collection_sound forgedTest (fun _ => 0) forged _ rfl ()).left⟩

end DataStreams
