import Xfr.Access.HostPort
import Xfr.Udp.Receive

-- The socket which QUIC shares with the hellos of UDP tests: hellos are diverted to their dispatcher,
-- and QUIC gets the rest of a batch as if it had been received without them.
namespace LaneTee

structure RecvMeta where
  addr   : ScopedAddr
  len    : Nat
  stride : Nat
  ecn    : Option (BitVec 2)
  dstIp  : Option IpAddr
  deriving DecidableEq

-- What was received into one buffer. With receive offload, this may be several datagrams of the same
-- size and a shorter one at the end.
structure Entry where
  info : RecvMeta
  data : Bytes
  len  : data.length = info.len

-- The buffers which are handed to the socket, all of the same size, and their metadata.
structure Slots where
  bufs : List Bytes
  info : List RecvMeta

structure Slots.Sized (s : Slots) (count size : Nat) : Prop where
  bufs : s.bufs.length = count
  info : s.info.length = count
  size : ∀ buf ∈ s.bufs, buf.length = size

-- A poll of the socket inside. A batch fits into the buffers it was received with.
inductive InnerPoll (count size : Nat)
  | pending
  | error (e : ErrorKind)
  | ready (batch : List Entry) (fits : batch.length ≤ count ∧ ∀ e ∈ batch, e.info.len ≤ size)

def Slots.fill (s : Slots) (batch : List Entry) : Slots where
  bufs := List.zipWith (fun e buf => e.data ++ buf.drop e.info.len) batch s.bufs ++
    s.bufs.drop batch.length
  info := batch.map (·.info) ++ s.info.drop batch.length

-- The channel to the dispatcher of hellos.
structure HelloChannel where
  capacity : Nat
  queue    : List (Bytes × ScopedAddr)
  closed   : Bool

def HelloChannel.trySend (c : HelloChannel) (hello : Bytes × ScopedAddr) : HelloChannel :=
  if c.closed ∨ c.capacity ≤ c.queue.length then c else { c with queue := c.queue ++ [hello] }

-- The state of the loop over a batch, with what was offered to the channel so far.
structure Pass where
  slots   : Slots
  channel : HelloChannel
  offered : List (Bytes × ScopedAddr)
  kept    : Nat

def Pass.offer (p : Pass) (hello : Bytes × ScopedAddr) : Pass where
  __ := p
  channel := p.channel.trySend hello
  offered := p.offered ++ [hello]

-- Moves an entry down to the next slot of the kept ones. An index out of range is a panic.
def Pass.compact (p : Pass) (i : Nat) (datagram : Bytes) (m : RecvMeta) : Option Pass :=
  if p.kept = i then
    some { p with kept := p.kept + 1 }
  else do
    guard (p.kept < i)
    let front ← p.slots.bufs[p.kept]?
    if front.length < datagram.length then
      return p
    else
      guard (p.kept < p.slots.info.length)
      return {
        slots := {
          bufs := p.slots.bufs.set p.kept (datagram ++ front.drop datagram.length)
          info := p.slots.info.set p.kept m }
        channel := p.channel
        offered := p.offered
        kept    := p.kept + 1 }

def Pass.step (p : Pass) (i : Nat) : Option Pass := do
  let m ← p.slots.info[i]?
  let buf ← p.slots.bufs[i]?
  let len := min m.len buf.length
  match classifySharedDatagram (buf.take len) with
  | .quic     => p.compact i (buf.take len) m
  | .xfrHello => return p.offer (buf.take len, m.addr)
  | .xfrStray => return p

def divert (p : Pass) (n : Nat) : Option Pass :=
  (List.range n).foldlM Pass.step p

def MAX_DIVERT_ITERATIONS : Nat :=
  16

inductive Poll
  | pending
  | error (e : ErrorKind)
  | ready (n : Nat)
  deriving DecidableEq

-- What a call leaves behind. It was woken if it asked to be polled again.
structure Polled (count size : Nat) where
  poll    : Poll
  woken   : Bool
  slots   : Slots
  channel : HelloChannel
  offered : List (Bytes × ScopedAddr)
  diverts : Nat
  inner   : List (InnerPoll count size)

variable {count size : Nat}

def pollLoop (divertIterations : Nat) (slots : Slots) (channel : HelloChannel)
    (offered : List (Bytes × ScopedAddr)) :
    List (InnerPoll count size) → Option (Polled count size)
  | [] => some ⟨.pending, false, slots, channel, offered, divertIterations, []⟩
  | .pending :: inner => some ⟨.pending, false, slots, channel, offered, divertIterations, inner⟩
  | .error e :: inner => some ⟨.error e, false, slots, channel, offered, divertIterations, inner⟩
  | .ready batch _ :: inner => do
    let p ← divert ⟨slots.fill batch, channel, offered, 0⟩ batch.length
    if 0 < p.kept ∨ batch.length = 0 then
      return ⟨.ready p.kept, false, p.slots, p.channel, p.offered, divertIterations, inner⟩
    else if MAX_DIVERT_ITERATIONS ≤ divertIterations + 1 then
      return ⟨.pending, true, p.slots, p.channel, p.offered, divertIterations + 1, inner⟩
    else
      pollLoop (divertIterations + 1) p.slots p.channel p.offered inner

def pollRecv (slots : Slots) (channel : HelloChannel) (inner : List (InnerPoll count size)) :
    Option (Polled count size) :=
  pollLoop 0 slots channel [] inner

-- Datagrams as they were sent, and what QUIC learns of each.
structure Datagram where
  bytes : Bytes
  addr  : ScopedAddr
  ecn   : Option (BitVec 2)
  dstIp : Option IpAddr
  deriving DecidableEq

def segments (stride : Nat) : Nat → Bytes → List Bytes
  | 0,     _ => []
  | k + 1, s => if s = [] then [] else s.take stride :: segments stride k (s.drop stride)

def RecvMeta.datagrams (m : RecvMeta) (data : Bytes) : List Datagram :=
  (if m.stride = 0 then [data] else segments m.stride data.length data).map fun bytes =>
    ⟨bytes, m.addr, m.ecn, m.dstIp⟩

def Entry.datagrams (e : Entry) : List Datagram :=
  e.info.datagrams e.data

def Entry.lane (e : Entry) : SharedSocketLane :=
  classifySharedDatagram e.data

def Datagram.lane (d : Datagram) : SharedSocketLane :=
  classifySharedDatagram d.bytes

def Datagram.hello (d : Datagram) : Bytes × ScopedAddr :=
  (d.bytes, d.addr)

def Entry.hello (e : Entry) : Bytes × ScopedAddr :=
  (e.data, e.info.addr)

-- What QUIC reads from the first buffers.
def Slots.view (s : Slots) (n : Nat) : List Datagram :=
  ((s.info.zip s.bufs).take n).flatMap fun (m, buf) => m.datagrams (buf.take m.len)

def quics (batch : List Entry) : List Entry :=
  batch.filter (·.lane = .quic)

def hellos (batch : List Entry) : List Entry :=
  batch.filter (·.lane = .xfrHello)

variable {s s' : Slots} {batch : List Entry} {p p' start : Pass} {e e' : Entry} {i j n : Nat}

structure Holds (s : Slots) (j : Nat) (e : Entry) : Prop where
  info : s.info[j]? = some e.info
  buf  : ∃ rest, s.bufs[j]? = some (e.data ++ rest)

-- While a batch is gone through, the entries of QUIC are in front, and those to come are untouched.
structure Compacted (count size : Nat) (batch : List Entry) (start : Pass) (i : Nat) (p : Pass) :
    Prop where
  sized   : p.slots.Sized count size
  kept    : p.kept = (quics (batch.take i)).length
  front   : ∀ j e, (quics (batch.take i))[j]? = some e → Holds p.slots j e
  back    : ∀ j e, i ≤ j → batch[j]? = some e → Holds p.slots j e
  offered : p.offered = start.offered ++ (hellos (batch.take i)).map Entry.hello
  channel : p.channel = ((hellos (batch.take i)).map Entry.hello).foldl .trySend start.channel

theorem Compacted.kept_le (c : Compacted count size batch start i p) : p.kept ≤ i := by
  rw [c.kept]
  exact (List.length_filter_le _ _).trans (List.length_take_le _ _)

theorem take_succ_of_getElem? (h : batch[i]? = some e) : batch.take (i + 1) = batch.take i ++ [e] := by
  rw [List.take_add_one, h]
  rfl

theorem quics_concat : quics (batch ++ [e]) = quics batch ++ if e.lane = .quic then [e] else [] := by
  simp only [quics, List.filter_append, List.filter_cons, List.filter_nil]
  split <;> simp_all

theorem hellos_concat :
    hellos (batch ++ [e]) = hellos batch ++ if e.lane = .xfrHello then [e] else [] := by
  simp only [hellos, List.filter_append, List.filter_cons, List.filter_nil]
  split <;> simp_all

theorem Holds.set (h : Holds s j e) (hj : j ≠ i) {buf : Bytes} {m : RecvMeta} :
    Holds ⟨s.bufs.set i buf, s.info.set i m⟩ j e where
  info := by rw [List.getElem?_set_ne hj.symm]; exact h.info
  buf  := by simpa only [List.getElem?_set_ne hj.symm] using h.buf

theorem Slots.Sized.set (h : s.Sized count size) {buf : Bytes} {m : RecvMeta} (hb : buf.length = size) :
    Slots.Sized ⟨s.bufs.set i buf, s.info.set i m⟩ count size where
  bufs := List.length_set.trans h.bufs
  info := List.length_set.trans h.info
  size := fun b hm => (List.mem_or_eq_of_mem_set hm).elim (h.size b) fun he => he ▸ hb

-- What a step makes of the entry it comes to.
theorem Compacted.step_of_holds (c : Compacted count size batch start i p) (h : batch[i]? = some e) :
    p.step i = match e.lane with
      | .quic     => p.compact i e.data e.info
      | .xfrHello => some (p.offer e.hello)
      | .xfrStray => some p := by
  have hh := c.back i e (Nat.le_refl i) h
  have ⟨rest, hb⟩ := hh.buf
  have hl : min e.info.len (e.data ++ rest).length = e.data.length := by
    rw [List.length_append, e.len]
    omega
  simp only [Pass.step, hh.info, hb, hl, List.take_left', Option.bind_eq_bind, Option.bind_some]
  rfl

theorem getElem?_concat_cases {α : Type*} {l : List α} {x y : α} (h : (l ++ [x])[j]? = some y) :
    l[j]? = some y ∧ j < l.length ∨ j = l.length ∧ x = y := by
  rcases Nat.lt_trichotomy j l.length with hl | he | hg
  · exact .inl ⟨by rwa [List.getElem?_append_left hl] at h, hl⟩
  · exact .inr ⟨he, by simpa [he] using h⟩
  · rw [List.getElem?_eq_none (by simp; omega)] at h
    cases h

-- An entry of QUIC is added to the ones in front, with what it was received with.
theorem Compacted.compact (c : Compacted count size batch start i p) (h : batch[i]? = some e)
    (hl : e.lane = .quic) (fits : batch.length ≤ count ∧ ∀ e ∈ batch, e.info.len ≤ size) :
    ∃ p', p.compact i e.data e.info = some p' ∧ Compacted count size batch start (i + 1) p' := by
  have hk := c.kept_le
  have hi : i < batch.length := (List.getElem?_eq_some_iff.mp h).1
  have hq : quics (batch.take (i + 1)) = quics (batch.take i) ++ [e] := by
    rw [take_succ_of_getElem? h, quics_concat, if_pos hl]
  have hn : hellos (batch.take (i + 1)) = hellos (batch.take i) := by
    rw [take_succ_of_getElem? h, hellos_concat, if_neg (by rw [hl]; decide), List.append_nil]
  have hlen : p.kept + 1 = (quics (batch.take (i + 1))).length := by
    rw [hq, List.length_append, ← c.kept]
    rfl
  by_cases he : p.kept = i
  case pos =>
    refine ⟨{ p with kept := p.kept + 1 }, if_pos he, ?_⟩
    exact {
      sized   := c.sized
      kept    := hlen
      front j e' hj := by
        rw [hq] at hj
        cases getElem?_concat_cases hj
        case inl hj => exact c.front j e' hj.left
        case inr hj =>
          have hji : j = i := hj.left.trans (c.kept.symm.trans he)
          exact hj.right ▸ hji ▸ c.back i e (Nat.le_refl i) h
      back j e' hj := c.back j e' (Nat.le_of_succ_le hj)
      offered := hn ▸ c.offered
      channel := hn ▸ c.channel }
  case neg =>
    have hlt : p.kept < i := Nat.lt_of_le_of_ne hk he
    have hb : p.kept < p.slots.bufs.length := by rw [c.sized.bufs]; omega
    have hm : p.kept < p.slots.info.length := by rw [c.sized.info]; omega
    have hs : e.data.length ≤ size := e.len ▸ fits.right e (List.mem_of_getElem? h)
    have hf : p.slots.bufs[p.kept].length = size := c.sized.size _ (List.getElem_mem hb)
    have hnl : ¬p.slots.bufs[p.kept].length < e.data.length := by omega
    refine ⟨⟨⟨p.slots.bufs.set p.kept (e.data ++ p.slots.bufs[p.kept].drop e.data.length),
      p.slots.info.set p.kept e.info⟩, p.channel, p.offered, p.kept + 1⟩, ?_, ?_⟩
    case refine_1 =>
      simp [Pass.compact, if_neg he, hlt, hm, List.getElem?_eq_getElem hb, if_neg hnl, guard]
    case refine_2 =>
      exact {
        sized   := c.sized.set (by rw [List.length_append, List.length_drop]; omega)
        kept    := hlen
        front j e' hj := by
          rw [hq] at hj
          cases getElem?_concat_cases hj
          case inl hj => exact (c.front j e' hj.left).set (by rw [c.kept]; exact Nat.ne_of_lt hj.right)
          case inr hj =>
            have hjk : j = p.kept := hj.left.trans c.kept.symm
            rw [← hj.right, hjk]
            exact ⟨List.getElem?_set_self hm, _, List.getElem?_set_self hb⟩
        back j e' hj hj' := (c.back j e' (Nat.le_of_succ_le hj) hj').set (by omega)
        offered := hn ▸ c.offered
        channel := hn ▸ c.channel }

theorem Compacted.step (c : Compacted count size batch start i p) (h : batch[i]? = some e)
    (fits : batch.length ≤ count ∧ ∀ e ∈ batch, e.info.len ≤ size) :
    ∃ p', p.step i = some p' ∧ Compacted count size batch start (i + 1) p' := by
  rw [c.step_of_holds h]
  have hq := @quics_concat (batch.take i) e
  have hh := @hellos_concat (batch.take i) e
  rw [← take_succ_of_getElem? h] at hq hh
  cases hl : e.lane
  case quic => exact c.compact h hl fits
  case xfrHello =>
    simp only [hl, reduceCtorEq, if_false, if_true, List.append_nil] at hq hh
    exact ⟨_, rfl, {
      sized   := c.sized
      kept    := hq ▸ c.kept
      front   := hq ▸ c.front
      back j e' hj := c.back j e' (Nat.le_of_succ_le hj)
      offered := by rw [hh, Pass.offer, c.offered, List.map_append, ← List.append_assoc]; rfl
      channel := by rw [hh, Pass.offer, c.channel, List.map_append, List.foldl_append]; rfl }⟩
  case xfrStray =>
    simp only [hl, reduceCtorEq, if_false, List.append_nil] at hq hh
    exact ⟨_, rfl, {
      sized   := c.sized
      kept    := hq ▸ c.kept
      front   := hq ▸ c.front
      back j e' hj := c.back j e' (Nat.le_of_succ_le hj)
      offered := hh ▸ c.offered
      channel := hh ▸ c.channel }⟩

theorem Slots.Sized.fill (h : s.Sized count size)
    (fits : batch.length ≤ count ∧ ∀ e ∈ batch, e.info.len ≤ size) :
    (s.fill batch).Sized count size where
  bufs := by
    simp only [Slots.fill, List.length_append, List.length_zipWith, List.length_drop, h.bufs]
    omega
  info := by
    simp only [Slots.fill, List.length_append, List.length_map, List.length_drop, h.info]
    omega
  size := by
    intro buf hb
    cases List.mem_append.mp hb
    case inl hb =>
      have ⟨j, hj, hz⟩ := List.mem_iff_getElem.mp hb
      have ⟨hj₁, hj₂⟩ : j < batch.length ∧ j < s.bufs.length := by simpa using hj
      have hs := h.size s.bufs[j] (List.getElem_mem hj₂)
      have hl := fits.right batch[j] (List.getElem_mem hj₁)
      rw [← hz, List.getElem_zipWith, List.length_append, List.length_drop, batch[j].len]
      omega
    case inr hb => exact h.size buf (List.mem_of_mem_drop hb)

theorem holds_fill (h : s.Sized count size) (hn : batch.length ≤ count) (hj : batch[j]? = some e) :
    Holds (s.fill batch) j e where
  info := by
    have hl := (List.getElem?_eq_some_iff.mp hj).1
    rw [Slots.fill, List.getElem?_append_left (by simpa using hl), List.getElem?_map, hj]
    rfl
  buf := by
    have hl := (List.getElem?_eq_some_iff.mp hj).1
    have hb : j < s.bufs.length := by rw [h.bufs]; omega
    refine ⟨s.bufs[j].drop e.info.len, ?_⟩
    rw [Slots.fill, List.getElem?_append_left (by simp; omega), List.getElem?_zipWith, hj,
      List.getElem?_eq_getElem hb]

theorem compacted_fill {channel : HelloChannel} {offered : List (Bytes × ScopedAddr)}
    (h : s.Sized count size) (fits : batch.length ≤ count ∧ ∀ e ∈ batch, e.info.len ≤ size) :
    Compacted count size batch ⟨s.fill batch, channel, offered, 0⟩ 0
      ⟨s.fill batch, channel, offered, 0⟩ where
  sized   := h.fill fits
  kept    := rfl
  front _ _ hj := by simp [quics] at hj
  back _ _ _ hj := holds_fill h fits.left hj
  offered := (List.append_nil _).symm
  channel := rfl

-- A batch is gone through without a panic.
theorem divert_compacted (c : Compacted count size batch start 0 start)
    (fits : batch.length ≤ count ∧ ∀ e ∈ batch, e.info.len ≤ size) (hi : i ≤ batch.length) :
    ∃ p, divert start i = some p ∧ Compacted count size batch start i p := by
  induction i
  case zero => exact ⟨start, rfl, c⟩
  case succ i ih =>
    have ⟨p, hp, hc⟩ := ih (Nat.le_of_succ_le hi)
    have ⟨p', hs, hc'⟩ := hc.step (List.getElem?_eq_getElem hi) fits
    refine ⟨p', ?_, hc'⟩
    rw [divert] at hp ⊢
    rw [List.range_succ, List.foldlM_append, hp]
    simpa using hs

theorem Holds.datagrams {m : RecvMeta} {buf : Bytes} (h : Holds s j e) (hm : s.info[j]? = some m)
    (hb : s.bufs[j]? = some buf) : m.datagrams (buf.take m.len) = e.datagrams := by
  have ⟨rest, hr⟩ := h.buf
  obtain rfl : e.info = m := Option.some_inj.mp (h.info.symm.trans hm)
  obtain rfl : e.data ++ rest = buf := Option.some_inj.mp (hr.symm.trans hb)
  rw [← e.len, List.take_left]
  rfl

-- QUIC reads what its entries were.
theorem view_eq {entries : List Entry} (h : s.Sized count size) (hn : entries.length ≤ count)
    (hh : ∀ j e, entries[j]? = some e → Holds s j e) :
    s.view entries.length = entries.flatMap Entry.datagrams := by
  have hz : (s.info.zip s.bufs).length = count := by rw [List.length_zip, h.info, h.bufs, min_self]
  have hm : ((s.info.zip s.bufs).take entries.length).map (fun x => x.1.datagrams (x.2.take x.1.len)) =
      entries.map Entry.datagrams := by
    refine List.ext_getElem (by simp [hz]; omega) fun j hj hj' => ?_
    rw [List.length_map] at hj'
    have hi : j < s.info.length := by rw [h.info]; omega
    have hb : j < s.bufs.length := by rw [h.bufs]; omega
    simp only [List.getElem_map, List.getElem_take, List.getElem_zip]
    exact (hh j _ (List.getElem?_eq_getElem hj')).datagrams (List.getElem?_eq_getElem hi)
      (List.getElem?_eq_getElem hb)
  rw [Slots.view, List.flatMap_def, List.flatMap_def, ← hm]

theorem Compacted.view (c : Compacted count size batch start batch.length p)
    (hn : batch.length ≤ count) : p.kept = (quics batch).length ∧
      p.slots.view p.kept = (quics batch).flatMap Entry.datagrams := by
  have hk := c.kept
  rw [List.take_length] at hk
  have hf := c.front
  rw [List.take_length] at hf
  exact ⟨hk, hk ▸ view_eq c.sized ((List.length_filter_le _ _).trans hn) hf⟩

-- The batches which one call goes through: those without QUIC, as long as it does not yield, and the
-- one after them.
def examined : Nat → List (InnerPoll count size) → List (List Entry)
  | 0,     _                     => []
  | k + 1, .ready batch _ :: inner =>
    if batch = [] ∨ ∃ e ∈ batch, e.lane = .quic then [batch] else batch :: examined k inner
  | _,     _                     => []

def Polled.view (polled : Polled count size) : List Datagram :=
  match polled.poll with
  | .ready n => polled.slots.view n
  | _        => []

-- What a call does with the batches it goes through.
structure Passed (batches : List (List Entry)) (channel : HelloChannel)
    (offered : List (Bytes × ScopedAddr)) (polled : Polled count size) : Prop where
  view    : polled.view = (quics batches.flatten).flatMap Entry.datagrams
  offered : polled.offered = offered ++ (hellos batches.flatten).map Entry.hello
  channel : polled.channel = ((hellos batches.flatten).map Entry.hello).foldl .trySend channel
  empty   : polled.poll = .ready 0 → batches.getLast? = some []
  bounded : polled.diverts ≤ MAX_DIVERT_ITERATIONS
  yields  : polled.diverts = MAX_DIVERT_ITERATIONS → polled.poll = .pending ∧ polled.woken

theorem quics_append {more : List Entry} : quics (batch ++ more) = quics batch ++ quics more :=
  List.filter_append ..

theorem hellos_append {more : List Entry} : hellos (batch ++ more) = hellos batch ++ hellos more :=
  List.filter_append ..

theorem quics_eq_nil : quics batch = [] ↔ ¬∃ e ∈ batch, e.lane = .quic := by
  simp [quics]

variable {k d : Nat} {channel : HelloChannel} {offered : List (Bytes × ScopedAddr)}
variable {inner : List (InnerPoll count size)}

theorem passed_nothing {polled : Polled count size} (hv : polled.poll ≠ .ready 0 ∧ polled.view = [])
    (hp : polled.offered = offered ∧ polled.channel = channel ∧ polled.diverts = d)
    (hd : d < MAX_DIVERT_ITERATIONS) : Passed [] channel offered polled where
  view    := hv.right
  offered := by simpa [hellos] using hp.left
  channel := hp.right.left
  empty   := fun h => absurd h hv.left
  bounded := by rw [hp.right.right]; omega
  yields  := fun h => by rw [hp.right.right] at h; omega

theorem pollLoop_passed (h : s.Sized count size) (hd : d + (k + 1) = MAX_DIVERT_ITERATIONS) :
    ∃ polled, pollLoop d s channel offered inner = some polled ∧
      Passed (examined (k + 1) inner) channel offered polled := by
  have hl : d < MAX_DIVERT_ITERATIONS := by omega
  induction inner generalizing s k d channel offered
  case nil => exact ⟨_, rfl, passed_nothing ⟨nofun, rfl⟩ ⟨rfl, rfl, rfl⟩ hl⟩
  case cons poll inner hi =>
    cases poll
    case pending => exact ⟨_, rfl, passed_nothing ⟨nofun, rfl⟩ ⟨rfl, rfl, rfl⟩ hl⟩
    case error   => exact ⟨_, rfl, passed_nothing ⟨nofun, rfl⟩ ⟨rfl, rfl, rfl⟩ hl⟩
    case ready batch fits =>
      have hfill : Compacted count size batch ⟨s.fill batch, channel, offered, 0⟩ 0
          ⟨s.fill batch, channel, offered, 0⟩ := compacted_fill h fits
      have ⟨p, hp, c⟩ := divert_compacted hfill fits (Nat.le_refl batch.length)
      have ⟨hkept, hview⟩ := c.view fits.left
      have ho := c.offered
      have hc := c.channel
      rw [List.take_length] at ho hc
      have hlast : (0 < p.kept ∨ batch.length = 0) ↔ batch = [] ∨ ∃ e ∈ batch, e.lane = .quic := by
        rw [hkept, List.length_pos_iff, ne_eq, quics_eq_nil, not_not, List.length_eq_zero_iff, or_comm]
      simp only [pollLoop, hp, Option.bind_eq_bind, Option.bind_some, examined]
      by_cases hl : 0 < p.kept ∨ batch.length = 0
      case pos =>
        rw [if_pos hl, if_pos (hlast.mp hl)]
        refine ⟨_, rfl, ?_⟩
        exact {
          view    := by simpa [Polled.view] using hview
          offered := by simpa using ho
          channel := by simpa using hc
          empty   := fun hz => by
            have hz : p.kept = 0 := Poll.ready.inj hz
            have he : batch = [] := List.length_eq_zero_iff.mp (hl.resolve_left (by omega))
            rw [he]
            rfl
          bounded := by dsimp only; omega
          yields  := fun hm => by dsimp only at hm; omega }
      case neg =>
        have hb := hlast.not.mp hl
        have hq : quics batch = [] := quics_eq_nil.mpr fun he => hb (.inr he)
        rw [if_neg hl, if_neg hb]
        by_cases hm : MAX_DIVERT_ITERATIONS ≤ d + 1
        case pos =>
          have hk : k = 0 := by omega
          subst hk
          rw [if_pos hm]
          refine ⟨_, rfl, ?_⟩
          exact {
            view    := by simp [Polled.view, examined, hq]
            offered := by simpa [examined] using ho
            channel := by simpa [examined] using hc
            empty   := nofun
            bounded := by dsimp only; omega
            yields  := fun _ => ⟨rfl, rfl⟩ }
        case neg =>
          have ⟨k', hk'⟩ := Nat.exists_eq_succ_of_ne_zero (n := k) (by omega)
          subst hk'
          rw [if_neg hm]
          have ⟨polled, hpolled, r⟩ := @hi _ k' (d + 1) p.channel p.offered c.sized (by omega) (by omega)
          refine ⟨polled, hpolled, ?_⟩
          exact {
            view    := by rw [List.flatten_cons, quics_append, hq]; exact r.view
            offered := by
              rw [List.flatten_cons, hellos_append, List.map_append, ← List.append_assoc, ← ho]
              exact r.offered
            channel := by
              rw [List.flatten_cons, hellos_append, List.map_append, List.foldl_append, ← hc]
              exact r.channel
            empty   := fun hz => by rw [List.getLast?_cons, r.empty hz]; rfl
            bounded := r.bounded
            yields  := r.yields }

def quicDatagrams (entries : List Entry) : List Datagram :=
  (entries.flatMap Entry.datagrams).filter (·.lane = .quic)

def helloDatagrams (entries : List Entry) : List (Bytes × ScopedAddr) :=
  ((entries.flatMap Entry.datagrams).filter (·.lane = .xfrHello)).map Datagram.hello

-- Each entry is a matter of QUIC in all of its datagrams or in none, and the ones which look like a
-- hello as a whole are the hellos.
structure Separated (entries : List Entry) : Prop where
  quic  : ∀ e ∈ entries, ∀ d ∈ e.datagrams, d.lane = .quic ↔ e.lane = .quic
  hello : (hellos entries).map Entry.hello = helloDatagrams entries

theorem length_eq_of_flatMap {α β : Type*} {l : List α} {f g : α → List β}
    (hle : ∀ x ∈ l, (f x).length ≤ (g x).length) (h : (l.flatMap f).length = (l.flatMap g).length) :
    ∀ x ∈ l, (f x).length = (g x).length := by
  induction l
  case nil => exact nofun
  case cons x l hi =>
    have ht : (l.flatMap f).length ≤ (l.flatMap g).length := by
      rw [List.length_flatMap, List.length_flatMap]
      exact List.sum_le_sum fun y hy => hle y (by simp [hy])
    have hx := hle x (by simp)
    rw [List.flatMap_cons, List.flatMap_cons, List.length_append, List.length_append] at h
    exact List.forall_mem_cons.mpr
      ⟨by omega, hi (fun y hy => hle y (by simp [hy])) (by omega)⟩

theorem flatMap_quics {entries : List Entry} : (quics entries).flatMap Entry.datagrams =
    entries.flatMap fun e => if e.lane = .quic then e.datagrams else [] := by
  induction entries
  case nil => rfl
  case cons e entries hi =>
    by_cases hl : e.lane = .quic
    case pos => simpa [quics, hl] using hi
    case neg => simpa [quics, hl] using hi

theorem quicDatagrams_eq {entries : List Entry} : quicDatagrams entries =
    entries.flatMap fun e => e.datagrams.filter (·.lane = .quic) :=
  List.filter_flatMap ..

theorem quicDatagrams_iff {entries : List Entry} :
    (quics entries).flatMap Entry.datagrams = quicDatagrams entries ↔
      ∀ e ∈ entries, ∀ d ∈ e.datagrams, d.lane = .quic ↔ e.lane = .quic := by
  constructor
  case mp =>
    intro h
    have hq : ∀ e ∈ entries, e.lane = .quic → ∀ d ∈ e.datagrams, d.lane = .quic := by
      intro e he hl d hd
      have hm : d ∈ (quics entries).flatMap Entry.datagrams :=
        List.mem_flatMap.mpr ⟨e, List.mem_filter.mpr ⟨he, decide_eq_true hl⟩, hd⟩
      rw [h] at hm
      exact of_decide_eq_true (List.mem_filter.mp hm).right
    rw [flatMap_quics, quicDatagrams_eq] at h
    have hlen := length_eq_of_flatMap (fun e he => by
      by_cases hl : e.lane = .quic
      case pos =>
        have hf : e.datagrams.filter (·.lane = .quic) = e.datagrams :=
          List.filter_eq_self.mpr fun d hd => decide_eq_true (hq e he hl d hd)
        rw [if_pos hl, hf]
      case neg =>
        rw [if_neg hl]
        exact Nat.zero_le _) (congrArg List.length h)
    intro e he d hd
    refine ⟨fun hdl => ?_, fun hl => hq e he hl d hd⟩
    by_contra hl
    have hz := hlen e he
    rw [if_neg hl] at hz
    have hn : e.datagrams.filter (·.lane = .quic) = [] := List.length_eq_zero_iff.mp hz.symm
    exact List.filter_eq_nil_iff.mp hn d hd (decide_eq_true hdl)
  case mpr =>
    intro h
    rw [flatMap_quics, quicDatagrams_eq]
    refine List.flatMap_congr fun e he => ?_
    by_cases hl : e.lane = .quic
    case pos =>
      rw [if_pos hl, List.filter_eq_self.mpr]
      exact fun d hd => decide_eq_true ((h e he d hd).mpr hl)
    case neg =>
      rw [if_neg hl, List.filter_eq_nil_iff.mpr]
      exact fun d hd hdl => hl ((h e he d hd).mp (of_decide_eq_true hdl))

-- What QUIC and the dispatcher may rely on, whatever the batches and however full the channel is.
structure Teed (slots : Slots) (channel : HelloChannel) (inner : List (InnerPoll count size))
    (polled : Polled count size) : Prop where
  no_panic : pollRecv slots channel inner = some polled
  quic     : polled.view = quicDatagrams (examined MAX_DIVERT_ITERATIONS inner).flatten
  hello    : polled.offered = helloDatagrams (examined MAX_DIVERT_ITERATIONS inner).flatten
  channel  : polled.channel = polled.offered.foldl .trySend channel
  empty    : polled.poll = .ready 0 → (examined MAX_DIVERT_ITERATIONS inner).getLast? = some []
  bounded  : polled.diverts ≤ MAX_DIVERT_ITERATIONS
  yields   : polled.diverts = MAX_DIVERT_ITERATIONS → polled.poll = .pending ∧ polled.woken

-- Without receive offload, an entry is a datagram, and nothing can be taken for something else.
theorem separated_of_single {entries : List Entry}
    (h : ∀ e ∈ entries, e.datagrams = [⟨e.data, e.info.addr, e.info.ecn, e.info.dstIp⟩]) :
    Separated entries where
  quic e he d hd := by
    rw [h e he, List.mem_singleton] at hd
    rw [hd]
    rfl
  hello := by
    have hd : entries.flatMap Entry.datagrams =
        entries.map fun e => ⟨e.data, e.info.addr, e.info.ecn, e.info.dstIp⟩ := by
      rw [List.map_eq_flatMap]
      exact List.flatMap_congr h
    rw [helloDatagrams, hd, List.filter_map, List.map_map]
    rfl

-- A call serves both lanes exactly when the batches it goes through keep them apart.
theorem pollRecv_teed_iff (slots : Slots) (h : slots.Sized count size) (channel : HelloChannel)
    (inner : List (InnerPoll count size)) :
    (∃ polled, Teed slots channel inner polled) ↔
      Separated (examined MAX_DIVERT_ITERATIONS inner).flatten := by
  have ⟨polled, hp, r⟩ := @pollLoop_passed count size slots 15 0 channel [] inner h rfl
  constructor
  case mp =>
    intro ⟨polled', t⟩
    obtain rfl : polled = polled' := Option.some_inj.mp (hp.symm.trans t.no_panic)
    exact ⟨quicDatagrams_iff.mp (r.view.symm.trans t.quic), (r.offered.symm.trans t.hello)⟩
  case mpr =>
    intro ⟨hq, hh⟩
    exact ⟨polled, {
      no_panic := hp
      quic     := r.view.trans (quicDatagrams_iff.mpr hq)
      hello    := r.offered.trans hh
      channel  := by rw [r.channel, r.offered]; rfl
      empty    := r.empty
      bounded  := r.bounded
      yields   := r.yields }⟩

def hello (stream : UInt8) : Bytes :=
  UDP_HELLO_MAGIC ++ [1, 1, 0, stream] ++ List.replicate 16 7

def helloEntry : Entry where
  info := ⟨.v4 0x0A000001#32 5000, 24, 24, none, none⟩
  data := hello 0
  len  := by decide

def quicEntry : Entry where
  info := ⟨.v4 0x0A000001#32 5000, 3, 3, none, none⟩
  data := [0xC0, 1, 2]
  len  := rfl

-- A packet of data which came too late for its own socket.
def strayEntry : Entry where
  info := ⟨.v4 0x0A000001#32 5000, 20, 20, none, none⟩
  data := List.replicate 20 0
  len  := by decide

-- Two hellos of one client, which were received together.
def helloPair : Entry where
  info := ⟨.v4 0x0A000001#32 5000, 48, 24, none, none⟩
  data := hello 0 ++ hello 1
  len  := by decide

def freshSlots : Slots where
  bufs := List.replicate 3 (List.replicate 65535 0)
  info := List.replicate 3 ⟨.v4 0 0, 0, 0, none, none⟩

theorem sized_freshSlots : freshSlots.Sized 3 65535 where
  bufs := List.length_replicate
  info := List.length_replicate
  size buf hb := by
    rw [List.eq_of_mem_replicate hb]
    exact List.length_replicate

-- One entry for each lane: the hello is offered, the stray one is dropped, and QUIC gets its own.
theorem pollRecv_teed_quic : ∃ polled,
    Teed freshSlots ⟨64, [], false⟩
      [@InnerPoll.ready 3 65535 [helloEntry, quicEntry, strayEntry] (by decide)] polled ∧
    polled.offered = [(hello 0, .v4 0x0A000001#32 5000)] ∧
    polled.view = [⟨[0xC0, 1, 2], .v4 0x0A000001#32 5000, none, none⟩] := by
  have ⟨polled, t⟩ := (pollRecv_teed_iff freshSlots sized_freshSlots ⟨64, [], false⟩
    [@InnerPoll.ready 3 65535 [helloEntry, quicEntry, strayEntry] (by decide)]).mpr
    (separated_of_single (by decide))
  exact ⟨polled, t, t.hello.trans (by decide), t.quic.trans (by decide)⟩

theorem hellos_received_together_are_lost : ¬∃ polled,
    Teed freshSlots ⟨64, [], false⟩ [@InnerPoll.ready 3 65535 [helloPair] (by decide)]
      polled := by
  rw [pollRecv_teed_iff freshSlots sized_freshSlots]
  intro h
  exact absurd h.hello (by decide)

end LaneTee
