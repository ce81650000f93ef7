import Xfr.Library.Maximum
import Xfr.Mtu.SizeSearch
import Xfr.Udp.Probe

def PROBES_PER_SIZE : Nat := 3

-- Longer datagrams are cut off by the receive buffers of both sides.
def cutOff (data : Bytes) : Bytes :=
  data.take (MAX_PROBE_PAYLOAD + 100)

open Buffer (Has)

namespace RunProbe

inductive SendOutcome
  | sent
  | emsgsize
  | failed

inductive Received
  | datagram (data : Bytes)
  | failed

-- What the socket does for one attempt: the fate of the probe, and what is received until the timeout.
structure Attempt where
  outcome  : SendOutcome
  received : List Received

-- No two probes of a run have the same number. Thus a path can do with each attempt what it likes.
abbrev Path := (seq : UInt32) → (size : Nat) → Attempt

inductive Direction
  | ack
  | echo

-- What a reply shows about the outstanding probe.
def Received.shows (seq : UInt32) (size : Nat) : Received → Checked (Option Direction)
  | .failed        => return none
  | .datagram data => do
    let data := cutOff data
    match ← ProbePacket.decode data with
    | none       => return none
    | some reply =>
      if reply.seq ≠ seq ∨ reply.declaredSize.toNat ≠ size then return none
      else if reply.kind = PROBE_KIND_ACK then return some .ack
      else if reply.kind = PROBE_KIND_ECHO ∧ data.length = size then return some .echo
      else return none

-- Whether there was an ack, and an echo.
def collectReplies (seq : UInt32) (size : Nat) (gotAck : Bool) :
    List Received → Checked (Bool × Bool)
  | []                => return (gotAck, false)
  | reply :: received => do
    match ← reply.shows seq size with
    | none       => collectReplies seq size gotAck received
    | some .ack  => collectReplies seq size true received
    | some .echo => return (gotAck, true)

-- What lasts from one size to the next, along with the probes which were handed to the socket.
structure Prober where
  sendBuf : Bytes            := List.replicate MAX_PROBE_PAYLOAD 0
  seq     : UInt32           := 0
  probes  : List ProbePacket := []

-- A packet which does not fit into the buffer makes the program panic.
def Prober.encode (p : Prober) (size : Nat) : Option Prober :=
  let seq := p.seq + 1
  let pkt : ProbePacket := ⟨PROBE_KIND_PROBE, seq, UInt16.ofNat size⟩
  match pkt.encode p.sendBuf with
  | .ok (some _, sendBuf) => some { sendBuf, seq, probes := p.probes ++ [pkt] }
  | _                     => none

structure Tally where
  forwardOk  : Nat  := 0
  reverseOk  : Nat  := 0
  attempts   : Nat  := 0
  localLimit : Bool := false

namespace Tally

def attempt (t : Tally) : Tally :=
  { t with attempts := t.attempts + 1 }

-- An echo shows that the probe arrived, even when there is no ack.
def count (t : Tally) (gotAck gotEcho : Bool) : Tally :=
  { t with
    forwardOk := if gotAck || gotEcho then t.forwardOk + 1 else t.forwardOk
    reverseOk := if gotEcho then t.reverseOk + 1 else t.reverseOk }

def forward (t : Tally) : SizeVerdict :=
  if t.localLimit then .localLimit
  else if 0 < t.forwardOk then .pass
  else .fail

def reverse (t : Tally) : SizeVerdict :=
  if 0 < t.reverseOk then .pass
  else if t.forward = .pass then .fail
  else .untested

end Tally

def probeSize (path : Path) (size : Nat) :
    (left : Nat) → Prober → Tally → Option (Prober × Tally)
  | 0,        p, t => some (p, t)
  | left + 1, p, t => do
    let t := t.attempt
    let p ← p.encode size
    let attempt := path p.seq size
    match attempt.outcome with
    | .emsgsize => some (p, { t with localLimit := true })
    | .failed   => probeSize path size left p t
    | .sent     =>
      let (gotAck, gotEcho) ← (collectReplies p.seq size false attempt.received).toOption
      let t := t.count gotAck gotEcho
      if gotEcho then some (p, t) else probeSize path size left p t

structure SizeResult where
  payload   : Nat
  forwardOk : Nat
  reverseOk : Nat
  attempts  : Nat
  forward   : SizeVerdict
  reverse   : SizeVerdict

structure MtuProbeReport where
  forwardMaxPayload : Option Nat
  reverseMaxPayload : Option Nat
  forwardPathMtu    : Option Nat
  reversePathMtu    : Option Nat
  ipv6              : Bool
  sizes             : List SizeResult

structure Run where
  search     : SizeSearch
  sizes      : List SizeResult := []
  prober     : Prober          := {}
  reverseMax : Option Nat      := none

namespace Run

def record (r : Run) (size : Nat) (t : Tally) : Run :=
  { r with
    reverseMax :=
      if t.reverse = .pass then if r.reverseMax.all (size > ·) then some size else r.reverseMax
      else r.reverseMax
    sizes      := r.sizes ++ [⟨size, t.forwardOk, t.reverseOk, t.attempts, t.forward, t.reverse⟩]
    search     := r.search.record size t.forward }

def report (r : Run) (isIpv6 : Bool) : MtuProbeReport where
  forwardMaxPayload := r.search.forwardMax
  reverseMaxPayload := r.reverseMax
  forwardPathMtu    := r.search.forwardMax.map (· + ipOverhead isIpv6)
  reversePathMtu    := r.reverseMax.map (· + ipOverhead isIpv6)
  ipv6              := isIpv6
  sizes             := r.sizes

-- Nothing comes of a run which panics.
def loop (path : Path) : (fuel : Nat) → Run → Option Run
  | 0,        _ => none
  | fuel + 1, r =>
    match r.search.nextSize with
    | (none,      search) => some { r with search }
    | (some size, search) => do
      let (prober, t) ← probeSize path size PROBES_PER_SIZE r.prober {}
      loop path fuel ({ r with search, prober }.record size t)

end Run

def runProbe (path : Path) (isIpv6 : Bool) (fuel : Nat) : Option Run :=
  Run.loop path fuel { search := .new isIpv6 }

-- A reply to the outstanding probe has its sequence number and its size, and an echo arrives in full.
def Received.belongs (seq : UInt32) (size : Nat) : Received → Bool
  | .failed        => false
  | .datagram data =>
    let data := cutOff data
    match ProbePacket.decode data with
    | .ok (some reply) => reply.seq = seq ∧ reply.declaredSize.toNat = size ∧
        (reply.kind = PROBE_KIND_ACK ∨ reply.kind = PROBE_KIND_ECHO ∧ data.length = size)
    | _                => false

-- An echo of the outstanding probe.
def Received.echoes (seq : UInt32) (size : Nat) : Received → Bool
  | .failed        => false
  | .datagram data =>
    let data := cutOff data
    match ProbePacket.decode data with
    | .ok (some reply) => reply.seq = seq ∧ reply.declaredSize.toNat = size ∧
        reply.kind = PROBE_KIND_ECHO ∧ data.length = size
    | _                => false

-- A probe of the size was handed to the socket, and one of its replies meets the condition.
def Answered (path : Path) (probes : List ProbePacket) (size : Nat)
    (meets : UInt32 → Nat → Received → Bool) : Prop :=
  ∃ seq, ⟨PROBE_KIND_PROBE, seq, UInt16.ofNat size⟩ ∈ probes ∧ (path seq size).outcome = .sent ∧
    ∃ reply ∈ (path seq size).received, meets seq size reply

-- The path without all other replies.
def Path.attributed (path : Path) : Path := fun seq size =>
  { path seq size with received := (path seq size).received.filter (·.belongs seq size) }

variable {path : Path} {seq : UInt32} {size fuel left most n : Nat} {gotAck gotEcho a e : Bool}
  {reply : Received} {received : List Received} {p p' : Prober} {t t' : Tally} {r r' : Run}
  {ladder : Ladder} {search : SizeSearch}

theorem Received.shows_total : ∃ direction, reply.shows seq size = .ok direction := by
  cases reply
  case failed => exact ⟨none, rfl⟩
  case datagram data =>
    have ⟨read, hr⟩ := ProbePacket.decode_reads.total (cutOff data)
    simp only [shows, hr, bind, Except.bind]
    cases read
    case none => exact ⟨none, rfl⟩
    case some read =>
      dsimp only
      split
      case isTrue => exact ⟨none, rfl⟩
      case isFalse =>
        split
        case isTrue  => exact ⟨some .ack, rfl⟩
        case isFalse => split <;> exact ⟨_, rfl⟩

theorem Received.shows_of_not_belongs (h : reply.belongs seq size = false) :
    reply.shows seq size = .ok none := by
  cases reply
  case failed => rfl
  case datagram data =>
    have ⟨read, hr⟩ := ProbePacket.decode_reads.total (cutOff data)
    simp only [shows, hr, bind, Except.bind]
    simp only [belongs, hr] at h
    cases read
    case none => rfl
    case some read =>
      simp only [decide_eq_false_iff_not] at h
      dsimp only
      by_cases ha : read.seq ≠ seq ∨ read.declaredSize.toNat ≠ size
      case pos => rw [if_pos ha]; rfl
      case neg =>
        have ⟨hs, hd⟩ := not_or.mp ha
        have hk := not_or.mp fun hk => h ⟨not_not.mp hs, not_not.mp hd, hk⟩
        rw [if_neg ha, if_neg hk.left, if_neg hk.right]
        rfl

theorem Received.belongs_of_shows {direction : Direction}
    (h : reply.shows seq size = .ok (some direction)) : reply.belongs seq size := by
  cases hb : reply.belongs seq size
  case true  => rfl
  case false => exact nomatch (Received.shows_of_not_belongs hb).symm.trans h

theorem Received.echoes_of_shows (h : reply.shows seq size = .ok (some .echo)) :
    reply.echoes seq size := by
  cases reply
  case failed => exact nomatch h
  case datagram data =>
    have ⟨read, hr⟩ := ProbePacket.decode_reads.total (cutOff data)
    simp only [shows, hr, bind, Except.bind] at h
    simp only [echoes, hr]
    cases read
    case none => exact nomatch h
    case some read =>
      dsimp only at h
      split at h
      case isTrue => exact nomatch h
      case isFalse ho =>
        have ⟨hs, hd⟩ := not_or.mp ho
        split at h
        case isTrue => exact nomatch h
        case isFalse =>
          split at h
          case isFalse   => exact nomatch h
          case isTrue he => exact decide_eq_true ⟨not_not.mp hs, not_not.mp hd, he⟩

-- An ack or an echo is only counted when there was such a reply.
theorem collectReplies_got (h : collectReplies seq size gotAck received = .ok (a, e)) :
    (a = true → gotAck = true ∨ ∃ reply ∈ received, reply.belongs seq size) ∧
    (e = true → ∃ reply ∈ received, reply.echoes seq size) := by
  induction received generalizing gotAck
  case nil =>
    have ⟨ha, he⟩ := Prod.mk.inj (Except.ok.inj h)
    exact ⟨fun ht => .inl (ha.trans ht), fun hf => nomatch he.trans hf⟩
  case cons reply received hi =>
    have ⟨direction, hs⟩ : ∃ direction, reply.shows seq size = .ok direction :=
      Received.shows_total
    simp only [collectReplies, hs, bind, Except.bind] at h
    cases direction
    case none =>
      have ⟨acked, echoed⟩ := hi h
      exact ⟨fun ha => (acked ha).imp_right fun ⟨r, hm, hb⟩ => ⟨r, .tail _ hm, hb⟩,
        fun he => (echoed he).imp fun r ⟨hm, hb⟩ => ⟨.tail _ hm, hb⟩⟩
    case some direction =>
      cases direction
      case ack =>
        have ⟨_, echoed⟩ := hi h
        exact ⟨fun _ => .inr ⟨reply, .head _, Received.belongs_of_shows hs⟩,
          fun he => (echoed he).imp fun r ⟨hm, hb⟩ => ⟨.tail _ hm, hb⟩⟩
      case echo =>
        have ⟨ha, _⟩ := Prod.mk.inj (Except.ok.inj h)
        exact ⟨fun hg => .inl (ha.trans hg),
          fun _ => ⟨reply, .head _, Received.echoes_of_shows hs⟩⟩

theorem collectReplies_total : ∃ got, collectReplies seq size gotAck received = .ok got := by
  induction received generalizing gotAck
  case nil => exact ⟨_, rfl⟩
  case cons reply received hi =>
    have ⟨direction, hs⟩ : ∃ direction, reply.shows seq size = .ok direction :=
      Received.shows_total
    simp only [collectReplies, hs, bind, Except.bind]
    match direction with
    | none       => exact hi
    | some .ack  => exact hi
    | some .echo => exact ⟨_, rfl⟩

theorem collectReplies_filter : collectReplies seq size gotAck
    (received.filter (·.belongs seq size)) = collectReplies seq size gotAck received := by
  induction received generalizing gotAck
  case nil => rfl
  case cons reply received hi =>
    cases hb : reply.belongs seq size
    case false =>
      have hs := Received.shows_of_not_belongs hb
      rw [List.filter_cons_of_neg (by simp [hb]), hi]
      simp only [collectReplies, hs, bind, Except.bind]
    case true =>
      have ⟨direction, hs⟩ : ∃ direction, reply.shows seq size = .ok direction :=
        Received.shows_total
      rw [List.filter_cons_of_pos hb]
      simp only [collectReplies, hs, bind, Except.bind]
      match direction with
      | none       => exact hi
      | some .ack  => exact hi
      | some .echo => rfl

theorem probeSize_attributed :
    probeSize path.attributed size left p t = probeSize path size left p t := by
  induction left generalizing p t
  case zero => rfl
  case succ left hi => simp only [probeSize, Path.attributed, collectReplies_filter, hi]

theorem Run.loop_attributed : Run.loop path.attributed fuel r = Run.loop path fuel r := by
  induction fuel generalizing r
  case zero => rfl
  case succ fuel hi => simp only [Run.loop, probeSize_attributed, hi]

-- Probes are numbered from one on.
structure Prober.Valid (p : Prober) (most : Nat) : Prop where
  room      : p.sendBuf.length = MAX_PROBE_PAYLOAD
  seq_eq    : p.seq.toNat = p.probes.length
  seq_le    : ∀ pkt ∈ p.probes, pkt.seq.toNat ≤ p.probes.length
  fresh     : p.probes.Pairwise (·.seq ≠ ·.seq)
  length_le : p.probes.length ≤ most

theorem Prober.Valid.mono (v : p.Valid most) (h : most ≤ n) : p.Valid n :=
  { v with length_le := v.length_le.trans h }

theorem Prober.Valid.init : ({} : Prober).Valid 0 where
  room      := List.length_replicate
  seq_eq    := rfl
  seq_le    := nofun
  fresh     := .nil
  length_le := Nat.le_refl 0

-- As long as the number does not wrap, no earlier probe has it.
theorem Prober.Valid.encode (v : p.Valid most) (hm : most + 1 < 2 ^ 32)
    (hl : PROBE_HEADER_SIZE ≤ size) (hu : size ≤ MAX_PROBE_PAYLOAD) :
    ∃ p', p.encode size = some p' ∧ p'.Valid (most + 1) := by
  let pkt : ProbePacket := ⟨PROBE_KIND_PROBE, p.seq + 1, UInt16.ofNat size⟩
  have hw : pkt.wireLen = size := by
    have hs : size < 2 ^ 16 := Nat.lt_of_le_of_lt hu (by decide)
    have hd : pkt.declaredSize.toNat = size := UInt16.toNat_ofNat_of_lt' hs
    rw [ProbePacket.wireLen, if_neg (show PROBE_KIND_PROBE ≠ PROBE_KIND_ACK by decide), hd]
  have hb : pkt.wireLen ≤ p.sendBuf.length := by rwa [hw, v.room]
  have ⟨out, he, ho, _⟩ := pkt.exists_encode (hw ▸ hl) hb
  have hs : pkt.seq.toNat = p.probes.length + 1 := by
    have := v.length_le
    have hn : (p.seq + 1).toNat = (p.seq.toNat + 1) % 2 ^ 32 := UInt32.toNat_add ..
    rw [show pkt.seq = p.seq + 1 from rfl, hn, v.seq_eq]
    exact Nat.mod_eq_of_lt (by omega)
  refine ⟨⟨out, pkt.seq, p.probes ++ [pkt]⟩, by simp only [Prober.encode]; rw [he], ?_⟩
  exact {
    room      := ho.trans v.room
    seq_eq    := by rw [hs, List.length_append, List.length_singleton]
    seq_le    := by
      intro earlier h
      rw [List.length_append, List.length_singleton]
      cases List.mem_append.mp h
      case inl h => exact Nat.le_succ_of_le (v.seq_le earlier h)
      case inr h => rw [List.mem_singleton.mp h, hs]
    fresh     := by
      refine List.pairwise_append.mpr ⟨v.fresh, List.pairwise_singleton .., ?_⟩
      intro earlier h last hl he
      rw [List.mem_singleton.mp hl] at he
      have := v.seq_le earlier h
      rw [he, hs] at this
      omega
    length_le := by
      have := v.length_le
      rw [List.length_append, List.length_singleton]
      omega
  }

theorem Tally.reverse_eq_pass_iff : t.reverse = .pass ↔ 0 < t.reverseOk := by
  unfold reverse
  split
  case isTrue h  => simp [h]
  case isFalse h => split <;> simp [h]

theorem Tally.forward_ne_untested : t.forward ≠ .untested := by
  unfold forward
  split
  case isTrue  => nofun
  case isFalse => split <;> nofun

-- A size is left as soon as there is an echo, so that nothing can go wrong with it after that.
theorem probeSize_ends (v : p.Valid most) (hm : most + left < 2 ^ 32)
    (hl : PROBE_HEADER_SIZE ≤ size) (hu : size ≤ MAX_PROBE_PAYLOAD) (hr : t.reverseOk = 0)
    (hf : t.localLimit = false) :
    ∃ p' t', probeSize path size left p t = some (p', t') ∧ p'.Valid (most + left) ∧
      (t'.reverse = .pass → t'.forward = .pass) := by
  induction left generalizing most p t
  case zero =>
    refine ⟨p, t, rfl, v, fun h => ?_⟩
    have := Tally.reverse_eq_pass_iff.mp h
    omega
  case succ left hi =>
    have ⟨p₁, he, v₁⟩ := v.encode (by omega) hl hu
    have hv : most + 1 + left = most + (left + 1) := by omega
    simp only [probeSize, he, bind, Option.bind]
    cases (path p₁.seq size).outcome
    case emsgsize =>
      refine ⟨p₁, _, rfl, v₁.mono (by omega), fun h => ?_⟩
      have := Tally.reverse_eq_pass_iff.mp h
      simp [Tally.attempt, hr] at this
    case failed => exact hv ▸ hi v₁ (by omega) hr hf
    case sent =>
      dsimp only
      have ⟨(gotAck, gotEcho), hg⟩ : ∃ got, collectReplies p₁.seq size false
          (path p₁.seq size).received = .ok got := collectReplies_total
      simp only [hg, Except.toOption]
      cases gotEcho
      case false => exact hv ▸ hi v₁ (by omega) hr hf
      case true =>
        refine ⟨p₁, _, rfl, v₁.mono (by omega), fun _ => ?_⟩
        simp [Tally.forward, Tally.count, Tally.attempt, hf]

theorem Received.belongs_of_echoes (h : reply.echoes seq size) : reply.belongs seq size := by
  cases reply
  case failed => exact nomatch h
  case datagram data =>
    unfold echoes at h
    unfold belongs
    dsimp only at h ⊢
    split at h
    case h_2 => exact nomatch h
    case h_1 read _ =>
      have ⟨hs, hd, he⟩ := of_decide_eq_true h
      exact decide_eq_true ⟨hs, hd, .inr he⟩

theorem Answered.mono {probes probes' : List ProbePacket} {meets : UInt32 → Nat → Received → Bool}
    (h : Answered path probes size meets) (hp : probes <+: probes') :
    Answered path probes' size meets := by
  have ⟨seq, hm, h⟩ := h
  exact ⟨seq, hp.subset hm, h⟩

-- What is counted for a size has been answered.
structure Earned (path : Path) (probes : List ProbePacket) (size forwardOk reverseOk : Nat) : Prop where
  forward : 0 < forwardOk → Answered path probes size Received.belongs
  reverse : 0 < reverseOk → Answered path probes size Received.echoes

theorem Earned.mono {probes probes' : List ProbePacket} {forwardOk reverseOk : Nat}
    (h : Earned path probes size forwardOk reverseOk) (hp : probes <+: probes') :
    Earned path probes' size forwardOk reverseOk where
  forward ho := (h.forward ho).mono hp
  reverse ho := (h.reverse ho).mono hp

theorem Prober.probes_encode (h : p.encode size = some p') :
    p'.probes = p.probes ++ [⟨PROBE_KIND_PROBE, p'.seq, UInt16.ofNat size⟩] := by
  unfold encode at h
  dsimp only at h
  split at h
  case h_1 => exact Option.some_inj.mp h ▸ rfl
  case h_2 => exact nomatch h

theorem Earned.count {probes : List ProbePacket} (h : Earned path probes size t.forwardOk t.reverseOk)
    (hm : ⟨PROBE_KIND_PROBE, seq, UInt16.ofNat size⟩ ∈ probes)
    (sent : (path seq size).outcome = .sent)
    (got : collectReplies seq size false (path seq size).received = .ok (gotAck, gotEcho)) :
    Earned path probes size (t.count gotAck gotEcho).forwardOk (t.count gotAck gotEcho).reverseOk := by
  have ⟨acked, echoed⟩ := collectReplies_got got
  constructor
  case forward =>
    intro ho
    cases gotEcho
    case true =>
      have ⟨reply, hr, he⟩ := echoed rfl
      exact ⟨seq, hm, sent, reply, hr, Received.belongs_of_echoes he⟩
    case false =>
      cases gotAck
      case true  => exact ⟨seq, hm, sent, (acked rfl).resolve_left nofun⟩
      case false => exact h.forward ho
  case reverse =>
    intro ho
    cases gotEcho
    case true  => exact ⟨seq, hm, sent, echoed rfl⟩
    case false => exact h.reverse ho

theorem probeSize_earned (h : probeSize path size left p t = some (p', t'))
    (earned : Earned path p.probes size t.forwardOk t.reverseOk) :
    p.probes <+: p'.probes ∧ Earned path p'.probes size t'.forwardOk t'.reverseOk := by
  induction left generalizing p t
  case zero =>
    obtain ⟨rfl, rfl⟩ := Prod.mk.inj (Option.some_inj.mp h)
    exact ⟨List.prefix_rfl, earned⟩
  case succ left hi =>
    have ⟨p₁, he, h⟩ := Option.bind_eq_some_iff.mp h
    have hp := Prober.probes_encode he
    have hpre : p.probes <+: p₁.probes := hp ▸ List.prefix_append ..
    have hm : ⟨PROBE_KIND_PROBE, p₁.seq, UInt16.ofNat size⟩ ∈ p₁.probes := by simp [hp]
    have earned := earned.mono hpre
    dsimp only at h
    cases ho : (path p₁.seq size).outcome
    case emsgsize =>
      simp only [ho] at h
      obtain ⟨rfl, rfl⟩ := Prod.mk.inj (Option.some_inj.mp h)
      exact ⟨hpre, earned⟩
    case failed =>
      simp only [ho] at h
      have ⟨hp', earned⟩ := hi h earned
      exact ⟨hpre.trans hp', earned⟩
    case sent =>
      simp only [ho] at h
      have ⟨⟨gotAck, gotEcho⟩, hg⟩ : ∃ got, collectReplies p₁.seq size false
          (path p₁.seq size).received = .ok got := collectReplies_total
      simp only [hg, Except.toOption, bind, Option.bind] at h
      have earned := earned.count (t := t.attempt) hm ho hg
      cases gotEcho
      case true =>
        obtain ⟨rfl, rfl⟩ := Prod.mk.inj (Option.some_inj.mp h)
        exact ⟨hpre, earned⟩
      case false =>
        have ⟨hp', earned⟩ := hi h earned
        exact ⟨hpre.trans hp', earned⟩

theorem Tally.forwardOk_of_pass (h : t.forward = .pass) : 0 < t.forwardOk := by
  unfold forward at h
  split at h
  case isTrue  => exact nomatch h
  case isFalse =>
    split at h
    case isTrue ho => exact ho
    case isFalse   => exact nomatch h

-- The sizes which passed in a direction.
def passed (direction : SizeResult → SizeVerdict) (sizes : List SizeResult) : Set Nat :=
  { size | ∃ result ∈ sizes, direction result = .pass ∧ result.payload = size }

theorem passed_append {direction : SizeResult → SizeVerdict} {sizes : List SizeResult}
    {result : SizeResult} : passed direction (sizes ++ [result]) =
      if direction result = .pass then insert result.payload (passed direction sizes)
      else passed direction sizes := by
  ext size
  split
  all_goals
    simp only [passed, Set.mem_ofPred_eq, Set.mem_insert_iff, List.mem_append, List.mem_singleton]
    grind

theorem record_low {s : SizeSearch} {forward : SizeVerdict} (hu : forward ≠ .untested) :
    (s.record size forward).low = if forward = .pass then
      if s.low.all (size > ·) then some size else s.low else s.low := by
  by_cases hp : forward = .pass
  case pos => rw [if_pos hp, hp, SizeSearch.record_pass]
  case neg => rw [if_neg hp, SizeSearch.record_fail hp hu]

namespace Run

def history (r : Run) : SizeSearch.History :=
  r.sizes.map fun result => (result.payload, result.forward)

structure Sound (r : Run) : Prop where
  forwardMax : IsMaximum (passed SizeResult.forward r.sizes) r.search.forwardMax
  reverseMax : IsMaximum (passed SizeResult.reverse r.sizes) r.reverseMax
  both       : ∀ result ∈ r.sizes, result.reverse = .pass → result.forward = .pass
  prober     : r.prober.Valid (PROBES_PER_SIZE * r.sizes.length)

theorem Sound.init {search : SizeSearch} (h : search.low = none) : Sound { search } where
  forwardMax := by simp [passed, SizeSearch.forwardMax, h, IsMaximum]
  reverseMax := by simp [passed, IsMaximum]
  both       := nofun
  prober     := .init

theorem Sound.nextSize (s : Sound r) : Sound { r with search := r.search.nextSize.2 } where
  forwardMax := by
    rw [SizeSearch.forwardMax, SizeSearch.low_nextSize]
    exact s.forwardMax
  reverseMax := s.reverseMax
  both       := s.both
  prober     := s.prober

theorem Sound.record (s : Sound r)
    (hp : p.Valid (PROBES_PER_SIZE * r.sizes.length + PROBES_PER_SIZE))
    (ht : t.reverse = .pass → t.forward = .pass) :
    Sound ({ r with prober := p }.record size t) where
  forwardMax := by
    simp only [Run.record, passed_append, SizeSearch.forwardMax, record_low t.forward_ne_untested]
    split
    case isTrue  => exact s.forwardMax.insert
    case isFalse => exact s.forwardMax
  reverseMax := by
    simp only [Run.record, passed_append]
    split
    case isTrue  => exact s.reverseMax.insert
    case isFalse => exact s.reverseMax
  both       := by
    intro result h
    cases List.mem_append.mp h
    case inl h => exact s.both result h
    case inr h => exact List.mem_singleton.mp h ▸ ht
  prober     := by simpa [Run.record, Nat.mul_add] using hp

-- The reverse direction is only tried by what arrived in the forward direction.
theorem Sound.reverse_le (s : Sound r) (h : r.reverseMax = some size) :
    ∃ max, r.search.forwardMax = some max ∧ size ≤ max := by
  refine s.reverseMax.mono s.forwardMax ?_ h
  exact fun _ ⟨result, hm, hp, he⟩ => ⟨result, hm, s.both result hm hp, he⟩

-- Every size fits into a datagram, and there are few enough of them for the numbers not to wrap.
theorem loop_ends (s : Sound r) (phase : SizeSearch.Phase ladder r.history r.search)
    (hl : PROBE_HEADER_SIZE ≤ ladder.first) (hu : ladder.top ≤ MAX_PROBE_PAYLOAD)
    (hb : PROBES_PER_SIZE * ladder.bound < 2 ^ 32) (hf : ladder.bound < r.sizes.length + fuel) :
    ∃ r', loop path fuel r = some r' ∧ Sound r' := by
  induction fuel generalizing r
  case zero =>
    have := phase.length_le
    simp only [history, List.length_map] at this
    omega
  case succ fuel hi =>
    match hn : r.search.nextSize with
    | (none,      search) =>
      have hs : search = r.search.nextSize.2 := by rw [hn]
      exact ⟨{ r with search }, by rw [loop, hn], hs ▸ s.nextSize⟩
    | (some size, search) =>
      have hs : search = r.search.nextSize.2 := by rw [hn]
      have bounds := phase.nextSize_bounds hn
      have room : PROBES_PER_SIZE * r.sizes.length + PROBES_PER_SIZE < 2 ^ 32 := by
        have length := phase.length_lt (by simp [hn])
        simp only [history, List.length_map] at length
        have := Nat.mul_le_mul_left PROBES_PER_SIZE length
        rw [Nat.mul_succ] at this
        omega
      have ⟨p, t, he, v, ht⟩ := @probeSize_ends path _ _ _ _ {} s.prober room
        (hl.trans bounds.left) (bounds.right.trans hu) rfl rfl
      have next : Sound ({ r with search, prober := p }.record size t) :=
        hs ▸ s.nextSize.record v ht
      have phase := phase.step hn t.forward_ne_untested
      simp only [loop, hn, he, bind, Option.bind]
      apply hi next
      · simpa [record, history] using phase
      · simp only [record, List.length_append, List.length_singleton]
        omega

-- Every size which passed in a direction was answered.
structure Answers (path : Path) (r : Run) : Prop where
  forward : ∀ result ∈ r.sizes, result.forward = .pass →
    Answered path r.prober.probes result.payload Received.belongs
  reverse : ∀ result ∈ r.sizes, result.reverse = .pass →
    Answered path r.prober.probes result.payload Received.echoes

theorem Answers.record (s : Answers path r) (hp : r.prober.probes <+: p.probes)
    (earned : Earned path p.probes size t.forwardOk t.reverseOk) :
    Answers path ({ r with prober := p, search }.record size t) where
  forward result h := by
    intro hf
    cases List.mem_append.mp h
    case inl h => exact (s.forward result h hf).mono hp
    case inr h =>
      obtain rfl := List.mem_singleton.mp h
      exact earned.forward (Tally.forwardOk_of_pass hf)
  reverse result h := by
    intro hr
    cases List.mem_append.mp h
    case inl h => exact (s.reverse result h hr).mono hp
    case inr h =>
      obtain rfl := List.mem_singleton.mp h
      exact earned.reverse (Tally.reverse_eq_pass_iff.mp hr)

theorem loop_answers (h : loop path fuel r = some r') (s : Answers path r) : Answers path r' := by
  induction fuel generalizing r
  case zero => exact nomatch h
  case succ fuel hi =>
    unfold loop at h
    split at h
    case h_1 => exact Option.some_inj.mp h ▸ ⟨s.forward, s.reverse⟩
    case h_2 =>
      have ⟨⟨p, t⟩, hp, h⟩ := Option.bind_eq_some_iff.mp h
      have ⟨hpre, earned⟩ := probeSize_earned hp ⟨nofun, nofun⟩
      exact hi h (s.record hpre earned)

end Run

-- Whatever happens to the probes and to the replies, a run ends with a report. No probe has the number
-- of another one, and replies to anything else than the outstanding probe make no difference: a size
-- passes only by a reply to one of its own probes, and in the reverse direction only by a full echo.
theorem runProbe_sound (path : Path) (isIpv6 : Bool) :
    ∃ r, runProbe path isIpv6 ((Ladder.ofFamily isIpv6).bound + 1) = some r ∧
      (∀ result ∈ (r.report isIpv6).sizes, result.reverse = .pass → result.forward = .pass) ∧
      (∀ size, (r.report isIpv6).reverseMaxPayload = some size →
        ∃ max, (r.report isIpv6).forwardMaxPayload = some max ∧ size ≤ max) ∧
      IsMaximum (passed SizeResult.forward (r.report isIpv6).sizes)
        (r.report isIpv6).forwardMaxPayload ∧
      IsMaximum (passed SizeResult.reverse (r.report isIpv6).sizes)
        (r.report isIpv6).reverseMaxPayload ∧
      r.prober.probes.Pairwise (·.seq ≠ ·.seq) ∧
      (∀ fuel, runProbe path.attributed isIpv6 fuel = runProbe path isIpv6 fuel) ∧
      (∀ result ∈ (r.report isIpv6).sizes, result.forward = .pass →
        Answered path r.prober.probes result.payload Received.belongs) ∧
      ∀ result ∈ (r.report isIpv6).sizes, result.reverse = .pass →
        Answered path r.prober.probes result.payload Received.echoes := by
  have phase : SizeSearch.Phase (Ladder.ofFamily isIpv6) [] (.new isIpv6) :=
    SizeSearch.start_ofFamily ▸ .climbing SizeSearch.climbing_start
  have sound : Run.Sound { search := .new isIpv6 } := .init rfl
  have ⟨r, hr, s⟩ : ∃ r, runProbe path isIpv6 ((Ladder.ofFamily isIpv6).bound + 1) = some r ∧
      r.Sound := by
    apply Run.loop_ends sound phase
    case hl => cases isIpv6 <;> decide
    case hu => cases isIpv6 <;> decide
    case hb => cases isIpv6 <;> decide
    case hf => simp
  have answers : r.Answers path := Run.loop_answers hr ⟨nofun, nofun⟩
  exact ⟨r, hr, s.both, fun _ => s.reverse_le, s.forwardMax, s.reverseMax, s.prober.fresh,
    fun _ => Run.loop_attributed, answers.forward, answers.reverse⟩

def replyBytes (pkt : ProbePacket) (length : Nat) : Bytes :=
  PROBE_MAGIC ++ [PROBE_VERSION] ++ [pkt.kind] ++ Bytes.toBe 2 0 ++ Bytes.toBe 4 pkt.seq.toNat ++
    Bytes.toBe 2 pkt.declaredSize.toNat ++ List.replicate (length - 14) 0

theorem layout_replyBytes {pkt : ProbePacket} : pkt.Layout (replyBytes pkt n) where
  magic        := by simpa [replyBytes] using @Has.of_append PROBE_MAGIC []
  version      := by simpa [replyBytes] using @Has.of_append [PROBE_VERSION] PROBE_MAGIC
  kind         := by
    simpa [replyBytes] using @Has.of_append [pkt.kind] (PROBE_MAGIC ++ [PROBE_VERSION])
  seq          := by
    simpa [replyBytes] using @Has.of_append (Bytes.toBe 4 pkt.seq.toNat)
      (PROBE_MAGIC ++ [PROBE_VERSION] ++ [pkt.kind] ++ Bytes.toBe 2 0)
  declaredSize := Has.of_append

-- The replies to a probe arrive when the next one is outstanding, the echo before the ack, and the
-- echo of the outstanding one is cut off.
def latePath : Path := fun seq size => {
  outcome  := .sent
  received := [
    .datagram (replyBytes ⟨PROBE_KIND_ECHO, seq - 1, UInt16.ofNat size⟩ size),
    .datagram (replyBytes ⟨PROBE_KIND_ACK, seq - 1, UInt16.ofNat size⟩ PROBE_HEADER_SIZE),
    .datagram ((replyBytes ⟨PROBE_KIND_ECHO, seq, UInt16.ofNat size⟩ size).take (size - 1))] }

theorem Received.looks_of_belongs {data : Bytes} (h : belongs seq size (.datagram data)) :
    ∃ read : ProbePacket, PROBE_HEADER_SIZE ≤ (cutOff data).length ∧ read.Layout (cutOff data) ∧
      read.seq = seq ∧
      (read.kind = PROBE_KIND_ACK ∨ read.kind = PROBE_KIND_ECHO ∧ (cutOff data).length = size) := by
  unfold belongs at h
  dsimp only at h
  split at h
  case h_2 => exact nomatch h
  case h_1 read hr =>
    have ⟨hs, _, hk⟩ := of_decide_eq_true h
    have ⟨hl, _, _, layout⟩ := ProbePacket.decode_reads.eq_some_iff.mp hr
    exact ⟨read, hl, layout, hs, hk⟩

theorem Received.belongs_of_layout {pkt : ProbePacket} {data : Bytes} (hd : pkt.Layout data)
    (h : belongs seq size (.datagram data)) : pkt.seq = seq ∧
      (pkt.kind = PROBE_KIND_ACK ∨ pkt.kind = PROBE_KIND_ECHO ∧ (cutOff data).length = size) := by
  have ⟨read, _, layout, h⟩ := looks_of_belongs h
  exact layout.inj (hd.take (by decide)) ▸ h

theorem latePath_belongs (h : reply ∈ (latePath seq size).received) :
    reply.belongs seq size = false := by
  refine Bool.eq_false_iff.mpr fun hb => ?_
  have stale : seq - 1 ≠ seq := fun he => by
    have he := congrArg UInt32.toNat he
    have := seq.toNat_lt
    simp only [UInt32.toNat_sub, UInt32.reduceToNat] at he
    omega
  simp only [latePath, List.mem_cons, List.not_mem_nil, or_false] at h
  rcases h with rfl | rfl | rfl
  · exact stale (Received.belongs_of_layout layout_replyBytes hb).left
  · exact stale (Received.belongs_of_layout layout_replyBytes hb).left
  · obtain ⟨_, hl, _⟩ := Received.looks_of_belongs hb
    simp only [cutOff, List.length_take, PROBE_HEADER_SIZE] at hl
    have hn : PROBE_HEADER_SIZE ≤ size - 1 := show 16 ≤ size - 1 by omega
    obtain ⟨_, hk⟩ := Received.belongs_of_layout (layout_replyBytes.take hn) hb
    obtain ⟨_, hk⟩ := hk.resolve_left (show PROBE_KIND_ECHO ≠ PROBE_KIND_ACK by decide)
    simp only [cutOff, List.length_take] at hk
    omega

theorem runProbe_sound_late : ∃ r,
    runProbe latePath false ((Ladder.ofFamily false).bound + 1) = some r ∧
      ∀ result ∈ (r.report false).sizes, result.forward ≠ .pass ∧ result.reverse ≠ .pass := by
  have ⟨r, hr, both, _, _, _, _, _, forward, _⟩ := runProbe_sound latePath false
  have fails : ∀ result ∈ (r.report false).sizes, result.forward ≠ .pass := by
    intro result hm hp
    have ⟨_, _, _, reply, h, hb⟩ := forward result hm hp
    rw [latePath_belongs h] at hb
    exact nomatch hb
  exact ⟨r, hr, fun result hm => ⟨fails result hm, fun hp => fails result hm (both result hm hp)⟩⟩

end RunProbe
