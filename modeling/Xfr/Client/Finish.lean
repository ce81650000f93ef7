import Xfr.Client.StreamTasks

namespace StreamTask

variable {kind : SendKind} {b b' : ByteBudget} {ts ts' : List (StreamTask kind)}
  {t t' : StreamTask kind} {e : Nat × TaskEvent kind} {cancelled : Bool}

-- What the tasks of a test wrote together.
def delivered (ts : List (StreamTask kind)) : Nat :=
  (ts.map (kind.delivered ·.loop)).sum

theorem exists_of_interleave
    (h : (step cancelled).interleave (b, ts) e = some (b', ts')) : ∃ t ∈ ts, t.ended = false := by
  have ⟨t, t', ht, hs, _⟩ := System.interleave_cases h
  exact ⟨t, List.mem_of_getElem? ht, step_of_ended hs⟩

end StreamTask

-- An account of the budget which the tasks keep. Once all of them have ended it tells from what
-- remains whether the budget was delivered.
structure SendKind.Ledger (kind : SendKind) (total : UInt64) where
  Holds   : ByteBudget → List (StreamTask kind) → Prop
  step    : ∀ {b ts b' ts' cancelled e}, Holds b ts →
    (StreamTask.step cancelled).interleave (b, ts) e = some (b', ts') → Holds b' ts'
  le      : ∀ {b ts}, Holds b ts → StreamTask.delivered ts ≤ total.toNat
  settled : ∀ {b ts}, Holds b ts → (∀ t ∈ ts, t.ended) →
    (b.remaining < kind.slack ↔ total.toNat < StreamTask.delivered ts + kind.slack)

namespace SendLoop

variable {b b' : ByteBudget} {t t' : StreamTask .streams} {e : TaskEvent .streams}
  {cancelled : Bool} {total : UInt64}

-- Only a send loop which runs has bytes of the budget which it did not write.
def Settled (t : StreamTask .streams) : Prop :=
  t.stage ≠ .sending → t.loop.outstanding = 0

theorem outstanding_of_exit {l : SendLoop} {how : LoopExit} (h : l.exit = some how) :
    l.outstanding = 0 := by
  unfold exit at h
  unfold outstanding
  split at h
  case h_1 hp => rw [hp]; rfl
  case h_2 hp => rw [hp]; rfl
  case h_3 hp => rw [hp]; rfl
  case h_4    => contradiction

theorem taskStep_conserved (settled : Settled t)
    (hle : b.remaining + (t.loop.outstanding + t.loop.written) ≤ total.toNat)
    (h : StreamTask.step cancelled (b, t) e = some (b', t')) :
    Settled t' ∧ b'.remaining + (t'.loop.outstanding + t'.loop.written) =
      b.remaining + (t.loop.outstanding + t.loop.written) := by
  cases StreamTask.step_cases h
  case refuse hs   => exact ⟨fun _ => settled (by simp [hs]), rfl⟩
  case enter hs    => exact ⟨fun _ => settled (by simp [hs]), rfl⟩
  case send hs hl  =>
    exact ⟨fun hn => absurd hs hn, step_conserved (hle.trans (U64.le_max total)) hl⟩
  case leave hs hx => exact ⟨fun _ => outstanding_of_exit hx, rfl⟩

theorem outstanding_of_ended {ts : List (StreamTask .streams)} (settled : ∀ t ∈ ts, Settled t)
    (ended : ∀ t ∈ ts, t.ended) : (ts.map (·.loop.outstanding)).sum = 0 := by
  apply List.sum_eq_zero
  intro n hn
  have ⟨t, ht, hn⟩ := List.mem_map.mp hn
  have he : t.stage = .ended := by simpa [StreamTask.ended] using ended t ht
  exact hn ▸ settled t ht (by simp [he])

-- Every byte remains, or is claimed, or was written.
def ledger (total : UInt64) : SendKind.Ledger .streams total where
  Holds b ts := (∀ t ∈ ts, Settled t) ∧
    b.remaining + (ts.map fun t => t.loop.outstanding + t.loop.written).sum = total.toNat
  step holds h :=
    (System.interleave_conserved (J := fun _ => True)
      (fun _ settled hle h => ⟨trivial, taskStep_conserved settled hle h⟩)
      trivial holds.left holds.right h).right
  le {b ts} holds := by
    have hsum : (ts.map fun t => t.loop.outstanding + t.loop.written).sum =
        (ts.map (·.loop.outstanding)).sum + StreamTask.delivered ts := List.sum_map_add
    have := holds.right
    omega
  settled {b ts} holds ended := by
    have hsum : (ts.map fun t => t.loop.outstanding + t.loop.written).sum =
        (ts.map (·.loop.outstanding)).sum + StreamTask.delivered ts := List.sum_map_add
    have hz := outstanding_of_ended holds.left ended
    have := holds.right
    omega

theorem opened_ledger {senders : List Sender} :
    (ledger total).Holds (.new total) ((senders.map Sender.start).map .spawn) := by
  constructor
  case left =>
    intro t ht _
    have ⟨l, hl, ht⟩ := List.mem_map.mp ht
    have ⟨_, _, hl⟩ := List.mem_map.mp hl
    subst ht hl
    exact Sender.start_fresh.right.left
  case right =>
    have hz : (((senders.map Sender.start).map (@StreamTask.spawn .streams)).map
        fun t => t.loop.outstanding + t.loop.written).sum = 0 := by
      apply List.sum_eq_zero
      simp [StreamTask.spawn, Sender.start_fresh]
    rw [hz]
    rfl

end SendLoop

namespace UdpSendLoop

variable {p : PayloadSize} {r : Nat} {b b' : ByteBudget} {t t' : StreamTask .datagrams}
  {e : TaskEvent .datagrams} {cancelled : Bool} {total : UInt64}

-- A loop which ended may have kept a remainder for which there is no datagram.
structure Settled (p : PayloadSize) (r : Nat) (t : StreamTask .datagrams) : Prop where
  fits : t.loop.Fits p r
  held : t.stage ≠ .sending → t.loop.held < UDP_HEADER_SIZE

theorem held_of_exit {l : UdpSendLoop} {how : LoopExit} (hr : l.point.Roomy)
    (h : l.exit = some how) : l.held < UDP_HEADER_SIZE := by
  unfold exit at h
  unfold held
  split at h
  case h_1 hp =>
    rw [hp] at hr ⊢
    exact hr
  case h_2 hp =>
    rw [hp]
    decide
  case h_3 => contradiction

theorem taskStep_rounds (hb : Whole p.bytes (total.toNat % p.bytes) b.remaining)
    (settled : Settled p (total.toNat % p.bytes) t)
    (hle : stock p b + share p t.loop ≤ (total.toNat, total.toNat % p.bytes))
    (h : StreamTask.step cancelled (b, t) e = some (b', t')) :
    Whole p.bytes (total.toNat % p.bytes) b'.remaining ∧
      Settled p (total.toNat % p.bytes) t' ∧
      stock p b' + share p t'.loop = stock p b + share p t.loop := by
  have fits := settled.fits
  cases StreamTask.step_cases h
  case refuse hs   => exact ⟨hb, ⟨fits, fun _ => settled.held (by simp [hs])⟩, rfl⟩
  case enter hs    => exact ⟨hb, ⟨fits, fun _ => settled.held (by simp [hs])⟩, rfl⟩
  case send hs hl  =>
    have ⟨hb', fits', hc⟩ := step_rounds (Nat.mod_lt _ p.pos) (U64.le_max total) hb fits hle hl
    exact ⟨hb', ⟨fits', fun hn => absurd hs hn⟩, hc⟩
  case leave hs hx => exact ⟨hb, ⟨fits, fun _ => held_of_exit fits.sound.roomy hx⟩, rfl⟩

-- All datagrams but one have the packet size, so what remains and what the loops kept is less than a
-- header together, if each of them is.
theorem sum_held_lt {loops : List UdpSendLoop} {n : Nat}
    (fits : ∀ l ∈ loops, l.Fits p (n % p.bytes)) (held : ∀ l ∈ loops, l.held < UDP_HEADER_SIZE)
    (h : stock p b + (loops.map (share p)).sum = (n, n % p.bytes))
    (hr : b.remaining < UDP_HEADER_SIZE) :
    b.remaining + (loops.map (·.held)).sum < UDP_HEADER_SIZE := by
  have small l hl := ByteBudget.held_of_small (fits l hl) (held l hl)
  have hm : b.remaining % p.bytes = b.remaining :=
    Nat.mod_eq_of_lt (Nat.lt_of_lt_of_le hr p.header_le)
  cases Nat.lt_or_ge (n % p.bytes) UDP_HEADER_SIZE
  case inr hn =>
    have hz : (loops.map (·.held)).sum = 0 := by
      apply List.sum_eq_zero
      intro k hk
      have ⟨l, hl, hk⟩ := List.mem_map.mp hk
      exact hk ▸ (small l hl).right hn
    rwa [hz]
  case inl hn =>
    have hs : (loops.map (·.held)).sum ≤
        (loops.map fun l => l.held % p.bytes + (l.datagrams.map (· % p.bytes)).sum).sum := by
      apply List.sum_le_sum
      intro l hl
      have := (small l hl).left
      omega
    have hc := congrArg Prod.snd h
    rw [ByteBudget.sum_share] at hc
    dsimp only [stock, Prod.snd_add] at hc
    omega

def ledger (p : PayloadSize) (total : UInt64) : SendKind.Ledger .datagrams total where
  Holds b ts := Whole p.bytes (total.toNat % p.bytes) b.remaining ∧
    (∀ t ∈ ts, Settled p (total.toNat % p.bytes) t) ∧
    stock p b + (ts.map fun t => share p t.loop).sum = (total.toNat, total.toNat % p.bytes)
  step holds h :=
    System.interleave_conserved taskStep_rounds holds.left holds.right.left holds.right.right h
  le {b ts} holds := by
    have hc := congrArg Prod.fst holds.right.right
    have hs : (ts.map fun t => share p t.loop) = (ts.map (·.loop)).map (share p) := by
      rw [List.map_map]; rfl
    rw [hs, ByteBudget.sum_share] at hc
    have hd : ByteBudget.delivered (ts.map (·.loop)) = StreamTask.delivered ts := by
      rw [ByteBudget.delivered, List.map_map]; rfl
    dsimp only [stock, Prod.fst_add] at hc
    omega
  settled {b ts} holds ended := by
    have hs : (ts.map fun t => share p t.loop) = (ts.map (·.loop)).map (share p) := by
      rw [List.map_map]; rfl
    have hd : ByteBudget.delivered (ts.map (·.loop)) = StreamTask.delivered ts := by
      rw [ByteBudget.delivered, List.map_map]; rfl
    have hall := holds.right.right
    rw [hs] at hall
    have hc := congrArg Prod.fst hall
    rw [ByteBudget.sum_share] at hc
    dsimp only [stock, Prod.fst_add] at hc
    have held (l : UdpSendLoop) (hl : l ∈ ts.map (·.loop)) :
        l.Fits p (total.toNat % p.bytes) ∧ l.held < UDP_HEADER_SIZE := by
      have ⟨t, ht, hl⟩ := List.mem_map.mp hl
      have he : t.stage = .ended := by simpa [StreamTask.ended] using ended t ht
      have settled := holds.right.left t ht
      exact hl ▸ ⟨settled.fits, settled.held (by simp [he])⟩
    constructor
    case mp =>
      intro hr
      have := sum_held_lt (fun l hl => (held l hl).left) (fun l hl => (held l hl).right) hall hr
      change total.toNat < StreamTask.delivered ts + UDP_HEADER_SIZE
      omega
    case mpr =>
      intro hd
      change total.toNat < StreamTask.delivered ts + UDP_HEADER_SIZE at hd
      change b.remaining < UDP_HEADER_SIZE
      omega

theorem opened_ledger {modes : List (UInt64 × Bool)} :
    (ledger p total).Holds (.new total) ((ByteBudget.senders p modes).map .spawn) := by
  refine ⟨.inr rfl, fun t ht => ?_, ?_⟩
  case refine_1 =>
    have ⟨l, hl, ht⟩ := List.mem_map.mp ht
    have ⟨_, _, hl⟩ := ByteBudget.mem_senders hl
    subst ht hl
    exact ⟨start_fits, fun _ => (by decide : 0 < UDP_HEADER_SIZE)⟩
  case refine_2 =>
    have hz : (((ByteBudget.senders p modes).map (@StreamTask.spawn .datagrams)).map
        fun t => share p t.loop).sum = 0 := by
      apply List.sum_eq_zero
      intro n hn
      have ⟨t, ht, hn⟩ := List.mem_map.mp hn
      have ⟨l, hl, ht⟩ := List.mem_map.mp ht
      have ⟨_, _, hl⟩ := ByteBudget.mem_senders hl
      subst hn ht hl
      simp [StreamTask.spawn, share, start, UdpSendLoop.held, UdpSendPoint.held]
    rw [hz, add_zero]
    rfl

end UdpSendLoop

namespace ByteTest

def ledger (total : UInt64) : (test : ByteTest) → test.kind.Ledger total
  | streams _              => SendLoop.ledger total
  | datagrams packetSize _ => UdpSendLoop.ledger packetSize total

theorem opened_ledger {total : UInt64} {test : ByteTest} :
    (test.ledger total).Holds (test.start total).budget (test.start total).tasks := by
  cases test
  case streams   => exact SendLoop.opened_ledger
  case datagrams => exact UdpSendLoop.opened_ledger

end ByteTest

namespace BudgetRun

variable {kind : SendKind} {total : UInt64} {s s' : BudgetRun kind} {e : ClientEvent kind}

-- What was delivered is the whole budget, but for a rest which is too small to be sent.
def Delivered (total : UInt64) (s : BudgetRun kind) : Prop :=
  total.toNat < StreamTask.delivered s.tasks + kind.slack

-- All stream tasks are over and not all of them went well.
def broken (s : BudgetRun kind) : Bool :=
  s.tasks.all (·.ended) && s.tasks.any (·.failed)

-- The message says that the send loops delivered their whole budget, and a normal completion that
-- none of it was left by streams which failed.
structure Honest (total : UInt64) (s : BudgetRun kind) : Prop where
  finish : 0 < s.finishes → s.Delivered total
  result : s.control = .returned .result → s.broken → s.Delivered total

-- The budget counts as spent whenever the loop takes its last sender for gone, and whenever it takes
-- a result after streams have failed.
def spares (s : BudgetRun kind) : ClientEvent kind → Bool
  | .sendingDone => s.budget.remaining < kind.slack
  | .result      => !s.broken || s.budget.remaining < kind.slack
  | _            => true

theorem senders_eq_zero_iff :
    s.senders = 0 ↔ s.control ≠ .spawning ∧ ∀ t ∈ s.tasks, t.ended := by
  unfold senders
  split
  case isTrue h  => simp [h]
  case isFalse h => simp [h, List.countP_eq_zero]

-- The steps of the loop until it returns.
inductive Step (s : BudgetRun kind) : ClientEvent kind → BudgetRun kind → Prop
  | task {i : Nat} {e : TaskEvent kind} {budget : ByteBudget} {tasks : List (StreamTask kind)} :
    (StreamTask.step s.cancelled).interleave (s.budget, s.tasks) (i, e) = some (budget, tasks) →
    Step s (.task i e) { s with budget, tasks }
  | cancel : Step s .cancel { s with cancelled := true }
  | spawned : s.control = .spawning → Step s .spawned { s with control := .looping }
  | sendingDone :
    s.control = .looping → s.senders = 0 → s.finishSent = false →
    Step s .sendingDone { s with finishSent := true, finishes := s.finishes + 1 }
  | result : s.control = .looping → Step s .result { s with control := .returned .result }
  | error : Step s .error { s with control := .returned .error }

theorem step_cases (h : step s e = some s') :
    (∀ outcome, s.control ≠ .returned outcome) ∧ Step s e s' := by
  unfold step at h
  dsimp only at h
  split at h
  case h_1 => contradiction
  case h_2 hr =>
    have ⟨⟨_, _⟩, ht, h⟩ := Option.map_eq_some_iff.mp h
    cases h
    exact ⟨hr, .task ht⟩
  case h_3 hr =>
    cases h
    exact ⟨hr, .cancel⟩
  case h_4 hc =>
    cases h
    exact ⟨by simp [hc], .spawned hc⟩
  case h_5 hc =>
    have ⟨⟨hs, hf⟩, h⟩ := Option.ite_none_right_eq_some.mp h
    cases h
    exact ⟨by simp [hc], .sendingDone hc hs (by simpa using hf)⟩
  case h_6 hc =>
    cases h
    exact ⟨by simp [hc], .result hc⟩
  case h_7 hr =>
    cases h
    exact ⟨hr, .error⟩
  case h_8 => contradiction

structure Inv (ledger : kind.Ledger total) (s : BudgetRun kind) : Prop where
  holds    : ledger.Holds s.budget s.tasks
  finishes : s.finishes = if s.finishSent then 1 else 0
  senders  : s.finishSent → s.senders = 0

variable {ledger : kind.Ledger total}

-- Before its return a loop is only accountable for the message.
theorem honest_iff (hr : s.control ≠ .returned .result) :
    s.Honest total ↔ (0 < s.finishes → s.Delivered total) :=
  ⟨(·.finish), fun h => ⟨h, fun hc => absurd hc hr⟩⟩

theorem Inv.honest_of_unsent (inv : Inv ledger s) (hf : s.finishSent = false)
    (hr : s.control ≠ .returned .result) : s.Honest total := by
  rw [honest_iff hr, inv.finishes, hf]
  exact fun h => absurd h (Nat.lt_irrefl 0)

theorem Inv.delivered_iff (inv : Inv ledger s) (ended : ∀ t ∈ s.tasks, t.ended) :
    s.Delivered total ↔ s.budget.remaining < kind.slack :=
  (ledger.settled inv.holds ended).symm

theorem Inv.unsent (inv : Inv ledger s) (h : s.senders ≠ 0) : s.finishSent = false :=
  Bool.eq_false_iff.mpr fun hf => h (inv.senders hf)

-- The loop returns with the same ledger.
theorem Inv.returned {r : ClientOutcome} (inv : Inv ledger s) :
    Inv ledger { s with control := .returned r } where
  holds     := inv.holds
  finishes  := inv.finishes
  senders h := senders_eq_zero_iff.mpr ⟨nofun, (senders_eq_zero_iff.mp (inv.senders h)).right⟩

theorem ended_of_broken (h : s.broken = true) : ∀ t ∈ s.tasks, t.ended := by
  simpa using (Bool.and_eq_true_iff.mp h).left

theorem Inv.step (inv : Inv ledger s) (h : step s e = some s') :
    Inv ledger s' ∧ (s'.Honest total ↔ s.Honest total ∧ spares s e) := by
  have ⟨hr, hs⟩ := step_cases h
  have hn : s.control ≠ .returned .result := hr .result
  cases hs
  case task ht =>
    have ⟨t, hm, hl⟩ := StreamTask.exists_of_interleave ht
    have hf : s.finishSent = false :=
      inv.unsent fun hz => by simp [(senders_eq_zero_iff.mp hz).right t hm] at hl
    have inv' : Inv ledger { s with budget := _, tasks := _ } :=
      ⟨ledger.step inv.holds ht, inv.finishes, fun h => by simp [hf] at h⟩
    exact ⟨inv', iff_of_true (inv'.honest_of_unsent hf hn) ⟨inv.honest_of_unsent hf hn, rfl⟩⟩
  case cancel =>
    refine ⟨⟨inv.holds, inv.finishes, inv.senders⟩, ?_⟩
    rw [honest_iff hn, honest_iff (by exact hn)]
    simp [spares, Delivered]
  case spawned hc =>
    have hf : s.finishSent = false :=
      inv.unsent fun hz => (senders_eq_zero_iff.mp hz).left hc
    have inv' : Inv ledger { s with control := .looping } :=
      ⟨inv.holds, inv.finishes, fun h => by simp [hf] at h⟩
    exact ⟨inv', iff_of_true (inv'.honest_of_unsent hf nofun) ⟨inv.honest_of_unsent hf hn, rfl⟩⟩
  case sendingDone hc hz hf =>
    have ended := (senders_eq_zero_iff.mp hz).right
    refine ⟨⟨inv.holds, by simp [inv.finishes, hf], fun _ => hz⟩, ?_⟩
    rw [honest_iff (by exact hn)]
    have hd : { s with finishSent := true, finishes := s.finishes + 1 }.Delivered total ↔
        s.budget.remaining < kind.slack := inv.delivered_iff ended
    simpa [spares, inv.honest_of_unsent hf hn] using hd
  case result hc =>
    refine ⟨inv.returned, ?_⟩
    rw [honest_iff hn]
    constructor
    case mp =>
      intro honest
      refine ⟨honest.finish, ?_⟩
      cases hb : s.broken
      case false => simp [spares, hb]
      case true  =>
        have hd := (inv.delivered_iff (ended_of_broken hb)).mp (honest.result rfl hb)
        simpa [spares, hb] using hd
    case mpr =>
      intro ⟨finish, ok⟩
      refine ⟨finish, fun _ (hb : s.broken) => ?_⟩
      exact (inv.delivered_iff (ended_of_broken hb)).mpr (by simpa [spares, hb] using ok)
  case error =>
    refine ⟨inv.returned, ?_⟩
    rw [honest_iff hn, honest_iff (by simp)]
    simp [spares, Delivered]

theorem inv_start {test : ByteTest} : Inv (test.ledger total) (test.start total) where
  holds    := test.opened_ledger
  finishes := rfl
  senders  := nofun

-- The message is sent once at most, after all stream tasks have ended, and the tasks never deliver
-- more than the budget. But the tasks also end when they fail, so that the message and the normal
-- completion are only honest in those runs where the budget happens to be spent at these points.
theorem finish_sound {test : ByteTest} {events : List (ClientEvent test.kind)}
    {s : BudgetRun test.kind} (run : System.run step (test.start total) events = some s) :
    s.finishes ≤ 1 ∧
    (0 < s.finishes → ∀ t ∈ s.tasks, t.ended) ∧
    StreamTask.delivered s.tasks ≤ total.toNat ∧
    (s.Honest total ↔ (System.guard step spares).run (test.start total) events = some s) := by
  have inv : Inv (test.ledger total) s := System.run_invariant
    (fun inv h => (Inv.step inv h).left) inv_start run
  refine ⟨?_, fun hf => ?_, (test.ledger total).le inv.holds, ?_⟩
  case refine_1 =>
    rw [inv.finishes]
    split <;> omega
  case refine_2 =>
    have hs : s.finishSent := by
      rw [inv.finishes] at hf
      by_contra h
      simp [h] at hf
    exact (senders_eq_zero_iff.mp (inv.senders hs)).right
  case refine_3 =>
    have honest : (test.start total).Honest total := inv_start.honest_of_unsent rfl nofun
    exact System.run_guard_iff (I := Inv (test.ledger total)) Inv.step inv_start honest run

-- The second stream finds the budget to be spent while the first one holds all of it, whose write
-- fails then.
def failedWrite : List (ClientEvent SendKind.streams) :=
  [
    .spawned, .task 0 .enter, .task 1 .enter, .task 0 (.send .claim), .task 0 (.send .load),
    .task 0 (.send (.attempt false)), .task 1 (.send .claim), .task 1 (.send .load),
    .task 1 (.send (.attempt false)), .task 1 .leave, .task 0 (.send .failed),
    .task 0 (.send .refund), .task 0 .leave, .sendingDone, .result
  ]

def twoStreams : ByteTest :=
  .streams [.sendData {} false none, .sendData {} false none]

-- Nothing was sent, and the client neither knows it nor says so.
theorem finishes_undelivered : ∃ s, System.run step (twoStreams.start 100) failedWrite = some s ∧
    s.finishes = 1 ∧ s.control = .returned .result ∧ s.broken ∧
    StreamTask.delivered s.tasks = 0 ∧ ¬s.Honest 100 := by
  have hm : (System.run step (twoStreams.start 100) failedWrite).map (fun s =>
      (s.finishes, s.control, s.broken, StreamTask.delivered s.tasks)) =
      some (1, .returned .result, true, 0) := by decide
  have ⟨s, run, h⟩ := Option.map_eq_some_iff.mp hm
  simp only [Prod.mk.injEq] at h
  have ⟨hf, hc, hb, hd⟩ := h
  refine ⟨s, run, hf, hc, hb, hd, fun honest => ?_⟩
  have hw : (100 : UInt64).toNat < StreamTask.delivered s.tasks + 1 := honest.finish (by omega)
  rw [hd] at hw
  exact absurd hw (by decide)

-- The second stream is refused, and the first one writes the budget on its own.
def refusedStream : List (ClientEvent SendKind.streams) :=
  [
    .task 1 .refuse, .task 0 .enter, .spawned, .task 0 (.send .claim), .task 0 (.send .load),
    .task 0 (.send (.attempt false)), .task 0 (.send (.written 100)), .task 0 (.send .refund),
    .task 0 (.send (.paced false)), .task 0 (.send .claim), .task 0 (.send .load),
    .task 0 (.send (.attempt false)), .task 0 .leave, .sendingDone, .result
  ]

theorem finish_sound_refusedStream : ∃ s : BudgetRun SendKind.streams,
    System.run step (twoStreams.start 100) refusedStream = some s ∧ s.Honest 100 := by
  have hm : ((System.guard step spares).run (twoStreams.start 100) refusedStream).isSome := by decide
  have ⟨s, guarded⟩ := Option.isSome_iff_exists.mp hm
  have run : System.run step (twoStreams.start 100) refusedStream = some s :=
    System.run_of_guard guarded
  have ⟨_, _, _, honest⟩ := finish_sound run
  exact ⟨s, run, honest.mpr guarded⟩

end BudgetRun
