import Xfr.Output.Prometheus

open Utf8 (Text)
open Recent (recent touch)

theorem FinishedTest.Covers.testId_eq {e : FinishedTest} {k : Series} (h : e.Covers k) :
    k.testId = e.testId := by
  cases k
  case stream => exact h.left
  case tcp    => exact h

-- An entry has all streams which are sampled.
def FinishedTest.Samples {α : Type*} (e : FinishedTest) (sample : TestSample α) : Prop :=
  ∀ i < sample.streams.length, streamLabel i ∈ e.streams

theorem ExportedTest.samples {α : Type*} {t : ExportedTest} {sample : TestSample α}
    (h : sample.streams.length = t.streams) : t.entry.Samples sample :=
  fun i hi => List.mem_map.mpr ⟨i, List.mem_range.mpr (h ▸ hi), rfl⟩

namespace MetricsOp

variable {α : Type*} {a b ops : List (MetricsOp α)} {op : MetricsOp α} {e entry : FinishedTest}
  {q : List FinishedTest} {k : Series} {sample : TestSample α} {completed : Bool} {t : ExportedTest}

-- What an operation does to the queue and to the counts.
def queue (q : List FinishedTest) : MetricsOp α → List FinishedTest
  | push e => q ++ [e]
  | pop e  => q.erase e
  | _      => q

def active : MetricsOp α → Int
  | decActive => -1
  | _         => 0

def tests : MetricsOp α → Nat
  | incTests => 1
  | _        => 0

-- Only series of this test are written, and only its entry is added.
def Within (entry : FinishedTest) : MetricsOp α → Prop
  | set k _ | incBy k _ => entry.Covers k
  | push e              => e = entry
  | _                   => True

-- Nothing is done but to write.
def IsWrite : MetricsOp α → Prop
  | push _ | pop _ | remove _ | decActive | incTests => False
  | _                                                => True

-- The series of an entry are removed after it was taken out of the queue.
def Orderly : List (MetricsOp α) → Prop
  | []           => True
  | pop e :: ops => (∀ k, e.Covers k → remove k ∈ ops) ∧ Orderly ops
  | _ :: ops     => Orderly ops

theorem Orderly.tail (h : Orderly (op :: ops)) : Orderly ops := by
  cases op
  case pop => exact h.right
  all_goals exact h

theorem Orderly.append (ha : Orderly a) (hb : Orderly b) : Orderly (a ++ b) := by
  induction a
  case nil => exact hb
  case cons op a hi =>
    have hi := hi ha.tail
    cases op
    case pop e => exact ⟨fun k hk => List.mem_append_left b (ha.left k hk), hi⟩
    all_goals exact hi

theorem Orderly.flatMap {q : List FinishedTest} {f : FinishedTest → List (MetricsOp α)}
    (h : ∀ e ∈ q, Orderly (f e)) : Orderly (q.flatMap f) := by
  induction q
  case nil => trivial
  case cons e q hi =>
    have ⟨he, hq⟩ := List.forall_mem_cons.mp h
    exact he.append (hi hq)

theorem orderly_of_not_pop (h : ∀ op ∈ ops, ∀ e, op ≠ pop e) : Orderly ops := by
  induction ops
  case nil => trivial
  case cons op ops hi =>
    have ⟨ho, hops⟩ := List.forall_mem_cons.mp h
    cases op
    case pop e => exact absurd rfl (ho e)
    all_goals exact hi hops

theorem mem_removeSeries : remove k ∈ (removeSeries e : List (MetricsOp α)) ↔ e.Covers k := by
  cases k
  case stream vec testId streamId =>
    cases vec <;> simp [removeSeries, FinishedTest.Covers] <;> tauto
  case tcp vec testId =>
    cases vec <;> simp [removeSeries, FinishedTest.Covers]

theorem of_mem_removeSeries (h : op ∈ removeSeries e) : ∃ k, op = remove k ∧ e.Covers k := by
  have hr : ∃ k, op = remove k := by
    rcases List.mem_append.mp h with h | h
    · have ⟨_, _, h⟩ := List.mem_flatMap.mp h
      simp only [List.mem_cons, List.not_mem_nil, or_false] at h
      rcases h with rfl | rfl | rfl <;> exact ⟨_, rfl⟩
    · simp only [List.mem_cons, List.not_mem_nil, or_false] at h
      rcases h with rfl | rfl <;> exact ⟨_, rfl⟩
  have ⟨k, hk⟩ := hr
  exact ⟨k, hk, mem_removeSeries.mp (hk ▸ h)⟩

theorem of_mem_retire (h : op ∈ retire e) : op = pop e ∨ ∃ k, op = remove k ∧ e.Covers k :=
  (List.mem_cons.mp h).imp_right of_mem_removeSeries

theorem orderly_retire : Orderly (retire e : List (MetricsOp α)) := by
  refine ⟨fun k hk => mem_removeSeries.mpr hk, orderly_of_not_pop fun op ho e' he => ?_⟩
  have ⟨_, hr, _⟩ := of_mem_removeSeries ho
  exact nomatch hr.symm.trans he

theorem of_mem_updateMetrics (h : op ∈ updateMetrics entry.testId sample) :
    op.IsWrite ∧ (entry.Samples sample → op.Within entry) := by
  rcases List.mem_append.mp h with h | h
  · rcases List.mem_append.mp h with h | h
    · have ⟨_, _, he⟩ := Option.map_eq_some_iff.mp (Option.mem_toList.mp h)
      exact he ▸ ⟨trivial, fun _ => trivial⟩
    · have ⟨⟨stream, i⟩, hm, he⟩ := List.mem_map.mp h
      exact he ▸ ⟨trivial, fun hs => ⟨rfl, hs i (List.mem_zipIdx' hm).left⟩⟩
  · have ⟨_, _, he⟩ := Option.map_eq_some_iff.mp (Option.mem_toList.mp h)
    exact he ▸ ⟨trivial, fun _ => rfl⟩

theorem of_mem_updateCounters (h : op ∈ updateCounters entry.testId sample) :
    op.IsWrite ∧ (entry.Samples sample → op.Within entry) := by
  rcases List.mem_append.mp h with h | h
  · rcases List.mem_cons.mp h with rfl | h
    · exact ⟨trivial, fun _ => trivial⟩
    · have ⟨⟨stream, i⟩, hm, h⟩ := List.mem_flatMap.mp h
      have hi := (List.mem_zipIdx' hm).left
      simp only [List.mem_cons, List.not_mem_nil, or_false] at h
      rcases h with rfl | rfl <;> exact ⟨trivial, fun hs => ⟨rfl, hs i hi⟩⟩
  · have ⟨_, _, he⟩ := Option.map_eq_some_iff.mp (Option.mem_toList.mp h)
    exact he ▸ ⟨trivial, fun _ => rfl⟩

-- The final values of a test.
def final (entry : FinishedTest) (sample : TestSample α) (completed : Bool) :
    List (MetricsOp α) :=
  updateMetrics entry.testId sample ++
  (if completed then updateCounters entry.testId sample else [])

theorem of_mem_final (h : op ∈ final entry sample completed) :
    op.IsWrite ∧ (entry.Samples sample → op.Within entry) := by
  rcases List.mem_append.mp h with h | h
  · exact of_mem_updateMetrics h
  · cases completed
    case true  => exact of_mem_updateCounters h
    case false => simp at h

-- What a finish does before it retires old entries.
def finishing (q : List FinishedTest) (entry : FinishedTest) (sample : TestSample α)
    (completed : Bool) : List (MetricsOp α) :=
  (q.find? (·.testId = entry.testId)).toList.flatMap retire ++
  (decActive :: if completed then [incTests, observe sample.elapsedSeconds] else []) ++
  final entry sample completed ++ [push entry]

def after (q : List FinishedTest) (entry : FinishedTest) : List FinishedTest :=
  q.eraseP (·.testId = entry.testId) ++ [entry]

theorem finish_eq : finish q entry sample completed = finishing q entry sample completed ++
    ((after q entry).take ((after q entry).length - RETAINED_TESTS)).flatMap retire := by
  simp [finish, finishing, final, after]

-- Operations which neither take the queue nor count.
def Quiet (op : MetricsOp α) : Prop :=
  (∀ q, op.queue q = q) ∧ op.active = 0 ∧ op.tests = 0

theorem IsWrite.quiet (h : op.IsWrite) : op.Quiet := by
  cases op
  case set | incBy | observe | incBytes | setThroughput => exact ⟨fun _ => rfl, rfl, rfl⟩
  all_goals exact absurd h id

-- What all operations together do.
def queues (q : List FinishedTest) (ops : List (MetricsOp α)) : List FinishedTest :=
  ops.foldl queue q

def actives (ops : List (MetricsOp α)) : Int :=
  (ops.map active).sum

def count (ops : List (MetricsOp α)) : Nat :=
  (ops.map tests).sum

structure Idle (ops : List (MetricsOp α)) : Prop where
  queues  : ∀ q, queues q ops = q
  actives : actives ops = 0
  count   : count ops = 0

theorem idle_of_quiet (h : ∀ op ∈ ops, op.Quiet) : Idle ops := by
  induction ops
  case nil => exact ⟨fun _ => rfl, rfl, rfl⟩
  case cons op ops hi =>
    have ⟨⟨hq, ha, hc⟩, hops⟩ := List.forall_mem_cons.mp h
    have ⟨queues, actives, count⟩ := hi hops
    refine ⟨fun q => (congrArg (MetricsOp.queues · ops) (hq q)).trans (queues q), ?_, ?_⟩
    · simpa [MetricsOp.actives, ha] using actives
    · simpa [MetricsOp.count, hc] using count

theorem idle_removeSeries : Idle (removeSeries e : List (MetricsOp α)) := by
  refine idle_of_quiet fun op ho => ?_
  have ⟨_, hr, _⟩ := of_mem_removeSeries ho
  exact hr ▸ ⟨fun _ => rfl, rfl, rfl⟩

@[simp]
theorem queues_append : queues q (a ++ b) = queues (queues q a) b :=
  List.foldl_append

@[simp]
theorem actives_append : actives (a ++ b) = actives a + actives b := by
  simp [actives]

@[simp]
theorem count_append : count (a ++ b) = count a + count b := by
  simp [count]

theorem queues_retire : queues q (retire e : List (MetricsOp α)) = q.erase e :=
  idle_removeSeries.queues (q.erase e)

theorem actives_retires {entries : List FinishedTest} :
    actives (entries.flatMap retire : List (MetricsOp α)) = 0 := by
  induction entries
  case nil => rfl
  case cons e entries hi =>
    have he : actives (retire e : List (MetricsOp α)) = 0 := by
      simpa [retire, actives, active] using (@idle_removeSeries α e).actives
    rw [List.flatMap_cons, actives_append, he, hi, add_zero]

theorem count_retires {entries : List FinishedTest} :
    count (entries.flatMap retire : List (MetricsOp α)) = 0 := by
  induction entries
  case nil => rfl
  case cons e entries hi =>
    have he : count (retire e : List (MetricsOp α)) = 0 := by
      simpa [retire, count, tests] using (@idle_removeSeries α e).count
    rw [List.flatMap_cons, count_append, he, hi]

-- The oldest entries are taken from the front.
theorem queues_retires {n : Nat} :
    queues q ((q.take n).flatMap retire : List (MetricsOp α)) = q.drop n := by
  induction n generalizing q
  case zero => rfl
  case succ n hi =>
    cases q
    case nil => rfl
    case cons e q =>
      rw [List.take_succ_cons, List.flatMap_cons, queues_append, queues_retire,
        List.erase_cons_head, hi, List.drop_succ_cons]

theorem erase_eq_eraseP {p : FinishedTest → Bool} (h : q.find? p = some e) :
    q.erase e = q.eraseP p := by
  induction q
  case nil => simp at h
  case cons e' q hi =>
    cases hp : p e'
    case true =>
      obtain rfl : e' = e := by simpa [hp] using h
      simp [hp]
    case false =>
      have h : q.find? p = some e := by simpa [hp] using h
      have hne : e' ≠ e := fun he => by simp [he, List.find?_some h] at hp
      rw [List.eraseP_cons_of_neg (by simp [hp]), ← hi h, List.erase_cons_tail (by simpa using hne)]

theorem idle_final : Idle (final entry sample completed) :=
  idle_of_quiet fun _ ho => (of_mem_final ho).left.quiet

theorem queues_finishing : queues q (finishing q entry sample completed) = after q entry := by
  have earlier : queues q ((q.find? (·.testId = entry.testId)).toList.flatMap retire :
      List (MetricsOp α)) = q.eraseP (·.testId = entry.testId) := by
    cases h : q.find? (·.testId = entry.testId)
    case none   => rw [List.eraseP_of_forall_not (by simpa using h)]; rfl
    case some e => simp [queues_retire, erase_eq_eraseP h]
  have counts (q' : List FinishedTest) : queues q' (decActive ::
      if completed then [incTests, observe sample.elapsedSeconds] else [] : List (MetricsOp α)) =
        q' := by
    cases completed <;> rfl
  rw [finishing, queues_append, queues_append, queues_append, earlier, counts, idle_final.queues]
  rfl

-- Taken together, a finish touches the id of its test, and the test is the last entry.
theorem queues_finish : (queues q (finish q entry sample completed)).map (·.testId) =
    touch RETAINED_TESTS entry.testId (q.map (·.testId)) := by
  have mapped : (after q entry).map (·.testId) =
      (q.map (·.testId)).eraseP (· = entry.testId) ++ [entry.testId] := by
    rw [after, List.map_append, List.eraseP_map, List.map_singleton]
    rfl
  have hl : (after q entry).length =
      ((q.map (·.testId)).eraseP (· = entry.testId) ++ [entry.testId]).length := by
    rw [← mapped, List.length_map]
  rw [finish_eq, queues_append, queues_finishing, queues_retires, List.map_drop, mapped, hl,
    Recent.touch_eq]

theorem mem_queues_finish : entry ∈ queues q (finish q entry sample completed) := by
  rw [finish_eq, queues_append, queues_finishing, queues_retires, after, List.drop_append_of_le_length]
  · exact List.mem_append_right _ List.mem_cons_self
  · simp [RETAINED_TESTS]

theorem actives_finish : actives (finish q entry sample completed) = -1 := by
  rw [finish_eq, finishing, actives_append, actives_append, actives_append, actives_append,
    actives_retires, actives_retires, idle_final.actives]
  cases completed <;> rfl

theorem count_finish :
    count (finish q entry sample completed) = if completed then 1 else 0 := by
  rw [finish_eq, finishing, count_append, count_append, count_append, count_append,
    count_retires, count_retires, idle_final.count]
  cases completed <;> rfl

theorem orderly_finish : Orderly (finish q entry sample completed) := by
  have retires (entries : List FinishedTest) :
      Orderly (entries.flatMap retire : List (MetricsOp α)) :=
    .flatMap fun _ _ => orderly_retire
  have final : Orderly (final entry sample completed) := by
    refine orderly_of_not_pop fun op ho e he => ?_
    exact absurd (of_mem_final ho).left (he ▸ id)
  rw [finish_eq, finishing]
  refine ((((retires _).append ?_).append final).append ?_).append (retires _)
  · cases completed <;> trivial
  · trivial

-- What is removed belongs to an earlier test with the same id or to an old entry.
def Removes (entry : FinishedTest) (q : List FinishedTest) (op : MetricsOp α) : Prop :=
  ∀ k, op = remove k → k.testId = entry.testId ∨ k.testId ∈ q.map (·.testId)

theorem of_mem_retires {entries : List FinishedTest} (h : op ∈ entries.flatMap retire)
    (he : ∀ e ∈ entries, e.testId = entry.testId ∨ e ∈ q) :
    op.Within entry ∧ op.Removes entry q := by
  have ⟨e, hm, ho⟩ := List.mem_flatMap.mp h
  rcases of_mem_retire ho with rfl | ⟨k, rfl, hk⟩
  · exact ⟨trivial, fun _ h => nomatch h⟩
  · refine ⟨trivial, fun k' hk' => ?_⟩
    obtain rfl := MetricsOp.remove.inj hk'
    rw [hk.testId_eq]
    exact (he e hm).imp_right (List.mem_map_of_mem)

theorem of_mem_finish (h : op ∈ finish q entry sample completed) (hs : entry.Samples sample) :
    op.Within entry ∧ op.Removes entry q := by
  rw [finish_eq, finishing] at h
  rcases List.mem_append.mp h with h | h
  case inr =>
    refine of_mem_retires h fun e he => ?_
    rcases List.mem_append.mp (List.mem_of_mem_take he) with he | he
    · exact .inr (List.mem_of_mem_eraseP he)
    · exact .inl (by rw [List.mem_singleton.mp he])
  case inl =>
    rcases List.mem_append.mp h with h | h
    case inr => exact List.mem_singleton.mp h ▸ ⟨rfl, fun _ h => nomatch h⟩
    case inl =>
      rcases List.mem_append.mp h with h | h
      case inr =>
        have ⟨write, within⟩ := of_mem_final h
        exact ⟨within hs, fun k hk => absurd write (hk ▸ id)⟩
      case inl =>
        rcases List.mem_append.mp h with h | h
        case inl =>
          refine of_mem_retires h fun e he => .inl ?_
          simpa using List.find?_some (Option.mem_toList.mp he)
        case inr =>
          have hc : op = decActive ∨ op = incTests ∨ op = observe sample.elapsedSeconds := by
            cases completed
            case true  => simpa using h
            case false => exact .inl (by simpa using h)
          rcases hc with rfl | rfl | rfl <;> exact ⟨trivial, fun _ h => nomatch h⟩

end MetricsOp
