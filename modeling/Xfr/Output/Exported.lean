import Xfr.Output.Retention

open Recent (recent)

namespace XfrMetrics

variable {α : Type*} [Zero α] [Add α] {m : XfrMetrics α} {op : MetricsOp α} {k : Series}

theorem finished_exec : (m.exec op).finished = op.queue m.finished := by
  cases op <;> rfl

theorem activeTests_exec : (m.exec op).activeTests = m.activeTests + op.active := by
  cases op
  case decActive => rfl
  all_goals exact (add_zero _).symm

theorem testsTotal_exec : (m.exec op).testsTotal = m.testsTotal + op.tests := by
  cases op <;> rfl

-- New series come from writes.
theorem series_exec (h : ((m.exec op).series k).isSome) :
    ((∃ value, op = .set k value) ∨ ∃ value, op = .incBy k value) ∨
      ((m.series k).isSome ∧ op ≠ .remove k) := by
  cases op
  case set k' value =>
    by_cases hk : k = k'
    case pos => exact .inl (.inl ⟨value, by rw [hk]⟩)
    case neg => exact .inr ⟨by simpa [exec, setSeries, hk] using h, nofun⟩
  case incBy k' value =>
    by_cases hk : k = k'
    case pos => exact .inl (.inr ⟨value, by rw [hk]⟩)
    case neg => exact .inr ⟨by simpa [exec, setSeries, hk] using h, nofun⟩
  case remove k' =>
    by_cases hk : k = k'
    case pos => simp [exec, setSeries, hk] at h
    case neg => exact .inr ⟨by simpa [exec, setSeries, hk] using h, by simpa [eq_comm] using hk⟩
  all_goals exact .inr ⟨h, nofun⟩

theorem series_exec_keeps (h : (m.series k).isSome) (hr : op ≠ .remove k) :
    ((m.exec op).series k).isSome := by
  cases op
  case set k' value =>
    by_cases hk : k = k' <;> simp [exec, setSeries, hk, h]
  case incBy k' value =>
    by_cases hk : k = k' <;> simp [exec, setSeries, hk]
    exact h
  case remove k' =>
    have hk : k ≠ k' := fun he => hr (by rw [he])
    simpa [exec, setSeries, hk] using h
  all_goals exact h

end XfrMetrics

namespace Exporter

open MetricsOp (queues actives count Orderly)

variable {ι α : Type*} {tests : ι → ExportedTest} {s s' : Exporter ι α} {x : ι} {k : Series}
  {op : MetricsOp α} {ops : List (MetricsOp α)}

-- A test which was updated, and whose finish has not returned.
def Unfinished (s : Exporter ι α) (x : ι) : Prop :=
  s.phase x = .running true ∨ s.phase x = .finishing

def todo (s : Exporter ι α) : List (MetricsOp α) :=
  s.finishing.elim [] (·.todo)

-- The ids of all tests which are finished, or will be once the lock is free.
def ids (tests : ι → ExportedTest) (s : Exporter ι α) : List Utf8.Text :=
  s.history ++ s.finishing.elim [] fun f => [(tests f.test).testId]

def completing (s : Exporter ι α) : Nat :=
  s.finishing.elim 0 fun f => if f.completed then 1 else 0

inductive Step [DecidableEq ι] [Zero α] [Add α] (tests : ι → ExportedTest) (s : Exporter ι α) :
    ExportEvent ι α → Exporter ι α → Prop
  | start {x : ι} : s.phase x = .idle → Step tests s (.start x)
      { s.goto x (.running false) with
        metrics := s.metrics.onTestStart, started := s.started + 1 }
  | update {x : ι} {sample : TestSample α} {b : Bool} :
      s.phase x = .running b → sample.streams.length = (tests x).streams →
      Step tests s (.update x sample) { s.goto x (.running true) with
        live := Function.update s.live x
          (s.live x ++ MetricsOp.updateMetrics (tests x).testId sample) }
  | live {x : ι} {n : Nat} {op : MetricsOp α} : (s.live x)[n]? = some op → Step tests s (.live x n)
      { s.write x op with live := Function.update s.live x ((s.live x).eraseIdx n) }
  | finish {x : ι} {sample : TestSample α} {completed b : Bool} :
      s.phase x = .running b → s.live x = [] → s.finishing = none →
      sample.streams.length = (tests x).streams →
      Step tests s (.finish x sample completed) { s.goto x .finishing with
        written   := s.written.filter (·.fst ≠ x)
        finishing := some {
          test := x, completed
          todo := MetricsOp.finish s.metrics.finished (tests x).entry sample completed } }
  | exec {f : Finishing ι α} {op : MetricsOp α} {todo : List (MetricsOp α)} :
      s.finishing = some f → f.todo = op :: todo → Step tests s .proceed
        { s with metrics := s.metrics.exec op, finishing := some { f with todo } }
  | finished {f : Finishing ι α} : s.finishing = some f → f.todo = [] → Step tests s .proceed
      { s.goto f.test .finished with
        finishing := none
        completed := if f.completed then s.completed + 1 else s.completed
        history   := s.history ++ [(tests f.test).testId] }

theorem step_cases [DecidableEq ι] [Zero α] [Add α] {e : ExportEvent ι α}
    (h : step tests s e = some s') : Step tests s e s' := by
  cases e
  all_goals
    unfold step at h
    dsimp only at h
  case start x =>
    split at h
    case h_1 hp => exact Option.some_inj.mp h ▸ .start hp
    case h_2    => contradiction
  case update x sample =>
    split at h
    case h_2 => contradiction
    case h_1 hp =>
      have ⟨hl, h⟩ := Option.ite_none_right_eq_some.mp h
      exact Option.some_inj.mp h ▸ .update hp hl
  case live x n =>
    split at h
    case h_1 ho => exact Option.some_inj.mp h ▸ .live ho
    case h_2    => contradiction
  case finish x sample completed =>
    split at h
    case h_2 => contradiction
    case h_1 hp live lock =>
      have ⟨hl, h⟩ := Option.ite_none_right_eq_some.mp h
      exact Option.some_inj.mp h ▸ .finish hp live lock hl
  case proceed =>
    split at h
    case h_1 => contradiction
    case h_2 f hf =>
      split at h
      case h_1 op todo ht => exact Option.some_inj.mp h ▸ .exec hf ht
      case h_2 ht         => exact Option.some_inj.mp h ▸ .finished hf ht

-- Why a series is exported.
inductive Justified (tests : ι → ExportedTest) (s : Exporter ι α) (k : Series) : Prop
  | unfinished {x : ι} : s.Unfinished x → (tests x).entry.Covers k → Justified tests s k
  | retained {e : FinishedTest} : e ∈ s.metrics.finished → e.Covers k → Justified tests s k
  | retiring : .remove k ∈ s.todo → Justified tests s k

structure FinishSound (tests : ι → ExportedTest) (s : Exporter ι α) (f : Finishing ι α) : Prop where
  phase   : s.phase f.test = .finishing
  orderly : Orderly f.todo
  within  : ∀ op ∈ f.todo, op.Within (tests f.test).entry
  removes : ∀ k, .remove k ∈ f.todo → k.testId = (tests f.test).testId ∨
              k.testId ∈ recent RETAINED_TESTS s.history
  entry   : (tests f.test).entry ∈ queues s.metrics.finished f.todo

structure Inv (tests : ι → ExportedTest) (s : Exporter ι α) : Prop where
  live      : ∀ x, ∀ op ∈ s.live x,
                s.phase x = .running true ∧ op.IsWrite ∧ op.Within (tests x).entry
  finishing : ∀ f, s.finishing = some f → FinishSound tests s f
  queue     : (queues s.metrics.finished s.todo).map (·.testId) = recent RETAINED_TESTS (s.ids tests)
  retained  : ∀ e ∈ s.metrics.finished, e.testId ∈ recent RETAINED_TESTS s.history ∨
                ∃ x, s.Unfinished x ∧ (tests x).testId = e.testId
  series    : ∀ k, (s.metrics.series k).isSome → Justified tests s k
  active    : s.metrics.activeTests + actives s.todo = s.started - (s.ids tests).length
  total     : s.metrics.testsTotal + count s.todo = s.completed + s.completing

namespace Justified

theorem mono (j : Justified tests s k) (hu : ∀ x, s.Unfinished x → s'.Unfinished x)
    (hq : ∀ e ∈ s.metrics.finished, e.Covers k → e ∈ s'.metrics.finished ∨ .remove k ∈ s'.todo)
    (hr : .remove k ∈ s.todo → .remove k ∈ s'.todo) : Justified tests s' k := by
  cases j
  case unfinished x ux hc => exact .unfinished (hu x ux) hc
  case retained e he hc =>
    cases hq e he hc
    case inl he => exact .retained he hc
    case inr hr => exact .retiring hr
  case retiring h => exact .retiring (hr h)

theorem exec {todo : List (MetricsOp α)} [Zero α] [Add α] {f : Finishing ι α}
    (hf : s.finishing = some f) (ht : f.todo = op :: todo) (sound : FinishSound tests s f)
    (justified : ∀ k, (s.metrics.series k).isSome → Justified tests s k)
    (hk : ((s.metrics.exec op).series k).isSome) :
    Justified tests
      { s with metrics := s.metrics.exec op, finishing := some { f with todo } } k := by
  have within := sound.within op (ht ▸ List.mem_cons_self)
  rcases XfrMetrics.series_exec hk with (⟨_, rfl⟩ | ⟨_, rfl⟩) | ⟨hs, hne⟩
  · exact .unfinished (.inr sound.phase) within
  · exact .unfinished (.inr sound.phase) within
  · refine (justified k hs).mono (fun _ h => h) (fun e he hc => ?_) fun hr => ?_
    case refine_1 =>
      rw [XfrMetrics.finished_exec]
      cases op
      case push e' => exact .inl (List.mem_append_left _ he)
      case pop e' =>
        by_cases hee : e = e'
        case pos =>
          have orderly := sound.orderly
          rw [ht] at orderly
          exact .inr (orderly.left k (hee ▸ hc))
        case neg => exact .inl ((List.mem_erase_of_ne hee).mpr he)
      all_goals exact .inl he
    case refine_2 =>
      have hr : .remove k ∈ op :: todo := by simpa [Exporter.todo, hf, ht] using hr
      exact (List.mem_cons.mp hr).resolve_left fun he => hne he.symm

end Justified

namespace Inv

variable [Zero α]

theorem init : Inv tests (init : Exporter ι α) where
  live      := by simp [Exporter.init]
  finishing := by simp [Exporter.init]
  queue     := Recent.recent_nil.symm
  retained  := by simp [Exporter.init, XfrMetrics.new]
  series    := by simp [Exporter.init, XfrMetrics.new]
  active    := rfl
  total     := rfl

variable [Add α]

theorem exec {todo : List (MetricsOp α)} {f : Finishing ι α} (inv : Inv tests s)
    (hf : s.finishing = some f) (ht : f.todo = op :: todo) :
    Inv tests { s with metrics := s.metrics.exec op, finishing := some { f with todo } } := by
  have sound := inv.finishing f hf
  have todo_eq : s.todo = op :: todo := by simp [Exporter.todo, hf, ht]
  have queues_eq (q : List FinishedTest) : queues (op.queue q) todo = queues q (op :: todo) := rfl
  have queue := inv.queue
  have active := inv.active
  have total := inv.total
  rw [todo_eq] at queue active total
  refine {
    live := inv.live
    finishing := fun f' hf' => ?_
    queue := ?_
    retained := fun e he => ?_
    series := fun k hk => .exec hf ht sound inv.series hk
    active := ?_
    total := ?_ }
  case refine_1 =>
    obtain rfl := Option.some_inj.mp hf'
    have mem {op' : MetricsOp α} (h : op' ∈ todo) : op' ∈ f.todo := ht ▸ List.mem_cons_of_mem op h
    refine ⟨sound.phase, (ht ▸ sound.orderly).tail, fun op' h => sound.within op' (mem h),
      fun k h => sound.removes k (mem h), ?_⟩
    have entry := sound.entry
    rw [ht, ← queues_eq] at entry
    rw [XfrMetrics.finished_exec]
    exact entry
  case refine_2 =>
    rw [XfrMetrics.finished_exec]
    exact (congrArg _ (queues_eq _)).trans (queue.trans (by simp [ids, hf]))
  case refine_3 =>
    rw [XfrMetrics.finished_exec] at he
    cases op
    case push e' =>
      rcases List.mem_append.mp he with he | he
      · exact inv.retained e he
      · have within : e' = (tests f.test).entry := sound.within (.push e') (ht ▸ List.mem_cons_self)
        rw [List.mem_singleton.mp he, within]
        exact .inr ⟨f.test, .inr sound.phase, rfl⟩
    case pop e' => exact inv.retained e (List.mem_of_mem_erase he)
    all_goals exact inv.retained e he
  case refine_4 =>
    rw [XfrMetrics.activeTests_exec, add_assoc]
    exact active.trans (by simp [ids, hf])
  case refine_5 =>
    rw [XfrMetrics.testsTotal_exec, add_assoc]
    exact total.trans (by simp [completing, hf])

end Inv

section Phases

variable [DecidableEq ι] {p : ExportPhase} {y : ι}

theorem phase_goto : (s.goto x p).phase y = if y = x then p else s.phase y := by
  by_cases h : y = x <;> simp [Exporter.goto, h]

-- A test moves on, but is not finished by that.
structure Moves (s : Exporter ι α) (x : ι) (p : ExportPhase) : Prop where
  begins  : s.phase x ≠ .finishing
  updated : s.phase x = .running true → p = .running true ∨ p = .finishing
  live    : p ≠ .running true → s.live x = []

theorem Moves.unfinished (m : s.Moves x p) (h : s.Unfinished y) : (s.goto x p).Unfinished y := by
  rw [Unfinished, phase_goto]
  split
  case isFalse => exact h
  case isTrue hy =>
    subst hy
    exact m.updated (h.resolve_right m.begins)

theorem Inv.goto (inv : Inv tests s) (m : s.Moves x p) : Inv tests (s.goto x p) where
  live y op ho := by
    have ⟨hy, hw⟩ := inv.live y op ho
    refine ⟨?_, hw⟩
    rw [phase_goto]
    split
    case isFalse => exact hy
    case isTrue hx =>
      subst hx
      exact by_contra fun hp => List.not_mem_nil ((m.live hp) ▸ ho)
  finishing f hf := by
    have sound := inv.finishing f hf
    have ne : f.test ≠ x := fun he => m.begins (he ▸ sound.phase)
    exact { sound with phase := by rw [phase_goto, if_neg ne, sound.phase] }
  queue := inv.queue
  retained e he := (inv.retained e he).imp_right fun ⟨y, hu, hy⟩ => ⟨y, m.unfinished hu, hy⟩
  series k hk := (inv.series k hk).mono (fun _ => m.unfinished) (fun _ he _ => .inl he) id
  active := inv.active
  total := inv.total

theorem Inv.start (inv : Inv tests s) (h : s.phase x = .idle) :
    Inv tests { s.goto x (.running false) with
      metrics := s.metrics.onTestStart, started := s.started + 1 } := by
  have live : s.live x = [] := by
    refine List.eq_nil_iff_forall_not_mem.mpr fun op ho => ?_
    exact nomatch h.symm.trans (inv.live x op ho).left
  have moves : s.Moves x (.running false) := ⟨by simp [h], by simp [h], fun _ => live⟩
  have inv := inv.goto moves
  have active := inv.active
  refine { inv with
    finishing := fun f hf => { inv.finishing f hf with }
    series := fun k hk => (inv.series k hk).mono (fun _ h => h) (fun _ he _ => .inl he) id
    active := ?_ }
  have step : s.metrics.activeTests + 1 + actives s.todo =
      ((s.started + 1 : Nat) : Int) - (s.ids tests).length := by
    have active : s.metrics.activeTests + actives s.todo = s.started - (s.ids tests).length := active
    omega
  exact step

theorem Inv.update {sample : TestSample α} {b : Bool} (inv : Inv tests s)
    (h : s.phase x = .running b) (hl : sample.streams.length = (tests x).streams) :
    Inv tests { s.goto x (.running true) with
      live := Function.update s.live x
        (s.live x ++ MetricsOp.updateMetrics (tests x).testId sample) } := by
  have moves : s.Moves x (.running true) := ⟨by simp [h], fun _ => .inl rfl, by simp⟩
  have inv := inv.goto moves
  refine { inv with
    live := fun y op ho => ?_
    finishing := fun f hf => { inv.finishing f hf with }
    series := fun k hk => (inv.series k hk).mono (fun _ h => h) (fun _ he _ => .inl he) id }
  by_cases hy : y = x
  case neg => exact inv.live y op (by simpa [Exporter.goto, hy] using ho)
  case pos =>
    subst hy
    have ho : op ∈ s.live y ++ MetricsOp.updateMetrics (tests y).testId sample := by
      simpa [Exporter.goto] using ho
    refine ⟨by rw [phase_goto, if_pos rfl], ?_⟩
    rcases List.mem_append.mp ho with ho | ho
    · exact (inv.live y op ho).right
    · have ho : op ∈ MetricsOp.updateMetrics (tests y).entry.testId sample := ho
      have ⟨write, within⟩ := MetricsOp.of_mem_updateMetrics ho
      exact ⟨write, within (ExportedTest.samples hl)⟩

theorem Inv.finish {sample : TestSample α} {completed b : Bool} (inv : Inv tests s)
    (h : s.phase x = .running b) (hl : sample.streams.length = (tests x).streams)
    (live : s.live x = []) (lock : s.finishing = none) :
    Inv tests { s.goto x .finishing with
      written   := s.written.filter (·.fst ≠ x)
      finishing := some {
        test := x, completed
        todo := MetricsOp.finish s.metrics.finished (tests x).entry sample completed } } := by
  have queue : s.metrics.finished.map (·.testId) = recent RETAINED_TESTS s.history := by
    have queue := inv.queue
    rwa [todo, ids, lock, Option.elim_none, Option.elim_none, List.append_nil] at queue
  have active : s.metrics.activeTests = s.started - s.history.length := by
    have active := inv.active
    simpa [todo, ids, lock, actives] using active
  have total : s.metrics.testsTotal = s.completed := by
    have total := inv.total
    simpa [todo, completing, lock, count] using total
  have mem {op : MetricsOp α} (ho : op ∈ MetricsOp.finish s.metrics.finished (tests x).entry sample
      completed) := MetricsOp.of_mem_finish ho (ExportedTest.samples hl)
  have moves : s.Moves x .finishing := ⟨by simp [h], fun _ => .inr rfl, fun _ => live⟩
  have inv := inv.goto moves
  refine { inv with
    finishing := fun f hf => ?_
    queue := ?_
    series := fun k hk => (inv.series k hk).mono (fun _ h => h) (fun _ he _ => .inl he) fun hr => ?_
    active := ?_
    total := ?_ }
  case refine_1 =>
    obtain rfl := Option.some_inj.mp hf
    refine ⟨by rw [phase_goto, if_pos rfl], MetricsOp.orderly_finish, fun op ho => (mem ho).left,
      fun k hk => ?_, MetricsOp.mem_queues_finish⟩
    have removes := (mem hk).right k rfl
    rwa [queue] at removes
  case refine_2 =>
    have touched : (queues s.metrics.finished (MetricsOp.finish s.metrics.finished (tests x).entry
        sample completed)).map (·.testId) =
        recent RETAINED_TESTS (s.history ++ [(tests x).testId]) := by
      rw [MetricsOp.queues_finish, queue, ← Recent.recent_concat (by decide)]
      rfl
    simpa [todo, ids, Exporter.goto] using touched
  case refine_3 => simp [todo, Exporter.goto, lock] at hr
  case refine_4 =>
    have counts : s.metrics.activeTests + -1 = s.started - ((s.history.length + 1 : Nat) : Int) := by
      omega
    simpa [todo, ids, Exporter.goto, MetricsOp.actives_finish] using counts
  case refine_5 => simpa [todo, completing, Exporter.goto, MetricsOp.count_finish] using total

-- The lock is free again.
theorem Inv.finished {f : Finishing ι α} (inv : Inv tests s) (hf : s.finishing = some f)
    (ht : f.todo = []) : Inv tests { s.goto f.test .finished with
      finishing := none
      completed := if f.completed then s.completed + 1 else s.completed
      history   := s.history ++ [(tests f.test).testId] } := by
  have sound := inv.finishing f hf
  have todo_eq : s.todo = [] := by simp [todo, hf, ht]
  have ids_eq : s.ids tests = s.history ++ [(tests f.test).testId] := by simp [ids, hf]
  have queue := inv.queue
  rw [todo_eq, ids_eq] at queue
  have entry := sound.entry
  rw [ht] at entry
  have phase {y : ι} (hy : y ≠ f.test) : (s.goto f.test .finished).phase y = s.phase y := by
    rw [phase_goto, if_neg hy]
  refine {
    live := fun y op ho => ?_
    finishing := by simp
    queue := queue.trans (by simp [ids])
    retained := fun e he => .inl (queue ▸ List.mem_map_of_mem he)
    series := fun k hk => ?_
    active := ?_
    total := ?_ }
  case refine_1 =>
    have ⟨hy, hw⟩ := inv.live y op ho
    have ne : y ≠ f.test := fun he => nomatch (he ▸ hy).symm.trans sound.phase
    exact ⟨(phase ne).trans hy, hw⟩
  case refine_2 =>
    cases inv.series k hk
    case retained e he hc => exact .retained he hc
    case retiring hr      => simp [todo_eq] at hr
    case unfinished y hu hc =>
      by_cases hy : y = f.test
      case pos => exact .retained entry (hy ▸ hc)
      case neg => exact .unfinished (by rwa [Unfinished, phase hy]) hc
  case refine_3 =>
    have active := inv.active
    rw [todo_eq, ids_eq] at active
    exact active.trans (by simp [ids, Exporter.goto])
  case refine_4 =>
    have total := inv.total
    rw [todo_eq, completing, hf, Option.elim_some] at total
    refine total.trans ?_
    cases f.completed <;> rfl

variable [Zero α] [Add α]

omit [DecidableEq ι] in
theorem write_eq : s.write x op = { s with
    metrics := s.metrics.exec op, written := (s.write x op).written } := by
  cases op <;> rfl

theorem Inv.write {n : Nat} (inv : Inv tests s) (h : (s.live x)[n]? = some op) :
    Inv tests { s.write x op with live := Function.update s.live x ((s.live x).eraseIdx n) } := by
  have ⟨hp, hw, within⟩ := inv.live x op (List.mem_of_getElem? h)
  have ⟨hq, ha, hc⟩ := hw.quiet
  rw [write_eq]
  refine {
    live := fun y op' ho => ?_
    finishing := fun f hf => ?_
    queue := ?_
    retained := fun e he => ?_
    series := fun k hk => ?_
    active := ?_
    total := ?_ }
  case refine_1 =>
    by_cases hy : y = x
    case neg => exact inv.live y op' (by simpa [hy] using ho)
    case pos =>
      subst hy
      exact inv.live y op' (List.mem_of_mem_eraseIdx (by simpa using ho))
  case refine_2 =>
    have sound := inv.finishing f hf
    exact { sound with entry := by rw [XfrMetrics.finished_exec, hq]; exact sound.entry }
  case refine_3 =>
    rw [XfrMetrics.finished_exec, hq]
    exact inv.queue
  case refine_4 =>
    rw [XfrMetrics.finished_exec, hq] at he
    exact inv.retained e he
  case refine_5 =>
    rcases XfrMetrics.series_exec hk with (⟨_, rfl⟩ | ⟨_, rfl⟩) | ⟨hs, _⟩
    · exact .unfinished (.inl hp) within
    · exact .unfinished (.inl hp) within
    · refine (inv.series k hs).mono (fun _ h => h) (fun e he _ => .inl ?_) id
      rwa [XfrMetrics.finished_exec, hq]
  case refine_6 =>
    rw [XfrMetrics.activeTests_exec, ha, add_zero]
    exact inv.active
  case refine_7 =>
    rw [XfrMetrics.testsTotal_exec, hc, add_zero]
    exact inv.total

theorem Inv.step {e : ExportEvent ι α} (inv : Inv tests s)
    (h : Exporter.step tests s e = some s') : Inv tests s' := by
  cases step_cases h
  case start hp                => exact inv.start hp
  case update hp hl            => exact inv.update hp hl
  case live ho                 => exact inv.write ho
  case finish hp live lock hl  => exact inv.finish hp hl live lock
  case exec hf ht              => exact inv.exec hf ht
  case finished hf ht          => exact inv.finished hf ht

theorem Inv.run {events : List (ExportEvent ι α)}
    (h : (Exporter.step tests).run Exporter.init events = some s) : Inv tests s :=
  System.run_invariant (fun inv hs => inv.step hs) .init h

end Phases

-- A series belongs to a test which is not finished yet, or was finished recently.
def Labelled (tests : ι → ExportedTest) (s : Exporter ι α) : Prop :=
  ∀ k, (s.metrics.series k).isSome → (∃ x, s.Unfinished x ∧ (tests x).testId = k.testId) ∨
    k.testId ∈ recent RETAINED_TESTS s.history

def Counted (s : Exporter ι α) : Prop :=
  s.finishing = none → s.metrics.activeTests = s.started - s.history.length ∧
    s.metrics.testsTotal = s.completed

-- Whatever a running test has written by live updates is exported.
def Kept (s : Exporter ι α) : Prop :=
  ∀ p ∈ s.written, (s.metrics.series p.snd).isSome

-- A finish is not about to remove a series of an entry which it retires, while a running test with
-- the id of the entry has written it.
def spares (s : Exporter ι α) : ExportEvent ι α → Bool
  | .proceed =>
    match s.todo with
    | .remove k :: _ => s.written.all (·.snd ≠ k)
    | _              => true
  | _ => true

theorem Inv.labelled (inv : Inv tests s) : s.Labelled tests := by
  intro k hk
  cases inv.series k hk
  case unfinished x hu hc => exact .inl ⟨x, hu, hc.testId_eq.symm⟩
  case retained e he hc =>
    rw [hc.testId_eq]
    exact (inv.retained e he).symm
  case retiring hr =>
    cases hf : s.finishing
    case none => simp [todo, hf] at hr
    case some f =>
      have sound := inv.finishing f hf
      rcases sound.removes k (by simpa [todo, hf] using hr) with hk | hk
      · exact .inl ⟨f.test, .inr sound.phase, hk.symm⟩
      · exact .inr hk

theorem Inv.counted (inv : Inv tests s) : s.Counted := by
  intro lock
  have active := inv.active
  have total := inv.total
  rw [todo, ids, lock, Option.elim_none, Option.elim_none, List.append_nil] at active
  rw [todo, completing, lock, Option.elim_none, Option.elim_none] at total
  exact ⟨(add_zero _).symm.trans active, total⟩

-- What running tests have written bears their own ids.
def Own (tests : ι → ExportedTest) (s : Exporter ι α) : Prop :=
  ∀ p ∈ s.written, s.phase p.fst = .running true ∧ p.snd.testId = (tests p.fst).testId

-- No test which writes shares its id with one that is being finished, or was among the last ones.
def Apart (tests : ι → ExportedTest) (s : Exporter ι α) : Prop :=
  ∀ x, s.phase x = .running true → (tests x).testId ∉ recent RETAINED_TESTS s.history ∧
    ∀ y, s.phase y = .finishing → (tests y).testId ≠ (tests x).testId

theorem spares_of_apart {e : ExportEvent ι α} (inv : Inv tests s) (own : s.Own tests)
    (apart : s.Apart tests) : s.spares e := by
  unfold spares
  split
  case h_2 => rfl
  case h_1 =>
    split
    case h_2 => rfl
    case h_1 k _ ht =>
      refine List.all_eq_true.mpr fun p hp => decide_eq_true fun hk => ?_
      have ⟨hr, hid⟩ := own p hp
      have ⟨late, others⟩ := apart p.fst hr
      cases hf : s.finishing
      case none   => simp [todo, hf] at ht
      case some f =>
        have sound := inv.finishing f hf
        have hm : .remove k ∈ f.todo := by
          rw [todo, hf, Option.elim_some] at ht
          exact ht ▸ List.mem_cons_self
        rcases sound.removes k hm with hk' | hk'
        · exact others f.test sound.phase (hk'.symm.trans (hk ▸ hid))
        · exact late (hid ▸ hk ▸ hk')

variable [Zero α] [Add α]

theorem of_mem_write {p : ι × Series} (h : p ∈ (s.write x op).written) :
    p ∈ s.written ∨ ∃ value, op = .set p.snd value := by
  cases op
  case set k value =>
    rcases List.mem_append.mp h with h | h
    · exact .inl h
    · exact .inr ⟨value, by rw [List.mem_singleton.mp h]⟩
  all_goals exact .inl h

variable [DecidableEq ι]

theorem step_kept {e : ExportEvent ι α} (inv : Inv tests s) (kept : s.Kept)
    (h : step tests s e = some s') : s'.Kept ↔ s.spares e := by
  have keeps {p : ι × Series} (hp : p ∈ s.written) (op : MetricsOp α) (hr : op ≠ .remove p.snd) :
      ((s.metrics.exec op).series p.snd).isSome :=
    XfrMetrics.series_exec_keeps (kept p hp) hr
  cases step_cases h
  case start            => exact iff_of_true kept rfl
  case update           => exact iff_of_true kept rfl
  case finish           => exact iff_of_true (fun p hp => kept p (List.mem_of_mem_filter hp)) rfl
  case finished f hf ht => exact iff_of_true kept (by simp [spares, todo, hf, ht])
  case live x n op ho =>
    have ⟨_, hw, _⟩ := inv.live x op (List.mem_of_getElem? ho)
    rw [write_eq]
    refine iff_of_true (fun p hp => ?_) rfl
    rcases of_mem_write hp with hp | ⟨value, rfl⟩
    · exact keeps hp op fun hr => absurd hw (hr ▸ id)
    · simp [XfrMetrics.exec, XfrMetrics.setSeries]
  case exec f op todo hf ht =>
    have todo_eq : s.todo = op :: todo := by simp [Exporter.todo, hf, ht]
    by_cases hr : ∃ k, op = .remove k
    case pos =>
      have ⟨k, hk⟩ := hr
      subst hk
      have spares_eq : s.spares (.proceed : ExportEvent ι α) = s.written.all (·.snd ≠ k) := by
        simp [spares, todo_eq]
      rw [spares_eq, List.all_eq_true]
      refine forall₂_congr fun p hp => ?_
      by_cases hk : p.snd = k
      case pos => simp [XfrMetrics.exec, XfrMetrics.setSeries, hk]
      case neg => simp [XfrMetrics.exec, XfrMetrics.setSeries, hk, kept p hp]
    case neg =>
      refine iff_of_true (fun p hp => keeps hp op fun he => hr ⟨_, he⟩) ?_
      simp only [spares, todo_eq]
      cases op
      case remove k => exact absurd ⟨k, rfl⟩ hr
      all_goals rfl

theorem step_own {e : ExportEvent ι α} (inv : Inv tests s) (own : s.Own tests)
    (h : step tests s e = some s') : s'.Own tests := by
  cases step_cases h
  case start x hp =>
    intro p hm
    have ⟨hr, hk⟩ := own p hm
    have hx : p.fst ≠ x := fun hx => nomatch (hx ▸ hr).symm.trans hp
    exact ⟨phase_goto.trans (by rw [if_neg hx, hr]), hk⟩
  case update x _ _ _ _ =>
    intro p hm
    have ⟨hr, hk⟩ := own p hm
    exact ⟨phase_goto.trans (by rw [hr, ite_self]), hk⟩
  case live x n op ho =>
    have ⟨hr, hw, hc⟩ := inv.live x op (List.mem_of_getElem? ho)
    cases op
    case set k value =>
      intro p hm
      rcases List.mem_append.mp hm with hm | hm
      · exact own p hm
      · rw [List.mem_singleton.mp hm]
        exact ⟨hr, FinishedTest.Covers.testId_eq hc⟩
    all_goals exact own
  case finish x _ _ _ _ _ _ _ =>
    intro p hm
    have ⟨hm, hx⟩ := List.mem_filter.mp hm
    have ⟨hr, hk⟩ := own p hm
    exact ⟨phase_goto.trans (by rw [if_neg (of_decide_eq_true hx), hr]), hk⟩
  case exec => exact own
  case finished f hf _ =>
    intro p hm
    have ⟨hr, hk⟩ := own p hm
    have hx : p.fst ≠ f.test := fun hx => nomatch (hx ▸ hr).symm.trans (inv.finishing f hf).phase
    exact ⟨phase_goto.trans (by rw [if_neg hx, hr]), hk⟩

-- As long as ids are not reused too early, every step of a run meets the condition.
theorem guard_of_apart {events : List (ExportEvent ι α)}
    (h : (step tests).run init events = some s)
    (apart : ∀ events₁ s₁, events₁ <+: events → (step tests).run init events₁ = some s₁ →
      s₁.Apart tests) :
    ((step tests).guard spares).run init events = some s := by
  have own {es : List (ExportEvent ι α)} {s : Exporter ι α}
      (h : (step tests).run init es = some s) : Inv tests s ∧ s.Own tests :=
    System.run_invariant (I := fun s => Inv tests s ∧ s.Own tests)
      (fun ⟨inv, own⟩ hs => ⟨inv.step hs, step_own inv own hs⟩) ⟨.init, nofun⟩ h
  refine (System.run_each_iff (I := fun _ => True) (P := fun s e _ => s.spares e)
    (fun _ _ => ⟨Iff.rfl, fun _ => trivial⟩) trivial h).mp ?_
  intro es₁ e es₂ s₁ _ hes h₁ _
  have ⟨inv, own⟩ := own h₁
  exact spares_of_apart inv own (apart es₁ s₁ (hes ▸ List.prefix_append ..) h₁)

def oneStream : TestSample Nat where
  totalBytes     := 0
  elapsedSeconds := 0
  throughputMbps := none
  streams        := [{ throughputMbps := 1, totalBytes := 0, retransmits := 0 }]
  tcpInfo        := none

def aborted (x steps : Nat) : List (ExportEvent Nat Nat) :=
  [.start x, .finish x oneStream false] ++ List.replicate steps .proceed

end Exporter
