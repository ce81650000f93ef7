import Xfr.Serve.AcceptLoop

namespace Connection

-- Whether the connection has a slot of the address.
def occupies (ip : IpAddr) (c : Connection) : Bool :=
  c.peerIp = ip ∧ c.admitted ∧ c.releases = 0

-- Nothing of the task can release a slot any more.
def Settled (c : Connection) : Prop :=
  c.point = .ended ∧ c.guarded = false

def Released (c : Connection) : Prop :=
  c.Settled → c.admitted = true → c.releases = 1

-- What a connection has at each point of its code.
def Ok (limited : Bool) (c : Connection) : Prop :=
  match c.point with
  | .accepted | .permitted => c.admitted = false ∧ c.guarded = false ∧ c.releases = 0
  | .checked               =>
    c.transport = .tcp ∧ c.admitted = limited ∧ c.guarded = limited ∧ c.releases = 0
  | .handling              =>
    c.admitted = limited ∧ (c.guarded = true ↔ c.transport = .tcp ∧ limited = true) ∧ c.releases = 0
  | .handled               =>
    c.transport = .quic ∧ c.admitted = limited ∧ c.guarded = false ∧ c.releases = 0
  | .ended                 =>
    (c.guarded = true → c.admitted = true ∧ c.releases = 0) ∧
      (c.admitted = true → limited = true) ∧ (c.admitted = false → c.releases = 0) ∧ c.releases ≤ 1

-- All but the panic of a handler over QUIC whose connection has a slot.
def spares (l : Listener) (c : Connection) (e : ConnectionEvent) : Bool :=
  ¬(e = .finish .panic ∧ c.transport = .quic ∧ l.rateLimiter.isSome)

-- What the task of a connection does to the limiter.
inductive Effect (l : Listener) (c : Connection) : Listener → Connection → Prop
  | quiet {l' : Listener} {c' : Connection} :
    l'.rateLimiter = l.rateLimiter → (∀ ip, c'.occupies ip = c.occupies ip) → Effect l c l' c'
  | check {l' : Listener} {c' : Connection} (r : RateLimiter) (now : Nat) :
    l.rateLimiter = some r → l'.rateLimiter = some (r.check c.peerIp now).1 →
    (∀ ip, c.occupies ip = false) →
    (∀ ip, c'.occupies ip = true ↔ c.peerIp = ip ∧ ∃ u, (r.check c.peerIp now).2 = .ok u) →
    Effect l c l' c'
  | release {l' : Listener} {c' : Connection} :
    l'.rateLimiter = l.rateLimiter.map (·.release c.peerIp) →
    (∀ ip, c.occupies ip = true ↔ c.peerIp = ip ∧ l.rateLimiter.isSome = true) →
    (∀ ip, c'.occupies ip = false) → Effect l c l' c'

variable {l l' : Listener} {c c' : Connection} {e : ConnectionEvent} {now : Nat}
  {ip : IpAddr}

theorem Ok.atMost {limited : Bool} (ok : c.Ok limited) :
    c.releases ≤ 1 ∧ (c.admitted = false → c.releases = 0) := by
  unfold Ok at ok
  split at ok
  case h_1 | h_2 | h_4 =>
    have ⟨_, _, hn⟩ := ok
    exact ⟨hn.trans_le (Nat.zero_le _), fun _ => hn⟩
  case h_3 | h_5 =>
    have ⟨_, _, _, hn⟩ := ok
    exact ⟨hn.trans_le (Nat.zero_le _), fun _ => hn⟩
  case h_6 =>
    have ⟨_, _, hn, hle⟩ := ok
    exact ⟨hle, hn⟩

theorem Released.of_not_settled (h : ¬c.Settled) : c.Released :=
  fun hs => absurd hs h

theorem Released.of_not_admitted (h : c.admitted = false) : c.Released :=
  fun _ ha => by simp [h] at ha

theorem Released.of_point (h : c.point ≠ .ended) : c.Released :=
  .of_not_settled (h ·.left)

theorem occupies_iff :
    c.occupies ip = true ↔ c.peerIp = ip ∧ c.admitted = true ∧ c.releases = 0 :=
  decide_eq_true_iff

theorem occupies_of_not_admitted (h : c.admitted = false) :
    c.occupies ip = false := by
  simp [occupies, h]

theorem occupies_of_released (h : c.releases ≠ 0) : c.occupies ip = false := by
  simp [occupies, h]

theorem spares_of_ne (h : e ≠ .finish .panic) : spares l c e = true := by
  simp [spares, h]

theorem check_ok {slot : Bool} (h : l.check ip now = (l', .ok slot)) :
    slot = l.rateLimiter.isSome ∧ ((l.rateLimiter = none ∧ l' = l) ∨
      ∃ r, l.rateLimiter = some r ∧ l'.rateLimiter = some (r.check ip now).1 ∧
        (r.check ip now).2 = .ok ()) := by
  unfold Listener.check at h
  split at h
  case h_1 hr =>
    cases h
    exact ⟨by simp [hr], .inl ⟨hr, rfl⟩⟩
  case h_2 r hr =>
    split at h
    case h_2 => cases h
    case h_1 hc =>
      cases h
      exact ⟨by simp [hr], .inr ⟨r, hr, by rw [hc], by rw [hc]⟩⟩

theorem check_error {e : RateLimitError} (h : l.check ip now = (l', .error e)) :
    ∃ r, l.rateLimiter = some r ∧ l'.rateLimiter = some (r.check ip now).1 ∧
      (r.check ip now).2 = .error e := by
  unfold Listener.check at h
  split at h
  case h_1 => cases h
  case h_2 r hr =>
    split at h
    case h_1 => cases h
    case h_2 hc =>
      cases h
      exact ⟨r, hr, by rw [hc], by rw [hc]⟩

-- What a step preserves, what it loses, and what it does to the limiter.
structure Keeps (l : Listener) (c : Connection) (e : ConnectionEvent) (l' : Listener)
    (c' : Connection) : Prop where
  ok       : c'.Ok l.rateLimiter.isSome
  released : c'.Released ↔ c.Released ∧ spares l c e = true
  effect   : Effect l c l' c'

-- Most steps leave the record alone, and end in a place where no slot is missing.
theorem Keeps.of_quiet (hl : l'.rateLimiter = l.rateLimiter) (hi : c'.peerIp = c.peerIp)
    (ha : c'.admitted = c.admitted) (hn : c'.releases = c.releases)
    (ok : c'.Ok l.rateLimiter.isSome) (hr : c'.Released ↔ c.Released ∧ spares l c e = true) :
    Keeps l c e l' c' where
  ok       := ok
  released := hr
  effect   := .quiet hl fun _ => by simp only [occupies, hi, ha, hn]

theorem released_iff (hc : c.Released) (hc' : c'.Released) (he : e ≠ .finish .panic) :
    c'.Released ↔ c.Released ∧ spares l c e = true :=
  iff_of_true hc' ⟨hc, spares_of_ne he⟩

theorem keeps_check (hc : c.admitted = false ∧ c.guarded = false ∧ c.releases = 0)
    (h : (match l.check c.peerIp now with
      | (l', .ok slot) => some (l', c.enter slot)
      | (l', .error _) => some (l', c.goto .ended)) = some (l', c')) :
    Keeps l c (.check now) l' c' := by
  have hr : c.Released := .of_not_admitted hc.left
  have hf (ip : IpAddr) : c.occupies ip = false := occupies_of_not_admitted hc.left
  split at h
  case h_1 l₁ slot hk =>
    cases h
    have ⟨hs, hk⟩ := check_ok hk
    have hu : ¬(c.enter slot).Settled := by
      unfold enter
      split <;> exact (nomatch ·.left)
    refine ⟨?_, released_iff hr (.of_not_settled hu) (by simp), ?_⟩
    case refine_1 =>
      unfold enter
      split
      case h_1 ht => simp [Ok, ht, hs, hc]
      case h_2 ht => simp [Ok, ht, hs, hc]
    case refine_2 =>
      have ho (ip : IpAddr) : (c.enter slot).occupies ip = true ↔ c.peerIp = ip ∧ slot = true := by
        unfold enter
        split <;> simp [occupies_iff, hc.right.right]
      rcases hk with ⟨hn, rfl⟩ | ⟨r, hr, hl, hu⟩
      case inl =>
        refine .quiet rfl fun ip => ?_
        rw [hf, Bool.eq_false_iff, ne_eq, ho, hs, hn]
        simp
      case inr =>
        refine .check r now hr hl hf fun ip => ?_
        rw [ho, hs, hr, hu]
        simp
  case h_2 l₁ e hk =>
    cases h
    have ⟨r, hr', hl, hu⟩ := check_error hk
    refine ⟨?_, released_iff hr (.of_not_admitted hc.left) (by simp), ?_⟩
    case refine_1 => simp [Ok, goto, hc]
    case refine_2 =>
      refine .check r now hr' hl hf fun ip => ?_
      rw [hu, occupies_iff]
      simp [goto, hc]

theorem keeps_acquire {slot : Bool} (hs : slot = l.rateLimiter.isSome)
    (hc : c.transport = .tcp ∧ c.admitted = slot ∧ c.guarded = slot ∧ c.releases = 0 ∨
      c.transport = .quic ∧ c.admitted = false ∧ c.guarded = false ∧ c.releases = 0)
    (hr : c.Released)
    (h : (if l.permits > 0 then some ({ l with permits := l.permits - 1 }, c.acquire)
      else some (l, c.goto .ended)) = some (l', c')) :
    Keeps l c .acquire l' c' := by
  split at h
  case isTrue =>
    cases h
    have hu : ¬c.acquire.Settled := by
      unfold acquire
      split <;> exact (nomatch ·.left)
    have hr' := released_iff (l := l) hr (.of_not_settled hu) (e := .acquire) (by simp)
    rcases hc with ⟨ht, hc⟩ | ⟨ht, hc⟩
    case inl =>
      simp only [acquire, ht] at hr' ⊢
      exact .of_quiet rfl rfl rfl rfl (by simp [Ok, hc, hs]) hr'
    case inr =>
      simp only [acquire, ht] at hr' ⊢
      exact .of_quiet rfl rfl rfl rfl (by simp [Ok, hc]) hr'
  case isFalse =>
    cases h
    have hr' : (c.goto .ended).Released := by
      rcases hc with ⟨_, ha, hg, _⟩ | ⟨_, hc⟩
      case inl =>
        cases slot
        case true  => exact .of_not_settled fun hs => by simp [goto, hg] at hs; exact nomatch hs.right
        case false => exact .of_not_admitted ha
      case inr => exact .of_not_admitted hc.left
    refine .of_quiet rfl rfl rfl rfl ?_ (released_iff hr hr' (by simp))
    rcases hc with ⟨_, hc⟩ | ⟨_, hc⟩ <;> simp [Ok, goto, hc, hs]

theorem keeps_finish {o : HandlerOutcome} (hp : c.point = .handling) (ok : c.Ok l.rateLimiter.isSome) :
    Keeps l c (.finish o) l (c.finish o) := by
  simp only [Ok, hp] at ok
  have ⟨ha, hg, hn⟩ := ok
  have hr : c.Released := .of_point (by simp [hp])
  cases ht : c.transport
  case tcp =>
    have hf : c.finish o = c.goto .ended := by simp only [finish, ht]
    have hr' : (c.goto .ended).Released := by
      cases hl : l.rateLimiter.isSome
      case false => exact .of_not_admitted (ha.trans hl)
      case true  =>
        have hg : c.guarded = true := hg.mpr ⟨ht, hl⟩
        exact .of_not_settled fun hs => nomatch hg.symm.trans hs.right
    rw [hf]
    refine .of_quiet rfl rfl rfl rfl ?_ (iff_of_true hr' ⟨hr, by simp [spares, ht]⟩)
    refine ⟨fun hg' => ⟨ha.trans (hg.mp hg').right, hn⟩, (ha ▸ ·), fun _ => hn, ?_⟩
    exact hn.trans_le (Nat.zero_le _)
  case quic =>
    have hg : c.guarded = false := by simpa [ht] using hg
    by_cases ho : o = .panic
    case neg =>
      have hf : c.finish o = c.goto .handled := by
        cases o
        case panic => contradiction
        all_goals simp only [finish, ht]
      rw [hf]
      refine .of_quiet rfl rfl rfl rfl ⟨ht, ha, hg, hn⟩ ?_
      exact released_iff hr (.of_point (nomatch ·)) (by simpa using ho)
    case pos =>
      have hf : c.finish o = c.goto .ended := by simp only [finish, ht, ho]
      rw [hf, ho]
      refine .of_quiet rfl rfl rfl rfl ?_ ?_
      case refine_1 => simp [Ok, goto, hg, hn, ha]
      case refine_2 =>
        cases hl : l.rateLimiter.isSome
        case false =>
          exact iff_of_true (.of_not_admitted (ha.trans hl)) ⟨hr, by simp [spares, hl]⟩
        case true =>
          refine iff_of_false (fun hr' => ?_) (by simp [spares, ht, hl])
          have : c.releases = 1 := hr' ⟨rfl, hg⟩ (ha.trans hl)
          omega

theorem keeps_release (hp : c.point = .handled) (ok : c.Ok l.rateLimiter.isSome) :
    let releases := if l.rateLimiter.isSome then c.releases + 1 else c.releases
    Keeps l c .release (l.release c.peerIp) { c with point := .ended, releases } := by
  simp only [Ok, hp] at ok
  have ⟨_, ha, hg, hn⟩ := ok
  have hr : c.Released := .of_point (by simp [hp])
  cases hl : l.rateLimiter.isSome
  case false =>
    have hn' : l.rateLimiter = none := by simpa using hl
    refine .of_quiet ?_ rfl rfl rfl ?_ (released_iff hr (.of_not_admitted (ha.trans hl)) (by simp))
    · simp [Listener.release, hn']
    · simp [Ok, hg, hn, ha]
  case true =>
    refine ⟨by simp [Ok, hg, hn, ha, hl], released_iff hr (fun _ _ => by simp [hn]) (by simp), ?_⟩
    refine .release rfl (fun ip => ?_) (fun ip => occupies_of_released (by simp))
    rw [occupies_iff, ha, hn]
    simp

theorem keeps_dropGuard (hp : c.point = .ended) (hg : c.guarded = true)
    (ok : c.Ok l.rateLimiter.isSome) :
    Keeps l c .dropGuard (l.release c.peerIp)
      { c with guarded := false, releases := c.releases + 1 } := by
  simp only [Ok, hp] at ok
  have ⟨ha, hn⟩ := ok.left hg
  have hl := ok.right.left ha
  have hr : c.Released := .of_not_settled fun hs => nomatch hg.symm.trans hs.right
  refine ⟨by simp [Ok, hp, hn, ha, hl], released_iff hr (fun _ _ => by simp [hn]) (by simp), ?_⟩
  refine .release rfl (fun ip => ?_) (fun ip => occupies_of_released (by simp))
  rw [occupies_iff, hn, hl, ha]
  simp

theorem keeps_dropPermit (hp : c.point = .ended) (ok : c.Ok l.rateLimiter.isSome) :
    Keeps l c .dropPermit { l with permits := l.permits + 1 } { c with permit := false } := by
  refine .of_quiet rfl rfl rfl rfl ?_ ?_
  · simpa [Ok, hp] using ok
  · simp only [spares_of_ne, ne_eq, reduceCtorEq, not_false_eq_true, and_true]
    rfl

theorem step_keeps (ok : c.Ok l.rateLimiter.isSome)
    (h : step (l, c) e = some (l', c')) : Keeps l c e l' c' := by
  unfold step at h
  dsimp only at h
  split at h
  case h_1 hp =>
    cases h
    simp only [Ok, hp] at ok
    refine .of_quiet rfl rfl rfl rfl (by simp [Ok, goto, ok]) ?_
    exact released_iff (.of_not_admitted ok.left) (.of_not_admitted ok.left) (by simp)
  case h_2 hp _ | h_3 hp _ =>
    simp only [Ok, hp] at ok
    exact keeps_check ok h
  case h_4 hp ht =>
    have hr : c.Released := .of_point (by simp [hp])
    simp only [Ok, hp] at ok
    exact keeps_acquire rfl (.inl ok) hr h
  case h_5 hp ht =>
    have hr : c.Released := .of_point (by simp [hp])
    simp only [Ok, hp] at ok
    exact keeps_acquire rfl (.inr ⟨ht, ok⟩) hr h
  case h_6 hp =>
    cases h
    exact keeps_finish hp ok
  case h_7 hp _ =>
    cases h
    exact keeps_release hp ok
  case h_8 hp =>
    have ⟨hg, h⟩ := Option.ite_none_right_eq_some.mp h
    cases h
    exact keeps_dropGuard hp hg ok
  case h_9 hp =>
    have ⟨_, h⟩ := Option.ite_none_right_eq_some.mp h
    cases h
    exact keeps_dropPermit hp ok
  case h_10 => cases h

end Connection

namespace AcceptLoop

variable {config : RateLimitConfig} {s s' : Listener × List Connection} {e : AcceptEvent}

-- All but the panic of a handler over QUIC whose connection has a slot.
def spares (s : Listener × List Connection) : AcceptEvent → Bool
  | .connection i e => (s.2[i]?).all (Connection.spares s.1 · e)
  | _               => true

-- The limiter as its own operations have left it, and the connections which have its slots.
structure Slots (config : RateLimitConfig) (s : Listener × List Connection) : Prop where
  limiter  : ∃ events, s.1.rateLimiter = config.build.map (RateLimiter.step.after · events)
  counted  : ∀ r ∈ s.1.rateLimiter, ∀ ip, r.currentCount ip = s.2.countP (·.occupies ip)
  bounded  : ∀ r ∈ s.1.rateLimiter, ∀ ip, r.currentCount ip ≤ r.maxPerIp
  kept     : ∀ r ∈ s.1.rateLimiter, ∀ c ∈ s.2, c.occupies c.peerIp = true →
    (r.limits c.peerIp).isSome = true
  atMost   : ∀ c ∈ s.2, c.releases ≤ 1 ∧ (c.admitted = false → c.releases = 0)
  released : ∀ c ∈ s.2, c.Released

structure Inv (config : RateLimitConfig) (s : Listener × List Connection) : Prop where
  limiter : ∃ events, s.1.rateLimiter = config.build.map (RateLimiter.step.after · events)
  counted : ∀ r ∈ s.1.rateLimiter, ∀ ip, r.currentCount ip = s.2.countP (·.occupies ip)
  ok      : ∀ c ∈ s.2, c.Ok s.1.rateLimiter.isSome

theorem countP_set {α : Type*} {p : α → Bool} {xs : List α} {i : Nat} {x y : α}
    (h : xs[i]? = some x) :
    (xs.set i y).countP p + (p x).toNat = xs.countP p + (p y).toNat := by
  have h := System.sum_map_set (fun x => (p x).toNat) y h
  have hs (xs : List α) : (xs.map fun x => (p x).toNat).sum = xs.countP p := by
    induction xs
    case nil => rfl
    case cons x xs hi => cases hp : p x <;> simp [hi, hp]; omega
  rwa [hs, hs] at h

theorem Inv.init {maxConcurrent : Nat} : Inv config (AcceptLoop.init config maxConcurrent) where
  limiter := ⟨[], by simp [AcceptLoop.init]⟩
  counted := by
    intro r hr ip
    have ⟨n, _, hn⟩ := Option.map_eq_some_iff.mp hr
    exact hn ▸ rfl
  ok      := by simp [AcceptLoop.init]

theorem Inv.slots (inv : Inv config s) (hr : ∀ c ∈ s.2, c.Released) : Slots config s where
  limiter  := inv.limiter
  counted  := inv.counted
  released := hr
  atMost   := fun c hc => (inv.ok c hc).atMost
  bounded  := by
    intro r hr ip
    have ⟨events, he⟩ := inv.limiter
    have ⟨r₀, h₀, hr⟩ := Option.map_eq_some_iff.mp (he ▸ hr)
    have ⟨max, _, h₀⟩ := Option.map_eq_some_iff.mp h₀
    subst h₀ hr
    exact RateLimiter.bounded (Nat.zero_le _) |>.trans_eq RateLimiter.after_maxPerIp.symm
  kept     := by
    intro r hr c hc ho
    apply RateLimiter.isSome_of_currentCount_pos
    rw [inv.counted r hr]
    exact List.countP_pos_iff.mpr ⟨c, hc, ho⟩

-- The limiter after one more of its operations.
theorem Inv.limiter_concat {r : RateLimiter} {event : RateLimiter.Event} (inv : Inv config s)
    (hr : s.1.rateLimiter = some r) : ∃ events,
    some (RateLimiter.step r event).2 = config.build.map (RateLimiter.step.after · events) := by
  have ⟨events, he⟩ := inv.limiter
  have ⟨r₀, h₀, hr⟩ := Option.map_eq_some_iff.mp (he ▸ hr)
  exact ⟨events ++ [event], by rw [h₀, Option.map_some, Mealy.after_concat, hr]⟩

theorem Inv.limiter_map {op : RateLimiter → RateLimiter} {event : RateLimiter.Event}
    (inv : Inv config s) (h : ∀ r, op r = (RateLimiter.step r event).2) : ∃ events,
    s.1.rateLimiter.map op = config.build.map (RateLimiter.step.after · events) := by
  cases hr : s.1.rateLimiter
  case none =>
    have ⟨events, he⟩ := inv.limiter
    exact ⟨events, by rw [← he, hr]; rfl⟩
  case some r =>
    rw [Option.map_some, h]
    exact inv.limiter_concat hr

theorem Inv.connection {l l' : Listener} {cs : List Connection} {c c' : Connection} {i : Nat}
    {e : ConnectionEvent} (inv : Inv config (l, cs)) (hi : cs[i]? = some c)
    (h : Connection.step (l, c) e = some (l', c')) : Inv config (l', cs.set i c') := by
  have hm : c ∈ cs := List.mem_of_getElem? hi
  have keeps := Connection.step_keeps (inv.ok c hm) h
  have hp (ip : IpAddr) : (cs.set i c').countP (·.occupies ip) + (c.occupies ip).toNat =
      cs.countP (·.occupies ip) + (c'.occupies ip).toNat := countP_set hi
  have ok (hl : l'.rateLimiter.isSome = l.rateLimiter.isSome) :
      ∀ c ∈ cs.set i c', c.Ok l'.rateLimiter.isSome := by
    intro d hd
    rw [hl]
    rcases List.mem_or_eq_of_mem_set hd with hd | rfl
    · exact inv.ok d hd
    · exact keeps.ok
  cases keeps.effect
  case quiet hl ho =>
    refine ⟨hl ▸ inv.limiter, fun r hr ip => ?_, ok (congrArg _ hl)⟩
    have := hp ip
    have := inv.counted r (hl ▸ hr) ip
    simp only [ho] at *
    omega
  case check r now hr hl hc hc' =>
    refine ⟨?_, fun r' hr' ip => ?_, ok (by rw [hl, hr]; rfl)⟩
    case refine_1 =>
      rw [hl, ← RateLimiter.step_check]
      exact inv.limiter_concat hr
    case refine_2 =>
      obtain rfl := Option.some_inj.mp (hl.symm.trans hr')
      have hn := inv.counted r hr ip
      have hp := hp ip
      have ho := hc' ip
      rw [RateLimiter.check_ok_iff] at ho
      rw [hc, Bool.toNat_false, Nat.add_zero] at hp
      dsimp only at hn ⊢
      rw [RateLimiter.currentCount_check, hp, ← hn]
      split
      case isTrue h  => rw [ho.mpr h, Bool.toNat_true]
      case isFalse h => rw [Bool.eq_false_iff.mpr (mt ho.mp h), Bool.toNat_false, Nat.add_zero]
  case release hl hc hc' =>
    refine ⟨hl ▸ inv.limiter_map fun r => congrArg Prod.snd RateLimiter.step_release.symm,
      fun r' hr' ip => ?_, ok (by simp [hl])⟩
    have ⟨r, hr, hr'⟩ := Option.map_eq_some_iff.mp (hl ▸ hr')
    subst hr'
    have hn := inv.counted r hr ip
    have hp := hp ip
    have ho : c.occupies ip = true ↔ c.peerIp = ip :=
      (hc ip).trans (and_iff_left (Option.isSome_of_eq_some hr))
    rw [hc', Bool.toNat_false, Nat.add_zero] at hp
    dsimp only at hn ⊢
    rw [RateLimiter.currentCount_release, hn, ← hp]
    split
    case isTrue h  => rw [ho.mpr h, Bool.toNat_true, Nat.add_sub_cancel]
    case isFalse h => rw [Bool.eq_false_iff.mpr (mt ho.mp h), Bool.toNat_false, Nat.add_zero]

theorem Inv.step (inv : Inv config s) (h : step s e = some s') : Inv config s' := by
  have ⟨l, cs⟩ := s
  cases e
  case accept transport peerIp =>
    obtain rfl := Option.some_inj.mp h
    refine ⟨inv.limiter, fun r hr ip => ?_, fun c hc => ?_⟩
    case refine_1 =>
      rw [inv.counted r hr ip, List.countP_append]
      simp [Connection.occupies]
    case refine_2 =>
      rcases List.mem_append.mp hc with hc | hc
      · exact inv.ok c hc
      · obtain rfl := List.mem_singleton.mp hc
        exact ⟨rfl, rfl, rfl⟩
  case cleanup now shard =>
    obtain rfl := Option.some_inj.mp h
    refine ⟨inv.limiter_map fun r => congrArg Prod.snd (RateLimiter.step_cleanup (l := r)).symm,
      fun r hr ip => ?_, fun c hc => ?_⟩
    case refine_1 =>
      have ⟨r₀, h₀, hr⟩ := Option.map_eq_some_iff.mp hr
      subst hr
      exact RateLimiter.currentCount_cleanup.trans (inv.counted r₀ h₀ ip)
    case refine_2 => simpa [Listener.cleanup] using inv.ok c hc
  case connection i e =>
    have ⟨l', cs'⟩ := s'
    have h : Connection.step.interleave (l, cs) (i, e) = some (l', cs') := h
    have ⟨c, c', hi, hs, hl⟩ := System.interleave_cases h
    exact hl ▸ inv.connection hi hs

theorem step_released (inv : Inv config s) (h : step s e = some s') :
    (∀ c ∈ s'.2, c.Released) ↔ (∀ c ∈ s.2, c.Released) ∧ spares s e = true := by
  have ⟨l, cs⟩ := s
  cases e
  case accept transport peerIp =>
    obtain rfl := Option.some_inj.mp h
    have hr : Connection.Released { transport, peerIp } := .of_not_admitted rfl
    simp only [spares, and_true, List.forall_mem_append, List.forall_mem_singleton, hr]
  case cleanup =>
    obtain rfl := Option.some_inj.mp h
    simp [spares]
  case connection i e =>
    have ⟨l', cs'⟩ := s'
    have h : Connection.step.interleave (l, cs) (i, e) = some (l', cs') := h
    have ⟨c, c', hi, hs, hl⟩ := System.interleave_cases h
    have hm : c ∈ cs := List.mem_of_getElem? hi
    have hr := (Connection.step_keeps (inv.ok c hm) hs).released
    have hsp : spares (l, cs) (.connection i e) = Connection.spares l c e := by simp [spares, hi]
    subst hl
    rw [hsp]
    constructor
    case mp =>
      intro h
      have ⟨hlen, _⟩ := List.getElem?_eq_some_iff.mp hi
      have ⟨hc, hsp⟩ := hr.mp <| h c' (List.mem_set hlen c')
      refine ⟨fun d hd => ?_, hsp⟩
      have ⟨j, hj⟩ := List.mem_iff_getElem?.mp hd
      by_cases hij : i = j
      case pos => exact Option.some_inj.mp (hi.symm.trans (hij ▸ hj)) ▸ hc
      case neg => exact h d <| List.mem_of_getElem? (i := j) <| (List.getElem?_set_ne hij).trans hj
    case mpr =>
      intro ⟨hc, hsp⟩ d hd
      rcases List.mem_or_eq_of_mem_set hd with hd | rfl
      · exact hc d hd
      · exact hr.mpr ⟨hc c hm, hsp⟩

-- A slot gets lost exactly when a handler over QUIC panics which has one.
theorem slots_iff (config : RateLimitConfig) (maxConcurrent : Nat)
    (trace : List RateLimiter.Event) {events : List AcceptEvent}
    (h : step.run (init config maxConcurrent) events = some s) :
    ((∀ r ∈ config.build, r.Sound trace) ∧ Slots config s) ↔
      (step.guard spares).run (init config maxConcurrent) events = some s := by
  have inv : Inv config s := System.run_invariant (I := Inv config) Inv.step .init h
  have hr : (∀ c ∈ s.2, c.Released) ↔
      (step.guard spares).run (init config maxConcurrent) events = some s :=
    System.run_guard_iff (I := Inv config) (P := fun s => ∀ c ∈ s.2, c.Released)
      (fun inv h => ⟨inv.step h, step_released inv h⟩) .init (by simp [init]) h
  have hl : ∀ r ∈ config.build, r.Sound trace := by
    intro r hr
    have ⟨max, _, hr⟩ := Option.map_eq_some_iff.mp hr
    exact hr ▸ RateLimiter.sound max _ trace
  rw [← hr]
  exact ⟨fun ⟨_, hs⟩ => hs.released, fun h => ⟨hl, inv.slots h⟩⟩

def onePerIp : RateLimitConfig where
  maxPerIp := some 1

-- One slot for a peer, which a handler over TCP loses to a panic, and one over QUIC to an error.
def released : List AcceptEvent :=
  [.accept .tcp (.v4 1), .accept .quic (.v4 1), .connection 0 (.check 0), .connection 0 .acquire,
    .connection 0 (.finish .panic), .connection 0 .dropGuard, .cleanup 5 fun _ => true,
    .connection 1 .acquire, .connection 1 (.check 7), .connection 1 (.finish .error),
    .connection 1 .release]

theorem slots_iff_released : ∃ s, step.run (init onePerIp 4) released = some s ∧
    Slots onePerIp s := by
  have h : step.run (init onePerIp 4) released = some _ := rfl
  exact ⟨_, h, ((slots_iff onePerIp 4 [] h).mpr rfl).right⟩

-- A panic over QUIC.
def leaked : List AcceptEvent :=
  [.accept .quic (.v4 1), .connection 0 .acquire, .connection 0 (.check 0),
    .connection 0 (.finish .panic), .connection 0 .dropPermit]

theorem quic_panic_leaks : ∃ s, step.run (init onePerIp 4) leaked = some s ∧
    ¬Slots onePerIp s := by
  refine ⟨_, rfl, fun h => ?_⟩
  have := h.released _ (List.mem_singleton.mpr rfl) ⟨rfl, rfl⟩ rfl
  exact absurd this (by decide)

end AcceptLoop
