import Mathlib.Logic.Function.Basic
import Xfr.Library.Mealy
import Xfr.Library.Utf8
import Xfr.Access.Address

open Utf8 (Text)

structure IpState where
  count      : Nat
  lastAccess : Nat

structure RateLimitError where
  ip      : IpAddr
  current : Nat
  max     : Nat

def RateLimitError.message (display : IpAddr → Text) (e : RateLimitError) : Text :=
  "Rate limit exceeded for ".toList ++ display e.ip ++ ": ".toList ++ (Nat.repr e.current).toList ++
    " concurrent tests (max ".toList ++ (Nat.repr e.max).toList ++ ")".toList

-- A count is never above the maximum, so it does not overflow.
structure RateLimiter where
  limits   : IpAddr → Option IpState
  maxPerIp : Nat
  window   : Nat

namespace RateLimiter

def new (maxPerIp window : Nat) : RateLimiter where
  limits _ := none
  maxPerIp
  window

def store (l : RateLimiter) (ip : IpAddr) (state : IpState) : RateLimiter :=
  { l with limits := Function.update l.limits ip (some state) }

def check (l : RateLimiter) (ip : IpAddr) (now : Nat) : RateLimiter × Except RateLimitError Unit :=
  let state := (l.limits ip).getD ⟨0, now⟩
  if state.count ≥ l.maxPerIp then
    (l.store ip state, .error ⟨ip, state.count, l.maxPerIp⟩)
  else
    (l.store ip ⟨state.count + 1, now⟩, .ok ())

def release (l : RateLimiter) (ip : IpAddr) : RateLimiter :=
  match l.limits ip with
  | some state => l.store ip { state with count := state.count - 1 }
  | none       => l

def currentCount (l : RateLimiter) (ip : IpAddr) : Nat :=
  (l.limits ip).elim 0 IpState.count

-- A cleanup locks one shard of the map after the other, so there are steps between its shards. It
-- has looked at the clock before the first one.
def cleanup (l : RateLimiter) (now : Nat) (shard : IpAddr → Bool) : RateLimiter :=
  { l with
    limits ip :=
      if shard ip then
        (l.limits ip).filter fun state => state.count > 0 ∨ now - state.lastAccess < l.window
      else
        l.limits ip }

inductive Event
  | check (ip : IpAddr) (now : Nat)
  | release (ip : IpAddr)
  | cleanup (now : Nat) (shard : IpAddr → Bool)

inductive Answer
  | admitted
  | limited (e : RateLimitError)
  | done

def step : Mealy RateLimiter Event Answer
  | l, .check ip now =>
    match l.check ip now with
    | (l', .ok ())   => (.admitted, l')
    | (l', .error e) => (.limited e, l')
  | l, .release ip        => (.done, l.release ip)
  | l, .cleanup now shard => (.done, l.cleanup now shard)

def Event.concerns (ip : IpAddr) : Event → Bool
  | check ip' _ => ip' = ip
  | release ip' => ip' = ip
  | cleanup _ _ => true

-- The admissions of an address which were not released yet.
def outstanding (ip : IpAddr) (n : Nat) : List (Event × Answer) → Nat
  | []                               => n
  | (.check ip' _, .admitted) :: log => outstanding ip (if ip' = ip then n + 1 else n) log
  | (.release ip', _) :: log         => outstanding ip (if ip' = ip then n - 1 else n) log
  | _ :: log                         => outstanding ip n log

-- The answers about an address.
def answers (ip : IpAddr) (log : List (Event × Answer)) : List (Event × Answer) :=
  log.filter (·.1.concerns ip)

def log (l : RateLimiter) (events : List Event) : List (Event × Answer) :=
  events.zip (step.outputs l events)

-- The counts are those of the outstanding admissions, an address which has any is in the map, and no
-- other address has a say in what happens to one.
structure Sound (l : RateLimiter) (events : List Event) : Prop where
  counted : ∀ ip, (step.after l events).currentCount ip = outstanding ip 0 (log l events)
  bounded : ∀ ip, (step.after l events).currentCount ip ≤ l.maxPerIp
  kept    : ∀ ip, 0 < outstanding ip 0 (log l events) →
    ((step.after l events).limits ip).isSome = true
  alone   : ∀ ip,
    let own := events.filter (·.concerns ip)
    (step.after l events).limits ip = (step.after l own).limits ip ∧
      answers ip (log l events) = log l own

variable {l l' : RateLimiter} {ip ip' : IpAddr} {now : Nat} {e : Event} {events : List Event}

@[simp]
theorem store_self {state : IpState} : (l.store ip state).limits ip = some state :=
  Function.update_self ..

@[simp]
theorem store_of_ne {state : IpState} (h : ip' ≠ ip) :
    (l.store ip' state).limits ip = l.limits ip :=
  Function.update_of_ne (Ne.symm h) ..

@[simp]
theorem currentCount_store_self {state : IpState} :
    (l.store ip state).currentCount ip = state.count := by
  simp [currentCount]

@[simp]
theorem currentCount_store_of_ne {state : IpState} (h : ip' ≠ ip) :
    (l.store ip' state).currentCount ip = l.currentCount ip := by
  simp [currentCount, h]

theorem check_cases (l : RateLimiter) (ip : IpAddr) (now : Nat) :
    (∃ state, l.check ip now = (l.store ip state, .error ⟨ip, l.currentCount ip, l.maxPerIp⟩) ∧
      state.count = l.currentCount ip ∧ l.maxPerIp ≤ l.currentCount ip) ∨
    (l.check ip now = (l.store ip ⟨l.currentCount ip + 1, now⟩, .ok ()) ∧
      l.currentCount ip < l.maxPerIp) := by
  have hc : ((l.limits ip).getD ⟨0, now⟩).count = l.currentCount ip := by
    unfold currentCount
    cases l.limits ip <;> rfl
  unfold check
  dsimp only
  rw [hc]
  split
  case isTrue h  => exact .inl ⟨_, rfl, hc, h⟩
  case isFalse h => exact .inr ⟨rfl, Nat.lt_of_not_le h⟩

theorem check_ok_iff : (∃ u, (l.check ip now).2 = .ok u) ↔ l.currentCount ip < l.maxPerIp := by
  rcases check_cases l ip now with ⟨_, h, _, hle⟩ | ⟨h, hlt⟩
  case inl => simp [h, hle]
  case inr => simp [h, hlt]

-- A check counts a test which it admits.
theorem currentCount_check : (l.check ip' now).1.currentCount ip =
    if ip' = ip ∧ l.currentCount ip' < l.maxPerIp then l.currentCount ip + 1
    else l.currentCount ip := by
  rcases check_cases l ip' now with ⟨state, h, hs, hle⟩ | ⟨h, hlt⟩
  case inl =>
    rw [h, if_neg fun hi => absurd hi.right (Nat.not_lt.mpr hle)]
    by_cases hi : ip' = ip
    case pos =>
      subst hi
      exact currentCount_store_self.trans hs
    case neg => exact currentCount_store_of_ne hi
  case inr =>
    rw [h]
    by_cases hi : ip' = ip
    case pos =>
      subst hi
      rw [if_pos ⟨rfl, hlt⟩]
      exact currentCount_store_self
    case neg =>
      rw [if_neg fun h => hi h.left]
      exact currentCount_store_of_ne hi

theorem step_check_cases (l : RateLimiter) (ip : IpAddr) (now : Nat) :
    (∃ state, step l (.check ip now) =
        (.limited ⟨ip, l.currentCount ip, l.maxPerIp⟩, l.store ip state) ∧
      state.count = l.currentCount ip) ∨
    (step l (.check ip now) = (.admitted, l.store ip ⟨l.currentCount ip + 1, now⟩) ∧
      l.currentCount ip < l.maxPerIp) := by
  rcases check_cases l ip now with ⟨state, h, hs, _⟩ | ⟨h, hlt⟩
  · exact .inl ⟨state, by simp only [step, h], hs⟩
  · exact .inr ⟨by simp only [step, h], hlt⟩

theorem step_check : (step l (.check ip now)).2 = (l.check ip now).1 := by
  rcases check_cases l ip now with ⟨_, h, _⟩ | ⟨h, _⟩ <;> simp only [step, h]

@[simp]
theorem step_release : step l (.release ip) = (.done, l.release ip) :=
  rfl

@[simp]
theorem step_cleanup {shard : IpAddr → Bool} :
    step l (.cleanup now shard) = (.done, l.cleanup now shard) :=
  rfl

@[simp]
theorem maxPerIp_release : (l.release ip).maxPerIp = l.maxPerIp := by
  unfold release
  split <;> rfl

theorem currentCount_release_self (l : RateLimiter) (ip : IpAddr) :
    (l.release ip).currentCount ip = l.currentCount ip - 1 := by
  unfold release
  split
  case h_1 state h => simp [currentCount, h]
  case h_2 h       => simp [currentCount, h]

theorem limits_release_of_ne (h : ip' ≠ ip) : (l.release ip').limits ip = l.limits ip := by
  unfold release
  split
  · exact store_of_ne h
  · rfl

theorem currentCount_release : (l.release ip').currentCount ip =
    if ip' = ip then l.currentCount ip - 1 else l.currentCount ip := by
  split
  case isTrue h  => exact h ▸ currentCount_release_self l ip'
  case isFalse h => exact congrArg (Option.elim · 0 IpState.count) (limits_release_of_ne h)

-- Only entries without a count are cleaned up.
theorem currentCount_cleanup {shard : IpAddr → Bool} :
    (l.cleanup now shard).currentCount ip = l.currentCount ip := by
  unfold currentCount cleanup
  dsimp only
  split
  case isFalse => rfl
  case isTrue =>
    cases l.limits ip
    case none => rfl
    case some state =>
      by_cases h : state.count > 0 ∨ now - state.lastAccess < l.window
      case pos => rw [Option.filter_some_pos (by simpa using h)]
      case neg =>
        rw [Option.filter_some_neg (by simpa using h)]
        exact (Nat.eq_zero_of_not_pos (h <| .inl ·)).symm

@[simp]
theorem step_maxPerIp : (step l e).2.maxPerIp = l.maxPerIp := by
  cases e
  case cleanup      => rfl
  case release ip   => exact maxPerIp_release
  case check ip now =>
    rcases step_check_cases l ip now with ⟨state, h, _⟩ | ⟨h, _⟩ <;> rw [h] <;> rfl

theorem after_maxPerIp : (step.after l events).maxPerIp = l.maxPerIp :=
  Mealy.after_invariant (I := fun l' : RateLimiter => l'.maxPerIp = l.maxPerIp)
    (fun _ _ h => step_maxPerIp.trans h) rfl events

-- A step changes the count of an address as it changes what is outstanding.
theorem step_counted {log : List (Event × Answer)} :
    outstanding ip (l.currentCount ip) ((e, (step l e).1) :: log) =
      outstanding ip ((step l e).2.currentCount ip) log := by
  cases e
  case cleanup now shard =>
    simp only [step_cleanup, outstanding, currentCount_cleanup]
  case release ip' =>
    simp only [step_release, outstanding, currentCount_release]
  case check ip' now =>
    rcases step_check_cases l ip' now with ⟨state, hc, hs⟩ | ⟨hc, _⟩
    case inl =>
      rw [hc]
      by_cases h : ip' = ip
      case pos => subst h; simp [outstanding, hs]
      case neg => simp [outstanding, h]
    case inr =>
      rw [hc]
      by_cases h : ip' = ip
      case pos => subst h; simp [outstanding]
      case neg => simp [outstanding, h]

theorem log_cons : log l (e :: events) = (e, (step l e).1) :: log (step l e).2 events := by
  rfl

theorem counted : outstanding ip (l.currentCount ip) (log l events) =
    (step.after l events).currentCount ip := by
  induction events generalizing l
  case nil => rfl
  case cons e es hi =>
    rw [log_cons, step_counted, hi]
    rfl

theorem step_bounded (h : l.currentCount ip ≤ l.maxPerIp) :
    (step l e).2.currentCount ip ≤ l.maxPerIp := by
  cases e
  case cleanup now shard => exact currentCount_cleanup.trans_le h
  case release ip'       =>
    rw [step_release, currentCount_release]
    split <;> omega
  case check ip' now     =>
    rw [step_check, currentCount_check]
    split
    case isTrue hc => exact hc.left ▸ hc.right
    case isFalse   => exact h

theorem bounded (h : l.currentCount ip ≤ l.maxPerIp) :
    (step.after l events).currentCount ip ≤ l.maxPerIp :=
  (Mealy.after_invariant (I := fun l' : RateLimiter => l'.currentCount ip ≤ l'.maxPerIp)
    (fun _ _ h => (step_bounded h).trans_eq step_maxPerIp.symm) h events).trans_eq after_maxPerIp

theorem isSome_of_currentCount_pos (h : 0 < l.currentCount ip) : (l.limits ip).isSome = true := by
  unfold currentCount at h
  cases hl : l.limits ip
  case none   => simp [hl] at h
  case some _ => rfl

-- Two limiters which are set up in the same way, and agree on an address.
structure Agree (ip : IpAddr) (l l' : RateLimiter) : Prop where
  maxPerIp : l.maxPerIp = l'.maxPerIp
  window   : l.window = l'.window
  limits   : l.limits ip = l'.limits ip

theorem step_agree (h : Agree ip l l') (hc : e.concerns ip = true) :
    (step l e).1 = (step l' e).1 ∧ Agree ip (step l e).2 (step l' e).2 := by
  cases e
  case cleanup now shard =>
    refine ⟨rfl, h.maxPerIp, h.window, ?_⟩
    simp only [step_cleanup, cleanup, h.limits, h.window]
  case release ip' =>
    obtain rfl : ip' = ip := of_decide_eq_true hc
    refine ⟨rfl, ?_⟩
    simp only [step_release, release, h.limits]
    split
    case h_1 => exact ⟨h.maxPerIp, h.window, by simp⟩
    case h_2 => exact h
  case check ip' now =>
    obtain rfl : ip' = ip := of_decide_eq_true hc
    simp only [step, check, h.limits, h.maxPerIp]
    by_cases hm : ((l'.limits ip').getD ⟨0, now⟩).count ≥ l'.maxPerIp <;>
      simp only [hm, if_true, if_false] <;>
      exact ⟨trivial, h.maxPerIp, h.window, by simp⟩

theorem step_unconcerned (hc : e.concerns ip = false) : Agree ip (step l e).2 l := by
  cases e
  case cleanup => cases hc
  case release ip' =>
    have hi : ip' ≠ ip := of_decide_eq_false hc
    refine ⟨maxPerIp_release, ?_, limits_release_of_ne hi⟩
    simp only [step_release, release]
    split <;> rfl
  case check ip' now =>
    have hi : ip' ≠ ip := of_decide_eq_false hc
    rcases step_check_cases l ip' now with ⟨state, h, _⟩ | ⟨h, _⟩ <;> rw [h] <;>
      exact ⟨rfl, rfl, store_of_ne hi⟩

theorem Agree.trans {l'' : RateLimiter} (h : Agree ip l l') (h' : Agree ip l' l'') :
    Agree ip l l'' :=
  ⟨h.maxPerIp.trans h'.maxPerIp, h.window.trans h'.window, h.limits.trans h'.limits⟩

theorem alone (h : Agree ip l l') :
    let own := events.filter (·.concerns ip)
    (step.after l events).limits ip = (step.after l' own).limits ip ∧
      answers ip (log l events) = log l' own := by
  induction events generalizing l l'
  case nil => exact ⟨h.limits, rfl⟩
  case cons e es hi =>
    cases hc : e.concerns ip
    case false =>
      have ⟨hl, ha⟩ := hi ((step_unconcerned hc).trans h)
      simp only [List.filter_cons, hc]
      exact ⟨hl, by simpa [log_cons, answers, hc] using ha⟩
    case true =>
      have ⟨ho, hs⟩ := step_agree h hc
      have ⟨hl, ha⟩ := hi hs
      simp only [List.filter_cons, hc, if_true, log_cons]
      refine ⟨hl, ?_⟩
      rw [← ha, ← ho]
      simp [answers, hc]

theorem sound (maxPerIp window : Nat) (events : List Event) : (new maxPerIp window).Sound events where
  counted _ := counted.symm
  bounded _ := bounded (Nat.zero_le _)
  kept _ h  := isSome_of_currentCount_pos (counted (l := new maxPerIp window) ▸ h)
  alone _   := alone ⟨rfl, rfl, rfl⟩

end RateLimiter
