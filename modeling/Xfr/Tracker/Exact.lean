import Xfr.Feedback.Fresh

-- The tracker as it is computed when no addition and no subtraction but the saturating ones may leave
-- the range of a 64-bit number.
namespace PacketTracker.Exact

open U64

-- The mask of the last word, of which only the lower bits are cleared.
def lastMask (stopBit : Nat) : Option Nat :=
  if stopBit = 0 then some U64.max else checkedSub (2 ^ stopBit) 1

-- The words between the first and the last one begin after the first one.
def between (first last : Nat) : Option Nat :=
  if first = last then some last else checkedAdd first 1

def clearRange (t : PacketTracker) (start stop : Nat) : Option PacketTracker :=
  if start = stop then
    some t
  else do
    let last ← checkedSub stop 1
    let _ ← lastMask (stop % PACKET_TRACKER_WORD_BITS)
    let _ ← between (start / PACKET_TRACKER_WORD_BITS) (last / PACKET_TRACKER_WORD_BITS)
    return t.clearRange start stop

def advanceWindow (t : PacketTracker) (previous next : Nat) : Option PacketTracker := do
  let distance ← checkedSub next previous
  if distance ≥ PACKET_TRACKER_WINDOW then
    return { t with seen := Bitmap.empty }
  else
    let first ← checkedAdd previous 1
    let stop ← checkedAdd (index first) distance
    let t ← clearRange t (index first) (min stop PACKET_TRACKER_WINDOW)
    if stop > PACKET_TRACKER_WINDOW then
      let rest ← checkedSub stop PACKET_TRACKER_WINDOW
      clearRange t 0 rest
    else
      return t

def recordTracked (t : PacketTracker) (sequence : Nat) : Option (Bool × PacketTracker) :=
  match t.highestSeen with
  | none =>
    some (true, { t with lost := sequence, highestSeen := some sequence }.mark sequence)
  | some highest =>
    if sequence > highest then do
      let t ← advanceWindow t highest sequence
      let distance ← checkedSub sequence highest
      let gap ← checkedSub distance 1
      let t := { t with lost := U64.saturatingAdd t.lost gap, highestSeen := some sequence }
      return (true, t.mark sequence)
    else do
      let behind ← checkedSub highest sequence
      if behind ≥ PACKET_TRACKER_WINDOW ∨ t.seen.test (index sequence) then
        return (false, t)
      else
        let lost := U64.saturatingSub t.lost 1
        let outOfOrder := U64.saturatingAdd t.outOfOrder 1
        return (true, { t with lost, outOfOrder }.mark sequence)

def confirmJump (t : PacketTracker) (sequence : Nat) : Option (Bool × PacketTracker) :=
  match t.unconfirmedJump with
  | some held =>
    if U64.absDiff held sequence < PACKET_TRACKER_WINDOW then do
      let (_, t) ← recordTracked { t with unconfirmedJump := none } held
      return (true, t)
    else
      some (false, { t with unconfirmedJump := some sequence })
  | none => some (false, { t with unconfirmedJump := some sequence })

def recordUnique (t : PacketTracker) (sequence : Nat) : Option (Bool × PacketTracker) :=
  if t.jump sequence > PACKET_TRACKER_WINDOW then do
    let (confirmed, t) ← confirmJump t sequence
    if confirmed then recordTracked t sequence else return (false, t)
  else
    recordTracked t sequence

def record (t : PacketTracker) : Call → Option (Bool × PacketTracker)
  | .recordUnique sequence    => recordUnique t sequence.toNat
  | .recordStraggler sequence =>
    if t.highestSeen.any (sequence.toNat < ·) then
      recordTracked t sequence.toNat
    else
      some (false, t)

variable {t : PacketTracker} {start stop previous next sequence : Nat}

theorem exists_lastMask {stopBit : Nat} : ∃ mask, lastMask stopBit = some mask := by
  unfold lastMask
  split
  case isTrue  => exact ⟨_, rfl⟩
  case isFalse => exact ⟨_, checkedSub_eq_some Nat.one_le_two_pow⟩

theorem exists_between {first last : Nat} (h : first < U64.max) :
    ∃ word, between first last = some word := by
  unfold between
  split
  case isTrue  => exact ⟨_, rfl⟩
  case isFalse => exact ⟨_, checkedAdd_eq_some h⟩

theorem clearRange_eq (hb : 0 < stop) (hl : start ≤ PACKET_TRACKER_WINDOW) :
    clearRange t start stop = some (t.clearRange start stop) := by
  unfold clearRange
  split
  case isTrue h => simp [PacketTracker.clearRange, Bitmap.clearRange, h]
  case isFalse h =>
    have hw : start / PACKET_TRACKER_WORD_BITS < U64.max :=
      (Nat.div_le_self ..).trans_lt <| hl.trans_lt (by decide)
    obtain ⟨_, hm⟩ := @exists_lastMask (stop % PACKET_TRACKER_WORD_BITS)
    obtain ⟨_, hf⟩ := @exists_between _ ((stop - 1) / PACKET_TRACKER_WORD_BITS) hw
    refine Option.bind_eq_some_iff.mpr ⟨_, checkedSub_eq_some hb, ?_⟩
    refine Option.bind_eq_some_iff.mpr ⟨_, hm, ?_⟩
    exact Option.bind_eq_some_iff.mpr ⟨_, hf, rfl⟩

theorem advanceWindow_eq (h : previous < next) (hn : next ≤ U64.max) :
    advanceWindow t previous next = some (t.advanceWindow previous next) := by
  have hi : index (previous + 1) < PACKET_TRACKER_WINDOW := index_lt
  have hw : 2 * PACKET_TRACKER_WINDOW ≤ U64.max := by decide
  unfold advanceWindow PacketTracker.advanceWindow
  refine Option.bind_eq_some_iff.mpr ⟨_, checkedSub_eq_some h.le, ?_⟩
  dsimp only
  split
  case isTrue => rfl
  case isFalse hd =>
    refine Option.bind_eq_some_iff.mpr ⟨_, checkedAdd_eq_some (by omega), ?_⟩
    refine Option.bind_eq_some_iff.mpr ⟨_, checkedAdd_eq_some (by omega), ?_⟩
    refine Option.bind_eq_some_iff.mpr ⟨_, clearRange_eq (by omega) hi.le, ?_⟩
    split
    case isFalse => rfl
    case isTrue hs =>
      refine Option.bind_eq_some_iff.mpr ⟨_, checkedSub_eq_some hs.le, ?_⟩
      exact clearRange_eq (by omega) (Nat.zero_le _)

theorem recordTracked_eq (hs : sequence ≤ U64.max) :
    recordTracked t sequence = some (t.recordTracked sequence) := by
  unfold recordTracked PacketTracker.recordTracked
  cases hh : t.highestSeen
  case none => rfl
  case some highest =>
    dsimp only
    split
    case isTrue hl =>
      refine Option.bind_eq_some_iff.mpr ⟨_, advanceWindow_eq hl hs, ?_⟩
      refine Option.bind_eq_some_iff.mpr ⟨_, checkedSub_eq_some (Nat.le_of_lt hl), ?_⟩
      exact Option.bind_eq_some_iff.mpr ⟨_, checkedSub_eq_some (Nat.sub_pos_of_lt hl), rfl⟩
    case isFalse hl =>
      refine Option.bind_eq_some_iff.mpr ⟨_, checkedSub_eq_some (Nat.le_of_not_lt hl), ?_⟩
      split <;> rfl

theorem confirmJump_eq (f : t.Fits) :
    confirmJump t sequence = some (t.confirmJump sequence) := by
  unfold confirmJump PacketTracker.confirmJump
  cases hh : t.unconfirmedJump
  case none => rfl
  case some held =>
    dsimp only
    split
    case isFalse => rfl
    case isTrue =>
      exact Option.bind_eq_some_iff.mpr ⟨_, recordTracked_eq (f.unconfirmedJump held hh), rfl⟩

theorem recordUnique_eq (f : t.Fits) (hs : sequence ≤ U64.max) :
    recordUnique t sequence = some (t.recordUnique sequence) := by
  unfold recordUnique PacketTracker.recordUnique
  split
  case isFalse => exact recordTracked_eq hs
  case isTrue =>
    refine Option.bind_eq_some_iff.mpr ⟨_, confirmJump_eq f, ?_⟩
    cases hc : t.confirmJump sequence
    case mk confirmed t' =>
      cases confirmed
      case false => rfl
      case true  => exact recordTracked_eq hs

-- Whatever the sequence numbers are, no operation leaves its range.
theorem record_eq (f : t.Fits) (call : Call) : record t call = some (t.record call) := by
  cases call
  case recordUnique sequence => exact recordUnique_eq f (U64.le_max sequence)
  case recordStraggler sequence =>
    unfold record PacketTracker.record recordStraggler
    dsimp only
    split
    case isTrue  => exact recordTracked_eq (U64.le_max sequence)
    case isFalse => rfl

end PacketTracker.Exact
