import Xfr.Report.Framed
import Xfr.Session.Basic

open Utf8 (Text)

-- Frame by frame, the texts as they are opened: the frames are numbered from the sequence number of
-- the codec on.
def ControlCodec.Opens (aead : Aead) (recv : ControlCodec) (accepted : List (Text × Bytes)) : Prop :=
  ∀ i text bytes, accepted[i]? = some (text, bytes) →
    recv.seq.toNat + i < 2 ^ 64 ∧ Bytes.ofBe (bytes.take 4) = (bytes.drop 4).length ∧
    ∃ plaintext, text = Utf8.decodeLossy plaintext ∧
      (openPayload aead { recv with seq := .ofNat (recv.seq.toNat + i) } (bytes.drop 4)).1 =
        .ok plaintext

namespace Endpoint

def Whole (p : Endpoint) : Prop :=
  ∀ w ∈ p.written, w.Whole

instance {p : Endpoint} : Decidable p.Whole :=
  inferInstanceAs <| Decidable (∀ _ ∈ _, _)

-- A frame which the stream has not taken whole is the last one of which it takes anything.
def Consecutive (p : Endpoint) : Prop :=
  p.written.Pairwise fun w w' => w'.bytes ≠ [] → w.Whole

instance {p : Endpoint} : Decidable p.Consecutive :=
  inferInstanceAs <| Decidable (p.written.Pairwise fun w w' => w'.bytes ≠ [] → w.Whole)

end Endpoint

-- Every message is written as one frame and read from one frame, under consecutive numbers, and no
-- line passes the transport by. The stream takes the frames one after the other.
structure Endpoint.Continuous (aead : Aead) (send recv : ControlCodec) (p : Endpoint) : Prop where
  written     : (ControlWriter.protectedBy send).Frames aead (p.written.map (·.text))
                  (p.written.map (·.frame))
  consecutive : p.Consecutive
  accepted    : recv.Opens aead p.accepted
  lines       : p.lines = []

theorem sealFrame_error {aead : Aead} {send send' : ControlCodec} {text : Text} {e : CodecError}
    (h : sealFrame aead send text = (.error e, send')) : send' = send := by
  unfold sealFrame at h
  split at h
  case h_1 => simp at h
  case h_2 hs =>
    have ⟨_, hc⟩ := Prod.mk.inj h
    exact hc ▸ (ControlCodec.sealMessage_error hs).left

theorem readExact_eq_ok {n : Nat} {fills rest : Fills} {bytes : Bytes}
    (h : readExact n fills = .ok (bytes, rest)) :
    n ≤ fills.flatten.length ∧ bytes = fills.flatten.take n ∧
    rest.flatten = fills.flatten.drop n := by
  simp only [readExact, Chunks.flatten_take, List.length_take] at h
  split at h
  case isTrue  => contradiction
  case isFalse hl =>
    have ⟨hb, hr⟩ := Prod.mk.inj (Except.ok.inj h)
    exact ⟨by omega, hb.symm, hr ▸ Chunks.flatten_drop⟩

theorem readFrame_eq_ok {aead : Aead} {recv recv' : ControlCodec} {fills rest : Fills} {text : Text}
    (h : readFrame aead recv fills = .ok (text, recv', rest)) :
    let bytes := fills.flatten.take (fills.flatten.length - rest.flatten.length)
    Bytes.ofBe (bytes.take 4) = (bytes.drop 4).length ∧
    ∃ plaintext, text = Utf8.decodeLossy plaintext ∧
      recv.openPayload aead (bytes.drop 4) = (.ok plaintext, recv') := by
  simp only [readFrame, bind, Except.bind] at h
  split at h
  case h_1 => contradiction
  case h_2 r hp =>
    obtain ⟨prefixBytes, fills'⟩ := r
    have ⟨hn, hb, hr⟩ := readExact_eq_ok hp
    dsimp only at h
    split at h
    case isTrue  => contradiction
    case isFalse =>
      simp only [pure, Except.pure] at h
      split at h
      case h_1 => contradiction
      case h_2 r hq =>
        obtain ⟨payload, fills''⟩ := r
        have ⟨hn', hb', hr'⟩ := readExact_eq_ok hq
        dsimp only at h
        split at h
        case h_2 => contradiction
        case h_1 plaintext c ho =>
          simp only [Except.ok.injEq, Prod.mk.injEq] at h
          obtain ⟨ht, hc, hf⟩ := h
          subst hf hc
          have htake : fills.flatten.length - fills''.flatten.length =
              4 + Bytes.ofBe prefixBytes := by
            rw [hr', hr, List.length_drop, List.length_drop]
            rw [hr, List.length_drop] at hn'
            omega
          have hpayload : (fills.flatten.take (4 + Bytes.ofBe prefixBytes)).drop 4 = payload := by
            rw [hb', hr, List.drop_take, Nat.add_sub_cancel_left]
          have hprefix : (fills.flatten.take (4 + Bytes.ofBe prefixBytes)).take 4 = prefixBytes := by
            rw [hb, List.take_take, Nat.min_eq_left (by omega)]
          dsimp only
          rw [htake, hpayload, hprefix]
          refine ⟨?_, plaintext, ht.symm, ho⟩
          rw [hb', List.length_take]
          omega

namespace Control

variable {aead : Aead} {c c' : Control} {k : Codecs} {text : Text} {fills rest : Fills}

def codecs : Control → Option Codecs
  | whole (.protectedBy codecs)                   => some codecs
  | halves (.protectedBy recv) (.protectedBy send) => some ⟨send, recv⟩
  | _                                             => none

theorem codecs_split (h : c.codecs = some k) : c.split.codecs = some k := by
  cases c
  case halves => exact h
  case whole transport =>
    cases transport
    case plaintext   => contradiction
    case protectedBy => exact h

theorem write_codecs (aead : Aead) (text : Text) (h : c.codecs = some k) :
    (c.write aead text).1 = (sealFrame aead k.send text).1 ∧
    (c.write aead text).2.codecs = some { k with send := (sealFrame aead k.send text).2 } := by
  cases c
  case whole transport =>
    cases transport
    case plaintext          => contradiction
    case protectedBy codecs => cases h; exact ⟨rfl, rfl⟩
  case halves reader writer =>
    cases reader
    case plaintext        => contradiction
    case protectedBy recv =>
      cases writer
      case plaintext        => contradiction
      case protectedBy send => cases h; exact ⟨rfl, rfl⟩

theorem read_codecs (h : c.codecs = some k) (hr : c.read aead fills = .ok (text, c', rest)) :
    ∃ recv, readFrame aead k.recv fills = .ok (text, recv, rest) ∧
      c'.codecs = some { k with recv } := by
  cases c
  case whole transport =>
    cases transport
    case plaintext          => contradiction
    case protectedBy codecs =>
      cases h
      simp only [read, ProtectedControl.readMessage, bind, Except.bind] at hr
      cases hf : readFrame aead k.recv fills <;> simp [hf, pure, Except.pure] at hr
      case ok r =>
        obtain ⟨ht, hc, hr⟩ := hr
        subst ht hc hr
        exact ⟨r.2.1, rfl, rfl⟩
  case halves reader writer =>
    cases reader
    case plaintext        => contradiction
    case protectedBy recv =>
      cases writer
      case plaintext        => contradiction
      case protectedBy send =>
        cases h
        simp only [read, ControlReader.readMessage, bind, Except.bind] at hr
        cases hf : readFrame aead recv fills <;> simp [hf, pure, Except.pure] at hr
        case ok r =>
          obtain ⟨ht, hc, hr⟩ := hr
          subst ht hc hr
          exact ⟨r.2.1, rfl, rfl⟩

end Control

namespace Endpoint

variable {aead : Aead} {send recv : ControlCodec} {p p' : Endpoint} {text : Text} {taken : Nat}

theorem wire_prefix {written : List Sent}
    (h : written.Pairwise fun w w' => w'.bytes ≠ [] → w.Whole) :
    (written.map (·.bytes)).flatten <+: (written.map (·.frame)).flatten := by
  induction written
  case nil => exact List.prefix_rfl
  case cons w written hi =>
    have ⟨hw, h⟩ := List.pairwise_cons.mp h
    simp only [List.map_cons, List.flatten_cons]
    by_cases whole : w.Whole
    case pos =>
      have hb : w.bytes = w.frame := List.take_of_length_le whole
      exact hb ▸ (List.prefix_append_right_inj _).mpr (hi h)
    case neg =>
      have rest : (written.map (·.bytes)).flatten = [] := by
        simp only [List.flatten_eq_nil_iff, List.mem_map]
        rintro _ ⟨w', hw', rfl⟩
        by_contra hb
        exact whole (hw w' hw' hb)
      rw [rest, List.append_nil]
      exact (List.take_prefix _ _).trans (List.prefix_append _ _)

-- The stream has taken a beginning of the frames.
theorem Continuous.wire (h : p.Continuous aead send recv) :
    (p.written.map (·.bytes)).flatten <+: (p.written.map (·.frame)).flatten :=
  wire_prefix h.consecutive

theorem Whole.consecutive (h : p.Whole) : p.Consecutive :=
  List.pairwise_of_forall_mem_list fun w hw _ _ _ => h w hw

theorem Consecutive.of_written (hw : p'.written = p.written) : p'.Consecutive ↔ p.Consecutive := by
  simp only [Consecutive, hw]

-- What one side can do through its transport.
inductive Step (aead : Aead) (p : Endpoint) : Endpoint → Prop
  | stay                              : Step aead p p
  | split                             : Step aead p p.split
  | write (taken : Nat) (text : Text) : Step aead p (p.write aead taken text).1
  | read {text q}                     : p.read aead = some (text, q) → Step aead p q

theorem read_eq_some (h : p.read aead = some (text, p')) :
    ∃ control inbox, p.control.read aead p.inbox = .ok (text, control, inbox) ∧
      p' = { p with control, inbox, accepted := p.accepted ++ [(text, p.consumed inbox)] } := by
  unfold Endpoint.read at h
  split at h
  case h_1 => contradiction
  case h_2 text' control inbox hc =>
    have ⟨ht, hp⟩ := Prod.mk.inj (Option.some_inj.mp h)
    subst ht
    exact ⟨control, inbox, hc, hp.symm⟩

theorem Step.lines (h : Step aead p p') : p'.lines = p.lines := by
  cases h
  case stay  => rfl
  case split => rfl
  case write =>
    unfold Endpoint.write
    split <;> rfl
  case read h =>
    have ⟨_, _, _, hp⟩ := read_eq_some h
    exact hp ▸ rfl

-- What the stream takes of a message.
def handed (aead : Aead) (taken : Nat) (p : Endpoint) (text : Text) : Bytes :=
  match (p.control.write aead text).1 with
  | .ok frame => frame.take taken
  | .error _  => []

theorem consecutive_write : (p.write aead taken text).1.Consecutive ↔
    p.Consecutive ∧ (p.Whole ∨ p.handed aead taken text = []) := by
  unfold Endpoint.write handed
  split
  case h_1 frame control hw =>
    simp only [hw, Consecutive, List.pairwise_append, List.pairwise_singleton, List.mem_singleton,
      forall_eq, true_and, Sent.bytes, Whole]
    refine and_congr_right fun _ => ?_
    by_cases hb : frame.take taken = []
    case pos => simp [hb]
    case neg => simp [hb]
  case h_2 e control hw => simp [hw, Consecutive]

theorem Whole.write (whole : p.Whole) (h : (p.write aead taken text).2 = true) :
    (p.write aead taken text).1.Whole := by
  unfold Endpoint.write at h ⊢
  split at h
  case h_2 => contradiction
  case h_1 frame control hw =>
    intro w hm
    rcases List.mem_append.mp hm with hm | hm
    case inl => exact whole w hm
    case inr => exact List.mem_singleton.mp hm ▸ of_decide_eq_true h

-- As long as no line passes it by, the transport keeps up with both logs.
structure Protected (aead : Aead) (send recv : ControlCodec) (p : Endpoint) : Prop where
  codecs   : ∃ send', p.control.codecs =
               some ⟨send', { recv with seq := .ofNat (recv.seq.toNat + p.accepted.length) }⟩ ∧
             FrameStream.encodeAll (ControlWriter.encode? aead) (.protectedBy send)
               (p.written.map (·.text)) = some (p.written.map (·.frame), .protectedBy send')
  seq      : recv.seq.toNat + p.accepted.length < 2 ^ 64
  accepted : recv.Opens aead p.accepted
  lines    : p.lines = []

namespace Protected

theorem start (h : (Control.whole transport).codecs = some ⟨send, recv⟩) :
    Protected aead send recv (.start transport) where
  codecs   := ⟨send, by simpa [Endpoint.start] using h, rfl⟩
  seq      := recv.seq.toNat_lt
  accepted := by simp [Endpoint.start, ControlCodec.Opens]
  lines    := rfl

theorem continuous (h : Protected aead send recv p) (hc : p.Consecutive) :
    Continuous aead send recv p where
  written     := have ⟨_, _, hw⟩ := h.codecs; ControlWriter.frames_of_encodeAll hw
  consecutive := hc
  accepted    := h.accepted
  lines       := h.lines

theorem deliver {fill : Bytes} (h : Protected aead send recv p) :
    Protected aead send recv (p.deliver fill) :=
  ⟨h.codecs, h.seq, h.accepted, h.lines⟩

theorem split (h : Protected aead send recv p) : Protected aead send recv p.split where
  codecs   := have ⟨send', hc, hw⟩ := h.codecs; ⟨send', Control.codecs_split hc, hw⟩
  seq      := h.seq
  accepted := h.accepted
  lines    := h.lines

theorem write (h : Protected aead send recv p) :
    Protected aead send recv (p.write aead taken text).1 := by
  have ⟨send', hc, hw⟩ := h.codecs
  have ⟨hf, hc'⟩ := Control.write_codecs aead text hc
  unfold Endpoint.write
  split
  case h_1 frame control hcw =>
    rw [hcw] at hf hc'
    refine ⟨⟨_, hc', ?_⟩, h.seq, h.accepted, h.lines⟩
    simp only [List.map_append, List.map_cons, List.map_nil]
    apply FrameStream.encodeAll_concat hw
    simp only [ControlWriter.encode?, ControlWriter.encodeMessage, ← hf]
  case h_2 e control hcw =>
    rw [hcw] at hf hc'
    have hs : (sealFrame aead send' text).2 = send' := sealFrame_error (Prod.ext hf.symm rfl)
    exact ⟨⟨_, hs ▸ hc', hw⟩, h.seq, h.accepted, h.lines⟩

theorem read (h : Protected aead send recv p) (hr : p.read aead = some (text, p')) :
    Protected aead send recv p' := by
  have ⟨send', hc, hw⟩ := h.codecs
  obtain ⟨control, inbox, hcr, rfl⟩ := read_eq_some hr
  have ⟨recv', hf, hc'⟩ := Control.read_codecs hc hcr
  have ⟨hlen, plaintext, ht, ho⟩ := readFrame_eq_ok hf
  have ⟨_, _, _, ha⟩ := ControlCodec.openPayload_eq_ok_iff.mp ho
  have ⟨hlt, hs⟩ := ControlCodec.advance_eq_some_iff.mp ha
  have hn : (UInt64.ofNat (recv.seq.toNat + p.accepted.length)).toNat =
      recv.seq.toNat + p.accepted.length := by
    rw [UInt64.toNat_ofNat', Nat.mod_eq_of_lt h.seq]
  constructor
  case codecs =>
    refine ⟨send', ?_, hw⟩
    have hsucc := UInt64.ofNat_add (recv.seq.toNat + p.accepted.length) 1
    simp only [hc', hs, List.length_append, List.length_singleton, ← Nat.add_assoc, hsucc]
    rfl
  case seq =>
    simp only [hn] at hlt
    simpa [Nat.add_assoc] using hlt
  case lines    => exact h.lines
  case accepted =>
    intro i text bytes hi
    rcases Nat.lt_trichotomy i p.accepted.length with hlt | rfl | hgt
    case inl =>
      rw [List.getElem?_append_left hlt] at hi
      exact h.accepted i text bytes hi
    case inr.inl =>
      simp only [List.getElem?_concat_length, Option.some_inj, Prod.mk.injEq] at hi
      obtain ⟨rfl, rfl⟩ := hi
      exact ⟨h.seq, hlen, plaintext, ht, congrArg Prod.fst ho⟩
    case inr.inr =>
      rw [List.getElem?_eq_none (by simp; omega)] at hi
      contradiction

theorem step (h : Protected aead send recv p) (hs : Step aead p p') :
    Protected aead send recv p' := by
  cases hs
  case stay    => exact h
  case split   => exact h.split
  case write   => exact h.write
  case read hr => exact h.read hr

end Protected
end Endpoint

namespace Client

variable {aead : Aead} {json : Json} {config : ClientConfig} {taken : Nat}
variable {send recv : ControlCodec} {c c' : Client} {e : Event}

-- The message which is sent through the transport.
def message (config : ClientConfig) : Event → Option Message
  | .start       => some (.testStart config.id config.protocol)
  | .setupFailed => some (.cancel config.id "UDP stream setup failed".toList)
  | .cancel      => some (.cancel config.id "User requested cancellation".toList)
  | .pause p     => if config.supportsPause then some (pauseMessage config p) else none
  | .finish      => some (.finish config.id)
  | _            => none

def handed (aead : Aead) (json : Json) (config : ClientConfig) (taken : Nat) (c : Client) (e : Event) :
    Bytes :=
  match (message config e).bind json.serialize with
  | some text => c.endpoint.handed aead taken text
  | none      => []

-- All steps go through the transport, up to those of the MTU probe.
inductive Step (aead : Aead) (json : Json) (config : ClientConfig) (taken : Nat) (c : Client) :
    Event → Client → Prop
  | transport {event d} :
    Endpoint.Step aead c.endpoint d.endpoint →
    (d.endpoint.Consecutive ↔ c.endpoint.Consecutive ∧
      (c.endpoint.Whole ∨ c.handed aead json config taken event = [])) →
    (d.stage = .draining → c.stage = .draining) →
    (event = .probed → json.serialize (probeCancel config) = none ∨ taken = 0) →
    Step aead json config taken c event d
  | probed {text stage} :
    json.serialize (probeCancel config) = some text → taken ≠ 0 →
    Step aead json config taken c .probed
      { c with stage, endpoint := (c.endpoint.writeLine taken text).1 }
  | drain {event d text n} :
    event ≠ .probed → c.stage = .draining → c.endpoint.readLine = some (text, n, d.endpoint) →
    Step aead json config taken c event d

-- A step which sends nothing through the transport.
theorem Step.quiet (he : message config e = none) (hs : Endpoint.Step aead c.endpoint c'.endpoint)
    (hw : c'.endpoint.written = c.endpoint.written)
    (hd : c'.stage = .draining → c.stage = .draining) (hp : e ≠ .probed) :
    Step aead json config taken c e c' := by
  have hh : c.handed aead json config taken e = [] := by simp [handed, he]
  refine .transport hs ?_ hd (absurd · hp)
  rw [Endpoint.Consecutive.of_written hw]
  simp [hh]

theorem Step.read {text : Text} {stage : Stage} {reading : Bool} {endpoint : Endpoint}
    (h : c.endpoint.read aead = some (text, endpoint))
    (hd : stage = .draining → c.stage = .draining) :
    Step aead json config taken c .receive { c with stage, reading, endpoint } := by
  have ⟨_, _, _, hp⟩ := Endpoint.read_eq_some h
  exact .quiet rfl (.read h) (hp ▸ rfl) hd nofun

-- The transport is used for the message, if the message can be serialized.
theorem send_step {m : Message} {next : Stage} (hm : message config e = some m)
    (hn : next ≠ .draining) (he : e ≠ .probed) :
    Step aead json config taken c e (c.send aead json taken m next) := by
  unfold Client.send
  split
  case h_1 h =>
    have hh : c.handed aead json config taken e = [] := by simp [handed, hm, h]
    exact .transport .stay (by simp [goto, hh]) nofun (absurd · he)
  case h_2 text h =>
    have hh : c.handed aead json config taken e = c.endpoint.handed aead taken text := by
      simp [handed, hm, h]
    refine .transport (.write taken text) (hh ▸ Endpoint.consecutive_write) (fun h => ?_) (absurd · he)
    dsimp only at h
    split at h
    case isTrue  => exact absurd h hn
    case isFalse => contradiction

theorem notify_step {m : Message} {unserialized : Stage} (hm : message config e = some m)
    (hn : unserialized ≠ .draining) (he : e ≠ .probed) :
    Step aead json config taken c e (c.notify aead json taken m unserialized) := by
  unfold notify
  split
  case h_1 h =>
    have hh : c.handed aead json config taken e = [] := by simp [handed, hm, h]
    exact .transport .stay (by simp [goto, hh]) (absurd · hn) (absurd · he)
  case h_2 text h =>
    have hh : c.handed aead json config taken e = c.endpoint.handed aead taken text := by
      simp [handed, hm, h]
    exact .transport (.write taken text) (hh ▸ Endpoint.consecutive_write) id (absurd · he)

theorem receiveAck_step : Step aead json config taken c .receive (c.receiveAck aead json) := by
  unfold receiveAck
  split
  case h_1   => exact .quiet rfl .stay rfl nofun nofun
  case h_2 h => split <;> exact .read h nofun

theorem receiveFetching_step :
    Step aead json config taken c .receive (c.receiveFetching aead json) := by
  unfold receiveFetching
  split
  case h_1   => exact .quiet rfl .stay rfl nofun nofun
  case h_2 h =>
    split
    case isTrue  => exact .read h nofun
    case isFalse =>
      split
      case h_1 => exact .read h nofun
      case h_2 => exact .read h id

theorem receiveRunning_step :
    Step aead json config taken c .receive (c.receiveRunning aead json) := by
  unfold receiveRunning
  split
  case h_1   => exact .quiet rfl .stay rfl id nofun
  case h_2 h => exact .read h id

theorem probed_step : Step aead json config taken c .probed (c.probed json config taken) := by
  unfold Client.probed
  split
  case h_1 h => exact .transport .stay (by simp [goto, handed, message]) nofun fun _ => .inl h
  case h_2 text h =>
    by_cases ht : taken = 0
    case pos =>
      simp only [Endpoint.writeLine, ht, if_pos]
      exact .transport .stay (by simp [handed, message]) nofun fun _ => .inr rfl
    case neg => exact .probed h ht

theorem receiveDraining_step (hs : c.stage = .draining) :
    Step aead json config taken c .receive (c.receiveDraining json) := by
  unfold receiveDraining
  split
  case h_1   => exact .quiet rfl .stay rfl nofun nofun
  case h_2 h =>
    split
    case isTrue  => exact .drain nofun hs h
    case isFalse => split <;> exact .drain nofun hs h

theorem step_cases (h : step aead json config taken c e = some c') :
    Step aead json config taken c e c' := by
  unfold step at h
  dsimp only at h
  split at h
  case h_1     => contradiction
  case h_2     => exact Option.some_inj.mp h ▸ send_step rfl nofun nofun
  case h_3     => exact Option.some_inj.mp h ▸ receiveAck_step
  case h_4     =>
    split at h
    case isTrue  => exact Option.some_inj.mp h ▸ probed_step
    case isFalse => contradiction
  case h_5     =>
    split at h
    case isTrue  => contradiction
    case isFalse => exact Option.some_inj.mp h ▸ .quiet rfl .split rfl nofun nofun
  case h_6     =>
    split at h
    case isTrue  => contradiction
    case isFalse => exact Option.some_inj.mp h ▸ send_step rfl nofun nofun
  case h_7     => exact Option.some_inj.mp h ▸ receiveFetching_step
  case h_8 hs  => exact Option.some_inj.mp h ▸ receiveDraining_step hs
  case h_9     =>
    split at h
    case isTrue  => exact Option.some_inj.mp h ▸ receiveRunning_step
    case isFalse => contradiction
  case h_10    => exact Option.some_inj.mp h ▸ notify_step rfl nofun nofun
  case h_11    =>
    split at h
    case isTrue hp  => exact Option.some_inj.mp h ▸ notify_step (if_pos hp) nofun nofun
    case isFalse hp => exact Option.some_inj.mp h ▸ .quiet (if_neg hp) .stay rfl id nofun
  case h_12    =>
    split at h
    case isTrue  => exact Option.some_inj.mp h ▸ notify_step rfl nofun nofun
    case isFalse => contradiction
  case h_13 hs => 
    exact Option.some_inj.mp h ▸ .quiet rfl .stay rfl nofun nofun
  case h_14    => contradiction

-- Once a line has passed the transport by, it is remembered for good.
structure Kept (aead : Aead) (send recv : ControlCodec) (c : Client) : Prop where
  endpoint : c.endpoint.lines = [] → c.endpoint.Protected aead send recv
  draining : c.stage = .draining → c.endpoint.lines ≠ []

-- No line has passed the transport by, and the stream has taken the frames one after the other.
def Sound (c : Client) : Prop :=
  c.endpoint.lines = [] ∧ c.endpoint.Consecutive

-- No byte of a frame goes behind a frame which was cut off, and no byte of a line at all.
def careful (aead : Aead) (json : Json) (config : ClientConfig) (taken : Nat) (c : Client)
    (e : Event) : Bool :=
  (c.endpoint.Whole ∨ c.handed aead json config taken e = []) ∧
    (e = .probed → (json.serialize (probeCancel config)).isNone ∨ taken = 0)

theorem step_kept (h : Kept aead send recv c) (step : Step aead json config taken c e c') :
    Kept aead send recv c' ∧
    (c'.Sound ↔ c.Sound ∧ c.careful aead json config taken e = true) := by
  cases step
  case transport hp he hd hc =>
    refine ⟨⟨fun hl => ?_, fun hs => ?_⟩, ?_⟩
    · exact (h.endpoint (he.lines ▸ hl)).step he
    · exact he.lines ▸ h.draining (hd hs)
    · simp only [Sound, careful, he.lines, hc, and_assoc, Option.isNone_iff_eq_none,
        decide_eq_true_eq]
      tauto
  case probed text stage hs ht =>
    have hl : (c.endpoint.writeLine taken text).1.lines ≠ [] := by simp [Endpoint.writeLine, ht]
    exact ⟨⟨(absurd · hl), fun _ => hl⟩, by simp [Sound, careful, hl, hs, ht]⟩
  case drain hd he hr =>
    have hl : c'.endpoint.lines ≠ [] := by
      unfold Endpoint.readLine at hr
      split at hr
      case h_1 => contradiction
      case h_2 =>
        simp only [Option.some_inj, Prod.mk.injEq] at hr
        simp [← hr.right.right]
    exact ⟨⟨(absurd · hl), fun _ => hl⟩, by simp [Sound, hl, h.draining hd]⟩

end Client

namespace Handler

variable {aead : Aead} {json : Json} {taken : Nat} {send recv : ControlCodec} {s s' : Handler}
  {e : Event}

-- A frame which is cut off is the end of the handler.
structure Kept (aead : Aead) (send recv : ControlCodec) (s : Handler) : Prop where
  endpoint    : s.endpoint.Protected aead send recv
  consecutive : s.endpoint.Consecutive
  whole       : s.stage = .ended ∨ s.endpoint.Whole

namespace Kept

variable {stage : Stage} {reading : Bool}

theorem start {transport : ProtectedControl}
    (h : (Control.whole transport).codecs = some ⟨send, recv⟩) :
    Kept aead send recv (.start transport) where
  endpoint    := .start h
  consecutive := .nil
  whole       := .inr (List.forall_mem_nil _)

theorem goto (h : s.Kept aead send recv) : Kept aead send recv (s.goto .ended) :=
  ⟨h.endpoint, h.consecutive, .inl rfl⟩

theorem split (h : s.Kept aead send recv) :
    Kept aead send recv { s with reading, endpoint := s.endpoint.split } :=
  ⟨h.endpoint.split, h.consecutive, h.whole⟩

theorem read {text : Text} {endpoint : Endpoint} (h : s.Kept aead send recv)
    (whole : s.endpoint.Whole) (hr : s.endpoint.read aead = some (text, endpoint)) :
    Kept aead send recv { s with stage, reading, endpoint } ∧ endpoint.Whole := by
  have ⟨_, _, _, hp⟩ := Endpoint.read_eq_some hr
  have whole' : endpoint.Whole := by simpa [hp, Endpoint.Whole] using whole
  exact ⟨⟨h.endpoint.read hr, whole'.consecutive, .inr whole'⟩, whole'⟩

theorem of_send {m : Message} {next : Stage} (h : s.Kept aead send recv) (whole : s.endpoint.Whole) :
    Kept aead send recv (s.send aead json taken m next) := by
  unfold Handler.send
  split
  case h_1 => exact h.goto
  case h_2 text _ =>
    refine ⟨h.endpoint.write, Endpoint.consecutive_write.mpr ⟨h.consecutive, .inl whole⟩, ?_⟩
    cases hs : (s.endpoint.write aead taken text).2
    case false => exact .inl (by simp [hs])
    case true  => exact .inr (whole.write hs)

end Kept

theorem step_kept (h : Kept aead send recv s) (hs : step aead json taken s e = some s') :
    Kept aead send recv s' := by
  have whole : s.stage ≠ .ended → s.endpoint.Whole := h.whole.resolve_left
  unfold step at hs
  dsimp only at hs
  split at hs
  case h_1 => contradiction
  case h_2 hn =>
    refine Option.some_inj.mp hs ▸ ?_
    have whole := whole (by simp [hn])
    unfold receiveStart
    split
    case h_1    => exact h.goto
    case h_2 text endpoint hr =>
      split
      case h_1 => exact (h.read whole hr).left
      case h_2 => exact (h.read whole hr).left
      case h_3 =>
        have ⟨h, whole⟩ : Kept aead send recv { s with endpoint } ∧ endpoint.Whole :=
          h.read whole hr
        exact h.of_send whole
  case h_3 hn => exact Option.some_inj.mp hs ▸ h.of_send (whole (by simp [hn]))
  case h_4 hn => exact Option.some_inj.mp hs ▸ (h.of_send (whole (by simp [hn]))).split
  case h_5 hn =>
    split at hs
    case isFalse => contradiction
    case isTrue  =>
      refine Option.some_inj.mp hs ▸ ?_
      unfold receiveRunning
      split
      case h_1    => exact ⟨h.endpoint, h.consecutive, h.whole⟩
      case h_2 hr => exact (h.read (whole (by simp [hn])) hr).left
  case h_6 hn => exact Option.some_inj.mp hs ▸ h.of_send (whole (by simp [hn]))
  case h_7      => exact Option.some_inj.mp hs ▸ h.goto
  case h_8      => contradiction

end Handler

namespace Session

variable {aead : Aead} {json : Json} {config : ClientConfig} {c2s s2c : ControlCodec}
variable {s s' : Session} {e : Event}

structure Continuous (aead : Aead) (c2s s2c : ControlCodec) (s : Session) : Prop where
  client : s.client.endpoint.Continuous aead c2s s2c
  server : s.server.endpoint.Continuous aead s2c c2s

def spares (aead : Aead) (json : Json) (config : ClientConfig) (s : Session) : Event → Bool
  | .client e taken => s.client.careful aead json config taken e
  | _               => true

structure Kept (aead : Aead) (c2s s2c : ControlCodec) (s : Session) : Prop where
  client : s.client.Kept aead c2s s2c
  server : s.server.Kept aead s2c c2s

theorem Kept.start : Kept aead c2s s2c (start c2s s2c) where
  client := ⟨fun _ => .start rfl, nofun⟩
  server := .start rfl

theorem Kept.holds_iff (h : Kept aead c2s s2c s) :
    Continuous aead c2s s2c s ↔ s.client.Sound where
  mp hc  := ⟨hc.client.lines, hc.client.consecutive⟩
  mpr hs :=
    ⟨(h.client.endpoint hs.left).continuous hs.right,
      h.server.endpoint.continuous h.server.consecutive⟩

theorem step_kept (h : Kept aead c2s s2c s) (hs : step aead json config s e = some s') :
    Kept aead c2s s2c s' ∧
    (s'.client.Sound ↔ s.client.Sound ∧ spares aead json config s e = true) := by
  cases e
  case client e taken =>
    have ⟨c, hc, hs⟩ := Option.map_eq_some_iff.mp hs
    have ⟨hk, hl⟩ := Client.step_kept h.client (Client.step_cases hc)
    subst hs
    exact ⟨⟨hk, h.server⟩, hl⟩
  case server e taken =>
    have ⟨t, ht, hs⟩ := Option.map_eq_some_iff.mp hs
    subst hs
    exact ⟨⟨h.client, Handler.step_kept h.server ht⟩, by simp [spares]⟩
  case deliverClient fill =>
    obtain rfl := Option.some_inj.mp hs
    refine ⟨⟨⟨fun hl => ?_, h.client.draining⟩, h.server⟩, by
      simp [spares, Client.Sound, Endpoint.deliver, Endpoint.Consecutive]⟩
    exact (h.client.endpoint hl).deliver
  case deliverServer fill =>
    obtain rfl := Option.some_inj.mp hs
    exact ⟨⟨h.client, ⟨h.server.endpoint.deliver, h.server.consecutive, h.server.whole⟩⟩,
      by simp [spares]⟩

-- A session in which the transport is in place stays protected in exactly those runs in which the
-- client hands over no byte of a frame behind one that was cut off, and no byte of the line which
-- cancels an MTU probe, whatever the network makes the two sides read.
theorem continuous_iff (aead : Aead) (json : Json) (config : ClientConfig) {c2s s2c : ControlCodec}
    {events : List Event} {s : Session}
    (run : (step aead json config).run (start c2s s2c) events = some s) :
    Continuous aead c2s s2c s ↔
      ((step aead json config).guard (spares aead json config)).run (start c2s s2c) events = some s := by
  have kept : Kept aead c2s s2c s :=
    System.run_invariant (fun h hs => (step_kept h hs).left) .start run
  exact kept.holds_iff.trans <|
    System.run_guard_iff (P := fun s : Session => s.client.Sound) step_kept .start ⟨rfl, .nil⟩ run

-- A serialization by the first letter.
def letters : Json where
  serialize
    | .testStart .. => some ['s']
    | .testAck _    => some ['a']
    | .cancel ..    => some ['c']
    | .finish _     => some ['f']
    | .interval _   => some ['i']
    | .result _     => some ['r']
    | _             => none
  deserialize
    | ['s'] => some (.testStart [] .udp)
    | ['a'] => some (.testAck [])
    | ['c'] => some (.cancel [] [])
    | ['f'] => some (.finish [])
    | ['i'] => some (.interval [])
    | ['r'] => some (.result [])
    | _     => none

def sealedBy (codec : ControlCodec) (letter : Char) : Bytes :=
  match sealFrame Channel.transparent codec [letter] with
  | (.ok frame, _) => frame
  | (.error _, _)  => []

def up : ControlCodec := .new [1] .c2s

def down : ControlCodec := .new [2] .s2c

-- The test is started and acknowledged, and no write is cut off.
def acknowledged : List Event :=
  [
    .client .start 64, .deliverServer (sealedBy up 's'), .server .receive 0,
    .server .acknowledge 64, .deliverClient (sealedBy down 'a'), .client .receive 0
  ]

-- The user cancels a test, and the server sends an interval and begins with the result.
def cancelled : List Event :=
  acknowledged ++ [
    .client .setup 0, .server (.report (.interval [])) 64, .client .cancel 64,
    .deliverServer (sealedBy { up with seq := 1 } 'c'), .server .receive 0,
    .deliverClient (sealedBy { down with seq := 1 } 'i'), .client .receive 0,
    .server (.report (.result [])) 3
  ]

theorem continuous_iff_cancelled :
    ∃ s, (step Channel.transparent letters ⟨[], .udp, false, false, false⟩).run (start up down)
        cancelled = some s ∧
      s.server.endpoint.accepted.map (·.1) = [['s'], ['c']] ∧ s.server.stage = .ended ∧
      Continuous Channel.transparent up down s := by
  let config : ClientConfig := ⟨[], .udp, false, false, false⟩
  have hm : (((step Channel.transparent letters config).guard
      (spares Channel.transparent letters config)).run (start up down) cancelled).map
      (fun s => (s.server.endpoint.accepted.map (·.1), s.server.stage)) =
      some ([['s'], ['c']], .ended) := by decide
  have ⟨s, guarded, hs⟩ := Option.map_eq_some_iff.mp hm
  have run := System.run_of_guard guarded
  simp only [Prod.mk.injEq] at hs
  exact ⟨s, run, hs.left, hs.right, (continuous_iff _ _ _ run).mpr guarded⟩

-- The MTU probe is complete, and the server does not understand the line which says so.
theorem probe_leaves_transport :
    ∃ s, (step Channel.transparent letters ⟨[], .udp, true, false, false⟩).run (start up down)
        (acknowledged ++ [.client .probed 64, .deliverServer (line ['c']), .server .receive 0]) =
          some s ∧
      s.client.endpoint.lines = [line ['c']] ∧
      s.server.reading = false ∧ s.server.endpoint.accepted.map (·.1) = [['s']] ∧
      ¬Continuous Channel.transparent up down s := by
  have hm : ((step Channel.transparent letters ⟨[], .udp, true, false, false⟩).run (start up down)
      (acknowledged ++ [.client .probed 64, .deliverServer (line ['c']), .server .receive 0])).map
      (fun s => (s.client.endpoint.lines, s.server.reading, s.server.endpoint.accepted.map (·.1))) =
      some ([line ['c']], false, [['s']]) := by decide
  have ⟨s, run, hs⟩ := Option.map_eq_some_iff.mp hm
  simp only [Prod.mk.injEq] at hs
  refine ⟨s, run, hs.left, hs.right.left, hs.right.right, fun h => ?_⟩
  have := h.client.lines
  simp [hs.left] at this

-- The cancel is given up after two bytes of its frame, and then the byte budget is delivered. The
-- server reads the two bytes and the next frame as one.
def cutOff : List Event :=
  acknowledged ++ [
    .client .setup 0, .client .cancel 2, .client .finish 64,
    .deliverServer ((sealedBy { up with seq := 1 } 'c').take 2),
    .deliverServer (sealedBy { up with seq := 2 } 'f'), .server .receive 0
  ]

theorem cancel_cut_off :
    ∃ s, (step Channel.transparent letters ⟨[], .tcp, false, true, false⟩).run (start up down)
        cutOff = some s ∧
      s.client.endpoint.written.map (·.text) = [['s'], ['c'], ['f']] ∧
      s.server.reading = false ∧ s.server.endpoint.accepted.map (·.1) = [['s']] ∧
      ¬Continuous Channel.transparent up down s := by
  have hm : ((step Channel.transparent letters ⟨[], .tcp, false, true, false⟩).run (start up down)
      cutOff).map (fun s => (s.client.endpoint.written.map (·.text), s.server.reading,
        s.server.endpoint.accepted.map (·.1), decide s.client.endpoint.Consecutive)) =
      some ([['s'], ['c'], ['f']], false, [['s']], false) := by decide
  have ⟨s, run, hs⟩ := Option.map_eq_some_iff.mp hm
  simp only [Prod.mk.injEq, decide_eq_false_iff_not] at hs
  have ⟨hw, hr, ha, hc⟩ := hs
  exact ⟨s, run, hw, hr, ha, fun h => hc h.client.consecutive⟩

end Session
