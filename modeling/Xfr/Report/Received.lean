import Xfr.Control.ReaderTasks

open Utf8 (Text)
open Messages (Deliverable clientControlEvents)
open Serde (Value FloatText)

namespace Report

variable {F : Type} [IntCast F] [FloatText F] {parse : Text → Option (Value F)}
  {messages : List (Messages.ControlMessage F)} {aead : Aead} {codec : ControlWriter} {s : Report}

-- What the client makes of a beginning of the control stream: the messages whose frames are in it as a
-- whole. All of them have arrived when the stream has, and the result is the last one.
structure Received (aead : Aead) (parse : Text → Option (Value F)) (codec : ControlWriter)
    (messages : List (Messages.ControlMessage F)) (s : Report) (fills : Fills) (k : Nat)
    (tail : Bytes) : Prop where
  cut    : FrameStream.Cut s.frames fills.flatten k tail
  events : (codec = .plaintext → tail = []) → ∀ {fuel}, k < fuel →
             clientControlEvents aead parse fuel codec.peer fills =
               some ((messages.take k).map .message ++ [Messages.lastEvent codec])
  result : fills.flatten = s.wire → ∀ result ∈ s.reported,
             k = messages.length ∧ messages.getLast?.map (·.serialize) = some result

-- After any run of the report loop, and for any beginning of the stream in any pieces, the client is
-- told of exactly the messages which the loop has encoded and which have arrived.
theorem received_run (tagged : aead.Tagged) (serialize : ControlMessage → Option Text)
    (config : ReportLoopConfig) {now : Nat} {streams : List StreamStats}
    {recvClosed sendClosed : Bool} {events : List (Nat × Event)}
    (run : (step aead serialize config).run
      (.init now streams codec recvClosed sendClosed) events = some s)
    (hm : s.messages = messages.map (·.serialize)) (hd : ∀ m ∈ messages, Deliverable parse m)
    {fills : Fills} (hi : codec.Intact fills) (hp : fills.flatten <+: s.wire) :
    ∃ k tail, Received aead parse codec messages s fills k tail := by
  have f : Framed aead codec s := System.run_invariant (Framed.step · ·) Framed.init run
  obtain ⟨st, r, hs⟩ := f.stream
  obtain ⟨codec', he, _⟩ := hs.encoded
  rw [r.messages, r.frames, hm] at he
  have hlen : s.frames.length = messages.length := by
    rw [FrameStream.encodeAll_length he, List.length_map]
  have hw : s.wire <+: s.frames.flatten := by
    rw [← r.wire, ← r.frames]
    exact hs.prefix_wire
  obtain ⟨k, tail, cut, whole⟩ := FrameStream.exists_cut (hp.trans hw)
  refine ⟨k, tail, cut, fun hc fuel hk => ?_, fun hf result hr => ?_⟩
  case refine_1 => exact (Messages.tasks_eq tagged "" hd he cut hi hc hk).left
  case refine_2 =>
    obtain ⟨_, hlast, hall⟩ := f.delivered result hr
    refine ⟨(whole (hf.trans hall)).left.trans hlen, ?_⟩
    rw [← List.getLast?_map, ← hm, hlast]

-- One report, and the result in two writes.
def notice : Messages.ControlMessage Messages.Tenths :=
  .cancelled ⟨"t"⟩

def outcome : Messages.ControlMessage Messages.Tenths :=
  .error ⟨"x"⟩

def parseEither (text : Text) : Option (Value Messages.Tenths) :=
  if text = notice.value.text then some notice.value else Messages.parseLine outcome.value text

theorem deliverable_either : ∀ m ∈ [notice, outcome], Deliverable parseEither m := by
  intro m hm
  rcases List.mem_pair.mp hm with rfl | rfl
  · exact ⟨fun _ => if_pos rfl, fun _ _ => rfl, rfl, by decide +kernel⟩
  · exact ⟨fun _ => (if_neg (by decide +kernel)).trans (if_pos rfl), fun _ _ => rfl, rfl,
      by decide +kernel⟩

def twice : List (Nat × Event) :=
  let counters : Counters := ⟨0, 0, Nat.zero_le _, Nat.zero_le _⟩
  let reading : Reading := ⟨1, counters, counters, 0, ⟨0, 0⟩, none⟩
  [
    (0, .head), (1, .tick [reading]), (1, .head), (2, .written (some 57)), (2, .head),
    (3, .command none), (4, .finish outcome.serialize), (4, .encode), (5, .write (some 9)),
    (5, .write (some 49)), (6, .flushed true)
  ]

theorem received_run_twice :
    ∃ s k tail, (step .tagging (fun _ => some notice.serialize)
        ⟨['a'], .tcp, 100, .upload, false, false⟩).run
        (.init 0 [.new 0 0] (.protectedBy (.new [] .s2c)) true true) twice = some s ∧
      s.reported = [outcome.serialize] ∧
      Received .tagging parseEither (.protectedBy (.new [] .s2c)) [notice, outcome] s
        [s.wire.take 60, s.wire.drop 60] k tail := by
  have hm : ((step .tagging (fun _ => some notice.serialize)
      ⟨['a'], .tcp, 100, .upload, false, false⟩).run
      (.init 0 [.new 0 0] (.protectedBy (.new [] .s2c)) true true) twice).map
      (fun s => (s.messages, s.reported)) =
        some ([notice.serialize, outcome.serialize], [outcome.serialize]) := by decide +kernel
  obtain ⟨s, run, hs⟩ := Option.map_eq_some_iff.mp hm
  have ⟨hm, hr⟩ : s.messages = [notice, outcome].map (·.serialize) ∧
      s.reported = [outcome.serialize] := Prod.mk.inj hs
  have ⟨k, tail, h⟩ : ∃ k tail, Received .tagging parseEither (.protectedBy (.new [] .s2c))
      [notice, outcome] s [s.wire.take 60, s.wire.drop 60] k tail :=
    received_run Aead.tagging_tagged _ _ run hm deliverable_either trivial (by simp)
  exact ⟨s, k, tail, run, hr, h⟩

end Report
