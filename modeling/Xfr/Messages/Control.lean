import Xfr.Messages.Data

open Utf8 (Text)

namespace Messages

open Serde (Value Record FloatText)

variable {F : Type} [IntCast F]

structure Hello where
  version      : String
  client       : Option String
  server       : Option String
  capabilities : Option (List String)
  auth         : Option AuthChallenge
  clientNonce  : Option String

def hello : Record F Hello Hello :=
  Record.make Hello.mk
    |>.field "version" (·.version) (.required .string)
    |>.field "client" (·.client) (.optional .string)
    |>.field "server" (·.server) (.optional .string)
    |>.field "capabilities" (·.capabilities) (.optional (.seq .string))
    |>.field "auth" (·.auth) (.optional authChallenge)
    |>.field "client_nonce" (·.clientNonce) (.optional .string)

structure AuthResponse where
  response : String

def authResponse : Record F AuthResponse AuthResponse :=
  Record.make AuthResponse.mk
    |>.field "response" (·.response) (.required .string)

structure AuthSuccess where
  serverProof : Option String

def authSuccess : Record F AuthSuccess AuthSuccess :=
  Record.make AuthSuccess.mk
    |>.field "server_proof" (·.serverProof) (.optional .string)

structure TestStart where
  id             : String
  protocol       : Protocol
  streams        : UInt8
  durationSecs   : UInt32
  direction      : Protocol.Direction
  bitrate        : Option UInt64
  congestion     : Option String
  mptcp          : Bool
  dscp           : Option UInt8
  windowSize     : Option UInt64
  zerocopy       : Bool
  mtuProbe       : Bool
  tcpNodelay     : Bool
  byteBudget     : Option UInt64
  udpPayloadSize : Option UInt16

def testStart : Record F TestStart TestStart :=
  Record.make TestStart.mk
    |>.field "id" (·.id) (.required .string)
    |>.field "protocol" (·.protocol) (.required protocol)
    |>.field "streams" (·.streams) (.required .u8)
    |>.field "duration_secs" (·.durationSecs) (.required .u32)
    |>.field "direction" (·.direction) (.required direction)
    |>.field "bitrate" (·.bitrate) (.optional .u64)
    |>.field "congestion" (·.congestion) (.optional .string)
    |>.field "mptcp" (·.mptcp) .flag
    |>.field "dscp" (·.dscp) (.optional .u8)
    |>.field "window_size" (·.windowSize) (.optional .u64)
    |>.field "zerocopy" (·.zerocopy) .flag
    |>.field "mtu_probe" (·.mtuProbe) .flag
    |>.field "tcp_nodelay" (·.tcpNodelay) .flag
    |>.field "byte_budget" (·.byteBudget) (.optional .u64)
    |>.field "udp_payload_size" (·.udpPayloadSize) (.optional .u16)

structure TestAck where
  id        : String
  dataPorts : List UInt16
  udpToken  : Option String

def testAck : Record F TestAck TestAck :=
  Record.make TestAck.mk
    |>.field "id" (·.id) (.required .string)
    |>.field "data_ports" (·.dataPorts) (.required (.seq .u16))
    |>.field "udp_token" (·.udpToken) (.optional .string)

structure Interval (F : Type) where
  id        : String
  elapsedMs : UInt64
  streams   : List (StreamInterval F)
  aggregate : AggregateInterval F

def interval : Record F (Interval F) (Interval F) :=
  Record.make Interval.mk
    |>.field "id" (·.id) (.required .string)
    |>.field "elapsed_ms" (·.elapsedMs) (.required .u64)
    |>.field "streams" (·.streams) (.required (.seq streamInterval))
    |>.field "aggregate" (·.aggregate) (.required aggregateInterval)

structure Cancel where
  id     : String
  reason : String

def cancel : Record F Cancel Cancel :=
  Record.make Cancel.mk
    |>.field "id" (·.id) (.required .string)
    |>.field "reason" (·.reason) (.required .string)

-- The fields of `Cancelled`, `Finish`, `Pause` and `Resume`.
structure IdOnly where
  id : String

def idOnly : Record F IdOnly IdOnly :=
  Record.make IdOnly.mk
    |>.field "id" (·.id) (.required .string)

structure Error where
  message : String

def error : Record F Error Error :=
  Record.make Error.mk
    |>.field "message" (·.message) (.required .string)

structure DataHello where
  testId      : String
  streamIndex : UInt16

def dataHello : Record F DataHello DataHello :=
  Record.make DataHello.mk
    |>.field "test_id" (·.testId) (.required .string)
    |>.field "stream_index" (·.streamIndex) (.required .u16)

inductive ControlMessage (F : Type)
  | hello (fields : Hello)
  | authResponse (fields : AuthResponse)
  | authSuccess (fields : AuthSuccess)
  | testStart (fields : TestStart)
  | testAck (fields : TestAck)
  | interval (fields : Interval F)
  | result (fields : TestResult F)
  | cancel (fields : Cancel)
  | cancelled (fields : IdOnly)
  | finish (fields : IdOnly)
  | pause (fields : IdOnly)
  | resume (fields : IdOnly)
  | error (fields : Error)
  | dataHello (fields : DataHello)

inductive Variant
  | hello
  | authResponse
  | authSuccess
  | testStart
  | testAck
  | interval
  | result
  | cancel
  | cancelled
  | finish
  | pause
  | resume
  | error
  | dataHello

namespace Variant

def name : Variant → String
  | hello        => "hello"
  | authResponse => "auth_response"
  | authSuccess  => "auth_success"
  | testStart    => "test_start"
  | testAck      => "test_ack"
  | interval     => "interval"
  | result       => "result"
  | cancel       => "cancel"
  | cancelled    => "cancelled"
  | finish       => "finish"
  | pause        => "pause"
  | resume       => "resume"
  | error        => "error"
  | dataHello    => "data_hello"

def all : List Variant :=
  [hello, authResponse, authSuccess, testStart, testAck, interval, result, cancel, cancelled,
    finish, pause, resume, error, dataHello]

def ofName (name : String) : Option Variant :=
  all.find? (·.name = name)

theorem ofName_name {variant : Variant} : ofName variant.name = some variant := by
  cases variant <;> rfl

end Variant

namespace ControlMessage

def tag : String :=
  "type"

def value : ControlMessage F → Value F
  | .hello fields        => Messages.hello.tagged tag Variant.hello.name fields
  | .authResponse fields => Messages.authResponse.tagged tag Variant.authResponse.name fields
  | .authSuccess fields  => Messages.authSuccess.tagged tag Variant.authSuccess.name fields
  | .testStart fields    => Messages.testStart.tagged tag Variant.testStart.name fields
  | .testAck fields      => Messages.testAck.tagged tag Variant.testAck.name fields
  | .interval fields     => Messages.interval.tagged tag Variant.interval.name fields
  | .result fields       => Messages.testResult.tagged tag Variant.result.name fields
  | .cancel fields       => Messages.cancel.tagged tag Variant.cancel.name fields
  | .cancelled fields    => Messages.idOnly.tagged tag Variant.cancelled.name fields
  | .finish fields       => Messages.idOnly.tagged tag Variant.finish.name fields
  | .pause fields        => Messages.idOnly.tagged tag Variant.pause.name fields
  | .resume fields       => Messages.idOnly.tagged tag Variant.resume.name fields
  | .error fields        => Messages.error.tagged tag Variant.error.name fields
  | .dataHello fields    => Messages.dataHello.tagged tag Variant.dataHello.name fields

def ofEntries (entries : List (String × Value F)) : Variant → Option (ControlMessage F)
  | .hello        => (Messages.hello.read entries).map .hello
  | .authResponse => (Messages.authResponse.read entries).map .authResponse
  | .authSuccess  => (Messages.authSuccess.read entries).map .authSuccess
  | .testStart    => (Messages.testStart.read entries).map .testStart
  | .testAck      => (Messages.testAck.read entries).map .testAck
  | .interval     => (Messages.interval.read entries).map .interval
  | .result       => (Messages.testResult.read entries).map .result
  | .cancel       => (Messages.cancel.read entries).map .cancel
  | .cancelled    => (Messages.idOnly.read entries).map .cancelled
  | .finish       => (Messages.idOnly.read entries).map .finish
  | .pause        => (Messages.idOnly.read entries).map .pause
  | .resume       => (Messages.idOnly.read entries).map .resume
  | .error        => (Messages.error.read entries).map .error
  | .dataHello    => (Messages.dataHello.read entries).map .dataHello

def ofValue (value : Value F) : Option (ControlMessage F) := do
  let (name, entries) ← Serde.untag tag value
  ofEntries entries (← Variant.ofName name)

def floats : ControlMessage F → List F
  | .hello fields        => Messages.hello.floats fields
  | .authResponse fields => Messages.authResponse.floats fields
  | .authSuccess fields  => Messages.authSuccess.floats fields
  | .testStart fields    => Messages.testStart.floats fields
  | .testAck fields      => Messages.testAck.floats fields
  | .interval fields     => Messages.interval.floats fields
  | .result fields       => Messages.testResult.floats fields
  | .cancel fields       => Messages.cancel.floats fields
  | .cancelled fields    => Messages.idOnly.floats fields
  | .finish fields       => Messages.idOnly.floats fields
  | .pause fields        => Messages.idOnly.floats fields
  | .resume fields       => Messages.idOnly.floats fields
  | .error fields        => Messages.error.floats fields
  | .dataHello fields    => Messages.dataHello.floats fields

variable {σ : Type} {make : σ → ControlMessage F}

theorem ofValue_tagged {record : Record F σ σ} {variant : Variant} {s : σ} {m : ControlMessage F}
    (hk : (tag :: record.keys).Nodup) (hv : record.value s = s)
    (he : ∀ entries, ofEntries entries variant = (record.read entries).map make)
    (hm : make s = m) :
    ofValue (record.tagged tag variant.name s) = some m := by
  have ⟨ht, hk⟩ := List.nodup_cons.mp hk
  simp [ofValue, Record.untag_tagged ht, Variant.ofName_name, he, record.read_present hk, hv, hm]

theorem ofValue_value (m : ControlMessage F) : ofValue m.value = some m := by
  cases m
  case hello        => exact ofValue_tagged (by simp [tag, Messages.hello]) rfl (fun _ => rfl) rfl
  case authResponse =>
    exact ofValue_tagged (by simp [tag, Messages.authResponse]) rfl (fun _ => rfl) rfl
  case authSuccess  =>
    exact ofValue_tagged (by simp [tag, Messages.authSuccess]) rfl (fun _ => rfl) rfl
  case testStart    =>
    exact ofValue_tagged (by simp [tag, Messages.testStart]) rfl (fun _ => rfl) rfl
  case testAck      =>
    exact ofValue_tagged (by simp [tag, Messages.testAck]) rfl (fun _ => rfl) rfl
  case interval     =>
    exact ofValue_tagged (by simp [tag, Messages.interval]) rfl (fun _ => rfl) rfl
  case result       =>
    exact ofValue_tagged (by simp [tag, Messages.testResult]) rfl (fun _ => rfl) rfl
  case cancel       =>
    exact ofValue_tagged (by simp [tag, Messages.cancel]) rfl (fun _ => rfl) rfl
  case cancelled | finish | pause | resume =>
    exact ofValue_tagged (by simp [tag, Messages.idOnly]) rfl (fun _ => rfl) rfl
  case error        => exact ofValue_tagged (by simp [tag, Messages.error]) rfl (fun _ => rfl) rfl
  case dataHello    =>
    exact ofValue_tagged (by simp [tag, Messages.dataHello]) rfl (fun _ => rfl) rfl

theorem floats_value (m : ControlMessage F) : m.value.floats = m.floats := by
  cases m <;> exact Record.floats_tagged

-- A token and ports of its own for each stream exclude each other.
def bothAcked : ControlMessage F → Bool
  | .testAck fields => fields.udpToken.isSome && !fields.dataPorts.isEmpty
  | _               => false

inductive DeserializeError
  | json
  | invalid (message : String)
  deriving DecidableEq

def validate (m : ControlMessage F) : Except DeserializeError Unit :=
  if m.bothAcked then
    .error (.invalid "TestAck cannot contain both udp_token and data_ports")
  else
    .ok ()

variable [FloatText F]

def serialize (m : ControlMessage F) : Text :=
  m.value.text

-- The parser of JSON is a parameter.
def deserialize (parse : Text → Option (Value F)) (s : Text) :
    Except DeserializeError (ControlMessage F) := do
  let some m := (parse s).bind ofValue | throw .json
  m.validate
  return m

-- A parser which is right about a value if it can be written, that is, if its numbers are finite.
def ReadsBack (parse : Text → Option (Value F)) (value : Value F) : Prop :=
  (∀ x ∈ value.floats, FloatText.isFinite x = true) → parse value.text = some value

-- What is written reads the same, so that only its validation is left.
theorem deserialize_serialize {parse : Text → Option (Value F)} {m : ControlMessage F}
    (hp : ReadsBack parse m.value) (hf : ∀ x ∈ m.floats, FloatText.isFinite x = true) :
    deserialize parse m.serialize = m.validate.map fun _ => m := by
  have hr : parse m.value.text = some m.value := hp fun x hx => hf x (m.floats_value ▸ hx)
  have hm : (parse m.serialize).bind ofValue = some m := by
    rw [serialize, hr, Option.bind_some, ofValue_value]
  unfold deserialize
  rw [hm]
  change (do m.validate; return m) = _
  cases m.validate <;> rfl

-- A message comes back as it was, with what is absent and what is empty kept apart, unless its
-- fields exclude each other.
theorem control_codec {parse : Text → Option (Value F)} {m : ControlMessage F}
    (hp : ReadsBack parse m.value) (hf : ∀ x ∈ m.floats, FloatText.isFinite x = true) :
    (deserialize parse m.serialize = .ok m ↔ m.bothAcked = false) ∧ '\n' ∉ m.serialize := by
  refine ⟨?_, Serde.newline_not_mem_text⟩
  rw [deserialize_serialize hp hf, validate]
  cases m.bothAcked <;> simp [Except.map]

-- What callers do before they parse a line leaves it as it is.
theorem trim_serialize {m : ControlMessage F} : Utf8.trim m.serialize = m.serialize := by
  refine JsonText.trim_composite ?_
  cases m <;> exact Serde.text_mem_composites

end ControlMessage

-- Numbers with one decimal place.
structure Tenths where
  tenths : Int
  deriving DecidableEq

instance : IntCast Tenths where
  intCast n := ⟨10 * n⟩

instance : FloatText Tenths where
  isFinite _ := true
  number x := { Serde.integer (x.tenths.natAbs / 10) with
    negative := decide (x.tenths < 0)
    fraction := some (Serde.digits (x.tenths.natAbs % 10)) }

-- A parser which knows one line.
def parseLine (value : Value Tenths) (s : Text) : Option (Value Tenths) :=
  if s = value.text then some value else none

theorem readsBack_parseLine {value : Value Tenths} :
    ControlMessage.ReadsBack (parseLine value) value :=
  fun _ => if_pos rfl

def stalled : ControlMessage Tenths :=
  .interval
    { id        := "a\n"
      elapsedMs := 1000
      streams   := [
        { id := 0, bytes := 0, retransmits := none, jitterMs := some ⟨0⟩, lost := some 0,
          error := some "", rttUs := none, cwnd := none, bytesSent := none, bytesReceived := none,
          throughputSendMbps := none, throughputRecvMbps := none }]
      aggregate :=
        { bytes := 0, throughputMbps := ⟨-5⟩, retransmits := none, jitterMs := some ⟨125⟩,
          lost := none, udpProgress := some { packetsReceived := 0, packetsLost := 3 },
          rttUs := none, cwnd := none, bytesSent := none, bytesReceived := none,
          throughputSendMbps := none, throughputRecvMbps := none } }

theorem control_codec_interval :
    (ControlMessage.deserialize (parseLine stalled.value) stalled.serialize = .ok stalled ↔
      stalled.bothAcked = false) ∧ '\n' ∉ stalled.serialize :=
  ControlMessage.control_codec readsBack_parseLine fun _ _ => rfl

example : (ControlMessage.cancelled ⟨"a\n"⟩ : ControlMessage Tenths).serialize =
    "\x7b\"type\":\"cancelled\",\"id\":\"a\\n\"\x7d".toList := by
  decide

-- An acknowledgement with a token and a port is written, but it is not accepted.
def bothWays : ControlMessage Tenths :=
  .testAck { id := "a", dataPorts := [5202], udpToken := some "b" }

theorem acks_refused :
    ¬ ∀ (parse : Text → Option (Value Tenths)) (m : ControlMessage Tenths),
      ControlMessage.ReadsBack parse m.value →
      (∀ x ∈ m.floats, FloatText.isFinite x = true) →
      ControlMessage.deserialize parse m.serialize = .ok m ∧ '\n' ∉ m.serialize := by
  intro h
  have hr := (h (parseLine bothWays.value) bothWays readsBack_parseLine fun _ _ => rfl).left
  rw [ControlMessage.deserialize_serialize readsBack_parseLine fun _ _ => rfl] at hr
  contradiction

end Messages
