import Xfr.Library.Csv
import Xfr.Library.U64
import Xfr.Library.Utf8
import Xfr.Messages.Data

open Utf8 (Text)
open Csv (Plain)
open Messages (TestResult UdpStats)

namespace CsvOutput

-- Floating numbers and their texts, with as many decimals as they need or a fixed number of them, and
-- the text of a point in time.
structure FloatText (F : Type) where
  ofNat   : Nat → F
  div     : F → F → F
  mul     : F → F → F
  display : F → Text
  fixed   : Nat → F → Text
  secs    : Nat → F
  rfc3339 : Int → Text
  plain_display : ∀ x, Plain (display x)
  plain_fixed   : ∀ precision x, Plain (fixed precision x)
  plain_rfc3339 : ∀ time, Plain (rfc3339 time)

structure UdpDirectionProgress (F : Type) where
  progress : Messages.UdpIntervalProgress
  jitterMs : Option F

inductive TimestampFormat
  | relative
  | iso8601
  | unix

variable {F : Type} (f : FloatText F)

-- Times are in nanoseconds, from the start of the test or from the epoch.
def TimestampFormat.format (systemStart : Int) (elapsed : Nat) : TimestampFormat → Text
  | relative => f.fixed 3 (f.secs elapsed)
  | iso8601  => f.rfc3339 (systemStart + elapsed)
  | unix     => f.fixed 3 (f.secs (systemStart + elapsed).toNat)

def number (n : Nat) : Text :=
  Nat.toDigits 10 n

def optional {α : Type} (v : Option α) (text : α → Text) : Text :=
  v.elim [] text

def lostPercent (progress : Messages.UdpIntervalProgress) : Option F :=
  let denom := U64.saturatingAdd progress.packetsReceived.toNat progress.packetsLost.toNat
  if denom = 0 then none
  else some (f.mul (f.div (f.ofNat progress.packetsLost.toNat) (f.ofNat denom)) (f.ofNat 100))

def commas (columns : List Text) : Text :=
  [','].intercalate columns

def directionNames : List Text :=
  ["udp_send_packets_received".toList, "udp_send_packets_lost".toList,
    "udp_send_lost_percent".toList, "udp_send_jitter_ms".toList,
    "udp_recv_packets_received".toList, "udp_recv_packets_lost".toList,
    "udp_recv_lost_percent".toList, "udp_recv_jitter_ms".toList]

def udpDirectionColumns : Text :=
  commas directionNames

def directionColumns : Option (UdpDirectionProgress F) → Text
  | some measurement => commas [
      number measurement.progress.packetsReceived.toNat,
      number measurement.progress.packetsLost.toNat,
      optional (lostPercent f measurement.progress) (f.fixed 2),
      optional measurement.jitterMs (f.fixed 3)]
  | none => ",,,".toList

def finalDirectionColumns : Option (UdpStats F) → Text
  | some stats => commas [
      number stats.packetsReceived.toNat,
      number stats.lost.toNat,
      f.fixed 2 stats.lostPercent,
      f.fixed 2 stats.jitterMs]
  | none => ",,,".toList

def resultNames : List Text :=
  ["test_id".toList, "duration_secs".toList, "transfer_bytes".toList, "throughput_mbps".toList,
    "retransmits".toList, "jitter_ms".toList, "lost".toList, "lost_percent".toList,
    "bytes_sent".toList, "bytes_received".toList, "throughput_send_mbps".toList,
    "throughput_recv_mbps".toList]

def resultFigures (result : TestResult F) : List Text := [
  f.fixed 2 (f.div (f.ofNat result.durationMs.toNat) (f.ofNat 1000)),
  number result.bytesTotal.toNat,
  f.fixed 2 result.throughputMbps,
  number (result.tcpInfo.elim 0 (·.retransmits.toNat)),
  f.fixed 2 (result.udpStats.elim (f.ofNat 0) (·.jitterMs)),
  number (result.udpStats.elim 0 (·.lost.toNat)),
  f.fixed 2 (result.udpStats.elim (f.ofNat 0) (·.lostPercent)),
  optional result.bytesSent (number ·.toNat),
  optional result.bytesReceived (number ·.toNat),
  optional result.throughputSendMbps (f.fixed 2),
  optional result.throughputRecvMbps (f.fixed 2)]

def outputCsv (result : TestResult F) : Text :=
  commas (resultNames ++ [udpDirectionColumns]) ++ ['\n'] ++
    commas (result.id.toList :: resultFigures f result ++
      [finalDirectionColumns f result.udpStatsSend, finalDirectionColumns f result.udpStatsRecv]) ++
    ['\n']

-- What an interval was measured to be, with all but its time.
structure Interval (F : Type) where
  elapsedSecs        : F
  throughputMbps     : F
  bytes              : UInt64
  retransmits        : Option UInt64
  jitterMs           : Option F
  lost               : Option UInt64
  rttUs              : Option UInt32
  cwnd               : Option UInt32
  bytesSent          : Option UInt64
  bytesReceived      : Option UInt64
  throughputSendMbps : Option F
  throughputRecvMbps : Option F
  udpSend            : Option (UdpDirectionProgress F)
  udpRecv            : Option (UdpDirectionProgress F)

def intervalFigures (i : Interval F) : List Text := [
  f.fixed 2 i.elapsedSecs,
  number i.bytes.toNat,
  f.fixed 2 i.throughputMbps,
  number (i.retransmits.elim 0 (·.toNat)),
  f.display (i.jitterMs.getD (f.ofNat 0)),
  number (i.lost.elim 0 (·.toNat)),
  optional i.rttUs (number ·.toNat),
  optional i.cwnd (number ·.toNat),
  optional i.bytesSent (number ·.toNat),
  optional i.bytesReceived (number ·.toNat),
  optional i.throughputSendMbps (f.fixed 2),
  optional i.throughputRecvMbps (f.fixed 2)]

def outputIntervalCsvWithUdpDirections (timestamp : Text) (i : Interval F) : Text :=
  commas (timestamp :: intervalFigures f i ++
    [directionColumns f i.udpSend, directionColumns f i.udpRecv]) ++ ['\n']

def intervalNames : List Text :=
  ["timestamp".toList, "elapsed_secs".toList, "bytes".toList, "throughput_mbps".toList,
    "retransmits".toList, "jitter_ms".toList, "lost".toList, "rtt_us".toList, "cwnd".toList,
    "bytes_sent".toList, "bytes_received".toList, "throughput_send_mbps".toList,
    "throughput_recv_mbps".toList]

def csvIntervalHeader (_ : TimestampFormat) : Text :=
  commas (intervalNames ++ [udpDirectionColumns]) ++ ['\n']

variable {f : FloatText F}
variable {names columns more : List Text} {measurement : Option (UdpDirectionProgress F)}
variable {stats : Option (UdpStats F)} {text : Text} {n : Nat}

@[simp]
theorem commas_singleton : commas [text] = text := by
  simp [commas]

theorem commas_append (hc : columns ≠ []) (hm : more ≠ []) :
    commas (columns ++ more) = commas columns ++ ',' :: commas more := by
  have ⟨m, rest, hr⟩ := List.exists_cons_of_ne_nil hm
  induction columns
  case nil => exact absurd rfl hc
  case cons column columns hi =>
    cases columns
    case nil => simp [commas, hr, List.intercalate]
    case cons next columns =>
      have hl : commas (column :: next :: columns) = column ++ ',' :: commas (next :: columns) := by
        simp [commas, List.intercalate]
      have hs : commas (column :: (next :: columns ++ more)) =
          column ++ ',' :: commas (next :: columns ++ more) := by
        simp [commas, List.intercalate]
      rw [List.cons_append, hs, hi (by simp), hl, List.append_assoc, List.cons_append]

theorem plain_number : Plain (number n) := by
  intro c hc hs
  have hd : c.isDigit := Nat.isDigit_of_mem_toDigits (by decide) (by decide) hc
  have hn : ∀ c ∈ Csv.specials, ¬c.isDigit := by simp [Csv.specials]
  exact hn c hs hd

theorem plain_optional {α : Type} {v : Option α} {t : α → Text} (h : ∀ x, Plain (t x)) :
    Plain (optional v t) := by
  cases v
  case none   => exact nofun
  case some x => exact h x

theorem plain_fixed {precision : Nat} {x : F} : Plain (f.fixed precision x) :=
  f.plain_fixed precision x

theorem plain_format {systemStart : Int} {elapsed : Nat} (format : TimestampFormat) :
    Plain (format.format f systemStart elapsed) := by
  cases format
  case relative => exact plain_fixed
  case iso8601  => exact f.plain_rfc3339 _
  case unix     => exact plain_fixed

-- The four fields of a direction, measured or not.
structure IsDirection (text : Text) (fields : List Text) : Prop where
  text_eq : text = commas fields
  length  : fields.length = 4
  plain   : ∀ field ∈ fields, Plain field

theorem directionColumns_eq : ∃ fields, IsDirection (directionColumns f measurement) fields := by
  cases measurement
  case none => exact ⟨[[], [], [], []], rfl, rfl, by decide⟩
  case some m =>
    refine ⟨_, rfl, rfl, ?_⟩
    simp only [List.forall_mem_cons]
    exact ⟨plain_number, plain_number, plain_optional fun _ => plain_fixed,
      plain_optional fun _ => plain_fixed, nofun⟩

theorem finalDirectionColumns_eq : ∃ fields, IsDirection (finalDirectionColumns f stats) fields := by
  cases stats
  case none => exact ⟨[[], [], [], []], rfl, rfl, by decide⟩
  case some s =>
    refine ⟨_, rfl, rfl, ?_⟩
    simp only [List.forall_mem_cons]
    exact ⟨plain_number, plain_number, plain_fixed, plain_fixed, nofun⟩

theorem names_plain : ∀ name ∈ resultNames ++ intervalNames ++ directionNames, Plain name := by
  decide +kernel

-- A line of columns, the last of which are those of the two directions.
theorem commas_directions {text' : Text} {fields fields' : List Text} (hc : columns ≠ [])
    (h : IsDirection text fields) (h' : IsDirection text' fields') :
    commas (columns ++ [text, text']) = commas (columns ++ (fields ++ fields')) := by
  have hn : fields ≠ [] := List.ne_nil_of_length_pos (by rw [h.length]; decide)
  have hn' : fields' ≠ [] := List.ne_nil_of_length_pos (by rw [h'.length]; decide)
  have ht : commas [text, text'] = commas (fields ++ fields') := by
    rw [commas_append hn hn', ← h.text_eq, ← h'.text_eq]
    simpa using @commas_append [text] [text'] (by simp) (by simp)
  rw [commas_append hc (by simp), commas_append hc (by simp [hn]), ht]

-- A header names as many columns as a row has.
structure IsLine (text : Text) (fields : List Text) : Prop where
  text_eq : text = Csv.line fields
  plain   : ∀ field ∈ fields, Plain field
  ne_nil  : fields ≠ []

theorem isLine_header (hn : names ≠ []) (h : ∀ name ∈ names, Plain name) :
    IsLine (commas (names ++ [udpDirectionColumns]) ++ ['\n']) (names ++ directionNames) where
  text_eq := by
    have hd : directionNames ≠ [] := by decide
    have hc : commas (names ++ [udpDirectionColumns]) = commas (names ++ directionNames) := by
      rw [commas_append hn (by simp), commas_append hn hd, commas_singleton]
      rfl
    exact congrArg (· ++ ['\n']) hc
  plain := by
    intro name hn
    cases List.mem_append.mp hn
    case inl hn => exact h name hn
    case inr hn => exact names_plain name (by simp [hn])
  ne_nil := by simp [hn]

theorem isLine_directions {text' : Text} {fields fields' : List Text} (hc : columns ≠ [])
    (hp : ∀ column ∈ columns, Plain column) (h : IsDirection text fields)
    (h' : IsDirection text' fields') :
    IsLine (commas (columns ++ [text, text']) ++ ['\n']) (columns ++ (fields ++ fields')) where
  text_eq := congrArg (· ++ ['\n']) (commas_directions hc h h')
  plain column hm := by
    simp only [List.mem_append] at hm
    exact hm.elim (hp column) fun hm => hm.elim (h.plain column) (h'.plain column)
  ne_nil := by simp [hc]

theorem plain_intervalFigures {i : Interval F} : ∀ figure ∈ intervalFigures f i, Plain figure := by
  simp only [intervalFigures, List.forall_mem_cons]
  exact ⟨plain_fixed, plain_number, plain_fixed, plain_number, f.plain_display _, plain_number,
    plain_optional fun _ => plain_number, plain_optional fun _ => plain_number,
    plain_optional fun _ => plain_number, plain_optional fun _ => plain_number,
    plain_optional fun _ => plain_fixed, plain_optional fun _ => plain_fixed, nofun⟩

theorem plain_resultFigures {result : TestResult F} :
    ∀ figure ∈ resultFigures f result, Plain figure := by
  simp only [resultFigures, List.forall_mem_cons]
  exact ⟨plain_fixed, plain_number, plain_fixed, plain_number, plain_fixed, plain_number, plain_fixed,
    plain_optional fun _ => plain_number, plain_optional fun _ => plain_number,
    plain_optional fun _ => plain_fixed, plain_optional fun _ => plain_fixed, nofun⟩

theorem isLine_interval {timestamp : Text} {i : Interval F} (ht : Plain timestamp) : ∃ fields,
    IsLine (outputIntervalCsvWithUdpDirections f timestamp i) fields ∧ fields.length = 21 := by
  have ⟨send, hs⟩ := @directionColumns_eq F f i.udpSend
  have ⟨recv, hr⟩ := @directionColumns_eq F f i.udpRecv
  have hp : ∀ column ∈ timestamp :: intervalFigures f i, Plain column :=
    List.forall_mem_cons.mpr ⟨ht, plain_intervalFigures⟩
  refine ⟨_, isLine_directions (by simp) hp hs hr, ?_⟩
  simp [hs.length, hr.length, intervalFigures]

-- The row of a result, of which only the id is text of somebody else.
theorem outputCsv_eq {result : TestResult F} : ∃ more, (∀ field ∈ more, Plain field) ∧
    more.length = 19 ∧ outputCsv f result =
      Csv.line (resultNames ++ directionNames) ++ Csv.line (result.id.toList :: more) := by
  have ⟨send, hs⟩ := @finalDirectionColumns_eq F f result.udpStatsSend
  have ⟨recv, hr⟩ := @finalDirectionColumns_eq F f result.udpStatsRecv
  have hn : ∀ name ∈ resultNames, Plain name := fun name hn => names_plain name (by simp [hn])
  have hh := (isLine_header (by decide) hn).text_eq
  refine ⟨resultFigures f result ++ (send ++ recv), ?_, ?_, ?_⟩
  case refine_1 =>
    intro field hf
    simp only [List.mem_append] at hf
    exact hf.elim (plain_resultFigures field) fun hf => hf.elim (hs.plain field) (hr.plain field)
  case refine_2 => simp [hs.length, hr.length, resultFigures]
  case refine_3 =>
    rw [outputCsv, hh, commas_directions (by simp) hs hr, List.append_assoc]
    rfl

def ResultShape (id text : Text) : Prop :=
  ∃ header row, Csv.read text = some [header, row] ∧ row.length = header.length ∧ row.head? = some id

def IntervalShape (header row : Text) : Prop :=
  ∃ names values, Csv.read (header ++ row) = some [names, values] ∧ values.length = names.length

theorem intervalShape {format format' : TimestampFormat} {systemStart : Int} {elapsed : Nat}
    {i : Interval F} : IntervalShape (csvIntervalHeader format)
      (outputIntervalCsvWithUdpDirections f (format'.format f systemStart elapsed) i) := by
  have hn : ∀ name ∈ intervalNames, Plain name := fun name hn => names_plain name (by simp [hn])
  have hh := isLine_header (by decide) hn
  have ht : Plain (format'.format f systemStart elapsed) := plain_format format'
  have ⟨values, hv, hl⟩ := isLine_interval (f := f) (i := i) ht
  refine ⟨intervalNames ++ directionNames, values, ?_, hl.trans (by decide)⟩
  have hr := @Csv.read_lines [intervalNames ++ directionNames, values]
    (by simp [hh.ne_nil, hv.ne_nil]) (List.forall_mem_cons.mpr ⟨hh.plain, by simpa using hv.plain⟩)
  rw [csvIntervalHeader, hh.text_eq, hv.text_eq]
  simpa using hr

theorem resultShape_iff {result : TestResult F} :
    ResultShape result.id.toList (outputCsv f result) ↔ Plain result.id.toList := by
  have ⟨more, hp, hl, ho⟩ := @outputCsv_eq F f result
  have hn : ∀ name ∈ resultNames, Plain name := fun name hn => names_plain name (by simp [hn])
  have hh := isLine_header (by decide) hn
  constructor
  case mp =>
    intro ⟨header, row, hr, _, hi⟩
    have ⟨next, rest, hm⟩ := List.exists_cons_of_length_eq_add_one hl
    have hc : Csv.line (result.id.toList :: more) = result.id.toList ++ ',' :: Csv.line more := by
      simp [Csv.line, hm, List.intercalate]
    rw [ho, hc] at hr
    exact Csv.plain_of_read hh.ne_nil hh.plain hr hi
  case mpr =>
    intro hi
    have hr := @Csv.read_lines [resultNames ++ directionNames, result.id.toList :: more]
      (by simp [hh.ne_nil]) (List.forall_mem_cons.mpr ⟨hh.plain, by simpa using ⟨hi, hp⟩⟩)
    exact ⟨_, _, by simpa [ho] using hr, by simp [hl, resultNames, directionNames], rfl⟩

-- The rows of intervals are right whatever was measured. The one of a result is right exactly when its
-- id needs no quotes, since it is never quoted.
theorem csv_shape_iff (f : FloatText F) (result : TestResult F) (i : Interval F)
    (format : TimestampFormat) (systemStart : Int) (elapsed : Nat) :
    (ResultShape result.id.toList (outputCsv f result) ∧
      IntervalShape (csvIntervalHeader format)
        (outputIntervalCsvWithUdpDirections f (format.format f systemStart elapsed) i)) ↔
    Plain result.id.toList :=
  ⟨fun h => resultShape_iff.mp h.left, fun h => ⟨resultShape_iff.mpr h, intervalShape⟩⟩

-- Whole numbers are enough for the figures of an empty result.
theorem plain_epoch : Plain "1970-01-01T00:00:00.000Z".toList := by
  decide +kernel

def wholeNumbers : FloatText Nat where
  ofNat n := n
  div     := (· / ·)
  mul     := (· * ·)
  display := number
  fixed precision x := number x ++ '.' :: List.replicate precision '0'
  secs elapsed      := elapsed / 10 ^ 9
  rfc3339 _         := "1970-01-01T00:00:00.000Z".toList
  plain_display _ := plain_number
  plain_fixed precision x := by
    refine plain_number.append fun c hc => ?_
    have hs : c = '.' ∨ c = '0' := by
      simpa using (List.mem_cons.mp hc).imp_right List.eq_of_mem_replicate
    cases hs <;> simp_all [Csv.specials]
  plain_rfc3339 _ := plain_epoch

example : outputIntervalCsvWithUdpDirections wholeNumbers "1.000".toList
    ⟨1, 8, 1024, none, none, none, none, none, none, none, none, none, none, none⟩ =
      "1.000,1.00,1024,8.00,0,0,0,,,,,,,,,,,,,,\n".toList := by
  decide +kernel

def emptyResult (id : String) : TestResult Nat where
  id                  := id
  bytesTotal          := 0
  durationMs          := 0
  throughputMbps      := 0
  streams             := []
  tcpInfo             := none
  udpStats            := none
  udpStatsSend        := none
  udpStatsRecv        := none
  bytesSent           := none
  bytesReceived       := none
  throughputSendMbps  := none
  throughputRecvMbps  := none
  mtuProbe            := none
  serverUdpSendErrors := none
  clientUdpSendErrors := none
  zeroByteStreams     := none

theorem comma_in_id_moves_columns :
    ¬ResultShape "a,b".toList (outputCsv wholeNumbers (emptyResult "a,b")) :=
  resultShape_iff.not.mpr (by decide)

end CsvOutput
