import MetricQuery.Response.ServerError
import MetricQuery.Schema.Library

/-!
# Decoding answers

The strict schema of answers: every record is closed, every field has a type, and the kind of the
result decides the shape of the result. The schema is written for any validation library;
`Response.readBy` takes an answer in any of the forms in which it may arrive.
-/

namespace MetricQuery

open Schema

section Schemas

variable (V : Validator)

def Sample.decode : Decoder Sample := fun v => (fun p => ⟨p.1, p.2⟩) <$> V.pair V.float V.text v

def LabeledSample.declared : Declared (Labels × Sample × Unit) :=
  .required "metric" V.labels (.required "value" (Sample.decode V) .none)

def LabeledSample.decode : Decoder LabeledSample :=
  fun v => (fun p => ⟨p.1, p.2.1⟩) <$> V.record (declared V) v

def Series.declared : Declared (Labels × List Sample × Unit) :=
  .required "metric" V.labels (.required "values" (V.list (Sample.decode V)) .none)

def Series.decode : Decoder Series :=
  fun v => (fun p => ⟨p.1, p.2.1⟩) <$> V.record (declared V) v

def Timings.declared :
    Declared (Binary64 × Binary64 × Binary64 × Binary64 × Binary64 × Binary64 × Unit) :=
  .required "evalTotalTime" V.float (.required "resultSortTime" V.float
    (.required "queryPreparationTime" V.float (.required "innerEvalTime" V.float
      (.required "execQueueTime" V.float (.required "execTotalTime" V.float .none)))))

def Timings.decode : Decoder Timings :=
  fun v => (fun p => ⟨p.1, p.2.1, p.2.2.1, p.2.2.2.1, p.2.2.2.2.1, p.2.2.2.2.2.1⟩) <$>
    V.record (declared V) v

def SampleCounts.declared : Declared (Option (List (Binary64 × Int)) × Int × Int × Unit) :=
  .nullable "totalQueryableSamplesPerStep" (V.list (V.pair V.float V.integer))
    (.required "totalQueryableSamples" V.integer (.required "peakSamples" V.integer .none))

def SampleCounts.decode : Decoder SampleCounts :=
  fun v => (fun p => ⟨p.1, p.2.1, p.2.2.1⟩) <$> V.record (declared V) v

def Stats.declared : Declared (Timings × SampleCounts × Unit) :=
  .required "timings" (Timings.decode V) (.required "samples" (SampleCounts.decode V) .none)

def Stats.decode : Decoder Stats :=
  fun v => (fun p => ⟨p.1, p.2.1⟩) <$> V.record (declared V) v

/-- The decoder of the results of a kind, by the name of the kind. -/
def Result.decoder? : String → Option (Decoder Result)
  | "vector" => some fun v => .vector <$> V.list (LabeledSample.decode V) v
  | "matrix" => some fun v => .matrix <$> V.list (Series.decode V) v
  | "scalar" => some fun v => .scalar <$> Sample.decode V v
  | "string" => some fun v => .string <$> Sample.decode V v
  | _ => none

def Data.declared (kind : String) (decodeResult : Decoder Result) :
    Declared (Unit × Result × Option Stats × Unit) :=
  .required "resultType" (V.member fun name => if name = kind then some () else none)
    (.required "result" decodeResult (.nullable "stats" (Stats.decode V) .none))

/-- The data with a result of a kind. -/
def Data.decodeAs (kind : String) (decodeResult : Decoder Result) : Decoder Data :=
  fun v => (fun p => ⟨p.2.1, p.2.2.1⟩) <$> V.record (declared V kind decodeResult) v

/-- A result and its statistics. Problems inside are reported under the name of the kind. -/
def Data.decode : Decoder Data :=
  V.tagged "resultType" fun kind => (Result.decoder? V kind).map (decodeAs V kind)

def Status.decode : Decoder Status := V.member Status.ofName?

def Response.declared : Declared (Status × Option Data × Option String × Option String ×
    Option (List String) × Option (List String) × Unit) :=
  .required "status" (Status.decode V) (.nullable "data" (Data.decode V)
    (.nullable "errorType" V.text (.nullable "error" V.text
      (.nullable "warnings" (V.list V.text) (.nullable "infos" (V.list V.text) .none)))))

/-- A whole answer. -/
def Response.decode : Decoder Response :=
  fun v => (fun p => ⟨p.1, p.2.1, p.2.2.1, p.2.2.2.1, p.2.2.2.2.1, p.2.2.2.2.2.1⟩) <$>
    V.record (declared V) v

end Schemas

namespace Response

/-! ### Payloads -/

/-- An answer in one of the forms in which it may arrive. -/
inductive Payload where
  | text (s : String)
  | bytes (b : ByteArray)
  | value (v : Json)

/-- Why a payload is no answer. -/
inductive Refusal where
  | problems (ps : List Problem)
  /-- The payload has none of the forms of an answer. -/
  | unsupported (e : Error)

/-- The name of the kind of a value that is no answer. -/
def kindName : Json → String
  | .null => Value.null.kindName
  | .bool b => (Value.bool b).kindName
  | .int n => (Value.int n).kindName
  | .float x => (Value.float x).kindName
  | .text s => (Value.text s).kindName
  | .list _ => (Value.list []).kindName
  | .record _ => (Value.record []).kindName

/-- The answer that a text writes, as a library decodes it. -/
def ofTextBy (L : Library) (s : String) : Checked Response :=
  match L.read s with
  | .ok v => decode (L.validator .text) v
  | .error _ => .problem .notJson

/-- The answer that bytes write in UTF-8. -/
def ofBytesBy (L : Library) (bytes : ByteArray) : Checked Response :=
  match String.fromUTF8? bytes with
  | some s => ofTextBy L s
  | none => .problem .notJson

/-- The answer of a payload. A value that is a text is read like a text. -/
def readBy (L : Library) : Payload → Except Refusal Response
  | .text s => (ofTextBy L s).toExcept.mapError .problems
  | .bytes b => (ofBytesBy L b).toExcept.mapError .problems
  | .value (.record fields) =>
    (decode (L.validator .value) (.record fields)).toExcept.mapError .problems
  | .value (.text s) => (ofTextBy L s).toExcept.mapError .problems
  | .value other => .error (.unsupported (.payload (kindName other)))

def ofBytes (bytes : ByteArray) : Checked Response := ofBytesBy .standard bytes

def read (p : Payload) : Except Refusal Response := readBy .standard p

end Response
end MetricQuery
