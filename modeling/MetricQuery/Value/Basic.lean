import MetricQuery.Calendar.Moment
import MetricQuery.Duration.Basic
import MetricQuery.Number.Shortest
import MetricQuery.Selector.Basic
import MetricQuery.Text.Display
import MetricQuery.Vector.Basic
import MetricQuery.Vector.Clause

/-!
# Values

What a caller may pass where a vector, a number, a time or a clause is expected. Operations refuse
the values of the wrong kind, and their messages name the kind or show the value.
-/

namespace MetricQuery

inductive Value where
  | null
  | bool (b : Bool)
  | int (n : Int)
  | float (x : Binary64)
  | text (s : String)
  | list (items : List Value)
  | record (fields : List (String × Value))
  | moment (m : Moment)
  | duration (d : Duration)
  | matcher (m : Matcher)
  | selector (s : Selector)
  | clause (c : Clause)
  | instant (v : InstantVector)
  | range (v : RangeVector)

namespace Value

/-- The name of a value's kind. -/
def kindName : Value → String
  | null => "NoneType"
  | bool _ => "bool"
  | int _ => "int"
  | float _ => "float"
  | text _ => "str"
  | list _ => "list"
  | record _ => "dict"
  | moment _ => "datetime"
  | duration _ => "Duration"
  | matcher _ => "LabelMatcher"
  | selector _ => "Selector"
  | clause c => c.kind.name
  | instant _ => VectorKind.instant.name
  | range _ => VectorKind.range.name

/-- The name of a value's kind with the module that it belongs to, where that is shown. -/
def qualifiedName : Value → String
  | moment _ => "datetime.datetime"
  | other => other.kindName

/-- Whether two values are equal parts of queries. Those of different kinds never are, and instant
vectors are compared by their texts. -/
def samePart : Value → Value → Bool
  | text s, text t => s == t
  | moment m, moment n => m == n
  | duration d, duration e => d == e
  | matcher m, matcher n => m == n
  | selector s, selector t => s == t
  | clause c, clause d => c == d
  | instant u, instant v => u.same v
  | range u, range v => u == v
  | _, _ => false

end Value

namespace Display

def bool (b : Bool) : String := if b then "True" else "False"

/-- A name with its arguments between parentheses. -/
def call (name : String) (args : List String) : String :=
  name ++ "(" ++ ", ".intercalate args ++ ")"

/-- A zone with a fixed offset. -/
def zone (offset : Int) : String :=
  if offset = 0 then "datetime.timezone.utc"
  else "datetime.timezone(" ++ CalendarFault.span offset ++ ")"

/-- An offset from UTC as a sign, hours and minutes, and seconds where there are some. -/
def offset (seconds : Int) : List Char :=
  let n := seconds.natAbs
  let rest := n % 60
  (if seconds < 0 then '-' else '+') :: Digit.writePadded 2 (n / 3600) ++
    ':' :: Digit.writePadded 2 (n / 60 % 60) ++
    if rest = 0 then [] else ':' :: Digit.writePadded 2 rest

/-- A moment as its date and its time, with microseconds where there are some. -/
def clock (m : Moment) : String :=
  let micros := m.nanos / 1000
  String.ofList (Digit.writePadded 4 m.date.year ++ '-' :: Digit.writePadded 2 m.date.month ++
    '-' :: Digit.writePadded 2 m.date.day ++ ' ' :: Digit.writePadded 2 m.hour ++
    ':' :: Digit.writePadded 2 m.minute ++ ':' :: Digit.writePadded 2 m.second ++
    (if micros = 0 then [] else '.' :: Digit.writePadded 6 micros) ++
    (m.offset.map offset).getD [])

/-- A moment by its parts; seconds and microseconds are left out when they are zero at the end. -/
def moment (m : Moment) : String :=
  let micros := m.nanos / 1000
  let parts := [m.date.year, m.date.month, m.date.day, m.hour, m.minute] ++
    (if m.second = 0 ∧ micros = 0 then [] else [m.second]) ++ (if micros = 0 then [] else [micros])
  call "datetime.datetime"
    (parts.map toString ++ (m.offset.map fun o => "tzinfo=" ++ zone o).toList)

def unitName : TimeUnit → String
  | .years => "YEARS"
  | .weeks => "WEEKS"
  | .days => "DAYS"
  | .hours => "HOURS"
  | .minutes => "MINUTES"
  | .seconds => "SECONDS"
  | .millis => "MILLISECONDS"

def duration (d : Duration) : String :=
  call "Duration" ["amount=" ++ toString d.amount,
    "unit=<DurationUnit." ++ unitName d.unit ++ ": " ++
      call "" [text d.unit.suffix, toString d.unit.milliseconds, toString d.unit.rank] ++ ">"]

def opName : MatchOp → String
  | .equal => "EQUAL"
  | .notEqual => "NOT_EQUAL"
  | .regexEqual => "REGEX_EQUAL"
  | .regexNotEqual => "REGEX_NOT_EQUAL"

def matcher (m : Matcher) : String :=
  call "LabelMatcher" ["name=" ++ text m.name, "value=" ++ text m.value,
    "op=<MatchOp." ++ opName m.op ++ ": " ++ text m.op.symbol ++ ">"]

def selector (s : Selector) : String :=
  let items := match s.matchers with
    | [m] => matcher m ++ ","
    | ms => ", ".intercalate (ms.map matcher)
  call "Selector" ["matchers=(" ++ items ++ ")"]

mutual

/-- A value as it is shown in a message. -/
def value : Value → String
  | .null => "None"
  | .bool b => bool b
  | .int n => toString n
  | .float x => NumberStyle.plain.write x
  | .text s => text s
  | .list items => list (values items)
  | .record fields => "\x7b" ++ ", ".intercalate (entries fields) ++ "\x7d"
  | .moment m => moment m
  | .duration d => duration d
  | .matcher m => matcher m
  | .selector s => selector s
  | .clause c => call c.kind.name [list (c.labels.map text)]
  | .instant v => call VectorKind.instant.name ["expr=" ++ text v.text]
  | .range v => call VectorKind.range.name ["expr=" ++ text v.text]

def values : List Value → List String
  | [] => []
  | v :: rest => value v :: values rest

def entries : List (String × Value) → List String
  | [] => []
  | (key, v) :: rest => (text key ++ ": " ++ value v) :: entries rest

end

/-- A value as it stands inside a longer text: a text or a part of a query as it is, anything else
as it is displayed. -/
def inside : Value → String
  | .text s => s
  | .moment m => clock m
  | .duration d => String.ofList d.text
  | .matcher m => m.text
  | .selector s => s.text
  | .clause c => c.text
  | .instant v => v.text
  | .range v => v.text
  | other => value other

end Display
end MetricQuery
