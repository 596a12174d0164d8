import MetricQuery.Keyed
import MetricQuery.Value.Number

/-!
# Answers of the query server

An answer has a status, perhaps a result of one of four kinds with statistics, and perhaps an error
with warnings and remarks. Sample values stay the texts that the server wrote, because a number
would lose digits.
-/

namespace MetricQuery

/-- A time and the text of a value. -/
structure Sample where
  time : Binary64
  value : String
deriving DecidableEq

/-- The value of a sample as a number. -/
def Sample.number (s : Sample) : Except Error Binary64 := readNumber s.value

structure LabeledSample where
  metric : Labels
  sample : Sample
deriving DecidableEq

structure Series where
  metric : Labels
  samples : List Sample
deriving DecidableEq

/-- The samples of a series as numbers, up to the first that is none. -/
def Series.numbers (s : Series) : Except Error (List (Binary64 × Binary64)) :=
  s.samples.mapM fun sample => sample.number.map (sample.time, ·)

/-- The times that the parts of a query took, in seconds. -/
structure Timings where
  evalTotal : Binary64
  resultSort : Binary64
  queryPreparation : Binary64
  innerEval : Binary64
  execQueue : Binary64
  execTotal : Binary64
deriving DecidableEq

/-- How many samples a query looked at, in total and perhaps at each step. -/
structure SampleCounts where
  perStep : Option (List (Binary64 × Int))
  total : Int
  peak : Int
deriving DecidableEq

structure Stats where
  timings : Timings
  samples : SampleCounts
deriving DecidableEq

inductive Result where
  | vector (samples : List LabeledSample)
  | matrix (series : List Series)
  | scalar (s : Sample)
  | string (s : Sample)
deriving DecidableEq

namespace Result

/-- The name of the kind of a result. -/
def typeName : Result → String
  | vector _ => "vector"
  | matrix _ => "matrix"
  | scalar _ => "scalar"
  | string _ => "string"

/-- How many samples or series a result has. -/
def size : Result → Nat
  | vector samples => samples.length
  | matrix series => series.length
  | scalar _ => 1
  | string _ => 1

def vector? : Result → Option (List LabeledSample)
  | vector samples => some samples
  | _ => none

def matrix? : Result → Option (List Series)
  | matrix series => some series
  | _ => none

def scalar? : Result → Option Sample
  | scalar s => some s
  | _ => none

def string? : Result → Option Sample
  | string s => some s
  | _ => none

end Result

structure Data where
  result : Result
  stats : Option Stats
deriving DecidableEq

inductive Status where
  | success
  | error
deriving DecidableEq

namespace Status

def all : List Status := [success, error]

def name : Status → String
  | success => "success"
  | error => "error"

def ofName? (s : String) : Option Status := all.find? (·.name == s)

end Status

structure Response where
  status : Status
  data : Option Data
  errorType : Option String
  error : Option String
  warnings : Option (List String)
  infos : Option (List String)
deriving DecidableEq

end MetricQuery
