import MetricQuery.Selector.Step

/-!
# Functions

A function takes a vector of one kind, and perhaps numbers or texts, to an instant vector. Its text
is the name with the arguments between parentheses; some functions have an argument before the
vector.
-/

namespace MetricQuery

/-- A function by its name, the kinds of its vector and of its result, and the number of arguments
that come before the vector. -/
structure Function where
  name : String
  source : VectorKind
  result : VectorKind := .instant
  leading : Nat := 0
deriving DecidableEq

namespace Function

def instantNames : List String :=
  ["abs", "absent", "ceil", "exp", "floor", "ln", "log2", "log10", "sgn", "scalar", "sort",
    "sort_desc", "timestamp", "day_of_month", "day_of_week", "days_in_month", "hour", "minute",
    "month", "year", "acos", "acosh", "asin", "asinh", "atan", "atanh", "cos", "cosh", "sin",
    "sinh", "tan", "tanh", "deg", "rad"]

def rangeNames : List String :=
  ["rate", "irate", "increase", "delta", "idelta", "deriv", "resets", "changes", "avg_over_time",
    "min_over_time", "max_over_time", "sum_over_time", "count_over_time", "stddev_over_time",
    "stdvar_over_time", "last_over_time", "present_over_time", "absent_over_time"]

/-- The functions of a vector alone. -/
def plain : List Function :=
  instantNames.map (fun name => { name, source := .instant }) ++
    rangeNames.map (fun name => { name, source := .range })

def round : Function := { name := "round", source := .instant }
def clamp : Function := { name := "clamp", source := .instant }
def clampMin : Function := { name := "clamp_min", source := .instant }
def clampMax : Function := { name := "clamp_max", source := .instant }
def labelReplace : Function := { name := "label_replace", source := .instant }
def labelJoin : Function := { name := "label_join", source := .instant }

def histogramQuantile : Function :=
  { name := "histogram_quantile", source := .instant, leading := 1 }

def quantileOverTime : Function := { name := "quantile_over_time", source := .range, leading := 1 }

def predictLinear : Function := { name := "predict_linear", source := .range }
def holtWinters : Function := { name := "holt_winters", source := .range }

def all : List Function :=
  plain ++ [round, clamp, clampMin, clampMax, labelReplace, labelJoin, histogramQuantile,
    quantileOverTime, predictLinear, holtWinters]

def find? (name : String) : Option Function := all.find? (·.name == name)

end Function

namespace Value

/-- The text of a value that is an instant vector. -/
def instantFor (operation : String) : Value → Except Error InstantVector
  | instant v => .ok v
  | other => .error (.wrongVector operation [.instant] other)

/-- The text of a value that is a vector of a given kind. -/
def vectorText (operation : String) : VectorKind → Value → Except Error String
  | .instant, instant v => .ok v.text
  | .range, range v => .ok v.text
  | kind, other => .error (.wrongVector operation [kind] other)

/-- A vector of a given kind. -/
def ofText : VectorKind → String → Value
  | .instant, s => instant { text := s }
  | .range, s => range ⟨s⟩

end Value

namespace Function

/-- The call of a function on a vector, with the texts of its other arguments. -/
def apply (f : Function) (vector : Value) (args : List String) : Except Error Value :=
  (vector.vectorText f.name f.source).map fun text =>
    .ofText f.result (f.name ++ "(" ++
      ", ".intercalate (args.take f.leading ++ text :: args.drop f.leading) ++ ")")

/-- A function with the arguments that it takes beside its vector. -/
inductive Call where
  | plain (f : Function)
  | round (toNearest : Option Value)
  | clamp (min max : Value)
  | clampMin (min : Value)
  | clampMax (max : Value)
  | histogramQuantile (quantile : Value)
  | quantileOverTime (quantile : Value)
  | predictLinear (seconds : Value)
  | holtWinters (smoothing trend : Value)
  | labelReplace (destination replacement source regex : String)
  | labelJoin (destination separator : String) (sources : List String)
  /-- A function by its name with texts that are written as they are. -/
  | raw (name : String) (args : List String)

namespace Call

/-- A call on a vector. The arguments beside the vector are checked first. -/
def apply (vector : Value) : Call → Except Error Value
  | plain f => f.apply vector []
  | round none => Function.round.apply vector []
  | round (some n) => do Function.round.apply vector [← n.numberText]
  | clamp min max => do Function.clamp.apply vector [← min.numberText, ← max.numberText]
  | clampMin min => do Function.clampMin.apply vector [← min.numberText]
  | clampMax max => do Function.clampMax.apply vector [← max.numberText]
  | histogramQuantile q => do Function.histogramQuantile.apply vector [← q.numberText]
  | quantileOverTime q => do Function.quantileOverTime.apply vector [← q.numberText]
  | predictLinear seconds => do Function.predictLinear.apply vector [← seconds.numberText]
  | holtWinters smoothing trend => do
    if !(← smoothing.isProperFraction) then throw .smoothingFactor
    if !(← trend.isProperFraction) then throw .smoothingFactor
    Function.holtWinters.apply vector [← smoothing.numberText, ← trend.numberText]
  | labelReplace destination replacement source regex =>
    if destination.isEmpty then throw (.emptyDestination Function.labelReplace.name)
    else Function.labelReplace.apply vector
      [quote destination, quote replacement, quote source, quote regex]
  | labelJoin destination separator sources =>
    if destination.isEmpty then throw (.emptyDestination Function.labelJoin.name)
    else if sources.isEmpty then throw .noSourceLabels
    else Function.labelJoin.apply vector (quote destination :: quote separator :: sources.map quote)
  | raw name args =>
    match Function.find? name with
    | some f => f.apply vector args
    | none => throw (.unknownFunction name)

end Call
end Function
end MetricQuery
