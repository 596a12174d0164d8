import MetricQuery.Duration.Reader
import MetricQuery.Value.Basic

/-!
# Errors

Why an operation refuses its arguments. `Error.message` is the text of an error and `Error.kind`
the class that callers tell it by.
-/

namespace MetricQuery

/-- The operators between two instant vectors that have a name of their own. -/
inductive ArithmeticOp where
  | add
  | sub
  | mul
  | div
  | mod
  | pow
deriving DecidableEq

namespace ArithmeticOp

/-- The operator in the query language. -/
def symbol : ArithmeticOp → String
  | add => "+"
  | sub => "-"
  | mul => "*"
  | div => "/"
  | mod => "%"
  | pow => "^"

/-- The operator as messages about operands call it. -/
def operatorName : ArithmeticOp → String
  | pow => "** or pow()"
  | other => other.symbol

end ArithmeticOp

/-- The classes of errors. The first six are those of building queries. -/
inductive ErrorKind where
  | metricName
  | timeSpecifier
  | timeDuration
  | vectorSelector
  | rangeQuery
  | functionArgument
  | wrongType
  | badValue
  | overflow
  | unknownName
  | missingAttribute
deriving DecidableEq

inductive Error where
  /-- A reserved word stands for a metric name. -/
  | reservedName (name : String)
  /-- A value cannot be looked up among the reserved words. -/
  | unhashable (given : Value)
  /-- Something else than a text stands where a text is put between quotes. -/
  | unquotable (given : Value)
  /-- A value names no point of time. -/
  | timeSpecifier (given : Value)
  /-- A value is no compound duration. -/
  | duration (given : Value) (fault : DurationFault)
  /-- The amount of a duration is not a natural number. -/
  | durationAmount (given : Value)
  /-- Neither a metric nor a matcher selects anything. -/
  | emptySelector
  /-- A query has an expression and a metric or matchers. -/
  | expressionWithSelector
  /-- A range query lacks some of its times. -/
  | incompleteRange (missing : List String)
  | smoothingFactor
  | emptyDestination (function : String)
  | noSourceLabels
  /-- The count of `topk` or `bottomk` is not a natural number. -/
  | aggregateCount (op : String) (given : Value)
  | quantileParameter (given : Value)
  /-- A group clause has no matching clause before it. -/
  | groupWithoutMatch (group : ClauseKind)
  /-- An operation got something else than a vector of the right kind. -/
  | wrongVector (operation : String) (expected : List VectorKind) (given : Value)
  | wrongGrouping (op : String) (given : Value)
  | operands (op : ArithmeticOp) (left right : Value)
  /-- A sequence is multiplied by something else than an integer. -/
  | repetition (times : Value)
  /-- Something else than a sequence of the same kind is added to a sequence. -/
  | concatenation (left right : Value)
  /-- A text without placeholders is filled in. -/
  | placeholders
  /-- A value cannot be compared with a number. -/
  | unordered (given : Value)
  | boolNumber
  /-- A value is neither a number nor a text. -/
  | notNumeric (given : Value)
  /-- An answer is neither a text, nor bytes, nor an object. -/
  | payload (kind : String)
  /-- Only the two kinds of builders exist. -/
  | closedBuilders (name : String)
  | notNumber (s : String)
  | overlongInteger (digits : Nat)
  /-- An integer has more digits than are written. -/
  | unwritableInteger
  | notFloatTimestamp (s : String)
  | infiniteTimestamp (s : String)
  | notRfc3339 (s : String)
  | utcOffset (zone : String)
  | rfc3339 (s : String) (fault : CalendarFault)
  | calendar (fault : CalendarFault)
  | dateRange
  /-- An integer is beyond all floating-point numbers. -/
  | largeInteger
  | unknownFunction (name : String)

namespace Error

def kind : Error → ErrorKind
  | reservedName _ => .metricName
  | timeSpecifier _ => .timeSpecifier
  | duration _ (.overlong _) => .badValue
  | duration _ _ => .timeDuration
  | durationAmount _ => .timeDuration
  | emptySelector => .vectorSelector
  | expressionWithSelector => .vectorSelector
  | incompleteRange _ => .rangeQuery
  | smoothingFactor => .functionArgument
  | emptyDestination _ => .functionArgument
  | noSourceLabels => .functionArgument
  | aggregateCount .. => .functionArgument
  | quantileParameter _ => .functionArgument
  | groupWithoutMatch _ => .functionArgument
  | wrongVector .. => .wrongType
  | wrongGrouping .. => .wrongType
  | operands .. => .wrongType
  | repetition _ => .wrongType
  | concatenation .. => .wrongType
  | placeholders => .wrongType
  | unordered _ => .wrongType
  | unhashable _ => .wrongType
  | unquotable (.moment _) => .wrongType
  | unquotable _ => .missingAttribute
  | boolNumber => .wrongType
  | notNumeric _ => .wrongType
  | payload _ => .wrongType
  | closedBuilders _ => .wrongType
  | notNumber _ => .badValue
  | overlongInteger _ => .badValue
  | unwritableInteger => .badValue
  | notFloatTimestamp _ => .badValue
  | infiniteTimestamp _ => .badValue
  | notRfc3339 _ => .badValue
  | utcOffset _ => .badValue
  | rfc3339 .. => .badValue
  | calendar _ => .badValue
  | dateRange => .overflow
  | largeInteger => .overflow
  | unknownFunction _ => .unknownName

/-- The text of the error on an integer of more digits than are read. -/
def overlongText (digits : Nat) : String :=
  "Exceeds the limit (" ++ toString Digit.limit ++
    " digits) for integer string conversion: value has " ++ toString digits ++
    " digits; use sys.set_int_max_str_digits() to increase the limit"

def durationText (given : Value) : DurationFault → String
  | .malformed => "invalid time duration: " ++ Display.value given
  | .repeated unit =>
    "duplicate unit " ++ Display.text unit.suffix ++ " in time duration: " ++ Display.value given
  | .overlong digits => overlongText digits

def message : Error → String
  | reservedName name =>
    "'" ++ name ++ "' is a reserved PromQL keyword and cannot be used as metric name"
  | unhashable given => "unhashable type: '" ++ given.qualifiedName ++ "'"
  -- Moments have an operation of the same name, which takes the parts of a date.
  | unquotable (.moment _) => "'str' object cannot be interpreted as an integer"
  | unquotable given => "'" ++ given.qualifiedName ++ "' object has no attribute 'replace'"
  | timeSpecifier given => "invalid time specifier: " ++ Display.value given
  | duration given fault => durationText given fault
  | durationAmount given =>
    "duration amount must be a non-negative integer: " ++ Display.value given
  | emptySelector => "a vector selector needs a metric name or at least one label matcher"
  | expressionWithSelector =>
    "a full expression cannot be combined with metric or label matchers"
  | incompleteRange missing => "range query is missing: " ++ ", ".intercalate missing
  | smoothingFactor =>
    "smoothing factors in holt_winters() must be between 0.0 (excl.) and 1.0 (excl.)"
  | emptyDestination function =>
    "destination label name in " ++ function ++ "() cannot be empty"
  | noSourceLabels => "list of source label names in label_join() cannot be empty"
  | aggregateCount op given =>
    "parameter of " ++ op ++ "() must be a non-negative integer, got " ++ Display.value given
  | quantileParameter given =>
    "parameter of quantile() must be a number, got " ++ Display.value given
  | groupWithoutMatch group =>
    group.keyword ++ " requires an on/ignoring vector matching clause"
  | wrongVector operation expected given =>
    operation ++ "() expects " ++ " or ".intercalate (expected.map VectorKind.name) ++ ", got " ++
      given.kindName
  | wrongGrouping op given =>
    op ++ "() grouping must be By or Without, got " ++ given.kindName
  | operands op left right =>
    "unsupported operand type(s) for " ++ op.operatorName ++ ": '" ++ left.qualifiedName ++
      "' and '" ++ right.qualifiedName ++ "'"
  | repetition times =>
    "can't multiply sequence by non-int of type '" ++ times.qualifiedName ++ "'"
  | concatenation left right =>
    "can only concatenate " ++ left.kindName ++ " (not \"" ++ right.qualifiedName ++ "\") to " ++
      left.kindName
  | placeholders => "not all arguments converted during string formatting"
  | unordered given =>
    "'<' not supported between instances of 'int' and '" ++ given.qualifiedName ++ "'"
  | boolNumber => "bool is not a PromQL number"
  | notNumeric given =>
    "float() argument must be a string or a real number, not '" ++ given.qualifiedName ++ "'"
  | payload kind => "unsupported response payload type: " ++ kind
  | closedBuilders name =>
    name ++ ": only InstantQueryBuilder and RangeQueryBuilder may extend _QueryBuilder"
  | notNumber s => "could not convert string to float: " ++ Display.text s
  | overlongInteger digits => overlongText digits
  | unwritableInteger =>
    "Exceeds the limit (" ++ toString Digit.limit ++ " digits) for integer string conversion; " ++
      "use sys.set_int_max_str_digits() to increase the limit"
  | notFloatTimestamp s => "not a float timestamp: " ++ Display.text s
  | infiniteTimestamp s => "timestamp out of range: " ++ Display.text s
  | notRfc3339 s => "not an RFC3339 timestamp: " ++ Display.text s
  | utcOffset zone => "invalid UTC offset: " ++ zone
  | rfc3339 s fault => "invalid RFC3339 timestamp " ++ Display.text s ++ ": " ++ fault.message
  | calendar fault => fault.message
  | dateRange => "date value out of range"
  | largeInteger => "int too large to convert to float"
  | unknownFunction name => name

end Error
end MetricQuery
