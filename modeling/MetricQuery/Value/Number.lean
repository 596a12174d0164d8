import MetricQuery.Error

/-!
# Values as numbers and times

`Value.numberText` writes a value as a number of the query language: integers exactly, other numbers
and texts through the nearest floating-point number. Durations and moments are made from parts that
are checked.
-/

namespace MetricQuery

/-- The floating-point number that a text writes, with digits of any script. -/
def readNumber (s : String) : Except Error Binary64 :=
  match Binary64.read Digit.value? s.toList with
  | some x => .ok x
  | none => .error (.notNumber s)

/-- The decimal text of an integer, unless it has more digits than are written. -/
def integerText (n : Int) : Except Error String :=
  if Digit.limit < Digit.count n.natAbs then .error .unwritableInteger else .ok (toString n)

/-- The canonical text of a compound duration, unless an amount has more digits than are written. -/
def Duration.format (ds : List Duration) : Except Error String :=
  if ds.all fun d => Digit.count d.amount ≤ Digit.limit then .ok (write ds)
  else .error .unwritableInteger

namespace Value

/-- The number literal for a value. -/
def numberText : Value → Except Error String
  | bool _ => .error .boolNumber
  | int n => integerText n
  | float x => .ok (NumberStyle.literal.write x)
  | text s => (readNumber s).map NumberStyle.literal.write
  | other => .error (.notNumeric other)

/-- Whether a value lies strictly between 0 and 1. No integer does. -/
def isProperFraction : Value → Except Error Bool
  | bool _ => .ok false
  | int _ => .ok false
  | float x => .ok x.isProperFraction
  | other => .error (.unordered other)

mutual

/-- Whether no integer in a value has more digits than are written. -/
def isWritable : Value → Bool
  | int n => Digit.count n.natAbs ≤ Digit.limit
  | duration d => Digit.count d.amount ≤ Digit.limit
  | list items => areWritable items
  | record fields => haveWritable fields
  | _ => true

def areWritable : List Value → Bool
  | [] => true
  | v :: rest => isWritable v && areWritable rest

def haveWritable : List (String × Value) → Bool
  | [] => true
  | (_, v) :: rest => isWritable v && haveWritable rest

end

/-- The error that shows a value, or that of an integer in it that is not written. -/
def showing (v : Value) (e : Value → Error) : Error :=
  if v.isWritable then e v else .unwritableInteger

/-- The text that a value puts into a longer text. -/
def insertedText (v : Value) : Except Error String :=
  if v.isWritable then .ok (Display.inside v) else .error .unwritableInteger

/-- The string literal for a value, which has to be a text. -/
def quoted : Value → Except Error String
  | text s => .ok (quote s)
  | other => .error (.unquotable other)

/-- A value as an amount of a unit of time. -/
def duration? (amount : Value) (unit : TimeUnit) : Except Error Duration :=
  match amount with
  | int (.ofNat n) => .ok ⟨n, unit⟩
  | other => .error (other.showing .durationAmount)

/-- A moment as a value, if its parts are sound. -/
def moment? (m : Moment) : Except Error Value :=
  match m.fault? with
  | some fault => .error (.calendar fault)
  | none => .ok (moment m)

/-- The durations that a value writes, in canonical order. -/
def durations : Value → Except Error (List Duration)
  | text s => (Duration.read s.toList).mapError (.duration (text s))
  | other => .error (other.showing (.duration · .malformed))

/-- The canonical text of the compound duration that a value writes. -/
def durationText (v : Value) : Except Error String := v.durations >>= Duration.format

end Value

/-- The total of a compound duration in seconds. -/
def totalSeconds (ds : List Duration) : Except Error Binary64 :=
  match Duration.totalSeconds? ds with
  | some x => .ok x
  | none => .error .largeInteger

end MetricQuery
