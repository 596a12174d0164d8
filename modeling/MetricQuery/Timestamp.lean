import MetricQuery.Calendar.Rfc3339
import MetricQuery.Value.Number

/-!
# Timestamps

A point of time has one canonical text, whether it is given in seconds, as an RFC 3339 text or as a
moment. A text is tried as a number of seconds first.
-/

namespace MetricQuery
namespace Timestamp

/-- The canonical text of a number of seconds written in decimal. One line feed may end it. -/
def ofDecimal (s : String) : Except Error String :=
  match Decimal.read Digit.value? (chompNewline s.toList) with
  | none => .error (.notFloatTimestamp s)
  | some (negative, d) =>
    let x := Binary64.ofDecimal negative d
    if x.isFinite then .ok (NumberStyle.literal.write x) else .error (.infiniteTimestamp s)

/-- The canonical text of an RFC 3339 text. One line feed may end it. -/
def ofRfc3339 (s : String) : Except Error String :=
  match Rfc3339.read (chompNewline s.toList) with
  | none => .error (.notRfc3339 s)
  | some (moment, zone) =>
    match zone.badMinutes? with
    | some written => .error (.utcOffset (String.ofList written))
    | none =>
      match moment.toInstant with
      | .ok instant => .ok (String.ofList instant.text)
      | .error fault => .error (.rfc3339 s fault)

/-- The canonical text of a moment whose parts are sound. -/
def ofMoment (m : Moment) : Except Error String :=
  match m.shift with
  | .ok instant => .ok (String.ofList instant.text)
  | .error _ => .error .dateRange

/-- The canonical text of a text in either form, without the blanks around it. -/
def ofText (s : String) : Except Error String :=
  let inner := String.ofList (trim isMargin s.toList)
  match ofDecimal inner with
  | .ok seconds => .ok seconds
  | .error _ => (ofRfc3339 inner).mapError fun _ => .timeSpecifier (.text s)

/-- The canonical text of a value. Integers are kept exactly, but have to be within the range of
the floating-point numbers. -/
def ofValue : Value → Except Error String
  | .moment m => ofMoment m
  | .int n => if (Binary64.ofInt? n).isSome then .ok (toString n) else .error .largeInteger
  | .float x =>
    if x.isFinite then .ok (NumberStyle.literal.write x) else .error (.timeSpecifier (.float x))
  | .text s => ofText s
  | other => .error (other.showing .timeSpecifier)

end Timestamp
end MetricQuery
