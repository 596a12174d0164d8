import MetricQuery.Calendar.Moment
import MetricQuery.Number.Power

/-!
# RFC 3339 texts

A date, a time and a zone: `2021-04-20T14:33:32.5+02:00`. Digits may be of any script, the
separator is `T`, `t` or a space, a fraction has one to nine digits, and the zone is `Z`, `z` or a
signed offset in hours and minutes. The reader checks the shape alone.
-/

namespace MetricQuery

/-- The zone at the end of a text. An offset keeps its characters for messages. -/
inductive Zone where
  | utc
  | offset (negative : Bool) (hours minutes : Nat) (written : List Char)
deriving DecidableEq

/-- The offset from UTC in seconds. -/
def Zone.seconds : Zone → Int
  | .utc => 0
  | .offset negative hours minutes _ =>
    let n : Int := (hours * 60 + minutes) * 60
    if negative then -n else n

/-- The characters of an offset that has 60 minutes or more beside its hours. -/
def Zone.badMinutes? : Zone → Option (List Char)
  | .utc => none
  | .offset _ _ minutes written => if 60 ≤ minutes then some written else none

namespace Rfc3339

/-- A number of exactly `width` digits at the front of a text, and what follows. -/
def number (width : Nat) (cs : List Char) : Option (Nat × List Char) :=
  ((cs.take width).mapM Digit.value?).bind fun values =>
    if values.length = width then some (Digit.number values, cs.drop width) else none

/-- What follows one of the given characters. -/
def mark (allowed : List Char) : List Char → Option (List Char)
  | c :: rest => if allowed.contains c then some rest else none
  | [] => none

/-- The nanoseconds of an optional fraction, and what follows. -/
def fraction : List Char → Option (Nat × List Char)
  | '.' :: cs =>
    let (values, rest) := Digit.span Digit.value? cs
    if 1 ≤ values.length ∧ values.length ≤ 9 then
      some (Digit.number values * tenTo (9 - values.length), rest)
    else none
  | cs => some (0, cs)

/-- The zone, which ends the text. -/
def zone : List Char → Option Zone
  | ['Z'] => some .utc
  | ['z'] => some .utc
  | sign :: cs => do
    let rest ← mark ['+', '-'] (sign :: cs)
    let (hours, rest) ← number 2 rest
    let rest ← mark [':'] rest
    let (minutes, rest) ← number 2 rest
    if rest.isEmpty then some (.offset (sign == '-') hours minutes (sign :: cs)) else none
  | [] => none

/-- The parts of a text of the right shape. -/
def read (cs : List Char) : Option (Moment × Zone) := do
  let (year, cs) ← number 4 cs
  let cs ← mark ['-'] cs
  let (month, cs) ← number 2 cs
  let cs ← mark ['-'] cs
  let (day, cs) ← number 2 cs
  let cs ← mark ['T', 't', ' '] cs
  let (hour, cs) ← number 2 cs
  let cs ← mark [':'] cs
  let (minute, cs) ← number 2 cs
  let cs ← mark [':'] cs
  let (second, cs) ← number 2 cs
  let (nanos, cs) ← fraction cs
  let zone ← zone cs
  return (⟨⟨year, month, day⟩, hour, minute, second, nanos, some zone.seconds⟩, zone)

end Rfc3339
end MetricQuery
