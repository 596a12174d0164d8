import MetricQuery.Number.Binary64
import MetricQuery.Text.Digit

/-!
# Durations

A duration is an amount of one unit of time; a compound duration is a list of them. Its canonical
order goes from years to milliseconds and keeps the order of durations of one unit.
-/

namespace MetricQuery

/-- The units of time, the longest first. -/
inductive TimeUnit where
  | years
  | weeks
  | days
  | hours
  | minutes
  | seconds
  | millis
deriving DecidableEq

namespace TimeUnit

/-- All units in canonical order. -/
def all : List TimeUnit := [years, weeks, days, hours, minutes, seconds, millis]

def suffix : TimeUnit → String
  | years => "y"
  | weeks => "w"
  | days => "d"
  | hours => "h"
  | minutes => "m"
  | seconds => "s"
  | millis => "ms"

def milliseconds : TimeUnit → Nat
  | years => 365 * 24 * 3600 * 1000
  | weeks => 7 * 24 * 3600 * 1000
  | days => 24 * 3600 * 1000
  | hours => 3600 * 1000
  | minutes => 60 * 1000
  | seconds => 1000
  | millis => 1

/-- The place of a unit in canonical order, from 0. -/
def rank : TimeUnit → Nat
  | years => 0
  | weeks => 1
  | days => 2
  | hours => 3
  | minutes => 4
  | seconds => 5
  | millis => 6

/-- The unit whose suffix is a given text. -/
def ofSuffix? (s : String) : Option TimeUnit := all.find? (·.suffix == s)

/-- The unit at the front of a text, and what follows. Of the two suffixes that begin with the same
letter the longer one is taken. -/
def read? : List Char → Option (TimeUnit × List Char)
  | 'm' :: 's' :: rest => some (millis, rest)
  | 's' :: rest => some (seconds, rest)
  | 'm' :: rest => some (minutes, rest)
  | 'h' :: rest => some (hours, rest)
  | 'd' :: rest => some (days, rest)
  | 'w' :: rest => some (weeks, rest)
  | 'y' :: rest => some (years, rest)
  | _ => none

end TimeUnit

structure Duration where
  amount : Nat
  unit : TimeUnit
deriving DecidableEq

namespace Duration

def milliseconds (d : Duration) : Nat := d.amount * d.unit.milliseconds

/-- The text of one duration: its amount and the suffix of its unit. -/
def text (d : Duration) : List Char := Digit.write d.amount ++ d.unit.suffix.toList

/-- Durations in canonical order. -/
def sort (ds : List Duration) : List Duration :=
  TimeUnit.all.flatMap fun u => ds.filter (·.unit = u)

/-- The canonical text of a compound duration. -/
def write (ds : List Duration) : String := String.ofList ((sort ds).flatMap text)

/-- The sum of the durations in milliseconds. -/
def totalMilliseconds (ds : List Duration) : Nat :=
  (ds.map milliseconds).foldr (· + ·) 0

/-- The total in seconds: the milliseconds as the nearest floating-point number, divided by a
thousand. There is none when the milliseconds are too many for such a number. -/
def totalSeconds? (ds : List Duration) : Option Binary64 :=
  (Binary64.ofInt? (totalMilliseconds ds)).map (·.divNat 1000)

end Duration
end MetricQuery
