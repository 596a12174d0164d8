/-!
# Civil dates

Dates of the proleptic Gregorian calendar and their day numbers, counted from 1 January of year 1,
which is day 0. `Date.dayNumber` and `Date.ofDayNumber` lead from one to the other.
-/

namespace MetricQuery

/-- A year, a month and a day as they are written; `Date.Valid` says which triples are dates. -/
structure Date where
  year : Nat
  month : Nat
  day : Nat
deriving DecidableEq

namespace Date

def isLeap (year : Nat) : Bool := year % 4 == 0 && (year % 100 != 0 || year % 400 == 0)

/-- The lengths of the months of a year, January first. -/
def monthLengths (year : Nat) : List Nat :=
  [31, if isLeap year then 29 else 28, 31, 30, 31, 30, 31, 31, 30, 31, 30, 31]

/-- The number of days in a month, or zero when there is no such month. -/
def daysInMonth (year month : Nat) : Nat := ((0 :: monthLengths year)[month]?).getD 0

/-- The dates of the years 1 to 9999. -/
def Valid (d : Date) : Prop :=
  1 ≤ d.year ∧ d.year ≤ 9999 ∧ 1 ≤ d.month ∧ d.month ≤ 12 ∧ 1 ≤ d.day ∧
    d.day ≤ daysInMonth d.year d.month

instance (d : Date) : Decidable d.Valid := by unfold Valid; infer_instance

/-- The day number of 1 January of the year after `n` complete years. -/
def daysOfYears (n : Nat) : Nat := 365 * n + n / 4 - n / 100 + n / 400

/-- The number of days of a year before the first of a month. -/
def daysBefore (year month : Nat) : Nat :=
  ((monthLengths year).take (month - 1)).foldr (· + ·) 0

/-- The number of days from 1 January of year 1 to a date. -/
def dayNumber (d : Date) : Nat :=
  daysOfYears (d.year - 1) + daysBefore d.year d.month + (d.day - 1)

/-- The month and the day that lie `n` days after the first of the month `month`, whose length
comes first in the list. -/
def walkMonths (month : Nat) : List Nat → Nat → Nat × Nat
  | [], n => (month, n + 1)
  | length :: rest, n =>
    if n < length then (month, n + 1) else walkMonths (month + 1) rest (n - length)

/-- The complete years before the day `n`, and the day of the year counted from 0. The last year of
a cycle of four and the last century of a cycle of four hundred years are a day longer, which is
why the quotients stop at 3. -/
def splitYears (n : Nat) : Nat × Nat :=
  let cycles := n / 146097
  let n := n % 146097
  let centuries := min (n / 36524) 3
  let n := n - 36524 * centuries
  let quads := n / 1461
  let n := n % 1461
  let years := min (n / 365) 3
  (400 * cycles + 100 * centuries + 4 * quads + years, n - 365 * years)

/-- The date of a day number. -/
def ofDayNumber (n : Nat) : Date :=
  let (years, rest) := splitYears n
  let (month, day) := walkMonths 1 (monthLengths (years + 1)) rest
  ⟨years + 1, month, day⟩

/-- The number of days in the years 1 to 9999. -/
def dayCount : Nat := daysOfYears 9999

end Date
end MetricQuery
