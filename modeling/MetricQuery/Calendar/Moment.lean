import MetricQuery.Calendar.Date
import MetricQuery.Text.Digit

/-!
# Moments and instants

A moment is a local date and time with an offset from UTC; an instant counts seconds and
nanoseconds of UTC. `Moment.toInstant` applies the offset, and `Instant.text` is the canonical
text of the result: the UTC date and time, the fraction in groups of three digits, and the mark
`Z`.
-/

namespace MetricQuery

/-- Why the parts of a moment do not make one. The parts are checked in this order. -/
inductive CalendarFault where
  | offset (seconds : Int)
  | year (n : Nat)
  | month
  | day
  | hour
  | minute
  | second
  | fraction
  | range
deriving DecidableEq

namespace CalendarFault

/-- A span of time as days and seconds of a day; parts that are zero are left out. -/
def span (seconds : Int) : String :=
  let days := seconds / 86400
  let rest := seconds % 86400
  let parts := (if days = 0 then [] else ["days=" ++ toString days]) ++
    (if rest = 0 then [] else ["seconds=" ++ toString rest])
  "datetime.timedelta(" ++ (if parts.isEmpty then "0" else ", ".intercalate parts) ++ ")"

def message : CalendarFault → String
  | .offset seconds =>
    "offset must be a timedelta strictly between -timedelta(hours=24) and timedelta(hours=24), not "
      ++ span seconds ++ "."
  | .year n => "year " ++ toString n ++ " is out of range"
  | .month => "month must be in 1..12"
  | .day => "day is out of range for month"
  | .hour => "hour must be in 0..23"
  | .minute => "minute must be in 0..59"
  | .second => "second must be in 0..59"
  | .fraction => "microsecond must be in 0..999999"
  | .range => "date value out of range"

end CalendarFault

/-- An instant of the years 1 to 9999 in UTC: seconds since the start of year 1, and nanoseconds. -/
structure Instant where
  seconds : Nat
  nanos : Nat
deriving DecidableEq

namespace Instant

/-- The fraction of a second with the fewest of 0, 3, 6 or 9 digits. -/
def fraction (nanos : Nat) : List Char :=
  if nanos = 0 then []
  else if nanos % 1000000 = 0 then '.' :: Digit.writePadded 3 (nanos / 1000000)
  else if nanos % 1000 = 0 then '.' :: Digit.writePadded 6 (nanos / 1000)
  else '.' :: Digit.writePadded 9 nanos

/-- The canonical text. The year is written without leading zeros. -/
def text (i : Instant) : List Char :=
  let date := Date.ofDayNumber (i.seconds / 86400)
  let time := i.seconds % 86400
  Digit.write date.year ++ '-' :: Digit.writePadded 2 date.month ++
    '-' :: Digit.writePadded 2 date.day ++ 'T' :: Digit.writePadded 2 (time / 3600) ++
    ':' :: Digit.writePadded 2 (time / 60 % 60) ++ ':' :: Digit.writePadded 2 (time % 60) ++
    fraction i.nanos ++ ['Z']

end Instant

/-- A local date and time as written, with the offset of its clock from UTC in seconds; without an
offset the clock shows UTC. -/
structure Moment where
  date : Date
  hour : Nat
  minute : Nat
  second : Nat
  nanos : Nat
  offset : Option Int
deriving DecidableEq

namespace Moment

/-- The first fault of the parts, if there is one. -/
def fault? (m : Moment) : Option CalendarFault :=
  if 86400 ≤ (m.offset.getD 0).natAbs then some (.offset (m.offset.getD 0))
  else if m.date.year < 1 ∨ 9999 < m.date.year then some (.year m.date.year)
  else if m.date.month < 1 ∨ 12 < m.date.month then some .month
  else if m.date.day < 1 ∨ Date.daysInMonth m.date.year m.date.month < m.date.day then some .day
  else if 23 < m.hour then some .hour
  else if 59 < m.minute then some .minute
  else if 59 < m.second then some .second
  else if 999999999 < m.nanos then some .fraction
  else none

/-- The instant of a moment whose parts are sound: its clock is put back by its offset. -/
def shift (m : Moment) : Except CalendarFault Instant :=
  let clock := m.date.dayNumber * 86400 + m.hour * 3600 + m.minute * 60 + m.second
  let seconds : Int := (clock : Int) - m.offset.getD 0
  if 0 ≤ seconds ∧ seconds < (Date.dayCount * 86400 : Nat) then .ok ⟨seconds.toNat, m.nanos⟩
  else .error .range

/-- The instant of a moment. -/
def toInstant (m : Moment) : Except CalendarFault Instant :=
  match m.fault? with
  | some fault => .error fault
  | none => m.shift

end Moment
end MetricQuery
