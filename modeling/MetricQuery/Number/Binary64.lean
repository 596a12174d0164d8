import MetricQuery.Number.Power

/-!
# Floating-point numbers of 64 bits

The numbers of the format binary64 as exact data. A finite magnitude is a significand below
`2 ^ 53` times a power of two; `Magnitude.round?` takes a quotient of natural numbers to the
nearest magnitude, halves to the even neighbour, and to none beyond the largest one.
-/

namespace MetricQuery

/-- `num / den` as a whole number: the nearest one, and of two equally near ones the even one. -/
def roundHalfEven (num den : Nat) : Nat :=
  let low := num / den
  let rest := num % den
  if 2 * rest < den then low
  else if den < 2 * rest then low + 1
  else low + low % 2

/-- The magnitude `significand * 2 ^ (scale - 1074)`. A scale above 0 has a full significand, so
that each magnitude has one form. -/
structure Magnitude where
  significand : Nat
  scale : Nat
  significand_lt : significand < twoTo 53
  full : scale = 0 ∨ twoTo 52 ≤ significand
  scale_le : scale ≤ 2045
deriving DecidableEq

namespace Magnitude

/-- How many units there are in one: every magnitude is a whole number of units. -/
def unitsPerOne : Nat := twoTo 1074

/-- A magnitude in units. -/
def units (m : Magnitude) : Nat := m.significand * twoTo m.scale

/-- The magnitude of the given parts, if they are the parts of one. -/
def ofParts? (significand scale : Nat) : Option Magnitude :=
  if h : significand < twoTo 53 ∧ (scale = 0 ∨ twoTo 52 ≤ significand) ∧ scale ≤ 2045 then
    some ⟨significand, scale, h.1, h.2.1, h.2.2⟩
  else none

def zero : Magnitude := ⟨0, 0, by decide, .inl rfl, by decide⟩

/-- The magnitude nearest to `num / den`, or none when that is beyond the largest one. The scale is
the least one at which the quotient has at most 53 bits; rounding up may give a bit more. -/
def round? (num den : Nat) : Option Magnitude :=
  let units := num * unitsPerOne
  let scale := (units / den).log2 - 52
  let significand := roundHalfEven units (den * twoTo scale)
  if significand < twoTo 53 then ofParts? significand scale else ofParts? (twoTo 52) (scale + 1)

end Magnitude

/-- A number of the format binary64. -/
inductive Binary64 where
  | nan
  | infinite (negative : Bool)
  | finite (negative : Bool) (magnitude : Magnitude)
deriving DecidableEq

namespace Binary64

def zero (negative : Bool) : Binary64 := .finite negative .zero

/-- The number nearest to the quotient `num / den` with a sign; infinite beyond the largest
magnitude. -/
def ofRatio (negative : Bool) (num den : Nat) : Binary64 :=
  match Magnitude.round? num den with
  | some m => .finite negative m
  | none => .infinite negative

/-- The number nearest to an integer, or none when the integer is too large for any. -/
def ofInt? (n : Int) : Option Binary64 :=
  (Magnitude.round? n.natAbs 1).map (.finite (decide (n < 0)))

/-- A quotient by a positive whole number, rounded once. -/
def divNat (x : Binary64) (k : Nat) : Binary64 :=
  match x with
  | .finite negative m => ofRatio negative m.units (Magnitude.unitsPerOne * k)
  | other => other

def isFinite : Binary64 → Bool
  | .finite .. => true
  | _ => false

/-- A finite number in units, with its sign. -/
def units? : Binary64 → Option Int
  | .finite negative m => some (if negative then -(m.units : Int) else m.units)
  | _ => none

/-- The integer that a number is equal to, if there is one. -/
def toInt? (x : Binary64) : Option Int :=
  match x.units? with
  | some n =>
    if n % (Magnitude.unitsPerOne : Int) = 0 then some (n / (Magnitude.unitsPerOne : Int))
    else none
  | none => none

/-- Whether a number lies strictly between 0 and 1. -/
def isProperFraction (x : Binary64) : Bool :=
  match x.units? with
  | some n => 0 < n && n < (Magnitude.unitsPerOne : Int)
  | none => false

end Binary64
end MetricQuery
