import MetricQuery.Number.Decimal

/-!
# Shortest decimal texts

The decimal of a finite number is the one of fewest digits that reads back as that number, and of
those the nearest to it. A `NumberStyle` says how the digits are laid out.
-/

namespace MetricQuery
namespace Shortest

/-- The exponent of the leading decimal digit of `num / den`, for a quotient of at least
`10 ^ -400`. -/
def leadingExponent (num den : Nat) : Int :=
  (Digit.count (num * tenTo 400 / den) : Int) - 401

/-- The whole part of `num / den` counted in steps of `10 ^ exponent`, and the remainder of that
division over its divisor. -/
def onGrid (num den : Nat) (exponent : Int) : Nat × Nat × Nat :=
  match exponent with
  | .ofNat e => (num / (den * tenTo e), num % (den * tenTo e), den * tenTo e)
  | .negSucc e => (num * tenTo (e + 1) / den, num * tenTo (e + 1) % den, den)

/-- The decimal on the grid `10 ^ exponent` that reads back as `m`: the lower or the upper
neighbour of `m`, the nearer when both do, the even one when both are equally near. -/
def candidate? (m : Magnitude) (exponent : Int) : Option Decimal :=
  let (low, rest, divisor) := onGrid m.units Magnitude.unitsPerOne exponent
  let readsBack (n : Nat) : Bool := Binary64.ofDecimal false ⟨n, exponent⟩ == .finite false m
  let upper : Bool := divisor < 2 * rest || (divisor == 2 * rest && low % 2 == 1)
  let (first, second) := if upper then (low + 1, low) else (low, low + 1)
  if readsBack first then some ⟨first, exponent⟩
  else if readsBack second then some ⟨second, exponent⟩
  else none

/-- A decimal without zeros at the end of its coefficient. -/
def strip (d : Decimal) : Decimal :=
  let digits := (Digit.write d.coefficient).reverse
  let zeros := (digits.takeWhile (· == '0')).length
  if d.coefficient = 0 then ⟨0, 0⟩ else ⟨d.coefficient / tenTo zeros, d.exponent + zeros⟩

/-- The shortest decimal of a magnitude: seventeen digits always suffice. -/
def decimal (m : Magnitude) : Decimal :=
  let top := leadingExponent m.units Magnitude.unitsPerOne
  let found := (List.range 17).findSome? fun n : Nat => candidate? m (top - (n : Int))
  strip (found.getD ⟨m.units, 0⟩)

end Shortest

/-- How a number is laid out: the exponents of the leading digit that are written in positional
notation, whether a whole number keeps a zero after the point, and the names of the values that are
not finite. -/
structure NumberStyle where
  lowest : Int
  highest : Int
  keepsPointZero : Bool
  nan : String
  infinity : String

namespace NumberStyle

/-- The digits of a decimal with a point at its place. -/
def positional (style : NumberStyle) (d : Decimal) : List Char :=
  let digits := Digit.write d.coefficient
  match d.exponent with
  | .ofNat e =>
    digits ++ List.replicate e '0' ++ (if style.keepsPointZero then ['.', '0'] else [])
  | .negSucc e =>
    let places := e + 1
    if places < digits.length then
      digits.take (digits.length - places) ++ '.' :: digits.drop (digits.length - places)
    else '0' :: '.' :: (List.replicate (places - digits.length) '0' ++ digits)

/-- One digit before the point, and an exponent with a sign and at least two digits. -/
def scientific (d : Decimal) : List Char :=
  let digits := Digit.write d.coefficient
  let exponent := d.exponent + ((digits.length : Int) - 1)
  let mantissa := match digits with
    | first :: next :: rest => first :: '.' :: next :: rest
    | short => short
  mantissa ++ 'e' :: (if exponent < 0 then '-' else '+') :: Digit.writePadded 2 exponent.natAbs

/-- The layout of a decimal without a sign. -/
def layout (style : NumberStyle) (d : Decimal) : List Char :=
  let exponent := d.exponent + ((Digit.count d.coefficient : Int) - 1)
  if style.lowest ≤ exponent ∧ exponent ≤ style.highest then style.positional d else scientific d

/-- A text after a minus sign where one is due. -/
def signed (negative : Bool) (s : String) : String := if negative then "-" ++ s else s

/-- The text of a number. -/
def write (style : NumberStyle) : Binary64 → String
  | .nan => style.nan
  | .infinite negative => signed negative style.infinity
  | .finite negative m => signed negative (String.ofList (style.layout (Shortest.decimal m)))

/-- Numbers in messages and reports: positional from `10 ^ -4` to below `10 ^ 16`. -/
def plain : NumberStyle := ⟨-4, 15, true, "nan", "inf"⟩

/-- Numbers in the query language: as `plain`, but whole numbers have no point. -/
def literal : NumberStyle := ⟨-4, 15, false, "NaN", "Inf"⟩

end NumberStyle
end MetricQuery
