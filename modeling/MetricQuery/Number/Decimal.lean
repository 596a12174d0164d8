import MetricQuery.Number.Binary64
import MetricQuery.Text.Blank
import MetricQuery.Text.Digit

/-!
# Decimal texts of floating-point numbers

A decimal is a coefficient and a power of ten. `Binary64.ofDecimal` rounds it once, however long
its coefficient and however large its exponent; `Decimal.read` is its plain grammar, and
`Binary64.read` the wider one with blanks around, underscores between digits and the names of the
values that are not finite.
-/

namespace MetricQuery

/-- The number `coefficient * 10 ^ exponent`. -/
structure Decimal where
  coefficient : Nat
  exponent : Int
deriving DecidableEq

/-- The nearest number of the format. A decimal from `10 ^ 310` on is beyond every magnitude and
one below `10 ^ -330` next to zero, so that neither power need be formed. -/
def Binary64.ofDecimal (negative : Bool) (d : Decimal) : Binary64 :=
  let top : Int := Digit.count d.coefficient + d.exponent
  if d.coefficient = 0 ∨ top < -330 then .zero negative
  else if 310 < top then .infinite negative
  else match d.exponent with
    | .ofNat e => .ofRatio negative (d.coefficient * tenTo e) 1
    | .negSucc e => .ofRatio negative d.coefficient (tenTo (e + 1))

namespace Decimal

/-- A sign at the front of a text: whether it is a minus, and what follows. -/
def readSign : List Char → Bool × List Char
  | '-' :: rest => (true, rest)
  | '+' :: rest => (false, rest)
  | cs => (false, cs)

/-- An exponent part up to the end of the text: nothing, or the mark `e`, a sign and digits. -/
def readExponent (digit? : Char → Option Nat) : List Char → Option Int
  | [] => some 0
  | mark :: cs =>
    if mark = 'e' ∨ mark = 'E' then
      let (negative, cs) := readSign cs
      match Digit.span digit? cs with
      | (d :: ds, []) =>
        let n : Int := Digit.number (d :: ds)
        some (if negative then -n else n)
      | _ => none
    else none

/-- A decimal without a sign: digits with an optional fraction, or a fraction alone, and an
optional exponent. -/
def readUnsigned (digit? : Char → Option Nat) (cs : List Char) : Option Decimal :=
  let (whole, cs) := Digit.span digit? cs
  let (fraction, cs) := match cs with
    | '.' :: rest => Digit.span digit? rest
    | _ => ([], cs)
  if whole.isEmpty && fraction.isEmpty then none
  else (readExponent digit? cs).map fun e =>
    ⟨Digit.number (whole ++ fraction), e - fraction.length⟩

/-- A decimal with an optional sign. -/
def read (digit? : Char → Option Nat) (cs : List Char) : Option (Bool × Decimal) :=
  let (negative, cs) := readSign cs
  (readUnsigned digit? cs).map (negative, ·)

/-- A text without its underscores, if each of them stands between two characters of a class. The
first argument says whether such a character came before. -/
def ungroup? (member : Char → Bool) : Bool → List Char → Option (List Char)
  | _, [] => some []
  | afterMember, '_' :: c :: rest =>
    if afterMember && member c then (ungroup? member true rest).map (c :: ·) else none
  | _, c :: rest => if c = '_' then none else (ungroup? member (member c) rest).map (c :: ·)

end Decimal

namespace Binary64

/-- The values that have a name instead of digits, in either case of letters. -/
def ofName? (negative : Bool) (cs : List Char) : Option Binary64 :=
  let name := String.ofList (cs.map Char.toLower)
  if name = "nan" then some .nan
  else if name = "inf" ∨ name = "infinity" then some (.infinite negative)
  else none

/-- A number without blanks and underscores: a name or a decimal, with an optional sign. -/
def readPlain (digit? : Char → Option Nat) (cs : List Char) : Option Binary64 :=
  let (negative, rest) := Decimal.readSign cs
  (ofName? negative rest).or
    ((Decimal.readUnsigned digit? rest).map (ofDecimal negative))

/-- A number as a text may write it: blanks around it and single underscores between its digits
have no meaning. -/
def read (digit? : Char → Option Nat) (cs : List Char) : Option Binary64 :=
  (Decimal.ungroup? (fun c => (digit? c).isSome) false (trim isBlank cs)).bind (readPlain digit?)

end Binary64
end MetricQuery
