import MetricQuery.Json.Token
import MetricQuery.Schema.Problem

/-!
# Numerals in documents

A text in a document may stand for a number. `readFloat` and `readInteger` take away what has no
meaning: blanks around the numeral, underscores between its characters, and from an integer the
zeros that fill it up on the left and a fraction of zeros. What is left has to be a plain numeral.
-/

namespace MetricQuery
namespace Schema

/-- A text without its underscores, if each of them stands alone between two other characters. -/
def ungrouped? (cs : List Char) : Option (List Char) := Decimal.ungroup? (· != '_') false cs

/-- The number that a text writes in ASCII. Blanks around it and underscores in it exclude each
other. -/
def readFloat (cs : List Char) : Option Binary64 :=
  let plain := Binary64.readPlain Digit.ascii?
  (plain (trim isBlank cs)).or ((ungrouped? cs).bind plain)

/-- Whether a character may come between a zero at the front of an integer and its leading digit. -/
def isFilling (c : Char) : Bool := c == '0' || c == '_'

/-- An integer after its sign, from the leading digit on. A zero at the front is filling, and so are
the zeros and underscores after it; of nothing else than filling, the last character stays. A
minus may follow the filling, but not the sign. -/
def unfilled? : List Char → Option (List Char)
  | '-' :: _ => none
  | '0' :: cs =>
    let filling := '0' :: cs.takeWhile isFilling
    let rest := cs.dropWhile isFilling
    some (if rest.head?.all (· == '.') then filling.getLast?.toList ++ rest else rest)
  | cs => some cs

/-- Whether a text is a point and zeros. -/
def isZeroFraction : List Char → Bool
  | '.' :: zeros => !zeros.isEmpty && zeros.all (· == '0')
  | _ => false

/-- A numeral without its fraction, if that is zero. -/
def dropZeroFraction (cs : List Char) : List Char :=
  if isZeroFraction (cs.dropWhile (· != '.')) then cs.takeWhile (· != '.') else cs

/-- The integer that a text writes plainly, with no more digits than an integer may have. -/
def plainInteger : List Char → Checked Int
  | [] => .problem .unreadableInteger
  | c :: cs =>
    match Json.Token.read .strict c cs with
    | (.atom (.int n), []) => .sound n
    | (.fault (.overlong _), _) => .problem .oversizedInteger
    | _ => .problem .unreadableInteger

/-- The integer that a text writes. -/
def readInteger (cs : List Char) : Checked Int :=
  let sign := Decimal.readSign (trim isBlank cs)
  match unfilled? sign.2 with
  | none => .problem .unreadableInteger
  | some cs =>
    let numeral := dropZeroFraction cs
    let digits := (ungrouped? numeral).getD numeral
    plainInteger (if sign.1 then '-' :: digits else digits)

end Schema
end MetricQuery
