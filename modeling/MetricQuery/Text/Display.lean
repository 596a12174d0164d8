import MetricQuery.Text.Printable

/-!
# Displayed texts

An error message shows a text between quotes: single ones, or double ones when the text holds a
single and no double quote. A character that is not printable is shown by its code point.
-/

namespace MetricQuery
namespace Display

/-- The lower-case hexadecimal digits of `n`, filled up with zeros to `width` characters. -/
def hexadecimal (width n : Nat) : List Char :=
  let digits := Nat.toDigits 16 n
  List.replicate (width - digits.length) '0' ++ digits

/-- The quote that surrounds a displayed text. -/
def quoteOf (cs : List Char) : Char :=
  if cs.contains '\x27' && !cs.contains '\x22' then '\x22' else '\x27'

/-- One character of a text that is displayed between quotes `mark`. -/
def character (mark c : Char) : List Char :=
  if c = mark ∨ c = '\\' then ['\\', c]
  else if c = '\n' then ['\\', 'n']
  else if c = '\r' then ['\\', 'r']
  else if c = '\t' then ['\\', 't']
  else if isPrintable c then [c]
  else if c.toNat < 0x100 then '\\' :: 'x' :: hexadecimal 2 c.toNat
  else if c.toNat < 0x10000 then '\\' :: 'u' :: hexadecimal 4 c.toNat
  else '\\' :: 'U' :: hexadecimal 8 c.toNat

/-- A text as it is shown in a message. -/
def text (s : String) : String :=
  let mark := quoteOf s.toList
  String.ofList (mark :: (s.toList.flatMap (character mark) ++ [mark]))

/-- Items between brackets, separated by a comma and a space. -/
def list (items : List String) : String := "[" ++ ", ".intercalate items ++ "]"

end Display
end MetricQuery
