/-!
# Quoted strings of the query language

A string literal stands between double quotes. Inside, a backslash, a double quote and a line feed
are written as a backslash and one more character; every other character stands for itself.
-/

namespace MetricQuery
namespace Quoted

/-- The text of one character inside a literal. -/
def escape (c : Char) : List Char :=
  if c = '\\' then ['\\', '\\']
  else if c = '\x22' then ['\\', '\x22']
  else if c = '\n' then ['\\', 'n']
  else [c]

/-- The literal for a text. -/
def encode (cs : List Char) : List Char :=
  '\x22' :: (cs.flatMap escape ++ ['\x22'])

end Quoted

/-- A text as a string literal of the query language. -/
def quote (s : String) : String := String.ofList (Quoted.encode s.toList)

end MetricQuery
