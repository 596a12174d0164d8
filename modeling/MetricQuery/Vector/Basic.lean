/-!
# Vectors

A vector is an expression of the query language of a known kind: an instant vector has one sample
per series, a range vector a window of them. The two kinds are separate types.
-/

namespace MetricQuery

inductive VectorKind where
  | instant
  | range
deriving DecidableEq

def VectorKind.name : VectorKind → String
  | .instant => "InstantVector"
  | .range => "RangeVector"

/-- An instant vector. One that a binary operation made is compound: as an operand of another
binary operation it needs parentheses. -/
structure InstantVector where
  text : String
  compound : Bool := false
deriving DecidableEq

namespace InstantVector

/-- Two instant vectors are the same when their texts are. -/
def same (u v : InstantVector) : Bool := u.text == v.text

/-- The text as an operand. -/
def operand (v : InstantVector) : String := if v.compound then "(" ++ v.text ++ ")" else v.text

end InstantVector

structure RangeVector where
  text : String
deriving DecidableEq

end MetricQuery
