/-!
# Powers of two and ten

The powers that number formats are made of, as functions on natural numbers.
-/

namespace MetricQuery

/-- The power of two of a given exponent. -/
def twoTo (n : Nat) : Nat := Nat.pow 2 n

/-- The power of ten of a given exponent. -/
def tenTo (n : Nat) : Nat := Nat.pow 10 n

end MetricQuery
