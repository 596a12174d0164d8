import MetricQuery.Expression.Function

/-!
# Aggregations

An aggregation takes an instant vector to another one. Its text is the operator, an optional
grouping clause, and between parentheses an optional parameter and the vector.
-/

namespace MetricQuery
namespace Aggregation

/-- The operators without a parameter. -/
def plainNames : List String := ["sum", "min", "max", "avg", "group", "stddev", "stdvar", "count"]

def names : List String := plainNames ++ ["count_values", "bottomk", "topk", "quantile"]

/-- The text of a grouping clause before the parentheses. -/
def groupingText (op : String) : Option Value → Except Error String
  | none => .ok ""
  | some (.clause c) =>
    if c.kind.isGrouping then .ok (" " ++ c.text) else .error (.wrongGrouping op (.clause c))
  | some other => .error (.wrongGrouping op other)

/-- The aggregation of a vector. The vector is checked before the grouping. -/
def apply (op : String) (vector : Value) (grouping : Option Value) (parameter : Option String) :
    Except Error Value := do
  let v ← vector.instantFor op
  let clause ← groupingText op grouping
  let args := match parameter with
    | none => v.text
    | some p => p ++ ", " ++ v.text
  return .instant { text := op ++ clause ++ " (" ++ args ++ ")" }

/-- A count of series. -/
def countText (op : String) : Value → Except Error String
  | .int (.ofNat n) => integerText n
  | other => .error (other.showing (.aggregateCount op))

/-- The parameter of `quantile`: an integer or another number, but no text. -/
def quantileText : Value → Except Error String
  | .int n => Value.numberText (.int n)
  | .float x => Value.numberText (.float x)
  | other => .error (other.showing .quantileParameter)

/-- An aggregation with its parameter. -/
inductive Call where
  | plain (op : String)
  | countValues (label : String)
  | bottomk (k : Value)
  | topk (k : Value)
  | quantile (q : Value)
  /-- Any operator with a parameter that is written as it is. -/
  | raw (op : String) (parameter : Option String)

namespace Call

/-- The aggregation of a vector. The parameter is checked first. -/
def apply (vector : Value) (grouping : Option Value) : Call → Except Error Value
  | plain op => Aggregation.apply op vector grouping none
  | countValues label => Aggregation.apply "count_values" vector grouping (some (quote label))
  | bottomk k => do Aggregation.apply "bottomk" vector grouping (some (← countText "bottomk" k))
  | topk k => do Aggregation.apply "topk" vector grouping (some (← countText "topk" k))
  | quantile q => do Aggregation.apply "quantile" vector grouping (some (← quantileText q))
  | raw op parameter => Aggregation.apply op vector grouping parameter

end Call
end Aggregation
end MetricQuery
