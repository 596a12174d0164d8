import MetricQuery.Expression.Aggregation
import MetricQuery.Expression.Binary

/-!
# Expressions

An expression is a tree of selectors, functions, aggregations and operators. `Expression.eval`
gives its vector: operands are worked out from left to right before the operation looks at them,
and the first error is the outcome.
-/

namespace MetricQuery

inductive Expression where
  | value (v : Value)
  | selector (steps : List Selector.Step)
  | instant (steps : List Selector.Step)
  | range (steps : List Selector.Step) (window : String)
  | call (f : Function.Call) (vector : Expression)
  | aggregate (a : Aggregation.Call) (vector : Expression) (grouping : Option Value)
  | binary (op : String) (left right : Expression) (matching group : Option Clause)
  | arithmetic (op : ArithmeticOp) (left right : Expression)

namespace Expression

def eval : Expression → Except Error Value
  | value v => .ok v
  | selector steps => (Selector.empty.run steps).map .selector
  | instant steps => do return .instant (← (← Selector.empty.run steps).instant)
  | range steps window => do return .range (← (← Selector.empty.run steps).range (.text window))
  | call f vector => do f.apply (← vector.eval)
  | aggregate a vector grouping => do a.apply (← vector.eval) grouping
  | binary op left right matching group => do
    Binary.apply op (← left.eval) (← right.eval) matching group
  | arithmetic op left right => do Binary.arithmetic op (← left.eval) (← right.eval)

end Expression
end MetricQuery
