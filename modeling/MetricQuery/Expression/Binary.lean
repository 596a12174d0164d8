import MetricQuery.Expression.Function

/-!
# Binary operations

A binary operation joins two instant vectors by an operator, with an optional matching clause and
an optional group clause between them. Operands that are binary operations are put in parentheses.
-/

namespace MetricQuery
namespace Binary

/-- The text of a binary operation. -/
def text (op : String) (left right : InstantVector) (matching group : Option Clause) : String :=
  " ".intercalate ([left.operand, op] ++ (matching.map Clause.text).toList ++
    (group.map Clause.text).toList ++ [right.operand])

/-- A binary operation. A group clause needs a matching clause; the kinds of the clauses are not
looked at otherwise. -/
def apply (op : String) (left right : Value) (matching group : Option Clause) :
    Except Error Value := do
  let left ← left.instantFor op
  let right ← right.instantFor op
  match group, matching with
  | some g, none => throw (.groupWithoutMatch g.kind)
  | _, _ => return .instant { text := text op left right matching group, compound := true }

/-- Whether a value is a sequence. -/
def isSequence : Value → Bool
  | .text _ | .list _ => true
  | _ => false

/-- The error for operands of which one is not an instant vector. Sequences refuse some operators
in words of their own. -/
def operandError (op : ArithmeticOp) (left right : Value) : Error :=
  match op, left with
  | .add, .text _ => .concatenation left right
  | .add, .list _ => .concatenation left right
  | .mod, .text _ => .placeholders
  | .mul, _ =>
    if isSequence left then .repetition right
    else if isSequence right then .repetition left
    else .operands op left right
  | _, _ => .operands op left right

/-- An arithmetic operator between two values. -/
def arithmetic (op : ArithmeticOp) : Value → Value → Except Error Value
  | .instant u, .instant v => apply op.symbol (.instant u) (.instant v) none none
  | left, right => .error (operandError op left right)

end Binary
end MetricQuery
