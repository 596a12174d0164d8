import MetricQuery.Text.Quoted

/-!
# Matchers and selectors

A matcher compares a label with a value; a selector is a sequence of matchers between braces. A
metric name is a matcher on the label `__name__`.
-/

namespace MetricQuery

inductive MatchOp where
  | equal
  | notEqual
  | regexEqual
  | regexNotEqual
deriving DecidableEq

namespace MatchOp

def all : List MatchOp := [equal, notEqual, regexEqual, regexNotEqual]

def symbol : MatchOp → String
  | equal => "="
  | notEqual => "!="
  | regexEqual => "=~"
  | regexNotEqual => "!~"

def ofSymbol? (s : String) : Option MatchOp := all.find? (·.symbol == s)

end MatchOp

/-- A label, an operator and the value or pattern that the label is compared with. -/
structure Matcher where
  name : String
  value : String
  op : MatchOp
deriving DecidableEq

namespace Matcher

def text (m : Matcher) : String := m.name ++ m.op.symbol ++ quote m.value

/-- Matchers between braces. -/
def braces (ms : List Matcher) : String := "\x7b" ++ ",".intercalate (ms.map text) ++ "\x7d"

end Matcher

structure Selector where
  matchers : List Matcher
deriving DecidableEq

namespace Selector

def empty : Selector := ⟨[]⟩

def text (s : Selector) : String := Matcher.braces s.matchers

/-- The label that holds the name of a metric. -/
def metricLabel : String := "__name__"

/-- The words that may not stand where a metric name stands. -/
def reservedNames : List String := ["bool", "on", "ignoring", "group_left", "group_right"]

end Selector
end MetricQuery
