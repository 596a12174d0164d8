import MetricQuery.Value.Number

/-!
# Building selectors

A selector grows by steps: a metric name goes in front, other matchers go to the end. A selector
with a matcher gives an instant vector, and with a window a range vector.
-/

namespace MetricQuery
namespace Selector

/-- A metric name, unless it is a reserved word. -/
def metricName (name : String) : Except Error String :=
  if name ∈ reservedNames then .error (.reservedName name) else .ok name

def withMetric (s : Selector) (name : String) : Except Error Selector :=
  (metricName name).map fun name => ⟨⟨metricLabel, name, .equal⟩ :: s.matchers⟩

def withLabel (s : Selector) (op : MatchOp) (name value : String) : Selector :=
  ⟨s.matchers ++ [⟨name, value, op⟩]⟩

/-- One step of building a selector. -/
inductive Step where
  | metric (name : String)
  | label (op : MatchOp) (name value : String)
deriving DecidableEq

def step (s : Selector) : Step → Except Error Selector
  | .metric name => s.withMetric name
  | .label op name value => .ok (s.withLabel op name value)

/-- All steps in turn, up to the first that fails. -/
def run (s : Selector) (steps : List Step) : Except Error Selector := steps.foldlM step s

/-- A selector with at least one matcher. -/
def nonempty (s : Selector) : Except Error Selector :=
  if s.matchers.isEmpty then .error .emptySelector else .ok s

def instant (s : Selector) : Except Error InstantVector :=
  s.nonempty.map fun s => { text := s.text }

def range (s : Selector) (window : Value) : Except Error RangeVector := do
  let s ← s.nonempty
  let window ← window.durationText
  return ⟨s.text ++ "[" ++ window ++ "]"⟩

end Selector
end MetricQuery
