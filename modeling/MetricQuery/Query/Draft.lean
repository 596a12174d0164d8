import MetricQuery.Query.Basic
import MetricQuery.Schema.Problem
import MetricQuery.Selector.Step

/-!
# Drafts of queries

What queries of both kinds have in common while they are built: a metric and matchers or a full
expression, a timeout and the level of statistics. A draft changes under the hands of its caller:
`Building` is work that reads and writes it, and what was written before a failure stays written.
-/

namespace MetricQuery

/-- Why work on a builder fails: an error, or fields of the query that are not what they have to
be. -/
inductive Refusal where
  | error (e : Error)
  | problems (ps : List Problem)

/-- Work on a builder that may fail. -/
abbrev Building (β : Type) := ExceptT Refusal (StateM β)

namespace Building

variable {α β δ : Type}

/-- The outcome of work on a builder, and the builder after it. -/
def on (work : Building β α) (b : β) : Except Refusal α × β := (ExceptT.run work).run b

/-- The value of a check. -/
def check (x : Except Error α) : Building β α := MonadExcept.ofExcept (x.mapError .error)

/-- The value of a checked document. -/
def sound (x : Checked α) : Building β α := MonadExcept.ofExcept (x.toExcept.mapError .problems)

/-- Work on a part of a builder. The part is put back whatever comes of the work. -/
def part (get' : β → δ) (put : β → δ → β) (work : Building δ α) : Building β α := do
  let b ← get
  let (result, after) := work.on (get' b)
  set (put b after)
  MonadExcept.ofExcept result

end Building

/-- A matcher as it is given. What stands for the label and its value is looked at only when the
text of the matcher is written. -/
structure GivenMatcher where
  op : MatchOp
  name : Value
  value : Value

/-- The text of a given matcher. -/
def GivenMatcher.text (m : GivenMatcher) : Except Error String := do
  let name ← m.name.insertedText
  let value ← m.value.quoted
  return name ++ m.op.symbol ++ value

/-- The metric and the level of statistics are kept as they are given, null when they are not
set. -/
structure Draft where
  metric : Value := .null
  matchers : List GivenMatcher := []
  expression : Option String := none
  timeout : Option String := none
  stats : Value := .null

namespace Draft

/-- The edits of the fields that both kinds of queries have. -/
inductive Edit where
  | metric (name : Value)
  | label (op : MatchOp) (name value : Value)
  | timeout (given : Value)
  | stats (level : Value)

/-- The level of statistics that is asked for when none is named. -/
def defaultStats : String := "all"

/-- What is kept as a metric name: anything that can be looked up among the reserved words and is
none of them. -/
def metricName : Value → Except Error Value
  | .text name => (Selector.metricName name).map .text
  | .list items => .error (.unhashable (.list items))
  | .record fields => .error (.unhashable (.record fields))
  | other => .ok other

/-- An edit. Labels add up; every other field keeps the last value. -/
def edit : Edit → Building Draft Unit
  | .metric given => do
    let name ← Building.check (metricName given)
    modify fun d => { d with metric := name }
  | .label op name value => modify fun d => { d with matchers := d.matchers ++ [⟨op, name, value⟩] }
  | .timeout given => do
    let text ← Building.check given.durationText
    modify fun d => { d with timeout := some text }
  | .stats level => modify fun d => { d with stats := level }

/-- The text of a vector of one of the given kinds. -/
def vectorText (kinds : List VectorKind) : Value → Except Error String
  | .instant v => if .instant ∈ kinds then .ok v.text else wrong (.instant v)
  | .range v => if .range ∈ kinds then .ok v.text else wrong (.range v)
  | other => wrong other
where
  wrong (v : Value) : Except Error String := .error (.wrongVector "expression" kinds v)

/-- A full expression, which is a vector of one of the given kinds. -/
def setExpression (kinds : List VectorKind) (vector : Value) : Building Draft Unit := do
  let text ← Building.check (vectorText kinds vector)
  modify fun d => { d with expression := some text }

/-- The matchers between braces. -/
def braces (d : Draft) : Except Error String := do
  let texts ← d.matchers.mapM GivenMatcher.text
  return "\x7b" ++ ",".intercalate texts ++ "\x7d"

/-- What the draft asks for: the expression, or the metric and the matchers. Alone, a metric stands
for itself, whatever it is. -/
def queryText (d : Draft) : Except Error Value :=
  match d.expression, d.metric, d.matchers with
  | some text, .null, [] => .ok (.text text)
  | some _, _, _ => .error .expressionWithSelector
  | none, .null, [] => .error .emptySelector
  | none, name, [] => .ok name
  | none, .null, _ :: _ => d.braces.map .text
  | none, name, _ :: _ => do
    let braces ← d.braces
    let name ← name.insertedText
    return .text (name ++ braces)

end Draft
end MetricQuery
