import MetricQuery.Query.Draft
import MetricQuery.Timestamp

/-!
# Building queries

A builder of either kind is a draft with the times of its kind. Each kind has calls that work on
it, and `runCalls` goes through a sequence of them, where a call that fails hands the builder on as
it left it.
-/

namespace MetricQuery

/-- What a call gives that succeeds: the builder itself, or a finished query. -/
inductive Outcome where
  | chained
  | query (q : Query)
deriving DecidableEq

/-- A field of a query, which has to be a text. -/
def textField (name : String) : Value → Checked String
  | .text s => .sound s
  | _ => (Checked.problem .notText).under name

/-- A field of a query that may be null. -/
def nullableTextField (name : String) : Value → Checked (Option String)
  | .null => .sound none
  | v => some <$> textField name v

structure InstantBuilder where
  draft : Draft := {}
  time : Option String := none

namespace InstantBuilder

inductive Call where
  | edit (e : Draft.Edit)
  | expression (vector : Value)
  | at (time : Value)
  | build

/-- Work on the draft of a builder. -/
def onDraft {α : Type} : Building Draft α → Building InstantBuilder α :=
  Building.part draft fun b d => { b with draft := d }

/-- The query of the fields of a builder, where `text` is what it asks for. -/
def query (b : InstantBuilder) (text : Value) : Checked Query :=
  (fun text stats => .instant ⟨text, b.time, b.draft.timeout, stats⟩) <$> textField "query" text <*>
    nullableTextField "stats" b.draft.stats

/-- The finished query. -/
def build : Building InstantBuilder Query := do
  let b ← get
  let text ← Building.check b.draft.queryText
  Building.sound (b.query text)

def perform : Call → Building InstantBuilder Outcome
  | .edit e => do
    onDraft (Draft.edit e)
    return .chained
  | .expression vector => do
    onDraft (Draft.setExpression [.instant, .range] vector)
    return .chained
  | .at time => do
    let text ← Building.check (Timestamp.ofValue time)
    modify fun b => { b with time := some text }
    return .chained
  | .build => .query <$> build

end InstantBuilder

structure RangeBuilder where
  draft : Draft := {}
  start : Option String := none
  stop : Option String := none
  step : Option String := none

namespace RangeBuilder

inductive Call where
  | edit (e : Draft.Edit)
  | expression (vector : Value)
  | start (time : Value)
  | stop (time : Value)
  | step (given : Value)
  | build

/-- Work on the draft of a builder. -/
def onDraft {α : Type} : Building Draft α → Building RangeBuilder α :=
  Building.part draft fun b d => { b with draft := d }

/-- The names of the times that are not set, in order. -/
def missing (b : RangeBuilder) : List String :=
  [("start", b.start), ("end", b.stop), ("step", b.step)].filterMap fun (name, value) =>
    if value.isNone then some name else none

/-- The query of the fields of a builder, where `text` is what it asks for. -/
def query (b : RangeBuilder) (text : Value) (start stop step : String) : Checked Query :=
  (fun text stats => .range ⟨text, start, stop, step, b.draft.timeout, stats⟩) <$>
    textField "query" text <*> nullableTextField "stats" b.draft.stats

/-- The finished query. A fault of the text comes before missing times. -/
def build : Building RangeBuilder Query := do
  let b ← get
  let text ← Building.check b.draft.queryText
  match b.start, b.stop, b.step with
  | some start, some stop, some step => Building.sound (b.query text start stop step)
  | _, _, _ => Building.check (.error (.incompleteRange b.missing))

def perform : Call → Building RangeBuilder Outcome
  | .edit e => do
    onDraft (Draft.edit e)
    return .chained
  | .expression vector => do
    onDraft (Draft.setExpression [.instant] vector)
    return .chained
  | .start time => do
    let text ← Building.check (Timestamp.ofValue time)
    modify fun b => { b with start := some text }
    return .chained
  | .stop time => do
    let text ← Building.check (Timestamp.ofValue time)
    modify fun b => { b with stop := some text }
    return .chained
  | .step given => do
    let text ← Building.check given.durationText
    modify fun b => { b with step := some text }
    return .chained
  | .build => .query <$> build

end RangeBuilder

/-- The two kinds of builders, by the kind of query that they build. -/
inductive BuilderKind where
  | instant
  | range

namespace BuilderKind

/-- The builders of a kind. -/
abbrev Builder : BuilderKind → Type
  | instant => InstantBuilder
  | range => RangeBuilder

/-- The calls on the builders of a kind. -/
abbrev Call : BuilderKind → Type
  | instant => InstantBuilder.Call
  | range => RangeBuilder.Call

/-- A builder on which nothing was called. -/
def fresh : (k : BuilderKind) → k.Builder
  | instant => ({} : InstantBuilder)
  | range => ({} : RangeBuilder)

def perform : (k : BuilderKind) → k.Call → Building k.Builder Outcome
  | instant => InstantBuilder.perform
  | range => RangeBuilder.perform

end BuilderKind

/-- A call that was made, with its result and the builder after it. -/
structure Performed (β γ : Type) where
  call : γ
  result : Except Refusal Outcome
  after : β

/-- A sequence of calls, one after another on one builder. -/
def runCalls {β γ : Type} (perform : γ → Building β Outcome) (b : β) :
    List γ → List (Performed β γ)
  | [] => []
  | call :: rest =>
    let (result, after) := (perform call).on b
    ⟨call, result, after⟩ :: runCalls perform after rest

end MetricQuery
