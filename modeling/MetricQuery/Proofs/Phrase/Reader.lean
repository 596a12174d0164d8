import MetricQuery.Proofs.Phrase.Basic
import MetricQuery.Proofs.Text.QuotedReader
import MetricQuery.Proofs.Text.Scan

/-!
# Reading phrases

`Phrase.read` recovers a phrase from its text alone. It knows string literals, brackets, commas,
operators and the words of clauses, and nothing of the functions and aggregations there are.
A reader of one operation takes the reader of what is nested in it as an argument;
`Phrase.readNested` closes the loop, one level of nesting at a time.
-/

namespace MetricQuery
open Scan

/-- A string literal. -/
def readString? (cs : List Char) : Option (String × List Char) :=
  (Quoted.read cs).map fun r => (String.ofList r.1, r.2)

/-- A comparison of a matcher. -/
def readMatchOp? : List Char → Option (MatchOp × List Char)
  | '=' :: '~' :: rest => some (.regexEqual, rest)
  | '=' :: rest => some (.equal, rest)
  | '!' :: '=' :: rest => some (.notEqual, rest)
  | '!' :: '~' :: rest => some (.regexNotEqual, rest)
  | _ => none

def readMatcher? (cs : List Char) : Option (Matcher × List Char) := do
  let (name, cs) ← word? cs
  let (op, cs) ← readMatchOp? cs
  let (value, cs) ← readString? cs
  return (⟨name, value, op⟩, cs)

/-- The characters of number literals. -/
def isNumeralChar (c : Char) : Bool := c.isAlphanum || c == '.' || c == '+' || c == '-'

/-- The characters that begin a number literal. Names of functions begin with small letters. -/
def startsNumeral (c : Char) : Bool := c.isDigit || c == '-' || c == 'N' || c == 'I'

/-- A literal at the place of an argument. -/
def readLiteral? : List Char → Option (Literal × List Char)
  | [] => none
  | c :: cs =>
    if c = '\x22' then (readString? (c :: cs)).map fun r => (.string r.1, r.2)
    else if startsNumeral c then
      let (text, rest) := run isNumeralChar (c :: cs)
      some (.number (String.ofList text), rest)
    else none

/-- A literal with a comma after it. -/
def readBefore? (cs : List Char) : Option (Literal × List Char) := do
  let (l, cs) ← readLiteral? cs
  let cs ← skip? [',', ' '] cs
  return (l, cs)

/-- A literal with a comma in front. -/
def readAfter? (cs : List Char) : Option (Literal × List Char) :=
  (skip? [',', ' '] cs).bind readLiteral?

/-- A clause of one of the given kinds, with a blank in front. -/
def readClause? (kinds : List ClauseKind) (cs : List Char) : Option (Clause × List Char) := do
  let cs ← skip? [' '] cs
  let (keyword, cs) ← word? cs
  let kind ← kinds.find? (·.keyword == keyword)
  let cs ← skip? [' ', '('] cs
  let (labels, cs) := listed word? cs
  let cs ← skip? [')'] cs
  return (⟨kind, labels⟩, cs)

/-- An operator with a blank in front. -/
def readOperator? : List Char → Option (ArithmeticOp × List Char)
  | ' ' :: '+' :: rest => some (.add, rest)
  | ' ' :: '-' :: rest => some (.sub, rest)
  | ' ' :: '*' :: rest => some (.mul, rest)
  | ' ' :: '/' :: rest => some (.div, rest)
  | ' ' :: '%' :: rest => some (.mod, rest)
  | ' ' :: '^' :: rest => some (.pow, rest)
  | _ => none

namespace Phrase

/-- A selector after its opening brace, with the window that may follow. -/
def readSelector? (cs : List Char) : Option (Phrase × List Char) := do
  let (ms, cs) := listed readMatcher? cs
  let cs ← skip? ['\x7d'] cs
  match cs with
  | '[' :: cs =>
    let (window, cs) := run (· != ']') cs
    let cs ← skip? [']'] cs
    return (range ms (String.ofList window), cs)
  | cs => return (instant ms, cs)

variable (inner : List Char → Option (Phrase × List Char))

/-- The arguments of a call after the opening parenthesis. -/
def readCall? (f : String) (cs : List Char) : Option (Phrase × List Char) := do
  let (before, cs) := many readBefore? cs.length cs
  let (v, cs) ← inner cs
  let (after, cs) := many readAfter? cs.length cs
  let cs ← skip? [')'] cs
  return (call f before v after, cs)

/-- An aggregation after its operator. -/
def readAggregate? (op : String) (cs : List Char) : Option (Phrase × List Char) := do
  let (clause, cs) := perhaps (readClause? [.groupBy, .without]) cs
  let cs ← skip? [' ', '('] cs
  let (parameter, cs) := perhaps readBefore? cs
  let (v, cs) ← inner cs
  let cs ← skip? [')'] cs
  return (aggregate op clause parameter v, cs)

/-- An operand: a phrase between parentheses, a selector, a call or an aggregation. -/
def readOperand? : List Char → Option (Phrase × List Char)
  | '(' :: cs => do
    let (p, cs) ← inner cs
    let cs ← skip? [')'] cs
    return (p, cs)
  | '\x7b' :: cs => readSelector? cs
  | cs => do
    let (name, cs) ← word? cs
    match cs with
    | '(' :: cs => readCall? inner name cs
    | cs => readAggregate? inner name cs

/-- An operand, or two of them with an operator and its clauses between them. -/
def readPhrase? (cs : List Char) : Option (Phrase × List Char) := do
  let (left, cs) ← readOperand? inner cs
  match readOperator? cs with
  | none => return (left, cs)
  | some (op, cs) =>
    let (matching, cs) := perhaps (readClause? [.on, .ignoring]) cs
    let (group, cs) := perhaps (readClause? [.groupLeft, .groupRight]) cs
    let cs ← skip? [' '] cs
    let (right, cs) ← readOperand? inner cs
    return (binary op left right matching group, cs)

/-- A phrase in which operations are nested at most `n` deep. -/
def readNested : ℕ → List Char → Option (Phrase × List Char)
  | 0 => fun _ => none
  | n + 1 => readPhrase? (readNested n)

/-- The phrase that a text writes from its first to its last character. -/
def read (s : String) : Option Phrase :=
  match readNested s.toList.length s.toList with
  | some (p, []) => some p
  | _ => none

end Phrase
end MetricQuery
