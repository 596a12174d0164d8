import MetricQuery.Json.Token
import MetricQuery.Keyed

/-!
# Reading JSON texts

A reader holds the lists and records that are not closed yet, the innermost first, and what may
come next. `State.step` takes one token, `State.advance` bounds the depth as well, and `Json.read`
runs through a text; the outcome is the value of the text or its leftmost fault. A name may stand in
a record again: `Repeats` says whether its values are all kept or the last one only.
-/

namespace MetricQuery
namespace Json

/-- What becomes of the values of a name that stands in a record more than once. -/
inductive Repeats where
  /-- The last value takes the place of the first. -/
  | last
  /-- All values are kept in their places. -/
  | all

/-- The fields of a record after one more. -/
def Repeats.join (r : Repeats) (name : String) (v : Json) (fields : Fields) : Fields :=
  match r with
  | last => Keyed.put name v fields
  | all => fields ++ [(name, v)]

/-- A list or record that is not closed yet. -/
inductive Frame where
  /-- A list with its items so far, the last first. -/
  | list (items : List Json)
  | record (fields : Fields)
  /-- A record and the name of the field whose value comes next. -/
  | field (fields : Fields) (name : String)

/-- What may come next. -/
inductive Expected where
  | value
  | valueOrEnd
  | name
  | nameOrEnd
  | colon
  | separator
deriving DecidableEq

inductive State where
  | inside (frames : List Frame) (expected : Expected)
  | done (v : Json)

namespace State

def start : State := .inside [] .value

/-- The state after a value. -/
def close (r : Repeats) (frames : List Frame) (v : Json) : Except Fault State :=
  match frames with
  | [] => .ok (.done v)
  | .list items :: outer => .ok (.inside (.list (v :: items) :: outer) .separator)
  | .field fields name :: outer =>
    .ok (.inside (.record (r.join name v fields) :: outer) .separator)
  | .record _ :: _ => .error .malformed

/-- Whether a value may come next. -/
def takesValue : Expected → Bool
  | .value | .valueOrEnd => true
  | _ => false

/-- The state after a token. -/
def step (r : Repeats) (s : State) (t : Token) : Except Fault State :=
  match s with
  | .done _ => .error .malformed
  | .inside frames expected =>
    match t, expected, frames with
    | .fault f, .value, _ => .error f
    | .fault f, .valueOrEnd, _ => .error f
    | .atom (.text name), .name, .record fields :: outer =>
      .ok (.inside (.field fields name :: outer) .colon)
    | .atom (.text name), .nameOrEnd, .record fields :: outer =>
      .ok (.inside (.field fields name :: outer) .colon)
    | .atom v, _, _ => if takesValue expected then close r frames v else .error .malformed
    | .openList, _, _ =>
      if takesValue expected then .ok (.inside (.list [] :: frames) .valueOrEnd)
      else .error .malformed
    | .openRecord, _, _ =>
      if takesValue expected then .ok (.inside (.record [] :: frames) .nameOrEnd)
      else .error .malformed
    | .closeList, .valueOrEnd, .list items :: outer => close r outer (.list items.reverse)
    | .closeList, .separator, .list items :: outer => close r outer (.list items.reverse)
    | .closeRecord, .nameOrEnd, .record fields :: outer => close r outer (.record fields)
    | .closeRecord, .separator, .record fields :: outer => close r outer (.record fields)
    | .comma, .separator, .list items :: outer => .ok (.inside (.list items :: outer) .value)
    | .comma, .separator, .record fields :: outer =>
      .ok (.inside (.record fields :: outer) .name)
    | .colon, .colon, _ => .ok (.inside frames .value)
    | _, _, _ => .error .malformed

/-- How many of the lists and records that are open are known not to be empty. -/
def depth : State → Nat
  | .inside frames .valueOrEnd => frames.length - 1
  | .inside frames .nameOrEnd => frames.length - 1
  | .inside frames _ => frames.length
  | .done _ => 0

/-- The state after a token, unless it lies too deep. -/
def advance (r : Repeats) (d : Dialect) (s : State) (t : Token) : Except Fault State := do
  let next ← s.step r t
  if d.maxDepth.any (· < next.depth) then throw .tooDeep else return next

/-- The value of a text that ends here. -/
def finish : State → Except Fault Json
  | .done v => .ok v
  | .inside .. => .error .malformed

end State

/-- The blanks between tokens. -/
def isSpace (c : Char) : Bool := c == ' ' || c == '\t' || c == '\n' || c == '\r'

/-- The value of the rest of a text for a reader in a given state. -/
def readFrom (r : Repeats) (d : Dialect) (s : State) (cs : List Char) : Except Fault Json :=
  match _h : cs.dropWhile isSpace with
  | [] => s.finish
  | first :: rest =>
    let token := Token.read d first rest
    match s.advance r d token.1 with
    | .ok next => readFrom r d next token.2
    | .error f => .error f
termination_by cs.length
decreasing_by
  have h1 := Token.length_read_le d first rest
  have h2 := (List.dropWhile_sublist (l := cs) isSpace).length_le
  rw [_h, List.length_cons] at h2
  omega

/-- The value of a text. -/
def readAs (r : Repeats) (d : Dialect) (cs : List Char) : Except Fault Json :=
  readFrom r d .start cs

/-- The value of a text in which the last value of a name counts. -/
def read (d : Dialect) (cs : List Char) : Except Fault Json := readAs .last d cs

end Json
end MetricQuery
