/-!
# Problems of documents

A document is checked against what is expected of it in all places at once. `Checked` is the
outcome: a value, or every problem with the path to its place. Outcomes combine as an applicative
functor, so that no problem hides another.
-/

namespace MetricQuery

/-- The two ways in which a document arrives. -/
inductive Source where
  | text
  | value
deriving DecidableEq

/-- What is wrong with one place of a document. -/
inductive ProblemKind where
  | notJson
  | missing
  | unknownField
  | notRecord
  | notData (source : Source)
  | noTag
  | unknownTag
  | notMember
  | notList
  | notLabels
  | notText
  | notPair
  | longPair
  | notFloat
  | unreadableFloat
  | notInteger
  | unreadableInteger
  | oversizedInteger
  | fractionalInteger
  | infiniteInteger
  | notBool
  | unreadableBool
  /-- A rule of its own refuses the value, in the words of the message. -/
  | refused (message : String)
  | readOnly
deriving DecidableEq

/-- The code of a problem in reports. -/
def ProblemKind.code : ProblemKind → String
  | notJson => "json_invalid"
  | missing => "missing"
  | unknownField => "extra_forbidden"
  | notRecord => "model_type"
  | notData .text => "dict_type"
  | notData .value => "model_attributes_type"
  | noTag => "union_tag_not_found"
  | unknownTag => "union_tag_invalid"
  | notMember => "enum"
  | notList => "list_type"
  | notLabels => "dict_type"
  | notText => "string_type"
  | notPair => "tuple_type"
  | longPair => "too_long"
  | notFloat => "float_type"
  | unreadableFloat => "float_parsing"
  | notInteger => "int_type"
  | unreadableInteger => "int_parsing"
  | oversizedInteger => "int_parsing_size"
  | fractionalInteger => "int_from_float"
  | infiniteInteger => "finite_number"
  | notBool => "bool_type"
  | unreadableBool => "bool_parsing"
  | refused _ => "value_error"
  | readOnly => "frozen_instance"

/-- A problem and the path of field names and list positions that leads to it. -/
structure Problem where
  path : List String
  kind : ProblemKind
deriving DecidableEq

namespace Problem

/-- Problems are listed by their paths, and those of one place by their codes. -/
def before (p q : Problem) : Bool :=
  decide (p.path < q.path) || (p.path == q.path && decide (p.kind.code ≤ q.kind.code))

def sort (ps : List Problem) : List Problem := ps.mergeSort before

end Problem

/-- The outcome of checking a document or a part of it. -/
inductive Checked (α : Type) where
  | sound (a : α)
  | faulty (problems : List Problem)

namespace Checked

/-- A function and its argument, or the problems of both. -/
def apply {α β : Type} : Checked (α → β) → Checked α → Checked β
  | sound f, sound a => sound (f a)
  | sound _, faulty qs => faulty qs
  | faulty ps, sound _ => faulty ps
  | faulty ps, faulty qs => faulty (ps ++ qs)

instance : Applicative Checked where
  pure := sound
  seq f a := apply f (a ())

def problem {α : Type} (kind : ProblemKind) : Checked α := faulty [⟨[], kind⟩]

/-- The outcome for the value of a field or of a list position, as part of the whole. -/
def under {α : Type} (key : String) : Checked α → Checked α
  | sound a => sound a
  | faulty ps => faulty (ps.map fun p => { p with path := key :: p.path })

/-- The value, or the problems in the order of reports. -/
def toExcept {α : Type} : Checked α → Except (List Problem) α
  | sound a => .ok a
  | faulty ps => .error (Problem.sort ps)

end Checked
end MetricQuery
