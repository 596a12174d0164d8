import MetricQuery.Json.Reader
import MetricQuery.Schema.Container

/-!
# Validation libraries

Answers are checked by a library that is not part of this development. `Library` lists what is used
of it: a reader of texts and, for each of the two ways in which a document arrives, a `Validator`
with the decoders that schemas are built from. Schemas are written for any library, and
`Library.standard` is the one that runs.
-/

namespace MetricQuery
namespace Schema

/-- The fields that a record declares, each with its decoder, and the type of what they stand for
together. -/
inductive Declared : Type → Type 1 where
  | none : Declared Unit
  /-- A field that has to be there. -/
  | required {α β : Type} (name : String) (decode : Decoder α) (rest : Declared β) :
    Declared (α × β)
  /-- A field that may be null or left out. -/
  | nullable {α β : Type} (name : String) (decode : Decoder α) (rest : Declared β) :
    Declared (Option α × β)

/-- The decoders of a library for documents that arrive in one way. -/
structure Validator where
  text : Decoder String
  float : Decoder Binary64
  integer : Decoder Int
  /-- A map from names to texts. -/
  labels : Decoder Labels
  /-- A text that names one of certain values. -/
  member : {α : Type} → (ofName? : String → Option α) → Decoder α
  list : {α : Type} → Decoder α → Decoder (List α)
  /-- A list of exactly two items. -/
  pair : {α β : Type} → Decoder α → Decoder β → Decoder (α × β)
  /-- A record with declared fields alone. -/
  record : {γ : Type} → Declared γ → Decoder γ
  /-- A record whose field `tag` names the decoder for it. -/
  tagged : {α : Type} → (tag : String) → (decoder? : String → Option (Decoder α)) → Decoder α

structure Library where
  /-- The document that a text writes. A name may stand more than once in its records. -/
  read : String → Except Json.Fault Json
  validator : Source → Validator

/-! ### The library that runs -/

namespace Declared

def names : {γ : Type} → Declared γ → List String
  | _, none => []
  | _, required name _ rest => name :: rest.names
  | _, nullable name _ rest => name :: rest.names

/-- What the declared fields of a record stand for, or the problems of all of them. -/
def build : {γ : Type} → Declared γ → Json.Fields → Checked γ
  | _, none, _ => .sound ()
  | _, required name decode rest, fields =>
    Prod.mk <$> Schema.required fields name decode <*> rest.build fields
  | _, nullable name decode rest, fields =>
    Prod.mk <$> nullableField fields name decode <*> rest.build fields

end Declared

def Validator.standard (source : Source) : Validator where
  text := Schema.text
  float := Schema.float source
  integer := Schema.integer
  labels := Schema.labels
  member := Schema.member
  list := Schema.list
  pair := Schema.pair
  record declared v := closedRecord declared.names declared.build (merged v)
  tagged := Schema.tagged source

def Library.standard : Library where
  read s := Json.readAs .all .strict s.toList
  validator := Validator.standard

end Schema
end MetricQuery
