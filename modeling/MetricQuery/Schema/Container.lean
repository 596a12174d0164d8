import MetricQuery.Keyed
import MetricQuery.Schema.Scalar

/-!
# Lists and records in documents

Decoders for lists, pairs, label maps and records. A closed record has no fields but those that it
declares, a tagged one is decoded by what one of its fields says, and a problem of a part is
reported under the name or position of the part.
-/

namespace MetricQuery
namespace Schema

/-- The items of a list from the position `start` on. -/
def items {α : Type} (decode : Decoder α) (start : Nat) : List Json → Checked (List α)
  | [] => .sound []
  | v :: rest =>
    List.cons <$> (decode v).under (toString start) <*> items decode (start + 1) rest

def list {α : Type} (decode : Decoder α) : Decoder (List α)
  | .list vs => items decode 0 vs
  | _ => .problem .notList

/-- The fields of a map from names to texts. -/
def labelFields : Json.Fields → Checked (List (String × String))
  | [] => .sound []
  | (name, v) :: rest =>
    List.cons <$> (Prod.mk name <$> (text v).under name) <*> labelFields rest

/-- A map from names to texts. All texts of a name are checked, and the last one counts. -/
def labels : Decoder Labels
  | .record fields => Labels.ofPairs <$> labelFields fields
  | _ => .problem .notLabels

/-- A text that names one of certain values. -/
def member {α : Type} (ofName? : String → Option α) : Decoder α
  | .text name =>
    match ofName? name with
    | some a => .sound a
    | none => .problem .notMember
  | _ => .problem .notMember

/-- A list of exactly two items. The items of a longer list are not looked at. -/
def pair {α β : Type} (first : Decoder α) (second : Decoder β) : Decoder (α × β)
  | .list [] =>
    Prod.mk <$> (Checked.problem .missing).under "0" <*> (Checked.problem .missing).under "1"
  | .list [v] => Prod.mk <$> (first v).under "0" <*> (Checked.problem .missing).under "1"
  | .list [v, w] => Prod.mk <$> (first v).under "0" <*> (second w).under "1"
  | .list _ => .problem .longPair
  | _ => .problem .notPair

/-- A field that has to be there. -/
def required {α : Type} (fields : Json.Fields) (name : String) (decode : Decoder α) : Checked α :=
  match Json.field? fields name with
  | some v => (decode v).under name
  | none => (Checked.problem .missing).under name

/-- A field that may be left out, in favour of a default. -/
def optional {α : Type} (fields : Json.Fields) (name : String) (default : α)
    (decode : Decoder α) : Checked α :=
  match Json.field? fields name with
  | some v => (decode v).under name
  | none => .sound default

/-- A field that may be null or left out. -/
def nullableField {α : Type} (fields : Json.Fields) (name : String) (decode : Decoder α) :
    Checked (Option α) :=
  optional fields name none (nullable decode)

/-- The check that all fields are among the declared ones. -/
def declaredOnly (declared : List String) : Json.Fields → Checked Unit
  | [] => .sound ()
  | (name, _) :: rest =>
    if name ∈ declared then declaredOnly declared rest
    else (Checked.problem .unknownField).under name <* declaredOnly declared rest

/-- A document in whose fields the last value of a name counts. -/
def merged : Json → Json
  | .record fields => .record (Keyed.ofPairs fields)
  | v => v

/-- A record whose field `tag` names the decoder for it. Problems are reported under that name. -/
def tagged {α : Type} (source : Source) (tag : String) (decoder? : String → Option (Decoder α)) :
    Decoder α
  | .record fields =>
    match Json.field? (Keyed.ofPairs fields) tag with
    | none => .problem .noTag
    | some (.text name) =>
      match decoder? name with
      | none => .problem .unknownTag
      | some decode => (decode (.record fields)).under name
    | some _ => .problem .unknownTag
  | _ => .problem (.notData source)

/-- A record with any further fields. -/
def openRecord {α : Type} (build : Json.Fields → Checked α) : Decoder α
  | .record fields => build fields
  | _ => .problem .notRecord

/-- A record with declared fields alone. -/
def closedRecord {α : Type} (declared : List String) (build : Json.Fields → Checked α) :
    Decoder α
  | .record fields => build fields <* declaredOnly declared fields
  | _ => .problem .notRecord

end Schema
end MetricQuery
