import MetricQuery.Number.Binary64

/-!
# JSON values

A JSON value with exact integers and with records whose fields keep their order.
-/

namespace MetricQuery

inductive Json where
  | null
  | bool (b : Bool)
  | int (n : Int)
  | float (x : Binary64)
  | text (s : String)
  | list (items : List Json)
  | record (fields : List (String × Json))

namespace Json

/-- The fields of a record. -/
abbrev Fields := List (String × Json)

/-- The value of a field. -/
def field? (fields : Fields) (name : String) : Option Json :=
  (fields.find? (·.1 == name)).map (·.2)

end Json
end MetricQuery
