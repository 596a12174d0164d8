/-!
# Queries

An instant query asks for the value of an expression at one time, a range query for its values
from a start to an end at a fixed step. `Query.params` lists what is sent to the endpoint.
-/

namespace MetricQuery

structure InstantQuery where
  query : String
  time : Option String
  timeout : Option String
  stats : Option String
deriving DecidableEq

structure RangeQuery where
  query : String
  start : String
  stop : String
  step : String
  timeout : Option String
  stats : Option String
deriving DecidableEq

inductive Query where
  | instant (q : InstantQuery)
  | range (q : RangeQuery)
deriving DecidableEq

namespace Query

/-- The name of a query's kind. -/
def kindName : Query → String
  | instant _ => "InstantQuery"
  | range _ => "RangeQuery"

def endpoint : Query → String
  | instant _ => "/api/v1/query"
  | range _ => "/api/v1/query_range"

/-- All fields with their names, set or not. -/
def fields : Query → List (String × Option String)
  | instant q =>
    [("query", some q.query), ("time", q.time), ("timeout", q.timeout), ("stats", q.stats)]
  | range q =>
    [("query", some q.query), ("start", some q.start), ("end", some q.stop), ("step", some q.step),
      ("timeout", q.timeout), ("stats", q.stats)]

/-- The fields that are set, in order. -/
def params (q : Query) : List (String × String) :=
  q.fields.filterMap fun (name, value) => value.map (name, ·)

end Query
end MetricQuery
