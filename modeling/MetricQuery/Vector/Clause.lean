/-!
# Clauses

A clause is a keyword with a list of labels: `by` and `without` group an aggregation, `on` and
`ignoring` match the series of a binary operation, `group_left` and `group_right` let one side have
many series for one of the other.
-/

namespace MetricQuery

inductive ClauseKind where
  | groupBy
  | without
  | on
  | ignoring
  | groupLeft
  | groupRight
deriving DecidableEq

namespace ClauseKind

def all : List ClauseKind := [groupBy, without, on, ignoring, groupLeft, groupRight]

def keyword : ClauseKind → String
  | groupBy => "by"
  | without => "without"
  | on => "on"
  | ignoring => "ignoring"
  | groupLeft => "group_left"
  | groupRight => "group_right"

def name : ClauseKind → String
  | groupBy => "By"
  | without => "Without"
  | on => "On"
  | ignoring => "Ignoring"
  | groupLeft => "GroupLeft"
  | groupRight => "GroupRight"

/-- Whether a clause of this kind groups an aggregation. -/
def isGrouping : ClauseKind → Bool
  | groupBy | without => true
  | _ => false

def ofName? (s : String) : Option ClauseKind := all.find? (·.name == s)

end ClauseKind

structure Clause where
  kind : ClauseKind
  labels : List String
deriving DecidableEq

def Clause.text (c : Clause) : String := c.kind.keyword ++ " (" ++ ",".intercalate c.labels ++ ")"

end MetricQuery
