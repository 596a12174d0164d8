import MetricQuery.Query.Basic
import MetricQuery.Schema.Container

/-!
# Queries from documents

A query of either kind is a closed record of texts. Once made, it cannot be changed.
-/

namespace MetricQuery

open Schema

def InstantQuery.decode : Decoder InstantQuery :=
  closedRecord ["query", "time", "timeout", "stats"] fun fields =>
    InstantQuery.mk <$> required fields "query" text <*> nullableField fields "time" text <*>
      nullableField fields "timeout" text <*> nullableField fields "stats" text

def RangeQuery.decode : Decoder RangeQuery :=
  closedRecord ["query", "start", "end", "step", "timeout", "stats"] fun fields =>
    RangeQuery.mk <$> required fields "query" text <*> required fields "start" text <*>
      required fields "end" text <*> required fields "step" text <*>
      nullableField fields "timeout" text <*> nullableField fields "stats" text

/-- The outcome of setting a field of a query. -/
def Query.assign (_ : Query) (field : String) : Checked Query :=
  (Checked.problem .readOnly).under field

end MetricQuery
