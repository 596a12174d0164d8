import Mathlib.Data.List.Nodup
import MetricQuery.Query.Basic

/-!
# Queries and their parameters

The parameters of a query have distinct names and tell each of its fields: a field that is not set
has none, and an empty text has one. `Query.ofParams?` is the query that an endpoint and parameters
stand for.
-/

namespace MetricQuery
namespace Query

/-- The query that parameters stand for at an endpoint. -/
def ofParams? (endpoint : String) (params : List (String × String)) : Option Query :=
  let timeout := params.lookup "timeout"
  let stats := params.lookup "stats"
  if endpoint = "/api/v1/query" then
    (params.lookup "query").map fun query =>
      .instant ⟨query, params.lookup "time", timeout, stats⟩
  else if endpoint = "/api/v1/query_range" then do
    return .range ⟨← params.lookup "query", ← params.lookup "start", ← params.lookup "end",
      ← params.lookup "step", timeout, stats⟩
  else none

theorem nodup_fields (q : Query) : (q.fields.map Prod.fst).Nodup := by
  cases q <;> simp [fields]

/-- The parameters of fields: those that are set, with their names. -/
def paramsOf (fields : List (String × Option String)) : List (String × String) :=
  fields.filterMap fun (name, value) => value.map (name, ·)

@[simp] theorem paramsOf_cons_none (name : String) (fields : List (String × Option String)) :
    paramsOf ((name, none) :: fields) = paramsOf fields := rfl

@[simp] theorem paramsOf_cons_some (name value : String) (fields : List (String × Option String)) :
    paramsOf ((name, some value) :: fields) = (name, value) :: paramsOf fields := rfl

theorem map_fst_paramsOf_sublist (fields : List (String × Option String)) :
    ((paramsOf fields).map Prod.fst).Sublist (fields.map Prod.fst) := by
  induction fields with
  | nil => exact .slnil
  | cons field rest ih =>
    obtain ⟨name, _ | value⟩ := field
    · exact ih.cons name
    · exact ih.cons_cons name

/-- Among distinct names, a field has a parameter exactly when it is set, namely its value. -/
theorem lookup_paramsOf {fields : List (String × Option String)}
    (hnodup : (fields.map Prod.fst).Nodup) {field : String × Option String} (h : field ∈ fields) :
    (paramsOf fields).lookup field.1 = field.2 := by
  induction fields with
  | nil => cases h
  | cons first rest ih =>
    obtain ⟨hfirst, hrest⟩ := List.nodup_cons.1 hnodup
    have hkeys := (map_fst_paramsOf_sublist rest).subset
    rcases List.mem_cons.1 h with rfl | hmem
    · obtain ⟨name, _ | value⟩ := field
      · refine List.lookup_eq_none_iff.2 fun param hparam => ?_
        rw [bne_iff_ne]
        rintro rfl
        exact hfirst (hkeys (List.mem_map_of_mem hparam))
      · exact List.lookup_cons_self
    · have hne : field.1 ≠ first.1 := fun heq => hfirst (heq ▸ List.mem_map_of_mem hmem)
      obtain ⟨name, _ | value⟩ := first
      · exact ih hrest hmem
      · rw [paramsOf_cons_some, List.lookup_cons, beq_false_of_ne hne]
        exact ih hrest hmem

theorem nodup_params (q : Query) : (q.params.map Prod.fst).Nodup :=
  q.nodup_fields.sublist (map_fst_paramsOf_sublist q.fields)

theorem lookup_params {q : Query} {field : String × Option String} (h : field ∈ q.fields) :
    q.params.lookup field.1 = field.2 := lookup_paramsOf q.nodup_fields h

theorem ofParams?_params (q : Query) : ofParams? q.endpoint q.params = some q := by
  have hfields := fun field (h : field ∈ q.fields) => lookup_params h
  cases q with
  | instant q =>
    simp only [fields, List.forall_mem_cons] at hfields
    obtain ⟨hquery, htime, htimeout, hstats, -⟩ := hfields
    rw [endpoint, ofParams?, if_pos rfl, hquery, htime, htimeout, hstats]
    rfl
  | range q =>
    simp only [fields, List.forall_mem_cons] at hfields
    obtain ⟨hquery, hstart, hstop, hstep, htimeout, hstats, -⟩ := hfields
    rw [endpoint, ofParams?, if_neg (by decide), if_pos rfl, hquery, hstart, hstop, hstep, htimeout,
      hstats]
    rfl

/-- The start of a range query. -/
def start? : Query → Option String
  | instant _ => none
  | range q => some q.start

theorem lookup_start (q : Query) : q.params.lookup "start" = q.start? := by
  cases q with
  | instant q => rcases q with ⟨query, _ | time, _ | timeout, _ | stats⟩ <;> rfl
  | range q => rfl

/-- Only range queries have a start, so that the parameters tell queries apart without the
endpoint. -/
theorem params_injective : Function.Injective params := by
  intro q q' h
  have hstart : q.start? = q'.start? := by rw [← lookup_start, h, lookup_start]
  have hendpoint : q.endpoint = q'.endpoint := by
    cases q <;> cases q' <;> first | rfl | cases hstart
  exact Option.some.inj (by rw [← ofParams?_params, hendpoint, h, ofParams?_params])

end Query
end MetricQuery
