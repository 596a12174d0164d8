/-!
# Pairs by name

Lists of named values in which each name stands once. `Keyed.put` is the rule for a name that occurs
again: the last value takes the place of the first. `Labels` are texts by name.
-/

namespace MetricQuery
namespace Keyed

variable {α : Type}

/-- The pairs after one more, which replaces a pair of the same name. -/
def put (name : String) (value : α) : List (String × α) → List (String × α)
  | [] => [(name, value)]
  | (other, old) :: rest =>
    if other = name then (name, value) :: rest else (other, old) :: put name value rest

/-- Pairs put one after another. -/
def ofPairs (pairs : List (String × α)) : List (String × α) :=
  pairs.foldl (fun kept pair => put pair.1 pair.2 kept) []

theorem mem_names_put {name other : String} {value : α} {pairs : List (String × α)}
    (h : other ∈ (put name value pairs).map Prod.fst) :
    other = name ∨ other ∈ pairs.map Prod.fst := by
  induction pairs with
  | nil => exact .inl (List.mem_singleton.1 h)
  | cons pair rest ih =>
    rw [put] at h
    split at h
    · exact (List.mem_cons.1 h).imp_right (List.mem_cons_of_mem _)
    · obtain heq | h := List.mem_cons.1 h
      · exact .inr (heq ▸ List.mem_cons_self)
      · exact (ih h).imp_right (List.mem_cons_of_mem _)

theorem nodup_put (name : String) (value : α) {pairs : List (String × α)}
    (h : (pairs.map Prod.fst).Nodup) : ((put name value pairs).map Prod.fst).Nodup := by
  induction pairs with
  | nil => simp [put]
  | cons pair rest ih =>
    obtain ⟨hfirst, hrest⟩ := List.nodup_cons.1 h
    rw [put]
    split
    · rename_i heq
      exact List.nodup_cons.2 ⟨heq ▸ hfirst, hrest⟩
    · rename_i hne
      exact List.nodup_cons.2 ⟨fun hmem => (mem_names_put hmem).elim hne hfirst, ih hrest⟩

theorem nodup_foldl_put (pairs : List (String × α)) {kept : List (String × α)}
    (h : (kept.map Prod.fst).Nodup) :
    ((pairs.foldl (fun kept pair => put pair.1 pair.2 kept) kept).map Prod.fst).Nodup := by
  induction pairs generalizing kept with
  | nil => exact h
  | cons pair rest ih => exact ih (nodup_put pair.1 pair.2 h)

/-- Pairs put one after another have distinct names. -/
theorem nodup_ofPairs (pairs : List (String × α)) : ((ofPairs pairs).map Prod.fst).Nodup :=
  nodup_foldl_put pairs List.nodup_nil

end Keyed

/-- Texts by name, each name once. -/
structure Labels where
  entries : List (String × String)
  nodup : (entries.map Prod.fst).Nodup
deriving DecidableEq

namespace Labels

def map {α : Type} (ls : Labels) (f : String × String → α) : List α := ls.entries.map f

/-- Of a name that stands more than once, the last text counts. -/
def ofPairs (pairs : List (String × String)) : Labels :=
  ⟨Keyed.ofPairs pairs, Keyed.nodup_ofPairs pairs⟩

end Labels
end MetricQuery
