import Mathlib.Data.List.Nodup
import MetricQuery.Keyed

/-!
# Pairs by name

Pairs whose names are distinct stay as they are when they are put one after another.
-/

namespace MetricQuery
namespace Keyed

variable {α : Type} {name : String} {value : α} {pairs : List (String × α)}

theorem put_of_notMem (h : name ∉ pairs.map Prod.fst) :
    put name value pairs = pairs ++ [(name, value)] := by
  induction pairs with
  | nil => rfl
  | cons pair rest ih =>
    rw [List.map_cons, List.mem_cons, not_or] at h
    rw [put, if_neg (Ne.symm h.1), ih h.2, List.cons_append]

theorem mem_put {pair : String × α} (h : pair ∈ put name value pairs) :
    pair = (name, value) ∨ pair ∈ pairs := by
  induction pairs with
  | nil => exact .inl (List.mem_singleton.1 h)
  | cons first rest ih =>
    rw [put] at h
    split at h
    · exact (List.mem_cons.1 h).imp_right (List.mem_cons_of_mem _)
    · obtain rfl | h := List.mem_cons.1 h
      · exact .inr List.mem_cons_self
      · exact (ih h).imp_right (List.mem_cons_of_mem _)

theorem foldl_put_of_nodup (kept : List (String × α)) (h : ((kept ++ pairs).map Prod.fst).Nodup) :
    pairs.foldl (fun kept pair => put pair.1 pair.2 kept) kept = kept ++ pairs := by
  induction pairs generalizing kept with
  | nil => exact (List.append_nil kept).symm
  | cons pair rest ih =>
    have hnew : pair.1 ∉ kept.map Prod.fst := by
      rw [List.map_append, List.nodup_append'] at h
      exact fun hmem => h.2.2 hmem (List.mem_map_of_mem List.mem_cons_self)
    rw [List.foldl_cons, put_of_notMem hnew, ih (kept ++ [pair]) (by simpa using h),
      List.append_assoc, List.singleton_append]

theorem ofPairs_of_nodup (h : (pairs.map Prod.fst).Nodup) : ofPairs pairs = pairs :=
  foldl_put_of_nodup [] h

end Keyed

theorem Labels.ofPairs_entries (ls : Labels) : ofPairs ls.entries = ls := by
  simp only [ofPairs, Keyed.ofPairs_of_nodup ls.nodup]

end MetricQuery
