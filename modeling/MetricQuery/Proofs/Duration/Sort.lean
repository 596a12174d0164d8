import Mathlib.Data.List.Sort
import MetricQuery.Duration.Basic

/-!
# Canonical order of durations

`Duration.sort` is the stable sort by the rank of the unit: the result is a permutation, the ranks
do not fall, and durations of one unit keep their order.
-/

namespace MetricQuery

theorem TimeUnit.mem_all (u : TimeUnit) : u ∈ TimeUnit.all := by cases u <;> decide

theorem TimeUnit.pairwise_all : TimeUnit.all.Pairwise (·.rank < ·.rank) := by decide

theorem TimeUnit.rank_injective : Function.Injective TimeUnit.rank := by
  intro u v h
  cases u <;> cases v <;> first | rfl | simp [TimeUnit.rank] at h

namespace Duration

/-- The durations of a unit among groups of durations, one group for each of some units. -/
theorem filter_flatMap_filter {units : List TimeUnit} (hnodup : units.Nodup) (ds : List Duration)
    (u : TimeUnit) :
    (units.flatMap fun v => ds.filter (·.unit = v)).filter (·.unit = u) =
      if u ∈ units then ds.filter (·.unit = u) else [] := by
  induction units with
  | nil => rfl
  | cons v units ih =>
    obtain ⟨hv, hnodup⟩ := List.nodup_cons.1 hnodup
    rw [List.flatMap_cons, List.filter_append, List.filter_filter, ih hnodup]
    by_cases huv : u = v
    · subst huv
      simp [hv]
    · have hnone : ds.filter (fun d => decide (d.unit = u) && decide (d.unit = v)) = [] := by
        refine List.filter_eq_nil_iff.2 fun d _ hd => ?_
        simp only [Bool.and_eq_true, decide_eq_true_eq] at hd
        exact huv (hd.1.symm.trans hd.2)
      simp [hnone, huv]

theorem filter_sort (ds : List Duration) (u : TimeUnit) :
    (sort ds).filter (·.unit = u) = ds.filter (·.unit = u) := by
  rw [sort, filter_flatMap_filter (by decide), if_pos u.mem_all]

theorem sort_perm (ds : List Duration) : (sort ds).Perm ds := by
  refine List.perm_iff_count.2 fun d => ?_
  calc (sort ds).count d
      = ((sort ds).filter (·.unit = d.unit)).count d := (List.count_filter (by simp)).symm
    _ = (ds.filter (·.unit = d.unit)).count d := by rw [filter_sort]
    _ = ds.count d := List.count_filter (by simp)

theorem pairwise_sort (ds : List Duration) : (sort ds).Pairwise (·.unit.rank ≤ ·.unit.rank) := by
  refine List.pairwise_flatMap.2 ⟨fun u _ => ?_, TimeUnit.pairwise_all.imp ?_⟩
  · refine List.Pairwise.imp_of_mem ?_ (List.pairwise_of_forall fun _ _ => trivial)
    intro a b ha hb _
    simp only [List.mem_filter, decide_eq_true_eq] at ha hb
    rw [ha.2, hb.2]
  · intro u v huv a ha b hb
    simp only [List.mem_filter, decide_eq_true_eq] at ha hb
    rw [ha.2, hb.2]
    exact Nat.le_of_lt huv

/-- Two lists have the same canonical order exactly when they agree on the durations of each
unit. -/
theorem sort_eq_sort_iff {ds es : List Duration} :
    sort ds = sort es ↔ ∀ u : TimeUnit, ds.filter (·.unit = u) = es.filter (·.unit = u) := by
  constructor
  · intro h u
    rw [← filter_sort ds, h, filter_sort]
  · intro h
    simp only [sort, h]

theorem sort_sort (ds : List Duration) : sort (sort ds) = sort ds :=
  sort_eq_sort_iff.2 (filter_sort ds)

/-- Durations of distinct units come in strictly canonical order. -/
theorem pairwise_sort_of_nodup {ds : List Duration} (h : (ds.map Duration.unit).Nodup) :
    (sort ds).Pairwise (·.unit.rank < ·.unit.rank) := by
  have hnodup : ((sort ds).map Duration.unit).Nodup :=
    ((sort_perm ds).map Duration.unit).nodup_iff.2 h
  refine (List.pairwise_map.1 hnodup).imp₂ (fun a b hne hle => ?_) (pairwise_sort ds)
  exact Nat.lt_of_le_of_ne hle fun heq => hne (TimeUnit.rank_injective heq)

/-- The canonical order of durations of distinct units is the only strictly increasing one. -/
theorem eq_sort_iff {ds es : List Duration} (h : (ds.map Duration.unit).Nodup) :
    es = sort ds ↔ es.Perm ds ∧ es.Pairwise (·.unit.rank < ·.unit.rank) := by
  constructor
  · rintro rfl
    exact ⟨sort_perm ds, pairwise_sort_of_nodup h⟩
  · rintro ⟨hperm, hpairwise⟩
    refine (hperm.trans (sort_perm ds).symm).eq_of_pairwise (fun a b _ _ hab hba => ?_) hpairwise
      (pairwise_sort_of_nodup h)
    exact absurd hab (Nat.lt_asymm hba)

end Duration
end MetricQuery
