import Mathlib.Data.List.Induction
import MetricQuery.Proofs.Duration.Grammar

/-!
# Written durations are read back

The text of a compound duration is the row of the pieces of its durations in canonical order. When
the units are distinct the reader gives that order back, else it stops at a repeated unit.
-/

namespace MetricQuery

namespace Piece

/-- The piece that is written for a duration. -/
def ofDuration (d : Duration) : Piece := ⟨Digit.write d.amount, d.unit⟩

@[simp] theorem duration_ofDuration (d : Duration) : (ofDuration d).duration = d := by
  rw [duration, ofDuration, Digit.ofDigitChars_write]

theorem wellFormed_ofDuration (d : Duration) : (ofDuration d).WellFormed :=
  ⟨Digit.write_ne_nil d.amount, fun _ => Digit.isDigit_of_mem_write⟩

theorem sound_ofDuration {d : Duration} (h : d.amount < tenTo 4300) : (ofDuration d).Sound :=
  ⟨wellFormed_ofDuration d, (Digit.count_le_iff (k := 4300) (by decide)).2 h⟩

theorem ofDuration_injective : Function.Injective ofDuration := fun d e h => by
  rw [← duration_ofDuration d, h, duration_ofDuration]

/-! ### Rows with repeated units -/

theorem Row.split {ps qs : List Piece} {cs rest : List Char} (h : Row (ps ++ qs) cs rest) :
    ∃ mid, Row ps cs mid ∧ Row qs mid rest := by
  induction ps generalizing cs with
  | nil => exact ⟨cs, .nil cs, h⟩
  | cons p ps ih =>
    cases h with
    | cons hlead hrow =>
      obtain ⟨mid, hps, hqs⟩ := ih hrow
      exact ⟨mid, .cons hlead hps, hqs⟩

/-- Among pieces whose units are not distinct, one is the first with the unit of an earlier one. -/
theorem exists_first_repeated {ps : List Piece} (h : ¬ (ps.map unit).Nodup) :
    ∃ good p tail, ps = good ++ p :: tail ∧ (good.map unit).Nodup ∧ p.unit ∈ good.map unit := by
  -- From the right, since the units before the one that repeats have to be distinct.
  induction ps using List.reverseRecOn with
  | nil => exact absurd .nil h
  | append_singleton ps p ih =>
    by_cases hps : (ps.map unit).Nodup
    · refine ⟨ps, p, [], rfl, hps, ?_⟩
      by_contra hp
      refine h ?_
      rw [List.map_append, List.map_singleton, List.nodup_append]
      exact ⟨hps, List.nodup_singleton _, fun a ha b hb hab =>
        hp (List.mem_singleton.1 hb ▸ hab ▸ ha)⟩
    · obtain ⟨good, q, tail, rfl, hgood, hq⟩ := ih hps
      exact ⟨good, q, tail ++ [p], by simp, hgood, hq⟩

/-- A row of sound pieces up to the end of a text has its first defect at a repeated unit when the
units are not distinct. -/
theorem Row.firstDefect {ps : List Piece} {cs : List Char} (hrow : Row ps cs [])
    (hsound : ∀ p ∈ ps, p.Sound) (h : ¬ (ps.map unit).Nodup) :
    ∃ u, 2 ≤ (ps.map unit).count u ∧ FirstDefect cs (.repeated u) := by
  obtain ⟨good, p, tail, rfl, hgood, hp⟩ := exists_first_repeated h
  obtain ⟨mid, hbefore, hrest⟩ := hrow.split
  refine ⟨p.unit, ?_, ?_⟩
  · have := List.count_pos_iff.2 hp
    rw [List.map_append, List.count_append, List.map_cons, List.count_cons_self]
    omega
  · cases hrest with
    | cons hlead _ =>
      refine .after hbefore ⟨fun q hq => ?_, hgood, fun _ _ => List.not_mem_nil⟩
        (.repeated hlead hp)
      exact hsound q (List.mem_append_left _ hq)

end Piece

namespace Duration
open Piece

/-! ### Writing and reading -/

theorem row_write (ds : List Duration) :
    Row ((sort ds).map ofDuration) (write ds).toList [] := by
  have htext : (write ds).toList = ((sort ds).map ofDuration).flatMap Piece.text := by
    rw [write, String.toList_ofList, List.flatMap_map]
    rfl
  rw [htext]
  refine row_flatMap fun p hp => ?_
  obtain ⟨d, -, rfl⟩ := List.mem_map.1 hp
  exact wellFormed_ofDuration d

theorem map_unit_ofDuration (ds : List Duration) :
    (ds.map ofDuration).map Piece.unit = ds.map Duration.unit := by
  rw [List.map_map]
  rfl

theorem sound_of_mem_sort {ds : List Duration} (hds : ∀ d ∈ ds, d.amount < tenTo 4300) :
    ∀ p ∈ (sort ds).map ofDuration, p.Sound := by
  intro p hp
  obtain ⟨d, hd, rfl⟩ := List.mem_map.1 hp
  exact sound_ofDuration (hds d ((sort_perm ds).mem_iff.1 hd))

theorem format_eq {ds : List Duration} (hds : ∀ d ∈ ds, d.amount < tenTo 4300) :
    format ds = .ok (write ds) := by
  refine if_pos (List.all_eq_true.2 fun d hd => ?_)
  exact decide_eq_true ((Digit.count_le_iff (k := 4300) (by decide)).2 (hds d hd))

theorem write_sort (ds : List Duration) : write (sort ds) = write ds := by
  rw [write, sort_sort, ← write]

theorem amount_lt_of_isDecomposition {ps : List Piece} {cs : List Char}
    (h : IsDecomposition ps cs) : ∀ d ∈ ps.map Piece.duration, d.amount < tenTo 4300 := by
  intro d hd
  obtain ⟨p, hp, rfl⟩ := List.mem_map.1 hd
  obtain ⟨⟨-, hdigits⟩, hlength⟩ := h.sound p hp
  exact Nat.lt_of_lt_of_le (Digit.ofDigitChars_lt hdigits) (tenTo_mono hlength)

/-- What is read can be written. -/
theorem format_of_isDecomposition {ps : List Piece} {cs : List Char} (h : IsDecomposition ps cs) :
    format (sort (ps.map Piece.duration)) = .ok (write (ps.map Piece.duration)) := by
  rw [format_eq, write_sort]
  exact fun d hd => amount_lt_of_isDecomposition h d ((sort_perm _).mem_iff.1 hd)

theorem eq_write_of_format {ds : List Duration} {s : String} (h : format ds = .ok s) :
    s = write ds := by
  unfold format at h
  split at h
  · exact (Except.ok.inj h).symm
  · cases h

theorem isAlphanum_of_mem_write {ds : List Duration} {c : Char} (h : c ∈ (write ds).toList) :
    c.isAlphanum := by
  rw [write, String.toList_ofList] at h
  obtain ⟨d, -, hc⟩ := List.mem_flatMap.1 h
  rcases List.mem_append.1 hc with hc | hc
  · simp [Char.isAlphanum, Digit.isDigit_of_mem_write hc]
  · exact d.unit.isAlphanum_of_mem_suffix c hc

theorem read_write {ds : List Duration} (hne : ds ≠ []) (hds : ∀ d ∈ ds, d.amount < tenTo 4300)
    (hdistinct : (ds.map Duration.unit).Nodup) : read (write ds).toList = .ok (sort ds) := by
  have hrow := row_write ds
  have hunits : (((sort ds).map ofDuration).map Piece.unit).Nodup := by
    rw [map_unit_ofDuration]
    exact ((sort_perm ds).map Duration.unit).nodup_iff.2 hdistinct
  have hdecomposition : IsDecomposition ((sort ds).map ofDuration) (write ds).toList := by
    refine ⟨fun h => hne ?_, sound_of_mem_sort hds, hunits, ?_⟩
    · exact (List.map_eq_nil_iff.1 h ▸ sort_perm ds).nil_eq.symm
    · simpa using hrow.flatMap_append.symm
  have hdurations : ((sort ds).map ofDuration).map Piece.duration = sort ds := by
    simp [Function.comp_def]
  rw [read_of_isDecomposition hdecomposition, hdurations, sort_sort]

theorem read_write_of_repeated {ds : List Duration} (hds : ∀ d ∈ ds, d.amount < tenTo 4300)
    (hrepeated : ¬ (ds.map Duration.unit).Nodup) :
    ∃ u, 2 ≤ (ds.map Duration.unit).count u ∧ read (write ds).toList = .error (.repeated u) := by
  have hunits := (sort_perm ds).map Duration.unit
  obtain ⟨u, hu, hdefect⟩ := (row_write ds).firstDefect (sound_of_mem_sort hds)
    (by rwa [map_unit_ofDuration, hunits.nodup_iff])
  rw [map_unit_ofDuration, hunits.count_eq] at hu
  exact ⟨u, hu, read_of_firstDefect hdefect⟩

/-- The text of a compound duration determines the durations of each unit in their order, and
nothing else. -/
theorem write_eq_write_iff {ds es : List Duration} :
    write ds = write es ↔ ∀ u : TimeUnit, ds.filter (·.unit = u) = es.filter (·.unit = u) := by
  rw [← sort_eq_sort_iff]
  constructor
  · intro h
    have hrow := row_write es
    rw [← h] at hrow
    exact List.map_injective_iff.2 ofDuration_injective ((row_write ds).unique hrow)
  · intro h
    rw [write, write, h]

/-- **Written durations are read back.** Durations of distinct units come back in canonical order;
if a unit is repeated the reader says which. The texts of two compound durations are equal exactly
when the durations of each unit are. -/
theorem format_round_trip {ds es : List Duration} (hds : ∀ d ∈ ds, d.amount < tenTo 4300)
    (hes : ∀ d ∈ es, d.amount < tenTo 4300) :
    (ds ≠ [] → ∃ s, format ds = .ok s ∧
      ((ds.map unit).Nodup → (Value.text s).durations = .ok (sort ds) ∧ (sort ds).Perm ds ∧
        (sort ds).Pairwise (·.unit.rank < ·.unit.rank)) ∧
      (¬ (ds.map unit).Nodup → ∃ u e, 2 ≤ (ds.map unit).count u ∧
        (Value.text s).durations = .error e ∧ (DurationFault.repeated u).ReportedBy s e)) ∧
    (format ds = format es ↔
      ∀ u : TimeUnit, ds.filter (·.unit = u) = es.filter (·.unit = u)) := by
  rw [format_eq hds, format_eq hes]
  refine ⟨fun hne => ⟨write ds, rfl, fun hdistinct => ?_, fun hrepeated => ?_⟩, ?_⟩
  · refine ⟨?_, sort_perm ds, pairwise_sort_of_nodup hdistinct⟩
    rw [Value.durations, read_write hne hds hdistinct]
    rfl
  · obtain ⟨u, hu, hread⟩ := read_write_of_repeated hds hrepeated
    refine ⟨u, .duration (.text (write ds)) (.repeated u), hu, ?_, rfl, rfl⟩
    rw [Value.durations, hread]
    rfl
  · rw [Except.ok.injEq, write_eq_write_iff]

/-- Durations against canonical order. -/
def backwards : List Duration := [⟨500, .millis⟩, ⟨5, .minutes⟩]

/-- Durations of one unit. -/
def doubled : List Duration := [⟨2, .minutes⟩, ⟨1, .minutes⟩]

theorem format_round_trip_backwards_doubled :
    (∀ d ∈ backwards, d.amount < tenTo 4300) ∧ (∀ d ∈ doubled, d.amount < tenTo 4300) ∧
    format backwards = .ok "5m500ms" ∧ format doubled = .ok "2m1m" ∧
    (Value.text "5m500ms").durations = .ok [⟨5, .minutes⟩, ⟨500, .millis⟩] ∧
    (∃ u e, 2 ≤ (doubled.map unit).count u ∧ (Value.text "2m1m").durations = .error e ∧
      (DurationFault.repeated u).ReportedBy "2m1m" e) ∧
    format backwards ≠ format doubled := by
  have hsmall {n : ℕ} (h : n < tenTo 3) : n < tenTo 4300 :=
    Nat.lt_of_lt_of_le h (tenTo_mono (by decide))
  have hbackwards : ∀ d ∈ backwards, d.amount < tenTo 4300 :=
    fun d hd => hsmall ((by decide : ∀ d ∈ backwards, d.amount < tenTo 3) d hd)
  have hdoubled : ∀ d ∈ doubled, d.amount < tenTo 4300 :=
    fun d hd => hsmall ((by decide : ∀ d ∈ doubled, d.amount < tenTo 3) d hd)
  obtain ⟨hread, heq⟩ := format_round_trip hbackwards hdoubled
  obtain ⟨s, hs, hdistinct, -⟩ := hread (by decide)
  obtain ⟨t, ht, -, hrepeated⟩ := (format_round_trip hdoubled hbackwards).1 (by decide)
  have hformat : format backwards = .ok "5m500ms" := rfl
  have hformat' : format doubled = .ok "2m1m" := rfl
  obtain rfl := Except.ok.inj (hs.symm.trans hformat)
  obtain rfl := Except.ok.inj (ht.symm.trans hformat')
  refine ⟨hbackwards, hdoubled, hformat, hformat', (hdistinct (by decide)).1,
    hrepeated (by decide), fun h => ?_⟩
  exact absurd (heq.1 h .millis) (by decide)

end Duration
end MetricQuery
