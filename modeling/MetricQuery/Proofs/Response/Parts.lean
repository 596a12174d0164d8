import MetricQuery.Proofs.Response.Decode
import MetricQuery.Proofs.Schema.Part

/-!
# Parts of answers

Which values of an answer are its parts, record by record: the data, the result in it and the
samples or series in that, the statistics, the labels.
-/

namespace MetricQuery

open Schema Checked

variable {V : Validator} [V.Lawful] {v u : Json} {i : Nat}

theorem LabeledSample.isPart_metric {s : LabeledSample} (h : decode V v = .sound s)
    (hv : v.Distinct) (hu : Json.child? (.field "metric") v = some u) (hnull : u ≠ .null) :
    ∃ ls, IsPart (decode V) v [.field "metric"] V.labels ["metric"] u ls :=
  exists_isPart_field h hv (by simp [declared, Declared.names]) (.head _) hu hnull

theorem LabeledSample.isPart_value {s : LabeledSample} (h : decode V v = .sound s)
    (hv : v.Distinct) (hu : Json.child? (.field "value") v = some u) (hnull : u ≠ .null) :
    ∃ s, IsPart (decode V) v [.field "value"] (Sample.decode V) ["value"] u s :=
  exists_isPart_field h hv (by simp [declared, Declared.names]) (.tail _ (.head _)) hu hnull

theorem Series.isPart_metric {s : Series} (h : decode V v = .sound s) (hv : v.Distinct)
    (hu : Json.child? (.field "metric") v = some u) (hnull : u ≠ .null) :
    ∃ ls, IsPart (decode V) v [.field "metric"] V.labels ["metric"] u ls :=
  exists_isPart_field h hv (by simp [declared, Declared.names]) (.head _) hu hnull

theorem Series.isPart_values {s : Series} (h : decode V v = .sound s) (hv : v.Distinct)
    (hu : Json.child? (.field "values") v = some u) (hnull : u ≠ .null) : ∃ samples,
    IsPart (decode V) v [.field "values"] (V.list (Sample.decode V)) ["values"] u samples :=
  exists_isPart_field h hv (by simp [declared, Declared.names]) (.tail _ (.head _)) hu hnull

theorem Stats.isPart_timings {s : Stats} (h : decode V v = .sound s) (hv : v.Distinct)
    (hu : Json.child? (.field "timings") v = some u) (hnull : u ≠ .null) :
    ∃ t, IsPart (decode V) v [.field "timings"] (Timings.decode V) ["timings"] u t :=
  exists_isPart_field h hv (by simp [declared, Declared.names]) (.head _) hu hnull

theorem Stats.isPart_samples {s : Stats} (h : decode V v = .sound s) (hv : v.Distinct)
    (hu : Json.child? (.field "samples") v = some u) (hnull : u ≠ .null) :
    ∃ c, IsPart (decode V) v [.field "samples"] (SampleCounts.decode V) ["samples"] u c :=
  exists_isPart_field h hv (by simp [declared, Declared.names]) (.tail _ (.head _)) hu hnull

namespace Result

theorem isPart_item_vector {samples : List LabeledSample}
    (h : (vector samples).decode V v = .sound (vector samples))
    (hu : Json.child? (.item i) v = some u) : ∃ s,
    IsPart ((vector samples).decode V) v [.item i] (LabeledSample.decode V) [toString i] u s := by
  obtain ⟨_, hlist, -⟩ := map_eq_sound_iff.1 h
  obtain ⟨s, hpart⟩ := exists_isPart_item hlist hu
  exact ⟨s, hpart.mapped vector⟩

theorem isPart_item_matrix {series : List Series}
    (h : (matrix series).decode V v = .sound (matrix series))
    (hu : Json.child? (.item i) v = some u) : ∃ s,
    IsPart ((matrix series).decode V) v [.item i] (Series.decode V) [toString i] u s := by
  obtain ⟨_, hlist, -⟩ := map_eq_sound_iff.1 h
  obtain ⟨s, hpart⟩ := exists_isPart_item hlist hu
  exact ⟨s, hpart.mapped matrix⟩

omit [V.Lawful] in
theorem isPart_scalar {s : Sample} (h : (scalar s).decode V v = .sound (scalar s)) :
    IsPart ((scalar s).decode V) v [] (Sample.decode V) [] v s := by
  obtain ⟨_, hs, ⟨⟩⟩ := map_eq_sound_iff.1 h
  exact (IsPart.refl hs).mapped scalar

omit [V.Lawful] in
theorem isPart_string {s : Sample} (h : (string s).decode V v = .sound (string s)) :
    IsPart ((string s).decode V) v [] (Sample.decode V) [] v s := by
  obtain ⟨_, hs, ⟨⟩⟩ := map_eq_sound_iff.1 h
  exact (IsPart.refl hs).mapped string

end Result

namespace Data

theorem exists_decode {d : Data} (h : decode V v = .sound d) (hv : v.Distinct) :
    ∃ fields, v = .record fields ∧
      Json.field? fields "resultType" = some (.text d.result.typeName) ∧
      decodeLike V d.result (.record fields) = .sound d := by
  obtain ⟨fields, rfl⟩ := Validator.Lawful.exists_tagged_of_sound h
  exact ⟨fields, rfl, (decode_eq_sound_iff hv.nodup).1 h⟩

omit [V.Lawful] in
theorem decodeAs_typeName (r : Result) :
    (Result.decoder? V r.typeName).map (decodeAs V r.typeName) = some (decodeLike V r) := by
  rw [Result.decoder?_typeName]
  rfl

theorem isPart_result {d : Data} (h : decode V v = .sound d) (hv : v.Distinct)
    (hu : Json.child? (.field "result") v = some u) :
    IsPart (decode V) v [.field "result"] (d.result.decode V) [d.result.typeName, "result"] u
      d.result := by
  obtain ⟨fields, rfl, htag, hd⟩ := exists_decode h hv
  obtain ⟨c, hc, -⟩ := map_eq_sound_iff.1 hd
  obtain ⟨⟨-, ⟨w, hw, hread⟩, -⟩, -⟩ := (decodeLike_eq_sound_iff hv.nodup).1 hd
  cases hw.symm.trans hu
  refine isPart_of_tag hv.nodup htag (decodeAs_typeName d.result) (by simp) ?_
  exact (isPart_field hc hv.nodup (by simp [declared, Declared.names]) (.tail _ (.head _)) hu
    hread).mapped _

theorem isPart_stats {d : Data} (h : decode V v = .sound d) (hv : v.Distinct)
    (hu : Json.child? (.field "stats") v = some u) (hnull : u ≠ .null) : ∃ s,
    IsPart (decode V) v [.field "stats"] (Stats.decode V) [d.result.typeName, "stats"] u s := by
  obtain ⟨fields, rfl, htag, hd⟩ := exists_decode h hv
  obtain ⟨s, hpart⟩ := exists_isPart_field hd hv (by simp [declared, Declared.names])
    (.tail _ (.tail _ (.head _))) hu hnull
  exact ⟨s, isPart_of_tag hv.nodup htag (decodeAs_typeName d.result) (by simp) hpart⟩

end Data

theorem Response.isPart_data {R : Response} (h : decode V v = .sound R) (hv : v.Distinct)
    (hu : Json.child? (.field "data") v = some u) (hnull : u ≠ .null) : ∃ d, R.data = some d ∧
    IsPart (decode V) v [.field "data"] (Data.decode V) ["data"] u d := by
  obtain ⟨fields, rfl⟩ := exists_record_of_map h
  obtain ⟨⟨-, hdata, -⟩, -⟩ := (decode_eq_sound_iff hv.nodup).1 h
  rw [Json.given?_of_field? hu hnull] at hdata
  obtain ⟨d, hd, hread⟩ := exists_of_rel_some hdata
  obtain ⟨c, hc, -⟩ := map_eq_sound_iff.1 h
  exact ⟨d, hd, (isPart_field hc hv.nodup (by simp [declared, Declared.names])
    (.tail _ (.head _)) hu hread).mapped _⟩

end MetricQuery
