import MetricQuery.Proofs.Response.Parts

/-!
# The closed records of answers

`Place` lists the closed records of an answer, each with its path, its fields and the location at
which its problems are reported. However deep a record stands, a field that it does not declare is a
problem of the whole answer, and so is a field that it needs and lacks.
-/

namespace MetricQuery

open Schema Checked

namespace Response

/-! ### The closed records -/

/-- The closed records of an answer. -/
inductive Place where
  | answer
  | data
  | sample (i : Nat)
  | series (i : Nat)
  | stats
  | timings
  | counts

namespace Place

/-- Whether an answer has the record if its result is of the given kind. -/
def Fits (kind? : Option String) : Place → Prop
  | sample _ => kind? = some "vector"
  | series _ => kind? = some "matrix"
  | _ => True

def path : Place → Json.Path
  | answer => []
  | data => [.field "data"]
  | sample i => [.field "data", .field "result", .item i]
  | series i => [.field "data", .field "result", .item i]
  | stats => [.field "data", .field "stats"]
  | timings => [.field "data", .field "stats", .field "timings"]
  | counts => [.field "data", .field "stats", .field "samples"]

def declared : Place → List String
  | answer => ["status", "data", "errorType", "error", "warnings", "infos"]
  | data => ["resultType", "result", "stats"]
  | sample _ => ["metric", "value"]
  | series _ => ["metric", "values"]
  | stats => ["timings", "samples"]
  | timings => ["evalTotalTime", "resultSortTime", "queryPreparationTime", "innerEvalTime",
      "execQueueTime", "execTotalTime"]
  | counts => ["totalQueryableSamplesPerStep", "totalQueryableSamples", "peakSamples"]

def required : Place → List String
  | answer => ["status"]
  | data => ["resultType", "result"]
  | counts => ["totalQueryableSamples", "peakSamples"]
  | place => place.declared

/-- Where the problems of the fields of a record are reported: at its path, in which the kind of the
result comes after the data. -/
def location (kind? : Option String) : Place → List String
  | answer => []
  | data => "data" :: kind?.toList
  | sample i => "data" :: kind?.toList ++ ["result", toString i]
  | series i => "data" :: kind?.toList ++ ["result", toString i]
  | stats => "data" :: kind?.toList ++ ["stats"]
  | timings => "data" :: kind?.toList ++ ["stats", "timings"]
  | counts => "data" :: kind?.toList ++ ["stats", "samples"]

/-- What a record stands for. -/
def Content : Place → Type
  | answer => Response
  | data => Data
  | sample _ => LabeledSample
  | series _ => Series
  | stats => Stats
  | timings => Timings
  | counts => SampleCounts

def decode (V : Validator) : (place : Place) → Decoder place.Content
  | answer => Response.decode V
  | data => Data.decode V
  | sample _ => LabeledSample.decode V
  | series _ => Series.decode V
  | stats => Stats.decode V
  | timings => Timings.decode V
  | counts => SampleCounts.decode V

/-- Where the problems of a record are reported. The data reports its own under the kind. -/
def above (kind? : Option String) : Place → List String
  | data => ["data"]
  | place => place.location kind?

end Place

variable {V : Validator} [V.Lawful] {doc u : Json} {path : Json.Path} {R : Response}

theorem resultType?_of_data {d : Data} (h : R.data = some d) :
    R.resultType? = some d.result.typeName := by
  rw [resultType?, result?, h]
  rfl

/-! ### The way to a part -/

theorem through_data (h : decode V doc = .sound R) (hdoc : doc.Distinct)
    (hu : Json.at? (.field "data" :: path) doc = some u) (hnull : u ≠ .null) :
    ∃ d x, R.data = some d ∧ Json.at? path x = some u ∧ x.Distinct ∧
      IsPart (decode V) doc [.field "data"] (Data.decode V) ["data"] x d := by
  obtain ⟨x, hx, hu⟩ := Json.at?_cons_eq_some_iff.1 hu
  obtain ⟨d, hd, hpart⟩ := isPart_data h hdoc hx (Json.ne_null_of_at? hu hnull)
  exact ⟨d, x, hd, hu, hdoc.child hx, hpart⟩

theorem through_result (h : decode V doc = .sound R) (hdoc : doc.Distinct)
    (hu : Json.at? (.field "data" :: .field "result" :: path) doc = some u) (hnull : u ≠ .null) :
    ∃ (r : Result) (x : Json), R.resultType? = some r.typeName ∧ Json.at? path x = some u ∧
      x.Distinct ∧ IsPart (decode V) doc [.field "data", .field "result"] (r.decode V)
        ["data", r.typeName, "result"] x r := by
  obtain ⟨d, v, hd, hv, hdistinct, hpart⟩ := through_data h hdoc hu hnull
  obtain ⟨x, hx, hu⟩ := Json.at?_cons_eq_some_iff.1 hv
  exact ⟨d.result, x, resultType?_of_data hd, hu, hdistinct.child hx,
    hpart.trans (Data.isPart_result hpart.read hdistinct hx)⟩

theorem through_stats (h : decode V doc = .sound R) (hdoc : doc.Distinct)
    (hu : Json.at? (.field "data" :: .field "stats" :: path) doc = some u) (hnull : u ≠ .null) :
    ∃ name s x, R.resultType? = some name ∧ Json.at? path x = some u ∧ x.Distinct ∧
      IsPart (decode V) doc [.field "data", .field "stats"] (Stats.decode V)
        ["data", name, "stats"] x s := by
  obtain ⟨d, v, hd, hv, hdistinct, hpart⟩ := through_data h hdoc hu hnull
  obtain ⟨x, hx, hu⟩ := Json.at?_cons_eq_some_iff.1 hv
  obtain ⟨s, hstats⟩ :=
    Data.isPart_stats hpart.read hdistinct hx (Json.ne_null_of_at? hu hnull)
  exact ⟨_, s, x, resultType?_of_data hd, hu, hdistinct.child hx, hpart.trans hstats⟩

theorem through_sample {i : Nat} (h : decode V doc = .sound R) (hdoc : doc.Distinct)
    (hkind : R.resultType? = some "vector")
    (hu : Json.at? (.field "data" :: .field "result" :: .item i :: path) doc = some u)
    (hnull : u ≠ .null) : ∃ s x, Json.at? path x = some u ∧ x.Distinct ∧
      IsPart (decode V) doc [.field "data", .field "result", .item i]
        (LabeledSample.decode V) ["data", "vector", "result", toString i] x s := by
  obtain ⟨r, v, hr, hv, hdistinct, hpart⟩ := through_result h hdoc hu hnull
  obtain ⟨x, hx, hu⟩ := Json.at?_cons_eq_some_iff.1 hv
  cases r with
  | vector samples =>
    obtain ⟨s, hitem⟩ := Result.isPart_item_vector hpart.read hx
    exact ⟨s, x, hu, hdistinct.child hx, hpart.trans hitem⟩
  | _ => exact absurd (hkind.symm.trans hr) (by simp [Result.typeName])

theorem through_series {i : Nat} (h : decode V doc = .sound R) (hdoc : doc.Distinct)
    (hkind : R.resultType? = some "matrix")
    (hu : Json.at? (.field "data" :: .field "result" :: .item i :: path) doc = some u)
    (hnull : u ≠ .null) : ∃ s x, Json.at? path x = some u ∧ x.Distinct ∧
      IsPart (decode V) doc [.field "data", .field "result", .item i]
        (Series.decode V) ["data", "matrix", "result", toString i] x s := by
  obtain ⟨r, v, hr, hv, hdistinct, hpart⟩ := through_result h hdoc hu hnull
  obtain ⟨x, hx, hu⟩ := Json.at?_cons_eq_some_iff.1 hv
  cases r with
  | matrix series =>
    obtain ⟨s, hitem⟩ := Result.isPart_item_matrix hpart.read hx
    exact ⟨s, x, hu, hdistinct.child hx, hpart.trans hitem⟩
  | _ => exact absurd (hkind.symm.trans hr) (by simp [Result.typeName])

/-! ### Closed records -/

namespace Place

theorem isPart {place : Place} (h : Response.decode V doc = .sound R) (hdoc : doc.Distinct)
    (hfits : place.Fits R.resultType?) (hu : Json.at? place.path doc = some u) (hnull : u ≠ .null) :
    ∃ b, IsPart (Response.decode V) doc place.path (place.decode V)
      (place.above R.resultType?) u b := by
  cases place with
  | answer =>
    cases hu
    exact ⟨R, .refl h⟩
  | data =>
    obtain ⟨d, x, -, hx, -, hpart⟩ := through_data h hdoc hu hnull
    cases hx
    exact ⟨d, hpart⟩
  | sample i =>
    obtain ⟨s, x, hx, -, hpart⟩ := through_sample h hdoc hfits hu hnull
    cases hx
    rw [show R.resultType? = some "vector" from hfits]
    exact ⟨s, hpart⟩
  | series i =>
    obtain ⟨s, x, hx, -, hpart⟩ := through_series h hdoc hfits hu hnull
    cases hx
    rw [show R.resultType? = some "matrix" from hfits]
    exact ⟨s, hpart⟩
  | stats =>
    obtain ⟨name, s, x, hkind, hx, -, hpart⟩ := through_stats h hdoc hu hnull
    cases hx
    rw [hkind]
    exact ⟨s, hpart⟩
  | timings =>
    obtain ⟨name, s, v, hkind, hv, hdistinct, hpart⟩ := through_stats h hdoc hu hnull
    obtain ⟨x, hx, ⟨⟩⟩ := Json.at?_cons_eq_some_iff.1 hv
    rw [hkind]
    obtain ⟨t, htimings⟩ := Stats.isPart_timings hpart.read hdistinct hx hnull
    exact ⟨t, hpart.trans htimings⟩
  | counts =>
    obtain ⟨name, s, v, hkind, hv, hdistinct, hpart⟩ := through_stats h hdoc hu hnull
    obtain ⟨x, hx, ⟨⟩⟩ := Json.at?_cons_eq_some_iff.1 hv
    rw [hkind]
    obtain ⟨c, hcounts⟩ := Stats.isPart_samples hpart.read hdistinct hx hnull
    exact ⟨c, hpart.trans hcounts⟩

variable {fields fields' : Json.Fields} {key : String} {w : Json}

theorem above_of_ne {place : Place} (h : place ≠ data) {kind? : Option String} :
    place.above kind? = place.location kind? := by
  cases place with
  | data => exact absurd rfl h
  | _ => rfl

/-- What an accepted record holds. -/
theorem exists_holds {place : Place} {b : place.Content} (hnames : (fields.map Prod.fst).Nodup)
    (h : place.decode V (.record fields) = .sound b) :
    ∃ (γ : Type) (d : Declared γ) (c : γ), d.names = place.declared ∧ d.needed = place.required ∧
      d.Holds fields c ∧ ∀ field ∈ fields, field.1 ∈ d.names := by
  cases place with
  | answer => exact ⟨_, _, _, rfl, rfl, (Response.decode_eq_sound_iff hnames).1 h⟩
  | data =>
    have hlike := ((Data.decode_eq_sound_iff hnames).1 h).2
    exact ⟨_, _, _, rfl, rfl, (Data.decodeLike_eq_sound_iff hnames).1 hlike⟩
  | sample i => exact ⟨_, _, _, rfl, rfl, (LabeledSample.decode_eq_sound_iff hnames).1 h⟩
  | series i => exact ⟨_, _, _, rfl, rfl, (Series.decode_eq_sound_iff hnames).1 h⟩
  | stats => exact ⟨_, _, _, rfl, rfl, (Stats.decode_eq_sound_iff hnames).1 h⟩
  | timings => exact ⟨_, _, _, rfl, rfl, (Timings.decode_eq_sound_iff hnames).1 h⟩
  | counts => exact ⟨_, _, _, rfl, rfl, (SampleCounts.decode_eq_sound_iff hnames).1 h⟩

theorem mem_declared {place : Place} {b : place.Content} (hnames : (fields.map Prod.fst).Nodup)
    (h : place.decode V (.record fields) = .sound b) :
    ∀ name ∈ fields.map Prod.fst, name ∈ place.declared := by
  obtain ⟨γ, d, c, hdeclared, -, -, hfields⟩ := exists_holds hnames h
  rw [← hdeclared]
  exact List.forall_mem_map.2 hfields

omit [V.Lawful] in
theorem exists_build (V : Validator) {place : Place} (h : place ≠ data) :
    ∃ (γ : Type) (d : Declared γ) (build : γ → place.Content), d.names = place.declared ∧
      place.decode V = fun v => build <$> V.record d v := by
  cases place with
  | data => exact absurd rfl h
  | _ => exact ⟨_, _, _, rfl, rfl⟩

open Validator.Lawful

theorem data_unknownField {d : Data} (hnames : (fields'.map Prod.fst).Nodup)
    (htag : Json.field? fields' "resultType" = some (.text d.result.typeName))
    (hw : (key, w) ∈ fields') (hkey : key ∉ data.declared) :
    ⟨[d.result.typeName, key], .unknownField⟩ ∈ (Data.decode V (.record fields')).problems := by
  have hlike : ⟨[key], .unknownField⟩ ∈
      (Data.decodeLike V d.result (.record fields')).problems := by
    rw [Data.decodeLike, Data.decodeAs, problems_map]
    exact record_unknownField _ hnames hw hkey
  rw [Data.decode]
  exact tagged_problem hnames htag (Data.decodeAs_typeName d.result) hlike

/-- A field that a record does not declare is a problem of the whole answer. -/
theorem unknownField_mem {place : Place} (h : Response.decode V doc = .sound R)
    (hdoc : doc.Distinct) (hfits : place.Fits R.resultType?)
    (hu : Json.at? place.path doc = some (.record fields))
    (hadds : Json.Adds fields key w fields') (hkey : key ∉ place.declared) :
    ⟨place.location R.resultType? ++ [key], .unknownField⟩ ∈
      (Response.decode V (Json.setAt (.record fields') place.path doc)).problems := by
  have hfields := (hdoc.of_at? hu).nodup
  obtain ⟨b, hpart⟩ := place.isPart h hdoc hfits hu (Json.record_ne_null _)
  have hnames : (fields'.map Prod.fst).Nodup :=
    hadds.nodup hfields fun hmem => hkey (mem_declared hfields hpart.read key hmem)
  by_cases hdata : place = data
  · subst hdata
    obtain ⟨d, x, hd, ⟨⟩, -, hpart⟩ := through_data h hdoc hu (Json.record_ne_null _)
    have hne : key ≠ "resultType" := fun heq => hkey (heq ▸ List.mem_cons_self)
    have htag := ((Data.decode_eq_sound_iff hfields).1 hpart.read).1
    rw [resultType?_of_data hd]
    exact hpart.reports (Json.record_ne_null _)
      (data_unknownField hnames ((hadds.field?_of_ne hne).trans htag) hadds.mem hkey)
  · obtain ⟨γ, d, build, hdeclared, hbuild⟩ := exists_build V hdata
    have hproblem : ⟨[key], .unknownField⟩ ∈ (place.decode V (.record fields')).problems := by
      rw [hbuild, problems_map]
      exact record_unknownField d hnames hadds.mem (hdeclared ▸ hkey)
    rw [← above_of_ne hdata]
    exact hpart.reports (Json.record_ne_null _) hproblem

/-- Without a field that a record needs, the answer is not accepted. -/
theorem not_sound_without {place : Place} (h : Response.decode V doc = .sound R)
    (hdoc : doc.Distinct) (hfits : place.Fits R.resultType?)
    (hu : Json.at? place.path doc = some (.record fields)) (hkey : key ∈ place.required) :
    ¬ ∃ R', Response.decode V
      (Json.setAt (.record (Json.without key fields)) place.path doc) = .sound R' := by
  obtain ⟨b, hpart⟩ := place.isPart h hdoc hfits hu (Json.record_ne_null _)
  rw [hpart.accepts_iff (Json.record_ne_null _)]
  rintro ⟨b', hb'⟩
  obtain ⟨γ, d, c, -, hneeded, hholds, -⟩ :=
    exists_holds (Json.nodup_without (hdoc.of_at? hu).nodup key) hb'
  obtain ⟨u, hu⟩ := hholds.exists_field (hneeded ▸ hkey)
  rw [Json.field?_without, if_pos rfl] at hu
  cases hu

end Place

end Response
end MetricQuery
