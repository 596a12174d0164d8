import MetricQuery.Proofs.Response.Document
import MetricQuery.Proofs.Response.Places
import MetricQuery.Proofs.Response.Records

/-!
# The schema of answers is strict

A field that a record does not declare, a field that it needs and lacks, and a sample that is no
pair of a time and a text make the whole answer refused, however deep they stand. Only the labels
are open: they and the closed records are all the records of an answer.
-/

namespace MetricQuery
namespace Response

open Schema Checked

variable {V : Validator} {L : Library} {source : Source} {doc u : Json} {R : Response}

/-! ### Refused documents -/

/-- Every payload with the document is refused. -/
def Refused (L : Library) (source : Source) (v : Json) : Prop :=
  ∀ p : Payload, p.Holds L source v → ∃ ps, readBy L p = .error (.problems ps)

/-- Every payload with the document is refused, for the given problem among others. -/
def RefusedFor (problem : Problem) (L : Library) (source : Source) (v : Json) : Prop :=
  ∀ p : Payload, p.Holds L source v → ∃ ps, readBy L p = .error (.problems ps) ∧ problem ∈ ps

theorem refusedFor_of_mem {problem : Problem}
    (h : problem ∈ (decode (L.validator source) doc).problems) :
    RefusedFor problem L source doc := by
  intro p hp
  obtain ⟨ps, herror, hmem⟩ := toExcept_of_mem_problems h
  exact ⟨ps, by rw [readBy_of_holds hp, herror]; rfl, hmem⟩

theorem refused_of_not_sound (h : ¬ ∃ R, decode (L.validator source) doc = .sound R) :
    Refused L source doc := by
  intro p hp
  obtain ⟨ps, herror⟩ := exists_toExcept_eq_error h
  exact ⟨ps, by rw [readBy_of_holds hp, herror]; rfl⟩

variable [V.Lawful]

/-! ### Samples -/

/-- The samples of an answer: those of a vector, the points of the series of a matrix, or the only
one. -/
inductive SamplePlace where
  | value (i : Nat)
  | point (i j : Nat)
  | single

namespace SamplePlace

/-- Whether an answer has the sample if its result is of the given kind. -/
def Fits (kind? : Option String) : SamplePlace → Prop
  | value _ => kind? = some "vector"
  | point _ _ => kind? = some "matrix"
  | single => kind? = some "scalar" ∨ kind? = some "string"

def path : SamplePlace → Json.Path
  | value i => [.field "data", .field "result", .item i, .field "value"]
  | point i j => [.field "data", .field "result", .item i, .field "values", .item j]
  | single => [.field "data", .field "result"]

theorem isPart {place : SamplePlace} (h : Response.decode V doc = .sound R) (hdoc : doc.Distinct)
    (hfits : place.Fits R.resultType?) (hu : Json.at? place.path doc = some u) (hnull : u ≠ .null) :
    ∃ location s, IsPart (Response.decode V) doc place.path (Sample.decode V) location
      u s := by
  cases place with
  | value i =>
    obtain ⟨s, v, hv, hdistinct, hpart⟩ := through_sample h hdoc hfits hu hnull
    obtain ⟨x, hx, ⟨⟩⟩ := Json.at?_cons_eq_some_iff.1 hv
    obtain ⟨sample, hsample⟩ := LabeledSample.isPart_value hpart.read hdistinct hx hnull
    exact ⟨_, sample, hpart.trans hsample⟩
  | point i j =>
    obtain ⟨s, v, hv, hdistinct, hpart⟩ := through_series h hdoc hfits hu hnull
    obtain ⟨w, hw, hwu⟩ := Json.at?_cons_eq_some_iff.1 hv
    obtain ⟨x, hx, ⟨⟩⟩ := Json.at?_cons_eq_some_iff.1 hwu
    obtain ⟨samples, hvalues⟩ :=
      Series.isPart_values hpart.read hdistinct hw (Json.ne_null_of_child? hx)
    obtain ⟨point, hpoint⟩ := exists_isPart_item hvalues.read hx
    exact ⟨_, point, (hpart.trans hvalues).trans hpoint⟩
  | single =>
    obtain ⟨r, x, hr, ⟨⟩, -, hpart⟩ := through_result h hdoc hu hnull
    cases r with
    | scalar s => exact ⟨_, s, hpart.trans (Result.isPart_scalar hpart.read)⟩
    | string s => exact ⟨_, s, hpart.trans (Result.isPart_string hpart.read)⟩
    | vector samples | matrix series =>
      rw [Fits, hr] at hfits
      simp [Result.typeName] at hfits

/-- With anything but a time and a text in place of a sample, the answer is not accepted. -/
theorem not_sound_replaced {place : SamplePlace} {old items : List Json}
    (h : Response.decode V doc = .sound R) (hdoc : doc.Distinct) (hfits : place.Fits R.resultType?)
    (hu : Json.at? place.path doc = some (.list old)) (hitems : ¬ ∃ t s, items = [t, .text s]) :
    ¬ ∃ R', Response.decode V (Json.setAt (.list items) place.path doc) = .sound R' := by
  obtain ⟨location, s, hpart⟩ := place.isPart h hdoc hfits hu (Json.list_ne_null _)
  rw [hpart.accepts_iff (Json.list_ne_null _)]
  rintro ⟨s', hs'⟩
  obtain ⟨t, ht, -⟩ := Sample.decode_eq_sound_iff.1 hs'
  exact hitems ⟨t, s'.value, Json.list.inj ht⟩

end SamplePlace

/-! ### Labels -/

theorem isPart_labels {i : Nat} (h : decode V doc = .sound R) (hdoc : doc.Distinct)
    (hu : Json.at? (labelsPath i) doc = some u) (hnull : u ≠ .null) :
    ∃ location ls, IsPart (decode V) doc (labelsPath i) V.labels location u ls := by
  obtain ⟨r, v, -, hv, hdistinct, hpart⟩ := through_result h hdoc hu hnull
  obtain ⟨w, hw, hwu⟩ := Json.at?_cons_eq_some_iff.1 hv
  obtain ⟨x, hx, ⟨⟩⟩ := Json.at?_cons_eq_some_iff.1 hwu
  cases r with
  | vector samples =>
    obtain ⟨s, hitem⟩ := Result.isPart_item_vector hpart.read hw
    obtain ⟨ls, hmetric⟩ := LabeledSample.isPart_metric hitem.read (hdistinct.child hw) hx hnull
    exact ⟨_, ls, (hpart.trans hitem).trans hmetric⟩
  | matrix series =>
    obtain ⟨s, hitem⟩ := Result.isPart_item_matrix hpart.read hw
    obtain ⟨ls, hmetric⟩ := Series.isPart_metric hitem.read (hdistinct.child hw) hx hnull
    exact ⟨_, ls, (hpart.trans hitem).trans hmetric⟩
  | scalar s | string s =>
    obtain ⟨_, hs, -⟩ := map_eq_sound_iff.1 hpart.read
    obtain ⟨fields, rfl, -⟩ := Json.child?_field_eq_some_iff.1 hx
    have hrecord : Json.at? [.item i] v = some (.record fields) :=
      Json.at?_cons_eq_some_iff.2 ⟨_, hw, rfl⟩
    exact (Sample.flat hdistinct hs hrecord).elim

/-- One more label is a label, wherever it is added. -/
theorem labels_adds {fields fields' : Json.Fields} {name s : String} {ls : Labels}
    (h : V.labels (.record fields) = .sound ls) (hadds : Json.Adds fields name (.text s) fields') :
    ∃ ls', V.labels (.record fields') = .sound ls' := by
  obtain ⟨front, back, hfields, rfl⟩ := hadds
  obtain ⟨pairs, ⟨⟩⟩ := (Validator.Lawful.exists_labels_iff _).1 ⟨ls, h⟩
  obtain ⟨lsFront, lsBack, -, rfl, rfl⟩ := List.map_eq_append_iff.1 hfields
  refine (Validator.Lawful.exists_labels_iff _).2 ⟨lsFront ++ (name, s) :: lsBack, ?_⟩
  rw [labelsFields, List.map_append, List.map_cons]

theorem sound_with_label {i : Nat} {fields fields' : Json.Fields} {name s : String}
    (h : decode V doc = .sound R) (hdoc : doc.Distinct)
    (hu : Json.at? (labelsPath i) doc = some (.record fields))
    (hadds : Json.Adds fields name (.text s) fields') :
    ∃ R', decode V (Json.setAt (.record fields') (labelsPath i) doc) = .sound R' := by
  obtain ⟨location, ls, hpart⟩ := isPart_labels h hdoc hu (Json.record_ne_null _)
  exact (hpart.accepts_iff (Json.record_ne_null _)).2 (labels_adds hpart.read hadds)

/-! ### The whole schema -/

/-- **The schema of answers is strict at every level.** Of an answer that is accepted, and in which
no name stands twice in a record, take any closed record: with a field more that it does not
declare, the answer is refused for an unknown field at that place; with a field less of those that
it needs, it is refused. It is refused too with any other list than a time and a text in place of a
sample. One more label is accepted, and labels are the only records that are not closed. -/
theorem read_strict (L : Library) [∀ source, (L.validator source).Lawful] {p : Payload}
    (hp : p.Holds L source doc) (hdoc : doc.Distinct) (h : readBy L p = .ok R) :
    (∀ (place : Place) (fields : Json.Fields), place.Fits R.resultType? →
      Json.at? place.path doc = some (.record fields) →
      (∀ key w fields', key ∉ place.declared → Json.Adds fields key w fields' →
        RefusedFor ⟨place.location R.resultType? ++ [key], .unknownField⟩ L source
          (Json.setAt (.record fields') place.path doc)) ∧
      ∀ key ∈ place.required,
        Refused L source (Json.setAt (.record (Json.without key fields)) place.path doc)) ∧
    (∀ (place : SamplePlace) (old items : List Json), place.Fits R.resultType? →
      Json.at? place.path doc = some (.list old) → (¬ ∃ t s, items = [t, .text s]) →
      Refused L source (Json.setAt (.list items) place.path doc)) ∧
    (∀ (i : Nat) (fields fields' : Json.Fields) (name s : String),
      Json.at? (labelsPath i) doc = some (.record fields) →
      Json.Adds fields name (.text s) fields' →
      ∀ p' : Payload, p'.Holds L source (Json.setAt (.record fields') (labelsPath i) doc) →
        ∃ R', readBy L p' = .ok R') ∧
    ∀ (path : Json.Path) (fields : Json.Fields), Json.at? path doc = some (.record fields) →
      (∃ place : Place, place.Fits R.resultType? ∧ place.path = path) ∨
        ∃ i, path = labelsPath i := by
  have hR := (readBy_eq_ok_iff hp).1 h
  refine ⟨fun place fields hfits hu => ⟨fun key w fields' hkey hadds => ?_, fun key hkey => ?_⟩,
    fun place old items hfits hu hitems => ?_, fun i fields fields' name s hu hadds p' hp' => ?_,
    fun path fields hat => hasRecord hR hdoc hat⟩
  · exact refusedFor_of_mem (Place.unknownField_mem hR hdoc hfits hu hadds hkey)
  · exact refused_of_not_sound (Place.not_sound_without hR hdoc hfits hu hkey)
  · exact refused_of_not_sound (SamplePlace.not_sound_replaced hR hdoc hfits hu hitems)
  · obtain ⟨R', hR'⟩ := sound_with_label hR hdoc hu hadds
    exact ⟨R', (readBy_eq_ok_iff hp').2 hR'⟩

/-- The series of a matrix need their points, take no single value and nothing but texts for the
values of points, and take any label. -/
theorem read_strict_twoSeries : (twoSeries.document .null).Distinct ∧
    ∃ first second : Json.Fields,
    Json.at? (Place.series 0).path (twoSeries.document .null) = some (.record first) ∧
    Json.at? (Place.series 1).path (twoSeries.document .null) = some (.record second) ∧
    RefusedFor ⟨["data", "matrix", "result", "0", "value"], .unknownField⟩ .standard .value
      (Json.setAt (.record (first ++ [("value", .list [.int 0, .text "1"])]))
        (Place.series 0).path (twoSeries.document .null)) ∧
    Refused .standard .value (Json.setAt (.record (Json.without "values" second))
      (Place.series 1).path (twoSeries.document .null)) ∧
    Refused .standard .value (Json.setAt (.list [.int 0, .int 1]) (SamplePlace.point 0 1).path
      (twoSeries.document .null)) ∧
    ∀ p' : Payload, p'.Holds .standard .value (Json.setAt (.record [("env", .text "test")])
      (labelsPath 1) (twoSeries.document .null)) → ∃ R', read p' = .ok R' := by
  have hread : read (.value (twoSeries.document .null)) = .ok twoSeries :=
    (readBy_eq_ok_iff (.value _)).2 (twoSeries.decode_document .null)
  have hdistinct := twoSeries.distinct_document .null
  obtain ⟨hclosed, hsample, hlabels, -⟩ := read_strict .standard (.value _) hdistinct hread
  refine ⟨hdistinct, _, _, rfl, rfl, ?_, ?_, ?_, ?_⟩
  · exact (hclosed (.series 0) _ rfl rfl).1 "value" _ _ (by decide) ⟨_, [], by simp, rfl⟩
  · exact (hclosed (.series 1) _ rfl rfl).2 "values" (by decide)
  · exact hsample (.point 0 1) _ _ rfl rfl (by simp)
  · exact hlabels 1 [] _ "env" "test" rfl ⟨[], [], rfl, rfl⟩

end Response
end MetricQuery
