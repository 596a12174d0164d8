import MetricQuery.Proofs.Response.Document

/-!
# Answers stand as they are written

What stands where in a document: `Sample.StandsIn` and the relations over it follow a result through
its document, place by place. Reading is faithful in both directions: every answer is read back from
its document, and whatever is read stands in the document unchanged and in the same order.
-/

namespace MetricQuery

open Schema Checked

variable {V : Validator} {v : Json}

/-- The text of a sample stands beside its time. A time may be written as any number. -/
def Sample.StandsIn (V : Validator) (v : Json) (s : Sample) : Prop :=
  ∃ t, v = .list [t, .text s.value] ∧ V.float t = .sound s.time

def LabeledSample.StandsIn (V : Validator) (v : Json) (s : LabeledSample) : Prop :=
  ∃ fields sample, v = .record fields ∧
    Json.field? fields "metric" = some (.record (labelsFields s.metric.entries)) ∧
    Json.field? fields "value" = some sample ∧ s.sample.StandsIn V sample

def Series.StandsIn (V : Validator) (v : Json) (s : Series) : Prop :=
  ∃ fields samples, v = .record fields ∧
    Json.field? fields "metric" = some (.record (labelsFields s.metric.entries)) ∧
    Json.field? fields "values" = some (.list samples) ∧
    List.Forall₂ (Sample.StandsIn V) samples s.samples

/-- The samples or series of a result stand in a list of the same length and order. -/
def Result.StandsIn (V : Validator) (v : Json) : Result → Prop
  | vector samples => ∃ items, v = .list items ∧
      List.Forall₂ (LabeledSample.StandsIn V) items samples
  | matrix series => ∃ items, v = .list items ∧ List.Forall₂ (Series.StandsIn V) items series
  | scalar s => s.StandsIn V v
  | string s => s.StandsIn V v

def Data.StandsIn (V : Validator) (v : Json) (d : Data) : Prop :=
  ∃ fields result, v = .record fields ∧
    Json.field? fields "resultType" = some (.text d.result.typeName) ∧
    Json.field? fields "result" = some result ∧ d.result.StandsIn V result

/-! ### What is read stands in the document -/

section Lawful

open Validator.Lawful

variable [V.Lawful]

theorem Sample.standsIn_of_decode {s : Sample} (h : decode V v = .sound s) : s.StandsIn V v :=
  Sample.decode_eq_sound_iff.1 h

theorem LabeledSample.standsIn_of_decode {s : LabeledSample} (h : decode V v = .sound s)
    (hv : v.Distinct) : s.StandsIn V v := by
  obtain ⟨fields, rfl⟩ := exists_record_of_map h
  obtain ⟨⟨⟨labels, hmetric, hls⟩, ⟨sample, hvalue, hs⟩, -⟩, -⟩ :=
    (decode_eq_sound_iff hv.nodup).1 h
  cases eq_of_labels hls (hv.field hmetric)
  exact ⟨fields, sample, rfl, hmetric, hvalue, Sample.standsIn_of_decode hs⟩

theorem Series.standsIn_of_decode {s : Series} (h : decode V v = .sound s) (hv : v.Distinct) :
    s.StandsIn V v := by
  obtain ⟨fields, rfl⟩ := exists_record_of_map h
  obtain ⟨⟨⟨labels, hmetric, hls⟩, ⟨w, hvalues, hlist⟩, -⟩, -⟩ :=
    (decode_eq_sound_iff hv.nodup).1 h
  cases eq_of_labels hls (hv.field hmetric)
  obtain ⟨samples, rfl, hitems⟩ := (list_iff _ _ _).1 hlist
  exact ⟨fields, samples, rfl, hmetric, hvalues,
    hitems.imp fun _ _ => Sample.standsIn_of_decode⟩

/-- What is shown of the items of an accepted list. -/
theorem Schema.forall₂_of_list {α : Type} {decode : Decoder α} {S : Json → α → Prop}
    (hitem : ∀ v a, decode v = .sound a → v.Distinct → S v a) {xs : List α}
    (h : V.list decode v = .sound xs) (hv : v.Distinct) :
    ∃ items, v = .list items ∧ List.Forall₂ S items xs := by
  obtain ⟨items, rfl, hitems⟩ := (list_iff _ _ _).1 h
  have hmem := (List.forall₂_and_left items xs).2 ⟨fun v (hmem : v ∈ items) => hmem, hitems⟩
  exact ⟨items, rfl, hmem.imp fun v a ha => hitem v a ha.2 (hv.item ha.1)⟩

theorem Result.standsIn_of_decode {r : Result} (h : r.decode V v = .sound r) (hv : v.Distinct) :
    r.StandsIn V v := by
  cases r with
  | vector samples =>
    obtain ⟨_, hlist, ⟨⟩⟩ := map_eq_sound_iff.1 h
    exact forall₂_of_list (fun _ _ => LabeledSample.standsIn_of_decode) hlist hv
  | matrix series =>
    obtain ⟨_, hlist, ⟨⟩⟩ := map_eq_sound_iff.1 h
    exact forall₂_of_list (fun _ _ => Series.standsIn_of_decode) hlist hv
  | scalar s | string s =>
    obtain ⟨_, hs, ⟨⟩⟩ := map_eq_sound_iff.1 h
    exact Sample.standsIn_of_decode hs

theorem Data.standsIn_of_decode {d : Data} (h : decode V v = .sound d) (hv : v.Distinct) :
    d.StandsIn V v := by
  obtain ⟨fields, rfl⟩ := exists_tagged_of_sound h
  obtain ⟨htag, hlike⟩ := (decode_eq_sound_iff hv.nodup).1 h
  obtain ⟨⟨-, ⟨w, hw, hd⟩, -⟩, -⟩ := (decodeLike_eq_sound_iff hv.nodup).1 hlike
  exact ⟨fields, w, rfl, htag, hw, Result.standsIn_of_decode hd (hv.field hw)⟩

theorem Response.data_standsIn {R : Response} {fields : Json.Fields}
    (h : decode V (.record fields) = .sound R) (hv : (Json.record fields).Distinct) :
    Option.Rel (Data.StandsIn V) (Json.given? fields "data") R.data := by
  obtain ⟨⟨-, hdata, -⟩, -⟩ := (decode_eq_sound_iff hv.nodup).1 h
  exact rel_imp (fun w d hgiven hread => Data.standsIn_of_decode hread
    (hv.field (Json.field?_of_given? hgiven))) hdata

end Lawful

/-! ### Results by their kind -/

namespace Response

/-- Of the four accessors, the one of the given kind gives a result and the others give none. -/
structure AccessedAs (R : Response) (kind? : Option String) : Prop where
  vector : R.vector?.isSome ↔ kind? = some "vector"
  matrix : R.matrix?.isSome ↔ kind? = some "matrix"
  scalar : R.scalar?.isSome ↔ kind? = some "scalar"
  string : R.string?.isSome ↔ kind? = some "string"

theorem accessedAs_resultType? (R : Response) : R.AccessedAs R.resultType? := by
  obtain ⟨status, data, errorType, error, warnings, infos⟩ := R
  cases data with
  | none => constructor <;> exact ⟨nofun, nofun⟩
  | some d =>
    obtain ⟨result, stats⟩ := d
    cases result <;> constructor <;>
      simp [vector?, matrix?, scalar?, string?, resultType?, result?, Result.typeName,
        Result.vector?, Result.matrix?, Result.scalar?, Result.string?]

/-- The kind of result that the data of a document names. -/
def kindIn? : Json → Option String
  | .record fields =>
    match Json.field? fields "resultType" with
    | some (.text name) => some name
    | _ => none
  | _ => none

theorem kindIn?_eq {d : Data} (h : d.StandsIn V v) :
    kindIn? v = some d.result.typeName := by
  obtain ⟨fields, result, rfl, htag, -⟩ := h
  simp only [kindIn?, htag]

theorem resultType?_eq {R : Response} {data? : Option Json}
    (h : Option.Rel (Data.StandsIn V) data? R.data) : R.resultType? = data?.bind kindIn? := by
  unfold resultType? result?
  generalize R.data = d? at h
  cases h with
  | none => rfl
  | some hd => exact (kindIn?_eq hd).symm

/-- **Reading answers is faithful.** The document of an answer is read as that answer, in every form
in which it may arrive. Of whatever else is read, if no name stands twice in a record of it, the
result stands in the document: each sample and series at its position, with the text and the labels
as they are written. The result is accessed as the kind that the document names, and as none if the
document has no data. -/
theorem read_faithful (L : Library) [∀ source, (L.validator source).Lawful] :
    (∀ (R : Response) (absence : Absence), readBy L (.value (R.document absence)) = .ok R ∧
      ∀ (p : Payload) (source : Source), p.Holds L source (R.document absence) →
        readBy L p = .ok R) ∧
    ∀ (p : Payload) (R : Response), readBy L p = .ok R → ∃ source fields,
      p.Holds L source (.record fields) ∧ ((Json.record fields).Distinct →
        Option.Rel (Data.StandsIn (L.validator source)) (Json.given? fields "data") R.data ∧
        R.AccessedAs ((Json.given? fields "data").bind kindIn?)) := by
  constructor
  · intro R absence
    have hread (p : Payload) (source : Source) (hp : p.Holds L source (R.document absence)) :
        readBy L p = .ok R := (readBy_eq_ok_iff hp).2 (R.decode_document absence)
    exact ⟨hread _ _ (.value _), hread⟩
  · intro p R h
    obtain ⟨source, fields, hp⟩ := exists_holds h
    refine ⟨source, fields, hp, fun hfields => ?_⟩
    have hstands := data_standsIn ((readBy_eq_ok_iff hp).1 h) hfields
    exact ⟨hstands, resultType?_eq hstands ▸ R.accessedAs_resultType?⟩

theorem read_faithful_twoSeries :
    read (.value (twoSeries.document .null)) = .ok twoSeries ∧
    ∃ source fields,
      (Payload.value (twoSeries.document .null)).Holds .standard source (.record fields) ∧
      (Json.record fields).Distinct ∧
      Option.Rel (Data.StandsIn (.standard source)) (Json.given? fields "data") twoSeries.data ∧
      twoSeries.AccessedAs ((Json.given? fields "data").bind kindIn?) := by
  have hread := ((read_faithful .standard).1 twoSeries .null).1
  obtain ⟨source, fields, hp, hstands⟩ := (read_faithful .standard).2 _ _ hread
  have hdistinct : (Json.record fields).Distinct := by
    cases hp
    exact twoSeries.distinct_document .null
  exact ⟨hread, source, fields, hp, hdistinct, hstands hdistinct⟩

end Response
end MetricQuery
