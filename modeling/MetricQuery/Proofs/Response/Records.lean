import MetricQuery.Proofs.Response.Places

/-!
# The records of answers

Where records stand in an answer that is accepted: at the places that the schema gives to closed
records, and as the labels of samples and series. Everything else in an answer is flat.
-/

namespace MetricQuery

open Schema Checked

/-! ### Where records stand -/

namespace Schema

variable {α β γ : Type} {V : Validator} {decode : Decoder α} {v : Json} {path : Json.Path}
variable {Q Q' : Json.Path → Prop} {found : Json.Fields}

/-- In what a decoder accepts, records stand at certain paths only. -/
def RecordsAt (Q : Json.Path → Prop) (decode : Decoder α) : Prop :=
  ∀ ⦃v a path found⦄, v.Distinct → decode v = .sound a →
    Json.at? path v = some (.record found) → Q path

/-- A decoder that accepts no value with a record in it, at whatever depth. -/
abbrev Flat (decode : Decoder α) : Prop := RecordsAt (fun _ => False) decode

theorem RecordsAt.mono (h : RecordsAt Q decode) (himp : ∀ path, Q path → Q' path) :
    RecordsAt Q' decode :=
  fun _ _ _ _ hv ha hat => himp _ (h hv ha hat)

/-- The records of a flat decoder stand at any paths, since there are none. -/
theorem Flat.recordsAt (h : Flat decode) : RecordsAt Q decode := h.mono fun _ => False.elim

theorem RecordsAt.map (h : RecordsAt Q decode) (f : α → β) :
    RecordsAt Q fun v => f <$> decode v := by
  intro v b path found hv hb hat
  obtain ⟨a, ha, -⟩ := map_eq_sound_iff.1 hb
  exact h hv ha hat

theorem flat_of_isAtom (h : ∀ v a, decode v = .sound a → v.IsAtom) : Flat decode := by
  intro v a path found hv ha hat
  obtain rfl := (h v a ha).eq_nil_of_at? hat
  cases hat
  exact h _ a ha

variable [V.Lawful]

open Validator.Lawful

theorem flat_text : Flat V.text := by
  refine flat_of_isAtom fun v s h => ?_
  cases (text_iff v s).1 h
  trivial

theorem flat_float : Flat V.float := flat_of_isAtom fun _ _ => float_isAtom

theorem flat_integer : Flat V.integer := flat_of_isAtom fun _ _ => integer_isAtom

theorem flat_member (ofName? : String → Option α) : Flat (V.member ofName?) := by
  refine flat_of_isAtom fun v a h => ?_
  obtain ⟨s, rfl, -⟩ := (member_iff ofName? v a).1 h
  trivial

/-- A record in a list stands in an item of it. -/
theorem RecordsAt.list (h : RecordsAt Q decode) :
    RecordsAt (fun path => ∃ i rest, path = .item i :: rest ∧ Q rest) (V.list decode) := by
  intro v xs path found hv hxs hat
  obtain ⟨vs, rfl, hitems⟩ := (list_iff decode v xs).1 hxs
  cases path with
  | nil => cases hat
  | cons step rest =>
    obtain ⟨x, hx, hrest⟩ := Json.at?_cons_eq_some_iff.1 hat
    cases step with
    | field name => cases hx
    | item i =>
      obtain ⟨a, -, ha⟩ := exists_getElem?_of_forall₂ hitems hx
      exact ⟨i, rest, rfl, h (hv.child hx) ha hrest⟩

theorem flat_list (h : Flat decode) : Flat (V.list decode) :=
  h.list.mono fun _ ⟨_, _, _, hfalse⟩ => hfalse

theorem flat_pair {second : Decoder β} (h : Flat decode) (hsecond : Flat second) :
    Flat (V.pair decode second) := by
  intro v ab path found hv hab hat
  obtain ⟨w, x, rfl, hw, hx⟩ := (pair_iff decode second v ab).1 hab
  cases path with
  | nil => cases hat
  | cons step rest =>
    obtain ⟨y, hy, hrest⟩ := Json.at?_cons_eq_some_iff.1 hat
    have hdistinct := hv.child hy
    cases step with
    | field name => cases hy
    | item i =>
      have hmem : y = w ∨ y = x := by simpa using List.mem_of_getElem? hy
      obtain rfl | rfl := hmem
      · exact h hdistinct hw hrest
      · exact hsecond hdistinct hx hrest

theorem recordsAt_labels : RecordsAt (· = []) V.labels := by
  intro v ls path found hv hls hat
  obtain ⟨pairs, rfl⟩ := (exists_labels_iff v).1 ⟨ls, hls⟩
  cases path with
  | nil => rfl
  | cons step rest =>
    obtain ⟨x, hx, hrest⟩ := Json.at?_cons_eq_some_iff.1 hat
    cases step with
    | item i => cases hx
    | field name =>
      obtain ⟨label, -, hlabel⟩ := List.mem_map.1 (Json.exists_mem_of_field? hx)
      cases hlabel
      have hatom : (Json.text label.2).IsAtom := trivial
      obtain rfl := hatom.eq_nil_of_at? hrest
      cases hrest

/-- A record in a record of which the declared fields stand for something is that record itself or
stands in one of these fields. -/
theorem Declared.Holds.record_path {d : Declared γ} {fields : Json.Fields} {c : γ}
    (h : d.Holds fields c) (hfields : (Json.record fields).Distinct)
    (hdeclared : ∀ field ∈ fields, field.1 ∈ d.names)
    (hat : Json.at? path (.record fields) = some (.record found)) (hself : Q [])
    (hparts : ∀ part ∈ d.parts, RecordsAt (fun rest => Q (.field part.1 :: rest)) part.2.2) :
    Q path := by
  cases path with
  | nil => exact hself
  | cons step rest =>
    obtain ⟨x, hx, hrest⟩ := Json.at?_cons_eq_some_iff.1 hat
    cases step with
    | item i => cases hx
    | field name =>
      obtain ⟨⟨name, part⟩, hpart, rfl⟩ :=
        exists_part_of_mem_names (hdeclared _ (Json.exists_mem_of_field? hx))
      obtain ⟨a, ha⟩ :=
        h.exists_sound hpart hx (Json.ne_null_of_at? hrest (Json.record_ne_null found))
      exact hparts _ hpart (hfields.child hx) ha hrest

/-- A record in a closed record is that record itself or stands in a field that it declares. -/
theorem RecordsAt.record {σ : Type} {d : Declared γ} {build : γ → σ} (hself : Q [])
    (hparts : ∀ part ∈ d.parts, RecordsAt (fun rest => Q (.field part.1 :: rest)) part.2.2) :
    RecordsAt Q fun v => build <$> V.record d v := by
  refine RecordsAt.map (fun v c path found hv hc hat => ?_) build
  obtain ⟨fields, rfl⟩ := exists_record_of_sound hc
  obtain ⟨hholds, hdeclared⟩ := (record_iff d hv.nodup c).1 hc
  exact hholds.record_path hv hdeclared hat hself hparts

end Schema

variable {V : Validator} [V.Lawful] {v : Json} {path : Json.Path} {found : Json.Fields}

theorem Sample.flat : Flat (Sample.decode V) := (flat_pair flat_float flat_text).map _

theorem LabeledSample.recordsAt :
    RecordsAt (fun path => path = [] ∨ path = [.field "metric"]) (decode V) := by
  refine .record (.inl rfl) ?_
  simp only [declared, Declared.parts, List.forall_mem_cons]
  exact ⟨recordsAt_labels.mono fun rest h => .inr (h ▸ rfl), Sample.flat.recordsAt,
    List.forall_mem_nil _⟩

theorem Series.recordsAt :
    RecordsAt (fun path => path = [] ∨ path = [.field "metric"]) (decode V) := by
  refine .record (.inl rfl) ?_
  simp only [declared, Declared.parts, List.forall_mem_cons]
  exact ⟨recordsAt_labels.mono fun rest h => .inr (h ▸ rfl), (flat_list Sample.flat).recordsAt,
    List.forall_mem_nil _⟩

theorem Timings.recordsAt : RecordsAt (· = []) (decode V) := by
  refine .record rfl ?_
  simp only [declared, Declared.parts, List.forall_mem_cons]
  exact ⟨flat_float.recordsAt, flat_float.recordsAt, flat_float.recordsAt, flat_float.recordsAt,
    flat_float.recordsAt, flat_float.recordsAt, List.forall_mem_nil _⟩

theorem SampleCounts.recordsAt : RecordsAt (· = []) (decode V) := by
  refine .record rfl ?_
  simp only [declared, Declared.parts, List.forall_mem_cons]
  exact ⟨(flat_list (flat_pair flat_float flat_integer)).recordsAt, flat_integer.recordsAt,
    flat_integer.recordsAt, List.forall_mem_nil _⟩

theorem Stats.recordsAt :
    RecordsAt (fun path => path = [] ∨ path = [.field "timings"] ∨ path = [.field "samples"])
      (decode V) := by
  refine .record (.inl rfl) ?_
  simp only [declared, Declared.parts, List.forall_mem_cons]
  exact ⟨Timings.recordsAt.mono fun rest h => .inr (.inl (h ▸ rfl)),
    SampleCounts.recordsAt.mono fun rest h => .inr (.inr (h ▸ rfl)), List.forall_mem_nil _⟩

/-- A record in a result is an item of it or the labels of an item. -/
theorem Result.recordsAt (r : Result) : RecordsAt
    (fun path => (r.typeName = "vector" ∨ r.typeName = "matrix") ∧
      ∃ i, path = [.item i] ∨ path = [.item i, .field "metric"]) (r.decode V) := by
  cases r with
  | vector samples =>
    refine (LabeledSample.recordsAt.list.mono ?_).map vector
    rintro _ ⟨i, _, rfl, rfl | rfl⟩
    · exact ⟨.inl rfl, i, .inl rfl⟩
    · exact ⟨.inl rfl, i, .inr rfl⟩
  | matrix series =>
    refine (Series.recordsAt.list.mono ?_).map matrix
    rintro _ ⟨i, _, rfl, rfl | rfl⟩
    · exact ⟨.inr rfl, i, .inl rfl⟩
    · exact ⟨.inr rfl, i, .inr rfl⟩
  | scalar s => exact Flat.recordsAt (Sample.flat.map scalar)
  | string s => exact Flat.recordsAt (Sample.flat.map string)

namespace Response

/-- The path of the labels of a sample or series. -/
def labelsPath (i : Nat) : Json.Path :=
  [.field "data", .field "result", .item i, .field "metric"]

/-- Where an answer has records if its result is of the given kind: at the places of closed records,
and as labels. -/
def HasRecord (kind? : Option String) (path : Json.Path) : Prop :=
  (∃ place : Place, place.Fits kind? ∧ place.path = path) ∨ ∃ i, path = labelsPath i

theorem hasRecord_result {kind : String} (htype : kind = "vector" ∨ kind = "matrix")
    (hpath : ∃ i, path = [.item i] ∨ path = [.item i, .field "metric"]) :
    HasRecord (some kind) (.field "data" :: .field "result" :: path) := by
  obtain ⟨i, rfl | rfl⟩ := hpath
  · obtain rfl | rfl := htype
    · exact .inl ⟨.sample i, rfl, rfl⟩
    · exact .inl ⟨.series i, rfl, rfl⟩
  · exact .inr ⟨i, rfl⟩

theorem hasRecord_stats {kind? : Option String}
    (h : path = [] ∨ path = [.field "timings"] ∨ path = [.field "samples"]) :
    HasRecord kind? (.field "data" :: .field "stats" :: path) := by
  obtain rfl | rfl | rfl := h
  · exact .inl ⟨.stats, trivial, rfl⟩
  · exact .inl ⟨.timings, trivial, rfl⟩
  · exact .inl ⟨.counts, trivial, rfl⟩

theorem data_hasRecord {d : Data} (h : Data.decode V v = .sound d) (hv : v.Distinct)
    (hat : Json.at? path v = some (.record found)) :
    HasRecord (some d.result.typeName) (.field "data" :: path) := by
  obtain ⟨fields, rfl, -, hlike⟩ := Data.exists_decode h hv
  obtain ⟨hholds, hdeclared⟩ := (Data.decodeLike_eq_sound_iff hv.nodup).1 hlike
  refine hholds.record_path (Q := fun path => HasRecord _ (.field "data" :: path)) hv hdeclared hat
    (.inl ⟨.data, trivial, rfl⟩) ?_
  simp only [Data.declared, Declared.parts, List.forall_mem_cons]
  exact ⟨(flat_member _).recordsAt,
    d.result.recordsAt.mono fun rest hrest => hasRecord_result hrest.1 hrest.2,
    Stats.recordsAt.mono fun rest => hasRecord_stats, List.forall_mem_nil _⟩

/-- The records of an answer are its closed records and its labels. -/
theorem hasRecord {R : Response} (h : decode V v = .sound R) (hv : v.Distinct)
    (hat : Json.at? path v = some (.record found)) : HasRecord R.resultType? path := by
  by_cases hdata : ∃ rest, path = .field "data" :: rest
  · obtain ⟨rest, rfl⟩ := hdata
    obtain ⟨d, x, hd, hx, hdistinct, hpart⟩ := through_data h hv hat (Json.record_ne_null found)
    rw [resultType?_of_data hd]
    exact data_hasRecord hpart.read hdistinct hx
  · obtain ⟨fields, rfl⟩ := exists_record_of_map h
    obtain ⟨hholds, hdeclared⟩ := (decode_eq_sound_iff hv.nodup).1 h
    -- the other fields are flat
    let Q (path : Json.Path) := (¬ ∃ rest, path = .field "data" :: rest) →
      HasRecord R.resultType? path
    refine hholds.record_path (Q := Q) hv hdeclared hat (fun _ => .inl ⟨.answer, trivial, rfl⟩) ?_
      hdata
    simp only [declared, Declared.parts, List.forall_mem_cons]
    exact ⟨(flat_member _).recordsAt, fun _ _ _ _ _ _ _ hne => absurd ⟨_, rfl⟩ hne,
      flat_text.recordsAt, flat_text.recordsAt, (flat_list flat_text).recordsAt,
      (flat_list flat_text).recordsAt, List.forall_mem_nil _⟩

end Response
end MetricQuery
