import MetricQuery.Proofs.Response.Decode

/-!
# Documents of answers

An answer written as a document, field by field, with the values that are absent either left out or
null. Reading the document gives the answer back.
-/

namespace MetricQuery

open Schema Checked

/-- How a document shows that the value of a field is absent. -/
inductive Absence where
  | omitted
  | null
deriving DecidableEq

namespace Absence

variable {absence : Absence} {written : List (String × Option Json)} {name : String}

/-- The fields of a record with the given values, of which some are absent. -/
def fields (absence : Absence) : List (String × Option Json) → Json.Fields
  | [] => []
  | (name, some v) :: rest => (name, v) :: absence.fields rest
  | (name, none) :: rest =>
    match absence with
    | omitted => absence.fields rest
    | null => (name, .null) :: absence.fields rest

theorem name_mem_of_mem_fields {field : String × Json} (h : field ∈ absence.fields written) :
    field.1 ∈ written.map Prod.fst := by
  induction written with
  | nil => cases h
  | cons entry rest ih =>
    obtain ⟨name, _ | v⟩ := entry
    case none =>
      cases absence with
      | omitted => exact List.mem_cons_of_mem _ (ih h)
      | null =>
        obtain rfl | h := List.mem_cons.1 h
        · exact List.mem_cons_self
        · exact List.mem_cons_of_mem _ (ih h)
    case some =>
      obtain rfl | h := List.mem_cons.1 h
      · exact List.mem_cons_self
      · exact List.mem_cons_of_mem _ (ih h)

/-- Distinct names stay distinct. -/
theorem nodup_fields (hnames : (written.map Prod.fst).Nodup) :
    ((absence.fields written).map Prod.fst).Nodup := by
  have hmem {name : String} {rest : List (String × Option Json)}
      (h : name ∉ rest.map Prod.fst) : name ∉ (absence.fields rest).map Prod.fst := by
    intro hname
    obtain ⟨field, hfield, rfl⟩ := List.mem_map.1 hname
    exact h (name_mem_of_mem_fields hfield)
  induction written with
  | nil => exact List.nodup_nil
  | cons entry rest ih =>
    obtain ⟨hfirst, hrest⟩ := List.nodup_cons.1 hnames
    obtain ⟨name, _ | v⟩ := entry
    case none =>
      cases absence with
      | omitted => exact ih hrest
      | null => exact List.nodup_cons.2 ⟨hmem hfirst, ih hrest⟩
    case some => exact List.nodup_cons.2 ⟨hmem hfirst, ih hrest⟩

/-- A value in the fields is one of those that are written, or null. -/
theorem eq_of_mem_fields {v : Json} (h : v ∈ (absence.fields written).map Prod.snd) :
    v = .null ∨ some v ∈ written.map Prod.snd := by
  induction written with
  | nil => cases h
  | cons entry rest ih =>
    obtain ⟨name, _ | w⟩ := entry
    case none =>
      cases absence with
      | omitted => exact (ih h).imp_right (List.mem_cons_of_mem _)
      | null =>
        obtain rfl | h := List.mem_cons.1 h
        · exact .inl rfl
        · exact (ih h).imp_right (List.mem_cons_of_mem _)
    case some =>
      obtain rfl | h := List.mem_cons.1 h
      · exact .inr List.mem_cons_self
      · exact (ih h).imp_right (List.mem_cons_of_mem _)

theorem distinct_record (hnames : (written.map Prod.fst).Nodup)
    (h : ∀ v? ∈ written.map Prod.snd, ∀ v ∈ v?, v.Distinct) :
    (Json.record (absence.fields written)).Distinct := by
  refine Json.distinct_record (nodup_fields hnames) fun v hv => ?_
  obtain rfl | hv := eq_of_mem_fields hv
  · exact Json.IsAtom.distinct trivial
  · exact h _ hv v rfl

theorem field?_fields_of_notMem (h : name ∉ written.map Prod.fst) :
    Json.field? (absence.fields written) name = none := by
  rw [Json.field?, Option.map_eq_none_iff, List.find?_eq_none]
  intro field hfield hname
  exact h (beq_iff_eq.1 hname ▸ name_mem_of_mem_fields hfield)

/-- The field of a name is the one that is written, where the names are distinct. -/
theorem field?_fields (hnames : (written.map Prod.fst).Nodup) {v? : Option Json}
    (h : (name, v?) ∈ written) : Json.field? (absence.fields written) name =
      v?.or (match absence with | omitted => none | null => some .null) := by
  induction written with
  | nil => cases h
  | cons entry rest ih =>
    obtain ⟨other, w?⟩ := entry
    rw [List.map_cons, List.nodup_cons] at hnames
    obtain h | h := List.mem_cons.1 h
    · cases h
      cases v? with
      | none =>
        cases absence with
        | omitted =>
          rw [fields]
          exact field?_fields_of_notMem hnames.1
        | null => exact (Json.field?_cons ..).trans (if_pos rfl)
      | some v => exact (Json.field?_cons ..).trans (if_pos rfl)
    · have hother : other ≠ name := by
        rintro rfl
        exact hnames.1 (List.mem_map.2 ⟨_, h, rfl⟩)
      rw [← ih hnames.2 h]
      cases w? with
      | none =>
        cases absence with
        | omitted => rfl
        | null => exact (Json.field?_cons ..).trans (if_neg hother)
      | some w => exact (Json.field?_cons ..).trans (if_neg hother)

theorem field?_fields_some (hnames : (written.map Prod.fst).Nodup) {v : Json}
    (h : (name, some v) ∈ written) : Json.field? (absence.fields written) name = some v :=
  field?_fields hnames h

variable {α γ : Type} {part : Decoder α} {d : Declared γ} {c : γ}

theorem holds_required (hnames : (written.map Prod.fst).Nodup) {v : Json} {a : α}
    (h : (name, some v) ∈ written) (hread : part v = .sound a)
    (hrest : d.Holds (absence.fields written) c) :
    (Declared.required name part d).Holds (absence.fields written) (a, c) :=
  .required (field?_fields_some hnames h) hread hrest

/-- A null where nothing is written does not become a value, since no value is written as null. -/
theorem holds_nullable {write : α → Json} {a? : Option α} (hnames : (written.map Prod.fst).Nodup)
    (h : (name, a?.map write) ∈ written) (hread : ∀ a, part (write a) = .sound a)
    (hnull : ∀ a, write a ≠ .null) (hrest : d.Holds (absence.fields written) c) :
    (Declared.nullable name part d).Holds (absence.fields written) (a?, c) := by
  refine .nullable ?_ hrest
  cases a? with
  | none =>
    rw [Json.given?, field?_fields hnames h]
    cases absence <;> exact .none
  | some a =>
    rw [Json.given?_of_field? (field?_fields_some hnames h) (hnull a)]
    exact .some (hread a)

end Absence

/-! ### Documents -/

section Document

variable (absence : Absence)

def Sample.document (s : Sample) : Json := .list [.float s.time, .text s.value]

def LabeledSample.document (s : LabeledSample) : Json :=
  .record (absence.fields [("metric", some (.record (labelsFields s.metric.entries))),
    ("value", some s.sample.document)])

def Series.document (s : Series) : Json :=
  .record (absence.fields [("metric", some (.record (labelsFields s.metric.entries))),
    ("values", some (.list (s.samples.map Sample.document)))])

def Timings.document (t : Timings) : Json :=
  .record (absence.fields [("evalTotalTime", some (.float t.evalTotal)),
    ("resultSortTime", some (.float t.resultSort)),
    ("queryPreparationTime", some (.float t.queryPreparation)),
    ("innerEvalTime", some (.float t.innerEval)), ("execQueueTime", some (.float t.execQueue)),
    ("execTotalTime", some (.float t.execTotal))])

/-- The counts of samples at the steps, each with its time. -/
def SampleCounts.steps (counts : List (Binary64 × Int)) : Json :=
  .list (counts.map fun count => .list [.float count.1, .int count.2])

def SampleCounts.document (c : SampleCounts) : Json :=
  .record (absence.fields [("totalQueryableSamplesPerStep", c.perStep.map steps),
    ("totalQueryableSamples", some (.int c.total)), ("peakSamples", some (.int c.peak))])

def Stats.document (s : Stats) : Json :=
  .record (absence.fields [("timings", some (s.timings.document absence)),
    ("samples", some (s.samples.document absence))])

def Result.document : Result → Json
  | vector samples => .list (samples.map (LabeledSample.document absence))
  | matrix series => .list (series.map (Series.document absence))
  | scalar s => s.document
  | string s => s.document

def Data.document (d : Data) : Json :=
  .record (absence.fields [("resultType", some (.text d.result.typeName)),
    ("result", some (d.result.document absence)),
    ("stats", d.stats.map (Stats.document absence))])

def textList (ss : List String) : Json := .list (ss.map .text)

def Response.document (R : Response) : Json :=
  .record (absence.fields [("status", some (.text R.status.name)),
    ("data", R.data.map (Data.document absence)), ("errorType", R.errorType.map .text),
    ("error", R.error.map .text), ("warnings", R.warnings.map textList),
    ("infos", R.infos.map textList)])

end Document

/-! ### Distinct names -/

section Distinct

variable (absence : Absence)

theorem Json.distinct_text (s : String) : (Json.text s).Distinct := Json.IsAtom.distinct trivial

theorem Sample.distinct_document (s : Sample) : s.document.Distinct := by
  refine Json.distinct_list (List.forall_mem_cons.2 ⟨?_, List.forall_mem_singleton.2 ?_⟩)
  · exact Json.IsAtom.distinct trivial
  · exact Json.distinct_text s.value

theorem Labels.distinct_record (ls : Labels) :
    (Json.record (labelsFields ls.entries)).Distinct := by
  refine Json.distinct_record ?_ ?_
  · rw [map_fst_labelsFields]
    exact ls.nodup
  · simp only [labelsFields, List.map_map, List.forall_mem_map]
    exact fun label _ => Json.distinct_text label.2

theorem LabeledSample.distinct_document (s : LabeledSample) : (s.document absence).Distinct := by
  refine Absence.distinct_record (by simp) ?_
  simpa using ⟨s.metric.distinct_record, s.sample.distinct_document⟩

theorem Series.distinct_document (s : Series) : (s.document absence).Distinct := by
  have hsamples : (Json.list (s.samples.map Sample.document)).Distinct :=
    Json.distinct_list (List.forall_mem_map.2 fun s _ => s.distinct_document)
  refine Absence.distinct_record (by simp) ?_
  simpa using ⟨s.metric.distinct_record, hsamples⟩

theorem Timings.distinct_document (t : Timings) : (t.document absence).Distinct := by
  have htime (x : Binary64) : (Json.float x).Distinct := Json.IsAtom.distinct trivial
  refine Absence.distinct_record (by simp) ?_
  simp [htime]

theorem SampleCounts.distinct_steps (counts : List (Binary64 × Int)) :
    (steps counts).Distinct := by
  refine Json.distinct_list (List.forall_mem_map.2 fun count _ => ?_)
  refine Json.distinct_list (List.forall_mem_cons.2 ⟨?_, List.forall_mem_singleton.2 ?_⟩)
  · exact Json.IsAtom.distinct trivial
  · exact Json.IsAtom.distinct trivial

theorem SampleCounts.distinct_document (c : SampleCounts) : (c.document absence).Distinct := by
  have hcount (n : Int) : (Json.int n).Distinct := Json.IsAtom.distinct trivial
  refine Absence.distinct_record (by simp) ?_
  simp [hcount, distinct_steps]

theorem Stats.distinct_document (s : Stats) : (s.document absence).Distinct := by
  refine Absence.distinct_record (by simp) ?_
  simpa using ⟨s.timings.distinct_document absence, s.samples.distinct_document absence⟩

theorem Result.distinct_document (r : Result) : (r.document absence).Distinct := by
  cases r with
  | vector samples =>
    exact Json.distinct_list (List.forall_mem_map.2 fun s _ => s.distinct_document absence)
  | matrix series =>
    exact Json.distinct_list (List.forall_mem_map.2 fun s _ => s.distinct_document absence)
  | scalar s | string s => exact s.distinct_document

theorem Data.distinct_document (d : Data) : (d.document absence).Distinct := by
  refine Absence.distinct_record (by simp) ?_
  simp [Json.distinct_text, Result.distinct_document, Stats.distinct_document]

theorem distinct_textList (ss : List String) : (textList ss).Distinct :=
  Json.distinct_list (List.forall_mem_map.2 fun s _ => Json.distinct_text s)

/-- In the document of an answer no name stands twice in a record. -/
theorem Response.distinct_document (R : Response) : (R.document absence).Distinct := by
  refine Absence.distinct_record (by simp) ?_
  simp [Json.distinct_text, distinct_textList, Data.distinct_document]

end Distinct

/-! ### Reading documents back -/

section Reading

open Validator.Lawful

variable {V : Validator} [V.Lawful] (absence : Absence)

/-- A list whose items are written one by one is read back item by item. -/
theorem Schema.list_map {α : Type} {decode : Decoder α} {write : α → Json}
    (hread : ∀ a, decode (write a) = .sound a) (xs : List α) :
    V.list decode (.list (xs.map write)) = .sound xs := by
  refine (list_iff decode _ xs).2 ⟨_, rfl, ?_⟩
  rw [List.forall₂_map_left_iff, List.forall₂_same]
  exact fun a _ => hread a

theorem Sample.decode_document (s : Sample) : decode V s.document = .sound s :=
  Sample.decode_eq_sound_iff.2 ⟨_, rfl, float_float s.time⟩

theorem LabeledSample.decode_document (s : LabeledSample) :
    decode V (s.document absence) = .sound s := by
  refine (decode_eq_sound_iff (Absence.nodup_fields (by simp))).2
    ⟨?_, fun _ => Absence.name_mem_of_mem_fields⟩
  exact Absence.holds_required (by simp) (by simp) (labels_entries s.metric)
    (Absence.holds_required (by simp) (by simp) s.sample.decode_document trivial)

theorem Series.decode_document (s : Series) : decode V (s.document absence) = .sound s := by
  refine (decode_eq_sound_iff (Absence.nodup_fields (by simp))).2
    ⟨?_, fun _ => Absence.name_mem_of_mem_fields⟩
  exact Absence.holds_required (by simp) (by simp) (labels_entries s.metric)
    (Absence.holds_required (by simp) (by simp) (list_map Sample.decode_document _) trivial)

theorem Timings.decode_document (t : Timings) : decode V (t.document absence) = .sound t := by
  refine (decode_eq_sound_iff (Absence.nodup_fields (by simp))).2
    ⟨?_, fun _ => Absence.name_mem_of_mem_fields⟩
  exact Absence.holds_required (by simp) (by simp) (float_float _)
    (Absence.holds_required (by simp) (by simp) (float_float _)
      (Absence.holds_required (by simp) (by simp) (float_float _)
        (Absence.holds_required (by simp) (by simp) (float_float _)
          (Absence.holds_required (by simp) (by simp) (float_float _)
            (Absence.holds_required (by simp) (by simp) (float_float _) trivial)))))

theorem SampleCounts.decode_steps (counts : List (Binary64 × Int)) :
    V.list (V.pair V.float V.integer) (steps counts) = .sound counts :=
  list_map (fun count => (pair_iff _ _ _ _).2 ⟨_, _, rfl, float_float count.1,
    integer_int count.2⟩) counts

theorem SampleCounts.decode_document (c : SampleCounts) :
    decode V (c.document absence) = .sound c := by
  refine (decode_eq_sound_iff (Absence.nodup_fields (by simp))).2
    ⟨?_, fun _ => Absence.name_mem_of_mem_fields⟩
  exact Absence.holds_nullable (by simp) (by simp) decode_steps nofun
    (Absence.holds_required (by simp) (by simp) (integer_int _)
      (Absence.holds_required (by simp) (by simp) (integer_int _) trivial))

theorem Stats.decode_document (s : Stats) : decode V (s.document absence) = .sound s := by
  refine (decode_eq_sound_iff (Absence.nodup_fields (by simp))).2
    ⟨?_, fun _ => Absence.name_mem_of_mem_fields⟩
  exact Absence.holds_required (by simp) (by simp) (s.timings.decode_document absence)
    (Absence.holds_required (by simp) (by simp) (s.samples.decode_document absence) trivial)

theorem Stats.document_ne_null (s : Stats) : s.document absence ≠ .null := by
  rw [document]
  exact nofun

theorem Result.decode_document (r : Result) : r.decode V (r.document absence) = .sound r := by
  cases r with
  | vector samples =>
    exact map_eq_sound_iff.2
      ⟨_, list_map (LabeledSample.decode_document absence) samples, rfl⟩
  | matrix series =>
    exact map_eq_sound_iff.2 ⟨_, list_map (Series.decode_document absence) series, rfl⟩
  | scalar s => exact map_eq_sound_iff.2 ⟨_, s.decode_document, rfl⟩
  | string s => exact map_eq_sound_iff.2 ⟨_, s.decode_document, rfl⟩

theorem Data.decode_document (d : Data) : decode V (d.document absence) = .sound d := by
  have hnames : ((absence.fields [("resultType", some (.text d.result.typeName)),
      ("result", some (d.result.document absence)),
      ("stats", d.stats.map (Stats.document absence))]).map Prod.fst).Nodup :=
    Absence.nodup_fields (by simp)
  refine (decode_eq_sound_iff hnames).2 ⟨Absence.field?_fields_some (by simp) (by simp),
    (decodeLike_eq_sound_iff hnames).2 ⟨?_, fun _ => Absence.name_mem_of_mem_fields⟩⟩
  exact Absence.holds_required (by simp) (by simp)
    ((member_iff _ _ _).2 ⟨_, rfl, if_pos rfl⟩)
    (Absence.holds_required (by simp) (by simp) (d.result.decode_document absence)
      (Absence.holds_nullable (by simp) (by simp) (Stats.decode_document absence)
        (Stats.document_ne_null absence) trivial))

theorem Data.document_ne_null (d : Data) : d.document absence ≠ .null := by
  rw [document]
  exact nofun

/-- The document of an answer stands for the answer. -/
theorem Response.decode_document (R : Response) : decode V (R.document absence) = .sound R := by
  have htext (s : String) : V.text (.text s) = .sound s := (text_iff _ _).2 rfl
  have htexts (ss : List String) : V.list V.text (textList ss) = .sound ss := list_map htext ss
  refine (decode_eq_sound_iff (Absence.nodup_fields (by simp))).2
    ⟨?_, fun _ => Absence.name_mem_of_mem_fields⟩
  exact Absence.holds_required (by simp) (by simp) (Status.decode_eq_sound_iff.2 rfl)
    (Absence.holds_nullable (by simp) (by simp) (Data.decode_document absence)
      (Data.document_ne_null absence)
      (Absence.holds_nullable (by simp) (by simp) htext nofun
        (Absence.holds_nullable (by simp) (by simp) htext nofun
          (Absence.holds_nullable (by simp) (by simp) htexts nofun
            (Absence.holds_nullable (by simp) (by simp) htexts nofun trivial)))))

/-- An answer with two series, a text that is no plain numeral and a warning. -/
def Response.twoSeries : Response :=
  ⟨.success, some ⟨.matrix [⟨⟨[("job", "api")], by simp⟩,
    [⟨.zero false, "1.50"⟩, ⟨.zero true, "+Inf"⟩]⟩, ⟨⟨[], List.nodup_nil⟩, []⟩], none⟩, none, none,
    some ["slow"], none⟩

end Reading
end MetricQuery
