import MetricQuery.Proofs.Outcome
import MetricQuery.Proofs.Schema.Lawful
import MetricQuery.Response.Decode

/-!
# Decoded answers

What it means that a document is the document of an answer, level by level: each record holds its
required fields, its optional fields where they are given, and no others. An answer may arrive as a
text, as bytes or as a value, and is read by the document that it holds.
-/

namespace MetricQuery

open Schema Checked

open Validator.Lawful

variable {V : Validator} [V.Lawful] {v : Json} {fields : Json.Fields}

theorem Sample.decode_eq_sound_iff {s : Sample} : Sample.decode V v = .sound s ↔
    ∃ t, v = .list [t, .text s.value] ∧ V.float t = .sound s.time := by
  simp only [Sample.decode, map_eq_sound_iff, pair_iff, text_iff]
  constructor
  · rintro ⟨_, ⟨t, _, rfl, ht, rfl⟩, rfl⟩
    exact ⟨t, rfl, ht⟩
  · rintro ⟨t, rfl, ht⟩
    exact ⟨(s.time, s.value), ⟨t, _, rfl, ht, rfl⟩, rfl⟩

/-! ### Records -/

def LabeledSample.contents (s : LabeledSample) : Labels × Sample × Unit := (s.metric, s.sample, ())

theorem LabeledSample.decode_eq_sound_iff {s : LabeledSample}
    (hnames : (fields.map Prod.fst).Nodup) : decode V (.record fields) = .sound s ↔
      (declared V).Holds fields s.contents ∧ ∀ field ∈ fields, field.1 ∈ (declared V).names :=
  map_record_iff contents (fun _ => rfl) (fun _ => rfl) hnames

def Series.contents (s : Series) : Labels × List Sample × Unit := (s.metric, s.samples, ())

theorem Series.decode_eq_sound_iff {s : Series} (hnames : (fields.map Prod.fst).Nodup) :
    decode V (.record fields) = .sound s ↔
      (declared V).Holds fields s.contents ∧ ∀ field ∈ fields, field.1 ∈ (declared V).names :=
  map_record_iff contents (fun _ => rfl) (fun _ => rfl) hnames

def Timings.contents (t : Timings) :
    Binary64 × Binary64 × Binary64 × Binary64 × Binary64 × Binary64 × Unit :=
  (t.evalTotal, t.resultSort, t.queryPreparation, t.innerEval, t.execQueue, t.execTotal, ())

theorem Timings.decode_eq_sound_iff {t : Timings} (hnames : (fields.map Prod.fst).Nodup) :
    decode V (.record fields) = .sound t ↔
      (declared V).Holds fields t.contents ∧ ∀ field ∈ fields, field.1 ∈ (declared V).names :=
  map_record_iff contents (fun _ => rfl) (fun _ => rfl) hnames

def SampleCounts.contents (c : SampleCounts) : Option (List (Binary64 × Int)) × Int × Int × Unit :=
  (c.perStep, c.total, c.peak, ())

theorem SampleCounts.decode_eq_sound_iff {c : SampleCounts} (hnames : (fields.map Prod.fst).Nodup) :
    decode V (.record fields) = .sound c ↔
      (declared V).Holds fields c.contents ∧ ∀ field ∈ fields, field.1 ∈ (declared V).names :=
  map_record_iff contents (fun _ => rfl) (fun _ => rfl) hnames

def Stats.contents (s : Stats) : Timings × SampleCounts × Unit := (s.timings, s.samples, ())

theorem Stats.decode_eq_sound_iff {s : Stats} (hnames : (fields.map Prod.fst).Nodup) :
    decode V (.record fields) = .sound s ↔
      (declared V).Holds fields s.contents ∧ ∀ field ∈ fields, field.1 ∈ (declared V).names :=
  map_record_iff contents (fun _ => rfl) (fun _ => rfl) hnames

/-! ### Results -/

namespace Result

/-- The decoder of results of the kind of a given one. -/
def decode (V : Validator) : Result → Decoder Result
  | vector _ => fun v => vector <$> V.list (LabeledSample.decode V) v
  | matrix _ => fun v => matrix <$> V.list (Series.decode V) v
  | scalar _ => fun v => scalar <$> Sample.decode V v
  | string _ => fun v => string <$> Sample.decode V v

omit [V.Lawful] in
theorem decoder?_typeName (r : Result) : decoder? V r.typeName = some (r.decode V) := by
  cases r <;> rfl

omit [V.Lawful] in
/-- A decoder of a kind gives results of that kind. -/
theorem decoder?_eq_some_iff {name : String} {d : Decoder Result} {r : Result}
    (hr : d v = .sound r) : decoder? V name = some d ↔ name = r.typeName ∧ d = r.decode V := by
  constructor
  · intro h
    unfold decoder? at h
    split at h
    case h_5 => cases h
    all_goals
      obtain rfl := Option.some.inj h
      obtain ⟨_, -, rfl⟩ := map_eq_sound_iff.1 hr
      exact ⟨rfl, rfl⟩
  · rintro ⟨rfl, rfl⟩
    exact r.decoder?_typeName

end Result

namespace Data

/-- What the fields of data stand for. The kind says nothing that the result does not. -/
def contents (d : Data) : Unit × Result × Option Stats × Unit := ((), d.result, d.stats, ())

/-- The decoder of data with a result of a kind. -/
def decodeLike (V : Validator) (r : Result) : Decoder Data := decodeAs V r.typeName (r.decode V)

theorem decodeLike_eq_sound_iff {r : Result} {d : Data} (hnames : (fields.map Prod.fst).Nodup) :
    decodeLike V r (.record fields) = .sound d ↔
      (declared V r.typeName (r.decode V)).Holds fields d.contents ∧
        ∀ field ∈ fields, field.1 ∈ (declared V r.typeName (r.decode V)).names :=
  map_record_iff contents (fun _ => rfl) (fun _ => rfl) hnames

theorem decode_eq_sound_iff {d : Data} (hnames : (fields.map Prod.fst).Nodup) :
    decode V (.record fields) = .sound d ↔
      Json.field? fields "resultType" = some (.text d.result.typeName) ∧
        decodeLike V d.result (.record fields) = .sound d := by
  rw [decode, tagged_iff _ _ hnames]
  constructor
  · rintro ⟨name, decode, htag, hdecode, h⟩
    obtain ⟨decodeResult, hkind, rfl⟩ := Option.map_eq_some_iff.1 hdecode
    obtain ⟨⟨-, ⟨w, -, hw⟩, -⟩, -⟩ :=
      (map_record_iff contents (fun _ => rfl) (fun _ => rfl) hnames).1 h
    obtain ⟨rfl, rfl⟩ := (Result.decoder?_eq_some_iff hw).1 hkind
    exact ⟨htag, h⟩
  · rintro ⟨htag, h⟩
    exact ⟨_, _, htag, by rw [Result.decoder?_typeName]; rfl, h⟩

end Data

theorem Status.ofName?_eq_some_iff {name : String} {s : Status} :
    Status.ofName? name = some s ↔ name = s.name := by
  constructor
  · intro h
    have hname := List.find?_some h
    exact (beq_iff_eq.1 hname).symm
  · rintro rfl
    cases s <;> rfl

theorem Status.decode_eq_sound_iff {s : Status} :
    Status.decode V v = .sound s ↔ v = .text s.name := by
  simp only [Status.decode, member_iff, ofName?_eq_some_iff, exists_eq_right]

namespace Response

def contents (R : Response) : Status × Option Data × Option String × Option String ×
    Option (List String) × Option (List String) × Unit :=
  (R.status, R.data, R.errorType, R.error, R.warnings, R.infos, ())

theorem decode_eq_sound_iff {R : Response} (hnames : (fields.map Prod.fst).Nodup) :
    decode V (.record fields) = .sound R ↔
      (declared V).Holds fields R.contents ∧ ∀ field ∈ fields, field.1 ∈ (declared V).names :=
  map_record_iff contents (fun _ => rfl) (fun _ => rfl) hnames

/-! ### Payloads -/

section Payloads

variable {L : Library} {source : Source} {R : Response} {p : Payload} {s : String}

/-- What a payload says as a document, and in which of the two ways the document arrives. -/
inductive Payload.Holds (L : Library) : Payload → Source → Json → Prop where
  | text {s : String} {v : Json} (h : L.read s = .ok v) : Holds L (.text s) .text v
  | bytes {b : ByteArray} {s : String} {v : Json} (hs : String.fromUTF8? b = some s)
    (h : L.read s = .ok v) : Holds L (.bytes b) .text v
  | textValue {s : String} {v : Json} (h : L.read s = .ok v) : Holds L (.value (.text s)) .text v
  | value (fields : Json.Fields) : Holds L (.value (.record fields)) .value (.record fields)

theorem ofTextBy_eq (h : L.read s = .ok v) :
    ofTextBy L s = decode (L.validator .text) v := by
  rw [ofTextBy, h]

/-- A payload is read by the document that it holds, in whatever form it holds it. -/
theorem readBy_of_holds (h : p.Holds L source v) :
    readBy L p = (decode (L.validator source) v).toExcept.mapError .problems := by
  cases h with
  | text h => rw [readBy, ofTextBy_eq h]
  | bytes hs h => simp only [readBy, ofBytesBy, hs, ofTextBy_eq h]
  | textValue h => rw [readBy, ofTextBy_eq h]
  | value fields => rfl

theorem readBy_eq_ok_iff (h : p.Holds L source v) :
    readBy L p = .ok R ↔ decode (L.validator source) v = .sound R := by
  rw [readBy_of_holds h, mapError_eq_ok_iff, toExcept_eq_ok_iff]

theorem exists_document_of_ofTextBy (h : ofTextBy L s = .sound R) : ∃ v, L.read s = .ok v := by
  unfold ofTextBy at h
  split at h
  case h_1 v hv => exact ⟨v, hv⟩
  case h_2 => exact absurd h problem_ne_sound

theorem exists_text_of_ofBytesBy {b : ByteArray} (h : ofBytesBy L b = .sound R) :
    ∃ s, String.fromUTF8? b = some s ∧ ofTextBy L s = .sound R := by
  unfold ofBytesBy at h
  split at h
  case h_1 s hs => exact ⟨s, hs, h⟩
  case h_2 => exact absurd h problem_ne_sound

theorem exists_document (h : readBy L p = .ok R) : ∃ source v, p.Holds L source v := by
  unfold readBy at h
  split at h
  case h_1 s =>
    rw [mapError_eq_ok_iff, toExcept_eq_ok_iff] at h
    obtain ⟨v, hv⟩ := exists_document_of_ofTextBy h
    exact ⟨_, v, .text hv⟩
  case h_2 b =>
    rw [mapError_eq_ok_iff, toExcept_eq_ok_iff] at h
    obtain ⟨s, hs, h⟩ := exists_text_of_ofBytesBy h
    obtain ⟨v, hv⟩ := exists_document_of_ofTextBy h
    exact ⟨_, v, .bytes hs hv⟩
  case h_3 fields => exact ⟨_, _, .value fields⟩
  case h_4 s =>
    rw [mapError_eq_ok_iff, toExcept_eq_ok_iff] at h
    obtain ⟨v, hv⟩ := exists_document_of_ofTextBy h
    exact ⟨_, v, .textValue hv⟩
  case h_5 => cases h

/-- Every payload that is read holds a record. -/
theorem exists_holds [∀ source, (L.validator source).Lawful] (h : readBy L p = .ok R) :
    ∃ source fields, p.Holds L source (.record fields) := by
  obtain ⟨source, v, hv⟩ := exists_document h
  obtain ⟨fields, rfl⟩ := exists_record_of_map ((readBy_eq_ok_iff hv).1 h)
  exact ⟨source, fields, hv⟩

end Payloads

end Response
end MetricQuery
