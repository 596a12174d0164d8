import MetricQuery.Proofs.Outcome
import MetricQuery.Proofs.Query.Run
import MetricQuery.Proofs.Schema.Checked

/-!
# What a build gives

A build finishes a query exactly when the draft asks for a text, the level of statistics is a text
or not set, and no time is missing. The query then holds that text and the other fields of the
builder. A fault of the text comes first, then the missing times.
-/

namespace MetricQuery

/-- A text that may be missing, as a value. -/
def Value.ofText? : Option String → Value
  | none => .null
  | some s => .text s

/-- What a query asks for. -/
def Query.text : Query → String
  | .instant q => q.query
  | .range q => q.query

theorem textField_eq_sound_iff {name : String} {v : Value} {s : String} :
    textField name v = .sound s ↔ v = .text s := by
  cases v <;> simp [textField, Checked.problem, Checked.under]

theorem nullableTextField_eq_sound_iff {name : String} {v : Value} {s : Option String} :
    nullableTextField name v = .sound s ↔ v = .ofText? s := by
  unfold nullableTextField
  split
  · cases s <;> simp [Value.ofText?]
  · rename_i hnull
    rw [Checked.map_eq_sound_iff]
    cases s with
    | none => simpa [Value.ofText?] using hnull
    | some s => simp [textField_eq_sound_iff, Value.ofText?]

namespace InstantBuilder

theorem query_eq_sound_iff {b : InstantBuilder} {text : Value} {q : Query} :
    b.query text = .sound q ↔ ∃ s stats, text = .text s ∧ b.draft.stats = .ofText? stats ∧
      q = .instant ⟨s, b.time, b.draft.timeout, stats⟩ := by
  simp only [query, Checked.seq_eq_sound_iff, Checked.map_eq_sound_iff, textField_eq_sound_iff,
    nullableTextField_eq_sound_iff]
  constructor
  · rintro ⟨_, stats, ⟨s, htext, rfl⟩, hstats, rfl⟩
    exact ⟨s, stats, htext, hstats, rfl⟩
  · rintro ⟨s, stats, htext, hstats, rfl⟩
    exact ⟨_, stats, ⟨s, htext, rfl⟩, hstats, rfl⟩

/-- A build reads the builder and leaves it as it is. -/
theorem on_build (b : InstantBuilder) :
    build.on b = (b.draft.queryText.mapError .error >>= fun text =>
      (b.query text).toExcept.mapError .problems, b) := by
  simp only [build, Building.on_bind, Building.on_get, Building.on_check]
  cases b.draft.queryText with
  | error e => rfl
  | ok text => exact Building.on_sound ..

end InstantBuilder

namespace RangeBuilder

theorem query_eq_sound_iff {b : RangeBuilder} {text : Value} {start stop step : String}
    {q : Query} :
    b.query text start stop step = .sound q ↔ ∃ s stats, text = .text s ∧
      b.draft.stats = .ofText? stats ∧
      q = .range ⟨s, start, stop, step, b.draft.timeout, stats⟩ := by
  simp only [query, Checked.seq_eq_sound_iff, Checked.map_eq_sound_iff, textField_eq_sound_iff,
    nullableTextField_eq_sound_iff]
  constructor
  · rintro ⟨_, stats, ⟨s, htext, rfl⟩, hstats, rfl⟩
    exact ⟨s, stats, htext, hstats, rfl⟩
  · rintro ⟨s, stats, htext, hstats, rfl⟩
    exact ⟨_, stats, ⟨s, htext, rfl⟩, hstats, rfl⟩

theorem missing_eq_nil_iff {b : RangeBuilder} : b.missing = [] ↔
    ∃ start stop step, b.start = some start ∧ b.stop = some stop ∧ b.step = some step := by
  rcases b with ⟨_, _ | start, _ | stop, _ | step⟩ <;> simp [missing]

/-- The query of a builder, or the error that lists the missing times. -/
def finish (b : RangeBuilder) (text : Value) : Except Refusal Query :=
  match b.start, b.stop, b.step with
  | some start, some stop, some step =>
    (b.query text start stop step).toExcept.mapError .problems
  | _, _, _ => .error (.error (.incompleteRange b.missing))

/-- A build reads the builder and leaves it as it is. -/
theorem on_build (b : RangeBuilder) :
    build.on b = (b.draft.queryText.mapError .error >>= b.finish, b) := by
  simp only [build, Building.on_bind, Building.on_get, Building.on_check]
  cases b.draft.queryText with
  | error e => rfl
  | ok text =>
    rcases b with ⟨draft, _ | start, _ | stop, _ | step⟩
    case some.some.some => exact Building.on_sound ..
    all_goals rfl

theorem finish_of_missing {b : RangeBuilder} (text : Value) (h : b.missing ≠ []) :
    b.finish text = .error (.error (.incompleteRange b.missing)) := by
  rcases b with ⟨draft, _ | start, _ | stop, _ | step⟩
  case some.some.some => exact absurd rfl h
  all_goals rfl

theorem finish_eq_ok_iff {b : RangeBuilder} {text : Value} {q : Query} :
    b.finish text = .ok q ↔ ∃ start stop step s stats, b.start = some start ∧
      b.stop = some stop ∧ b.step = some step ∧ text = .text s ∧
      b.draft.stats = .ofText? stats ∧
      q = .range ⟨s, start, stop, step, b.draft.timeout, stats⟩ := by
  by_cases hmissing : b.missing = []
  · obtain ⟨start, stop, step, hstart, hstop, hstep⟩ := missing_eq_nil_iff.1 hmissing
    simp [finish, hstart, hstop, hstep, mapError_eq_ok_iff, Checked.toExcept_eq_ok_iff,
      query_eq_sound_iff]
  · rw [finish_of_missing text hmissing]
    refine ⟨nofun, ?_⟩
    rintro ⟨start, stop, step, _, _, hstart, hstop, hstep, -⟩
    exact absurd (missing_eq_nil_iff.2 ⟨start, stop, step, hstart, hstop, hstep⟩) hmissing

end RangeBuilder

namespace BuilderKind

def draft : (k : BuilderKind) → k.Builder → Draft
  | instant => InstantBuilder.draft
  | range => RangeBuilder.draft

def build : (k : BuilderKind) → Building k.Builder Query
  | instant => InstantBuilder.build
  | range => RangeBuilder.build

/-- The names of the times that a builder lacks, in order. -/
def missing : (k : BuilderKind) → k.Builder → List String
  | instant => fun _ => []
  | range => RangeBuilder.missing

/-- A query of the kind of a builder holds a text and the other fields of the builder. -/
def Holds : (k : BuilderKind) → k.Builder → String → Query → Prop
  | instant, b, text, q => ∃ stats, b.draft.stats = .ofText? stats ∧
    q = .instant ⟨text, b.time, b.draft.timeout, stats⟩
  | range, b, text, q => ∃ start stop step stats, b.start = some start ∧ b.stop = some stop ∧
    b.step = some step ∧ b.draft.stats = .ofText? stats ∧
    q = .range ⟨text, start, stop, step, b.draft.timeout, stats⟩

variable {k : BuilderKind} {b : k.Builder}

theorem Holds.text_eq {text : String} {q : Query} (h : k.Holds b text q) : q.text = text := by
  cases k with
  | instant =>
    obtain ⟨stats, -, rfl⟩ := h
    rfl
  | range =>
    obtain ⟨start, stop, step, stats, -, -, -, -, rfl⟩ := h
    rfl

theorem exists_holds (text : String) {stats : Option String} (hmissing : k.missing b = [])
    (hstats : (k.draft b).stats = .ofText? stats) : ∃ q, k.Holds b text q := by
  cases k with
  | instant => exact ⟨_, stats, hstats, rfl⟩
  | range =>
    obtain ⟨start, stop, step, hstart, hstop, hstep⟩ := RangeBuilder.missing_eq_nil_iff.1 hmissing
    exact ⟨_, start, stop, step, stats, hstart, hstop, hstep, hstats, rfl⟩

theorem build_eq_ok_iff {q : Query} : (k.build.on b).1 = .ok q ↔
    ∃ text, (k.draft b).queryText = .ok (.text text) ∧ k.Holds b text q := by
  cases k with
  | instant =>
    simp only [build, InstantBuilder.on_build, bind_eq_ok, mapError_eq_ok_iff,
      Checked.toExcept_eq_ok_iff, InstantBuilder.query_eq_sound_iff]
    constructor
    · rintro ⟨_, htext, s, stats, rfl, hstats, rfl⟩
      exact ⟨s, htext, stats, hstats, rfl⟩
    · rintro ⟨s, htext, stats, hstats, rfl⟩
      exact ⟨_, htext, s, stats, rfl, hstats, rfl⟩
  | range =>
    simp only [build, RangeBuilder.on_build, bind_eq_ok, mapError_eq_ok_iff,
      RangeBuilder.finish_eq_ok_iff]
    constructor
    · rintro ⟨_, htext, start, stop, step, s, stats, hstart, hstop, hstep, rfl, hstats, rfl⟩
      exact ⟨s, htext, start, stop, step, stats, hstart, hstop, hstep, hstats, rfl⟩
    · rintro ⟨s, htext, start, stop, step, stats, hstart, hstop, hstep, hstats, rfl⟩
      exact ⟨_, htext, start, stop, step, s, stats, hstart, hstop, hstep, rfl, hstats, rfl⟩

/-- A fault of the text is reported whatever else is missing. -/
theorem build_of_error {e : Error} (h : (k.draft b).queryText = .error e) :
    (k.build.on b).1 = .error (.error e) := by
  cases k with
  | instant =>
    rw [build, InstantBuilder.on_build, show b.draft.queryText = .error e from h]
    rfl
  | range =>
    rw [build, RangeBuilder.on_build, show b.draft.queryText = .error e from h]
    rfl

theorem build_of_missing {text : Value} (h : (k.draft b).queryText = .ok text)
    (hmissing : k.missing b ≠ []) :
    (k.build.on b).1 = .error (.error (.incompleteRange (k.missing b))) := by
  cases k with
  | instant => exact absurd rfl hmissing
  | range =>
    rw [build, RangeBuilder.on_build, show b.draft.queryText = .ok text from h]
    exact RangeBuilder.finish_of_missing text hmissing

end BuilderKind
end MetricQuery
