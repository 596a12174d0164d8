import Mathlib.Data.Set.List
import MetricQuery.Proofs.Query.Interleaving

/-!
# When a build succeeds

Where metrics, labels and levels of statistics are texts, a build succeeds exactly when the run gave
either an expression or something that selects, and all the times of its kind. Which of the two
errors is raised otherwise, and what the query holds, follows from the history as well.
-/

namespace MetricQuery

/-- A matcher of texts, as it is given. -/
def GivenMatcher.ofMatcher (m : Matcher) : GivenMatcher := ⟨m.op, .text m.name, .text m.value⟩

theorem GivenMatcher.mapM_text_ofMatcher (ms : List Matcher) :
    (ms.map ofMatcher).mapM text = .ok (ms.map Matcher.text) := by
  induction ms with
  | nil => rfl
  | cons m ms ih =>
    rw [List.map_cons, List.mapM_cons, ih]
    rfl

/-! ### Runs on texts -/

/-- Metrics, matchers and levels of statistics are given as texts. -/
structure Update.IsTextual (u : Update) : Prop where
  metric : ∀ name, u.metric? = some name → ∃ s, name = .text s
  label : ∀ given, u.label? = some given → ∃ m, given = .ofMatcher m
  stats : ∀ level, u.stats? = some level → ∃ s, level = .text s

theorem Update.isTextual_text (slot : Slot) (s : String) : (Update.text slot s).IsTextual :=
  ⟨nofun, nofun, nofun⟩

/-- Metrics, matchers and levels of statistics are texts. Expressions, times and durations may be
anything. -/
def Draft.Edit.IsTextual : Edit → Prop
  | .metric name => ∃ s, name = .text s
  | .label _ name value => ∃ s t, name = .text s ∧ value = .text t
  | .timeout _ => True
  | .stats level => ∃ s, level = .text s

theorem Draft.Edit.IsTextual.update {e : Edit} (htextual : e.IsTextual) {u : Update}
    (hu : e.update = .ok u) : u.IsTextual := by
  cases e with
  | metric given =>
    obtain ⟨s, rfl⟩ := htextual
    obtain ⟨_, hname, rfl⟩ := map_eq_ok.1 hu
    obtain ⟨name, -, rfl⟩ := map_eq_ok.1 hname
    exact ⟨fun _ h => ⟨name, (Option.some.inj h).symm⟩, nofun, nofun⟩
  | label op name value =>
    obtain ⟨s, t, rfl, rfl⟩ := htextual
    obtain rfl := Except.ok.inj hu
    exact ⟨nofun, fun _ h => ⟨⟨s, t, op⟩, (Option.some.inj h).symm⟩, nofun⟩
  | timeout given =>
    obtain ⟨text, -, rfl⟩ := map_eq_ok.1 hu
    exact Update.isTextual_text ..
  | stats level =>
    obtain ⟨s, rfl⟩ := htextual
    obtain rfl := Except.ok.inj hu
    exact ⟨nofun, nofun, fun _ h => ⟨s, (Option.some.inj h).symm⟩⟩

namespace BuilderKind

variable {k : BuilderKind}

def IsTextual : (k : BuilderKind) → k.Call → Prop
  | instant => fun | .edit e => e.IsTextual | _ => True
  | range => fun | .edit e => e.IsTextual | _ => True

theorem IsTextual.update {call : k.Call} (htextual : k.IsTextual call) {u : Update}
    (hu : k.update? call = some (.ok u)) : u.IsTextual := by
  cases k with
  | instant =>
    cases call with
    | edit e => exact Draft.Edit.IsTextual.update htextual (Option.some.inj hu)
    | expression v | «at» v =>
      obtain ⟨text, -, rfl⟩ := map_eq_ok.1 (Option.some.inj hu)
      exact Update.isTextual_text ..
    | build => cases hu
  | range =>
    cases call with
    | edit e => exact Draft.Edit.IsTextual.update htextual (Option.some.inj hu)
    | expression v | start v | stop v | step v =>
      obtain ⟨text, -, rfl⟩ := map_eq_ok.1 (Option.some.inj hu)
      exact Update.isTextual_text ..
    | build => cases hu

end BuilderKind

namespace History

def IsTextual (h : History) : Prop := ∀ u ∈ h, u.IsTextual

variable {h : History}

/-- What was given last is a text where every update gives a text. -/
theorem exists_text_of_last {f : Update → Option Value}
    (hf : ∀ u ∈ h, ∀ v, f u = some v → ∃ s, v = .text s) :
    ∃ last, (h.filterMap f).getLast? = Option.map Value.text last := by
  cases hlast : (h.filterMap f).getLast? with
  | none => exact ⟨none, rfl⟩
  | some v =>
    obtain ⟨u, hu, hv⟩ := List.mem_filterMap.1 (List.mem_of_getLast? hlast)
    obtain ⟨s, rfl⟩ := hf u hu v hv
    exact ⟨some s, rfl⟩

theorem IsTextual.metric (htextual : h.IsTextual) : ∃ name, h.metric = Option.map .text name :=
  exists_text_of_last fun u hu => (htextual u hu).metric

theorem IsTextual.stats (htextual : h.IsTextual) : ∃ level, h.stats = Option.map .text level :=
  exists_text_of_last fun u hu => (htextual u hu).stats

theorem IsTextual.labels (htextual : h.IsTextual) : ∃ ms, h.labels = List.map .ofMatcher ms := by
  have hmem : h.labels ∈ Set.range (List.map GivenMatcher.ofMatcher) := by
    rw [Set.range_list_map]
    intro given hgiven
    obtain ⟨u, hu, hlabel⟩ := List.mem_filterMap.1 hgiven
    obtain ⟨m, rfl⟩ := (htextual u hu).label given hlabel
    exact ⟨m, rfl⟩
  obtain ⟨ms, hms⟩ := hmem
  exact ⟨ms, hms.symm⟩

end History

namespace BuilderKind

variable {k : BuilderKind} {calls : List k.Call}

theorem history_isTextual (htextual : ∀ call ∈ calls, k.IsTextual call) :
    (k.history calls).IsTextual := by
  intro u hu
  obtain ⟨call, hcall, hgives⟩ := exists_of_mem_history k hu
  exact (htextual call hcall).update hgives

end BuilderKind

/-! ### What a history asks for -/

namespace History

/-- An expression was given, and nothing that selects. -/
def IsExpression (h : History) : Prop :=
  h.text .expression ≠ none ∧ h.metric = none ∧ h.labels = []

/-- A metric or a label was given, and no expression. -/
def IsSelector (h : History) : Prop :=
  h.text .expression = none ∧ (h.metric ≠ none ∨ h.labels ≠ [])

/-- Exactly one of an expression and a selector was given. -/
def IsDefinite (h : History) : Prop := Xor h.IsExpression h.IsSelector

/-- The text that a history asks for: its last expression, its last metric, its labels between
braces, or its last metric and its labels. -/
inductive Asks (h : History) : String → Prop
  | expression {text} : h.text .expression = some text → h.metric = none → h.labels = [] →
      Asks h text
  | metric {name} : h.text .expression = none → h.metric = some (.text name) → h.labels = [] →
      Asks h name
  | labels {m ms} : h.text .expression = none → h.metric = none →
      h.labels = (m :: ms).map .ofMatcher → Asks h (Matcher.braces (m :: ms))
  | metricLabels {name m ms} : h.text .expression = none → h.metric = some (.text name) →
      h.labels = (m :: ms).map .ofMatcher → Asks h (name ++ Matcher.braces (m :: ms))

variable {h : History}

theorem Asks.isDefinite {text : String} (hasks : h.Asks text) : h.IsDefinite := by
  cases hasks with
  | expression hexpression hmetric hlabels =>
    refine .inl ⟨⟨by simp [hexpression], hmetric, hlabels⟩, fun hselector => ?_⟩
    simp [hselector.1] at hexpression
  | metric hexpression hmetric hlabels =>
    exact .inr ⟨⟨hexpression, .inl (by simp [hmetric])⟩, fun hexpr => hexpr.1 hexpression⟩
  | labels hexpression hmetric hlabels =>
    exact .inr ⟨⟨hexpression, .inr (by simp [hlabels])⟩, fun hexpr => hexpr.1 hexpression⟩
  | metricLabels hexpression hmetric hlabels =>
    exact .inr ⟨⟨hexpression, .inl (by simp [hmetric])⟩, fun hexpr => hexpr.1 hexpression⟩

theorem not_isDefinite_of_both {text : String} (hexpression : h.text .expression = some text)
    (hselects : h.metric ≠ none ∨ h.labels ≠ []) : ¬ h.IsDefinite := by
  rintro (⟨⟨-, hmetric, hlabels⟩, -⟩ | ⟨⟨hnone, -⟩, -⟩)
  · exact hselects.elim (· hmetric) (· hlabels)
  · simp [hnone] at hexpression

theorem not_isDefinite_of_neither (hexpression : h.text .expression = none)
    (hmetric : h.metric = none) (hlabels : h.labels = []) : ¬ h.IsDefinite := by
  rintro (⟨⟨hsome, -⟩, -⟩ | ⟨⟨-, hselects⟩, -⟩)
  · exact hsome hexpression
  · exact hselects.elim (· hmetric) (· hlabels)

end History

theorem Value.getD_map_text (s : Option String) : (s.map text).getD .null = ofText? s := by
  cases s <;> rfl

namespace Draft

theorem braces_eq {d : Draft} {ms : List Matcher} (hmatchers : d.matchers = ms.map .ofMatcher) :
    d.braces = .ok (Matcher.braces ms) := by
  rw [braces, hmatchers, GivenMatcher.mapM_text_ofMatcher]
  rfl

theorem queryText_eq {d : Draft} {name : Option String} {ms : List Matcher}
    (hmetric : d.metric = .ofText? name) (hmatchers : d.matchers = ms.map .ofMatcher) :
    d.queryText = match d.expression, name, ms with
      | some text, none, [] => .ok (.text text)
      | some _, _, _ => .error .expressionWithSelector
      | none, none, [] => .error .emptySelector
      | none, some name, [] => .ok (.text name)
      | none, none, ms => .ok (.text (Matcher.braces ms))
      | none, some name, ms => .ok (.text (name ++ Matcher.braces ms)) := by
  have hbraces := braces_eq hmatchers
  obtain ⟨metric, matchers, expression, timeout, stats⟩ := d
  obtain rfl : metric = .ofText? name := hmetric
  obtain rfl : matchers = ms.map .ofMatcher := hmatchers
  rcases expression with _ | text <;> rcases name with _ | name <;> rcases ms with _ | ⟨m, ms⟩
  -- Only with matchers is there something to work out, which is the text between the braces.
  case none.none.cons => exact map_eq_ok.2 ⟨_, hbraces, rfl⟩
  case none.some.cons => exact bind_eq_ok.2 ⟨_, hbraces, rfl⟩
  all_goals rfl

end Draft

namespace History

variable {h : History}

/-- A draft of texts has the text that its history asks for. Where the history is not definite, the
error says so. -/
theorem queryText_ofHistory (htextual : h.IsTextual) :
    (∃ text, h.Asks text ∧ (Draft.ofHistory h).queryText = .ok (.text text)) ∨
    ¬ h.IsDefinite ∧ ∃ e, (Draft.ofHistory h).queryText = .error e ∧ e.kind = .vectorSelector := by
  obtain ⟨name, hmetric⟩ := htextual.metric
  obtain ⟨ms, hlabels⟩ := htextual.labels
  have hdraft : (Draft.ofHistory h).metric = .ofText? name := by
    rw [Draft.ofHistory, hmetric, Value.getD_map_text]
  rw [Draft.queryText_eq hdraft hlabels,
    show (Draft.ofHistory h).expression = h.text .expression from rfl]
  -- Of the eight cases of expression, metric and labels four have a text.
  rcases hexpression : h.text .expression with _ | text <;> rcases name with _ | name <;>
    rcases ms with _ | ⟨m, ms⟩
  case none.none.nil =>
    exact .inr ⟨not_isDefinite_of_neither hexpression hmetric hlabels, _, rfl, rfl⟩
  case none.none.cons => exact .inl ⟨_, .labels hexpression hmetric hlabels, rfl⟩
  case none.some.nil => exact .inl ⟨_, .metric hexpression hmetric hlabels, rfl⟩
  case none.some.cons => exact .inl ⟨_, .metricLabels hexpression hmetric hlabels, rfl⟩
  case some.none.nil => exact .inl ⟨_, .expression hexpression hmetric hlabels, rfl⟩
  case some.none.cons =>
    exact .inr ⟨not_isDefinite_of_both hexpression (.inr (by simp [hlabels])), _, rfl, rfl⟩
  case some.some.nil =>
    exact .inr ⟨not_isDefinite_of_both hexpression (.inl (by simp [hmetric])), _, rfl, rfl⟩
  case some.some.cons =>
    exact .inr ⟨not_isDefinite_of_both hexpression (.inl (by simp [hmetric])), _, rfl, rfl⟩

end History

/-! ### Builds -/

namespace BuilderKind

/-- The times that a query of a kind has to have. -/
def times : BuilderKind → List Slot
  | instant => []
  | range => [.start, .stop, .step]

/-- The times that a query of a kind has to have and a history does not give. -/
def unset (k : BuilderKind) (h : History) : List Slot :=
  k.times.filter fun slot => (h.text slot).isNone

variable {k : BuilderKind} {h : History}

theorem missing_ofHistory : k.missing (k.ofHistory h) = (k.unset h).map Slot.name := by
  cases k with
  | instant => rfl
  | range =>
    simp only [missing, ofHistory, RangeBuilder.missing, RangeBuilder.ofHistory, unset, times]
    cases hstart : h.text .start <;> cases hstop : h.text .stop <;> cases hstep : h.text .step <;>
      simp [hstart, hstop, hstep, Slot.name]

theorem missing_ofHistory_eq_nil_iff : k.missing (k.ofHistory h) = [] ↔ k.unset h = [] := by
  rw [missing_ofHistory, List.map_eq_nil_iff]

theorem exists_stats_ofHistory (htextual : h.IsTextual) :
    ∃ stats, (k.draft (k.ofHistory h)).stats = .ofText? stats := by
  obtain ⟨level, hlevel⟩ := htextual.stats
  exact ⟨level, by rw [draft_ofHistory, Draft.ofHistory, hlevel, Value.getD_map_text]⟩

/-- A fault of the text is raised whatever else the history lacks. -/
theorem build_of_not_isDefinite (htextual : h.IsTextual) (hdefinite : ¬ h.IsDefinite) :
    ∃ e, (k.build.on (k.ofHistory h)).1 = .error (.error e) ∧ e.kind = .vectorSelector := by
  rcases History.queryText_ofHistory htextual with ⟨text, hasks, -⟩ | ⟨-, e, he, hkind⟩
  · exact absurd hasks.isDefinite hdefinite
  · exact ⟨e, build_of_error (by rw [draft_ofHistory, he]), hkind⟩

/-- Where the text is no fault, the error names the missing times. -/
theorem build_of_unset (htextual : h.IsTextual) (hdefinite : h.IsDefinite)
    (hunset : k.unset h ≠ []) : (k.build.on (k.ofHistory h)).1 =
      .error (.error (.incompleteRange ((k.unset h).map Slot.name))) := by
  rcases History.queryText_ofHistory htextual with ⟨text, -, htext⟩ | ⟨hnot, -⟩
  · rw [← missing_ofHistory]
    refine build_of_missing (by rw [draft_ofHistory, htext]) ?_
    exact mt missing_ofHistory_eq_nil_iff.1 hunset
  · exact absurd hdefinite hnot

theorem build_of_isDefinite (htextual : h.IsTextual) (hdefinite : h.IsDefinite)
    (hunset : k.unset h = []) : ∃ q, (k.build.on (k.ofHistory h)).1 = .ok q := by
  rcases History.queryText_ofHistory htextual with ⟨text, -, htext⟩ | ⟨hnot, -⟩
  · obtain ⟨stats, hstats⟩ := exists_stats_ofHistory (k := k) htextual
    obtain ⟨q, hq⟩ := exists_holds text (missing_ofHistory_eq_nil_iff.2 hunset) hstats
    exact ⟨q, build_eq_ok_iff.2 ⟨text, by rw [draft_ofHistory, htext], hq⟩⟩
  · exact absurd hdefinite hnot

end BuilderKind

namespace History

end History

namespace BuilderKind

end BuilderKind
end MetricQuery
