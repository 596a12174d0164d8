import MetricQuery.Proofs.Phrase.Outline
import MetricQuery.Proofs.Phrase.RoundTrip
import MetricQuery.Proofs.Query.Contract

/-!
# Builders and selectors

A metric and matchers can be given to a builder of queries, which keeps the metric apart, or to a
selector, where the metric is one more matcher. Both lead to the same selection: the same steps
fail, and what is written in the end is read back as the same matchers.
-/

namespace MetricQuery
open Scan

/-! ### Names of metrics -/

/-- The characters of the names of metrics. -/
def isMetricChar (c : Char) : Bool := isWordChar c || c == ':'

/-- The names of metrics: a letter, an underscore or a colon, then such characters and digits. -/
def isMetricIdentifier (s : String) : Bool :=
  match s.toList with
  | [] => false
  | c :: cs => (c.isAlpha || c == '_' || c == ':') && cs.all isMetricChar

theorem ne_nil_of_isMetricIdentifier {s : String} (h : isMetricIdentifier s) : s.toList ≠ [] := by
  intro hnil
  simp [isMetricIdentifier, hnil] at h

theorem isMetricChar_of_mem {s : String} (h : isMetricIdentifier s) {c : Char}
    (hc : c ∈ s.toList) : isMetricChar c := by
  unfold isMetricIdentifier at h
  split at h
  · cases h
  · rename_i d cs hs
    simp only [Bool.and_eq_true, List.all_eq_true] at h
    rcases List.mem_cons.1 (hs ▸ hc) with rfl | hc
    · have hfirst := h.1
      simp only [isMetricChar, isWordChar, Char.isAlphanum, Bool.or_eq_true] at hfirst ⊢
      tauto
    · exact h.2 c hc

/-- What is selected: a metric, if one is named, and matchers. -/
structure Selection where
  metric : Option String
  labels : List Matcher

namespace Selection

/-- The matchers of a selection in their order. The name of a metric is a matcher on its label. -/
def matchers (x : Selection) : List Matcher :=
  (x.metric.map (⟨Selector.metricLabel, ·, .equal⟩)).toList ++ x.labels

/-- The names are such that readers can tell them from what follows. -/
structure Proper (x : Selection) : Prop where
  metric : ∀ name ∈ x.metric, isMetricIdentifier name
  labels : ∀ m ∈ x.labels, isIdentifier m.name

theorem Proper.matchers {x : Selection} (h : x.Proper) :
    ∀ m ∈ x.matchers, isIdentifier m.name := by
  intro m hm
  rcases List.mem_append.1 hm with hm | hm
  · obtain ⟨name, -, rfl⟩ := Option.map_eq_some_iff.1 (Option.mem_toList.1 hm)
    exact (by decide : isIdentifier Selector.metricLabel)
  · exact h.labels m hm

/-! ### Reading selections -/

/-- The matchers between braces, up to the end of a text. -/
def readBraces? : List Char → Option (List Matcher)
  | '\x7b' :: cs =>
    match listed readMatcher? cs with
    | (ms, ['\x7d']) => some ms
    | _ => none
  | _ => none

/-- The selection that a text writes: the name of a metric, matchers between braces, or both. -/
def read? (s : String) : Option Selection :=
  match run isMetricChar s.toList with
  | ([], rest) => (readBraces? rest).map (⟨none, ·⟩)
  | (name, rest) =>
    if isMetricIdentifier (String.ofList name) then
      (if rest.isEmpty then some [] else readBraces? rest).map (⟨some (String.ofList name), ·⟩)
    else none

theorem readBraces?_braces {ms : List Matcher} (h : ∀ m ∈ ms, isIdentifier m.name) :
    readBraces? (Matcher.braces ms).toList = some ms := by
  rw [Phrase.toList_braces, readBraces?, Phrase.listed_readMatcher? h]
  rfl

theorem read?_braces {ms : List Matcher} (h : ∀ m ∈ ms, isIdentifier m.name) :
    read? (Matcher.braces ms) = some ⟨none, ms⟩ := by
  have hstops : Stops isMetricChar (Matcher.braces ms).toList := by
    rw [Phrase.toList_braces]
    exact stops_of_head rfl _
  have hrun : run isMetricChar ([] ++ (Matcher.braces ms).toList) =
      ([], (Matcher.braces ms).toList) := run_append (List.forall_mem_nil _) hstops
  rw [List.nil_append] at hrun
  rw [read?, hrun]
  exact Option.map_eq_some_iff.2 ⟨ms, readBraces?_braces h, rfl⟩

/-- A name of a metric is read before the end of a text or an opening brace. -/
theorem read?_append {name text : String} (h : isMetricIdentifier name) {ms : List Matcher}
    (hstops : Stops isMetricChar text.toList)
    (htext : (if text.toList.isEmpty then some [] else readBraces? text.toList) = some ms) :
    read? (name ++ text) = some ⟨some name, ms⟩ := by
  have hrun : run isMetricChar (name ++ text).toList = (name.toList, text.toList) := by
    rw [String.toList_append]
    exact run_append (fun c => isMetricChar_of_mem h) hstops
  obtain ⟨c, cs, hname⟩ := List.exists_cons_of_ne_nil (ne_nil_of_isMetricIdentifier h)
  rw [read?, hrun, hname]
  dsimp only
  rw [← hname, String.ofList_toList, if_pos h, htext]
  rfl

theorem read?_metric {name : String} (h : isMetricIdentifier name) :
    read? name = some ⟨some name, []⟩ := by
  have hread : read? (name ++ "") = some ⟨some name, []⟩ := read?_append h nofun rfl
  rwa [String.append_empty] at hread

theorem read?_metric_braces {name : String} (hname : isMetricIdentifier name) {ms : List Matcher}
    (h : ∀ m ∈ ms, isIdentifier m.name) :
    read? (name ++ Matcher.braces ms) = some ⟨some name, ms⟩ := by
  refine read?_append hname ?_ ?_
  · rw [Phrase.toList_braces]
    exact stops_of_head rfl _
  · rw [readBraces?_braces h, Phrase.toList_braces]
    rfl

end Selection

/-! ### The same steps on builders and on selectors -/

namespace Selector

/-- Steps one after another, where a step that fails leaves the selector as it was: what each of
them raises, and the selector in the end. -/
def attempt (s : Selector) : List Step → List (Option Error) × Selector
  | [] => ([], s)
  | st :: steps =>
    match s.step st with
    | .ok s' => (none :: (s'.attempt steps).1, (s'.attempt steps).2)
    | .error e => (some e :: (s.attempt steps).1, (s.attempt steps).2)

namespace Step

def isMetric : Step → Bool
  | metric _ => true
  | label .. => false

/-- The names of metrics and labels are identifiers. Values are any texts. -/
def Proper : Step → Prop
  | metric name => isMetricIdentifier name
  | label _ name _ => isIdentifier name

instance : DecidablePred Proper
  | metric name => inferInstanceAs (Decidable (isMetricIdentifier name = true))
  | label _ name _ => inferInstanceAs (Decidable (isIdentifier name = true))

/-- The edit of a draft that corresponds to a step. -/
def edit : Step → Draft.Edit
  | metric name => .metric (.text name)
  | label op name value => .label op (.text name) (.text value)

/-- What the edit gives to a draft. -/
def update : Step → Update
  | metric name => .metric (.text name)
  | label op name value => .label (.ofMatcher ⟨name, value, op⟩)

/-- A step fails alike on every draft and on every selector, or it fails on none. -/
theorem cases_fault (st : Step) :
    (∃ e, st.edit.update = .error e ∧ (∀ s : Selector, s.step st = .error e) ∧
      e.kind = .metricName) ∨
    st.edit.update = .ok st.update ∧ ∀ s : Selector, ∃ s', s.step st = .ok s' := by
  cases st with
  | label op name value => exact .inr ⟨rfl, fun s => ⟨_, rfl⟩⟩
  | metric name =>
    by_cases hname : name ∈ reservedNames
    · have hfault : metricName name = .error (.reservedName name) := if_pos hname
      refine .inl ⟨.reservedName name, ?_, fun s => ?_, rfl⟩
      · rw [edit, Draft.Edit.update, Draft.metricName, hfault]
        rfl
      · rw [Selector.step, withMetric, hfault]
        rfl
    · have hsound : metricName name = .ok name := if_neg hname
      refine .inr ⟨?_, fun s => ⟨⟨⟨metricLabel, name, .equal⟩ :: s.matchers⟩, ?_⟩⟩
      · rw [edit, Draft.Edit.update, Draft.metricName, hsound]
        rfl
      · rw [Selector.step, withMetric, hsound]
        rfl

end Step
end Selector

namespace Selection

/-- A draft and a selector hold the same selection. -/
structure Held (x : Selection) (d : Draft) (s : Selector) : Prop where
  proper : x.Proper
  metric : d.metric = .ofText? x.metric
  labels : d.matchers = x.labels.map .ofMatcher
  matchers : s.matchers = x.matchers

/-- A selection with what a step gives. -/
def add (x : Selection) : Selector.Step → Selection
  | .metric name => { x with metric := some name }
  | .label op name value => { x with labels := x.labels ++ [⟨name, value, op⟩] }

variable {x : Selection} {d : Draft} {s s' : Selector} {st : Selector.Step}

/-- A first metric goes in front of the matchers of a selector, any other matcher to the end. -/
theorem Held.add (h : x.Held d s) (hst : st.Proper) (hmetric : st.isMetric → x.metric = none)
    (hstep : s.step st = .ok s') : (x.add st).Held (d.write st.update) s' := by
  obtain ⟨hproper, hname, hlabels, hmatchers⟩ := h
  cases st with
  | metric name =>
    obtain ⟨_, hsound, rfl⟩ := map_eq_ok.1 hstep
    obtain rfl := Selector.eq_of_metricName hsound
    refine ⟨⟨fun n hn => Option.some.inj hn ▸ hst, hproper.labels⟩, rfl, hlabels, ?_⟩
    simp [hmatchers, Selection.matchers, Selection.add, hmetric rfl]
  | label op name value =>
    obtain rfl := Except.ok.inj hstep
    refine ⟨⟨hproper.metric, fun m hm => ?_⟩, hname, ?_, ?_⟩
    · rcases List.mem_append.1 hm with hm | hm
      · exact hproper.labels m hm
      · exact List.mem_singleton.1 hm ▸ hst
    · simp [Draft.write, Selector.Step.update, hlabels, Selection.add]
    · simp [Selector.withLabel, hmatchers, Selection.matchers, Selection.add]

/-- How many metrics there are, none or one. -/
def count (x : Selection) : ℕ := x.metric.toList.length

theorem metric_eq_none (h : x.count = 0) : x.metric = none :=
  Option.toList_eq_nil_iff.1 (List.length_eq_zero_iff.1 h)

theorem count_add (hmetric : st.isMetric → x.metric = none) :
    (x.add st).count = x.count + if st.isMetric then 1 else 0 := by
  cases st with
  | metric name => simp [count, Selection.add, hmetric rfl, Selector.Step.isMetric]
  | label op name value => rfl

end Selection

/-- What a call raises. -/
def Performed.refusal? {β γ : Type} (p : Performed β γ) : Option Refusal :=
  match p.result with
  | .ok _ => none
  | .error refusal => some refusal

namespace BuilderKind

variable {k : BuilderKind} {b : k.Builder}

/-- A call that edits the draft. -/
def edit : (k : BuilderKind) → Draft.Edit → k.Call
  | instant => .edit
  | range => .edit

/-- A builder that lacks nothing but what is selected. -/
structure IsReady (k : BuilderKind) (b : k.Builder) : Prop where
  expression : (k.draft b).expression = none
  stats : ∃ stats, (k.draft b).stats = .ofText? stats
  missing : k.missing b = []

theorem on_perform_edit (e : Draft.Edit) (b : k.Builder) :
    (k.perform (k.edit e)).on b = give .chained k.write b e.update := by
  rw [on_perform]
  cases k <;> rfl

theorem draft_write (b : k.Builder) (u : Update) : k.draft (k.write b u) = (k.draft b).write u := by
  cases k <;> rfl

theorem missing_write {u : Update} (h : ∀ slot, u.text? slot = none) (b : k.Builder) :
    k.missing (k.write b u) = k.missing b := by
  cases k with
  | instant => rfl
  | range => simp [missing, write, RangeBuilder.write, RangeBuilder.missing, h]

theorem IsReady.write (h : k.IsReady b) (st : Selector.Step) : k.IsReady (k.write b st.update) := by
  obtain ⟨hexpression, hstats, hmissing⟩ := h
  have hslot : ∀ slot, st.update.text? slot = none := by cases st <;> exact fun _ => rfl
  refine ⟨?_, ?_, (missing_write hslot b).trans hmissing⟩ <;> rw [draft_write] <;> cases st
  all_goals assumption

/-- The same steps fail with the same errors, and in the end both sides hold the same selection. -/
theorem runCalls_edit (k : BuilderKind) {steps : List Selector.Step}
    (hproper : ∀ st ∈ steps, st.Proper) {b : k.Builder} {s : Selector} {x : Selection}
    (hready : k.IsReady b) (hheld : x.Held (k.draft b) s)
    (hmetric : x.count + steps.countP Selector.Step.isMetric ≤ 1) :
    (runCalls k.perform b (steps.map (k.edit ·.edit))).map Performed.refusal? =
      (s.attempt steps).1.map (Option.map .error) ∧
    (∀ e, some e ∈ (s.attempt steps).1 → e.kind = .metricName) ∧
    k.IsReady (afterCalls k.perform b (steps.map (k.edit ·.edit))) ∧
    ∃ x' : Selection, x'.Held (k.draft (afterCalls k.perform b (steps.map (k.edit ·.edit))))
      (s.attempt steps).2 := by
  induction steps generalizing b s x with
  | nil => exact ⟨rfl, nofun, hready, x, hheld⟩
  | cons st steps ih =>
    obtain ⟨hst, hproper⟩ := List.forall_mem_cons.1 hproper
    rw [List.countP_cons] at hmetric
    rw [List.map_cons, runCalls_cons, afterCalls_cons, on_perform_edit, List.map_cons]
    rcases st.cases_fault with ⟨e, hupdate, hstep, hkind⟩ | ⟨hupdate, hstep⟩
    · obtain ⟨hraised, hkinds, hafter⟩ := ih hproper hready hheld (by omega)
      rw [hupdate, Selector.attempt, hstep s]
      refine ⟨congrArg (List.cons _) hraised, fun e' he' => ?_, hafter⟩
      rcases List.mem_cons.1 he' with he' | he'
      · exact Option.some.inj he' ▸ hkind
      · exact hkinds e' he'
    · obtain ⟨s', hstep⟩ := hstep s
      have hnone : st.isMetric → x.metric = none := by
        intro hst
        rw [if_pos hst] at hmetric
        exact Selection.metric_eq_none (by omega)
      have hheld' : (x.add st).Held (k.draft (k.write b st.update)) s' := by
        rw [draft_write]
        exact hheld.add hst hnone hstep
      obtain ⟨hraised, hkinds, hafter⟩ := ih hproper (hready.write st) hheld'
        (by rw [Selection.count_add hnone]; omega)
      rw [hupdate, Selector.attempt, hstep]
      refine ⟨congrArg (List.cons _) hraised, fun e' he' => ?_, hafter⟩
      rcases List.mem_cons.1 he' with he' | he'
      · cases he'
      · exact hkinds e' he'

/-- What a builder writes and what a selector writes is read as the selection that both hold. Both
refuse to write nothing. -/
theorem build_of_held {x : Selection} {s : Selector} (hready : k.IsReady b)
    (hheld : x.Held (k.draft b) s) :
    (∃ e, (k.build.on b).1 = .error (.error e) ∧ s.instant = .error e ∧
      e.kind = .vectorSelector) ∨
    ∃ q v, (k.build.on b).1 = .ok q ∧ s.instant = .ok v ∧
      (Selection.read? q.text).map Selection.matchers = some s.matchers ∧
      (Selection.read? v.text).map Selection.matchers = some s.matchers := by
  obtain ⟨hexpression, ⟨stats, hstats⟩, hmissing⟩ := hready
  have htext := Draft.queryText_eq hheld.metric hheld.labels
  rw [hexpression] at htext
  have hwrites {text : String} (h : (k.draft b).queryText = .ok (.text text))
      (hread : Selection.read? text = some x) (hne : x.matchers ≠ []) :
      ∃ q v, (k.build.on b).1 = .ok q ∧ s.instant = .ok v ∧
        (Selection.read? q.text).map Selection.matchers = some s.matchers ∧
        (Selection.read? v.text).map Selection.matchers = some s.matchers := by
    obtain ⟨q, hq⟩ := exists_holds text hmissing hstats
    refine ⟨q, { text := s.text }, build_eq_ok_iff.2 ⟨text, h, hq⟩,
      Selector.instant_of_ne_nil (hheld.matchers ▸ hne), ?_, ?_⟩
    · rw [hq.text_eq, hread, hheld.matchers]
      rfl
    · rw [Selector.text, hheld.matchers, Selection.read?_braces hheld.proper.matchers]
      rfl
  have hname := hheld.proper.metric
  have hlabels := hheld.proper.labels
  have hmatchers := hheld.matchers
  rcases x with ⟨_ | name, _ | ⟨m, ms⟩⟩
  case none.nil =>
    exact .inl ⟨_, build_of_error htext, Selector.instant_of_nil hmatchers, rfl⟩
  case none.cons =>
    exact .inr (hwrites htext (Selection.read?_braces hlabels) (List.cons_ne_nil m ms))
  case some.nil =>
    exact .inr (hwrites htext (Selection.read?_metric (hname name rfl)) (List.cons_ne_nil _ _))
  case some.cons =>
    exact .inr (hwrites htext (Selection.read?_metric_braces (hname name rfl) hlabels)
      (List.cons_ne_nil _ _))

/-- **Builders and selectors select the same.** The same steps, with at most one metric among them,
fail on a builder and on a selector, all for a name that is no metric. In the end either both refuse
to write an empty selection, or what they write is read as the same matchers in the same order,
where the name of a metric in front of the braces is a matcher on its label. -/
theorem selects_alike (k : BuilderKind) {b : k.Builder} (hready : k.IsReady b)
    (hmetric : (k.draft b).metric = .null) (hlabels : (k.draft b).matchers = [])
    {steps : List Selector.Step} (hproper : ∀ st ∈ steps, st.Proper)
    (hsteps : steps.countP Selector.Step.isMetric ≤ 1) :
    let after := afterCalls k.perform b (steps.map (k.edit ·.edit))
    let tried := Selector.empty.attempt steps
    (runCalls k.perform b (steps.map (k.edit ·.edit))).map Performed.refusal? =
      tried.1.map (Option.map .error) ∧
    (∀ e, some e ∈ tried.1 → e.kind = .metricName) ∧
    ((∃ e, (k.build.on after).1 = .error (.error e) ∧ tried.2.instant = .error e ∧
        e.kind = .vectorSelector) ∨
      ∃ q v ms, (k.build.on after).1 = .ok q ∧ tried.2.instant = .ok v ∧
        (Selection.read? q.text).map Selection.matchers = some ms ∧
        (Selection.read? v.text).map Selection.matchers = some ms) := by
  have hheld : Selection.Held ⟨none, []⟩ (k.draft b) Selector.empty :=
    ⟨⟨nofun, nofun⟩, hmetric, hlabels, rfl⟩
  obtain ⟨hraised, hkinds, hready', x, hheld'⟩ :=
    runCalls_edit k hproper hready hheld (by simpa [Selection.count] using hsteps)
  refine ⟨hraised, hkinds, ?_⟩
  rcases build_of_held hready' hheld' with hempty | ⟨q, v, hbuild, hinstant, hq, hv⟩
  · exact .inl hempty
  · exact .inr ⟨q, v, _, hbuild, hinstant, hq, hv⟩

/-- A builder with the times of a range and nothing else. -/
def ranged : RangeBuilder := { start := some "0", stop := some "60", step := some "1s" }

/-- Steps with the metric in the middle and with values that need escapes. -/
def mixed : List Selector.Step :=
  [.label .equal "env" "a\"b", .metric "up", .label .regexNotEqual "job" "c\\d"]

theorem isReady_ranged : range.IsReady ranged := ⟨rfl, ⟨none, rfl⟩, rfl⟩

/-- The metric stands in front of the braces or first between them. A reserved word is refused on
both sides, and then nothing is selected. -/
theorem selects_alike_mixed :
    (∃ q v, (range.build.on (afterCalls range.perform ranged
        (mixed.map (range.edit ·.edit)))).1 = .ok q ∧
      (Selector.empty.attempt mixed).2.instant = .ok v ∧
      q.text = "up\x7benv=\"a\\\"b\",job!~\"c\\\\d\"\x7d" ∧
      v.text = "\x7b__name__=\"up\",env=\"a\\\"b\",job!~\"c\\\\d\"\x7d" ∧
      (Selection.read? q.text).map Selection.matchers =
        (Selection.read? v.text).map Selection.matchers) ∧
    (runCalls range.perform ranged [range.edit (.metric (.text "on"))]).map Performed.refusal? =
      [some (.error (.reservedName "on"))] ∧
    ∃ e, (range.build.on (afterCalls range.perform ranged
        [range.edit (.metric (.text "on"))])).1 = .error (.error e) ∧
      Selector.empty.instant = .error e ∧ e.kind = .vectorSelector := by
  have hmixed := selects_alike range isReady_ranged rfl rfl
    (by decide : ∀ st ∈ mixed, st.Proper) (by decide)
  have hreserved := selects_alike range isReady_ranged rfl rfl
    (by decide : ∀ st ∈ [Selector.Step.metric "on"], st.Proper) (by decide)
  refine ⟨?_, hreserved.1, ?_⟩
  · obtain ⟨-, -, ⟨e, -, hinstant, -⟩ | ⟨q, v, ms, hq, hv, hqread, hvread⟩⟩ := hmixed
    · cases hinstant
    · refine ⟨q, v, hq, hv, ?_, ?_, hqread.trans hvread.symm⟩
      · cases hq
        rfl
      · cases hv
        rfl
  · obtain ⟨-, -, hempty | ⟨q, v, ms, -, hv, -⟩⟩ := hreserved
    · exact hempty
    · cases hv

end BuilderKind
end MetricQuery
