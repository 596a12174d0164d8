import MetricQuery.Proofs.Query.History

/-!
# Failing calls and interleavings

A call that fails changes nothing, so failing calls can be deleted from a run. What a build gives
depends on the history of the run only, and of that only on the labels in their order and on what
was given last to each other field: how the calls interleave does not matter.
-/

namespace MetricQuery

/-- Two histories that give the same labels in the same order, and the same value last to each
other field. -/
structure History.Agree (h h' : History) : Prop where
  labels : h.labels = h'.labels
  metric : h.metric = h'.metric
  stats : h.stats = h'.stats
  text : ∀ slot, h.text slot = h'.text slot

/-- What stands before the braces of a query: the metric, if one is set. -/
def Draft.metricText : Value → Except Error String
  | .null => .ok ""
  | name => name.insertedText

/-- The text of a draft with matchers. None of them is lost, and they stand in their order. -/
theorem Draft.text_of_matchers {d : Draft} {text : String} (hmatchers : d.matchers ≠ [])
    (htext : d.queryText = .ok (.text text)) :
    ∃ name texts, metricText d.metric = .ok name ∧ d.matchers.mapM GivenMatcher.text = .ok texts ∧
      text = name ++ "\x7b" ++ ",".intercalate texts ++ "\x7d" := by
  obtain ⟨metric, matchers, expression, timeout, stats⟩ := d
  cases matchers with
  | nil => exact absurd rfl hmatchers
  | cons m ms =>
    cases expression with
    | some s => simp [queryText] at htext
    | none =>
      cases hmetric : metric with
      | null =>
        simp only [queryText, hmetric, map_eq_ok, braces, bind_eq_ok] at htext
        obtain ⟨_, ⟨texts, htexts, hbraces⟩, hvalue⟩ := htext
        obtain rfl := Value.text.inj hvalue
        obtain rfl := Except.ok.inj hbraces
        exact ⟨"", texts, rfl, htexts, by rw [String.empty_append]⟩
      | _ =>
        simp only [queryText, hmetric, braces, bind_eq_ok] at htext
        obtain ⟨_, ⟨texts, htexts, hbraces⟩, name, hname, hvalue⟩ := htext
        obtain rfl := Value.text.inj (Except.ok.inj hvalue)
        obtain rfl := Except.ok.inj hbraces
        exact ⟨name, texts, hname, htexts, by simp only [String.append_assoc]⟩

namespace BuilderKind

variable {k : BuilderKind}

/-- What a build at the end of a run on a fresh builder gives. -/
def built (k : BuilderKind) (calls : List k.Call) : Except Refusal Query :=
  (k.build.on (k.after calls)).1

def isBuild : (k : BuilderKind) → k.Call → Bool
  | instant => fun | .build => true | _ => false
  | range => fun | .build => true | _ => false

theorem update?_of_isBuild {call : k.Call} (h : k.isBuild call = true) : k.update? call = none := by
  cases k <;> cases call <;> first | rfl | cases h

/-- A build leaves the builder as it was, whatever it gives. -/
theorem on_perform_of_isBuild {call : k.Call} (h : k.isBuild call = true) (b : k.Builder) :
    ((k.perform call).on b).2 = b := by
  rw [on_perform, update?_of_isBuild h]

theorem on_perform_of_error {call : k.Call} {b : k.Builder} {e : Refusal}
    (h : ((k.perform call).on b).1 = .error e) : ((k.perform call).on b).2 = b := by
  rw [on_perform] at h ⊢
  rcases hu : k.update? call with _ | fault | u
  · rfl
  · rfl
  · simp [hu, give] at h

/-- **A failing call is no call at all.** The builder is what it was before, and the calls that
succeed do the same without those that fail. -/
theorem failing_call (k : BuilderKind) (b : k.Builder) :
    (∀ call e, ((k.perform call).on b).1 = .error e → ((k.perform call).on b).2 = b) ∧
    ∀ calls, runCalls k.perform b
        (((runCalls k.perform b calls).filter Performed.succeeded).map Performed.call) =
      (runCalls k.perform b calls).filter Performed.succeeded := by
  refine ⟨fun call e => on_perform_of_error, fun calls =>
    runCalls_filter (fun b call hfail => ?_) b calls⟩
  cases hresult : ((k.perform call).on b).1 with
  | error e => exact on_perform_of_error hresult
  | ok outcome => simp [Performed.succeeded, hresult, Except.isOk, Except.toBool] at hfail

/-- A reserved word is refused as a metric, and the metric stays what it was. -/
theorem failing_call_reserved_word :
    ((instant.perform (.edit (.metric (.text "on")))).on
      (instant.after [.edit (.metric (.text "up"))])).1 = .error (.error (.reservedName "on")) ∧
    ((instant.perform (.edit (.metric (.text "on")))).on
      (instant.after [.edit (.metric (.text "up"))])).2 =
        instant.after [.edit (.metric (.text "up"))] :=
  ⟨rfl, (failing_call instant _).1 _ _ rfl⟩

theorem ofHistory_eq_of_agree {h h' : History} (hagree : h.Agree h') :
    k.ofHistory h = k.ofHistory h' := by
  obtain ⟨hlabels, hmetric, hstats, htext⟩ := hagree
  cases k <;> simp only [ofHistory, InstantBuilder.ofHistory, RangeBuilder.ofHistory,
    Draft.ofHistory, hlabels, hmetric, hstats, htext]

theorem draft_ofHistory (h : History) : k.draft (k.ofHistory h) = .ofHistory h := by
  cases k <;> rfl

/-- **What is built depends on the history alone.** Runs whose histories agree give the same query
or the same error. A query that has labels shows each of them once, in the order in which they were
given. Builds on the way change neither what is built nor what the other calls do. -/
theorem built_of_history (k : BuilderKind) (calls : List k.Call) :
    (∀ calls', (k.history calls).Agree (k.history calls') → k.built calls = k.built calls') ∧
    (∀ q, k.built calls = .ok q → (k.history calls).labels ≠ [] → ∃ name texts,
      Draft.metricText ((k.history calls).metric.getD .null) = .ok name ∧
      (k.history calls).labels.mapM GivenMatcher.text = .ok texts ∧
      q.text = name ++ "\x7b" ++ ",".intercalate texts ++ "\x7d") ∧
    runCalls k.perform k.fresh (calls.filter (!k.isBuild ·)) =
      (runCalls k.perform k.fresh calls).filter (!k.isBuild ·.call) ∧
    k.built (calls.filter (!k.isBuild ·)) = k.built calls := by
  have hidle : ∀ (b : k.Builder) (call : k.Call), (!k.isBuild call) = false →
      ((k.perform call).on b).2 = b := fun b call hbuild =>
    on_perform_of_isBuild (by simpa using hbuild) b
  refine ⟨fun calls' hagree => ?_, fun q hbuilt hlabels => ?_, ?_, ?_⟩
  · rw [built, built, after_eq, after_eq, ofHistory_eq_of_agree hagree]
  · rw [built, after_eq, build_eq_ok_iff] at hbuilt
    obtain ⟨text, htext, hholds⟩ := hbuilt
    rw [draft_ofHistory] at htext
    rw [hholds.text_eq]
    exact Draft.text_of_matchers hlabels htext
  · exact runCalls_filter_call hidle k.fresh calls
  · rw [built, built, after, after, afterCalls_filter hidle]

/-- A run with labels before and after the metric, and with a build on the way. -/
def scattered : List InstantBuilder.Call :=
  [.edit (.stats (.text "none")), .edit (.label .equal (.text "env") (.text "prod")), .build,
    .edit (.metric (.text "up")), .edit (.label .equal (.text "job") (.text "api")),
    .edit (.stats (.text "all"))]

/-- A run with the same history but for a metric that is replaced and one that is refused. -/
def straight : List InstantBuilder.Call :=
  [.edit (.stats (.text "all")), .edit (.metric (.text "node")), .edit (.metric (.text "up")),
    .edit (.metric (.text "on")), .edit (.label .equal (.text "env") (.text "prod")),
    .edit (.label .equal (.text "job") (.text "api"))]

theorem agree_scattered_straight :
    (instant.history scattered).Agree (instant.history straight) where
  labels := rfl
  metric := rfl
  stats := rfl
  text slot := by cases slot <;> rfl

/-- A run on a builder of range queries, with a build on the way that fails for want of a start. -/
def staged : List RangeBuilder.Call :=
  [.step (.text "1m"), .edit (.label .equal (.text "env") (.text "prod")),
    .edit (.timeout (.text "30s1m")), .stop (.moment ⟨⟨2021, 1, 2⟩, 0, 30, 0, 0, some 1800⟩),
    .build, .edit (.metric (.text "up")), .start (.moment ⟨⟨2021, 1, 1⟩, 0, 0, 0, 0, none⟩),
    .edit (.label .regexEqual (.text "job") (.text "a.*"))]

/-- A run with a history that agrees. The end has another offset. -/
def ordered : List RangeBuilder.Call :=
  [.edit (.metric (.text "up")), .edit (.label .equal (.text "env") (.text "prod")),
    .edit (.label .regexEqual (.text "job") (.text "a.*")),
    .start (.moment ⟨⟨2021, 1, 1⟩, 0, 0, 0, 0, none⟩),
    .stop (.moment ⟨⟨2021, 1, 2⟩, 0, 0, 0, 0, none⟩), .step (.text "1m"),
    .edit (.timeout (.text "30s1m"))]

theorem agree_staged_ordered : (range.history staged).Agree (range.history ordered) := by
  have hstep : (Value.text "1m").durationText = .ok "1m" :=
    toOption_eq_some_iff.1 (by decide +kernel)
  have htimeout : (Value.text "30s1m").durationText = .ok "1m30s" :=
    toOption_eq_some_iff.1 (by decide +kernel)
  simp only [history_eq, staged, ordered, List.filterMap_cons, update?, RangeBuilder.Call.update?,
    Draft.Edit.update, hstep, htimeout]
  exact ⟨rfl, rfl, rfl, fun slot => by cases slot <;> rfl⟩

theorem built_of_history_scattered :
    (instant.built scattered = instant.built straight ∧
    instant.built scattered =
      .ok (.instant ⟨"up\x7benv=\"prod\",job=\"api\"\x7d", none, none, some "all"⟩) ∧
    ∃ name texts, Draft.metricText (.text "up") = .ok name ∧
      [GivenMatcher.mk .equal (.text "env") (.text "prod"),
        ⟨.equal, .text "job", .text "api"⟩].mapM GivenMatcher.text = .ok texts ∧
      "up\x7benv=\"prod\",job=\"api\"\x7d" =
        name ++ "\x7b" ++ ",".intercalate texts ++ "\x7d") ∧
    range.built staged = range.built ordered ∧
    range.built (staged.filter (!range.isBuild ·)) = range.built staged ∧
    range.built staged = .ok (.range ⟨"up\x7benv=\"prod\",job=~\"a.*\"\x7d",
      "2021-01-01T00:00:00Z", "2021-01-02T00:00:00Z", "1m", some "1m30s", none⟩) :=
  have hbuilt : instant.built scattered =
      .ok (.instant ⟨"up\x7benv=\"prod\",job=\"api\"\x7d", none, none, some "all"⟩) := rfl
  have hstaged := built_of_history range staged
  ⟨⟨(built_of_history instant scattered).1 straight agree_scattered_straight, hbuilt,
    (built_of_history instant scattered).2.1 _ hbuilt (List.cons_ne_nil _ _)⟩,
    hstaged.1 ordered agree_staged_ordered, hstaged.2.2.2,
    toOption_eq_some_iff.1 (by decide +kernel)⟩

end BuilderKind
end MetricQuery
