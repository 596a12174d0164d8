import Mathlib.Data.List.Induction
import MetricQuery.Proofs.Query.Build

/-!
# Histories of builders

A call that succeeds and is not a build gives one value to one field, and that value depends on the
arguments of the call alone. The history of a run is the list of the values given. The builder after
a run is a function of the history: labels add up in their order, every other field holds what was
given last.
-/

namespace MetricQuery

/-- The fields that hold canonical texts. -/
inductive Slot where
  | expression
  | timeout
  | time
  | start
  | stop
  | step
deriving DecidableEq

/-- The name of a field in messages. -/
def Slot.name : Slot → String
  | expression => "expression"
  | timeout => "timeout"
  | time => "time"
  | start => "start"
  | stop => "end"
  | step => "step"

/-- What a successful call gives to a field. -/
inductive Update where
  | metric (name : Value)
  | label (m : GivenMatcher)
  | stats (level : Value)
  | text (slot : Slot) (s : String)

namespace Update

def metric? : Update → Option Value
  | metric name => some name
  | _ => none

def label? : Update → Option GivenMatcher
  | label m => some m
  | _ => none

def stats? : Update → Option Value
  | stats level => some level
  | _ => none

def text? (slot : Slot) : Update → Option String
  | text slot' s => if slot' = slot then some s else none
  | _ => none

end Update

abbrev History := List Update

namespace History

/-- The labels that were given, in order. -/
def labels (h : History) : List GivenMatcher := h.filterMap Update.label?

/-- The metric that was given last. -/
def metric (h : History) : Option Value := (h.filterMap Update.metric?).getLast?

/-- The level of statistics that was given last. -/
def stats (h : History) : Option Value := (h.filterMap Update.stats?).getLast?

/-- The text that a field was given last. -/
def text (slot : Slot) (h : History) : Option String := (h.filterMap (Update.text? slot)).getLast?

theorem labels_append (h h' : History) : (h ++ h').labels = h.labels ++ h'.labels :=
  List.filterMap_append

theorem labels_concat (h : History) (u : Update) :
    (h ++ [u]).labels = h.labels ++ u.label?.toList := by
  rw [labels_append]
  cases u <;> rfl

/-- What was given last in two histories is what was given last in the second, or else in the
first. -/
theorem getLast?_filterMap_append {α : Type} (f : Update → Option α) (h h' : History) :
    ((h ++ h').filterMap f).getLast? = (h'.filterMap f).getLast?.or (h.filterMap f).getLast? := by
  rw [List.filterMap_append, List.getLast?_append]

theorem metric_append (h h' : History) : (h ++ h').metric = h'.metric.or h.metric :=
  getLast?_filterMap_append ..

theorem stats_append (h h' : History) : (h ++ h').stats = h'.stats.or h.stats :=
  getLast?_filterMap_append ..

theorem text_append (slot : Slot) (h h' : History) :
    (h ++ h').text slot = (h'.text slot).or (h.text slot) :=
  getLast?_filterMap_append ..

theorem getLast?_filterMap_singleton {α : Type} (f : Update → Option α) (u : Update) :
    ([u].filterMap f).getLast? = f u := by
  cases hu : f u <;> simp [hu]

theorem metric_concat (h : History) (u : Update) : (h ++ [u]).metric = u.metric?.or h.metric := by
  rw [metric_append, metric, getLast?_filterMap_singleton]

theorem stats_concat (h : History) (u : Update) : (h ++ [u]).stats = u.stats?.or h.stats := by
  rw [stats_append, stats, getLast?_filterMap_singleton]

theorem text_concat (slot : Slot) (h : History) (u : Update) :
    (h ++ [u]).text slot = (u.text? slot).or (h.text slot) := by
  rw [text_append, text, getLast?_filterMap_singleton]

end History

/-- The outcome of work that gives what a check finds. A failed check gives nothing. -/
def give {α β : Type} (done : α) (write : β → Update → β) (b : β) :
    Except Error Update → Except Refusal α × β
  | .ok u => (.ok done, write b u)
  | .error e => (.error (.error e), b)

namespace Draft

/-- What an edit gives, worked out from its arguments. -/
def Edit.update : Edit → Except Error Update
  | .metric given => (metricName given).map .metric
  | .label op name value => .ok (.label ⟨op, name, value⟩)
  | .timeout given => given.durationText.map (.text .timeout)
  | .stats level => .ok (.stats level)

/-- What an expression gives. -/
def expressionUpdate (kinds : List VectorKind) (vector : Value) : Except Error Update :=
  (vectorText kinds vector).map (.text .expression)

/-- A draft with something given to one of its fields. -/
def write (d : Draft) : Update → Draft
  | .metric name => { d with metric := name }
  | .label m => { d with matchers := d.matchers ++ [m] }
  | .stats level => { d with stats := level }
  | .text .expression s => { d with expression := some s }
  | .text .timeout s => { d with timeout := some s }
  | .text _ _ => d

/-- No edit gives one of the texts that the kinds of builders have for themselves. -/
theorem Edit.text?_update {e : Edit} {u : Update} (h : e.update = .ok u) {slot : Slot}
    (hslot : slot ≠ .timeout) : u.text? slot = none := by
  cases e with
  | metric given =>
    obtain ⟨name, -, rfl⟩ := map_eq_ok.1 h
    rfl
  | label op name value =>
    obtain rfl := Except.ok.inj h
    rfl
  | timeout given =>
    obtain ⟨text, -, rfl⟩ := map_eq_ok.1 h
    exact if_neg hslot.symm
  | stats level =>
    obtain rfl := Except.ok.inj h
    rfl

theorem on_edit (e : Edit) (d : Draft) : (edit e).on d = give () write d e.update := by
  cases e with
  | metric given =>
    simp only [edit, Building.on_bind, Building.on_check, Edit.update]
    cases metricName given <;> rfl
  | label op name value => rfl
  | timeout given =>
    simp only [edit, Building.on_bind, Building.on_check, Edit.update]
    cases given.durationText <;> rfl
  | stats level => rfl

theorem on_setExpression (kinds : List VectorKind) (vector : Value) (d : Draft) :
    (setExpression kinds vector).on d = give () write d (expressionUpdate kinds vector) := by
  simp only [setExpression, Building.on_bind, Building.on_check, expressionUpdate]
  cases vectorText kinds vector <;> rfl

/-- The draft of a history. -/
def ofHistory (h : History) : Draft where
  metric := h.metric.getD .null
  matchers := h.labels
  expression := h.text .expression
  timeout := h.text .timeout
  stats := h.stats.getD .null

theorem write_ofHistory (h : History) (u : Update) :
    (ofHistory h).write u = ofHistory (h ++ [u]) := by
  unfold ofHistory
  simp only [History.metric_concat, History.labels_concat, History.stats_concat,
    History.text_concat]
  cases u with
  | metric name | stats level =>
    simp [write, Update.metric?, Update.label?, Update.stats?, Update.text?]
  | label m => rfl
  | text slot s =>
    cases slot <;> simp [write, Update.metric?, Update.label?, Update.stats?, Update.text?]

end Draft

namespace InstantBuilder

/-- What a call gives, unless it is a build. -/
def Call.update? : Call → Option (Except Error Update)
  | .edit e => some e.update
  | .expression vector => some (Draft.expressionUpdate [.instant, .range] vector)
  | .at time => some ((Timestamp.ofValue time).map (.text .time))
  | .build => none

/-- A builder with something given to one of its fields. -/
def write (b : InstantBuilder) (u : Update) : InstantBuilder where
  draft := b.draft.write u
  time := (u.text? .time).or b.time

theorem on_onDraft (work : Building Draft Unit) (b : InstantBuilder) :
    (onDraft work).on b = ((work.on b.draft).1, { b with draft := (work.on b.draft).2 }) :=
  Building.on_part ..

/-- **What a call does.** It gives a value to a field, or fails and leaves the builder alone. A
build looks at the builder only. -/
theorem on_perform (call : Call) (b : InstantBuilder) :
    (perform call).on b = match call.update? with
      | some x => give .chained write b x
      | none => ((build.on b).1.map .query, b) := by
  cases call with
  | edit e =>
    simp only [perform, Building.on_bind, on_onDraft, Draft.on_edit, Call.update?]
    cases h : e.update with
    | error fault => rfl
    | ok u => simp [give, write, Draft.Edit.text?_update h]
  | expression vector =>
    simp only [perform, Building.on_bind, on_onDraft, Draft.on_setExpression, Call.update?,
      Draft.expressionUpdate]
    cases Draft.vectorText [.instant, .range] vector <;> rfl
  | «at» time =>
    simp only [perform, Building.on_bind, Building.on_check, Call.update?]
    cases Timestamp.ofValue time <;> rfl
  | build =>
    simp only [perform, Building.on_map, Call.update?, on_build]

/-- The builder of a history. -/
def ofHistory (h : History) : InstantBuilder where
  draft := .ofHistory h
  time := h.text .time

theorem write_ofHistory (h : History) (u : Update) :
    (ofHistory h).write u = ofHistory (h ++ [u]) := by
  rw [write, ofHistory, ofHistory, Draft.write_ofHistory, History.text_concat]

end InstantBuilder

namespace RangeBuilder

/-- What a call gives, unless it is a build. -/
def Call.update? : Call → Option (Except Error Update)
  | .edit e => some e.update
  | .expression vector => some (Draft.expressionUpdate [.instant] vector)
  | .start time => some ((Timestamp.ofValue time).map (.text .start))
  | .stop time => some ((Timestamp.ofValue time).map (.text .stop))
  | .step given => some (given.durationText.map (.text .step))
  | .build => none

/-- A builder with something given to one of its fields. -/
def write (b : RangeBuilder) (u : Update) : RangeBuilder where
  draft := b.draft.write u
  start := (u.text? .start).or b.start
  stop := (u.text? .stop).or b.stop
  step := (u.text? .step).or b.step

theorem on_onDraft (work : Building Draft Unit) (b : RangeBuilder) :
    (onDraft work).on b = ((work.on b.draft).1, { b with draft := (work.on b.draft).2 }) :=
  Building.on_part ..

/-- **What a call does.** It gives a value to a field, or fails and leaves the builder alone. A
build looks at the builder only. -/
theorem on_perform (call : Call) (b : RangeBuilder) :
    (perform call).on b = match call.update? with
      | some x => give .chained write b x
      | none => ((build.on b).1.map .query, b) := by
  cases call with
  | edit e =>
    simp only [perform, Building.on_bind, on_onDraft, Draft.on_edit, Call.update?]
    cases h : e.update with
    | error fault => rfl
    | ok u => simp [give, write, Draft.Edit.text?_update h]
  | expression vector =>
    simp only [perform, Building.on_bind, on_onDraft, Draft.on_setExpression, Call.update?,
      Draft.expressionUpdate]
    cases Draft.vectorText [.instant] vector <;> rfl
  | start time | stop time =>
    simp only [perform, Building.on_bind, Building.on_check, Call.update?]
    cases Timestamp.ofValue time <;> rfl
  | step given =>
    simp only [perform, Building.on_bind, Building.on_check, Call.update?]
    cases given.durationText <;> rfl
  | build => simp only [perform, Building.on_map, Call.update?, on_build]

/-- The builder of a history. -/
def ofHistory (h : History) : RangeBuilder where
  draft := .ofHistory h
  start := h.text .start
  stop := h.text .stop
  step := h.text .step

theorem write_ofHistory (h : History) (u : Update) :
    (ofHistory h).write u = ofHistory (h ++ [u]) := by
  rw [write, ofHistory, ofHistory, Draft.write_ofHistory]
  simp only [History.text_concat]

end RangeBuilder

namespace BuilderKind

/-- What a call gives, unless it is a build. -/
def update? : (k : BuilderKind) → k.Call → Option (Except Error Update)
  | instant => InstantBuilder.Call.update?
  | range => RangeBuilder.Call.update?

/-- A builder with something given to one of its fields. -/
def write : (k : BuilderKind) → k.Builder → Update → k.Builder
  | instant => InstantBuilder.write
  | range => RangeBuilder.write

/-- The builder of a history. -/
def ofHistory : (k : BuilderKind) → History → k.Builder
  | instant => InstantBuilder.ofHistory
  | range => RangeBuilder.ofHistory

variable (k : BuilderKind)

theorem on_perform (call : k.Call) (b : k.Builder) :
    (k.perform call).on b = match k.update? call with
      | some x => give .chained k.write b x
      | none => ((k.build.on b).1.map .query, b) := by
  cases k with
  | instant => exact InstantBuilder.on_perform call b
  | range => exact RangeBuilder.on_perform call b

theorem ofHistory_nil : k.ofHistory [] = k.fresh := by
  cases k <;> rfl

theorem write_ofHistory (h : History) (u : Update) :
    k.write (k.ofHistory h) u = k.ofHistory (h ++ [u]) := by
  cases k with
  | instant => exact InstantBuilder.write_ofHistory h u
  | range => exact RangeBuilder.write_ofHistory h u

/-- The builder after calls on a fresh one. -/
def after (calls : List k.Call) : k.Builder := afterCalls k.perform k.fresh calls

/-- What the successful calls of a run on a fresh builder give, in their order. -/
def history (calls : List k.Call) : History :=
  (runCalls k.perform k.fresh calls).filterMap fun p =>
    if p.succeeded then (k.update? p.call).bind Except.toOption else none

theorem after_concat (calls : List k.Call) (call : k.Call) :
    k.after (calls ++ [call]) = ((k.perform call).on (k.after calls)).2 := by
  rw [after, afterCalls_append]
  rfl

theorem history_concat (calls : List k.Call) (call : k.Call) :
    k.history (calls ++ [call]) =
      k.history calls ++ ((k.update? call).bind Except.toOption).toList := by
  rw [history, runCalls_append, List.filterMap_append]
  congr 1
  rw [runCalls_cons, runCalls_nil, on_perform]
  cases h : k.update? call with
  | none => simp [h]
  | some x =>
    cases x with
    | error fault => simp [give, Performed.succeeded, Except.isOk, Except.toBool, Except.toOption]
    | ok u => simp [h, give, Performed.succeeded, Except.isOk, Except.toBool, Except.toOption]

/-- Each call gives to a history what it gives to any builder. -/
theorem history_eq (calls : List k.Call) :
    k.history calls = calls.filterMap fun call => (k.update? call).bind Except.toOption := by
  induction calls using List.reverseRecOn with
  | nil => rfl
  | append_singleton calls call ih =>
    rw [history_concat, ih, List.filterMap_append]
    cases h : (k.update? call).bind Except.toOption <;> simp [h]

/-- What stands in a history was given by one of the calls. -/
theorem exists_of_mem_history {calls : List k.Call} {u : Update} (hu : u ∈ k.history calls) :
    ∃ call ∈ calls, k.update? call = some (.ok u) := by
  rw [history_eq] at hu
  obtain ⟨call, hcall, hgiven⟩ := List.mem_filterMap.1 hu
  obtain ⟨x, hx, hu⟩ := Option.bind_eq_some_iff.1 hgiven
  exact ⟨call, hcall, by rw [hx, toOption_eq_some_iff.1 hu]⟩

/-- **A builder is a function of its history.** -/
theorem after_eq (calls : List k.Call) : k.after calls = k.ofHistory (k.history calls) := by
  -- From the right end, where the history grows: `write_ofHistory` is the step.
  induction calls using List.reverseRecOn with
  | nil => exact k.ofHistory_nil.symm
  | append_singleton calls call ih =>
    rw [after_concat, history_concat, on_perform, ih]
    rcases k.update? call with _ | fault | u
    · simp
    · simp [give, Except.toOption]
    · exact k.write_ofHistory _ u

end BuilderKind
end MetricQuery
