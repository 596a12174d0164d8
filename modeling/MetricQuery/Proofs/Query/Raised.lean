import MetricQuery.Proofs.Calendar.Instant
import MetricQuery.Proofs.Duration.RoundTrip
import MetricQuery.Proofs.Number.Range
import MetricQuery.Proofs.Query.Contract

/-!
# Which errors calls raise

The calls of a builder have classes of errors of their own. With arguments of the types that they
are meant for, they raise errors of these classes alone, with three exceptions: integers beyond the
floating-point numbers, moments whose date in UTC is out of the calendar, and durations with an
amount of too many digits raise errors of other classes.
-/

namespace MetricQuery

/-- What fails does so with an error of one of the classes, except for the arguments that lie beyond
them. With these it always fails, with an error of another class. -/
structure FailsWithin {α : Type} (x : Except Error α) (classes : List ErrorKind)
    (beyond : Prop) : Prop where
  within : ¬ beyond → ∀ e, x = .error e → e.kind ∈ classes
  outside : beyond → ∃ e, x = .error e ∧ e.kind ∉ classes

namespace FailsWithin

variable {α β : Type} {x : Except Error α} {classes : List ErrorKind} {beyond : Prop}

theorem map (h : FailsWithin x classes beyond) (f : α → β) :
    FailsWithin (x.map f) classes beyond := by
  cases x with
  | error e => exact ⟨fun hb e' he => h.within hb e' (by cases he; rfl), fun hb => by
      obtain ⟨_, ⟨⟩, hkind⟩ := h.outside hb
      exact ⟨e, rfl, hkind⟩⟩
  | ok a => exact ⟨nofun, fun hb => nomatch h.outside hb⟩

theorem ok (a : α) : FailsWithin (.ok a) classes False := ⟨nofun, False.elim⟩

/-- Work that fails in one way only. -/
theorem of_error {e : Error} (h : ¬ beyond → e.kind ∈ classes) (h' : beyond → e.kind ∉ classes) :
    FailsWithin (.error e : Except Error α) classes beyond :=
  ⟨fun hb _ he => Except.error.inj he ▸ h hb, fun hb => ⟨e, rfl, h' hb⟩⟩

end FailsWithin

/-! ### Times -/

namespace Value

/-- Texts, numbers and moments are meant for times. -/
def IsTime : Value → Prop
  | .text _ | .int _ | .bool _ | .float _ => True
  | .moment m => m.Sound
  | _ => False

/-- Integers from the middle above the largest floating-point number on, and moments that are before
the year 1 or after the year 9999 in UTC. -/
def LeavesRange : Value → Prop
  | .int n => twoTo 1024 - twoTo 970 ≤ n.natAbs
  | .moment m => (m.clock : ℤ) - m.offset.getD 0 < 0 ∨
      (Date.dayCount * 86400 : ℕ) ≤ (m.clock : ℤ) - m.offset.getD 0
  | _ => False

/-- Texts whose first defect as a duration is an amount of more digits than are read. -/
def IsOverlong : Value → Prop
  | .text s => ∃ digits, Piece.FirstDefect s.toList (.overlong digits)
  | _ => False

end Value

namespace Timestamp

theorem ofText_failsWithin (s : String) :
    FailsWithin (ofText s) [.timeSpecifier] False := by
  refine ⟨fun _ e he => ?_, False.elim⟩
  unfold ofText at he
  dsimp only at he
  split at he
  · cases he
  · obtain ⟨_, -, rfl⟩ := mapError_eq_error_iff.1 he
    exact List.mem_singleton.2 rfl

theorem ofMoment_failsWithin (m : Moment) :
    FailsWithin (ofMoment m) [.timeSpecifier] (Value.moment m).LeavesRange := by
  unfold ofMoment
  cases hshift : m.shift with
  | ok instant =>
    obtain ⟨hseconds, hlt, -⟩ := Moment.shift_eq_ok_iff.1 hshift
    refine ⟨nofun, fun hrange => ?_⟩
    rcases hrange with hrange | hrange <;> omega
  | error fault =>
    refine .of_error (fun hrange => absurd hshift ?_) fun _ => by decide
    rw [Value.LeavesRange, not_or, Int.not_lt, Int.not_le] at hrange
    obtain ⟨seconds, hseconds⟩ := Int.eq_ofNat_of_zero_le hrange.1
    have hlt : seconds < Date.dayCount * 86400 := by omega
    rw [(Moment.shift_eq_ok_iff (i := ⟨seconds, m.nanos⟩)).2 ⟨hseconds.symm, hlt, rfl⟩]
    nofun

/-- Values that are meant for times fail as times do, unless they leave the range of times. -/
theorem ofValue_failsWithin {v : Value} (htime : v.IsTime) :
    FailsWithin (ofValue v) [.timeSpecifier] v.LeavesRange := by
  cases v with
  | text s => exact ofText_failsWithin s
  | int n =>
    rw [Value.LeavesRange, ← Binary64.ofInt?_eq_none_iff, ofValue]
    cases Binary64.ofInt? n with
    | none => exact .of_error (fun h => absurd rfl h) fun _ => by decide
    | some x => exact ⟨nofun, nofun⟩
  | float x =>
    rw [ofValue]
    split
    · exact .ok _
    · exact .of_error (fun _ => List.mem_singleton.2 rfl) False.elim
  | bool b => exact .of_error (fun _ => List.mem_singleton.2 rfl) False.elim
  | moment m => exact ofMoment_failsWithin m
  | _ => exact htime.elim

end Timestamp

/-! ### Durations -/

theorem Value.durationText_failsWithin (s : String) :
    FailsWithin (Value.text s).durationText [.timeDuration] (Value.text s).IsOverlong := by
  unfold durationText durations IsOverlong
  dsimp only
  simp only [← Duration.read_eq_error_iff]
  cases hread : Duration.read s.toList with
  | ok ds =>
    obtain ⟨ps, hps, rfl⟩ := Duration.read_eq_ok_iff.1 hread
    have hformat := Duration.format_of_isDecomposition hps
    rw [show Except.mapError (Error.duration (.text s)) (.ok _) >>= Duration.format = .ok _
      from hformat]
    exact ⟨nofun, nofun⟩
  | error fault =>
    refine .of_error (fun hlong => ?_) ?_
    · cases fault with
      | overlong digits => exact absurd ⟨digits, rfl⟩ hlong
      | _ => exact List.mem_singleton.2 rfl
    · rintro ⟨digits, hfault⟩
      cases hfault
      exact (by decide : ErrorKind.badValue ∉ [ErrorKind.timeDuration])

/-! ### Calls -/

namespace Draft

/-- Metrics, labels, durations and levels of statistics are meant to be texts. -/
def Edit.IsTyped : Edit → Prop
  | .metric name => ∃ s, name = .text s
  | .label _ name value => ∃ s t, name = .text s ∧ value = .text t
  | .timeout given => ∃ s, given = .text s
  | .stats level => ∃ s, level = .text s

/-- The classes of errors of an edit. -/
def Edit.classes : Edit → List ErrorKind
  | .metric _ => [.metricName]
  | .timeout _ => [.timeDuration]
  | .label .. | .stats _ => []

/-- Whether an edit is beyond its classes of errors. -/
def Edit.GoesBeyond : Edit → Prop
  | .timeout given => given.IsOverlong
  | _ => False

theorem Edit.IsTyped.isTextual {e : Edit} (h : e.IsTyped) : e.IsTextual := by
  cases e with
  | timeout given => trivial
  | _ => exact h

theorem metricName_failsWithin (s : String) :
    FailsWithin (metricName (.text s)) [.metricName] False := by
  refine FailsWithin.map ?_ _
  unfold Selector.metricName
  split
  · exact .of_error (fun _ => List.mem_singleton.2 rfl) False.elim
  · exact .ok s

theorem Edit.update_failsWithin {e : Edit} (h : e.IsTyped) :
    FailsWithin e.update e.classes e.GoesBeyond := by
  cases e with
  | metric given =>
    obtain ⟨s, rfl⟩ := h
    exact (metricName_failsWithin s).map Update.metric
  | timeout given =>
    obtain ⟨s, rfl⟩ := h
    exact (Value.durationText_failsWithin s).map (Update.text .timeout)
  | label op name value | stats level => exact .ok _

end Draft

/-- The vectors of the given kinds are meant for expressions. -/
def Value.IsOfKind (kinds : List VectorKind) : Value → Prop
  | .instant _ => .instant ∈ kinds
  | .range _ => .range ∈ kinds
  | _ => False

theorem Draft.expressionUpdate_failsWithin {kinds : List VectorKind} {v : Value}
    (h : v.IsOfKind kinds) : FailsWithin (expressionUpdate kinds v) [] False := by
  cases v with
  | instant w =>
    rw [expressionUpdate, vectorText, if_pos (show VectorKind.instant ∈ kinds from h)]
    exact .ok _
  | range w =>
    rw [expressionUpdate, vectorText, if_pos (show VectorKind.range ∈ kinds from h)]
    exact .ok _
  | _ => exact h.elim

namespace BuilderKind

/-- Whether the arguments of a call have the types that it is meant for. -/
def IsTyped : (k : BuilderKind) → k.Call → Prop
  | instant => fun
    | .edit e => e.IsTyped
    | .expression v => v.IsOfKind [.instant, .range]
    | .at time => time.IsTime
    | .build => True
  | range => fun
    | .edit e => e.IsTyped
    | .expression v => v.IsOfKind [.instant]
    | .start time | .stop time => time.IsTime
    | .step given => ∃ s, given = .text s
    | .build => True

/-- The classes of errors of a build. Only some kinds of queries can lack times. -/
def buildClasses : BuilderKind → List ErrorKind
  | instant => [.vectorSelector]
  | range => [.vectorSelector, .rangeQuery]

/-- The classes of errors of a call. -/
def classes : (k : BuilderKind) → k.Call → List ErrorKind
  | instant => fun
    | .edit e => e.classes
    | .expression _ => []
    | .at _ => [.timeSpecifier]
    | .build => instant.buildClasses
  | range => fun
    | .edit e => e.classes
    | .expression _ => []
    | .start _ | .stop _ => [.timeSpecifier]
    | .step _ => [.timeDuration]
    | .build => range.buildClasses

/-- Whether the arguments of a call lie beyond its classes of errors. -/
def GoesBeyond : (k : BuilderKind) → k.Call → Prop
  | instant => fun
    | .edit e => e.GoesBeyond
    | .at time => time.LeavesRange
    | _ => False
  | range => fun
    | .edit e => e.GoesBeyond
    | .start time | .stop time => time.LeavesRange
    | .step given => given.IsOverlong
    | _ => False

variable {k : BuilderKind} {call : k.Call}

theorem IsTyped.isTextual (h : k.IsTyped call) : k.IsTextual call := by
  cases k with
  | instant =>
    cases call with
    | edit e => exact Draft.Edit.IsTyped.isTextual h
    | _ => trivial
  | range =>
    cases call with
    | edit e => exact Draft.Edit.IsTyped.isTextual h
    | _ => trivial

/-- What a call gives fails as the call does. -/
theorem update_failsWithin (h : k.IsTyped call) {x : Except Error Update}
    (hx : k.update? call = some x) : FailsWithin x (k.classes call) (k.GoesBeyond call) := by
  cases k with
  | instant =>
    cases call with
    | edit e => cases hx; exact Draft.Edit.update_failsWithin h
    | expression v => cases hx; exact Draft.expressionUpdate_failsWithin h
    | «at» time => cases hx; exact (Timestamp.ofValue_failsWithin h).map _
    | build => cases hx
  | range =>
    cases call with
    | edit e => cases hx; exact Draft.Edit.update_failsWithin h
    | expression v => cases hx; exact Draft.expressionUpdate_failsWithin h
    | start time | stop time => cases hx; exact (Timestamp.ofValue_failsWithin h).map _
    | step given =>
      cases hx
      obtain ⟨s, rfl⟩ := h
      exact (Value.durationText_failsWithin s).map _
    | build => cases hx

theorem of_update?_eq_none (h : k.update? call = none) :
    k.classes call = k.buildClasses ∧ ¬ k.GoesBeyond call := by
  cases k with
  | instant =>
    cases call with
    | build => exact ⟨rfl, id⟩
    | _ => cases h
  | range =>
    cases call with
    | build => exact ⟨rfl, id⟩
    | _ => cases h

/-- A build on texts fails for its text or for missing times. -/
theorem build_fails_within {h : History} (htextual : h.IsTextual) {refusal : Refusal}
    (hbuild : (k.build.on (k.ofHistory h)).1 = .error refusal) :
    ∃ e, refusal = .error e ∧ e.kind ∈ k.buildClasses := by
  by_cases hdefinite : h.IsDefinite
  · by_cases hunset : k.unset h = []
    · obtain ⟨q, hq⟩ := build_of_isDefinite htextual hdefinite hunset
      cases hq.symm.trans hbuild
    · cases k with
      | instant => exact absurd rfl hunset
      | range =>
        cases (build_of_unset htextual hdefinite hunset).symm.trans hbuild
        exact ⟨_, rfl, List.mem_cons_of_mem _ List.mem_cons_self⟩
  · obtain ⟨e, he, hkind⟩ := build_of_not_isDefinite (k := k) htextual hdefinite
    cases he.symm.trans hbuild
    refine ⟨e, rfl, ?_⟩
    rw [hkind]
    cases k <;> exact List.mem_cons_self

theorem give_fst_eq_error_iff {α β : Type} {done : α} {write : β → Update → β} {b : β}
    {x : Except Error Update} {refusal : Refusal} : (give done write b x).1 = .error refusal ↔
      ∃ e, x = .error e ∧ refusal = .error e := by
  cases x with
  | ok u => exact ⟨nofun, by rintro ⟨_, ⟨⟩, _⟩⟩
  | error e => exact ⟨fun h => ⟨e, rfl, (Except.error.inj h).symm⟩, by rintro ⟨_, ⟨⟩, rfl⟩; rfl⟩

/-- **The errors of a call.** On a builder that was only ever called with arguments of the right
types, a call with such arguments raises errors of its own classes alone, and a call without such
classes never fails. The exceptions are the times that leave their range and the durations with too
many digits: with these the call always raises an error of another class. -/
theorem perform_fails_within (k : BuilderKind) (calls : List k.Call) (call : k.Call)
    (hcalls : ∀ call ∈ calls, k.IsTyped call) (hcall : k.IsTyped call) :
    (¬ k.GoesBeyond call → ∀ refusal, ((k.perform call).on (k.after calls)).1 = .error refusal →
      ∃ e, refusal = .error e ∧ e.kind ∈ k.classes call) ∧
    (k.GoesBeyond call → ∃ e, ((k.perform call).on (k.after calls)).1 = .error (.error e) ∧
      e.kind ∉ k.classes call) := by
  rw [on_perform]
  cases hupdate : k.update? call with
  | some x =>
    have hfails := update_failsWithin hcall hupdate
    dsimp only
    constructor
    · intro hwithin refusal hrefusal
      obtain ⟨e, he, rfl⟩ := give_fst_eq_error_iff.1 hrefusal
      exact ⟨e, rfl, hfails.within hwithin e he⟩
    · intro hbeyond
      obtain ⟨e, he, hkind⟩ := hfails.outside hbeyond
      exact ⟨e, give_fst_eq_error_iff.2 ⟨e, he, rfl⟩, hkind⟩
  | none =>
    obtain ⟨hclasses, hwithin⟩ := of_update?_eq_none hupdate
    have htextual := history_isTextual fun call h => (hcalls call h).isTextual
    rw [after_eq, hclasses]
    refine ⟨fun _ refusal hrefusal => ?_, fun hbeyond => absurd hbeyond hwithin⟩
    cases hbuild : (k.build.on (k.ofHistory (k.history calls))).1 with
    | ok q => simp only [hbuild] at hrefusal; cases hrefusal
    | error r =>
      simp only [hbuild] at hrefusal
      cases hrefusal
      exact build_fails_within htextual hbuild

/-- Midnight of the first day, on a clock an hour ahead of UTC. -/
def firstMidnight : Moment := ⟨⟨1, 1, 1⟩, 0, 0, 0, 0, some 3600⟩

/-- In UTC the first midnight lies before the year 1. A text that is no time fails as times do. -/
theorem perform_fails_within_firstMidnight :
    (∃ e, ((instant.perform (.at (.moment firstMidnight))).on
      (instant.after [.edit (.metric (.text "up"))])).1 = .error (.error e) ∧
        e.kind ∉ [.timeSpecifier]) ∧
    ∀ refusal, ((instant.perform (.at (.text "soon"))).on
      (instant.after [.edit (.metric (.text "up"))])).1 = .error refusal →
        ∃ e, refusal = .error e ∧ e.kind ∈ [.timeSpecifier] := by
  have hcalls : ∀ call ∈ [InstantBuilder.Call.edit (.metric (.text "up"))],
      instant.IsTyped call := List.forall_mem_singleton.2 ⟨"up", rfl⟩
  have hsound : firstMidnight.Sound :=
    ⟨by decide, by decide, by decide, by decide, by decide, by decide⟩
  constructor
  · exact (perform_fails_within instant _ (.at (.moment firstMidnight)) hcalls hsound).2
      (.inl (by decide))
  · exact (perform_fails_within instant _ (.at (.text "soon")) hcalls trivial).1 id

/-- An error of another class than that of times comes out of a call with a moment. -/
theorem at_firstMidnight : firstMidnight.Sound ∧
    ((instant.perform (.at (.moment firstMidnight))).on instant.fresh).1 =
      .error (.error .dateRange) ∧
    Error.dateRange.kind = .overflow ∧
    instant.classes (.at (.moment firstMidnight)) = [.timeSpecifier] := by
  refine ⟨⟨by decide, by decide, by decide, by decide, by decide, by decide⟩, ?_, rfl, rfl⟩
  rfl

end BuilderKind
end MetricQuery
