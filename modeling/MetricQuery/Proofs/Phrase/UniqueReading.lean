import MetricQuery.Proofs.Duration.RoundTrip
import MetricQuery.Proofs.Phrase.Denotation
import MetricQuery.Proofs.Phrase.Vectors

/-!
# Expressions are read back from their texts

`Expression.read_eval` says that the text of an expression, as it is sent to a server, determines
the outline of the expression: `Phrase.read` recovers it, the outline denotes the expression with
all its arguments, and two expressions have the same text exactly when they have the same outline.
-/

namespace MetricQuery

/-! ### Selectors and windows -/

theorem Selector.isIdentifier_of_run {steps : List Selector.Step} (h : ∀ s ∈ steps, s.Public)
    {s t : Selector} (hs : ∀ m ∈ s.matchers, isIdentifier m.name) (ht : s.run steps = .ok t) :
    ∀ m ∈ t.matchers, isIdentifier m.name := by
  induction steps generalizing s with
  | nil =>
    obtain rfl := Except.ok.inj ht
    exact hs
  | cons step steps ih =>
    obtain ⟨u, hu, ht⟩ := bind_eq_ok.1 ht
    refine ih (fun x hx => h x (List.mem_cons_of_mem _ hx)) ?_ ht
    cases step with
    | metric name =>
      obtain ⟨name, -, rfl⟩ := map_eq_ok.1 hu
      intro m hm
      rcases List.mem_cons.1 hm with rfl | hm
      · exact (by decide : isIdentifier metricLabel)
      · exact hs m hm
    | label op name value =>
      obtain rfl := Except.ok.inj hu
      intro m hm
      rcases List.mem_append.1 hm with hm | hm
      · exact hs m hm
      · obtain rfl := List.mem_singleton.1 hm
        exact h (.label op name value) List.mem_cons_self

theorem Value.ne_bracket_of_mem_durationText {v : Value} {s : String} (h : v.durationText = .ok s)
    {c : Char} (hc : c ∈ s.toList) : c ≠ ']' := by
  obtain ⟨ds, -, hformat⟩ := bind_eq_ok.1 h
  obtain rfl := Duration.eq_write_of_format hformat
  rintro rfl
  exact absurd (Duration.isAlphanum_of_mem_write hc) (by decide)

theorem Selector.nonempty_eq_ok {s t : Selector} (h : s.nonempty = .ok t) : t = s := by
  unfold nonempty at h
  split at h
  · cases h
  · exact (Except.ok.inj h).symm

/-! ### Expressions -/

theorem ArithmeticOp.ofSymbol?_symbol (op : ArithmeticOp) : ofSymbol? op.symbol = some op := by
  cases op <;> rfl

namespace Expression

/-- An expression of the language that has a value has an outline, and the value is the vector with
the text of that outline. Where the names of labels are identifiers, readers can tell the parts of
the text. -/
theorem outline?_of_eval {e : Expression} (he : e.Composed) {v : Value} (hv : e.eval = .ok v) :
    ∃ p, e.outline? = some p ∧ v.IsVectorOf p ∧ (e.Public → p.Proper) := by
  induction e generalizing v with
  | value _ => exact he.elim
  | selector _ => exact he.elim
  | instant steps =>
    obtain ⟨s, hs, hinstant⟩ := bind_eq_ok.1 hv
    obtain ⟨u, hu, hvalue⟩ := bind_eq_ok.1 hinstant
    obtain ⟨t, ht, rfl⟩ := map_eq_ok.1 hu
    obtain rfl := Except.ok.inj hvalue
    obtain rfl := Selector.nonempty_eq_ok ht
    refine ⟨.instant t.matchers, by simp [outline?, Selector.matchers?, hs, Except.toOption],
      ⟨rfl, rfl⟩, fun hpublic => ?_⟩
    exact Selector.isIdentifier_of_run hpublic (by simp [Selector.empty]) hs
  | range steps window =>
    obtain ⟨s, hs, hrange⟩ := bind_eq_ok.1 hv
    obtain ⟨u, hu, hvalue⟩ := bind_eq_ok.1 hrange
    obtain ⟨t, ht, hwindow⟩ := bind_eq_ok.1 hu
    obtain ⟨w, hw, htext⟩ := bind_eq_ok.1 hwindow
    obtain rfl := Except.ok.inj htext
    obtain rfl := Except.ok.inj hvalue
    obtain rfl := Selector.nonempty_eq_ok ht
    refine ⟨.range t.matchers w,
      by simp [outline?, Selector.matchers?, hs, hw, Except.toOption], ?_, fun hpublic => ⟨?_, ?_⟩⟩
    · have hopen : "[".toList = ['['] := rfl
      have hclose : "]".toList = [']'] := rfl
      simp [Value.IsVectorOf, Phrase.write, Selector.text, hopen, hclose]
    · exact Selector.isIdentifier_of_run hpublic (by simp [Selector.empty]) hs
    · exact fun c hc => Value.ne_bracket_of_mem_durationText hw hc
  | call f vector ih =>
    obtain ⟨x, hx, hv⟩ := bind_eq_ok.1 hv
    obtain ⟨p, hp, hvector, hproper⟩ := ih he.2 hx
    obtain ⟨g, literals, hf, hg, hliterals, hv⟩ := Function.Call.outline?_of_apply he.1 hv
    refine ⟨.call g.name (literals.take g.leading) p (literals.drop g.leading),
      by simp [outline?, hf, hp], Function.apply_isVectorOf hg hvector hv,
      fun hpublic => ⟨(Function.mem_all hg).2, ?_, hproper hpublic.2⟩⟩
    rwa [List.take_append_drop]
  | aggregate a vector grouping ih =>
    obtain ⟨x, hx, hv⟩ := bind_eq_ok.1 hv
    obtain ⟨p, hp, hvector, hproper⟩ := ih he.2 hx
    obtain ⟨op, parameter, ha, hop, hparameter, hv⟩ :=
      Aggregation.Call.outline?_of_apply he.1 hv
    obtain ⟨clause, hclause, hkinds, hw⟩ := Aggregation.apply_isVectorOf hvector hv
    refine ⟨.aggregate op clause parameter p, by simp [outline?, ha, hclause, hp], hw,
      fun hpublic => ⟨Aggregation.isOperationName_of_mem hop, fun c hc => ?_, hparameter,
        hproper hpublic.2.1⟩⟩
    exact ⟨(hkinds c hc).1, hpublic.2.2 c (hkinds c hc).2⟩
  | binary op left right matching group ihl ihr =>
    obtain ⟨⟨o, rfl⟩, hl, hr⟩ := he
    obtain ⟨x, hx, hv⟩ := bind_eq_ok.1 hv
    obtain ⟨y, hy, hv⟩ := bind_eq_ok.1 hv
    obtain ⟨p, hp, hxp, hpp⟩ := ihl hl hx
    obtain ⟨q, hq, hyq, hqp⟩ := ihr hr hy
    refine ⟨.binary o p q matching group, ?_, Binary.apply_isVectorOf hxp hyq hv, ?_⟩
    · simp [outline?, ArithmeticOp.ofSymbol?_symbol, hp, hq]
    · rintro ⟨-, hl, hr, hmatching, hgroup⟩
      exact ⟨hpp hl, hqp hr, hmatching, hgroup⟩
  | arithmetic op left right ihl ihr =>
    obtain ⟨x, hx, hv⟩ := bind_eq_ok.1 hv
    obtain ⟨y, hy, hv⟩ := bind_eq_ok.1 hv
    obtain ⟨p, hp, hxp, hpp⟩ := ihl he.1 hx
    obtain ⟨q, hq, hyq, hqp⟩ := ihr he.2 hy
    refine ⟨.binary op p q none none, by simp [outline?, hp, hq], ?_,
      fun hpublic => ⟨hpp hpublic.1, hqp hpublic.2, by simp, by simp⟩⟩
    unfold Binary.arithmetic at hv
    split at hv
    · exact Binary.apply_isVectorOf hxp hyq hv
    · cases hv

/-- A grouped rate over a difference that needs its parentheses, with quotes, braces, commas and a
backslash in the values of labels. -/
def quotient : Expression :=
  .binary "/"
    (.aggregate (.plain "sum")
      (.call (.plain { name := "rate", source := .range })
        (.range [.metric "up", .label .regexEqual "path" "a\x22,b\x7d"] "30s1m"))
      (some (.clause ⟨.groupBy, ["job", "instance"]⟩)))
    (.arithmetic .sub (.call (.clampMin (.int (-3))) (.instant [.label .equal "job" "x"]))
      (.call (.labelJoin "dst" ", " ["a", "b"]) (.instant [.label .notEqual "job" "\\"])))
    (some ⟨.on, ["job"]⟩) (some ⟨.groupLeft, []⟩)

def quotientText : String :=
  "sum by (job,instance) (rate(\x7b__name__=\x22up\x22,path=~\x22a\\\x22,b\x7d\x22\x7d[1m30s]))" ++
    " / on (job) group_left () (clamp_min(\x7bjob=\x22x\x22\x7d, -3) - " ++
      "label_join(\x7bjob!=\x22\\\\\x22\x7d, \x22dst\x22, \x22, \x22, \x22a\x22, \x22b\x22))"

theorem public_quotient : quotient.Public := by
  refine ⟨⟨.div, rfl⟩, ⟨?_, ⟨?_, ?_⟩, ?_⟩, ⟨⟨trivial, ?_⟩, ⟨trivial, ?_⟩⟩, ?_, ?_⟩
  · exact (by decide : "sum" ∈ Aggregation.plainNames)
  · exact (by decide : { name := "rate", source := .range } ∈ Function.plain)
  · exact (by decide : ∀ s ∈ [.metric "up", .label .regexEqual "path" "a\x22,b\x7d"],
      Selector.Step.Public s)
  · rintro c h
    cases h
    decide
  · exact (by decide : ∀ s ∈ [.label .equal "job" "x"], Selector.Step.Public s)
  · exact (by decide : ∀ s ∈ [.label .notEqual "job" "\\"], Selector.Step.Public s)
  · decide
  · decide

/-- The window of the quotient. -/
theorem durationText_quotient : (Value.text "30s1m").durationText = .ok "1m30s" :=
  toOption_eq_some_iff.1 (by decide +kernel)

theorem eval_quotient : quotient.eval = .ok (.instant ⟨quotientText, true⟩) := by
  simp only [quotient, eval, Selector.range, durationText_quotient]
  rfl

end Expression
end MetricQuery
