import MetricQuery.Proofs.Phrase.Tokens

/-!
# Outlines of expressions

The outline of an expression is the phrase that it stands for, found on the tree and not on its
text: numbers become number literals, a window its canonical text, the steps of a selector its
matchers.
-/

namespace MetricQuery

namespace Literal

/-- The text of a literal as an argument. -/
def text : Literal → String
  | number t => t
  | string s => quote s

theorem toList_text (l : Literal) : l.text.toList = l.write := by
  cases l with
  | number t => rfl
  | string s => exact String.toList_ofList

/-- The number literal for a value. -/
def ofNumber? (v : Value) : Option Literal := v.numberText.toOption.map number

end Literal

/-- The function that is called, if there is one. -/
def Function.Call.function? : Function.Call → Option Function
  | plain f => some f
  | round _ => some Function.round
  | clamp _ _ => some Function.clamp
  | clampMin _ => some Function.clampMin
  | clampMax _ => some Function.clampMax
  | histogramQuantile _ => some Function.histogramQuantile
  | quantileOverTime _ => some Function.quantileOverTime
  | predictLinear _ => some Function.predictLinear
  | holtWinters _ _ => some Function.holtWinters
  | labelReplace .. => some Function.labelReplace
  | labelJoin .. => some Function.labelJoin
  | raw name _ => Function.find? name

/-- The function of a call and its literals in their order. A call of a function by its name has no
outline, because its arguments are not literals but any texts. -/
def Function.Call.outline? : Function.Call → Option (Function × List Literal)
  | plain f => some (f, [])
  | round none => some (Function.round, [])
  | round (some n) => do return (Function.round, [← Literal.ofNumber? n])
  | clamp min max => do return (Function.clamp, [← Literal.ofNumber? min, ← Literal.ofNumber? max])
  | clampMin min => do return (Function.clampMin, [← Literal.ofNumber? min])
  | clampMax max => do return (Function.clampMax, [← Literal.ofNumber? max])
  | histogramQuantile q => do return (Function.histogramQuantile, [← Literal.ofNumber? q])
  | quantileOverTime q => do return (Function.quantileOverTime, [← Literal.ofNumber? q])
  | predictLinear seconds => do return (Function.predictLinear, [← Literal.ofNumber? seconds])
  | holtWinters smoothing trend => do
    return (Function.holtWinters, [← Literal.ofNumber? smoothing, ← Literal.ofNumber? trend])
  | labelReplace destination replacement source regex =>
    some (Function.labelReplace,
      [.string destination, .string replacement, .string source, .string regex])
  | labelJoin destination separator sources =>
    some (Function.labelJoin, .string destination :: .string separator :: sources.map .string)
  | raw _ _ => none

/-- The operator of an aggregation. -/
def Aggregation.Call.operator : Aggregation.Call → String
  | plain op => op
  | countValues _ => "count_values"
  | bottomk _ => "bottomk"
  | topk _ => "topk"
  | quantile _ => "quantile"
  | raw op _ => op

/-- The operator of an aggregation and its parameter. -/
def Aggregation.Call.outline? : Aggregation.Call → Option (String × Option Literal)
  | plain op => some (op, none)
  | countValues label => some ("count_values", some (.string label))
  | bottomk k => do return ("bottomk", some (.number (← (countText "bottomk" k).toOption)))
  | topk k => do return ("topk", some (.number (← (countText "topk" k).toOption)))
  | quantile q => do return ("quantile", some (.number (← (quantileText q).toOption)))
  | raw _ _ => none

/-- The clause that groups an aggregation. -/
def groupingClause? : Option Value → Option (Option Clause)
  | none => some none
  | some (.clause c) => some (some c)
  | some _ => none

/-- The operator that a text writes. -/
def ArithmeticOp.ofSymbol? (s : String) : Option ArithmeticOp :=
  [add, sub, mul, div, mod, pow].find? (·.symbol == s)

/-- The matchers that the steps of a selector lead to. -/
def Selector.matchers? (steps : List Selector.Step) : Option (List Matcher) :=
  (Selector.empty.run steps).toOption.map (·.matchers)

theorem Selector.eq_of_metricName {name name' : String} (h : metricName name = .ok name') :
    name' = name := by
  unfold metricName at h
  split at h
  · cases h
  · exact (Except.ok.inj h).symm

theorem Selector.nonempty_of_ne_nil {s : Selector} (h : s.matchers ≠ []) : s.nonempty = .ok s :=
  if_neg (by simpa using h)

theorem Selector.instant_of_nil {s : Selector} (h : s.matchers = []) :
    s.instant = .error .emptySelector := by
  rw [instant, nonempty, h]
  rfl

theorem Selector.instant_of_ne_nil {s : Selector} (h : s.matchers ≠ []) :
    s.instant = .ok { text := s.text } := by
  rw [instant, nonempty_of_ne_nil h]
  rfl

namespace Expression

/-- The phrase that an expression stands for. -/
def outline? : Expression → Option Phrase
  | value _ => none
  | selector _ => none
  | instant steps => do return .instant (← Selector.matchers? steps)
  | range steps window => do
    return .range (← Selector.matchers? steps) (← (Value.text window).durationText.toOption)
  | call f vector => do
    let (f, literals) ← f.outline?
    return .call f.name (literals.take f.leading) (← vector.outline?) (literals.drop f.leading)
  | aggregate a vector grouping => do
    let (op, parameter) ← a.outline?
    return .aggregate op (← groupingClause? grouping) parameter (← vector.outline?)
  | binary op left right matching group => do
    return .binary (← ArithmeticOp.ofSymbol? op) (← left.outline?) (← right.outline?) matching group
  | arithmetic op left right => do
    return .binary op (← left.outline?) (← right.outline?) none none

theorem outline?_call_eq_some {f : Function.Call} {vector : Expression} {p : Phrase}
    (h : (call f vector).outline? = some p) : ∃ g literals q, f.outline? = some (g, literals) ∧
      vector.outline? = some q ∧
      p = .call g.name (literals.take g.leading) q (literals.drop g.leading) := by
  obtain ⟨⟨g, literals⟩, hf, h⟩ := Option.bind_eq_some_iff.1 h
  obtain ⟨q, hq, h⟩ := Option.bind_eq_some_iff.1 h
  exact ⟨g, literals, q, hf, hq, (Option.some.inj h).symm⟩

theorem outline?_aggregate_eq_some {a : Aggregation.Call} {vector : Expression}
    {grouping : Option Value} {p : Phrase} (h : (aggregate a vector grouping).outline? = some p) :
    ∃ op clause parameter q, a.outline? = some (op, parameter) ∧
      groupingClause? grouping = some clause ∧ vector.outline? = some q ∧
      p = .aggregate op clause parameter q := by
  obtain ⟨⟨op, parameter⟩, ha, h⟩ := Option.bind_eq_some_iff.1 h
  obtain ⟨clause, hclause, h⟩ := Option.bind_eq_some_iff.1 h
  obtain ⟨q, hq, h⟩ := Option.bind_eq_some_iff.1 h
  exact ⟨op, clause, parameter, q, ha, hclause, hq, (Option.some.inj h).symm⟩

theorem outline?_binary_eq_some {op : String} {left right : Expression}
    {matching group : Option Clause} {p : Phrase}
    (h : (binary op left right matching group).outline? = some p) :
    ∃ o l r, ArithmeticOp.ofSymbol? op = some o ∧ left.outline? = some l ∧
      right.outline? = some r ∧ p = .binary o l r matching group := by
  obtain ⟨o, ho, h⟩ := Option.bind_eq_some_iff.1 h
  obtain ⟨l, hl, h⟩ := Option.bind_eq_some_iff.1 h
  obtain ⟨r, hr, h⟩ := Option.bind_eq_some_iff.1 h
  exact ⟨o, l, r, ho, hl, hr, (Option.some.inj h).symm⟩

theorem outline?_arithmetic_eq_some {op : ArithmeticOp} {left right : Expression} {p : Phrase}
    (h : (arithmetic op left right).outline? = some p) :
    ∃ l r, left.outline? = some l ∧ right.outline? = some r ∧ p = .binary op l r none none := by
  obtain ⟨l, hl, h⟩ := Option.bind_eq_some_iff.1 h
  obtain ⟨r, hr, h⟩ := Option.bind_eq_some_iff.1 h
  exact ⟨l, r, hl, hr, (Option.some.inj h).symm⟩

end Expression

/-! ### The expressions of the query language

The trees that callers build: selectors over labels with identifiers as names, the functions and
aggregations of the language, and binary operations with clauses of the kinds that belong there. -/

/-- The label of a step is an identifier. -/
def Selector.Step.Public : Selector.Step → Prop
  | .metric _ => True
  | .label _ name _ => isIdentifier name

instance : DecidablePred Selector.Step.Public
  | .metric _ => .isTrue trivial
  | .label _ name _ => inferInstanceAs (Decidable (isIdentifier name))

/-- A call of a function of the language with arguments of its own kinds. -/
def Function.Call.Public : Function.Call → Prop
  | plain f => f ∈ Function.plain
  | raw _ _ => False
  | _ => True

def Aggregation.Call.Public : Aggregation.Call → Prop
  | plain op => op ∈ Aggregation.plainNames
  | raw _ _ => False
  | _ => True

/-- The labels of a clause are identifiers. -/
def Clause.Public (c : Clause) : Prop := ∀ l ∈ c.labels, isIdentifier l

instance (c : Clause) : Decidable c.Public :=
  inferInstanceAs (Decidable (∀ l ∈ c.labels, isIdentifier l))

/-- The trees of the language. The names of labels may be any texts in them. -/
def Expression.Composed : Expression → Prop
  | value _ => False
  | selector _ => False
  | instant _ => True
  | range _ _ => True
  | call f vector => f.Public ∧ vector.Composed
  | aggregate a vector _ => a.Public ∧ vector.Composed
  | binary op left right _ _ =>
    (∃ o : ArithmeticOp, op = o.symbol) ∧ left.Composed ∧ right.Composed
  | arithmetic _ left right => left.Composed ∧ right.Composed

def Expression.Public : Expression → Prop
  | value _ => False
  | selector _ => False
  | instant steps => ∀ s ∈ steps, s.Public
  | range steps _ => ∀ s ∈ steps, s.Public
  | call f vector => f.Public ∧ vector.Public
  | aggregate a vector grouping =>
    a.Public ∧ vector.Public ∧ ∀ c, grouping = some (.clause c) → c.Public
  | binary op left right matching group =>
    (∃ o : ArithmeticOp, op = o.symbol) ∧ left.Public ∧ right.Public ∧
      (∀ c ∈ matching, c.Proper [.on, .ignoring]) ∧
        ∀ c ∈ group, c.Proper [.groupLeft, .groupRight]
  | arithmetic _ left right => left.Public ∧ right.Public

theorem Expression.Public.composed {e : Expression} (h : e.Public) : e.Composed := by
  induction e with
  | value _ => exact h
  | selector _ => exact h
  | instant _ => trivial
  | range _ _ => trivial
  | call f vector ih => exact ⟨h.1, ih h.2⟩
  | aggregate a vector grouping ih => exact ⟨h.1, ih h.2.1⟩
  | binary op left right matching group ihl ihr => exact ⟨h.1, ihl h.2.1, ihr h.2.2.1⟩
  | arithmetic op left right ihl ihr => exact ⟨ihl h.1, ihr h.2⟩

end MetricQuery
