import MetricQuery.Proofs.Number.Numeral
import MetricQuery.Proofs.Outcome
import MetricQuery.Proofs.Phrase.Outline
import MetricQuery.Proofs.Phrase.RoundTrip

/-!
# Vectors of phrases

Each operation that succeeds on vectors of phrases gives the vector of the phrase with the operation
on top. A binary operation marks its vector as compound, so that the next one encloses it.
-/

namespace MetricQuery

/-! ### Texts of values -/

/-- The text of a vector. -/
def Value.written? : Value → Option String
  | instant v => some v.text
  | range v => some v.text
  | _ => none

/-- A value is the vector with the text of a phrase, compound for a binary operation. -/
def Value.IsVectorOf (p : Phrase) : Value → Prop
  | instant v => v.text.toList = p.write ∧ v.compound = p.isBinary
  | range v => v.text.toList = p.write
  | _ => False

theorem Value.IsVectorOf.written? {p : Phrase} {v : Value} (h : v.IsVectorOf p) :
    v.written? = some (String.ofList p.write) := by
  cases v with
  | instant u => rw [Value.written?, ← h.1, String.ofList_toList]
  | range u =>
    have h : u.text.toList = p.write := h
    rw [Value.written?, ← h, String.ofList_toList]
  | _ => exact h.elim

theorem Value.instantFor_eq_ok_iff {operation : String} {v : Value} {u : InstantVector} :
    v.instantFor operation = .ok u ↔ v = .instant u := by
  cases v <;> simp [instantFor]

/-! ### Functions -/

/-- Every function of the language gives instant vectors and has the name of an operation. -/
theorem Function.mem_all {f : Function} (h : f ∈ Function.all) :
    f.result = .instant ∧ isOperationName f.name := by
  revert f
  decide +kernel

theorem Function.mem_all_of_mem_plain {f : Function} (h : f ∈ Function.plain) :
    f ∈ Function.all := List.mem_append_left _ h

theorem Value.IsVectorOf.vectorText {operation : String} {kind : VectorKind} {p : Phrase}
    {v : Value} (h : v.IsVectorOf p) {s : String} (hs : v.vectorText operation kind = .ok s) :
    s.toList = p.write := by
  cases v with
  | instant u => cases kind <;> cases hs; exact h.1
  | range u => cases kind <;> cases hs; exact h
  | _ => exact h.elim

theorem Function.apply_isVectorOf {f : Function} (hf : f ∈ Function.all) {v w : Value} {p : Phrase}
    (hv : v.IsVectorOf p) {literals : List Literal}
    (h : f.apply v (literals.map Literal.text) = .ok w) :
    w.IsVectorOf (.call f.name (literals.take f.leading) p (literals.drop f.leading)) := by
  obtain ⟨s, hs, rfl⟩ := map_eq_ok.1 h
  have hcomma : ", ".toList = [',', ' '] := rfl
  have hopen : "(".toList = ['('] := rfl
  have hclose : ")".toList = [')'] := rfl
  rw [(Function.mem_all hf).1]
  refine ⟨?_, rfl⟩
  simp only [← List.map_take, ← List.map_drop, String.toList_append, String.toList_intercalate,
    hcomma, hopen, hclose, List.map_append, List.map_cons, List.map_map,
    Scan.intercalate_append_cons, hv.vectorText hs, Phrase.write]
  simp [List.flatMap_map, Function.comp_def, Literal.toList_text, -List.map_take, -List.map_drop]

theorem ofNumber?_eq {v : Value} {s : String} (h : v.numberText = .ok s) :
    Literal.ofNumber? v = some (.number s) := by
  rw [Literal.ofNumber?, h]
  rfl

/-- A call that succeeds applies the function of its outline to the texts of its literals. -/
theorem Function.Call.outline?_of_apply {c : Function.Call} (hc : c.Public) {v w : Value}
    (h : c.apply v = .ok w) :
    ∃ f literals, c.outline? = some (f, literals) ∧ f ∈ Function.all ∧
      (∀ l ∈ literals, l.Proper) ∧ f.apply v (literals.map Literal.text) = .ok w := by
  -- The calls with one number and those with two differ in their functions alone.
  have one {n : Value} {f : Function} (hf : f ∈ Function.all)
      (h : (do f.apply v [← n.numberText]) = .ok w) :
      ∃ l, Literal.ofNumber? n = some l ∧ f ∈ Function.all ∧ (∀ x ∈ [l], Literal.Proper x) ∧
        f.apply v ([l].map Literal.text) = .ok w := by
    obtain ⟨s, hs, h⟩ := bind_eq_ok.1 h
    exact ⟨.number s, ofNumber?_eq hs, hf,
      by simpa [Literal.Proper] using Value.isNumeral_numberText hs, h⟩
  have two {m n : Value} {f : Function} (hf : f ∈ Function.all)
      (h : (do f.apply v [← m.numberText, ← n.numberText]) = .ok w) :
      ∃ k l, Literal.ofNumber? m = some k ∧ Literal.ofNumber? n = some l ∧ f ∈ Function.all ∧
        (∀ x ∈ [k, l], Literal.Proper x) ∧ f.apply v ([k, l].map Literal.text) = .ok w := by
    obtain ⟨s, hs, h⟩ := bind_eq_ok.1 h
    obtain ⟨t, ht, h⟩ := bind_eq_ok.1 h
    have hproper : ∀ x ∈ [.number s, .number t], Literal.Proper x := by
      simpa [Literal.Proper] using
        ⟨Value.isNumeral_numberText hs, Value.isNumeral_numberText ht⟩
    exact ⟨.number s, .number t, ofNumber?_eq hs, ofNumber?_eq ht, hf, hproper, h⟩
  cases c with
  | plain f => exact ⟨f, [], rfl, Function.mem_all_of_mem_plain hc, by simp, h⟩
  | round toNearest =>
    cases toNearest with
    | none => exact ⟨Function.round, [], rfl, by decide, by simp, h⟩
    | some n =>
      obtain ⟨l, hl, h⟩ := one (by decide) h
      exact ⟨Function.round, [l], by simp [outline?, hl], h⟩
  | clamp min max =>
    obtain ⟨k, l, hk, hl, h⟩ := two (by decide) h
    exact ⟨Function.clamp, [k, l], by simp [outline?, hk, hl], h⟩
  | clampMin min =>
    obtain ⟨l, hl, h⟩ := one (by decide) h
    exact ⟨Function.clampMin, [l], by simp [outline?, hl], h⟩
  | clampMax max =>
    obtain ⟨l, hl, h⟩ := one (by decide) h
    exact ⟨Function.clampMax, [l], by simp [outline?, hl], h⟩
  | histogramQuantile q =>
    obtain ⟨l, hl, h⟩ := one (by decide) h
    exact ⟨Function.histogramQuantile, [l], by simp [outline?, hl], h⟩
  | quantileOverTime q =>
    obtain ⟨l, hl, h⟩ := one (by decide) h
    exact ⟨Function.quantileOverTime, [l], by simp [outline?, hl], h⟩
  | predictLinear seconds =>
    obtain ⟨l, hl, h⟩ := one (by decide) h
    exact ⟨Function.predictLinear, [l], by simp [outline?, hl], h⟩
  | holtWinters smoothing trend =>
    simp only [apply] at h
    obtain ⟨b, -, h⟩ := bind_eq_ok.1 h
    cases b with
    | false => cases h
    | true =>
      obtain ⟨b', -, h⟩ := bind_eq_ok.1 h
      cases b' with
      | false => cases h
      | true =>
        obtain ⟨k, l, hk, hl, h⟩ := two (by decide) h
        exact ⟨Function.holtWinters, [k, l], by simp [outline?, hk, hl], h⟩
  | labelReplace destination replacement source regex =>
    simp only [apply] at h
    split at h
    · cases h
    · exact ⟨Function.labelReplace, _, rfl, by decide, by simp [Literal.Proper], h⟩
  | labelJoin destination separator sources =>
    simp only [apply] at h
    split at h
    · cases h
    split at h
    · cases h
    · exact ⟨Function.labelJoin, _, rfl, by decide, by simp [Literal.Proper],
        by simpa [Literal.text, Function.comp_def] using h⟩
  | raw name args => exact hc.elim

/-! ### Aggregations -/

theorem Aggregation.isOperationName_of_mem {op : String} (h : op ∈ Aggregation.names) :
    isOperationName op := by
  revert op
  decide +kernel

theorem Aggregation.mem_names_of_mem_plainNames {op : String} (h : op ∈ Aggregation.plainNames) :
    op ∈ Aggregation.names := List.mem_append_left _ h

/-- An aggregation that succeeds applies the operator of its outline to the text of its
parameter. -/
theorem Aggregation.Call.outline?_of_apply {c : Aggregation.Call} (hc : c.Public) {v w : Value}
    {grouping : Option Value} (h : c.apply v grouping = .ok w) :
    ∃ op parameter, c.outline? = some (op, parameter) ∧ op ∈ Aggregation.names ∧
      (∀ l ∈ parameter, l.Proper) ∧
        Aggregation.apply op v grouping (parameter.map Literal.text) = .ok w := by
  cases c with
  | plain op => exact ⟨op, none, rfl, mem_names_of_mem_plainNames hc, by simp, h⟩
  | countValues label =>
    exact ⟨"count_values", some (.string label), rfl, by decide, by simp [Literal.Proper], h⟩
  | bottomk k =>
    obtain ⟨s, hs, h⟩ := bind_eq_ok.1 h
    exact ⟨"bottomk", some (.number s), by simp [outline?, hs, Except.toOption], by decide,
      by simpa [Literal.Proper] using isNumeral_countText hs, h⟩
  | topk k =>
    obtain ⟨s, hs, h⟩ := bind_eq_ok.1 h
    exact ⟨"topk", some (.number s), by simp [outline?, hs, Except.toOption], by decide,
      by simpa [Literal.Proper] using isNumeral_countText hs, h⟩
  | quantile q =>
    obtain ⟨s, hs, h⟩ := bind_eq_ok.1 h
    exact ⟨"quantile", some (.number s), by simp [outline?, hs, Except.toOption], by decide,
      by simpa [Literal.Proper] using isNumeral_quantileText hs, h⟩
  | raw op parameter => exact hc.elim

/-- The clause of a grouping that is accepted, and its text. -/
theorem groupingClause?_of_groupingText {op s : String} {grouping : Option Value}
    (h : Aggregation.groupingText op grouping = .ok s) :
    ∃ clause, groupingClause? grouping = some clause ∧ s.toList = writeClause clause ∧
      (∀ c ∈ clause, c.kind ∈ [.groupBy, .without] ∧ grouping = some (.clause c)) := by
  unfold Aggregation.groupingText at h
  split at h
  · obtain rfl := Except.ok.inj h
    exact ⟨none, rfl, rfl, by simp⟩
  · rename_i c
    split at h
    · rename_i hkind
      obtain rfl := Except.ok.inj h
      have hblank : " ".toList = [' '] := rfl
      refine ⟨some c, rfl, by simp [writeClause, hblank], fun d hd => ?_⟩
      obtain rfl := Option.mem_some_iff.1 hd
      refine ⟨?_, rfl⟩
      cases hk : c.kind <;> simp [ClauseKind.isGrouping, hk] at hkind ⊢
    · cases h
  · cases h

/-- What an aggregation that succeeds has done. -/
theorem Aggregation.apply_eq_ok_iff {op : String} {v w : Value} {grouping : Option Value}
    {parameter : Option String} :
    Aggregation.apply op v grouping parameter = .ok w ↔
      ∃ u clause, v = .instant u ∧ groupingText op grouping = .ok clause ∧
        w = .instant { text := op ++ clause ++ " (" ++
          parameter.elim u.text (· ++ ", " ++ u.text) ++ ")" } := by
  simp only [apply, bind_eq_ok, Value.instantFor_eq_ok_iff]
  cases parameter <;> simp [pure, Except.pure, eq_comm]

theorem Aggregation.apply_isVectorOf {op : String} {v w : Value} {p : Phrase}
    (hv : v.IsVectorOf p) {grouping : Option Value} {parameter : Option Literal}
    (h : Aggregation.apply op v grouping (parameter.map Literal.text) = .ok w) :
    ∃ clause, groupingClause? grouping = some clause ∧
      (∀ c ∈ clause, c.kind ∈ [.groupBy, .without] ∧ grouping = some (.clause c)) ∧
        w.IsVectorOf (.aggregate op clause parameter p) := by
  obtain ⟨u, s, rfl, hs, rfl⟩ := apply_eq_ok_iff.1 h
  obtain ⟨clause, hclause, htext, hkinds⟩ := groupingClause?_of_groupingText hs
  refine ⟨clause, hclause, hkinds, ?_, rfl⟩
  have hvector : u.text.toList = p.write := hv.1
  have hopen : " (".toList = [' ', '('] := rfl
  have hclose : ")".toList = [')'] := rfl
  have hcomma : ", ".toList = [',', ' '] := rfl
  cases parameter with
  | none => simp [Phrase.write, htext, hvector, hopen, hclose]
  | some l => simp [Phrase.write, htext, hvector, hopen, hclose, hcomma, Literal.toList_text]

/-! ### Binary operations -/

theorem InstantVector.toList_operand {u : InstantVector} {p : Phrase} (ht : u.text.toList = p.write)
    (hc : u.compound = p.isBinary) : u.operand.toList = p.enclose p.write := by
  have hopen : "(".toList = ['('] := rfl
  have hclose : ")".toList = [')'] := rfl
  unfold operand Phrase.enclose
  rw [hc]
  split <;> simp [ht, hopen, hclose]

theorem Binary.toList_text {op : ArithmeticOp} {u v : InstantVector} {p q : Phrase}
    (hu : u.operand.toList = p.enclose p.write) (hv : v.operand.toList = q.enclose q.write)
    (matching group : Option Clause) :
    (Binary.text op.symbol u v matching group).toList =
      (Phrase.binary op p q matching group).write := by
  have hblank : " ".toList = [' '] := rfl
  cases matching <;> cases group <;>
    simp [Binary.text, Phrase.write, writeClause, hu, hv, hblank]

/-- What a binary operation that succeeds has done. -/
theorem Binary.apply_eq_ok_iff {op : String} {v v' w : Value} {matching group : Option Clause} :
    Binary.apply op v v' matching group = .ok w ↔
      ∃ u u', v = .instant u ∧ v' = .instant u' ∧ (group.isSome → matching.isSome) ∧
        w = .instant { text := text op u u' matching group, compound := true } := by
  simp only [apply, bind_eq_ok, Value.instantFor_eq_ok_iff]
  cases group <;> cases matching <;>
    simp [pure, Except.pure, throw, throwThe, MonadExceptOf.throw, eq_comm]

theorem Binary.apply_isVectorOf {op : ArithmeticOp} {v v' w : Value} {p p' : Phrase}
    (hv : v.IsVectorOf p) (hv' : v'.IsVectorOf p') {matching group : Option Clause}
    (h : Binary.apply op.symbol v v' matching group = .ok w) :
    w.IsVectorOf (.binary op p p' matching group) := by
  obtain ⟨u, u', rfl, rfl, -, rfl⟩ := apply_eq_ok_iff.1 h
  have hleft : u.operand.toList = p.enclose p.write := InstantVector.toList_operand hv.1 hv.2
  have hright : u'.operand.toList = p'.enclose p'.write := InstantVector.toList_operand hv'.1 hv'.2
  exact ⟨toList_text hleft hright matching group, rfl⟩

end MetricQuery
