import MetricQuery.Proofs.Phrase.UniqueReading

/-!
# The kinds of vectors

An expression has a kind that can be seen from its root, and each operation wants vectors of certain
kinds. If all other arguments pass their own checks, an expression has a value exactly when all its
operations get what they want, and otherwise it raises an error of type.
-/

namespace MetricQuery

/-- The kind of a value that is a vector. -/
def Value.vectorKind? : Value → Option VectorKind
  | instant _ => some .instant
  | range _ => some .range
  | _ => none

namespace Value

theorem eq_instant {v : Value} (h : v.vectorKind? = some .instant) : ∃ u, v = instant u := by
  cases v with
  | instant u => exact ⟨u, rfl⟩
  | _ => cases h

theorem eq_range {v : Value} (h : v.vectorKind? = some .range) : ∃ u, v = range u := by
  cases v with
  | range u => exact ⟨u, rfl⟩
  | _ => cases h

end Value

/-! ### Arguments beside the vectors -/

/-- A value that can be written as a number. -/
def Value.IsNumber (v : Value) : Prop := ∃ s, v.numberText = .ok s

/-- What is run on a vector fails whatever the vector is, or it applies a function to it. -/
def Function.Settled (run : Value → Except Error Value) : Prop :=
  (∃ err, ∀ v, run v = .error err) ∨ ∃ f args, ∀ v, run v = Function.apply f v args

namespace Function.Settled

theorem error (err : Error) : Settled fun _ => .error err := .inl ⟨err, fun _ => rfl⟩

theorem apply (f : Function) (args : List String) : Settled (f.apply · args) :=
  .inr ⟨f, args, fun _ => rfl⟩

/-- A check that does not look at the vector may come first. -/
theorem after {α : Type} (x : Except Error α) {run : α → Value → Except Error Value}
    (h : ∀ a, Settled (run a)) : Settled fun v => x >>= fun a => run a v := by
  cases x with
  | error err => exact error err
  | ok a => exact h a

end Function.Settled

namespace Function.Call

/-- The arguments of a call beside its vector are checked before the vector is looked at. -/
theorem settled (c : Call) : (∃ err, ∀ v, c.apply v = .error err) ∨
    ∃ (f : Function) (args : List String), ∀ v, c.apply v = f.apply v args := by
  show Settled c.apply
  cases c with
  | plain f => exact .apply f []
  | round toNearest =>
    cases toNearest with
    | none => exact .apply _ []
    | some n => exact .after _ fun s => .apply _ [s]
  | clamp min max => exact .after _ fun s => .after _ fun t => .apply _ [s, t]
  | clampMin n | clampMax n | histogramQuantile n | quantileOverTime n | predictLinear n =>
    exact .after _ fun s => .apply _ [s]
  | holtWinters smoothing trend =>
    refine .after _ fun a => ?_
    cases a with
    | false => exact .error _
    | true =>
      refine .after _ fun b => ?_
      cases b with
      | false => exact .error _
      | true => exact .after _ fun s => .after _ fun t => .apply _ [s, t]
  | labelReplace destination replacement source regex =>
    simp only [Call.apply]
    split
    · exact .error _
    · exact .apply _ _
  | labelJoin destination separator sources =>
    simp only [Call.apply]
    split
    · exact .error _
    split
    · exact .error _
    · exact .apply _ _
  | raw name args =>
    simp only [Call.apply]
    split
    · exact .apply _ args
    · exact .error _

/-- The arguments of a call pass the checks of its function. -/
def IsSupplied : Call → Prop
  | plain f => f ∈ Function.all
  | round toNearest => ∀ n ∈ toNearest, n.IsNumber
  | clamp min max => min.IsNumber ∧ max.IsNumber
  | clampMin min => min.IsNumber
  | clampMax max => max.IsNumber
  | histogramQuantile quantile => quantile.IsNumber
  | quantileOverTime quantile => quantile.IsNumber
  | predictLinear seconds => seconds.IsNumber
  | holtWinters smoothing trend =>
    (smoothing.isProperFraction = .ok true ∧ smoothing.IsNumber) ∧
      trend.isProperFraction = .ok true ∧ trend.IsNumber
  | labelReplace destination _ _ _ => destination ≠ ""
  | labelJoin destination _ sources => destination ≠ "" ∧ sources ≠ []
  | raw name _ => (Function.find? name).isSome

/-- A supplied call looks at nothing but the vector. -/
theorem IsSupplied.apply_eq {c : Call} (hc : c.IsSupplied) :
    ∃ f args, c.function? = some f ∧ f ∈ Function.all ∧ ∀ v, c.apply v = f.apply v args := by
  cases c with
  | plain f => exact ⟨f, [], rfl, hc, fun v => rfl⟩
  | round toNearest =>
    cases toNearest with
    | none => exact ⟨_, [], rfl, by decide, fun v => rfl⟩
    | some n =>
      obtain ⟨s, hs⟩ := hc n rfl
      exact ⟨_, [s], rfl, by decide, fun v => by rw [apply, hs]; rfl⟩
  | clamp min max =>
    obtain ⟨⟨s, hs⟩, t, ht⟩ := hc
    exact ⟨_, [s, t], rfl, by decide, fun v => by rw [apply, hs, ht]; rfl⟩
  | clampMin n | clampMax n | histogramQuantile n | quantileOverTime n | predictLinear n =>
    obtain ⟨s, hs⟩ := hc
    exact ⟨_, [s], rfl, by decide, fun v => by rw [apply, hs]; rfl⟩
  | holtWinters smoothing trend =>
    obtain ⟨⟨hsmoothing, s, hs⟩, htrend, t, ht⟩ := hc
    exact ⟨_, [s, t], rfl, by decide, fun v => by rw [apply, hsmoothing, htrend, hs, ht]; rfl⟩
  | labelReplace destination replacement source regex =>
    have hne : destination ≠ "" := hc
    have hdestination : destination.isEmpty = false := by simpa using hne
    exact ⟨_, _, rfl, by decide, fun v => by rw [apply, hdestination]; rfl⟩
  | labelJoin destination separator sources =>
    have hdestination : destination.isEmpty = false := by simpa using hc.1
    have hsources : sources.isEmpty = false := by simpa using hc.2
    exact ⟨_, _, rfl, by decide, fun v => by rw [apply, hdestination, hsources]; rfl⟩
  | raw name args =>
    obtain ⟨f, hf⟩ := Option.isSome_iff_exists.1 hc
    exact ⟨f, args, hf, List.mem_of_find?_eq_some hf, fun v => by rw [apply, hf]⟩

end Function.Call

namespace Aggregation.Call

/-- The parameter of an aggregation passes its check. -/
def IsSupplied : Call → Prop
  | bottomk k => ∃ s, countText "bottomk" k = .ok s
  | topk k => ∃ s, countText "topk" k = .ok s
  | quantile q => ∃ s, quantileText q = .ok s
  | _ => True

/-- A supplied aggregation looks at nothing but the vector and the grouping. -/
theorem IsSupplied.apply_eq {c : Call} (hc : c.IsSupplied) :
    ∃ parameter, ∀ v grouping,
      c.apply v grouping = Aggregation.apply c.operator v grouping parameter := by
  cases c with
  | plain op => exact ⟨none, fun v grouping => rfl⟩
  | countValues label => exact ⟨some (quote label), fun v grouping => rfl⟩
  | bottomk k | topk k | quantile k =>
    obtain ⟨s, hs⟩ := hc
    exact ⟨some s, fun v grouping => by rw [apply, hs]; rfl⟩
  | raw op parameter => exact ⟨parameter, fun v grouping => rfl⟩

end Aggregation.Call

/-- Steps that lead to a selector with a matcher. -/
def Selector.Selects (steps : List Selector.Step) : Prop :=
  ∃ s : Selector, Selector.empty.run steps = .ok s ∧ s.matchers ≠ []

/-- A grouping clause, or none. -/
def Aggregation.IsGrouping (grouping : Option Value) : Prop :=
  ∀ v ∈ grouping, ∃ c : Clause, v = .clause c ∧ c.kind.isGrouping

theorem Aggregation.IsGrouping.exists_text {grouping : Option Value} (h : IsGrouping grouping)
    (op : String) : ∃ s, groupingText op grouping = .ok s := by
  cases grouping with
  | none => exact ⟨"", rfl⟩
  | some v =>
    obtain ⟨c, rfl, hkind⟩ := h v rfl
    exact ⟨_, if_pos hkind⟩

namespace Expression

/-- All arguments but the vectors pass their own checks. The vectors may be of any kind. -/
def IsSupplied : Expression → Prop
  | value _ => False
  | selector _ => False
  | instant steps => Selector.Selects steps
  | range steps window => Selector.Selects steps ∧ ∃ s, (Value.text window).durationText = .ok s
  | call f vector => f.IsSupplied ∧ vector.IsSupplied
  | aggregate a vector grouping =>
    a.IsSupplied ∧ Aggregation.IsGrouping grouping ∧ vector.IsSupplied
  | binary _ left right matching group =>
    left.IsSupplied ∧ right.IsSupplied ∧ (group.isSome → matching.isSome)
  | arithmetic _ left right => left.IsSupplied ∧ right.IsSupplied

/-! ### Kinds and places -/

/-- The kind of an expression, as its root shows it. -/
def kind : Expression → VectorKind
  | range _ _ => .range
  | _ => .instant

/-- A place where an operation takes a vector. -/
inductive Place where
  | argument (f : Function) (vector : Expression)
  | aggregated (vector : Expression)
  | operand (vector : Expression)

namespace Place

/-- The kind of vector that the operation wants. -/
def wanted : Place → VectorKind
  | argument f _ => f.source
  | aggregated _ => .instant
  | operand _ => .instant

/-- What stands at the place. -/
def vector : Place → Expression
  | argument _ e => e
  | aggregated e => e
  | operand e => e

/-- What stands at the place is of the kind that the operation wants. -/
def Fits (x : Place) : Prop := x.vector.kind = x.wanted

end Place

/-- All places in an expression. -/
def places : Expression → List Place
  | value _ => []
  | selector _ => []
  | instant _ => []
  | range _ _ => []
  | call f vector => (f.function?.map (Place.argument · vector)).toList ++ vector.places
  | aggregate _ vector _ => .aggregated vector :: vector.places
  | binary _ left right _ _ => .operand left :: .operand right :: (left.places ++ right.places)
  | arithmetic _ left right => .operand left :: .operand right :: (left.places ++ right.places)

/-- A window that fits stands at the place of a vector of a function of ranges. -/
theorem eq_argument_of_fits {x : Place} (h : x.Fits) {steps : List Selector.Step} {window : String}
    (hx : x.vector = .range steps window) :
    ∃ f, x = .argument f (.range steps window) ∧ f.source = .range := by
  rw [Place.Fits, hx] at h
  cases x with
  | argument f e => exact ⟨f, congrArg (Place.argument f) hx, h.symm⟩
  | aggregated e => cases h
  | operand e => cases h

theorem kind_eq_range_iff {e : Expression} :
    e.kind = .range ↔ ∃ steps window, e = .range steps window := by
  constructor
  · intro h
    cases e with
    | range steps window => exact ⟨steps, window, rfl⟩
    | _ => cases h
  · rintro ⟨steps, window, rfl⟩
    rfl

/-! ### Operations on vectors of either kind

An operation that gets what it wants gives an instant vector, and else it raises an error of
type. -/

/-- An operation has the right outcome, where `fits` says whether its vectors are of the kinds that
it wants. -/
def Discerns (fits : Prop) (outcome : Except Error Value) : Prop :=
  (fits → ∃ v, outcome = .ok v ∧ v.vectorKind? = some .instant) ∧
  (¬ fits → ∃ err, outcome = .error err ∧ err.kind = .wrongType)

theorem Discerns.of_fits {fits : Prop} {outcome : Except Error Value} {v : Value} (hfits : fits)
    (houtcome : outcome = .ok v) (hv : v.vectorKind? = some .instant) : Discerns fits outcome :=
  ⟨fun _ => ⟨v, houtcome, hv⟩, fun hnot => absurd hfits hnot⟩

theorem Discerns.of_not_fits {fits : Prop} {outcome : Except Error Value} {err : Error}
    (hfits : ¬ fits) (houtcome : outcome = .error err) (herr : err.kind = .wrongType) :
    Discerns fits outcome :=
  ⟨fun h => absurd h hfits, fun _ => ⟨err, houtcome, herr⟩⟩

theorem discerns_function {f : Function} (hf : f ∈ Function.all) (args : List String) {v : Value}
    {k : VectorKind} (hv : v.vectorKind? = some k) : Discerns (k = f.source) (f.apply v args) := by
  have hresult := (Function.mem_all hf).1
  cases k with
  | instant =>
    obtain ⟨u, rfl⟩ := Value.eq_instant hv
    cases hsource : f.source with
    | instant => exact .of_fits rfl (by rw [Function.apply, hsource, hresult]; rfl) rfl
    | range => exact .of_not_fits (by decide) (by rw [Function.apply, hsource]; rfl) rfl
  | range =>
    obtain ⟨u, rfl⟩ := Value.eq_range hv
    cases hsource : f.source with
    | instant => exact .of_not_fits (by decide) (by rw [Function.apply, hsource]; rfl) rfl
    | range => exact .of_fits rfl (by rw [Function.apply, hsource, hresult]; rfl) rfl

theorem discerns_aggregation (op : String) (parameter : Option String) {grouping : Option Value}
    (hgrouping : Aggregation.IsGrouping grouping) {v : Value} {k : VectorKind}
    (hv : v.vectorKind? = some k) :
    Discerns (k = .instant) (Aggregation.apply op v grouping parameter) := by
  obtain ⟨clause, hclause⟩ := hgrouping.exists_text op
  cases k with
  | instant =>
    obtain ⟨u, rfl⟩ := Value.eq_instant hv
    exact .of_fits rfl (by rw [Aggregation.apply, hclause]; rfl) rfl
  | range =>
    obtain ⟨u, rfl⟩ := Value.eq_range hv
    exact .of_not_fits (by decide) rfl rfl

theorem discerns_binary (op : String) {matching group : Option Clause}
    (hgroup : group.isSome → matching.isSome) {v w : Value} {k l : VectorKind}
    (hv : v.vectorKind? = some k) (hw : w.vectorKind? = some l) :
    Discerns (k = .instant ∧ l = .instant) (Binary.apply op v w matching group) := by
  cases k with
  | range =>
    obtain ⟨u, rfl⟩ := Value.eq_range hv
    exact .of_not_fits (by simp) rfl rfl
  | instant =>
    obtain ⟨u, rfl⟩ := Value.eq_instant hv
    cases l with
    | range =>
      obtain ⟨u', rfl⟩ := Value.eq_range hw
      exact .of_not_fits (by decide) rfl rfl
    | instant =>
      obtain ⟨u', rfl⟩ := Value.eq_instant hw
      have happly : Binary.apply op (.instant u) (.instant u') matching group =
          .ok (.instant { text := Binary.text op u u' matching group, compound := true }) :=
        Binary.apply_eq_ok_iff.2 ⟨u, u', rfl, rfl, hgroup, rfl⟩
      exact .of_fits ⟨rfl, rfl⟩ happly rfl

theorem kind_operandError (op : ArithmeticOp) (v w : Value) :
    (Binary.operandError op v w).kind = .wrongType := by
  unfold Binary.operandError
  split
  case h_4 => split_ifs <;> rfl
  all_goals rfl

theorem discerns_arithmetic (op : ArithmeticOp) {v w : Value} {k l : VectorKind}
    (hv : v.vectorKind? = some k) (hw : w.vectorKind? = some l) :
    Discerns (k = .instant ∧ l = .instant) (Binary.arithmetic op v w) := by
  cases k with
  | range =>
    obtain ⟨u, rfl⟩ := Value.eq_range hv
    exact .of_not_fits (by simp) rfl (kind_operandError op _ _)
  | instant =>
    obtain ⟨u, rfl⟩ := Value.eq_instant hv
    cases l with
    | range =>
      obtain ⟨u', rfl⟩ := Value.eq_range hw
      exact .of_not_fits (by decide) rfl (kind_operandError op _ _)
    | instant =>
      obtain ⟨u', rfl⟩ := Value.eq_instant hw
      have hnone : (none : Option Clause).isSome → (none : Option Clause).isSome := id
      exact discerns_binary op.symbol hnone hv hw

/-! ### Whole expressions -/

/-- An expression has a value of its kind if everything in it fits, and else an error of type. -/
def Settles (e : Expression) : Prop :=
  ((∀ x ∈ e.places, x.Fits) ∧ ∃ v, e.eval = .ok v ∧ v.vectorKind? = some e.kind) ∨
  ((∃ x ∈ e.places, ¬ x.Fits) ∧ ∃ err, e.eval = .error err ∧ err.kind = .wrongType)

/-- An operation on one vector: its operand settles what happens, or the operation does. -/
theorem settles_of_one {e e' : Expression} {x : Place} {run : Value → Except Error Value}
    (heval : e.eval = e'.eval >>= run) (hplaces : e.places = x :: e'.places)
    (hkind : e.kind = .instant) (hvector : x.vector = e')
    (hrun : ∀ v k, v.vectorKind? = some k → Discerns (k = x.wanted) (run v))
    (h : e'.Settles) : e.Settles := by
  rw [Settles, heval, hplaces, hkind]
  rcases h with ⟨hfit, v, hv, hvk⟩ | ⟨⟨y, hy, hmisfit⟩, err, herr, hkind⟩
  · obtain ⟨hok, herror⟩ := hrun v _ hvk
    rw [hv]
    by_cases hx : x.Fits
    · exact .inl ⟨List.forall_mem_cons.2 ⟨hx, hfit⟩, hok (hvector ▸ hx)⟩
    · refine .inr ⟨⟨x, List.mem_cons_self, hx⟩, herror fun heq => hx ?_⟩
      rw [Place.Fits, hvector, heq]
  · rw [herr]
    exact .inr ⟨⟨y, List.mem_cons_of_mem x hy, hmisfit⟩, err, rfl, hkind⟩

/-- An operation on two vectors: the first operand that fails settles what happens, or the operation
does. -/
theorem settles_of_two {e l r : Expression} {run : Value → Value → Except Error Value}
    (heval : e.eval = do run (← l.eval) (← r.eval))
    (hplaces : e.places = .operand l :: .operand r :: (l.places ++ r.places))
    (hkind : e.kind = .instant)
    (hrun : ∀ v w k k', v.vectorKind? = some k → w.vectorKind? = some k' →
      Discerns (k = .instant ∧ k' = .instant) (run v w))
    (hl : l.Settles) (hr : r.Settles) : e.Settles := by
  rw [Settles, heval, hplaces, hkind]
  rcases hl with ⟨hlfit, v, hv, hvk⟩ | ⟨⟨y, hy, hmisfit⟩, err, herr, hkind⟩
  · rw [hv]
    rcases hr with ⟨hrfit, w, hw, hwk⟩ | ⟨⟨y, hy, hmisfit⟩, err, herr, hkind⟩
    · rw [hw]
      obtain ⟨hok, herror⟩ := hrun v w _ _ hvk hwk
      by_cases hfit : l.kind = .instant ∧ r.kind = .instant
      · refine .inl ⟨?_, hok hfit⟩
        simp only [List.forall_mem_cons, List.forall_mem_append]
        exact ⟨hfit.1, hfit.2, hlfit, hrfit⟩
      · refine .inr ⟨?_, herror hfit⟩
        by_cases hleft : l.kind = .instant
        · exact ⟨.operand r, by simp, fun hright => hfit ⟨hleft, hright⟩⟩
        · exact ⟨.operand l, by simp, hleft⟩
    · rw [herr]
      exact .inr ⟨⟨y, by simp [hy], hmisfit⟩, err, rfl, hkind⟩
  · rw [herr]
    exact .inr ⟨⟨y, by simp [hy], hmisfit⟩, err, rfl, hkind⟩

/-- Every expression whose other arguments pass their checks settles. -/
theorem IsSupplied.settles {e : Expression} (he : e.IsSupplied) : e.Settles := by
  induction e with
  | value _ => exact he.elim
  | selector _ => exact he.elim
  | instant steps =>
    obtain ⟨s, hs, hne⟩ := he
    refine .inl ⟨List.forall_mem_nil _, .instant { text := s.text }, ?_, rfl⟩
    rw [eval, hs]
    show (do return Value.instant (← s.instant)) = _
    rw [Selector.instant_of_ne_nil hne]
    rfl
  | range steps window =>
    obtain ⟨⟨s, hs, hne⟩, w, hw⟩ := he
    refine .inl ⟨List.forall_mem_nil _, .range ⟨s.text ++ "[" ++ w ++ "]"⟩, ?_, rfl⟩
    rw [eval, hs]
    show (do return Value.range (← s.range (.text window))) = _
    rw [Selector.range, Selector.nonempty_of_ne_nil hne, hw]
    rfl
  | call f vector ih =>
    obtain ⟨hf, hvector⟩ := he
    obtain ⟨g, args, hg, hall, happly⟩ := hf.apply_eq
    refine settles_of_one (x := .argument g vector) rfl ?_ rfl rfl (fun v k hv => ?_) (ih hvector)
    · rw [places, hg]
      rfl
    · rw [happly]
      exact discerns_function hall args hv
  | aggregate a vector grouping ih =>
    obtain ⟨ha, hgrouping, hvector⟩ := he
    obtain ⟨parameter, happly⟩ := ha.apply_eq
    refine settles_of_one (x := .aggregated vector) rfl rfl rfl rfl (fun v k hv => ?_) (ih hvector)
    rw [happly]
    exact discerns_aggregation a.operator parameter hgrouping hv
  | binary op left right matching group ihl ihr =>
    obtain ⟨hl, hr, hgroup⟩ := he
    exact settles_of_two rfl rfl rfl (fun v w k k' hv hw => discerns_binary op hgroup hv hw)
      (ihl hl) (ihr hr)
  | arithmetic op left right ihl ihr =>
    obtain ⟨hl, hr⟩ := he
    exact settles_of_two rfl rfl rfl (fun v w k k' hv hw => discerns_arithmetic op hv hw)
      (ihl hl) (ihr hr)

end Expression

end MetricQuery
