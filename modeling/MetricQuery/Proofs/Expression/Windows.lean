import MetricQuery.Proofs.Expression.Kinds

/-!
# Where windows stand

An expression that has a value gives every operation vectors of the kinds that it wants. So windows
stand in operands only as vectors of the functions of ranges, and the text shows them there.
-/

namespace MetricQuery

namespace Phrase

def isRange : Phrase → Bool
  | range .. => true
  | _ => false

/-- No windowed selector stands below the root but as the vector of a function of range vectors. -/
def Windowed : Phrase → Prop
  | instant _ => True
  | range _ _ => True
  | call f _ v _ =>
    (v.isRange → ∃ g ∈ Function.all, g.name = f ∧ g.source = .range) ∧ v.Windowed
  | aggregate _ _ _ v => v.isRange = false ∧ v.Windowed
  | binary _ l r _ _ => (l.isRange = false ∧ r.isRange = false) ∧ l.Windowed ∧ r.Windowed

end Phrase

theorem Function.Call.mem_all_of_function? {c : Function.Call} (hc : c.Public) {f : Function}
    (h : c.function? = some f) : f ∈ Function.all := by
  cases c with
  | plain g =>
    obtain rfl := Option.some.inj h
    exact Function.mem_all_of_mem_plain hc
  | raw name args => exact hc.elim
  | _ =>
    obtain rfl := Option.some.inj h
    decide

namespace Expression

theorem isRange_of_outline? {e : Expression} {p : Phrase} (h : e.outline? = some p) :
    p.isRange ↔ e.kind = .range := by
  cases e with
  | value _ | selector _ => cases h
  | instant steps =>
    obtain ⟨ms, -, h⟩ := Option.bind_eq_some_iff.1 h
    obtain rfl := Option.some.inj h
    exact ⟨nofun, nofun⟩
  | range steps window =>
    obtain ⟨ms, -, h⟩ := Option.bind_eq_some_iff.1 h
    obtain ⟨w, -, h⟩ := Option.bind_eq_some_iff.1 h
    obtain rfl := Option.some.inj h
    exact ⟨fun _ => rfl, fun _ => rfl⟩
  | call f vector =>
    obtain ⟨g, literals, q, -, -, rfl⟩ := outline?_call_eq_some h
    exact ⟨nofun, nofun⟩
  | aggregate a vector grouping =>
    obtain ⟨op, clause, parameter, q, -, -, -, rfl⟩ := outline?_aggregate_eq_some h
    exact ⟨nofun, nofun⟩
  | binary op left right matching group =>
    obtain ⟨o, l, r, -, -, -, rfl⟩ := outline?_binary_eq_some h
    exact ⟨nofun, nofun⟩
  | arithmetic op left right =>
    obtain ⟨l, r, -, -, rfl⟩ := outline?_arithmetic_eq_some h
    exact ⟨nofun, nofun⟩

theorem isRange_eq_false {e : Expression} {p : Phrase} (h : e.outline? = some p)
    (hkind : e.kind = .instant) : p.isRange = false := by
  refine Bool.eq_false_iff.2 fun hrange => ?_
  rw [isRange_of_outline? h, hkind] at hrange
  cases hrange

/-- Where everything fits, windows stand in their places. -/
theorem windowed_of_outline? {e : Expression} (he : e.Composed) (hfits : ∀ x ∈ e.places, x.Fits)
    {p : Phrase} (h : e.outline? = some p) : p.Windowed := by
  induction e generalizing p with
  | value _ | selector _ => cases h
  | instant steps =>
    obtain ⟨ms, -, h⟩ := Option.bind_eq_some_iff.1 h
    exact Option.some.inj h ▸ trivial
  | range steps window =>
    obtain ⟨ms, -, h⟩ := Option.bind_eq_some_iff.1 h
    obtain ⟨w, -, h⟩ := Option.bind_eq_some_iff.1 h
    exact Option.some.inj h ▸ trivial
  | call f vector ih =>
    obtain ⟨g, literals, q, hf, hq, rfl⟩ := outline?_call_eq_some h
    have hfunction := (Function.Call.denotes_of_outline? hf).1
    have hall := Function.Call.mem_all_of_function? he.1 hfunction
    rw [places, hfunction] at hfits
    obtain ⟨hfit, hfits⟩ := List.forall_mem_cons.1 hfits
    refine ⟨fun hrange => ⟨g, hall, rfl, ?_⟩, ih he.2 hfits hq⟩
    exact hfit.symm.trans ((isRange_of_outline? hq).1 hrange)
  | aggregate a vector grouping ih =>
    obtain ⟨op, clause, parameter, q, -, -, hq, rfl⟩ := outline?_aggregate_eq_some h
    obtain ⟨hfit, hfits⟩ := List.forall_mem_cons.1 hfits
    exact ⟨isRange_eq_false hq hfit, ih he.2 hfits hq⟩
  | binary op left right matching group ihl ihr =>
    obtain ⟨o, l, r, -, hl, hr, rfl⟩ := outline?_binary_eq_some h
    simp only [places, List.forall_mem_cons, List.forall_mem_append] at hfits
    obtain ⟨hleft, hright, hlfits, hrfits⟩ := hfits
    exact ⟨⟨isRange_eq_false hl hleft, isRange_eq_false hr hright⟩, ihl he.2.1 hlfits hl,
      ihr he.2.2 hrfits hr⟩
  | arithmetic op left right ihl ihr =>
    obtain ⟨l, r, hl, hr, rfl⟩ := outline?_arithmetic_eq_some h
    simp only [places, List.forall_mem_cons, List.forall_mem_append] at hfits
    obtain ⟨hleft, hright, hlfits, hrfits⟩ := hfits
    exact ⟨⟨isRange_eq_false hl hleft, isRange_eq_false hr hright⟩, ihl he.1 hlfits hl,
      ihr he.2 hrfits hr⟩

/-- **The discipline of kinds is exact.** If all arguments but the vectors pass their own checks, an
expression raises an error of type exactly when some operation gets a vector of a kind that it does
not want. Otherwise it gives a vector, which is a range vector only for a selector with a window. In
what is accepted, windows stand in operands only as vectors of the functions of ranges, and so they
do in the text. -/
theorem kind_discipline {e : Expression} (he : e.IsSupplied) :
    ((∃ err, e.eval = .error err ∧ err.kind = .wrongType) ↔ ∃ x ∈ e.places, ¬ x.Fits) ∧
    ((∀ x ∈ e.places, x.Fits) → ∃ v, e.eval = .ok v ∧ v.vectorKind? = some e.kind ∧
      (v.vectorKind? = some .range ↔ ∃ steps window, e = .range steps window)) ∧
    ∀ v, e.eval = .ok v →
      (∀ x ∈ e.places, ∀ steps window, x.vector = .range steps window →
        ∃ f, x = .argument f (.range steps window) ∧ f.source = .range) ∧
      (e.Composed → ∃ p, v.written? = some (String.ofList p.write) ∧ p.Windowed ∧
        (e.Public → Phrase.read (String.ofList p.write) = some p)) := by
  rcases he.settles with ⟨hfits, v, hv, hkind⟩ | ⟨⟨x, hx, hmisfit⟩, err, herr, hkind⟩
  · refine ⟨⟨?_, ?_⟩, fun _ => ⟨v, hv, hkind, ?_⟩, fun v' hv' =>
      ⟨fun x hx => ?_, fun hcomposed => ?_⟩⟩
    · rintro ⟨err, herr, -⟩
      cases hv.symm.trans herr
    · rintro ⟨x, hx, hmisfit⟩
      exact absurd (hfits x hx) hmisfit
    · rw [hkind, Option.some.injEq, kind_eq_range_iff]
    · exact fun steps window hrange => eq_argument_of_fits (hfits x hx) hrange
    · obtain ⟨p, hp, hvector, hproper⟩ := outline?_of_eval hcomposed hv'
      exact ⟨p, hvector.written?, windowed_of_outline? hcomposed hfits hp,
        fun hpublic => Phrase.read_write (hproper hpublic)⟩
  · refine ⟨⟨fun _ => ⟨x, hx, hmisfit⟩, fun _ => ⟨err, herr, hkind⟩⟩, fun hfits => ?_,
      fun v hv => ?_⟩
    · exact absurd (hfits x hx) hmisfit
    · cases hv.symm.trans herr

/-- The sum of a range vector. -/
def rangeSum : Expression := .aggregate (.plain "sum") (.range [.metric "up"] "5m") none

theorem isSupplied_quotient : quotient.IsSupplied := by
  have hgrouping : Aggregation.IsGrouping (some (.clause ⟨.groupBy, ["job", "instance"]⟩)) := by
    rintro v ⟨⟩
    exact ⟨_, rfl, rfl⟩
  refine ⟨⟨trivial, hgrouping, ?_, ⟨_, rfl, List.cons_ne_nil _ _⟩, _,
    durationText_quotient⟩, ⟨⟨?_, ?_⟩, ?_⟩, fun _ => rfl⟩
  · exact (by decide : { name := "rate", source := .range } ∈ Function.all)
  · exact ⟨"-3", rfl⟩
  · exact ⟨_, rfl, List.cons_ne_nil _ _⟩
  · exact ⟨⟨by decide, by decide⟩, _, rfl, List.cons_ne_nil _ _⟩

theorem isSupplied_rangeSum : rangeSum.IsSupplied :=
  ⟨trivial, nofun, ⟨_, rfl, List.cons_ne_nil _ _⟩, "5m",
    toOption_eq_some_iff.1 (by decide +kernel)⟩

/-- A rate takes its window, and a sum refuses one. -/
theorem kind_discipline_quotient :
    (∃ v p, quotient.eval = .ok v ∧ v.vectorKind? = some .instant ∧
      v.written? = some (String.ofList p.write) ∧ p.Windowed ∧
      Phrase.read (String.ofList p.write) = some p) ∧
    ∃ err, rangeSum.eval = .error err ∧ err.kind = .wrongType := by
  obtain ⟨-, -, hwritten⟩ := kind_discipline isSupplied_quotient
  obtain ⟨p, hp, hwindowed, hread⟩ := (hwritten _ eval_quotient).2 public_quotient.composed
  have hmisfit : VectorKind.range ≠ .instant := by decide
  exact ⟨⟨_, p, eval_quotient, rfl, hp, hwindowed, hread public_quotient⟩,
    (kind_discipline isSupplied_rangeSum).1.2 ⟨_, List.mem_cons_self, hmisfit⟩⟩

end Expression
end MetricQuery
