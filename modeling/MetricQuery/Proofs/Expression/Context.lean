import MetricQuery.Proofs.Expression.Kinds

/-!
# Equal vectors in contexts

Two instant vectors are equal when their texts are, but a binary operation also looks at the mark
that says whether the vector needs parentheses. So equal vectors with different marks can be told
apart, and only by a binary operation that has them as its operand: everywhere else they give the
same texts and the same errors. Equal vectors that come from expressions of the language have the
same mark.
-/

namespace MetricQuery

/-! ### Texts with parentheses added -/

/-- The second text is the first with `n` pairs of parentheses added. -/
inductive Parenthesized : Nat → List Char → List Char → Prop
  | refl (cs : List Char) : Parenthesized 0 cs cs
  | around (cs : List Char) : Parenthesized 1 cs ('(' :: (cs ++ [')']))
  | append {m n : Nat} {cs cs' ds ds' : List Char} (hc : Parenthesized m cs cs')
    (hd : Parenthesized n ds ds') : Parenthesized (m + n) (cs ++ ds) (cs' ++ ds')

namespace Parenthesized

variable {n : Nat} {cs ds : List Char}

theorem length_eq (h : Parenthesized n cs ds) : ds.length = cs.length + 2 * n := by
  induction h with
  | refl cs => rfl
  | around cs => simp
  | append _ _ ihc ihd => simp only [List.length_append, ihc, ihd]; omega

theorem eq_of_zero (h : Parenthesized n cs ds) (hn : n = 0) : cs = ds := by
  induction h with
  | refl cs => rfl
  | around cs => cases hn
  | append _ _ ihc ihd => rw [ihc (by omega), ihd (by omega)]

/-- Parentheses show: the texts are equal only if none were added. -/
theorem eq_iff (h : Parenthesized n cs ds) : cs = ds ↔ n = 0 := by
  refine ⟨fun heq => ?_, h.eq_of_zero⟩
  have hlength := h.length_eq
  rw [heq] at hlength
  omega

/-- Parentheses within a longer text. -/
theorem between (before after : List Char) (h : Parenthesized n cs ds) :
    Parenthesized n (before ++ cs ++ after) (before ++ ds ++ after) := by
  simpa using ((Parenthesized.refl before).append h).append (.refl after)

end Parenthesized

/-- What stands between the operands of a binary operation does not depend on them. -/
theorem Binary.toList_text_eq (op : String) (u v : InstantVector) (matching group : Option Clause) :
    (Binary.text op u v matching group).toList = u.operand.toList ++
      ((op :: ((matching.map Clause.text).toList ++ (group.map Clause.text).toList)).flatMap
        (' ' :: ·.toList) ++ [' ']) ++ v.operand.toList := by
  have hblank : " ".toList = [' '] := rfl
  cases matching <;> cases group <;> simp [Binary.text, hblank]

/-! ### Errors that say the same -/

/-- Errors of the same kind that say the same. -/
def Error.Alike (e e' : Error) : Prop := e.kind = e'.kind ∧ e.message = e'.message

namespace Binary

variable {op : ArithmeticOp} {x x' y y' : Value}

theorem operands_alike (h : x.qualifiedName = y.qualifiedName)
    (h' : x'.qualifiedName = y'.qualifiedName) :
    (Error.operands op x x').Alike (.operands op y y') := by
  refine ⟨rfl, ?_⟩
  show _ ++ x.qualifiedName ++ _ ++ x'.qualifiedName ++ _ = _
  rw [h, h']
  rfl

theorem repetition_alike (h : x.qualifiedName = y.qualifiedName) :
    (Error.repetition x).Alike (.repetition y) := by
  refine ⟨rfl, ?_⟩
  show _ ++ x.qualifiedName ++ _ = _
  rw [h]
  rfl

theorem concatenation_alike (h : x'.qualifiedName = y'.qualifiedName) :
    (Error.concatenation x x').Alike (.concatenation x y') := by
  refine ⟨rfl, ?_⟩
  show _ ++ x'.qualifiedName ++ _ ++ _ = _
  rw [h]
  rfl

/-- Only sequences refuse an operator in words of their own. -/
theorem operandError_of_not_isSequence (hx : isSequence x = false) :
    operandError op x x' =
      if op = .mul ∧ isSequence x' = true then .repetition x else .operands op x x' := by
  unfold operandError
  split
  · cases hx
  · cases hx
  · cases hx
  · simp [hx]
  · rename_i hmul _ _ _
    exact (if_neg fun h => hmul h.1).symm

/-- An arithmetic operator is a binary operation between two instant vectors and is refused
otherwise. -/
theorem arithmetic_eq (op : ArithmeticOp) (x x' : Value) :
    arithmetic op x x' =
      if x.vectorKind? = some .instant ∧ x'.vectorKind? = some .instant then
        apply op.symbol x x' none none
      else .error (operandError op x x') := by
  unfold arithmetic
  split
  · rfl
  · rename_i hother
    rw [if_neg]
    rintro ⟨hx, hx'⟩
    obtain ⟨u, rfl⟩ := Value.eq_instant hx
    obtain ⟨u', rfl⟩ := Value.eq_instant hx'
    exact hother u u' rfl rfl

end Binary

/-! ### Corresponding outcomes -/

/-- Both computations succeed, with results that `R` relates, or both raise errors that say the
same. -/
inductive Corresponds {α : Type} (R : α → α → Prop) : Except Error α → Except Error α → Prop
  | ok {a b : α} (h : R a b) : Corresponds R (.ok a) (.ok b)
  | error {e e' : Error} (h : e.Alike e') : Corresponds R (.error e) (.error e')

namespace Corresponds

variable {α β : Type} {R : α → α → Prop} {S : β → β → Prop}

theorem refl (hR : ∀ a, R a a) (x : Except Error α) : Corresponds R x x := by
  cases x with
  | error e => exact .error ⟨rfl, rfl⟩
  | ok a => exact .ok (hR a)

theorem bind {x y : Except Error α} {f g : α → Except Error β} (h : Corresponds R x y)
    (hfg : ∀ a b, R a b → Corresponds S (f a) (g b)) : Corresponds S (x >>= f) (y >>= g) := by
  cases h with
  | ok h => exact hfg _ _ h
  | error h => exact .error h

theorem map {x y : Except Error α} {f g : α → β} (h : Corresponds R x y)
    (hfg : ∀ a b, R a b → S (f a) (g b)) : Corresponds S (x.map f) (y.map g) := by
  cases h with
  | ok h => exact .ok (hfg _ _ h)
  | error h => exact .error h

/-- Computations that begin in the same way. -/
theorem after (x : Except Error α) {f g : α → Except Error β}
    (hfg : ∀ a, Corresponds S (f a) (g a)) : Corresponds S (x >>= f) (x >>= g) :=
  (refl (R := Eq) (fun _ => rfl) x).bind fun a _ hab => hab ▸ hfg a

theorem symm {x y : Except Error α} (h : Corresponds R x y) :
    Corresponds (fun a b => R b a) y x := by
  cases h with
  | ok h => exact .ok h
  | error h => exact .error ⟨h.1.symm, h.2.symm⟩

theorem mono {S : α → α → Prop} {x y : Except Error α} (h : Corresponds R x y)
    (hRS : ∀ a b, R a b → S a b) : Corresponds S x y := by
  cases h with
  | ok h => exact .ok (hRS _ _ h)
  | error h => exact .error h

end Corresponds

/-! ### Values with parentheses added -/

/-- The second vector is the first with `m` pairs of parentheses added to its text as an operand and
`n` pairs added to its text. -/
structure InstantVector.Gains (m n : Nat) (u v : InstantVector) : Prop where
  operand : Parenthesized m u.operand.toList v.operand.toList
  text : Parenthesized n u.text.toList v.text.toList

theorem InstantVector.Gains.refl (u : InstantVector) : u.Gains 0 0 u := ⟨.refl _, .refl _⟩

/-- A vector that is not compound is its own text as an operand. -/
theorem InstantVector.Gains.plain {n : Nat} {s t : String}
    (h : Parenthesized n s.toList t.toList) : InstantVector.Gains n n { text := s } { text := t } :=
  ⟨h, h⟩

theorem InstantVector.Gains.compound {n : Nat} {s t : String}
    (h : Parenthesized n s.toList t.toList) : InstantVector.Gains n n ⟨s, true⟩ ⟨t, true⟩ := by
  refine ⟨?_, h⟩
  simpa [InstantVector.operand] using h.between "(".toList ")".toList

/-- A value is another one with parentheses added, as an operand and in itself. -/
inductive Value.Gains : Nat → Nat → Value → Value → Prop
  | refl (x : Value) : Gains 0 0 x x
  | instant {m n : Nat} {u v : InstantVector} (h : u.Gains m n v) :
    Gains m n (.instant u) (.instant v)
  | range {n : Nat} {s t : String} (h : Parenthesized n s.toList t.toList) :
    Gains n n (.range ⟨s⟩) (.range ⟨t⟩)

/-- Values that are the same or equal parts of queries. -/
def Value.Same (x y : Value) : Prop := x = y ∨ x.samePart y

theorem InstantVector.same_iff {u v : InstantVector} : u.same v ↔ u.text = v.text := by
  simp [same]

theorem InstantVector.eq_of_same {u v : InstantVector} (h : u.same v)
    (hmark : u.compound = v.compound) : u = v := by
  obtain ⟨s, b⟩ := u
  obtain rfl : b = v.compound := hmark
  obtain rfl : s = v.text := same_iff.1 h
  rfl

theorem Value.same_instant {u v : InstantVector} :
    (Value.instant u).Same (.instant v) ↔ u.text = v.text := by
  simp only [Same, instant.injEq, samePart, InstantVector.same_iff]
  exact ⟨Or.rec (congrArg _) id, .inr⟩

theorem Value.same_range {s t : String} : (Value.range ⟨s⟩).Same (.range ⟨t⟩) ↔ s = t := by
  simp [Same, samePart]

namespace Value.Gains

variable {m n : Nat} {x y : Value}

theorem same_iff (h : Gains m n x y) : x.Same y ↔ n = 0 := by
  cases h with
  | refl x => simp [Same]
  | instant h => rw [same_instant, ← h.text.eq_iff, String.toList_inj]
  | range h => rw [same_range, ← h.eq_iff, String.toList_inj]

theorem same_comm (h : Gains m n x y) : x.Same y ↔ y.Same x := by
  cases h with
  | refl x => rfl
  | instant h => rw [same_instant, same_instant, eq_comm]
  | range h => rw [same_range, same_range, eq_comm]

theorem vectorKind?_eq (h : Gains m n x y) : x.vectorKind? = y.vectorKind? := by
  cases h <;> rfl

theorem qualifiedName_eq (h : Gains m n x y) : x.qualifiedName = y.qualifiedName := by
  cases h <;> rfl

theorem isSequence_eq (h : Gains m n x y) : Binary.isSequence x = Binary.isSequence y := by
  cases h <;> rfl

theorem vectorText (h : Gains m n x y) (operation : String) (kind : VectorKind) :
    Corresponds (fun s t => Parenthesized n s.toList t.toList) (x.vectorText operation kind)
      (y.vectorText operation kind) := by
  cases h with
  | refl x => exact .refl (fun s => .refl _) _
  | instant h =>
    cases kind with
    | instant => exact .ok h.text
    | range => exact .error ⟨rfl, rfl⟩
  | range h =>
    cases kind with
    | instant => exact .error ⟨rfl, rfl⟩
    | range => exact .ok h

theorem instantFor (h : Gains m n x y) (operation : String) :
    Corresponds (InstantVector.Gains m n) (x.instantFor operation) (y.instantFor operation) := by
  cases h with
  | refl x => exact .refl InstantVector.Gains.refl _
  | instant h => exact .ok h
  | range h => exact .error ⟨rfl, rfl⟩

/-! ### Operations -/

theorem function (h : Gains m n x y) (f : Function) (args : List String) :
    Corresponds (Gains n n) (f.apply x args) (f.apply y args) := by
  refine (h.vectorText f.name f.source).map fun s t hst => ?_
  have htext : Parenthesized n
      (f.name ++ "(" ++ ", ".intercalate (args.take f.leading ++ s :: args.drop f.leading) ++
        ")").toList
      (f.name ++ "(" ++ ", ".intercalate (args.take f.leading ++ t :: args.drop f.leading) ++
        ")").toList := by
    simp only [String.toList_append, String.toList_intercalate, List.map_append, List.map_cons,
      Scan.intercalate_append_cons]
    exact (hst.between _ _).between _ _
  cases f.result with
  | instant => exact .instant (.plain htext)
  | range => exact .range htext

theorem call (h : Gains m n x y) (f : Function.Call) :
    Corresponds (Gains n n) (f.apply x) (f.apply y) := by
  obtain ⟨err, herr⟩ | ⟨g, args, hg⟩ := f.settled
  · rw [herr, herr]
    exact .error ⟨rfl, rfl⟩
  · rw [hg, hg]
    exact h.function g args

theorem aggregation (h : Gains m n x y) (op : String) (grouping : Option Value)
    (parameter : Option String) :
    Corresponds (Gains n n) (Aggregation.apply op x grouping parameter)
      (Aggregation.apply op y grouping parameter) := by
  refine (h.instantFor op).bind fun u v huv => .after _ fun clause => .ok (.instant (.plain ?_))
  cases parameter with
  | none =>
    simp only [String.toList_append]
    exact huv.text.between _ _
  | some p =>
    simp only [String.toList_append]
    simpa using huv.text.between (op.toList ++ clause.toList ++ " (".toList ++ p.toList ++
      ", ".toList) ")".toList

theorem aggregate (h : Gains m n x y) (a : Aggregation.Call) (grouping : Option Value) :
    Corresponds (Gains n n) (a.apply x grouping) (a.apply y grouping) := by
  cases a with
  | plain op => exact h.aggregation op grouping none
  | countValues label => exact h.aggregation "count_values" grouping (some (quote label))
  | bottomk k | topk k | quantile k => exact .after _ fun s => h.aggregation _ grouping (some s)
  | raw op parameter => exact h.aggregation op grouping parameter

variable {m' n' : Nat} {x' y' : Value}

/-- A binary operation writes its vectors as operands. -/
theorem binary (h : Gains m n x y) (h' : Gains m' n' x' y') (op : String)
    (matching group : Option Clause) :
    Corresponds (Gains (m + m') (m + m')) (Binary.apply op x x' matching group)
      (Binary.apply op y y' matching group) := by
  refine (h.instantFor op).bind fun u v huv => (h'.instantFor op).bind fun u' v' huv' => ?_
  have htext : Parenthesized (m + m') (Binary.text op u u' matching group).toList
      (Binary.text op v v' matching group).toList := by
    rw [Binary.toList_text_eq, Binary.toList_text_eq]
    exact (huv.operand.append (.refl _)).append huv'.operand
  cases group with
  | none => exact .ok (.instant (.compound htext))
  | some g =>
    cases matching with
    | none => exact .error ⟨rfl, rfl⟩
    | some c => exact .ok (.instant (.compound htext))

/-- The errors about operands name the kinds of the values and show no more of them. -/
theorem operandError (h : Gains m n x y) (h' : Gains m' n' x' y') (op : ArithmeticOp) :
    (Binary.operandError op x x').Alike (Binary.operandError op y y') := by
  -- Vectors are no sequences, and anything else is the same value on both sides.
  have other (hx : Binary.isSequence x = false) (hy : Binary.isSequence y = false) :
      (Binary.operandError op x x').Alike (Binary.operandError op y y') := by
    rw [Binary.operandError_of_not_isSequence hx, Binary.operandError_of_not_isSequence hy,
      h'.isSequence_eq]
    split
    · exact Binary.repetition_alike h.qualifiedName_eq
    · exact Binary.operands_alike h.qualifiedName_eq h'.qualifiedName_eq
  cases h with
  | refl x =>
    unfold Binary.operandError
    split
    · exact Binary.concatenation_alike h'.qualifiedName_eq
    · exact Binary.concatenation_alike h'.qualifiedName_eq
    · exact ⟨rfl, rfl⟩
    · rw [h'.isSequence_eq]
      split_ifs
      · exact Binary.repetition_alike h'.qualifiedName_eq
      · exact ⟨rfl, rfl⟩
      · exact Binary.operands_alike rfl h'.qualifiedName_eq
    · exact Binary.operands_alike rfl h'.qualifiedName_eq
  | instant h => exact other rfl rfl
  | range h => exact other rfl rfl

theorem arithmetic (h : Gains m n x y) (h' : Gains m' n' x' y') (op : ArithmeticOp) :
    Corresponds (Gains (m + m') (m + m')) (Binary.arithmetic op x x')
      (Binary.arithmetic op y y') := by
  rw [Binary.arithmetic_eq, Binary.arithmetic_eq, h.vectorKind?_eq, h'.vectorKind?_eq]
  split
  · exact h.binary h' op.symbol none none
  · exact .error (h.operandError h' op)

end Value.Gains

/-! ### Contexts -/

namespace Expression

/-- An expression with holes for a vector. -/
inductive Context where
  | hole
  | fixed (e : Expression)
  | call (f : Function.Call) (vector : Context)
  | aggregate (a : Aggregation.Call) (vector : Context) (grouping : Option Value)
  | binary (op : String) (left right : Context) (matching group : Option Clause)
  | arithmetic (op : ArithmeticOp) (left right : Context)

namespace Context

/-- The expression with a vector in all holes. -/
def fill (u : InstantVector) : Context → Expression
  | hole => .value (.instant u)
  | fixed e => e
  | call f vector => .call f (vector.fill u)
  | aggregate a vector grouping => .aggregate a (vector.fill u) grouping
  | binary op left right matching group => .binary op (left.fill u) (right.fill u) matching group
  | arithmetic op left right => .arithmetic op (left.fill u) (right.fill u)

def isHole : Context → Bool
  | hole => true
  | _ => false

/-- The number of holes that are operands of binary operations. Those in vectors of functions and
aggregations do not count, unless a binary operation is below. -/
def exposed : Context → Nat
  | hole => 0
  | fixed _ => 0
  | call _ vector => vector.exposed
  | aggregate _ vector _ => vector.exposed
  | binary _ left right _ _ =>
    left.isHole.toNat + left.exposed + (right.isHole.toNat + right.exposed)
  | arithmetic _ left right =>
    left.isHole.toNat + left.exposed + (right.isHole.toNat + right.exposed)

theorem toNat_add_exposed {c : Context} (hc : c.isHole = false) :
    c.isHole.toNat + c.exposed = c.exposed := by
  rw [hc]
  exact Nat.zero_add _

/-- A compound vector in place of one that is not gets a pair of parentheses for each exposed
hole. -/
theorem gains {u v : InstantVector} (htext : u.text = v.text) (hu : u.compound = false)
    (hv : v.compound = true) (c : Context) :
    Corresponds (Value.Gains (c.isHole.toNat + c.exposed) c.exposed) (c.fill u).eval
      (c.fill v).eval := by
  induction c with
  -- A hole alone gains more as an operand than in its text: what an operation gives has the same
  -- mark either way.
  | hole =>
    refine .ok (.instant ⟨?_, ?_⟩)
    · have haround := Parenthesized.around v.text.toList
      simpa [InstantVector.operand, hu, hv, htext, isHole, exposed] using haround
    · rw [htext]
      exact .refl _
  | fixed e => exact .refl Value.Gains.refl _
  | call f vector ih =>
    rw [toNat_add_exposed rfl]
    exact ih.bind fun x y h => h.call f
  | aggregate a vector grouping ih =>
    rw [toNat_add_exposed rfl]
    exact ih.bind fun x y h => h.aggregate a grouping
  | binary op left right matching group ihl ihr =>
    rw [toNat_add_exposed rfl]
    exact ihl.bind fun x y h => ihr.bind fun x' y' h' => h.binary h' op matching group
  | arithmetic op left right ihl ihr =>
    rw [toNat_add_exposed rfl]
    exact ihl.bind fun x y h => ihr.bind fun x' y' h' => h.arithmetic h' op

end Context

/-! ### Equal vectors -/

/-- Expressions of the language mark equal vectors in the same way. -/
theorem compound_eq_of_same {u v : InstantVector} (h : u.same v) {e e' : Expression}
    (he : e.Public) (he' : e'.Public) (hu : e.eval = .ok (.instant u))
    (hv : e'.eval = .ok (.instant v)) : u.compound = v.compound := by
  obtain ⟨p, -, ⟨hup, hucompound⟩, hp⟩ := outline?_of_eval he.composed hu
  obtain ⟨q, -, ⟨hvq, hvcompound⟩, hq⟩ := outline?_of_eval he'.composed hv
  have hwrite : p.write = q.write := by rw [← hup, ← hvq, InstantVector.same_iff.1 h]
  have hpq : some p = some q := by
    rw [← Phrase.read_write (hp he), ← Phrase.read_write (hq he'), hwrite]
  rw [hucompound, hvcompound, Option.some.inj hpq]

namespace Context

/-- The results are the same exactly where no hole lets the marks of the vectors show. -/
theorem corresponds_fill {u v : InstantVector} (h : u.same v) (c : Context) :
    Corresponds (fun x y => x.Same y ↔ u.compound = v.compound ∨ c.exposed = 0) (c.fill u).eval
      (c.fill v).eval := by
  have htext := InstantVector.same_iff.1 h
  by_cases hmark : u.compound = v.compound
  · obtain rfl := InstantVector.eq_of_same h hmark
    exact .refl (fun x => by simp [Value.Same]) _
  cases hv : v.compound with
  | true =>
    have hu : u.compound = false := by simpa [hv] using hmark
    exact (gains htext hu hv c).mono fun x y hxy => hxy.same_iff.trans (by simp [hu])
  | false =>
    have hu : u.compound = true := by simpa [hv] using hmark
    exact (gains htext.symm hv hu c).symm.mono fun x y hxy =>
      hxy.same_comm.symm.trans (hxy.same_iff.trans (by simp [hu]))

/-- **Equal vectors differ only where they need parentheses.** Whatever a vector stands in, an equal
one in its place raises an error that says the same, or none if the vector raises none. The results
are the same exactly if the two have the same mark or neither is an operand of a binary operation.
Equal vectors of the language are one vector. -/
theorem eval_fill_of_same {u v : InstantVector} (h : u.same v) :
    (∀ c : Context,
      Corresponds (fun x y => x.Same y ↔ u.compound = v.compound ∨ c.exposed = 0) (c.fill u).eval
        (c.fill v).eval) ∧
    ∀ e e' : Expression, e.Public → e'.Public → e.eval = .ok (.instant u) →
      e'.eval = .ok (.instant v) → u = v :=
  ⟨corresponds_fill h, fun _ _ he he' hu hv =>
    InstantVector.eq_of_same h (compound_eq_of_same h he he' hu hv)⟩

/-- A sum of two selectors. -/
def total : Expression :=
  .arithmetic .add (.instant [.metric "a"]) (.instant [.metric "b"])

def totalText : String := "\x7b__name__=\x22a\x22\x7d + \x7b__name__=\x22b\x22\x7d"

theorem public_total : total.Public :=
  ⟨(by decide : ∀ s ∈ [Selector.Step.metric "a"], s.Public),
    (by decide : ∀ s ∈ [Selector.Step.metric "b"], s.Public)⟩

/-- The text of the sum, written as a vector of its own, is not told apart in a function, and no
expression of the language gives it. -/
theorem eval_fill_total :
    total.Public ∧ total.eval = .ok (.instant ⟨totalText, true⟩) ∧
      InstantVector.same ⟨totalText, true⟩ ⟨totalText, false⟩ ∧
      Corresponds Value.Same ((call (.round none) hole).fill ⟨totalText, true⟩).eval
        ((call (.round none) hole).fill ⟨totalText, false⟩).eval ∧
      ∀ e : Expression, e.Public → e.eval ≠ .ok (.instant ⟨totalText, false⟩) := by
  have hsame : InstantVector.same ⟨totalText, true⟩ ⟨totalText, false⟩ := by decide
  have htotal : total.eval = .ok (.instant ⟨totalText, true⟩) := rfl
  obtain ⟨hfill, hpublic⟩ := eval_fill_of_same hsame
  have hround := (hfill (call (.round none) hole)).mono fun x y h => h.2 (.inr rfl)
  refine ⟨public_total, htotal, hsame, hround, fun e he hv => ?_⟩
  cases hpublic total e public_total he htotal hv

/-- A vector times another one. -/
def product : Context := arithmetic .mul hole (fixed (.value (.instant { text := "c" })))

/-- In a product the sum keeps its parentheses, and an equal vector that is no sum has none. -/
theorem not_same_product :
    (Expression.arithmetic .add (.value (.instant { text := "a" }))
        (.value (.instant { text := "b" }))).eval = .ok (.instant ⟨"a + b", true⟩) ∧
      InstantVector.same ⟨"a + b", true⟩ { text := "a + b" } ∧
      (product.fill ⟨"a + b", true⟩).eval = .ok (.instant ⟨"(a + b) * c", true⟩) ∧
      (product.fill { text := "a + b" }).eval = .ok (.instant ⟨"a + b * c", true⟩) ∧
      ¬ Corresponds Value.Same (product.fill ⟨"a + b", true⟩).eval
        (product.fill { text := "a + b" }).eval := by
  have hsum : (product.fill ⟨"a + b", true⟩).eval = .ok (.instant ⟨"(a + b) * c", true⟩) := rfl
  have hplain : (product.fill { text := "a + b" }).eval = .ok (.instant ⟨"a + b * c", true⟩) :=
    rfl
  refine ⟨rfl, by decide, hsum, hplain, fun h => ?_⟩
  rw [hsum, hplain] at h
  cases h with
  | ok h => exact absurd (Value.same_instant.1 h) (by decide)

end Context
end Expression
end MetricQuery
