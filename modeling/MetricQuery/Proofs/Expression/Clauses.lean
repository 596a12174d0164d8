import MetricQuery.Proofs.Expression.Context

/-!
# Where clauses stand

The text of an expression is a row of marks: operators, clauses, and what stands between them. An
aggregation refuses every clause that does not group and writes one that does after its operator. A
binary operation writes the clauses that it is given after its operator, whatever their kinds; it
refuses a group clause without a matching clause and nothing else. So the clauses of a text stand in
their places exactly if all binary operations were given clauses of the kinds that belong to them.
-/

namespace MetricQuery

/-! ### Marks -/

/-- A part of a text of the query language. -/
inductive Mark where
  | aggregator (op : String)
  | operator (op : String)
  | clause (c : Clause)
  | other (text : List Char)

namespace Mark

/-- The text of a mark. Operators between operands and clauses have a blank in front. -/
def write : Mark → List Char
  | aggregator op => op.toList
  | operator op => ' ' :: op.toList
  | clause c => ' ' :: c.text.toList
  | other cs => cs

/-- Whether a mark is an operator or a clause. -/
def isSign : Mark → Bool
  | aggregator _ | operator _ | clause _ => true
  | other _ => false

/-- A clause of a kind belongs directly after these marks: one that groups after the operator of an
aggregation, one that matches after a binary operator, and a group clause after those two. -/
def Admits (before : List Mark) (k : ClauseKind) : Prop :=
  (k ∈ [.groupBy, .without] ∧ ∃ op, [aggregator op] <:+ before) ∨
  (k ∈ [.on, .ignoring] ∧ ∃ op, [operator op] <:+ before) ∨
  (k ∈ [.groupLeft, .groupRight] ∧
    ∃ op m, m.kind ∈ [.on, .ignoring] ∧ [operator op, clause m] <:+ before)

/-- Every clause among the marks stands where clauses of its kind belong. -/
def InPlace (marks : List Mark) : Prop :=
  ∀ before c after, marks = before ++ clause c :: after → Admits before c.kind

/-! ### Clauses in rows of marks -/

variable {xs ys : List Mark} {k : ClauseKind}

theorem Admits.append (h : Admits ys k) (xs : List Mark) : Admits (xs ++ ys) k := by
  have hsuffix : ys <:+ xs ++ ys := List.suffix_append xs ys
  rcases h with ⟨hk, op, hop⟩ | ⟨hk, op, hop⟩ | ⟨hk, op, m, hm, hop⟩
  · exact .inl ⟨hk, op, hop.trans hsuffix⟩
  · exact .inr (.inl ⟨hk, op, hop.trans hsuffix⟩)
  · exact .inr (.inr ⟨hk, op, m, hm, hop.trans hsuffix⟩)

/-- What stands before a mark that is no clause does not count. -/
theorem Admits.of_append {y : Mark} (hy : ∀ c, y ≠ clause c) (h : Admits (xs ++ y :: ys) k) :
    Admits (y :: ys) k := by
  have hsuffix : y :: ys <:+ xs ++ y :: ys := List.suffix_append xs (y :: ys)
  have hone {x : Mark} (hx : [x] <:+ xs ++ y :: ys) : [x] <:+ y :: ys :=
    List.suffix_of_suffix_length_le hx hsuffix (Nat.succ_le_succ (Nat.zero_le _))
  rcases h with ⟨hk, op, hop⟩ | ⟨hk, op, hop⟩ | ⟨hk, op, m, hm, hop⟩
  · exact .inl ⟨hk, op, hone hop⟩
  · exact .inr (.inl ⟨hk, op, hone hop⟩)
  · refine .inr (.inr ⟨hk, op, m, hm, ?_⟩)
    cases ys with
    | nil =>
      have hlast : [clause m] <:+ [y] := hone ((List.suffix_cons _ _).trans hop)
      exact absurd (List.singleton_inj.1 (hlast.eq_of_length rfl)).symm (hy m)
    | cons z ys => exact List.suffix_of_suffix_length_le hop hsuffix (by simp)

theorem inPlace_of_notMem (h : ∀ c, clause c ∉ xs) : InPlace xs := by
  rintro before c after rfl
  exact absurd (by simp) (h c)

/-- The marks before and after a mark that is no clause may be looked at apart. -/
theorem inPlace_append_cons_iff {y : Mark} (hy : ∀ c, y ≠ clause c) :
    InPlace (xs ++ y :: ys) ↔ InPlace xs ∧ InPlace (y :: ys) := by
  constructor
  · intro h
    constructor
    · rintro before c after rfl
      exact h before c (after ++ y :: ys) (by simp)
    · intro before c after heq
      cases before with
      | nil => exact absurd (List.cons.inj heq).1 (hy c)
      | cons b before =>
        obtain ⟨rfl, rfl⟩ := List.cons.inj heq
        exact (h (xs ++ y :: before) c after (by simp)).of_append hy
  · rintro ⟨hxs, hys⟩ before c after heq
    rcases List.append_eq_append_iff.1 heq with ⟨zs, rfl, hzs⟩ | ⟨zs, rfl, hzs⟩
    · exact (hys zs c after hzs).append xs
    · cases zs with
      | nil => exact absurd (List.cons.inj hzs).1.symm (hy c)
      | cons z zs =>
        obtain ⟨rfl, -⟩ := List.cons.inj hzs
        exact hxs before c zs rfl

theorem inPlace_append_other_iff {cs : List Char} :
    InPlace (xs ++ other cs :: ys) ↔ InPlace xs ∧ InPlace ys := by
  rw [inPlace_append_cons_iff (y := other cs) (fun _ => nofun), and_congr_right_iff]
  intro _
  constructor
  · intro h before c after heq
    have hadmits := h (other cs :: before) c after (by rw [heq, List.cons_append])
    have hdrop {l : List Mark} (hl : l <:+ other cs :: before) (hne : l ≠ other cs :: before) :
        l <:+ before := (List.suffix_cons_iff.1 hl).resolve_left hne
    rcases hadmits with ⟨hk, op, hop⟩ | ⟨hk, op, hop⟩ | ⟨hk, op, m, hm, hop⟩
    · exact .inl ⟨hk, op, hdrop hop nofun⟩
    · exact .inr (.inl ⟨hk, op, hdrop hop nofun⟩)
    · exact .inr (.inr ⟨hk, op, m, hm, hdrop hop nofun⟩)
  · intro h before c after heq
    cases before with
    | nil => cases heq
    | cons b before =>
      obtain ⟨rfl, rfl⟩ := List.cons.inj heq
      exact (h before c after rfl).append [other cs]

theorem inPlace_nil : InPlace [] := inPlace_of_notMem (by simp)

theorem inPlace_other_cons_iff {cs : List Char} : InPlace (other cs :: ys) ↔ InPlace ys := by
  simpa [inPlace_nil] using @inPlace_append_other_iff [] ys cs

/-- A clause at the end. -/
theorem inPlace_append_clause_iff {c : Clause} :
    InPlace (xs ++ [clause c]) ↔ InPlace xs ∧ Admits xs c.kind := by
  constructor
  · intro h
    constructor
    · rintro before d after rfl
      exact h before d (after ++ [clause c]) (by simp)
    · exact h xs c [] rfl
  · rintro ⟨hxs, hadmits⟩ before d after heq
    rcases List.append_eq_append_iff.1 heq with ⟨zs, rfl, hzs⟩ | ⟨zs, rfl, hzs⟩
    · cases zs with
      | nil =>
        obtain ⟨⟨rfl⟩, -⟩ := List.cons.inj hzs
        rwa [List.append_nil]
      | cons z zs => simp at hzs
    · cases zs with
      | nil =>
        obtain ⟨⟨rfl⟩, -⟩ := List.cons.inj hzs
        rwa [List.append_nil] at hadmits
      | cons z zs =>
        obtain ⟨rfl, -⟩ := List.cons.inj hzs
        exact hxs before d zs rfl

theorem admits_aggregator_iff {op : String} :
    Admits [aggregator op] k ↔ k ∈ [.groupBy, .without] := by
  simp [Admits, List.suffix_cons_iff]

theorem admits_operator_iff {op : String} : Admits [operator op] k ↔ k ∈ [.on, .ignoring] := by
  simp [Admits, List.suffix_cons_iff]

theorem admits_matching_iff {op : String} {m : Clause} : Admits [operator op, clause m] k ↔
    m.kind ∈ [.on, .ignoring] ∧ k ∈ [.groupLeft, .groupRight] := by
  simp [Admits, List.suffix_cons_iff, and_comm]

/-- The clause of an aggregation. -/
theorem inPlace_aggregator_iff {op : String} {grouping : Option Clause} :
    InPlace (aggregator op :: grouping.toList.map clause) ↔
      ∀ c ∈ grouping, c.kind ∈ [.groupBy, .without] := by
  have halone : InPlace [aggregator op] := inPlace_of_notMem (by simp)
  cases grouping with
  | none => simpa using halone
  | some c =>
    show InPlace ([aggregator op] ++ [clause c]) ↔ _
    rw [inPlace_append_clause_iff, admits_aggregator_iff]
    simp [halone]

/-- The clauses of a binary operation. -/
theorem inPlace_operator_iff {op : String} {matching group : Option Clause}
    (h : group.isSome → matching.isSome) :
    InPlace (operator op :: (matching.toList ++ group.toList).map clause) ↔
      (∀ c ∈ matching, c.kind ∈ [.on, .ignoring]) ∧
        ∀ c ∈ group, c.kind ∈ [.groupLeft, .groupRight] := by
  have halone : InPlace [operator op] := inPlace_of_notMem (by simp)
  cases matching with
  | none =>
    cases group with
    | none => simpa using halone
    | some g => cases h rfl
  | some m =>
    have hmatching : InPlace [operator op, clause m] ↔ m.kind ∈ [.on, .ignoring] := by
      show InPlace ([operator op] ++ [clause m]) ↔ _
      rw [inPlace_append_clause_iff, admits_operator_iff]
      simp only [halone, true_and]
    cases group with
    | none => simpa using hmatching
    | some g =>
      show InPlace ([operator op, clause m] ++ [clause g]) ↔ _
      rw [inPlace_append_clause_iff, hmatching, admits_matching_iff]
      simp

theorem filter_isSign_map_clause (cs : List Clause) :
    (cs.map clause).filter isSign = cs.map clause :=
  List.filter_eq_self.2 (by simp [isSign])

end Mark

/-! ### Marks of operations -/

/-- The text of a value, if it is a vector, is that of a row of marks. -/
def Value.Spells (marks : List Mark) (v : Value) : Prop :=
  ∀ s, v.written? = some s → s.toList = marks.flatMap Mark.write

theorem Value.spells_of_eq {v : Value} {s : String} {marks : List Mark} (h : v.written? = some s)
    (hs : s.toList = marks.flatMap Mark.write) : v.Spells marks := by
  intro t ht
  obtain rfl := Option.some.inj (h.symm.trans ht)
  exact hs

theorem Value.written?_of_vectorText {operation : String} {kind : VectorKind} {v : Value}
    {s : String} (h : v.vectorText operation kind = .ok s) : v.written? = some s := by
  cases v with
  | instant u => cases kind <;> cases h; rfl
  | range u => cases kind <;> cases h; rfl
  | _ => cases kind <;> cases h

theorem InstantVector.exists_operand (u : InstantVector) :
    ∃ before after, u.operand.toList = before ++ u.text.toList ++ after := by
  unfold operand
  split
  · exact ⟨"(".toList, ")".toList, by simp⟩
  · exact ⟨[], [], by simp⟩

variable {v w : Value} {marks : List Mark}

/-- A function writes its name and its other arguments around its vector. -/
theorem Function.spells_apply {f : Function} {args : List String} (hv : v.Spells marks)
    (h : f.apply v args = .ok w) :
    ∃ before after, w.Spells (.other before :: (marks ++ [.other after])) := by
  obtain ⟨t, ht, rfl⟩ := map_eq_ok.1 h
  have hwritten (s : String) : (Value.ofText f.result s).written? = some s := by
    cases f.result <;> rfl
  refine ⟨f.name.toList ++ "(".toList ++ ((args.take f.leading).map String.toList).flatMap
    (· ++ ", ".toList), ((args.drop f.leading).map String.toList).flatMap (", ".toList ++ ·) ++
      ")".toList, Value.spells_of_eq (hwritten _) ?_⟩
  simp only [String.toList_append, String.toList_intercalate, List.map_append, List.map_cons,
    Scan.intercalate_append_cons, hv t (Value.written?_of_vectorText ht)]
  simp [Mark.write]

namespace Aggregation

variable {op : String} {grouping : Option Value} {parameter : Option String}

/-- An aggregation writes the clause that groups it directly after its operator. -/
theorem spells_apply (hv : v.Spells marks)
    (h : Aggregation.apply op v grouping parameter = .ok w) :
    ∃ clause before after, groupingClause? grouping = some clause ∧
      (∀ c ∈ clause, c.kind ∈ [.groupBy, .without]) ∧
      w.Spells (.aggregator op :: clause.toList.map .clause ++
        .other before :: (marks ++ [.other after])) := by
  obtain ⟨u, s, rfl, hs, rfl⟩ := apply_eq_ok_iff.1 h
  obtain ⟨clause, hclause, htext, hkinds⟩ := groupingClause?_of_groupingText hs
  have hmarks : (clause.toList.map Mark.clause).flatMap Mark.write = s.toList := by
    rw [htext]
    cases clause <;> simp [writeClause, Mark.write]
  refine ⟨clause, " (".toList ++ (parameter.elim [] fun p => p.toList ++ ", ".toList), ")".toList,
    hclause, fun c hc => (hkinds c hc).1, Value.spells_of_eq rfl ?_⟩
  cases parameter <;> simp [Mark.write, hmarks, ← hv u.text rfl]

theorem Call.isSupplied_of_apply {a : Call} (h : a.apply v grouping = .ok w) : a.IsSupplied := by
  cases a with
  | bottomk k | topk k | quantile k =>
    obtain ⟨s, hs, -⟩ := bind_eq_ok.1 h
    exact ⟨s, hs⟩
  | _ => trivial

end Aggregation

/-- A binary operation writes its clauses directly after its operator. -/
theorem Binary.spells_apply {op : String} {v' : Value} {marks' : List Mark}
    {matching group : Option Clause} (hv : v.Spells marks) (hv' : v'.Spells marks')
    (h : Binary.apply op v v' matching group = .ok w) :
    (group.isSome → matching.isSome) ∧ ∃ before after before' after',
      w.Spells (.other before :: (marks ++ .other after ::
        (.operator op :: (matching.toList ++ group.toList).map .clause ++
          .other before' :: (marks' ++ [.other after'])))) := by
  obtain ⟨u, u', rfl, rfl, hgroup, rfl⟩ := apply_eq_ok_iff.1 h
  obtain ⟨before, after, hoperand⟩ := u.exists_operand
  obtain ⟨before', after', hoperand'⟩ := u'.exists_operand
  refine ⟨hgroup, before, after, ' ' :: before', after', Value.spells_of_eq rfl ?_⟩
  rw [toList_text_eq, hoperand, hoperand', hv u.text rfl, hv' u'.text rfl]
  cases matching <;> cases group <;> simp [Mark.write]

/-! ### Clauses that are refused -/

theorem Aggregation.groupingText_of_notMem {c : Clause} (hc : c.kind ∉ [.groupBy, .without])
    (op : String) :
    groupingText op (some (.clause c)) = .error (.wrongGrouping op (.clause c)) := by
  refine if_neg fun hgrouping => hc ?_
  cases hk : c.kind <;> simp [ClauseKind.isGrouping, hk] at hgrouping ⊢

theorem Aggregation.apply_of_notMem {c : Clause} (hc : c.kind ∉ [.groupBy, .without]) (op : String)
    (u : InstantVector) (parameter : Option String) :
    Aggregation.apply op (.instant u) (some (.clause c)) parameter =
      .error (.wrongGrouping op (.clause c)) := by
  rw [Aggregation.apply, groupingText_of_notMem hc]
  rfl

/-- No aggregation takes a clause that does not group. -/
theorem Aggregation.Call.exists_error_of_notMem {c : Clause} (hc : c.kind ∉ [.groupBy, .without])
    (a : Call) (v : Value) : ∃ err, a.apply v (some (.clause c)) = .error err := by
  cases h : a.apply v (some (.clause c)) with
  | error err => exact ⟨err, rfl⟩
  | ok w =>
    obtain ⟨parameter, happly⟩ := (isSupplied_of_apply h).apply_eq
    rw [happly] at h
    obtain ⟨u, s, -, hs, -⟩ := apply_eq_ok_iff.1 h
    rw [groupingText_of_notMem hc] at hs
    cases hs

/-- A binary operation on instant vectors looks at its clauses only for a group clause without a
matching clause. -/
theorem Binary.apply_instant_eq_error_iff {op : String} {u u' : InstantVector}
    {matching group : Option Clause} {err : Error} :
    Binary.apply op (.instant u) (.instant u') matching group = .error err ↔
      matching = none ∧ ∃ g, group = some g ∧ err = .groupWithoutMatch g.kind := by
  cases matching <;> cases group <;>
    simp [Binary.apply, Value.instantFor, bind, Except.bind, pure, Except.pure, throw,
      throwThe, MonadExceptOf.throw, eq_comm]

/-! ### Operations on vectors whose clauses are known -/

/-- The text of a value, if it is a vector, is that of a row of marks with the given signs, and its
clauses stand in their places exactly under a condition. -/
def Value.Renders (signs : List Mark) (matched : Prop) (v : Value) : Prop :=
  ∃ marks, v.Spells marks ∧ marks.filter Mark.isSign = signs ∧ (Mark.InPlace marks ↔ matched)

namespace Value.Renders
open Mark

variable {signs signs' : List Mark} {matched matched' : Prop} {v' : Value}

/-- What is no operation is one mark. -/
theorem leaf (v : Value) : v.Renders [] True := by
  refine ⟨[.other (v.written?.getD "").toList], fun s hs => by simp [hs, write], rfl, ?_⟩
  rw [inPlace_other_cons_iff, iff_true]
  exact inPlace_nil

theorem call {f : Function.Call} (hv : v.Renders signs matched) (h : f.apply v = .ok w) :
    w.Renders signs matched := by
  obtain ⟨marks, hmarks, hsigns, hplace⟩ := hv
  obtain ⟨err, herr⟩ | ⟨g, args, hg⟩ := f.settled
  · rw [herr] at h
    cases h
  rw [hg] at h
  obtain ⟨before, after, hspells⟩ := Function.spells_apply hmarks h
  refine ⟨_, hspells, ?_, ?_⟩
  · simpa [isSign] using hsigns
  · rw [inPlace_other_cons_iff, inPlace_append_other_iff, hplace]
    exact and_iff_left inPlace_nil

theorem aggregate {a : Aggregation.Call} {grouping : Option Value} (hv : v.Renders signs matched)
    (h : a.apply v grouping = .ok w) :
    w.Renders (.aggregator a.operator :: (groupingClause? grouping).join.toList.map .clause ++
      signs) matched := by
  obtain ⟨marks, hmarks, hsigns, hplace⟩ := hv
  obtain ⟨parameter, happly⟩ := (Aggregation.Call.isSupplied_of_apply h).apply_eq
  rw [happly] at h
  obtain ⟨clause, before, after, hclause, hkinds, hspells⟩ := Aggregation.spells_apply hmarks h
  refine ⟨_, hspells, ?_, ?_⟩
  · simp [List.filter_cons, isSign, filter_isSign_map_clause, hclause, hsigns]
  · rw [inPlace_append_other_iff, inPlace_append_other_iff, inPlace_aggregator_iff, hplace,
      and_iff_right hkinds]
    exact and_iff_left inPlace_nil

theorem binary {op : String} {matching group : Option Clause} (hv : v.Renders signs matched)
    (hv' : v'.Renders signs' matched') (h : Binary.apply op v v' matching group = .ok w) :
    w.Renders (signs ++ (.operator op :: (matching.toList ++ group.toList).map .clause ++ signs'))
      (matched ∧ matched' ∧ (∀ c ∈ matching, c.kind ∈ [.on, .ignoring]) ∧
        ∀ c ∈ group, c.kind ∈ [.groupLeft, .groupRight]) := by
  obtain ⟨marks, hmarks, hsigns, hplace⟩ := hv
  obtain ⟨marks', hmarks', hsigns', hplace'⟩ := hv'
  obtain ⟨hgroup, before, after, before', after', hspells⟩ := Binary.spells_apply hmarks hmarks' h
  refine ⟨_, hspells, ?_, ?_⟩
  · simp [List.filter_cons, isSign, filter_isSign_map_clause, hsigns, hsigns']
  · rw [inPlace_other_cons_iff, inPlace_append_other_iff, inPlace_append_other_iff,
      inPlace_append_other_iff, inPlace_operator_iff hgroup, hplace, hplace',
      and_iff_left inPlace_nil, and_comm (b := matched')]

end Value.Renders

/-! ### Expressions -/

namespace Expression

/-- The operators and the clauses in an expression, in the order in which they are written. -/
def signs : Expression → List Mark
  | value _ => []
  | selector _ => []
  | instant _ => []
  | range _ _ => []
  | call _ vector => vector.signs
  | aggregate a vector grouping =>
    .aggregator a.operator :: (groupingClause? grouping).join.toList.map .clause ++ vector.signs
  | binary op left right matching group =>
    left.signs ++ (.operator op :: (matching.toList ++ group.toList).map .clause ++ right.signs)
  | arithmetic op left right => left.signs ++ .operator op.symbol :: right.signs

/-- All binary operations are given clauses of the kinds that belong to them. -/
def WellMatched : Expression → Prop
  | value _ => True
  | selector _ => True
  | instant _ => True
  | range _ _ => True
  | call _ vector => vector.WellMatched
  | aggregate _ vector _ => vector.WellMatched
  | binary _ left right matching group =>
    left.WellMatched ∧ right.WellMatched ∧ (∀ c ∈ matching, c.kind ∈ [.on, .ignoring]) ∧
      ∀ c ∈ group, c.kind ∈ [.groupLeft, .groupRight]
  | arithmetic _ left right => left.WellMatched ∧ right.WellMatched

/-- The operators and the clauses of an expression are those of its text. -/
theorem renders_of_eval {e : Expression} {v : Value} (hv : e.eval = .ok v) :
    v.Renders e.signs e.WellMatched := by
  induction e generalizing v with
  | value _ | selector _ | instant _ | range _ _ => exact .leaf v
  | call f vector ih =>
    obtain ⟨x, hx, hv⟩ := bind_eq_ok.1 hv
    exact (ih hx).call hv
  | aggregate a vector grouping ih =>
    obtain ⟨x, hx, hv⟩ := bind_eq_ok.1 hv
    exact (ih hx).aggregate hv
  | binary op left right matching group ihl ihr =>
    obtain ⟨x, hx, hv⟩ := bind_eq_ok.1 hv
    obtain ⟨y, hy, hv⟩ := bind_eq_ok.1 hv
    exact (ihl hx).binary (ihr hy) hv
  | arithmetic op left right ihl ihr =>
    obtain ⟨x, hx, hv⟩ := bind_eq_ok.1 hv
    obtain ⟨y, hy, hv⟩ := bind_eq_ok.1 hv
    rw [Binary.arithmetic_eq] at hv
    split at hv
    · simpa [signs, WellMatched] using (ihl hx).binary (ihr hy) hv
    · cases hv

/-- **Aggregations take only clauses that group, and binary operations any clauses.** An aggregation
refuses every other clause. A binary operation on instant vectors refuses a group clause without a
matching clause, and nothing else. In the text of an expression every clause stands directly after
an operator of its own: one that groups after the operator of an aggregation, one that matches,
perhaps with a group clause after it, after a binary operator, exactly if the binary operations were
given clauses of these kinds. -/
theorem clause_discipline (a : Aggregation.Call) (c : Clause) (op : String) (u u' : InstantVector)
    (matching group : Option Clause) (e : Expression) :
    (c.kind ∉ [.groupBy, .without] →
      (∀ v : Value, ∃ err, a.apply v (some (.clause c)) = .error err) ∧
      (a.IsSupplied →
        a.apply (.instant u) (some (.clause c)) = .error (.wrongGrouping a.operator (.clause c)))) ∧
    (∀ err : Error, Binary.apply op (.instant u) (.instant u') matching group = .error err ↔
      matching = none ∧ ∃ g, group = some g ∧ err = .groupWithoutMatch g.kind) ∧
    ∀ (v : Value) (s : String), e.eval = .ok v → v.written? = some s →
      ∃ marks, s.toList = marks.flatMap Mark.write ∧ marks.filter Mark.isSign = e.signs ∧
        (Mark.InPlace marks ↔ e.WellMatched) := by
  refine ⟨fun hc => ⟨a.exists_error_of_notMem hc, fun ha => ?_⟩,
    fun err => Binary.apply_instant_eq_error_iff, fun v s hv hs => ?_⟩
  · obtain ⟨parameter, happly⟩ := ha.apply_eq
    rw [happly, Aggregation.apply_of_notMem hc]
  · obtain ⟨marks, hmarks, hsigns, hplace⟩ := renders_of_eval hv
    exact ⟨marks, hmarks s hs, hsigns, hplace⟩

/-- The clauses of a quotient in their places, a sum that refuses one that matches, and a product
that refuses a group clause alone. -/
theorem clause_discipline_quotient :
    (∃ marks, quotientText.toList = marks.flatMap Mark.write ∧ Mark.InPlace marks ∧
      marks.filter Mark.isSign = [.aggregator "sum", .clause ⟨.groupBy, ["job", "instance"]⟩,
        .operator "/", .clause ⟨.on, ["job"]⟩, .clause ⟨.groupLeft, []⟩, .operator "-"]) ∧
    (Aggregation.Call.plain "sum").apply (.instant { text := "a" })
      (some (.clause ⟨.on, ["job"]⟩)) = .error (.wrongGrouping "sum" (.clause ⟨.on, ["job"]⟩)) ∧
    Binary.apply "*" (.instant { text := "a" }) (.instant { text := "b" }) none
      (some ⟨.groupLeft, []⟩) = .error (.groupWithoutMatch .groupLeft) := by
  obtain ⟨haggregate, hbinary, htext⟩ := clause_discipline (.plain "sum") ⟨.on, ["job"]⟩ "*"
    { text := "a" } { text := "b" } none (some ⟨.groupLeft, []⟩) quotient
  have hmatched : quotient.WellMatched := by
    refine ⟨trivial, ⟨trivial, trivial⟩, ?_, ?_⟩ <;> rintro c ⟨⟩ <;> decide
  obtain ⟨marks, hmarks, hsigns, hplace⟩ := htext _ _ eval_quotient rfl
  exact ⟨⟨marks, hmarks, hplace.2 hmatched, hsigns⟩, (haggregate (by decide)).2 trivial,
    (hbinary _).2 ⟨rfl, _, rfl, rfl⟩⟩

/-- A quotient takes a clause that groups for one that matches, and a product one that matches for a
group clause. -/
theorem binary_takes_other_clauses :
    ClauseKind.groupBy ∉ [.on, .ignoring] ∧
    Binary.apply "/" (.instant { text := "a" }) (.instant { text := "b" })
      (some ⟨.groupBy, ["job"]⟩) none = .ok (.instant ⟨"a / by (job) b", true⟩) ∧
    ClauseKind.ignoring ∉ [.groupLeft, .groupRight] ∧
    Binary.apply "*" (.instant { text := "a" }) (.instant { text := "b" })
      (some ⟨.on, ["job"]⟩) (some ⟨.ignoring, ["pod"]⟩) =
        .ok (.instant ⟨"a * on (job) ignoring (pod) b", true⟩) :=
  ⟨by decide, rfl, by decide, rfl⟩

end Expression
end MetricQuery
