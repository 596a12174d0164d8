import MetricQuery.Proofs.Phrase.Tokens

/-!
# Phrases are read back

The text of a phrase with sound names and literals is read as that phrase. The induction is on the
phrase: an operand is read whatever follows it, except for a window after an instant selector; a
whole phrase is read before the end of the text, a comma or a closing parenthesis.
-/

namespace MetricQuery
open Scan

/-- The names of functions and aggregations: a small letter, then letters, digits and underscores,
and not the word of a clause. -/
def isOperationName (s : String) : Bool :=
  match s.toList with
  | [] => false
  | c :: cs => c.isLower && cs.all isWordChar && ClauseKind.all.all (·.keyword != s)

namespace Phrase

/-- What the names and literals in a phrase have to look like for its reader. -/
def Proper : Phrase → Prop
  | instant ms => ∀ m ∈ ms, isIdentifier m.name
  | range ms window => (∀ m ∈ ms, isIdentifier m.name) ∧ ∀ c ∈ window.toList, c ≠ ']'
  | call f before v after => isOperationName f ∧ (∀ l ∈ before ++ after, l.Proper) ∧ v.Proper
  | aggregate op clause parameter v =>
    isOperationName op ∧ (∀ c ∈ clause, c.Proper [.groupBy, .without]) ∧
      (∀ l ∈ parameter, l.Proper) ∧ v.Proper
  | binary _ l r matching group =>
    l.Proper ∧ r.Proper ∧ (∀ c ∈ matching, c.Proper [.on, .ignoring]) ∧
      ∀ c ∈ group, c.Proper [.groupLeft, .groupRight]

/-- What may follow an operand. -/
def FollowsOperand (rest : List Char) : Prop := ∀ c ∈ rest.head?, c = ' ' ∨ c = ',' ∨ c = ')'

/-- What may follow a whole phrase. -/
def FollowsPhrase (rest : List Char) : Prop := ∀ c ∈ rest.head?, c = ',' ∨ c = ')'

theorem FollowsPhrase.operand {rest : List Char} (h : FollowsPhrase rest) : FollowsOperand rest :=
  fun c hc => .inr (h c hc)

/-! ### Names of operations -/

theorem isOperationName_cases {s : String} (h : isOperationName s) :
    (∃ c cs, s.toList = c :: cs ∧ c.isLower ∧ ∀ d ∈ cs, isWordChar d) ∧
      ∀ k : ClauseKind, k.keyword ≠ s := by
  unfold isOperationName at h
  split at h
  · cases h
  · rename_i c cs hs
    simp only [Bool.and_eq_true, List.all_eq_true, bne_iff_ne] at h
    exact ⟨⟨c, cs, hs, h.1.1, h.1.2⟩, fun k => h.2 k (by cases k <;> decide)⟩

theorem isIdentifier_of_isOperationName {s : String} (h : isOperationName s) : isIdentifier s := by
  obtain ⟨⟨c, cs, hs, hc, hcs⟩, -⟩ := isOperationName_cases h
  have hletter : c.isAlpha = true := by
    show (c.isUpper || c.isLower) = true
    rw [hc, Bool.or_true]
  simp [isIdentifier, hs, hletter, List.all_eq_true.2 hcs]

theorem startsNumeral_of_isLower {c : Char} (h : c.isLower) :
    c ≠ '\x22' ∧ startsNumeral c = false := by
  refine ⟨by rintro rfl; exact absurd h (by decide), ?_⟩
  by_contra hc
  simp only [startsNumeral, Bool.not_eq_false, Bool.or_eq_true, beq_iff_eq] at hc
  rcases hc with ((hc | rfl) | rfl) | rfl
  · have h : (decide (c.val ≥ 'a'.val) && decide (c.val ≤ 'z'.val)) = true := h
    simp only [Char.isDigit, Bool.and_eq_true, decide_eq_true_eq, ge_iff_le,
      UInt32.le_iff_toNat_le] at h hc
    have hlow : 'a'.val.toNat = 97 := rfl
    have hdigit : '9'.val.toNat = 57 := rfl
    omega
  · exact absurd h (by decide)
  · exact absurd h (by decide)
  · exact absurd h (by decide)

theorem toList_braces (ms : List Matcher) :
    (Matcher.braces ms).toList =
      '\x7b' :: ([','].intercalate (ms.map fun m => m.text.toList) ++ ['\x7d']) := by
  have hopen : "\x7b".toList = ['\x7b'] := rfl
  have hcomma : ",".toList = [','] := rfl
  have hclose : "\x7d".toList = ['\x7d'] := rfl
  simp [Matcher.braces, hopen, hcomma, hclose, Function.comp_def]

/-- An operand begins with an opening bracket or with the name of an operation. -/
theorem enclose_write_cases {p : Phrase} (h : p.Proper) :
    (∃ c cs, p.enclose p.write = c :: cs ∧ (c = '(' ∨ c = '\x7b')) ∨
      ∃ name c cs, p.enclose p.write = name.toList ++ c :: cs ∧ isOperationName name ∧
        isWordChar c = false := by
  cases p with
  | instant ms => exact .inl ⟨'\x7b', _, toList_braces ms, .inr rfl⟩
  | range ms window =>
    exact .inl ⟨'\x7b', _, congrArg (· ++ _) (toList_braces ms), .inr rfl⟩
  | call f before v after => exact .inr ⟨f, '(', _, rfl, h.1, rfl⟩
  | aggregate op clause parameter v =>
    cases clause with
    | none => exact .inr ⟨op, ' ', _, List.append_assoc .., h.1, rfl⟩
    | some c => exact .inr ⟨op, ' ', _, List.append_assoc .., h.1, rfl⟩
  | binary op l r matching group => exact .inl ⟨'(', _, rfl, .inl rfl⟩

theorem readLiteral?_enclose {p : Phrase} (h : p.Proper) (rest : List Char) :
    readLiteral? (p.enclose p.write ++ rest) = none := by
  rcases enclose_write_cases h with ⟨c, cs, hcs, rfl | rfl⟩ | ⟨name, d, ds, htext, hname, -⟩
  · rw [hcs]; rfl
  · rw [hcs]; rfl
  · obtain ⟨⟨c, cs, hs, hc, -⟩, -⟩ := isOperationName_cases hname
    obtain ⟨hq, hnum⟩ := startsNumeral_of_isLower hc
    rw [htext, hs]
    exact readLiteral?_eq_none hq hnum

/-- No literal stands where a phrase begins. -/
theorem readLiteral?_write {p : Phrase} (h : p.Proper) (rest : List Char) :
    readLiteral? (p.write ++ rest) = none := by
  by_cases hp : p.isBinary
  · cases p with
    | binary op l r matching group =>
      rw [write, List.append_assoc]
      exact readLiteral?_enclose h.1 _
    | _ => cases hp
  · have := readLiteral?_enclose h rest
    rwa [enclose, if_neg hp] at this

/-- No clause stands where an operand begins. -/
theorem readClause?_enclose {p : Phrase} (h : p.Proper) (kinds : List ClauseKind)
    (rest : List Char) : readClause? kinds (' ' :: (p.enclose p.write ++ rest)) = none := by
  apply readClause?_blank
  rcases enclose_write_cases h with ⟨c, cs, hcs, rfl | rfl⟩ | ⟨name, d, ds, htext, hname, hd⟩
  · exact .inl (hcs ▸ word?_of_stops (stops_of_head rfl _))
  · exact .inl (hcs ▸ word?_of_stops (stops_of_head rfl _))
  · refine .inr ⟨name, d :: ds ++ rest, ?_, (isOperationName_cases hname).2⟩
    rw [htext, List.append_assoc]
    exact word?_identifier (isIdentifier_of_isOperationName hname) (stops_of_head hd _)

/-! ### Operands -/

/-- A reader reads `p` before everything that may follow a whole phrase. -/
def ReadBy (reader : List Char → Option (Phrase × List Char)) (p : Phrase) : Prop :=
  ∀ rest, FollowsPhrase rest → reader (p.write ++ rest) = some (p, rest)

/-- `p` is read as an operand before everything that may follow an operand, when `inner` reads what
is nested in it. -/
def OperandBy (inner : List Char → Option (Phrase × List Char)) (p : Phrase) : Prop :=
  ∀ rest, FollowsOperand rest → readOperand? inner (p.write ++ rest) = some (p, rest)

variable {inner : List Char → Option (Phrase × List Char)}

theorem listed_readMatcher? {ms : List Matcher} (h : ∀ m ∈ ms, isIdentifier m.name)
    (rest : List Char) :
    listed readMatcher? ([','].intercalate (ms.map fun m => m.text.toList) ++ '\x7d' :: rest) =
      (ms, '\x7d' :: rest) := by
  have hnone : readMatcher? ('\x7d' :: rest) = none := by
    rw [readMatcher?, word?_of_stops (stops_of_head rfl rest)]
    rfl
  exact listed_intercalate readMatcher? (fun m => m.text.toList) (fun _ => True)
    (fun m hm cs _ => readMatcher?_append (h m hm) cs) (fun _ => trivial) trivial hnone rfl

theorem operandBy_instant {ms : List Matcher} (h : (instant ms).Proper) :
    OperandBy inner (instant ms) := by
  intro rest hrest
  have htext : (instant ms).write ++ rest =
      '\x7b' :: ([','].intercalate (ms.map fun m => m.text.toList) ++ '\x7d' :: rest) := by
    simp [write, toList_braces]
  have hskip : skip? ['\x7d'] ('\x7d' :: rest) = some rest := skip?_append ['\x7d'] rest
  rw [htext, readOperand?, readSelector?, listed_readMatcher? h]
  simp only [hskip, Option.bind_eq_bind, Option.bind_some]
  split
  · have := hrest '[' rfl
    simp at this
  · rfl

theorem operandBy_range {ms : List Matcher} {window : String} (h : (range ms window).Proper) :
    OperandBy inner (range ms window) := by
  intro rest _
  have htext : (range ms window).write ++ rest =
      '\x7b' :: ([','].intercalate (ms.map fun m => m.text.toList) ++
        '\x7d' :: '[' :: (window.toList ++ ([']'] ++ rest))) := by
    simp [write, toList_braces]
  have hskip (cs : List Char) : skip? ['\x7d'] ('\x7d' :: cs) = some cs := skip?_append ['\x7d'] cs
  have hwindow : run (· != ']') (window.toList ++ ([']'] ++ rest)) =
      (window.toList, [']'] ++ rest) :=
    run_append (fun c hc => bne_iff_ne.2 (h.2 c hc)) (stops_of_head rfl rest)
  rw [htext, readOperand?, readSelector?, listed_readMatcher? h.1]
  simp only [hskip, hwindow, skip?_append, Option.bind_eq_bind, Option.bind_some,
    String.ofList_toList]
  rfl

theorem readOperand?_name {name : String} (h : isOperationName name) (cs : List Char) :
    readOperand? inner (name.toList ++ cs) = (word? (name.toList ++ cs)).bind fun r =>
      match r.2 with
      | '(' :: cs => readCall? inner r.1 cs
      | cs => readAggregate? inner r.1 cs := by
  obtain ⟨⟨c, tail, hs, hc, -⟩, -⟩ := isOperationName_cases h
  rw [hs, List.cons_append, readOperand?]
  · rfl
  · rintro _ ⟨rfl, -⟩
    exact absurd hc (by decide)
  · rintro _ ⟨rfl, -⟩
    exact absurd hc (by decide)

theorem readOperand?_call {f : String} (h : isOperationName f) (cs : List Char) :
    readOperand? inner (f.toList ++ '(' :: cs) = readCall? inner f cs := by
  rw [readOperand?_name h, word?_identifier (isIdentifier_of_isOperationName h)
    (stops_of_head rfl cs)]
  rfl

theorem readOperand?_aggregate {op : String} (h : isOperationName op) (cs : List Char) :
    readOperand? inner (op.toList ++ ' ' :: cs) = readAggregate? inner op (' ' :: cs) := by
  rw [readOperand?_name h, word?_identifier (isIdentifier_of_isOperationName h)
    (stops_of_head rfl cs)]
  rfl

theorem operandBy_call {f : String} {before after : List Literal} {v : Phrase}
    (h : (call f before v after).Proper) (hv : ReadBy inner v) :
    OperandBy inner (call f before v after) := by
  obtain ⟨hf, hargs, hproper⟩ := h
  intro rest _
  -- What follows the vector, and the vector with what follows it.
  let tail := after.flatMap (fun l => [',', ' '] ++ l.write) ++ ')' :: rest
  have htext : (call f before v after).write ++ rest = f.toList ++
      '(' :: (before.flatMap (fun l => l.write ++ [',', ' ']) ++ (v.write ++ tail)) := by
    simp [write, tail]
  have hfollows : FollowsPhrase tail := by
    intro c hc
    cases after with
    | nil => exact .inr (Option.mem_some_iff.1 hc).symm
    | cons l after => exact .inl (Option.mem_some_iff.1 hc).symm
  have hbefore := many_readBefore? (fun l hl => hargs l (List.mem_append_left _ hl))
    (readLiteral?_write hproper tail)
    (length_le_length_flatMap (fun l : Literal => l.write ++ [',', ' ']) (fun l => by simp) before
      (v.write ++ tail))
  have hafter := many_readAfter? (fun l hl => hargs l (List.mem_append_right _ hl)) rest
    (length_le_length_flatMap (fun l : Literal => [',', ' '] ++ l.write) (fun l => by simp) after
      (')' :: rest))
  have hclose : skip? [')'] (')' :: rest) = some rest := skip?_append [')'] rest
  rw [htext, readOperand?_call hf, readCall?, hbefore]
  simp only [hv tail hfollows, Option.bind_eq_bind, Option.bind_some, tail, hafter, hclose]
  rfl

theorem operandBy_aggregate {op : String} {clause : Option Clause} {parameter : Option Literal}
    {v : Phrase} (h : (aggregate op clause parameter v).Proper) (hv : ReadBy inner v) :
    OperandBy inner (aggregate op clause parameter v) := by
  obtain ⟨hop, hclause, hparameter, hproper⟩ := h
  intro rest _
  let tail := v.write ++ ')' :: rest
  let args := [' ', '('] ++ (parameter.toList.flatMap (fun l => l.write ++ [',', ' ']) ++ tail)
  have htext : (aggregate op clause parameter v).write ++ rest =
      op.toList ++ (writeClause clause ++ args) := by
    simp [write, args, tail]
  have hread : readOperand? inner (op.toList ++ (writeClause clause ++ args)) =
      readAggregate? inner op (writeClause clause ++ args) := by
    cases clause with
    | none => exact readOperand?_aggregate hop _
    | some c => exact readOperand?_aggregate hop _
  have hargs : perhaps (readClause? [.groupBy, .without]) (writeClause clause ++ args) =
      (clause, args) :=
    perhaps_readClause? hclause (readClause?_blank (.inl (word?_of_stops (stops_of_head rfl _))))
  have hliteral : perhaps readBefore?
      (parameter.toList.flatMap (fun l => l.write ++ [',', ' ']) ++ tail) = (parameter, tail) := by
    cases parameter with
    | none => simp [perhaps, tail, readBefore?_eq_none (readLiteral?_write hproper _)]
    | some l =>
      simp only [Option.toList_some, List.flatMap_cons, List.flatMap_nil, List.append_nil, perhaps,
        readBefore?_append (hparameter l rfl)]
  have hclose : skip? [')'] (')' :: rest) = some rest := skip?_append [')'] rest
  have hvector : inner tail = some (v, ')' :: rest) :=
    hv _ fun c hc => .inr (Option.mem_some_iff.1 hc).symm
  rw [htext, hread, readAggregate?, hargs]
  simp only [args, skip?_append, Option.bind_eq_bind, Option.bind_some, hliteral, hvector, hclose]
  rfl

/-! ### Whole phrases -/

/-- An operand between its parentheses, if it needs them. -/
theorem readOperand?_enclose {p : Phrase} (hinner : ReadBy inner p)
    (hbare : ¬ p.isBinary → OperandBy inner p) {rest : List Char} (hrest : FollowsOperand rest) :
    readOperand? inner (p.enclose p.write ++ rest) = some (p, rest) := by
  by_cases hp : p.isBinary
  · have htext : p.enclose p.write ++ rest = '(' :: (p.write ++ ')' :: rest) := by
      simp [enclose, hp]
    have hclose : skip? [')'] (')' :: rest) = some rest := skip?_append [')'] rest
    rw [htext, readOperand?, hinner _ fun c hc => .inr (Option.mem_some_iff.1 hc).symm]
    simp only [Option.bind_eq_bind, Option.bind_some, hclose]
    rfl
  · rw [enclose, if_neg hp]
    exact hbare hp rest hrest

theorem readOperator?_of_followsPhrase {rest : List Char} (h : FollowsPhrase rest) :
    readOperator? rest = none := by
  cases rest with
  | nil => rfl
  | cons c rest => rcases h c rfl with rfl | rfl <;> rfl

theorem readBy_of_operandBy {p : Phrase} (h : OperandBy inner p) :
    ReadBy (readPhrase? inner) p := by
  intro rest hrest
  rw [readPhrase?, h rest hrest.operand]
  simp [readOperator?_of_followsPhrase hrest]

theorem readBy_binary {op : ArithmeticOp} {l r : Phrase} {matching group : Option Clause}
    (h : (binary op l r matching group).Proper)
    (hl : ∀ rest, FollowsOperand rest →
      readOperand? inner (l.enclose l.write ++ rest) = some (l, rest))
    (hr : ∀ rest, FollowsOperand rest →
      readOperand? inner (r.enclose r.write ++ rest) = some (r, rest)) :
    ReadBy (readPhrase? inner) (binary op l r matching group) := by
  obtain ⟨hlp, hrp, hmatching, hgroup⟩ := h
  intro rest hrest
  -- The right operand and the clauses in front of it, from the last to the first.
  let right := ' ' :: (r.enclose r.write ++ rest)
  have htext : (binary op l r matching group).write ++ rest = l.enclose l.write ++
      ' ' :: (op.symbol.toList ++ (writeClause matching ++ (writeClause group ++ right))) := by
    simp [write, right]
  have hnogroup : readClause? [.groupLeft, .groupRight] right = none := readClause?_enclose hrp _ _
  have hnomatching : readClause? [.on, .ignoring] (writeClause group ++ right) = none := by
    cases group with
    | none => exact readClause?_enclose hrp _ _
    | some g =>
      refine readClause?_of_notMem (fun hg => ?_) right
      have := (hgroup g rfl).1
      simp only [List.mem_cons, List.not_mem_nil, or_false] at hg this
      rcases hg with hg | hg <;> rw [hg] at this <;> simp at this
  have hskip : skip? [' '] right = some (r.enclose r.write ++ rest) := skip?_append [' '] _
  rw [htext, readPhrase?, hl _ (fun c hc => .inl (Option.mem_some_iff.1 hc).symm)]
  simp only [Option.bind_eq_bind, Option.bind_some, readOperator?_append,
    perhaps_readClause? hmatching hnomatching, perhaps_readClause? hgroup hnogroup, hskip,
    hr rest hrest.operand]
  rfl

/-- Every phrase with sound names and literals is read by the reader of its depth. -/
theorem readBy_readNested {p : Phrase} (h : p.Proper) :
    (∀ n, p.depth ≤ n → ReadBy (readNested n) p) ∧
      (¬ p.isBinary → ∀ n, p.depth ≤ n + 1 → OperandBy (readNested n) p) := by
  have lift {p : Phrase} (hpos : 0 < p.depth)
      (hbare : ∀ n, p.depth ≤ n + 1 → OperandBy (readNested n) p) :
      (∀ n, p.depth ≤ n → ReadBy (readNested n) p) ∧
        (¬ p.isBinary → ∀ n, p.depth ≤ n + 1 → OperandBy (readNested n) p) := by
    refine ⟨fun n hn => ?_, fun _ => hbare⟩
    obtain ⟨m, rfl⟩ : ∃ m, n = m + 1 := ⟨n - 1, by omega⟩
    exact readBy_of_operandBy (hbare m hn)
  induction p with
  | instant ms => exact lift Nat.one_pos fun n _ => operandBy_instant h
  | range ms window => exact lift Nat.one_pos fun n _ => operandBy_range h
  | call f before v after ih =>
    exact lift (Nat.succ_pos _) fun n hn =>
      operandBy_call h ((ih h.2.2).1 n (Nat.le_of_succ_le_succ hn))
  | aggregate op clause parameter v ih =>
    exact lift (Nat.succ_pos _) fun n hn =>
      operandBy_aggregate h ((ih h.2.2.2).1 n (Nat.le_of_succ_le_succ hn))
  | binary op l r matching group ihl ihr =>
    refine ⟨fun n hn => ?_, fun hp => absurd rfl hp⟩
    obtain ⟨m, rfl⟩ : ∃ m, n = m + 1 := ⟨n - 1, by simp only [depth] at hn; omega⟩
    have hl : l.depth ≤ m := by simp only [depth] at hn; omega
    have hr : r.depth ≤ m := by simp only [depth] at hn; omega
    refine readBy_binary h (fun rest hrest => ?_) (fun rest hrest => ?_)
    · exact readOperand?_enclose ((ihl h.1).1 m hl)
        (fun hp => (ihl h.1).2 hp m (Nat.le_succ_of_le hl)) hrest
    · exact readOperand?_enclose ((ihr h.2.1).1 m hr)
        (fun hp => (ihr h.2.1).2 hp m (Nat.le_succ_of_le hr)) hrest

/-- **A phrase is recovered from its text.** -/
theorem read_write {p : Phrase} (h : p.Proper) : read (String.ofList p.write) = some p := by
  have hread := (readBy_readNested h).1 _ p.depth_le_length_write [] (fun c hc => by simp at hc)
  rw [List.append_nil] at hread
  simp [read, hread]

end Phrase
end MetricQuery
