import MetricQuery.Proofs.Phrase.Reader

/-!
# Reading the parts of phrases

Matchers, literals, clauses and operators are read back from the texts that are written for them.
-/

namespace MetricQuery
open Scan

/-- The names of labels: a letter or an underscore, then letters, digits and underscores. -/
def isIdentifier (s : String) : Bool :=
  match s.toList with
  | [] => false
  | c :: cs => (c.isAlpha || c == '_') && cs.all isWordChar

theorem stops_of_head {p : Char → Bool} {c : Char} (h : p c = false) (cs : List Char) :
    Stops p (c :: cs) := by
  intro d hd
  obtain rfl := Option.mem_some_iff.1 hd
  exact h

theorem word?_identifier {w : String} {rest : List Char} (h : isIdentifier w)
    (hr : Stops isWordChar rest) : word? (w.toList ++ rest) = some (w, rest) := by
  unfold isIdentifier at h
  split at h
  · cases h
  · rename_i c cs hw
    simp only [Bool.and_eq_true, List.all_eq_true] at h
    refine word?_append (by simp [hw]) (fun x hx => ?_) hr
    rw [hw, List.mem_cons] at hx
    rcases hx with rfl | hx
    · have := h.1
      simp only [isWordChar, Char.isAlphanum, Bool.or_eq_true] at this ⊢
      tauto
    · exact h.2 x hx

theorem readString?_append (s : String) (rest : List Char) :
    readString? (Quoted.encode s.toList ++ rest) = some (s, rest) := by
  simp [readString?, Quoted.read_encode_append]

theorem Quoted.encode_eq_cons (cs : List Char) : ∃ tail, encode cs = '\x22' :: tail :=
  ⟨_, rfl⟩

/-! ### Matchers -/

theorem readMatchOp?_append (op : MatchOp) (rest : List Char) :
    readMatchOp? (op.symbol.toList ++ '\x22' :: rest) = some (op, '\x22' :: rest) := by
  cases op <;> rfl

theorem stops_symbol (op : MatchOp) (rest : List Char) :
    Stops isWordChar (op.symbol.toList ++ rest) := by
  intro c hc
  cases op <;> obtain rfl := Option.mem_some_iff.1 hc <;> rfl

theorem readMatcher?_append {m : Matcher} (h : isIdentifier m.name) (rest : List Char) :
    readMatcher? (m.text.toList ++ rest) = some (m, rest) := by
  obtain ⟨tail, htail⟩ := Quoted.encode_eq_cons m.value.toList
  have hop : readMatchOp? (m.op.symbol.toList ++ (Quoted.encode m.value.toList ++ rest)) =
      some (m.op, Quoted.encode m.value.toList ++ rest) := by
    rw [htail]
    exact readMatchOp?_append m.op (tail ++ rest)
  have htext : m.text.toList ++ rest =
      m.name.toList ++ (m.op.symbol.toList ++ (Quoted.encode m.value.toList ++ rest)) := by
    simp [Matcher.text, quote]
  rw [htext, readMatcher?, word?_identifier h (stops_symbol m.op _)]
  simp [hop, readString?_append]

/-! ### Literals -/

/-- The texts that are read as number literals. -/
def IsNumeral (cs : List Char) : Prop :=
  ∃ c tail, cs = c :: tail ∧ startsNumeral c ∧ ∀ d ∈ c :: tail, isNumeralChar d

/-- What a literal has to look like for its reader. -/
def Literal.Proper : Literal → Prop
  | .number text => IsNumeral text.toList
  | .string _ => True

theorem readLiteral?_append {l : Literal} (h : l.Proper) {rest : List Char}
    (hr : Stops isNumeralChar rest) : readLiteral? (l.write ++ rest) = some (l, rest) := by
  cases l with
  | number text =>
    obtain ⟨c, cs, htext, hc, hcs⟩ := h
    have hq : c ≠ '\x22' := by rintro rfl; simp [startsNumeral] at hc
    have hrun := run_append hcs hr
    rw [Literal.write, htext, List.cons_append, readLiteral?, if_neg hq, if_pos hc,
      ← List.cons_append, hrun, ← htext]
    simp
  | string value =>
    obtain ⟨tail, htail⟩ := Quoted.encode_eq_cons value.toList
    have hread := readString?_append value rest
    rw [Literal.write]
    rw [htail, List.cons_append] at hread ⊢
    simp [readLiteral?, hread]

theorem readLiteral?_eq_none {c : Char} {cs : List Char} (hq : c ≠ '\x22')
    (hc : startsNumeral c = false) : readLiteral? (c :: cs) = none := by
  simp [readLiteral?, hq, hc]

theorem readBefore?_append {l : Literal} (h : l.Proper) (rest : List Char) :
    readBefore? (l.write ++ [',', ' '] ++ rest) = some (l, rest) := by
  have hcomma : Stops isNumeralChar ([',', ' '] ++ rest) := stops_of_head rfl (' ' :: rest)
  rw [List.append_assoc, readBefore?, readLiteral?_append h hcomma]
  simp only [Option.bind_eq_bind, Option.bind_some, skip?_append]
  rfl

theorem readBefore?_eq_none {cs : List Char} (h : readLiteral? cs = none) :
    readBefore? cs = none := by
  rw [readBefore?, h]
  rfl

theorem readAfter?_append {l : Literal} (h : l.Proper) {rest : List Char}
    (hr : Stops isNumeralChar rest) :
    readAfter? ([',', ' '] ++ l.write ++ rest) = some (l, rest) := by
  rw [List.append_assoc, readAfter?, skip?_append, Option.bind_some, readLiteral?_append h hr]

theorem many_readBefore? {literals : List Literal} (h : ∀ l ∈ literals, l.Proper) {rest : List Char}
    (hr : readLiteral? rest = none) {n : ℕ} (hn : literals.length ≤ n) :
    many readBefore? n (literals.flatMap (fun l => l.write ++ [',', ' ']) ++ rest) =
      (literals, rest) :=
  many_flatMap readBefore? (fun l : Literal => l.write ++ [',', ' ']) (fun _ => True)
    (fun l hl cs _ => readBefore?_append (h l hl) cs) (fun _ _ => trivial) trivial
    (readBefore?_eq_none hr) hn

theorem many_readAfter? {literals : List Literal} (h : ∀ l ∈ literals, l.Proper) (rest : List Char)
    {n : ℕ} (hn : literals.length ≤ n) :
    many readAfter? n (literals.flatMap (fun l => [',', ' '] ++ l.write) ++ ')' :: rest) =
      (literals, ')' :: rest) :=
  many_flatMap readAfter? (fun l : Literal => [',', ' '] ++ l.write) (Stops isNumeralChar)
    (fun l hl _ hcs => readAfter?_append (h l hl) hcs) (fun _ _ => stops_of_head rfl _)
    (stops_of_head rfl rest) rfl hn

/-! ### Clauses -/

/-- A clause of one of the given kinds, with names of labels. -/
def Clause.Proper (kinds : List ClauseKind) (c : Clause) : Prop :=
  c.kind ∈ kinds ∧ ∀ l ∈ c.labels, isIdentifier l

instance (kinds : List ClauseKind) (c : Clause) : Decidable (c.Proper kinds) :=
  inferInstanceAs (Decidable (c.kind ∈ kinds ∧ ∀ l ∈ c.labels, isIdentifier l))

theorem ClauseKind.keyword_injective : Function.Injective ClauseKind.keyword := by
  intro k l h
  cases k <;> cases l <;> first | rfl | simp [ClauseKind.keyword] at h

theorem ClauseKind.isIdentifier_keyword (k : ClauseKind) : isIdentifier k.keyword := by
  cases k <;> decide

theorem find?_keyword {kinds : List ClauseKind} {k : ClauseKind} (h : k ∈ kinds) :
    kinds.find? (·.keyword == k.keyword) = some k := by
  obtain ⟨l, hl⟩ := Option.isSome_iff_exists.1
    (List.find?_isSome.2 ⟨k, h, by simp⟩ : (kinds.find? (·.keyword == k.keyword)).isSome)
  have := List.find?_some hl
  rw [hl, ClauseKind.keyword_injective (beq_iff_eq.1 this)]

theorem writeClause_some_append (c : Clause) (rest : List Char) :
    writeClause (some c) ++ rest = [' '] ++ (c.kind.keyword.toList ++ ([' ', '('] ++
      ([','].intercalate (c.labels.map String.toList) ++ ([')'] ++ rest)))) := by
  have hopen : " (".toList = [' ', '('] := rfl
  have hcomma : ",".toList = [','] := rfl
  have hclose : ")".toList = [')'] := rfl
  simp [writeClause, Clause.text, hopen, hcomma, hclose]

theorem word?_keyword (k : ClauseKind) (rest : List Char) :
    word? (k.keyword.toList ++ ([' ', '('] ++ rest)) = some (k.keyword, [' ', '('] ++ rest) :=
  word?_identifier k.isIdentifier_keyword (stops_of_head rfl ('(' :: rest))

theorem readClause?_append {kinds : List ClauseKind} {c : Clause} (h : c.Proper kinds)
    (rest : List Char) : readClause? kinds (writeClause (some c) ++ rest) = some (c, rest) := by
  have hlabels : listed word? ([','].intercalate (c.labels.map String.toList) ++ ([')'] ++ rest)) =
      (c.labels, [')'] ++ rest) :=
    listed_intercalate word? String.toList (Stops isWordChar)
      (fun l hl cs hcs => word?_identifier (h.2 l hl) hcs) (fun cs => stops_of_head rfl cs)
      (stops_of_head rfl rest) (word?_of_stops (stops_of_head rfl rest)) rfl
  rw [writeClause_some_append, readClause?, skip?_append]
  simp only [Option.bind_eq_bind, Option.bind_some, word?_keyword, find?_keyword h.1, skip?_append,
    hlabels]
  rfl

/-- A clause of another kind is not read. -/
theorem readClause?_of_notMem {kinds : List ClauseKind} {c : Clause} (h : c.kind ∉ kinds)
    (rest : List Char) : readClause? kinds (writeClause (some c) ++ rest) = none := by
  have hfind : kinds.find? (·.keyword == c.kind.keyword) = none := by
    refine List.find?_eq_none.2 fun k hk hkey => h ?_
    rwa [← ClauseKind.keyword_injective (beq_iff_eq.1 hkey)]
  rw [writeClause_some_append, readClause?, skip?_append]
  simp only [Option.bind_eq_bind, Option.bind_some, word?_keyword, hfind, Option.bind_none]

/-- No clause stands where a blank and no keyword follow. -/
theorem readClause?_blank {kinds : List ClauseKind} {cs : List Char}
    (h : word? cs = none ∨ ∃ w rest, word? cs = some (w, rest) ∧ ∀ k : ClauseKind, k.keyword ≠ w) :
    readClause? kinds (' ' :: cs) = none := by
  have hskip : skip? [' '] (' ' :: cs) = some cs := skip?_append [' '] cs
  rw [readClause?, hskip]
  rcases h with h | ⟨w, rest, h, hw⟩
  · simp [h]
  · have hfind : kinds.find? (·.keyword == w) = none :=
      List.find?_eq_none.2 fun k _ hk => hw k (beq_iff_eq.1 hk)
    simp [h, hfind]

theorem perhaps_readClause? {kinds : List ClauseKind} {clause : Option Clause}
    (h : ∀ c ∈ clause, c.Proper kinds) {rest : List Char} (hr : readClause? kinds rest = none) :
    perhaps (readClause? kinds) (writeClause clause ++ rest) = (clause, rest) := by
  cases clause with
  | none => simp [perhaps, writeClause, hr]
  | some c => simp [perhaps, readClause?_append (h c rfl)]

/-! ### Operators -/

theorem readOperator?_append (op : ArithmeticOp) (rest : List Char) :
    readOperator? (' ' :: (op.symbol.toList ++ rest)) = some (op, rest) := by
  cases op <;> rfl

end MetricQuery
