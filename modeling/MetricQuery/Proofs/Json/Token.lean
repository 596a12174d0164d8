import MetricQuery.Proofs.Json.Grammar

/-!
# Tokens of written values

Each string, number and word of a document is read as one token. Of a number this takes that it
respects the limits of the dialect, and that no digit, point or exponent follows.
-/

namespace MetricQuery
namespace Json
namespace Token

variable {d : Dialect} {cs rest : List Char}

/-! ### Strings -/

/-- Units that are joined to given characters, whatever comes before and after them. -/
def Joins (units : List ℕ) (s : List Char) : Prop :=
  ∀ loneHalf chars more,
    joinUnits loneHalf chars (units ++ more) = joinUnits loneHalf (s.reverse ++ chars) more

theorem Joins.append {units units' : List ℕ} {s s' : List Char} (h : Joins units s)
    (h' : Joins units' s') : Joins (units ++ units') (s ++ s') := by
  intro loneHalf chars more
  rw [List.append_assoc, h, h', List.reverse_append, List.append_assoc]

theorem Joins.joinUnits_eq {units : List ℕ} {s : List Char} (h : Joins units s)
    (loneHalf : Option Char) : joinUnits loneHalf [] units = some s := by
  rw [← List.append_nil units, h, List.append_nil, joinUnits, List.reverse_reverse]

/-- The number of a character is no half of a surrogate pair. -/
theorem not_isHalf (c : Char) : isHighHalf c.toNat = false ∧ isLowHalf c.toNat = false := by
  have hvalid : c.toNat < 0xd800 ∨ 0xdfff < c.toNat ∧ c.toNat < 0x110000 := c.valid
  simp only [isHighHalf, isLowHalf, Bool.and_eq_false_iff, decide_eq_false_iff_not]
  omega

theorem joins_toNat (c : Char) : Joins [c.toNat] [c] := by
  obtain ⟨hhigh, hlow⟩ := not_isHalf c
  intro loneHalf chars more
  cases more with
  | nil => simp [joinUnits, hhigh, hlow]
  | cons n more => simp [joinUnits, hhigh, hlow]

theorem joins_pair {c : Char} {high low : ℕ} (hhigh : high < 0x400) (hlow : low < 0x400)
    (hc : c.toNat = 0x10000 + high * 0x400 + low) : Joins [0xd800 + high, 0xdc00 + low] [c] := by
  have hhalves : isHighHalf (0xd800 + high) = true ∧ isLowHalf (0xdc00 + low) = true := by
    simp only [isHighHalf, isLowHalf, Bool.and_eq_true, decide_eq_true_eq]
    omega
  intro loneHalf chars more
  simp [joinUnits, hhalves, ← hc]

/-- The units of a letter are the next units of the string, and are joined to its character. -/
theorem exists_units_of_letter {c : Char} (h : Letter c cs) : ∃ letter, Joins letter [c] ∧
    ∀ units rest, stringUnits units (cs ++ rest) = stringUnits (letter.reverse ++ units) rest := by
  cases h with
  | plain hcontrol hquote hescape =>
    refine ⟨[c.toNat], joins_toNat c, fun units rest => ?_⟩
    rw [List.singleton_append, stringUnits, if_neg (Nat.not_lt.2 hcontrol)]
    · rfl
    all_goals intros; simp_all
  | short h =>
    refine ⟨[c.toNat], joins_toNat c, fun units rest => ?_⟩
    simp only [List.cons_append, List.nil_append]
    rw [stringUnits, h]
    · rfl
    -- `u` is the mark of no short escape
    · rintro w x y z more rfl
      cases h
  | unit h =>
    refine ⟨[c.toNat], joins_toNat c, fun units rest => ?_⟩
    simp [stringUnits, h]
  | pair hhigh hlow hhigh_lt hlow_lt hc =>
    refine ⟨_, joins_pair hhigh_lt hlow_lt hc, fun units rest => ?_⟩
    simp [stringUnits, hhigh, hlow]

theorem exists_units {s : List Char} (h : Letters s cs) : ∃ units, Joins units s ∧
    ∀ before rest, stringUnits before (cs ++ rest) =
      stringUnits (units.reverse ++ before) rest := by
  induction h with
  | nil => exact ⟨[], fun _ _ _ => rfl, fun _ _ => rfl⟩
  | cons h _ ih =>
    obtain ⟨letter, hjoins, hletter⟩ := exists_units_of_letter h
    obtain ⟨units, hjoins', hunits⟩ := ih
    refine ⟨letter ++ units, hjoins.append hjoins', fun before rest => ?_⟩
    rw [List.append_assoc, hletter, hunits, List.reverse_append, List.append_assoc]

theorem readString_append {s : List Char} (h : Letters s cs) (rest : List Char) :
    readString d (cs ++ '\x22' :: rest) = (.atom (.text (String.ofList s)), rest) := by
  obtain ⟨units, hjoins, hunits⟩ := exists_units h
  have hread : stringUnits [] (cs ++ '\x22' :: rest) = some (units, rest) := by
    rw [hunits, List.append_nil, stringUnits, List.reverse_reverse]
  simp only [readString, hread, hjoins.joinUnits_eq]

/-! ### Numbers -/

/-- The characters that would make the number in front of them longer. -/
def extendsNumber (c : Char) : Bool := c.isDigit || c == '.' || c == 'e' || c == 'E'

theorem stops_isDigit (h : Scan.Stops extendsNumber rest) : Scan.Stops Char.isDigit rest := by
  intro c hc
  have := h c hc
  simp only [extendsNumber, Bool.or_eq_false_iff] at this
  exact this.1.1.1

/-- The values of digits. -/
def digitValues (digits : List Char) : List ℕ := digits.map fun c => c.toNat - '0'.toNat

theorem number_digitValues (digits : List Char) :
    Digit.number (digitValues digits) = Nat.ofDigitChars 10 digits 0 :=
  Digit.number_map_toNat digits

theorem digitValues_append (digits more : List Char) :
    digitValues (digits ++ more) = digitValues digits ++ digitValues more :=
  List.map_append

theorem whole_append {digits : List Char} (h : Digit.IsPlain digits)
    (hrest : Scan.Stops Char.isDigit rest) :
    whole (digits ++ rest) = (digitValues digits, rest) := by
  by_cases hzero : digits.head? = some '0'
  -- after a leading zero no digit is looked for
  · rw [h.eq_zero hzero]
    rfl
  · have hhead : ∀ tail, digits ++ rest ≠ '0' :: tail := by
      rintro tail heq
      cases digits with
      | nil => exact h.ne_nil rfl
      | cons c digits => exact hzero (congrArg some (List.cons.inj heq).1)
    rw [whole]
    · exact Digit.span_ascii?_append h.isDigit hrest
    · exact hhead

theorem readSign_append {sign : Option Char} {digits : List Char}
    (h : ∀ c ∈ sign, c = '+' ∨ c = '-') (hne : digits ≠ []) (hdigits : ∀ c ∈ digits, c.isDigit) :
    Decimal.readSign (sign.toList ++ (digits ++ rest)) =
      (decide (sign = some '-'), digits ++ rest) := by
  cases sign with
  | some c =>
    obtain rfl | rfl := h c rfl <;> rfl
  | none =>
    obtain ⟨c, digits, rfl⟩ := List.exists_cons_of_ne_nil hne
    have hc := hdigits c List.mem_cons_self
    simp only [Option.toList_none, List.nil_append, List.cons_append]
    rw [Decimal.readSign]
    · rfl
    -- no digit is a sign
    · rintro tail heq
      cases heq
      cases hc
    · rintro tail heq
      cases heq
      cases hc

theorem exponent_append (e : Exponent) (hrest : Scan.Stops Char.isDigit rest) :
    exponent (e.text ++ rest) = (some e.value, rest) := by
  have hsign : Decimal.readSign (e.sign.toList ++ (e.digits ++ rest)) =
      (decide (e.sign = some '-'), e.digits ++ rest) :=
    readSign_append e.sign_eq e.digits_ne_nil e.isDigit
  have hvalues : digitValues e.digits ≠ [] := by simpa [digitValues] using e.digits_ne_nil
  simp only [Exponent.text, List.cons_append, List.append_assoc, exponent, hsign,
    Digit.span_ascii?_append e.isDigit hrest]
  rw [if_pos ⟨e.mark_eq, hvalues⟩]
  simp only [Exponent.value, Digit.number_map_toNat, decide_eq_true_eq]

variable {n : Number}

theorem exponent_exponentText (hrest : Scan.Stops extendsNumber rest) :
    exponent (n.exponentText ++ rest) = (n.exponent.map Exponent.value, rest) := by
  unfold Number.exponentText
  cases n.exponent with
  | some e => exact exponent_append e (stops_isDigit hrest)
  | none =>
    cases rest with
    | nil => rfl
    | cons c rest =>
      have hc : ¬ (c = 'e' ∨ c = 'E') := by
        rintro (rfl | rfl) <;> exact absurd (hrest _ rfl) (by decide)
      simp only [Option.elim_none, List.nil_append, exponent]
      exact if_neg fun hmark => hc hmark.1

/-- Neither a digit nor a point follows the fraction of a number. -/
theorem stops_exponentText (hrest : Scan.Stops extendsNumber rest) :
    Scan.Stops (fun c => c.isDigit || c == '.') (n.exponentText ++ rest) := by
  unfold Number.exponentText
  cases n.exponent with
  | some e =>
    rintro c ⟨⟩
    obtain hmark | hmark := e.mark_eq <;> rw [hmark] <;> rfl
  | none =>
    intro c hc
    have := hrest c hc
    simp only [extendsNumber, Bool.or_eq_false_iff] at this ⊢
    exact this.1.1

theorem fraction_fractionText (hrest : Scan.Stops extendsNumber rest) :
    fraction (n.fractionText ++ (n.exponentText ++ rest)) =
      (digitValues n.fraction, n.exponentText ++ rest) := by
  have hstops := stops_exponentText (n := n) hrest
  unfold Number.fractionText
  split
  case isTrue hnil =>
    rw [hnil, List.nil_append, fraction]
    · rfl
    · intro tail heq
      exact absurd (hstops '.' (heq ▸ rfl)) (by decide)
  case isFalse hne =>
    have hvalues : digitValues n.fraction ≠ [] := by simpa [digitValues] using hne
    have hdigit : Scan.Stops Char.isDigit (n.exponentText ++ rest) := fun c hc =>
      (Bool.or_eq_false_iff.1 (hstops c hc)).1
    simp only [List.cons_append, fraction, Digit.span_ascii?_append n.fraction_isDigit hdigit]
    exact if_neg hvalues

theorem stops_fractionText (hrest : Scan.Stops extendsNumber rest) :
    Scan.Stops Char.isDigit (n.fractionText ++ (n.exponentText ++ rest)) := by
  unfold Number.fractionText
  split
  case isTrue => exact fun c hc => (Bool.or_eq_false_iff.1 (stops_exponentText hrest c hc)).1
  case isFalse =>
    rintro c ⟨⟩
    rfl

/-- A number within the limits of the dialect is read, and one that is too long is refused. -/
theorem readNumber_unsigned (hrest : Scan.Stops extendsNumber rest) :
    readNumber d n.negative (n.unsigned ++ rest) =
      if d.maxWhole.any (· < n.wholeLength) then (.fault (.overlong n.whole.length), [])
      else if n.IsInteger ∧ d.maxDigits.any (· < n.whole.length) then
        (.fault (.overlong n.whole.length), [])
      else (.atom n.value, rest) := by
  have hwhole : digitValues n.whole ≠ [] := by simpa [digitValues] using n.whole_isPlain.ne_nil
  have hlength : (digitValues n.whole).length = n.whole.length := List.length_map _
  have hinteger : (digitValues n.fraction = [] ∧ n.exponent.map Exponent.value = none) ↔
      n.IsInteger := by
    simp [digitValues, Number.IsInteger]
  simp only [readNumber, Number.unsigned, List.append_assoc,
    whole_append n.whole_isPlain (stops_fractionText hrest), fraction_fractionText hrest,
    exponent_exponentText hrest, hwhole, hlength, hinteger, if_false, Number.wholeLength]
  by_cases hvalue : n.IsInteger
  · simp only [hvalue, if_true, true_and, Number.value, Number.wholeValue, number_digitValues]
    rfl
  · have hcoefficient : Digit.number (digitValues n.whole ++ digitValues n.fraction) =
        Nat.ofDigitChars 10 (n.whole ++ n.fraction) 0 := by
      rw [← number_digitValues, ← digitValues_append]
    have hpower : (n.exponent.map Exponent.value).getD 0 = n.exponent.elim 0 Exponent.value := by
      cases n.exponent <;> rfl
    have hplaces : (digitValues n.fraction).length = n.fraction.length := List.length_map _
    simp only [hvalue, if_false, false_and, Number.value, hcoefficient, hpower, hplaces]
    rfl

/-- Neither a mark nor a word begins with a digit, and no word has a digit after a minus. -/
theorem read_digit {c : Char} (hc : c.isDigit) (cs : List Char) :
    read d c cs = readNumber d false (c :: cs) ∧
      read d '-' (c :: cs) = readNumber d true (c :: cs) := by
  have hne (c' : Char) (h : c'.isDigit = false) : c' ≠ c := by
    rintro rfl
    exact absurd hc (by rw [h]; decide)
  have hmark : mark? c = none := by
    rw [mark?]
    all_goals
      rintro rfl
      cases hc
  have hwords : word? (c :: cs) = none ∧ word? ('-' :: c :: cs) = none := by
    simp [word?, words, List.isPrefixOf, hne 'n' rfl, hne 't' rfl, hne 'f' rfl, hne 'N' rfl,
      hne 'I' rfl, hne '-' rfl]
  constructor
  · simp only [read, hmark, hwords.1, (hne '\x22' rfl).symm, (hne '-' rfl).symm, if_false]
  · have hminus : mark? '-' = none := rfl
    simp only [read, hminus, hwords.2]
    rfl

theorem not_isSpace_of_isDigit {c : Char} (hc : c.isDigit) : isSpace c = false := by
  simp only [isSpace, Bool.or_eq_false_iff, beq_eq_false_iff_ne]
  refine ⟨⟨⟨?_, ?_⟩, ?_⟩, ?_⟩ <;>
  · rintro rfl
    cases hc

/-! ### Whole tokens -/

/-- A text is read as one token, whatever follows that does not make a number longer. -/
def Reads (d : Dialect) (cs : List Char) (t : Token) : Prop :=
  ∃ first tail, cs = first :: tail ∧ isSpace first = false ∧
    ∀ rest, Scan.Stops extendsNumber rest → read d first (tail ++ rest) = (t, rest)

theorem reads_null : Reads d "null".toList (.atom .null) :=
  ⟨'n', "ull".toList, rfl, rfl, fun _ _ => rfl⟩

theorem reads_true : Reads d "true".toList (.atom (.bool true)) :=
  ⟨'t', "rue".toList, rfl, rfl, fun _ _ => rfl⟩

theorem reads_false : Reads d "false".toList (.atom (.bool false)) :=
  ⟨'f', "alse".toList, rfl, rfl, fun _ _ => rfl⟩

theorem reads_text {s : List Char} (h : Letters s cs) :
    Reads d ('\x22' :: (cs ++ ['\x22'])) (.atom (.text (String.ofList s))) := by
  refine ⟨'\x22', cs ++ ['\x22'], rfl, rfl, fun rest _ => ?_⟩
  have hmark : mark? '\x22' = none := rfl
  simp only [read, hmark, if_true, List.append_assoc, List.singleton_append,
    readString_append h rest]

/-- A number is read without its minus. -/
theorem exists_read_eq_readNumber (d : Dialect) (n : Number) :
    ∃ first tail, n.text = first :: tail ∧ isSpace first = false ∧
      ∀ rest, read d first (tail ++ rest) = readNumber d n.negative (n.unsigned ++ rest) := by
  obtain ⟨c, whole, hwhole⟩ := List.exists_cons_of_ne_nil n.whole_isPlain.ne_nil
  have hc : c.isDigit := n.whole_isPlain.isDigit c (hwhole ▸ List.mem_cons_self)
  have hunsigned : n.unsigned = c :: (whole ++ (n.fractionText ++ n.exponentText)) := by
    rw [Number.unsigned, hwhole, List.cons_append]
  unfold Number.text
  cases n.negative with
  | true => exact ⟨'-', _, rfl, rfl, fun rest => hunsigned ▸ (read_digit hc _).2⟩
  | false => exact ⟨c, _, hunsigned, not_isSpace_of_isDigit hc, fun rest =>
      hunsigned ▸ (read_digit hc _).1⟩

/-- A number respects the limits of a dialect. -/
structure Respects (d : Dialect) (n : Number) : Prop where
  wholeLength_le : ∀ k ∈ d.maxWhole, n.wholeLength ≤ k
  length_le : n.IsInteger → ∀ k ∈ d.maxDigits, n.whole.length ≤ k

theorem reads_number {n : Number} (h : Respects d n) : Reads d n.text (.atom n.value) := by
  obtain ⟨first, tail, htext, hfirst, hread⟩ := exists_read_eq_readNumber d n
  refine ⟨first, tail, htext, hfirst, fun rest hrest => ?_⟩
  have hwhole : ¬ d.maxWhole.any (· < n.wholeLength) := by
    simpa [Option.any_eq_true] using h.wholeLength_le
  have hdigits : ¬ (n.IsInteger ∧ d.maxDigits.any (· < n.whole.length)) := by
    simpa [Option.any_eq_true] using h.length_le
  rw [hread, readNumber_unsigned hrest, if_neg hwhole, if_neg hdigits]

/-- A number beyond the limits of a dialect is a fault. -/
theorem read_of_not_respects {n : Number} (h : ¬ Respects d n) :
    ∃ first tail, n.text = first :: tail ∧ isSpace first = false ∧ ∀ rest,
      Scan.Stops extendsNumber rest →
        read d first (tail ++ rest) = (.fault (.overlong n.whole.length), []) := by
  obtain ⟨first, tail, htext, hfirst, hread⟩ := exists_read_eq_readNumber d n
  refine ⟨first, tail, htext, hfirst, fun rest hrest => ?_⟩
  rw [hread, readNumber_unsigned hrest]
  by_cases hwhole : d.maxWhole.any (· < n.wholeLength)
  · rw [if_pos hwhole]
  · have hdigits : n.IsInteger ∧ d.maxDigits.any (· < n.whole.length) := by
      by_contra hdigits
      exact h ⟨by simpa [Option.any_eq_true] using hwhole,
        by simpa [Option.any_eq_true] using hdigits⟩
    rw [if_neg hwhole, if_pos hdigits]

end Token
end Json
end MetricQuery
