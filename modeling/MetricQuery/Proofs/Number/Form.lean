import MetricQuery.Number.Decimal
import MetricQuery.Proofs.Text.Blank
import MetricQuery.Proofs.Text.Digit

/-!
# The form of decimals

`Decimal.Form` is the grammar of a decimal with an optional sign, with digits of any script. The
reader of decimals accepts the texts of that grammar and gives what they write, and the reader of
numbers, which allows more, rounds it.
-/

namespace MetricQuery

/-! ### Characters -/

namespace Digit

/-- A digit is one of the ten characters from a zero on. -/
theorem exists_zero {c : Char} (h : (value? c).isSome) :
    ∃ z ∈ zeros, z ≤ c.toNat ∧ c.toNat < z + 10 := by
  rw [value?, Option.isSome_map, List.find?_isSome] at h
  obtain ⟨z, hz, hrange⟩ := h
  rw [Bool.and_eq_true, decide_eq_true_eq, decide_eq_true_eq] at hrange
  exact ⟨z, hz, hrange⟩

/-- A character apart from the ten of every zero is no digit. -/
theorem value?_eq_none {c : Char} (h : ∀ z ∈ zeros, c.toNat < z ∨ z + 10 ≤ c.toNat) :
    value? c = none := by
  rw [← Option.not_isSome_iff_eq_none]
  intro hsome
  obtain ⟨z, hz, hrange⟩ := exists_zero hsome
  have := h z hz
  omega

theorem span_value?_append {ds rest : List Char} (h : ∀ c ∈ ds, (value? c).isSome)
    (hrest : Scan.Stops (fun c => (value? c).isSome) rest) :
    span value? (ds ++ rest) = (ds.filterMap value?, rest) := by
  rw [span_eq, Scan.run_append h hrest]

theorem exists_of_span {cs rest : List Char} {values : List ℕ}
    (h : span value? cs = (values, rest)) : ∃ ds, (∀ c ∈ ds, (value? c).isSome) ∧
      ds.filterMap value? = values ∧ Scan.Stops (fun c => (value? c).isSome) rest ∧
      cs = ds ++ rest := by
  rw [span_eq] at h
  obtain ⟨rfl, rfl⟩ := Prod.mk.inj h
  refine ⟨_, fun c hc => ?_, rfl, Scan.stops_run _ cs, (Scan.run_fst_append_snd _ cs).symm⟩
  exact Scan.of_mem_run (p := fun c => (value? c).isSome) hc

end Digit

/-- The code points of the blanks and the information separators. -/
def marginCodes : List ℕ :=
  [0x9, 0xa, 0xb, 0xc, 0xd, 0x1c, 0x1d, 0x1e, 0x1f, 0x20, 0x85, 0xa0, 0x1680, 0x2000, 0x2001,
    0x2002, 0x2003, 0x2004, 0x2005, 0x2006, 0x2007, 0x2008, 0x2009, 0x200a, 0x2028, 0x2029, 0x202f,
    0x205f, 0x3000]

theorem toNat_mem_marginCodes {c : Char} (h : isMargin c) : c.toNat ∈ marginCodes := by
  simp only [isMargin, isBlank, Bool.or_eq_true, Bool.and_eq_true, decide_eq_true_eq,
    beq_iff_eq] at h
  simp only [marginCodes, List.mem_cons, List.not_mem_nil, or_false]
  omega

theorem value?_of_isMargin {c : Char} (h : isMargin c) : Digit.value? c = none := by
  refine Digit.value?_eq_none fun z hz => ?_
  have hapart : ∀ n ∈ marginCodes, ∀ z ∈ Digit.zeros, n < z ∨ z + 10 ≤ n := by decide +kernel
  exact hapart c.toNat (toNat_mem_marginCodes h) z hz

namespace Decimal

/-! ### The grammar -/

/-- A sign, if there is one, and whether it is a minus. -/
inductive SignForm : List Char → Bool → Prop
  | none : SignForm [] false
  | plus : SignForm ['+'] false
  | minus : SignForm ['-'] true

/-- Digits with a point before, among or after them, if there is one, with the number that they
write and the number of digits after the point. -/
inductive MantissaForm : List Char → ℕ → ℕ → Prop
  | whole {ds : List Char} {n : ℕ} : ds ≠ [] → Numeral ds.length ds n → MantissaForm ds n 0
  | point {ds fs : List Char} {n : ℕ} : ds ++ fs ≠ [] → Numeral (ds ++ fs).length (ds ++ fs) n →
    MantissaForm (ds ++ '.' :: fs) n fs.length

/-- An exponent, if there is one. -/
inductive ExponentForm : List Char → ℤ → Prop
  | none : ExponentForm [] 0
  | digits {mark : Char} {sign ds : List Char} {negative : Bool} {n : ℕ} :
    mark = 'e' ∨ mark = 'E' → SignForm sign negative → ds ≠ [] → Numeral ds.length ds n →
    ExponentForm (mark :: (sign ++ ds)) (if negative then -(n : ℤ) else n)

/-- The texts of decimals, with their sign and the decimal that they write. -/
inductive Form : List Char → Bool → Decimal → Prop
  | mk {sign mantissa exponent : List Char} {negative : Bool} {n places : ℕ} {e : ℤ} :
    SignForm sign negative → MantissaForm mantissa n places → ExponentForm exponent e →
    Form (sign ++ (mantissa ++ exponent)) negative ⟨n, e - places⟩

/-! ### Signs -/

/-- A text begins with a digit or a point. -/
def StartsMantissa (cs : List Char) : Prop :=
  ∃ c rest, cs = c :: rest ∧ (c = '.' ∨ (Digit.value? c).isSome)

theorem startsMantissa_append {ds : List Char} (hne : ds ≠ [])
    (h : ∀ c ∈ ds, (Digit.value? c).isSome) (rest : List Char) : StartsMantissa (ds ++ rest) := by
  obtain ⟨c, cs, rfl⟩ := List.exists_cons_of_ne_nil hne
  exact ⟨c, cs ++ rest, rfl, .inr (h c List.mem_cons_self)⟩

theorem MantissaForm.starts {mantissa : List Char} {n places : ℕ}
    (h : MantissaForm mantissa n places) (rest : List Char) :
    StartsMantissa (mantissa ++ rest) := by
  cases h with
  | whole hne hnumeral => exact startsMantissa_append hne hnumeral.isSome_value? rest
  | @point ds fs _ hne hnumeral =>
    rw [List.append_assoc]
    cases ds with
    | nil => exact ⟨'.', fs ++ rest, rfl, .inl rfl⟩
    | cons c ds =>
      exact ⟨c, _, rfl, .inr (hnumeral.isSome_value? c List.mem_cons_self)⟩

theorem readSign_append {sign rest : List Char} {negative : Bool} (h : SignForm sign negative)
    (hrest : StartsMantissa rest) : readSign (sign ++ rest) = (negative, rest) := by
  cases h with
  | plus => rfl
  | minus => rfl
  | none =>
    obtain ⟨c, tail, rfl, hc⟩ := hrest
    have hminus : c ≠ '-' := by
      rintro rfl
      exact absurd hc (by decide)
    have hplus : c ≠ '+' := by
      rintro rfl
      exact absurd hc (by decide)
    rw [List.nil_append, readSign]
    · exact fun _ heq => hminus (List.cons.inj heq).1
    · exact fun _ heq => hplus (List.cons.inj heq).1

theorem exists_signForm (cs : List Char) :
    ∃ sign, SignForm sign (readSign cs).1 ∧ cs = sign ++ (readSign cs).2 := by
  unfold readSign
  split
  · exact ⟨_, .minus, rfl⟩
  · exact ⟨_, .plus, rfl⟩
  · exact ⟨_, .none, rfl⟩

/-! ### Exponents -/

/-- What follows the digits of a mantissa. -/
theorem ExponentForm.stops {exponent : List Char} {e : ℤ} (h : ExponentForm exponent e) :
    Scan.Stops (fun c => (Digit.value? c).isSome || c == '.') exponent := by
  cases h with
  | none => nofun
  | digits hmark =>
    rintro _ ⟨⟩
    rcases hmark with rfl | rfl <;> decide

theorem readExponent_of_form {exponent : List Char} {e : ℤ} (h : ExponentForm exponent e) :
    readExponent Digit.value? exponent = some e := by
  cases h with
  | none => rfl
  | @digits mark sign ds negative n hmark hsign hne hnumeral =>
    have hstart := startsMantissa_append hne hnumeral.isSome_value? []
    rw [List.append_nil] at hstart
    have hend : Scan.Stops (fun c => (Digit.value? c).isSome) [] := nofun
    have hspan := Digit.span_value?_append hnumeral.isSome_value? hend
    rw [List.append_nil] at hspan
    have hvalues : ds.filterMap Digit.value? ≠ [] := by
      rw [← List.length_pos_iff, hnumeral.length_filterMap, List.length_pos_iff]
      exact hne
    have hnumber := hnumeral.number_eq
    rw [readExponent, if_pos hmark, readSign_append hsign hstart]
    dsimp only
    rw [hspan]
    cases hfound : ds.filterMap Digit.value? with
    | nil => exact absurd hfound hvalues
    | cons d values =>
      rw [hfound] at hnumber
      simp only [hnumber]

theorem form_of_readExponent {exponent : List Char} {e : ℤ}
    (h : readExponent Digit.value? exponent = some e) : ExponentForm exponent e := by
  unfold readExponent at h
  split at h
  · obtain rfl := Option.some.inj h
    exact .none
  · rename_i mark cs
    split at h
    · rename_i hmark
      obtain ⟨sign, hsign, hcs⟩ := exists_signForm cs
      generalize readSign cs = found at h hsign hcs
      obtain ⟨negative, tail⟩ := found
      dsimp only at h hsign hcs
      split at h
      · rename_i d values hspan
        obtain rfl := Option.some.inj h
        obtain ⟨ds, hdigits, hvalues, -, rfl⟩ := Digit.exists_of_span hspan
        rw [List.append_nil] at hcs
        rw [hcs]
        refine .digits hmark hsign ?_ ⟨rfl, hdigits, congrArg Digit.number hvalues⟩
        rintro rfl
        cases hvalues
      · cases h
    · cases h

/-! ### Mantissas -/

/-- The digits of a fraction after its point, if there is one, and what follows them. -/
def fractionSpan (digit? : Char → Option ℕ) : List Char → List ℕ × List Char
  | '.' :: cs => Digit.span digit? cs
  | cs => ([], cs)

theorem readUnsigned_eq (digit? : Char → Option ℕ) (cs : List Char) : readUnsigned digit? cs =
    let whole := Digit.span digit? cs
    let fraction := fractionSpan digit? whole.2
    if whole.1.isEmpty && fraction.1.isEmpty then none
    else (readExponent digit? fraction.2).map fun e =>
      ⟨Digit.number (whole.1 ++ fraction.1), e - fraction.1.length⟩ := by
  unfold readUnsigned
  generalize Digit.span digit? cs = whole
  obtain ⟨values, tail⟩ := whole
  dsimp only
  split
  · rfl
  · rename_i hpoint
    rw [fractionSpan]
    exact hpoint

theorem fractionSpan_of_stops {digit? : Char → Option ℕ} {cs : List Char}
    (h : Scan.Stops (· == '.') cs) : fractionSpan digit? cs = ([], cs) := by
  unfold fractionSpan
  split
  · cases h '.' rfl
  · rfl

theorem readUnsigned_of_form {mantissa exponent : List Char} {n places : ℕ} {e : ℤ}
    (hmantissa : MantissaForm mantissa n places) (hexponent : ExponentForm exponent e) :
    readUnsigned Digit.value? (mantissa ++ exponent) = some ⟨n, e - places⟩ := by
  have hstops : Scan.Stops (fun c => (Digit.value? c).isSome) exponent := fun c hc =>
    (Bool.or_eq_false_iff.1 (hexponent.stops c hc)).1
  have hpoint : Scan.Stops (· == '.') exponent := fun c hc =>
    (Bool.or_eq_false_iff.1 (hexponent.stops c hc)).2
  rw [readUnsigned_eq]
  cases hmantissa with
  | whole hne hnumeral =>
    have hvalues := hnumeral.length_filterMap
    rw [Digit.span_value?_append hnumeral.isSome_value? hstops]
    dsimp only
    rw [fractionSpan_of_stops hpoint, readExponent_of_form hexponent, List.append_nil,
      hnumeral.number_eq, if_neg]
    · rfl
    · rw [Bool.and_eq_true, List.isEmpty_iff, ← List.length_eq_zero_iff, hvalues,
        List.length_eq_zero_iff]
      exact fun hempty => hne hempty.1
  | @point ds fs _ hne hnumeral =>
    have hdigits := List.forall_mem_append.1 hnumeral.isSome_value?
    have hvalues := hnumeral.length_filterMap
    have hnumber := hnumeral.number_eq
    rw [List.filterMap_append] at hvalues hnumber
    have hmark : Scan.Stops (fun c => (Digit.value? c).isSome) ('.' :: (fs ++ exponent)) := by
      rintro _ ⟨⟩
      rfl
    rw [List.append_assoc, List.cons_append, Digit.span_value?_append hdigits.1 hmark]
    dsimp only
    rw [fractionSpan, Digit.span_value?_append hdigits.2 hstops, readExponent_of_form hexponent]
    dsimp only
    rw [hnumber, List.filterMap_length_eq_length.2 hdigits.2, if_neg]
    · rfl
    · rw [Bool.and_eq_true, List.isEmpty_iff, List.isEmpty_iff, ← List.append_eq_nil_iff,
        ← List.length_eq_zero_iff, hvalues, List.length_eq_zero_iff]
      exact hne

theorem exists_of_fractionSpan {cs rest : List Char} {values : List ℕ}
    (h : fractionSpan Digit.value? cs = (values, rest)) :
    values = [] ∧ cs = rest ∨ ∃ ds, (∀ c ∈ ds, (Digit.value? c).isSome) ∧
      ds.filterMap Digit.value? = values ∧ cs = '.' :: (ds ++ rest) := by
  unfold fractionSpan at h
  split at h
  · obtain ⟨ds, hdigits, hvalues, -, rfl⟩ := Digit.exists_of_span h
    exact .inr ⟨ds, hdigits, hvalues, rfl⟩
  · obtain ⟨rfl, rfl⟩ := Prod.mk.inj h
    exact .inl ⟨rfl, rfl⟩

theorem form_of_readUnsigned {cs : List Char} {d : Decimal}
    (h : readUnsigned Digit.value? cs = some d) :
    ∃ (mantissa exponent : List Char) (n places : ℕ) (e : ℤ), MantissaForm mantissa n places ∧
      ExponentForm exponent e ∧ cs = mantissa ++ exponent ∧ d = ⟨n, e - places⟩ := by
  rw [readUnsigned_eq] at h
  cases hwhole : Digit.span Digit.value? cs with
  | mk whole tail =>
  cases hfraction : fractionSpan Digit.value? tail with
  | mk fraction exponent =>
  rw [hwhole] at h
  dsimp only at h
  rw [hfraction] at h
  dsimp only at h
  split at h
  · cases h
  · rename_i hne
    obtain ⟨e, hexponent, rfl⟩ := Option.map_eq_some_iff.1 h
    obtain ⟨ds, hdigits, rfl, -, rfl⟩ := Digit.exists_of_span hwhole
    have hform := form_of_readExponent hexponent
    rcases exists_of_fractionSpan hfraction with ⟨rfl, rfl⟩ | ⟨fs, hdigits', rfl, rfl⟩
    · refine ⟨ds, tail, _, 0, e, .whole ?_ ⟨rfl, hdigits, rfl⟩, hform, rfl, ?_⟩
      · rintro rfl
        exact hne rfl
      · rw [List.append_nil]
        rfl
    · refine ⟨ds ++ '.' :: fs, exponent, _, _, e, .point ?_ ⟨rfl, ?_, rfl⟩, hform, ?_, ?_⟩
      · intro hempty
        obtain ⟨rfl, rfl⟩ := List.append_eq_nil_iff.1 hempty
        exact hne rfl
      · exact List.forall_mem_append.2 ⟨hdigits, hdigits'⟩
      · rw [List.append_assoc, List.cons_append]
      · rw [List.filterMap_append, List.filterMap_length_eq_length.2 hdigits']

/-! ### Texts -/

theorem read_of_form {cs : List Char} {negative : Bool} {d : Decimal} (h : Form cs negative d) :
    read Digit.value? cs = some (negative, d) := by
  obtain ⟨hsign, hmantissa, hexponent⟩ := h
  rw [read, readSign_append hsign (hmantissa.starts _)]
  dsimp only
  rw [readUnsigned_of_form hmantissa hexponent]
  rfl

theorem form_of_read {cs : List Char} {negative : Bool} {d : Decimal}
    (h : read Digit.value? cs = some (negative, d)) : Form cs negative d := by
  obtain ⟨sign, hsign, hcs⟩ := exists_signForm cs
  unfold read at h
  generalize readSign cs = found at h hsign hcs
  obtain ⟨negative', tail⟩ := found
  obtain ⟨d', hunsigned, heq⟩ := Option.map_eq_some_iff.1 h
  obtain ⟨rfl, rfl⟩ := Prod.mk.inj heq
  obtain ⟨mantissa, exponent, n, places, e, hmantissa, hexponent, htail, rfl⟩ :=
    form_of_readUnsigned hunsigned
  dsimp only at htail hcs
  rw [hcs, htail]
  exact .mk hsign hmantissa hexponent

/-- The reader accepts the texts of the form, with what they write. -/
theorem read_eq_some_iff {cs : List Char} {negative : Bool} {d : Decimal} :
    read Digit.value? cs = some (negative, d) ↔ Form cs negative d :=
  ⟨form_of_read, read_of_form⟩

theorem Form.unique {cs : List Char} {negative negative' : Bool} {d d' : Decimal}
    (h : Form cs negative d) (h' : Form cs negative' d') : negative = negative' ∧ d = d' :=
  Prod.mk.inj (Option.some.inj ((read_of_form h).symm.trans (read_of_form h')))

/-! ### Numbers -/

/-- The characters of decimals. -/
def isFormChar (c : Char) : Bool :=
  (Digit.value? c).isSome || c == '+' || c == '-' || c == '.' || c == 'e' || c == 'E'

theorem Form.isFormChar {cs : List Char} {negative : Bool} {d : Decimal} (h : Form cs negative d) :
    ∀ c ∈ cs, isFormChar c := by
  have hdigits {ds : List Char} (hds : ∀ c ∈ ds, (Digit.value? c).isSome) :
      ∀ c ∈ ds, Decimal.isFormChar c := fun c hc => by simp [Decimal.isFormChar, hds c hc]
  have hsigns {sign : List Char} {negative : Bool} (hsign : SignForm sign negative) :
      ∀ c ∈ sign, Decimal.isFormChar c := by
    cases hsign with
    | none => nofun
    | plus => exact List.forall_mem_singleton.2 (by decide)
    | minus => exact List.forall_mem_singleton.2 (by decide)
  obtain ⟨hsign, hmantissa, hexponent⟩ := h
  simp only [List.forall_mem_append]
  refine ⟨hsigns hsign, ?_, ?_⟩
  · cases hmantissa with
    | whole _ hnumeral => exact hdigits hnumeral.isSome_value?
    | point _ hnumeral =>
      obtain ⟨hds, hfs⟩ := List.forall_mem_append.1 hnumeral.isSome_value?
      exact List.forall_mem_append.2 ⟨hdigits hds, List.forall_mem_cons.2 ⟨by decide, hdigits hfs⟩⟩
  · cases hexponent with
    | none => nofun
    | digits hmark hsign _ hnumeral =>
      refine List.forall_mem_cons.2 ⟨?_, List.forall_mem_append.2
        ⟨hsigns hsign, hdigits hnumeral.isSome_value?⟩⟩
      rcases hmark with rfl | rfl <;> decide

theorem isMargin_of_isFormChar {c : Char} (h : isFormChar c) : isMargin c = false := by
  rw [← Bool.not_eq_true]
  intro hmargin
  simp only [isFormChar, value?_of_isMargin hmargin, Option.isSome_none, Bool.false_or,
    Bool.or_eq_true, beq_iff_eq] at h
  rcases h with (((rfl | rfl) | rfl) | rfl) | rfl <;> cases hmargin

theorem ungroup?_of_forall_ne {member : Char → Bool} {cs : List Char} (h : ∀ c ∈ cs, c ≠ '_')
    (afterMember : Bool) : ungroup? member afterMember cs = some cs := by
  induction cs generalizing afterMember with
  | nil => rfl
  | cons c cs ih =>
    obtain ⟨hc, hcs⟩ := List.forall_mem_cons.1 h
    rw [ungroup?, if_neg hc, ih hcs]
    · rfl
    · exact fun _ _ heq _ => hc heq

end Decimal

theorem Digit.toLower_eq {c : Char} (h : (value? c).isSome) : c.toLower = c := by
  unfold Char.toLower
  split
  · rename_i hrange
    have hupper : ∀ z ∈ zeros, z + 10 ≤ 65 ∨ 90 < z := by decide
    obtain ⟨z, hz, hle, hlt⟩ := exists_zero h
    have hle' : 65 ≤ c.toNat := hrange.1
    have hlt' : c.toNat ≤ 90 := hrange.2
    have := hupper z hz
    omega
  · rfl

namespace Binary64
open Decimal

theorem ofName?_of_startsMantissa {cs : List Char} (h : StartsMantissa cs) (negative : Bool) :
    ofName? negative cs = none := by
  obtain ⟨c, rest, rfl, hc⟩ := h
  have hlower : c.toLower = '.' ∨ (Digit.value? c.toLower).isSome := by
    rcases hc with rfl | hc
    · exact .inl rfl
    · exact .inr ((Digit.toLower_eq hc).symm ▸ hc)
  have hname (s : String) {first : Char} {letters : List Char} (hs : s.toList = first :: letters)
      (hfirst : ¬(first = '.' ∨ (Digit.value? first).isSome)) :
      String.ofList ((c :: rest).map Char.toLower) ≠ s := by
    rintro rfl
    rw [String.toList_ofList, List.map_cons] at hs
    rw [(List.cons.inj hs).1] at hlower
    exact hfirst hlower
  unfold ofName?
  dsimp only
  rw [if_neg (hname "nan" rfl (by decide)), if_neg]
  exact not_or.2 ⟨hname "inf" rfl (by decide), hname "infinity" rfl (by decide)⟩

/-- Blanks around a number make no difference. -/
theorem read_append {digit? : Char → Option ℕ} {before after : List Char}
    (hbefore : ∀ c ∈ before, isBlank c) (hafter : ∀ c ∈ after, isBlank c) (cs : List Char) :
    read digit? (before ++ (cs ++ after)) = read digit? cs := by
  rw [read, read, trim_append hbefore hafter]

/-- The reader of numbers rounds a decimal. -/
theorem read_of_form {cs : List Char} {negative : Bool} {d : Decimal} (h : Form cs negative d) :
    read Digit.value? cs = some (ofDecimal negative d) := by
  have htrim : trim isBlank cs = cs := trim_of_forall_not fun c hc =>
    (Bool.or_eq_false_iff.1 (isMargin_of_isFormChar (h.isFormChar c hc))).1
  have hgroup : ∀ c ∈ cs, c ≠ '_' := by
    rintro _ hc rfl
    have := h.isFormChar '_' hc
    revert this
    decide
  rw [read, htrim, ungroup?_of_forall_ne hgroup, Option.bind_some]
  obtain ⟨hsign, hmantissa, hexponent⟩ := h
  rw [readPlain, readSign_append hsign (hmantissa.starts _)]
  dsimp only
  rw [ofName?_of_startsMantissa (hmantissa.starts _), readUnsigned_of_form hmantissa hexponent]
  rfl

end Binary64
end MetricQuery
