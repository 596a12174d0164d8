import MetricQuery.Proofs.Number.Form
import MetricQuery.Proofs.Number.Shortest
import MetricQuery.Value.Number

/-!
# Number literals read back

The text of a number in the query language is a minus where one is due and a `Decimal.Layout`: ASCII
digits, a fraction that does not end in a zero, and an exponent with its sign. It writes the
shortest decimal of the number, so it reads back as that number.
-/

namespace MetricQuery

/-- A decimal as it is laid out: digits, the digits of a fraction, if there are any, and the sign
and the digits of an exponent, if there is one. -/
structure Decimal.Layout where
  whole : List Char
  fraction : List Char
  exponent : Option (Bool × List Char)
  whole_ne_nil : whole ≠ []
  whole_isDigit : ∀ c ∈ whole, c.isDigit
  fraction_isDigit : ∀ c ∈ fraction, c.isDigit
  exponent_ne_nil : ∀ e ∈ exponent, e.2 ≠ []
  exponent_isDigit : ∀ e ∈ exponent, ∀ c ∈ e.2, c.isDigit
  fraction_getLast? : fraction.getLast? ≠ some '0'

namespace Decimal.Layout

def fractionText (l : Layout) : List Char := if l.fraction = [] then [] else '.' :: l.fraction

def exponentText (l : Layout) : List Char :=
  l.exponent.elim [] fun e => 'e' :: (if e.1 then '-' else '+') :: e.2

def text (l : Layout) : List Char := l.whole ++ (l.fractionText ++ l.exponentText)

def exponentValue (l : Layout) : ℤ :=
  l.exponent.elim 0 fun e =>
    if e.1 then -(Nat.ofDigitChars 10 e.2 0 : ℤ) else Nat.ofDigitChars 10 e.2 0

/-- The decimal that is laid out. -/
def decimal (l : Layout) : Decimal :=
  ⟨Nat.ofDigitChars 10 (l.whole ++ l.fraction) 0, l.exponentValue - l.fraction.length⟩

/-- A text after a minus where one is due. -/
def signed (negative : Bool) (cs : List Char) : List Char := if negative then '-' :: cs else cs

/-- A layout without an exponent. -/
def unscaled (whole fraction : List Char) (hne : whole ≠ []) (hwhole : ∀ c ∈ whole, c.isDigit)
    (hfraction : ∀ c ∈ fraction, c.isDigit) (hlast : fraction.getLast? ≠ some '0') : Layout where
  whole := whole
  fraction := fraction
  exponent := none
  whole_ne_nil := hne
  whole_isDigit := hwhole
  fraction_isDigit := hfraction
  exponent_ne_nil := by simp
  exponent_isDigit := by simp
  fraction_getLast? := hlast

section
variable {whole fraction : List Char} {hne : whole ≠ []} {hwhole : ∀ c ∈ whole, c.isDigit}
  {hfraction : ∀ c ∈ fraction, c.isDigit} {hlast : fraction.getLast? ≠ some '0'}

theorem text_unscaled : (unscaled whole fraction hne hwhole hfraction hlast).text =
    whole ++ if fraction = [] then [] else '.' :: fraction :=
  congrArg (whole ++ ·) (List.append_nil _)

theorem value_unscaled : (unscaled whole fraction hne hwhole hfraction hlast).decimal.value =
    (Nat.ofDigitChars 10 (whole ++ fraction) 0 : ℕ) * 10 ^ (-(fraction.length : ℤ)) := by
  simp only [Decimal.value, decimal, exponentValue, unscaled, Option.elim_none, zero_sub]

end

/-! ### The form -/

theorem mantissaForm (l : Layout) : MantissaForm (l.whole ++ l.fractionText)
    (Nat.ofDigitChars 10 (l.whole ++ l.fraction) 0) l.fraction.length := by
  unfold fractionText
  split
  · rename_i h
    rw [h, List.append_nil]
    exact .whole l.whole_ne_nil (.of_isDigit l.whole_isDigit)
  · refine .point (fun h => l.whole_ne_nil (List.append_eq_nil_iff.1 h).1) (.of_isDigit ?_)
    exact List.forall_mem_append.2 ⟨l.whole_isDigit, l.fraction_isDigit⟩

theorem exponentForm (l : Layout) : ExponentForm l.exponentText l.exponentValue := by
  have hne := l.exponent_ne_nil
  have hdigits := l.exponent_isDigit
  unfold exponentText exponentValue
  cases h : l.exponent with
  | none => exact .none
  | some e =>
    obtain ⟨negative, ds⟩ := e
    rw [h] at hne hdigits
    have hsign : SignForm [if negative then '-' else '+'] negative := by
      cases negative
      · exact .plus
      · exact .minus
    exact .digits (.inl rfl) hsign (hne _ rfl) (.of_isDigit (hdigits _ rfl))

theorem form (l : Layout) (negative : Bool) : Form (signed negative l.text) negative l.decimal := by
  have hsign : SignForm (if negative then ['-'] else []) negative := by
    cases negative
    · exact .none
    · exact .minus
  have hform := Form.mk hsign l.mantissaForm l.exponentForm
  rw [List.append_assoc, ← text] at hform
  cases negative <;> exact hform

/-! ### Marks -/

theorem ne_of_isDigit {c mark : Char} (h : c.isDigit) (hmark : mark.isDigit = false) :
    c ≠ mark := by
  rintro rfl
  rw [h] at hmark
  cases hmark

theorem point_notMem_exponentText (l : Layout) : '.' ∉ l.exponentText := by
  have hdigits := l.exponent_isDigit
  unfold exponentText
  cases h : l.exponent with
  | none => exact List.not_mem_nil
  | some e =>
    rw [h] at hdigits
    refine List.not_mem_cons_of_ne_of_not_mem (by decide) (List.not_mem_cons_of_ne_of_not_mem ?_ ?_)
    · split <;> decide
    · exact fun hmem => ne_of_isDigit (hdigits e rfl '.' hmem) rfl rfl

/-- A point stands in front of a fraction, which is no single zero. -/
theorem not_suffix_text (l : Layout) (negative : Bool) :
    ¬['.', '0'] <:+ signed negative l.text := by
  have hwhole : '.' ∉ signed negative l.whole := by
    have hdigits : '.' ∉ l.whole := fun hmem => ne_of_isDigit (l.whole_isDigit '.' hmem) rfl rfl
    cases negative
    · exact hdigits
    · exact List.not_mem_cons_of_ne_of_not_mem (by decide) hdigits
  have htail : '.' ∉ l.fraction ++ l.exponentText := by
    refine List.mem_append.not.2 (not_or.2 ⟨fun hmem => ?_, l.point_notMem_exponentText⟩)
    exact ne_of_isDigit (l.fraction_isDigit '.' hmem) rfl rfl
  have htext : signed negative l.text = signed negative l.whole ++
      (l.fractionText ++ l.exponentText) := by
    cases negative <;> rfl
  rintro ⟨before, hsplit⟩
  rw [htext] at hsplit
  obtain ⟨bs, hbs⟩ : ∃ bs, l.fractionText ++ l.exponentText = bs ++ ['.', '0'] := by
    rcases List.append_eq_append_iff.1 hsplit with ⟨as, hwhole', has⟩ | ⟨bs, -, hbs⟩
    · cases as with
      | nil => exact ⟨[], has.symm⟩
      | cons c as =>
        obtain ⟨rfl, -⟩ := List.cons.inj has
        exact absurd (hwhole' ▸ List.mem_append_right _ List.mem_cons_self) hwhole
    · exact ⟨bs, hbs⟩
  unfold fractionText at hbs
  split at hbs
  · refine l.point_notMem_exponentText ?_
    rw [← List.nil_append l.exponentText, hbs]
    exact List.mem_append_right _ List.mem_cons_self
  · rename_i hne
    cases bs with
    | nil =>
      have hzero : l.fraction ++ l.exponentText = ['0'] := (List.cons.inj hbs).2
      refine l.fraction_getLast? ?_
      obtain ⟨hnil, -⟩ | ⟨hfraction, -⟩ := List.append_eq_singleton_iff.1 hzero
      · exact absurd hnil hne
      · rw [hfraction]
        rfl
    | cons b bs =>
      have hpoint : l.fraction ++ l.exponentText = bs ++ ['.', '0'] := (List.cons.inj hbs).2
      exact htail (hpoint ▸ List.mem_append_right _ List.mem_cons_self)

/-- The letter `e` marks the exponent. -/
theorem e_mem_text_iff (l : Layout) (negative : Bool) :
    'e' ∈ signed negative l.text ↔ l.exponent ≠ none := by
  have hdigits {ds : List Char} (h : ∀ c ∈ ds, c.isDigit) : 'e' ∉ ds := fun hmem =>
    ne_of_isDigit (h 'e' hmem) rfl rfl
  have hsign : 'e' ∈ signed negative l.text ↔ 'e' ∈ l.text := by
    cases negative <;> simp [signed]
  have hfraction : 'e' ∉ l.fractionText := by
    unfold fractionText
    split
    · exact List.not_mem_nil
    · exact List.not_mem_cons_of_ne_of_not_mem (by decide) (hdigits l.fraction_isDigit)
  rw [hsign, text, List.mem_append, List.mem_append, exponentText]
  cases l.exponent with
  | none => simp [hdigits l.whole_isDigit, hfraction]
  | some e => simp

end Decimal.Layout

namespace NumberStyle
open Decimal

/-! ### Layouts -/

variable {d : Decimal}

theorem isDigit_of_mem_replicate {n : ℕ} {c : Char} (h : c ∈ List.replicate n '0') :
    c.isDigit := by
  rw [List.eq_of_mem_replicate h]
  rfl

/-- Digits with a point before the last ones, after zeros if there are too few of them. -/
theorem exists_layout_point {digits : List Char} {places : ℕ} (hplaces_pos : 0 < places)
    (hne : digits ≠ []) (hdigits : ∀ c ∈ digits, c.isDigit) (hlast : digits.getLast? ≠ some '0') :
    ∃ l : Layout, (if places < digits.length then
        digits.take (digits.length - places) ++ '.' :: digits.drop (digits.length - places)
      else '0' :: '.' :: (List.replicate (places - digits.length) '0' ++ digits)) = l.text ∧
      l.decimal.value = (Nat.ofDigitChars 10 digits 0 : ℕ) * 10 ^ (-(places : ℤ)) ∧
      l.exponent = none := by
  split
  · rename_i hplaces
    obtain ⟨k, hk⟩ : ∃ k, digits.length - places = k := ⟨_, rfl⟩
    rw [hk]
    have hlength : (digits.drop k).length = places := by
      rw [List.length_drop]
      omega
    have hpos := hplaces_pos.trans_eq hlength.symm
    refine ⟨.unscaled (digits.take k) (digits.drop k) ?_
      (fun c hc => hdigits c (List.mem_of_mem_take hc))
      (fun c hc => hdigits c (List.mem_of_mem_drop hc)) ?_, ?_, ?_, rfl⟩
    · rw [← List.length_pos_iff, List.length_take]
      omega
    · rw [List.getLast?_drop, if_neg (by omega)]
      exact hlast
    · rw [Layout.text_unscaled, if_neg (List.length_pos_iff.1 hpos)]
    · rw [Layout.value_unscaled, List.take_append_drop, hlength]
  · rename_i hplaces
    have hlength : (List.replicate (places - digits.length) '0' ++ digits).length = places := by
      rw [List.length_append, List.length_replicate]
      omega
    have hpos := hplaces_pos.trans_eq hlength.symm
    have hzero : ['0'] = List.replicate 1 '0' := rfl
    refine ⟨.unscaled ['0'] (List.replicate (places - digits.length) '0' ++ digits)
      (List.cons_ne_nil _ _) (List.forall_mem_singleton.2 rfl)
      (List.forall_mem_append.2 ⟨fun _ => isDigit_of_mem_replicate, hdigits⟩) ?_, ?_, ?_, rfl⟩
    · rwa [List.getLast?_append_of_ne_nil _ hne]
    · rw [Layout.text_unscaled, if_neg (List.length_pos_iff.1 hpos)]
      rfl
    · rw [Layout.value_unscaled, hlength, hzero, Digit.ofDigitChars_replicate_append,
        Digit.ofDigitChars_replicate_append]

theorem exists_layout_positional
    (h : 0 ≤ d.exponent ∨ (Digit.write d.coefficient).getLast? ≠ some '0') :
    ∃ l : Layout, literal.positional d = l.text ∧ l.decimal.value = d.value ∧
      l.exponent = none := by
  have hwrite : ∀ c ∈ Digit.write d.coefficient, c.isDigit := fun _ => Digit.isDigit_of_mem_write
  unfold positional Decimal.value
  cases hexponent : d.exponent with
  | ofNat e =>
    have hlast : ([] : List Char).getLast? ≠ some '0' := by simp
    refine ⟨.unscaled (Digit.write d.coefficient ++ List.replicate e '0') [] ?_ ?_
      (List.forall_mem_nil _) hlast, ?_, ?_, rfl⟩
    · exact fun hnil => Digit.write_ne_nil _ (List.append_eq_nil_iff.1 hnil).1
    · exact List.forall_mem_append.2 ⟨hwrite, fun _ => isDigit_of_mem_replicate⟩
    · rw [Layout.text_unscaled, if_pos rfl]
      rfl
    · rw [← Decimal.value, Layout.value_unscaled]
      simp [Nat.ofDigitChars_append, Nat.ofDigitChars_replicate_zero, Digit.ofDigitChars_write,
        mul_comm]
  | negSucc e =>
    have hlast := h.resolve_left (by rw [hexponent]; exact (Int.negSucc_not_nonneg e).1)
    have hlayout := exists_layout_point (Nat.succ_pos e) (Digit.write_ne_nil _) hwrite hlast
    rw [Digit.ofDigitChars_write] at hlayout
    exact hlayout

theorem exists_layout_scientific (h : (Digit.write d.coefficient).getLast? ≠ some '0') :
    ∃ l : Layout, scientific d = l.text ∧ l.decimal.value = d.value ∧ l.exponent ≠ none := by
  have hwrite : ∀ c ∈ Digit.write d.coefficient, c.isDigit := fun _ => Digit.isDigit_of_mem_write
  have hnumber := Digit.ofDigitChars_write d.coefficient
  obtain ⟨first, rest, hdigits⟩ := List.exists_cons_of_ne_nil (Digit.write_ne_nil d.coefficient)
  rw [hdigits] at h hwrite hnumber
  obtain ⟨hfirst, hrest⟩ := List.forall_mem_cons.1 hwrite
  obtain ⟨e, he⟩ : ∃ e : ℤ, d.exponent + rest.length = e := ⟨_, rfl⟩
  have htext : scientific d = first :: ((if rest = [] then [] else '.' :: rest) ++
      'e' :: (if e < 0 then '-' else '+') :: Digit.writePadded 2 e.natAbs) := by
    have hexponent : d.exponent + (((first :: rest).length : ℤ) - 1) = e := by
      rw [List.length_cons]
      omega
    unfold scientific
    rw [hdigits]
    dsimp only
    rw [hexponent]
    cases rest <;> rfl
  have hsigned : (if decide (e < 0) then -(e.natAbs : ℤ) else e.natAbs) = e := by
    split <;> rename_i hsign <;> rw [decide_eq_true_eq] at hsign <;> omega
  rw [htext]
  refine ⟨⟨[first], rest, some (decide (e < 0), Digit.writePadded 2 e.natAbs), by simp, by simpa,
    hrest, ?_, ?_, ?_⟩, ?_, ?_, nofun⟩
  · rintro _ ⟨⟩
    exact List.append_ne_nil_of_right_ne_nil _ (Digit.write_ne_nil _)
  · rintro _ ⟨⟩ c hc
    exact Digit.isDigit_of_mem_writePadded hc
  · cases rest with
    | nil => nofun
    | cons next rest => rwa [List.getLast?_cons_cons] at h
  · simp [Layout.text, Layout.fractionText, Layout.exponentText]
  · show ((Nat.ofDigitChars 10 (first :: rest) 0 : ℕ) : ℚ) * 10 ^ ((if decide (e < 0) then
        -(Nat.ofDigitChars 10 (Digit.writePadded 2 e.natAbs) 0 : ℤ)
      else Nat.ofDigitChars 10 (Digit.writePadded 2 e.natAbs) 0) - rest.length) = _
    rw [hnumber, Digit.ofDigitChars_writePadded, hsigned, ← he, add_sub_cancel_right]
    rfl

/-- The text of a number has an exponent from `10 ^ 16` on. -/
theorem exists_layout (hzero : d = ⟨0, 0⟩ ∨ (Digit.write d.coefficient).getLast? ≠ some '0') :
    ∃ l : Layout, literal.layout d = l.text ∧ l.decimal.value = d.value ∧
      (l.exponent = none ↔ -4 ≤ d.leading ∧ d.leading ≤ 15) := by
  unfold layout
  dsimp only
  rw [← Decimal.leading]
  split
  · rename_i hrange
    have h : 0 ≤ d.exponent ∨ (Digit.write d.coefficient).getLast? ≠ some '0' :=
      hzero.imp_left fun heq => by rw [heq]
    obtain ⟨l, htext, hvalue, hexponent⟩ := exists_layout_positional h
    exact ⟨l, htext, hvalue, iff_of_true hexponent hrange⟩
  · rename_i hrange
    have h : (Digit.write d.coefficient).getLast? ≠ some '0' := by
      refine hzero.resolve_left ?_
      rintro rfl
      exact hrange (by decide)
    obtain ⟨l, htext, hvalue, hexponent⟩ := exists_layout_scientific h
    exact ⟨l, htext, hvalue, iff_of_false hexponent hrange⟩

theorem exists_layout_decimal (m : Magnitude) :
    ∃ l : Layout, literal.layout (Shortest.decimal m) = l.text ∧
      l.decimal.value = (Shortest.decimal m).value ∧
      (l.exponent = none ↔
        -4 ≤ (Shortest.decimal m).leading ∧ (Shortest.decimal m).leading ≤ 15) := by
  refine exists_layout ?_
  by_cases h : m = .zero
  · exact .inl (h ▸ Shortest.decimal_zero)
  · exact .inr (Shortest.digits_decimal h).2

/-! ### Texts of numbers -/

theorem toList_signed (negative : Bool) (cs : List Char) :
    (signed negative (String.ofList cs)).toList = Layout.signed negative cs := by
  cases negative with
  | false => exact String.toList_ofList
  | true =>
    have hminus : "-".toList = ['-'] := rfl
    simp [signed, Layout.signed, hminus]

/-- The text of a finite number is a layout that reads back as the number. -/
theorem exists_layout_write (negative : Bool) (m : Magnitude) : ∃ l : Layout,
    (literal.write (.finite negative m)).toList = Layout.signed negative l.text ∧
      l.decimal.value = (Shortest.decimal m).value ∧
      Binary64.ofDecimal negative l.decimal = .finite negative m ∧
      (l.exponent = none ↔
        -4 ≤ (Shortest.decimal m).leading ∧ (Shortest.decimal m).leading ≤ 15) := by
  obtain ⟨l, htext, hvalue, hexponent⟩ := exists_layout_decimal m
  refine ⟨l, ?_, hvalue, ?_, hexponent⟩
  · rw [write, toList_signed, htext]
  · rw [Binary64.ofDecimal_eq, hvalue, ← Binary64.ofDecimal_eq, Shortest.ofDecimal_decimal]

/-- **The text of a number reads back as that number.** -/
theorem readNumber_write (x : Binary64) : readNumber (literal.write x) = .ok x := by
  have hread : Binary64.read Digit.value? (literal.write x).toList = some x := by
    cases x with
    | nan => decide +kernel
    | infinite negative => cases negative <;> decide +kernel
    | finite negative m =>
      obtain ⟨l, htext, -, hreads, -⟩ := exists_layout_write negative m
      rw [htext, Binary64.read_of_form (l.form negative), hreads]
  rw [readNumber, hread]

theorem write_injective : Function.Injective literal.write := fun x y h =>
  Except.ok.inj
    ((readNumber_write x).symm.trans ((congrArg readNumber h).trans (readNumber_write y)))

/-! ### Whole numbers -/

variable {m : Magnitude}

theorem le_leading_decimal (h : (10 : ℚ) ^ 16 ≤ m.value) : 16 ≤ (Shortest.decimal m).leading := by
  have hten : (1 : ℚ) < 10 := by norm_num
  have hne : m ≠ .zero := by
    rintro rfl
    rw [Magnitude.value_zero] at h
    exact absurd h (by norm_num)
  have htop : (10 : ℚ) ^ (16 : ℤ) < 10 ^ (Shortest.top m + 1) :=
    h.trans_lt (Shortest.top_spec hne).2
  have hleading := (Shortest.le_value_decimal hne).trans_lt (Decimal.value_lt _)
  have := (zpow_lt_zpow_iff_right₀ hten).1 htop
  have := (zpow_lt_zpow_iff_right₀ hten).1 hleading
  omega

/-- A coefficient is followed by a zero for each power of ten. -/
theorem positional_natCast {c : ℕ} (hc : c ≠ 0) (e : ℕ) :
    literal.positional ⟨c, e⟩ = Digit.write (c * tenTo e) := by
  have hnumber : Nat.ofDigitChars 10 (List.replicate e '0') c = c * tenTo e := by
    rw [Nat.ofDigitChars_replicate_zero, Nat.mul_comm]
    rfl
  rw [← hnumber, Digit.write_ofDigitChars_of_pos (Nat.pos_of_ne_zero hc) fun _ =>
    isDigit_of_mem_replicate]
  simp [positional, literal]

theorem leading_of_value_lt {d : Decimal} (hc : d.coefficient ≠ 0) (he : 0 ≤ d.exponent)
    (hlt : d.value < tenTo 16) : 0 ≤ d.leading ∧ d.leading ≤ 15 := by
  have hlow := Digit.count_pos d.coefficient
  have hpower : (10 : ℚ) ^ d.leading < 10 ^ (16 : ℤ) :=
    ((Decimal.le_value hc).trans_lt hlt).trans_eq (cast_tenTo 16)
  have hhigh := (zpow_lt_zpow_iff_right₀ (by norm_num)).1 hpower
  unfold Decimal.leading at hhigh ⊢
  omega

/-- The text of a whole number below `10 ^ 16` is its digits. -/
theorem write_of_natCast {k : ℕ} (hvalue : m.value = k) (hk : k < tenTo 16) (negative : Bool) :
    literal.write (.finite negative m) = signed negative (String.ofList (Digit.write k)) := by
  rw [write]
  refine congrArg (fun cs => signed negative (String.ofList cs)) ?_
  by_cases h : m = .zero
  · subst h
    rw [Magnitude.value_zero] at hvalue
    obtain rfl : 0 = k := by exact_mod_cast hvalue
    rw [Shortest.decimal_zero]
    rfl
  obtain ⟨hdecimal, hexponent⟩ := Shortest.value_decimal_of_natCast hvalue hk
  have hcoefficient := (Shortest.digits_decimal h).1
  have hleading := leading_of_value_lt hcoefficient hexponent (hdecimal ▸ Nat.cast_lt.2 hk)
  generalize Shortest.decimal m = d at *
  obtain ⟨c, e⟩ := d
  obtain ⟨e, rfl⟩ := Int.eq_ofNat_of_zero_le hexponent
  have hk' : c * tenTo e = k := by
    rw [Decimal.value, zpow_natCast, ← cast_tenTo, ← Nat.cast_mul] at hdecimal
    exact Nat.cast_injective hdecimal
  have hrange : -4 ≤ Decimal.leading ⟨c, e⟩ ∧ Decimal.leading ⟨c, e⟩ ≤ 15 :=
    ⟨by omega, hleading.2⟩
  exact (if_pos hrange).trans (hk' ▸ positional_natCast hcoefficient e)

end NumberStyle

/-! ### Integers -/

theorem toList_toString_int (n : ℤ) :
    (toString n).toList = Decimal.Layout.signed (decide (n < 0)) (Digit.write n.natAbs) := by
  rw [Int.toString_eq_repr, Int.repr_eq_if]
  split
  · rename_i hn
    have habs : n.toNat = n.natAbs := by omega
    rw [habs, Nat.toList_repr, decide_eq_false (Int.not_lt.2 hn)]
    rfl
  · rename_i hn
    have hminus : "-".toList = ['-'] := rfl
    have habs : (-n).toNat = n.natAbs := by omega
    rw [habs, decide_eq_true (Int.not_le.1 hn), String.toList_append, Nat.toList_repr, hminus]
    rfl

end MetricQuery
