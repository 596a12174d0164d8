import MetricQuery.Proofs.Timestamp.Acceptance

/-!
# Canonical texts of one number

Integers are written exactly, and floating-point numbers and decimals through the nearest number.
The two ways agree below `10 ^ 16` on the integers that are numbers of the format. From there on an
integer is written in digits and every other value with an exponent.
-/

namespace MetricQuery

open NumberStyle Decimal

namespace Value

/-- A number with a sign, which makes no difference to zero. -/
def signed (negative : Bool) (a : ℚ) : ℚ := if negative then -a else a

/-- A number of seconds that a value denotes, and whether it has a minus: an integer, a finite
floating-point number, or a text of a decimal between blanks. -/
inductive Denotes : Value → Bool → ℚ → Prop
  | int (n : ℤ) : Denotes (.int n) (decide (n < 0)) n
  | float (negative : Bool) (m : Magnitude) :
    Denotes (.float (.finite negative m)) negative (signed negative m.value)
  | text {s : String} {negative : Bool} {d : Decimal} :
    Decimal.Form (trim isMargin s.toList) negative d →
    Denotes (.text s) negative (signed negative d.value)

def IsInteger (v : Value) : Prop := ∃ n, v = .int n

theorem not_isInteger_float (x : Binary64) : ¬(float x).IsInteger := by
  rintro ⟨n, hn⟩
  cases hn

theorem not_isInteger_text (s : String) : ¬(text s).IsInteger := by
  rintro ⟨n, hn⟩
  cases hn

theorem denotes_int {n : ℤ} {q : ℚ} (h : (n : ℚ) = q) : (int n).Denotes (decide (n < 0)) q :=
  h ▸ .int n

theorem denotes_text {s : String} {negative : Bool} {d : Decimal} {q : ℚ}
    (hread : Decimal.read Digit.value? (trim isMargin s.toList) = some (negative, d))
    (hvalue : signed negative d.value = q) : (text s).Denotes negative q :=
  hvalue ▸ .text (form_of_read hread)

theorem abs_signed (negative : Bool) {a : ℚ} (ha : 0 ≤ a) : |signed negative a| = a := by
  cases negative <;> simp [signed, abs_of_nonneg ha]

theorem negative_eq_of_signed_ne {negative : Bool} {a : ℚ} (ha : 0 ≤ a)
    (hne : signed negative a ≠ 0) : negative = decide (signed negative a < 0) := by
  cases negative with
  | false => simpa [signed] using ha
  | true =>
    have hpos : a ≠ 0 := fun hzero => hne (by simp [signed, hzero])
    simpa [signed] using lt_of_le_of_ne ha hpos.symm

/-- The sign is that of the number, unless that is zero. -/
theorem Denotes.negative_eq {v : Value} {negative : Bool} {q : ℚ} (h : v.Denotes negative q)
    (hne : q ≠ 0) : negative = decide (q < 0) := by
  cases h with
  | int n => simp
  | float negative m => exact negative_eq_of_signed_ne m.value_nonneg hne
  | @text _ _ d _ => exact negative_eq_of_signed_ne d.value_nonneg hne

theorem Denotes.negative_eq_int {v : Value} {negative : Bool} {n : ℤ} (h : v.Denotes negative n)
    (hne : n ≠ 0) : negative = decide (n < 0) := by
  rw [h.negative_eq (Int.cast_ne_zero.2 hne)]
  simp

end Value

namespace Timestamp

variable {v w : Value} {r r' : String} {s t : Bool} {q : ℚ} {m : Magnitude} {n : ℤ}

/-- The canonical text of an integer is exact, and that of any other value is the literal of the
nearest number. -/
theorem ofValue_of_denotes (hv : v.Denotes s q) (h : ofValue v = .ok r) :
    (∃ n : ℤ, v = .int n ∧ q = n ∧ s = decide (n < 0) ∧ r = toString n) ∨
      ¬v.IsInteger ∧ ∃ m, Magnitude.ofRat? |q| = some m ∧ r = literal.write (.finite s m) := by
  cases hv with
  | int n =>
    rw [ofValue] at h
    split at h
    · obtain rfl := Except.ok.inj h
      exact .inl ⟨n, rfl, rfl, rfl, rfl⟩
    · cases h
  | float negative m =>
    obtain rfl := Except.ok.inj h
    refine .inr ⟨Value.not_isInteger_float _, m, ?_, rfl⟩
    rw [Value.abs_signed _ m.value_nonneg, Magnitude.ofRat?_value]
  | @text v _ d hform =>
    refine .inr ⟨Value.not_isInteger_text _, ?_⟩
    rw [Value.abs_signed _ d.value_nonneg]
    rw [ofValue_text, readBy_eq_ok_iff, ofDecimal_eq_ok_iff, ofRfc3339_eq_ok_iff,
      String.toList_ofList, chompNewline_trim] at h
    rcases h with ⟨negative, d', m, hform', hround, rfl⟩ | ⟨-, m, z, i, hform', -⟩
    · obtain ⟨rfl, rfl⟩ := hform.unique hform'
      exact ⟨m, (Binary64.ofDecimal_eq_finite_iff.1 hround).2, rfl⟩
    · exact absurd hform (hform'.not_decimal _ d)

/-! ### The switch to exponents -/

theorem notMem_toString (n : ℤ) : 'e' ∉ (toString n).toList := by
  have hdigits : 'e' ∉ Digit.write n.natAbs := fun hmem =>
    Layout.ne_of_isDigit (Digit.isDigit_of_mem_write hmem) rfl rfl
  rw [toList_toString_int]
  cases decide (n < 0) with
  | false => exact hdigits
  | true => exact List.not_mem_cons_of_ne_of_not_mem (by decide) hdigits

/-- The nearest number does not fall below `10 ^ 16`. -/
theorem le_value_of_le (hround : Magnitude.ofRat? q = some m) (hq : (10 : ℚ) ^ 16 ≤ q) :
    (10 : ℚ) ^ 16 ≤ m.value := by
  have hq' : 0 ≤ q := le_trans (by norm_num) hq
  obtain ⟨m', hm'⟩ : ∃ m' : Magnitude, m'.value = (tenTo 16 : ℕ) :=
    Magnitude.exists_value_eq_of_even (by decide) (by decide)
  have hnearest := Magnitude.ofRat?_nearest hq' hround m'
  rw [hm', cast_tenTo, abs_of_nonpos (sub_nonpos.2 hq)] at hnearest
  by_contra hlt
  have := neg_le_of_abs_le hnearest
  linarith

theorem e_mem_write_iff (s : Bool) (m : Magnitude) : 'e' ∈ (literal.write (.finite s m)).toList ↔
    ¬(-4 ≤ (Shortest.decimal m).leading ∧ (Shortest.decimal m).leading ≤ 15) := by
  obtain ⟨l, htext, -, -, hexponent⟩ := exists_layout_write s m
  rw [htext, l.e_mem_text_iff, ← hexponent]

theorem e_mem_of_le (hround : Magnitude.ofRat? |q| = some m) (hq : (10 : ℚ) ^ 16 ≤ |q|) (s : Bool) :
    'e' ∈ (literal.write (.finite s m)).toList := by
  have hleading := le_leading_decimal (le_value_of_le hround hq)
  rw [e_mem_write_iff]
  omega

/-! ### Integers and other values -/

theorem form_toString (n : ℤ) :
    Decimal.Form (toString n).toList (decide (n < 0)) ⟨n.natAbs, 0⟩ := by
  have hnumeral := Numeral.of_isDigit fun _ => Digit.isDigit_of_mem_write (n := n.natAbs)
  rw [Digit.ofDigitChars_write] at hnumeral
  have hform {sign : List Char} {negative : Bool} (hsign : SignForm sign negative) :=
    Form.mk hsign (.whole (Digit.write_ne_nil _) hnumeral) .none
  simp only [List.append_nil, Nat.cast_zero, Int.sub_zero] at hform
  rw [toList_toString_int]
  cases decide (n < 0) with
  | false => exact hform .none
  | true => exact hform .minus

/-- The text of an integer is that of no number but the integer itself below `10 ^ 16`. -/
theorem of_toString_eq_write (h : toString n = literal.write (.finite t m)) :
    decide (n < 0) = t ∧ m.value < 10 ^ 16 ∧ (Shortest.decimal m).value = n.natAbs := by
  obtain ⟨l, htext, hvalue, -, -⟩ := exists_layout_write t m
  have hform := form_toString n
  rw [h, htext] at hform
  obtain ⟨hnegative, hdecimal⟩ := hform.unique (l.form t)
  refine ⟨hnegative, ?_, ?_⟩
  · by_contra hle
    have hleading := le_leading_decimal (not_lt.1 hle)
    have hmem : 'e' ∈ (literal.write (.finite t m)).toList := by
      rw [e_mem_write_iff]
      omega
    exact notMem_toString n (h ▸ hmem)
  · rw [← hvalue, ← hdecimal, Decimal.value, zpow_zero, mul_one]

/-- An integer has the text of the number nearest to it if it is that number and below
`10 ^ 16`. -/
theorem toString_eq_write_iff (hround : Magnitude.ofRat? |(n : ℚ)| = some m)
    (hsign : n ≠ 0 → t = decide (n < 0)) : toString n = literal.write (.finite t m) ↔
      ((n : ℚ) = 0 → decide (n < 0) = t) ∧ |(n : ℚ)| < 10 ^ 16 ∧
        ∃ m : Magnitude, m.value = |(n : ℚ)| := by
  have habs : |(n : ℚ)| = n.natAbs := by rw [Nat.cast_natAbs, Int.cast_abs]
  have hten : (10 : ℚ) ^ 16 = (tenTo 16 : ℕ) := (cast_tenTo 16).symm
  rw [habs] at hround ⊢
  rw [hten, Int.cast_eq_zero]
  constructor
  · intro heq
    obtain ⟨hnegative, hlt, hdecimal⟩ := of_toString_eq_write heq
    obtain ⟨k, hm⟩ := Magnitude.exists_natCast_eq_value hround
    rw [hten, hm, Nat.cast_lt] at hlt
    have hkn := (Shortest.value_decimal_of_natCast hm hlt).1
    rw [hdecimal, Nat.cast_inj] at hkn
    exact ⟨fun _ => hnegative, hkn ▸ Nat.cast_lt.2 hlt, m, hkn ▸ hm⟩
  · rintro ⟨hzero, hlt, m', hm'⟩
    rw [← hm', Magnitude.ofRat?_value] at hround
    obtain rfl := Option.some.inj hround
    have ht : t = decide (n < 0) := by
      by_cases hn : n = 0
      · exact (hzero hn).symm
      · exact hsign hn
    rw [write_of_natCast hm' (Nat.cast_lt.1 hlt), ← String.toList_inj, toList_toString_int,
      toList_signed, ht]

/-- **Which canonical texts of one number are equal.** Two accepted values that denote the same
number have the same canonical text exactly when they write zero with the same sign, and both or
neither are integers, or the number is below `10 ^ 16` and one of the format. From `10 ^ 16` on the
canonical text has an exponent exactly when the value is not an integer. -/
theorem ofValue_eq_iff (hv : v.Denotes s q) (hw : w.Denotes t q) (hr : ofValue v = .ok r)
    (hr' : ofValue w = .ok r') :
    (r = r' ↔ (q = 0 → s = t) ∧ ((v.IsInteger ↔ w.IsInteger) ∨
      |q| < 10 ^ 16 ∧ ∃ m : Magnitude, m.value = |q|)) ∧
    (10 ^ 16 ≤ |q| → ('e' ∈ r.toList ↔ ¬v.IsInteger)) := by
  rcases ofValue_of_denotes hv hr with ⟨n, rfl, rfl, rfl, rfl⟩ | ⟨hnot, m, hround, rfl⟩
  · refine ⟨?_, fun _ => iff_of_false (notMem_toString n) (not_not.2 ⟨n, rfl⟩)⟩
    rcases ofValue_of_denotes hw hr' with ⟨n', rfl, heq, rfl, rfl⟩ | ⟨hnot', m, hround, rfl⟩
    · obtain rfl := Int.cast_injective heq
      exact iff_of_true rfl ⟨fun _ => rfl, .inl Iff.rfl⟩
    · have hmixed : ¬((Value.int n).IsInteger ↔ w.IsInteger) := fun h => hnot' (h.1 ⟨n, rfl⟩)
      rw [toString_eq_write_iff hround hw.negative_eq_int, or_iff_right hmixed]
  · refine ⟨?_, fun hq => iff_of_true (e_mem_of_le hround hq s) hnot⟩
    rcases ofValue_of_denotes hw hr' with ⟨n, rfl, rfl, rfl, rfl⟩ | ⟨hnot', m', hround', rfl⟩
    · have hmixed : ¬(v.IsInteger ↔ (Value.int n).IsInteger) := fun h => hnot (h.2 ⟨n, rfl⟩)
      rw [eq_comm, toString_eq_write_iff hround hv.negative_eq_int, or_iff_right hmixed,
        eq_comm (a := s)]
    · obtain rfl := Option.some.inj (hround.symm.trans hround')
      constructor
      · intro heq
        obtain ⟨rfl, -⟩ := Binary64.finite.inj (write_injective heq)
        exact ⟨fun _ => rfl, .inl (iff_of_false hnot hnot')⟩
      · rintro ⟨hzero, -⟩
        have hsame : s = t := by
          by_cases hq : q = 0
          · exact hzero hq
          · rw [hv.negative_eq hq, hw.negative_eq hq]
        rw [hsame]

/-- A text and an integer of one number below `10 ^ 16` have one canonical text, so the number is
one of the format. -/
theorem ofValue_eq_iff_whole :
    ofValue (.int 1618922012) = .ok "1618922012" ∧
      ofValue (.text "1618922012.0") = .ok "1618922012" ∧
      ∃ m : Magnitude, m.value = 1618922012 := by
  have hint : (Value.int 1618922012).Denotes false 1618922012 :=
    Value.denotes_int (Int.cast_ofNat _)
  have htext : (Value.text "1618922012.0").Denotes false 1618922012 := by
    refine Value.denotes_text (d := ⟨16189220120, -1⟩) (by decide +kernel) ?_
    norm_num [Value.signed, Decimal.value]
  have hr : ofValue (.int 1618922012) = .ok "1618922012" :=
    toOption_eq_some_iff.1 (by decide +kernel)
  have hr' : ofValue (.text "1618922012.0") = .ok "1618922012" :=
    toOption_eq_some_iff.1 (by decide +kernel)
  obtain ⟨-, hmixed | ⟨-, m, hm⟩⟩ := (ofValue_eq_iff hint htext hr hr').1.1 rfl
  · exact absurd (hmixed.1 ⟨1618922012, rfl⟩) (Value.not_isInteger_text _)
  · exact ⟨hr, hr', m, by rw [hm]; norm_num⟩

/-- At `10 ^ 16` an integer is written in digits, and a text of the same number with an exponent.
Two texts of zero keep their signs. -/
theorem ofValue_ten_pow_sixteen :
    ((Value.int 10000000000000000).Denotes false (10 ^ 16) ∧
      (Value.text "1e16").Denotes false (10 ^ 16) ∧
      ofValue (.int 10000000000000000) = .ok "10000000000000000" ∧
      ofValue (.text "1e16") = .ok "1e+16") ∧
    ((Value.text "-0").Denotes true 0 ∧ (Value.text "0").Denotes false 0 ∧
      ofValue (.text "-0") = .ok "-0" ∧ ofValue (.text "0") = .ok "0") ∧
    (¬∀ v w s t q r r', Value.Denotes v s q → Value.Denotes w t q → ofValue v = .ok r →
      ofValue w = .ok r' → r = r') ∧
    ¬∀ v s q r, Value.Denotes v s q → ofValue v = .ok r → 10 ^ 16 ≤ |q| → 'e' ∈ r.toList := by
  have hint : (Value.int 10000000000000000).Denotes false (10 ^ 16) :=
    Value.denotes_int (by norm_num)
  have htext : (Value.text "1e16").Denotes false (10 ^ 16) := by
    refine Value.denotes_text (d := ⟨1, 16⟩) (by decide +kernel) ?_
    norm_num [Value.signed, Decimal.value]
  have hzero (s : String) (negative : Bool)
      (hread : Decimal.read Digit.value? (trim isMargin s.toList) = some (negative, ⟨0, 0⟩)) :
      (Value.text s).Denotes negative 0 := by
    refine Value.denotes_text hread ?_
    simp [Value.signed, Decimal.value]
  have hr : ofValue (.int 10000000000000000) = .ok "10000000000000000" :=
    toOption_eq_some_iff.1 (by decide +kernel)
  have hr' : ofValue (.text "1e16") = .ok "1e+16" := toOption_eq_some_iff.1 (by decide +kernel)
  refine ⟨⟨hint, htext, hr, hr'⟩, ⟨hzero _ _ (by decide +kernel), hzero _ _ (by decide +kernel),
    toOption_eq_some_iff.1 (by decide +kernel), toOption_eq_some_iff.1 (by decide +kernel)⟩,
    fun h => ?_, fun h => ?_⟩
  · have heq := h _ _ _ _ _ _ _ hint htext hr hr'
    revert heq
    decide
  · have hmem := h _ _ _ _ hint hr (by norm_num)
    revert hmem
    decide

end Timestamp
end MetricQuery
