import MetricQuery.Number.Shortest
import MetricQuery.Proofs.Number.Value

/-!
# The shortest decimal of a number

The decimal of a magnitude reads back as that magnitude: on the grid of the seventeenth digit the
nearer neighbour always does. It is no less than the power of ten of the leading digit, and a whole
number below `10 ^ 16` has itself for its decimal.
-/

namespace MetricQuery
namespace Shortest

/-! ### The leading digit -/

theorem leadingExponent_spec {num den : ℕ} (hden : 0 < den) (h : den ≤ num * tenTo 400) :
    (10 : ℚ) ^ leadingExponent num den ≤ num / den ∧
      (num : ℚ) / den < 10 ^ (leadingExponent num den + 1) := by
  have hpositive : num * tenTo 400 / den ≠ 0 := (Nat.div_pos h hden).ne'
  have hcount := Digit.count_pos (num * tenTo 400 / den)
  have hlow : tenTo (Digit.count (num * tenTo 400 / den) - 1) * den ≤ num * tenTo 400 :=
    (Nat.le_div_iff_mul_le hden).1 (Digit.tenTo_count_le hpositive)
  have hhigh : num * tenTo 400 < tenTo (Digit.count (num * tenTo 400 / den)) * den :=
    (Nat.div_lt_iff_lt_mul hden).1 (Digit.lt_tenTo_count _)
  unfold leadingExponent
  generalize Digit.count (num * tenTo 400 / den) = count at hcount hlow hhigh
  have hdenq : (0 : ℚ) < den := Nat.cast_pos.2 hden
  have hscale (e : ℤ) : (10 : ℚ) ^ e * 10 ^ 400 = 10 ^ (e + 400) := by
    rw [zpow_add₀ (by norm_num)]
    rfl
  have hten : (0 : ℚ) < 10 ^ 400 := pow_pos (by norm_num) 400
  constructor
  · rw [le_div_iff₀ hdenq, ← mul_le_mul_iff_of_pos_right hten, mul_right_comm, hscale,
      show (count : ℤ) - 401 + 400 = (count - 1 : ℕ) by omega, zpow_natCast, ← cast_tenTo,
      ← cast_tenTo]
    exact_mod_cast hlow
  · rw [div_lt_iff₀ hdenq, ← mul_lt_mul_iff_of_pos_right hten, mul_right_comm, hscale,
      show (count : ℤ) - 401 + 1 + 400 = (count : ℕ) by omega, zpow_natCast, ← cast_tenTo,
      ← cast_tenTo]
    exact_mod_cast hhigh

/-! ### Neighbours on a grid -/

variable {den : ℕ}

theorem onGrid_spec (num : ℕ) (hden : 0 < den) (e : ℤ) :
    0 < (onGrid num den e).2.2 ∧ (onGrid num den e).2.1 < (onGrid num den e).2.2 ∧
      (num : ℚ) / den = ((onGrid num den e).1 +
        ((onGrid num den e).2.1 : ℚ) / (onGrid num den e).2.2) * 10 ^ e := by
  have hsplit (a : ℕ) {b : ℕ} (hb : 0 < b) :
      ((a / b : ℕ) : ℚ) + ((a % b : ℕ) : ℚ) / b = a / b := by
    have hbq : (b : ℚ) ≠ 0 := Nat.cast_ne_zero.2 hb.ne'
    rw [eq_div_iff hbq, add_mul, div_mul_cancel₀ _ hbq]
    exact_mod_cast Nat.div_add_mod' a b
  have hdenq : (den : ℚ) ≠ 0 := Nat.cast_ne_zero.2 hden.ne'
  cases e with
  | ofNat e =>
    have hdivisor : 0 < den * tenTo e := Nat.mul_pos hden (tenTo_pos e)
    refine ⟨hdivisor, Nat.mod_lt _ hdivisor, ?_⟩
    simp only [onGrid]
    rw [hsplit _ hdivisor, Int.ofNat_eq_natCast, zpow_natCast, Nat.cast_mul, cast_tenTo]
    have hten : (10 : ℚ) ^ e ≠ 0 := pow_ne_zero e (by norm_num)
    field_simp
  | negSucc e =>
    refine ⟨hden, Nat.mod_lt _ hden, ?_⟩
    simp only [onGrid]
    rw [hsplit _ hden, zpow_negSucc, Nat.cast_mul, cast_tenTo]
    have hten : (10 : ℚ) ^ (e + 1) ≠ 0 := pow_ne_zero _ (by norm_num)
    field_simp

variable {m : Magnitude} {d : Decimal} {e : ℤ}

/-- The lower neighbour of a magnitude on a grid, in steps of the grid. -/
def lower (m : Magnitude) (e : ℤ) : ℕ := (onGrid m.units Magnitude.unitsPerOne e).1

/-- A magnitude on a grid. -/
theorem value_onGrid (m : Magnitude) (e : ℤ) :
    0 < (onGrid m.units Magnitude.unitsPerOne e).2.2 ∧
      (onGrid m.units Magnitude.unitsPerOne e).2.1 < (onGrid m.units Magnitude.unitsPerOne e).2.2 ∧
      m.value = ((onGrid m.units Magnitude.unitsPerOne e).1 +
        ((onGrid m.units Magnitude.unitsPerOne e).2.1 : ℚ) /
          (onGrid m.units Magnitude.unitsPerOne e).2.2) * 10 ^ e :=
  onGrid_spec m.units (twoTo_pos 1074) e

theorem lower_mul_le (m : Magnitude) (e : ℤ) : lower m e * (10 : ℚ) ^ e ≤ m.value := by
  obtain ⟨-, -, hvalue⟩ := value_onGrid m e
  rw [hvalue, lower]
  refine mul_le_mul_of_nonneg_right ?_ (Decimal.ten_zpow_pos e).le
  exact le_add_of_nonneg_right (div_nonneg (Nat.cast_nonneg _) (Nat.cast_nonneg _))

theorem value_lt_lower_add_one_mul (m : Magnitude) (e : ℤ) :
    m.value < (lower m e + 1) * (10 : ℚ) ^ e := by
  obtain ⟨hdivisor, hrest, hvalue⟩ := value_onGrid m e
  rw [hvalue, lower]
  refine mul_lt_mul_of_pos_right (add_lt_add_right ?_ _) (Decimal.ten_zpow_pos e)
  rw [div_lt_one (Nat.cast_pos.2 hdivisor)]
  exact Nat.cast_lt.2 hrest

/-- The neighbour within half a step is tried first, then the other one. -/
theorem candidate?_eq (m : Magnitude) (e : ℤ) : ∃ first second : ℕ,
    (first = lower m e ∧ second = lower m e + 1 ∨ first = lower m e + 1 ∧ second = lower m e) ∧
      |m.value - first * 10 ^ e| * 2 ≤ 10 ^ e ∧
      candidate? m e = if Binary64.ofDecimal false ⟨first, e⟩ = .finite false m then some ⟨first, e⟩
        else if Binary64.ofDecimal false ⟨second, e⟩ = .finite false m then some ⟨second, e⟩
        else none := by
  obtain ⟨hdivisor, hrest, hvalue⟩ := value_onGrid m e
  unfold candidate? lower
  rw [hvalue]
  generalize onGrid m.units Magnitude.unitsPerOne e = grid at hdivisor hrest ⊢
  obtain ⟨low, rest, divisor⟩ := grid
  dsimp only at hdivisor hrest ⊢
  have hdivisorq : (0 : ℚ) < divisor := Nat.cast_pos.2 hdivisor
  have hten := Decimal.ten_zpow_pos e
  split
  · rename_i hupper
    refine ⟨low + 1, low, .inr ⟨rfl, rfl⟩, ?_, by simp only [beq_iff_eq]⟩
    have hhalf : divisor ≤ 2 * rest := by
      simp only [Bool.or_eq_true, decide_eq_true_eq, Bool.and_eq_true, beq_iff_eq] at hupper
      omega
    have hsub : (low + (rest : ℚ) / divisor) * 10 ^ e - (low + 1 : ℕ) * 10 ^ e =
        -((1 - rest / divisor) * 10 ^ e) := by
      push_cast
      ring
    have hle : (1 : ℚ) ≤ 2 * (rest / divisor) := by
      rw [← mul_div_assoc, one_le_div hdivisorq]
      exact_mod_cast hhalf
    have hpos : (0 : ℚ) ≤ 1 - rest / divisor := by
      rw [sub_nonneg, div_le_one hdivisorq]
      exact_mod_cast hrest.le
    rw [hsub, abs_neg, abs_of_nonneg (mul_nonneg hpos hten.le), mul_right_comm]
    exact mul_le_of_le_one_left hten.le (by linarith)
  · rename_i hupper
    refine ⟨low, low + 1, .inl ⟨rfl, rfl⟩, ?_, by simp only [beq_iff_eq]⟩
    have hhalf : 2 * rest ≤ divisor := by
      simp only [Bool.or_eq_true, decide_eq_true_eq, Bool.and_eq_true, beq_iff_eq] at hupper
      omega
    have hsub : (low + (rest : ℚ) / divisor) * 10 ^ e - low * 10 ^ e = rest / divisor * 10 ^ e := by
      ring
    have hle : 2 * ((rest : ℚ) / divisor) ≤ 1 := by
      rw [← mul_div_assoc, div_le_one hdivisorq]
      exact_mod_cast hhalf
    have hpos : (0 : ℚ) ≤ rest / divisor := div_nonneg (Nat.cast_nonneg _) (Nat.cast_nonneg _)
    rw [hsub, abs_of_nonneg (mul_nonneg hpos hten.le), mul_right_comm]
    exact mul_le_of_le_one_left hten.le (by linarith)

theorem candidate?_eq_some (h : candidate? m e = some d) :
    d.exponent = e ∧ (d.coefficient = lower m e ∨ d.coefficient = lower m e + 1) ∧
      Magnitude.ofRat? d.value = some m := by
  obtain ⟨first, second, hneighbours, -, hcandidate⟩ := candidate?_eq m e
  rw [hcandidate] at h
  simp only [Binary64.ofDecimal_eq_finite_iff, true_and] at h
  split_ifs at h with hfirst hsecond
  · obtain rfl := Option.some.inj h
    exact ⟨rfl, hneighbours.imp And.left And.left, hfirst⟩
  · obtain rfl := Option.some.inj h
    exact ⟨rfl, hneighbours.symm.imp And.right And.right, hsecond⟩

/-- On a grid that has the magnitude itself, the magnitude is the candidate. -/
theorem candidate?_of_eq (h : lower m e * (10 : ℚ) ^ e = m.value) :
    candidate? m e = some ⟨lower m e, e⟩ := by
  obtain ⟨first, second, hneighbours, hnear, hcandidate⟩ := candidate?_eq m e
  have hfirst : first = lower m e := by
    rcases hneighbours with ⟨rfl, -⟩ | ⟨rfl, -⟩
    · rfl
    · have hten := Decimal.ten_zpow_pos e
      have hsub : (lower m e : ℚ) * 10 ^ e - (lower m e + 1 : ℕ) * 10 ^ e = -10 ^ e := by
        push_cast
        ring
      rw [← h, hsub, abs_neg, abs_of_pos hten] at hnear
      linarith
  have hreads : Magnitude.ofRat? (Decimal.value ⟨lower m e, e⟩) = some m := by
    rw [Decimal.value, h, Magnitude.ofRat?_value]
  rw [hcandidate, hfirst, if_pos (Binary64.ofDecimal_eq_finite_iff.2 ⟨rfl, hreads⟩)]

/-- On a grid with steps of less than `2 ^ -53` of the magnitude there is a candidate. -/
theorem isSome_candidate? (h : 10 ^ e * 2 ^ 53 < m.value) : (candidate? m e).isSome := by
  obtain ⟨first, second, -, hnear, hcandidate⟩ := candidate?_eq m e
  have hfirst : Magnitude.ofRat? (Decimal.value ⟨first, e⟩) = some m := by
    refine Magnitude.ofRat?_of_near (Decimal.value_nonneg _) (lt_of_le_of_lt ?_ h)
    rw [show (2 : ℚ) ^ 54 = 2 * 2 ^ 53 from pow_succ' 2 53, ← mul_assoc]
    exact mul_le_mul_of_nonneg_right hnear (pow_nonneg zero_le_two 53)
  rw [hcandidate, if_pos (Binary64.ofDecimal_eq_finite_iff.2 ⟨rfl, hfirst⟩)]
  rfl

/-! ### Zeros at the end -/

/-- The digits of a number that is not zero, up to the zeros at their end. -/
theorem write_eq_append_zeros {n : ℕ} (h : n ≠ 0) : ∃ core,
    Digit.IsPlain core ∧ core.getLast? ≠ some '0' ∧
      Digit.write n = core ++ List.replicate
        ((Digit.write n).reverse.takeWhile (· == '0')).length '0' := by
  have hsplit := Scan.run_fst_append_snd (· == '0') (Digit.write n).reverse
  have hzeros : (Scan.run (· == '0') (Digit.write n).reverse).1 =
      List.replicate (Scan.run (· == '0') (Digit.write n).reverse).1.length '0' := by
    refine List.eq_replicate_of_mem fun c hc => ?_
    exact eq_of_beq (Scan.of_mem_run (p := (· == '0')) hc)
  have hstop := Scan.stops_run (· == '0') (Digit.write n).reverse
  change ∃ core, _ ∧ _ ∧ _ = core ++ List.replicate
    (Scan.run (· == '0') (Digit.write n).reverse).1.length '0'
  generalize (Scan.run (· == '0') (Digit.write n).reverse).1 = zeros at *
  generalize (Scan.run (· == '0') (Digit.write n).reverse).2 = rest at *
  have hwrite : Digit.write n = rest.reverse ++ List.replicate zeros.length '0' := by
    rw [← List.reverse_reverse (Digit.write n), ← hsplit, List.reverse_append, hzeros,
      List.reverse_replicate, List.length_replicate]
  have hplain := Digit.isPlain_write n
  refine ⟨rest.reverse, ⟨?_, fun c hc => ?_, fun hhead => ?_⟩, ?_, hwrite⟩
  · rintro hnil
    rw [hnil, List.nil_append] at hwrite
    refine h ?_
    rw [← Digit.ofDigitChars_write n, hwrite, Nat.ofDigitChars_replicate_zero, Nat.mul_zero]
  · exact hplain.isDigit c (hwrite ▸ List.mem_append_left _ hc)
  · have hzero : Digit.write n = ['0'] := by
      refine hplain.eq_zero ?_
      rw [hwrite, List.head?_append, hhead]
      rfl
    refine absurd (Digit.write_injective (hzero.trans ?_)) h
    rfl
  · rw [List.getLast?_reverse]
    intro hlast
    have := hstop '0' hlast
    cases this

/-- Zeros at the end of a coefficient go into the exponent, and the digits that are left end in
another digit. -/
theorem strip_spec (h : d.coefficient ≠ 0) : ∃ n zeros : ℕ,
    strip d = ⟨n, d.exponent + zeros⟩ ∧ d.coefficient = n * tenTo zeros ∧
      (Digit.write n).getLast? ≠ some '0' := by
  obtain ⟨core, hplain, hlast, hwrite⟩ := write_eq_append_zeros h
  unfold strip
  dsimp only
  rw [if_neg h]
  generalize ((Digit.write d.coefficient).reverse.takeWhile (· == '0')).length = zeros at *
  have hcoefficient : d.coefficient = Nat.ofDigitChars 10 core 0 * tenTo zeros := by
    rw [← Digit.ofDigitChars_write d.coefficient, hwrite, Nat.ofDigitChars_append,
      Nat.ofDigitChars_replicate_zero, Nat.mul_comm]
    rfl
  refine ⟨Nat.ofDigitChars 10 core 0, zeros, ?_, hcoefficient, ?_⟩
  · rw [hcoefficient, Nat.mul_div_cancel _ (tenTo_pos zeros)]
  · rwa [Digit.write_ofDigitChars hplain]

theorem value_strip (d : Decimal) : (strip d).value = d.value := by
  by_cases h : d.coefficient = 0
  · rw [strip, if_pos h, Decimal.value, Decimal.value, h, Nat.cast_zero, zero_mul, zero_mul]
  · obtain ⟨n, zeros, hstrip, hcoefficient, -⟩ := strip_spec h
    rw [hstrip, Decimal.value, Decimal.value, hcoefficient, zpow_add₀ (by norm_num), zpow_natCast,
      Nat.cast_mul, cast_tenTo]
    ring

/-! ### The decimal -/

/-- The exponent of the leading digit of a magnitude. -/
def top (m : Magnitude) : ℤ := leadingExponent m.units Magnitude.unitsPerOne

theorem top_spec (h : m ≠ .zero) : (10 : ℚ) ^ top m ≤ m.value ∧ m.value < 10 ^ (top m + 1) := by
  refine leadingExponent_spec (twoTo_pos 1074) ?_
  have hunits : 1 ≤ m.units :=
    Nat.one_le_iff_ne_zero.2 fun hzero => h (Magnitude.eq_zero_of_units_eq_zero hzero)
  have hpower : Magnitude.unitsPerOne ≤ tenTo 400 := by decide +kernel
  exact Nat.le_trans hpower (Nat.le_mul_of_pos_left _ hunits)

theorem findSome?_range_eq_some {α : Type} {f : ℕ → Option α} {a : α} {k : ℕ}
    (h : (List.range k).findSome? f = some a) :
    ∃ n < k, f n = some a ∧ ∀ i < n, f i = none := by
  induction k with
  | zero => cases h
  | succ k ih =>
    rw [List.range_succ, List.findSome?_append] at h
    cases hfound : (List.range k).findSome? f with
    | some b =>
      rw [hfound] at h
      obtain rfl := Option.some.inj h
      obtain ⟨n, hn, hspec⟩ := ih hfound
      exact ⟨n, Nat.lt_succ_of_lt hn, hspec⟩
    | none =>
      rw [hfound, Option.none_or] at h
      refine ⟨k, Nat.lt_succ_self k, by simpa using h, fun i hi => ?_⟩
      exact List.findSome?_eq_none_iff.1 hfound i (List.mem_range.2 hi)

/-- A power of ten, in steps that are `n` digits smaller. -/
theorem ten_zpow_eq (t : ℤ) (n : ℕ) : (10 : ℚ) ^ t = tenTo n * 10 ^ (t - n) := by
  rw [cast_tenTo, ← zpow_natCast, ← zpow_add₀ (by norm_num), add_sub_cancel]

theorem lower_lt (h : m ≠ .zero) (n : ℕ) : lower m (top m - n) < tenTo (n + 1) := by
  have hlt := (lower_mul_le m (top m - n)).trans_lt (top_spec h).2
  rw [ten_zpow_eq (top m + 1) (n + 1), Nat.cast_succ, add_sub_add_right_eq_sub,
    mul_lt_mul_iff_of_pos_right (Decimal.ten_zpow_pos _)] at hlt
  exact Nat.cast_lt.1 hlt

theorem tenTo_le_lower (h : m ≠ .zero) (n : ℕ) : tenTo n ≤ lower m (top m - n) := by
  have hlt := (top_spec h).1.trans_lt (value_lt_lower_add_one_mul m (top m - n))
  rw [ten_zpow_eq _ n, mul_lt_mul_iff_of_pos_right (Decimal.ten_zpow_pos _)] at hlt
  exact Nat.le_of_lt_succ (by exact_mod_cast hlt)

/-- The decimal comes from the first grid that has a candidate, and the seventeenth has one. -/
theorem decimal_eq (h : m ≠ .zero) : ∃ (d : Decimal) (n : ℕ),
    candidate? m (top m - n) = some d ∧ (∀ i < n, candidate? m (top m - (i : ℕ)) = none) ∧
      decimal m = strip d := by
  have hlast : (candidate? m (top m - (16 : ℕ))).isSome := by
    refine isSome_candidate? (lt_of_lt_of_le ?_ (top_spec h).1)
    rw [ten_zpow_eq (top m) 16, mul_comm, cast_tenTo]
    exact mul_lt_mul_of_pos_right (by norm_num) (Decimal.ten_zpow_pos _)
  unfold decimal
  rw [← top]
  dsimp only
  cases hfound : (List.range 17).findSome? fun n : ℕ => candidate? m (top m - n) with
  | none =>
    have hnone := List.findSome?_eq_none_iff.1 hfound 16 (List.mem_range.2 (by decide))
    rw [hnone] at hlast
    cases hlast
  | some d =>
    obtain ⟨n, hn, hcandidate, hbefore⟩ := findSome?_range_eq_some hfound
    exact ⟨d, n, hcandidate, hbefore, rfl⟩

@[simp] theorem decimal_zero : decimal .zero = ⟨0, 0⟩ := by decide +kernel

/-- **The decimal of a magnitude reads back as that magnitude.** -/
theorem ofDecimal_decimal (m : Magnitude) (negative : Bool) :
    Binary64.ofDecimal negative (decimal m) = .finite negative m := by
  refine Binary64.ofDecimal_eq_finite_iff.2 ⟨rfl, ?_⟩
  by_cases h : m = .zero
  · have hzero : Decimal.value ⟨0, 0⟩ = Magnitude.zero.value := by simp [Decimal.value]
    rw [h, decimal_zero, hzero, Magnitude.ofRat?_value]
  · obtain ⟨d, n, hcandidate, -, hdecimal⟩ := decimal_eq h
    obtain ⟨-, -, hreads⟩ := candidate?_eq_some hcandidate
    rw [hdecimal, value_strip, hreads]

/-- The decimal has the leading digit of the magnitude, or is the power of ten above it. -/
theorem le_value_decimal (h : m ≠ .zero) : (10 : ℚ) ^ top m ≤ (decimal m).value := by
  obtain ⟨d, n, hcandidate, -, hdecimal⟩ := decimal_eq h
  obtain ⟨hexponent, hcoefficient, -⟩ := candidate?_eq_some hcandidate
  have hle : tenTo n ≤ d.coefficient := by
    have := tenTo_le_lower h n
    omega
  rw [hdecimal, value_strip, Decimal.value, hexponent, ten_zpow_eq _ n]
  exact mul_le_mul_of_nonneg_right (Nat.cast_le.2 hle) (Decimal.ten_zpow_pos _).le

/-- The last digit of the decimal is not zero. -/
theorem digits_decimal (h : m ≠ .zero) : (decimal m).coefficient ≠ 0 ∧
    (Digit.write (decimal m).coefficient).getLast? ≠ some '0' := by
  obtain ⟨d, n, hcandidate, -, hdecimal⟩ := decimal_eq h
  obtain ⟨-, hcoefficient, -⟩ := candidate?_eq_some hcandidate
  have hpos : 0 < d.coefficient := by
    have := Nat.lt_of_lt_of_le (tenTo_pos n) (tenTo_le_lower h n)
    omega
  obtain ⟨k, zeros, hstrip, hsplit, hlast⟩ := strip_spec hpos.ne'
  rw [hdecimal, hstrip]
  refine ⟨?_, hlast⟩
  rintro rfl
  rw [Nat.zero_mul] at hsplit
  exact hpos.ne' hsplit

/-! ### Whole numbers -/

theorem candidate?_zero_of_natCast {k : ℕ} (hvalue : m.value = k) :
    candidate? m 0 = some ⟨k, 0⟩ := by
  have hle := lower_mul_le m 0
  have hlt := value_lt_lower_add_one_mul m 0
  rw [hvalue, zpow_zero, mul_one] at hle hlt
  have hlower : lower m 0 = k :=
    Nat.le_antisymm (Nat.cast_le.1 hle) (Nat.le_of_lt_succ (by exact_mod_cast hlt))
  rw [candidate?_of_eq (by rw [hlower, hvalue, zpow_zero, mul_one]), hlower]

/-- Multiples of ten up to `10 ^ 16` are magnitudes, so they read back as nothing else. -/
theorem value_of_candidate? {k j : ℕ} (hvalue : m.value = k)
    (hcandidate : candidate? m j = some d) (hle : d.coefficient * tenTo j ≤ tenTo 16) :
    d.value = k := by
  cases j with
  | zero =>
    obtain rfl := Option.some.inj ((candidate?_zero_of_natCast hvalue).symm.trans hcandidate)
    rw [Decimal.value, zpow_zero, mul_one]
  | succ j =>
    obtain ⟨hexponent, -, hreads⟩ := candidate?_eq_some hcandidate
    have hd : d.value = (d.coefficient * tenTo (j + 1) : ℕ) := by
      rw [Decimal.value, hexponent, zpow_natCast, Nat.cast_mul, cast_tenTo]
    rw [hd] at hreads
    have heven : 2 ∣ d.coefficient * tenTo (j + 1) := by
      rw [tenTo_add]
      exact (Dvd.intro_left (tenTo j * 5) (Nat.mul_assoc ..)).mul_left _
    have hlt : d.coefficient * tenTo (j + 1) < twoTo 54 := Nat.lt_of_le_of_lt hle (by decide)
    rw [hd, ← hvalue, Magnitude.value_of_even hreads heven hlt]

theorem top_of_natCast {k : ℕ} (hvalue : m.value = k) (hk : k < tenTo 16) (h : m ≠ .zero) :
    0 ≤ top m ∧ top m < 16 := by
  have hten : (1 : ℚ) < 10 := by norm_num
  obtain ⟨htop, htop'⟩ := top_spec h
  rw [hvalue] at htop htop'
  have hpos : 0 < k := by
    refine Nat.pos_of_ne_zero ?_
    rintro rfl
    exact h (Magnitude.value_injective (hvalue.trans (by simp)))
  have hlow : (10 : ℚ) ^ (0 : ℤ) < 10 ^ (top m + 1) := by
    rw [zpow_zero]
    exact htop'.trans_le' (Nat.one_le_cast.2 hpos)
  have hhigh : (10 : ℚ) ^ top m < 10 ^ (16 : ℤ) :=
    htop.trans_lt ((Nat.cast_lt.2 hk).trans_eq (cast_tenTo 16))
  have hlt := (zpow_lt_zpow_iff_right₀ hten).1 hlow
  exact ⟨by omega, (zpow_lt_zpow_iff_right₀ hten).1 hhigh⟩

/-- **A whole number below `10 ^ 16` is its own decimal**, without a fraction. -/
theorem value_decimal_of_natCast {k : ℕ} (hvalue : m.value = k) (hk : k < tenTo 16) :
    (decimal m).value = k ∧ 0 ≤ (decimal m).exponent := by
  by_cases h : m = .zero
  · subst h
    rw [decimal_zero, ← hvalue]
    exact ⟨by simp [Decimal.value], Int.le_refl 0⟩
  obtain ⟨d, n, hcandidate, hbefore, hdecimal⟩ := decimal_eq h
  obtain ⟨hexponent, hcoefficient, -⟩ := candidate?_eq_some hcandidate
  obtain ⟨htop_nonneg, htop_lt⟩ := top_of_natCast hvalue hk h
  -- The grid of the whole numbers has a candidate, so the search does not go beyond it.
  obtain ⟨t, ht⟩ := Int.eq_ofNat_of_zero_le htop_nonneg
  have hn : n ≤ t := by
    by_contra hlt
    have hnone := hbefore t (Nat.not_le.1 hlt)
    rw [ht, Int.sub_self, candidate?_zero_of_natCast hvalue] at hnone
    cases hnone
  obtain ⟨j, rfl⟩ := Nat.exists_eq_add_of_le hn
  have hgrid : top m - n = j := by omega
  have hle : d.coefficient * tenTo j ≤ tenTo 16 := by
    have hlower := lower_lt h n
    calc d.coefficient * tenTo j ≤ tenTo (n + 1) * tenTo j := Nat.mul_le_mul_right _ (by omega)
      _ = tenTo (n + 1 + j) := (tenTo_add ..).symm
      _ ≤ tenTo 16 := tenTo_mono (by omega)
  rw [hgrid] at hcandidate hexponent
  have hdvalue := value_of_candidate? hvalue hcandidate hle
  have hnonzero : d.coefficient ≠ 0 := by
    have := Nat.lt_of_lt_of_le (tenTo_pos n) (tenTo_le_lower h n)
    omega
  obtain ⟨c, zeros, hstrip, -⟩ := strip_spec hnonzero
  refine ⟨by rw [hdecimal, value_strip, hdvalue], ?_⟩
  rw [hdecimal, hstrip, hexponent]
  exact Int.natCast_nonneg (j + zeros)

end Shortest
end MetricQuery
