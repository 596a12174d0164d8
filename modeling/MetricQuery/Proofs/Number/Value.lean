import Mathlib.Algebra.Order.Field.Power
import MetricQuery.Number.Decimal
import MetricQuery.Proofs.Number.Rounding
import MetricQuery.Proofs.Text.Digit

/-!
# The values of decimals

A decimal is rounded once, by its value alone: coefficients and exponents of any size make no
difference. It is rounded to a finite number as long as it stays below the middle above the largest
one.
-/

namespace MetricQuery

namespace Digit

theorem count_pos (n : ℕ) : 0 < count n := List.length_pos_iff.2 (write_ne_nil n)

theorem lt_tenTo_count (n : ℕ) : n < tenTo (count n) :=
  (count_le_iff (count_pos n)).1 (Nat.le_refl _)

theorem tenTo_count_le {n : ℕ} (h : n ≠ 0) : tenTo (count n - 1) ≤ n := by
  rcases Nat.eq_zero_or_pos (count n - 1) with hzero | hpos
  · rw [hzero]
    exact Nat.one_le_iff_ne_zero.2 h
  · by_contra hlt
    have := (count_le_iff hpos).2 (Nat.not_le.1 hlt)
    omega

end Digit

theorem cast_tenTo (n : ℕ) : ((tenTo n : ℕ) : ℚ) = 10 ^ n := Nat.cast_pow 10 n

namespace Decimal

/-- The value of a decimal. -/
def value (d : Decimal) : ℚ := d.coefficient * 10 ^ d.exponent

/-- The exponent of the leading digit, for a coefficient that is not zero. -/
def leading (d : Decimal) : ℤ := d.exponent + ((Digit.count d.coefficient : ℤ) - 1)

theorem ten_zpow_pos (e : ℤ) : (0 : ℚ) < 10 ^ e := zpow_pos (by norm_num) e

theorem value_nonneg (d : Decimal) : 0 ≤ d.value :=
  mul_nonneg (Nat.cast_nonneg _) (ten_zpow_pos _).le

theorem value_lt (d : Decimal) : d.value < 10 ^ (d.leading + 1) := by
  have hlt : (d.coefficient : ℚ) < 10 ^ (Digit.count d.coefficient : ℤ) := by
    rw [zpow_natCast, ← cast_tenTo]
    exact Nat.cast_lt.2 (Digit.lt_tenTo_count _)
  have hexponent : d.leading + 1 = (Digit.count d.coefficient : ℤ) + d.exponent := by
    unfold leading
    ring
  rw [hexponent, zpow_add₀ (by norm_num)]
  exact mul_lt_mul_of_pos_right hlt (ten_zpow_pos _)

theorem le_value {d : Decimal} (h : d.coefficient ≠ 0) : 10 ^ d.leading ≤ d.value := by
  have hle : (10 : ℚ) ^ ((Digit.count d.coefficient : ℤ) - 1) ≤ d.coefficient := by
    rw [← Nat.cast_one, ← Nat.cast_sub (Digit.count_pos _), zpow_natCast, ← cast_tenTo]
    exact Nat.cast_le.2 (Digit.tenTo_count_le h)
  rw [leading, add_comm, zpow_add₀ (by norm_num)]
  exact mul_le_mul_of_nonneg_right hle (ten_zpow_pos _).le

/-! ### Beyond the magnitudes -/

theorem value_lt_unit {d : Decimal} (h : d.coefficient = 0 ∨ d.leading + 1 < -330) :
    2 * d.value * Magnitude.unitsPerOne < 1 := by
  rcases h with hzero | hlow
  · rw [value, hzero, Nat.cast_zero, zero_mul, mul_zero, zero_mul]
    exact one_pos
  · have hlt : d.value < 10 ^ (-331 : ℤ) :=
      d.value_lt.trans_le (zpow_le_zpow_right₀ (by norm_num) (by omega))
    have hpower : (2 : ℚ) * Magnitude.unitsPerOne ≤ 10 ^ 331 := by
      have hle : 2 * Magnitude.unitsPerOne ≤ tenTo 331 := by decide +kernel
      rw [← cast_tenTo]
      exact_mod_cast hle
    have hten : (10 : ℚ) ^ (-331 : ℤ) * 10 ^ 331 = 1 := by
      rw [zpow_neg, ← zpow_natCast]
      exact inv_mul_cancel₀ (ten_zpow_pos 331).ne'
    have hunits := Magnitude.unitsPerOne_pos
    calc 2 * d.value * Magnitude.unitsPerOne = d.value * (2 * Magnitude.unitsPerOne) := by ring
      _ < 10 ^ (-331 : ℤ) * (2 * Magnitude.unitsPerOne) :=
        mul_lt_mul_of_pos_right hlt (mul_pos two_pos hunits)
      _ ≤ 10 ^ (-331 : ℤ) * 10 ^ 331 := mul_le_mul_of_nonneg_left hpower (ten_zpow_pos _).le
      _ = 1 := hten

theorem le_value_of_lt_leading {d : Decimal} (h : d.coefficient ≠ 0) (hhigh : 310 < d.leading + 1) :
    2 ^ 1024 - 2 ^ 970 ≤ d.value := by
  have hpower : (2 : ℚ) ^ 1024 ≤ 10 ^ (310 : ℤ) := by
    have hle : twoTo 1024 ≤ tenTo 310 := by decide +kernel
    have hten : (10 : ℚ) ^ (310 : ℤ) = (tenTo 310 : ℕ) := (cast_tenTo 310).symm
    rw [← Magnitude.cast_twoTo, hten]
    exact Nat.cast_le.2 hle
  calc (2 : ℚ) ^ 1024 - 2 ^ 970 ≤ 2 ^ 1024 := sub_le_self _ (pow_pos two_pos 970).le
    _ ≤ 10 ^ (310 : ℤ) := hpower
    _ ≤ 10 ^ d.leading := zpow_le_zpow_right₀ (by norm_num) (by omega)
    _ ≤ d.value := le_value h

end Decimal

namespace Binary64

-- Unfolded where it is applied, the definition would make the match run into the powers of the
-- scale.
theorem ofRatio_def : ofRatio = fun negative num den => match Magnitude.round? num den with
    | some m => .finite negative m
    | none => .infinite negative := by
  exact rfl

theorem ofRatio_eq (negative : Bool) (num den : ℕ) : ofRatio negative num den =
    (Magnitude.round? num den).elim (.infinite negative) (.finite negative) := by
  rw [ofRatio_def]
  dsimp only
  generalize Magnitude.round? num den = rounded
  cases rounded <;> rfl

/-- A decimal is rounded by its value. -/
theorem ofDecimal_eq (negative : Bool) (d : Decimal) : ofDecimal negative d =
    (Magnitude.ofRat? d.value).elim (.infinite negative) (.finite negative) := by
  have htop : (Digit.count d.coefficient : ℤ) + d.exponent = d.leading + 1 := by
    unfold Decimal.leading
    ring
  have hratio {num den : ℕ} (hden : 0 < den) (hvalue : d.value = num / den) :
      ofRatio negative num den =
        (Magnitude.ofRat? d.value).elim (.infinite negative) (.finite negative) := by
    rw [ofRatio_eq, Magnitude.round?_eq_ofRat? hden, hvalue]
  unfold ofDecimal
  dsimp only
  rw [htop]
  split_ifs with hlow hhigh
  · rw [Magnitude.ofRat?_of_lt_unit d.value_nonneg (Decimal.value_lt_unit hlow)]
    rfl
  · have hlarge := Decimal.le_value_of_lt_leading (fun hzero => hlow (.inl hzero)) hhigh
    rw [(Magnitude.ofRat?_eq_none_iff d.value_nonneg).2 hlarge]
    rfl
  · cases hexponent : d.exponent with
    | ofNat e =>
      refine hratio Nat.one_pos ?_
      rw [Decimal.value, hexponent, Nat.cast_mul, cast_tenTo, Nat.cast_one, div_one]
      rfl
    | negSucc e =>
      refine hratio (tenTo_pos _) ?_
      rw [Decimal.value, hexponent, cast_tenTo, div_eq_mul_inv]
      rfl

variable {d : Decimal} {m : Magnitude}

theorem ofDecimal_eq_finite_iff {negative negative' : Bool} :
    ofDecimal negative d = .finite negative' m ↔
      negative = negative' ∧ Magnitude.ofRat? d.value = some m := by
  rw [ofDecimal_eq]
  cases Magnitude.ofRat? d.value with
  | none => simp
  | some rounded => simp

/-- A decimal is rounded to a finite number below the middle above the largest one. -/
theorem isFinite_ofDecimal_iff (negative : Bool) :
    (ofDecimal negative d).isFinite ↔ d.value < 2 ^ 1024 - 2 ^ 970 := by
  rw [ofDecimal_eq, ← not_le, ← Magnitude.ofRat?_eq_none_iff d.value_nonneg]
  cases Magnitude.ofRat? d.value with
  | none => simp [isFinite]
  | some m => simp [isFinite]

end Binary64
end MetricQuery
