import Mathlib.Tactic.Ring
import MetricQuery.Number.Binary64

/-!
# The range of floating-point numbers

A quotient is rounded to 53 bits at its scale, and has a nearest floating-point number unless it
reaches the middle between the largest finite number and the power of two above it.
-/

namespace MetricQuery

theorem twoTo_add (m n : Nat) : twoTo (m + n) = twoTo m * twoTo n := Nat.pow_add 2 m n

theorem twoTo_succ (n : Nat) : twoTo (n + 1) = 2 * twoTo n := Nat.pow_succ'

theorem twoTo_pos (n : Nat) : 0 < twoTo n := Nat.two_pow_pos n

theorem twoTo_mono {m n : Nat} (h : m ≤ n) : twoTo m ≤ twoTo n :=
  Nat.pow_le_pow_right (by decide) h

theorem twoTo_dvd {m n : Nat} (h : m ≤ n) : twoTo m ∣ twoTo n := Nat.pow_dvd_pow 2 h

theorem twoTo_lt_twoTo_iff {m n : Nat} : twoTo m < twoTo n ↔ m < n :=
  Nat.pow_lt_pow_iff_right (by decide)

theorem twoTo_le_iff {n k : Nat} (hn : n ≠ 0) : twoTo k ≤ n ↔ k ≤ n.log2 := (Nat.le_log2 hn).symm

/-! ### Rounding to a whole number -/

theorem div_le_roundHalfEven (num den : Nat) : num / den ≤ roundHalfEven num den := by
  unfold roundHalfEven
  dsimp only
  split_ifs <;> omega

theorem roundHalfEven_le (num den : Nat) : roundHalfEven num den ≤ num / den + 1 := by
  unfold roundHalfEven
  dsimp only
  split_ifs <;> omega

/-- Above an odd number the middle is rounded up. -/
theorem lt_roundHalfEven_iff {num den k : Nat} (hden : 0 < den) (hk : k % 2 = 1) :
    k < roundHalfEven num den ↔ (2 * k + 1) * den ≤ 2 * num := by
  have hnum : den * (num / den) + num % den = num := Nat.div_add_mod num den
  have hrest : num % den < den := Nat.mod_lt num hden
  have hmiddle : (2 * k + 1) * den = 2 * (den * k) + den := by ring
  unfold roundHalfEven
  dsimp only
  rcases Nat.lt_trichotomy (num / den) k with hlt | heq | hgt
  · have hle : den * (num / den + 1) ≤ den * k := Nat.mul_le_mul_left den hlt
    rw [Nat.mul_succ] at hle
    split_ifs <;> omega
  · rw [heq] at hnum ⊢
    split_ifs <;> omega
  · have hle : den * (k + 1) ≤ den * (num / den) := Nat.mul_le_mul_left den hgt
    rw [Nat.mul_succ] at hle
    split_ifs <;> omega

namespace Magnitude

/-! ### The scale of a quotient -/

/-- The scale that a quotient is rounded at: the least one at which it has at most 53 bits. -/
def quotientScale (num den : Nat) : Nat := (num * unitsPerOne / den).log2 - 52

/-- A quotient as a whole number of steps of its scale. -/
def quotientSteps (num den : Nat) : Nat :=
  roundHalfEven (num * unitsPerOne) (den * twoTo (quotientScale num den))

/-- Rounding up may give 54 bits, which is a step to the next scale. -/
theorem round?_eq (num den : Nat) : round? num den =
    if quotientSteps num den < twoTo 53 then
      ofParts? (quotientSteps num den) (quotientScale num den)
    else ofParts? (twoTo 52) (quotientScale num den + 1) := rfl

theorem units_lt_twoTo (num den : Nat) :
    num * unitsPerOne / den < twoTo (53 + quotientScale num den) := by
  refine Nat.lt_of_lt_of_le Nat.lt_log2_self (twoTo_mono ?_)
  unfold quotientScale
  omega

theorem twoTo_le_units {num den : Nat} (h : quotientScale num den ≠ 0) :
    twoTo (52 + quotientScale num den) ≤ num * unitsPerOne / den := by
  unfold quotientScale at h ⊢
  have hne : num * unitsPerOne / den ≠ 0 := by
    intro hzero
    rw [hzero, Nat.log2_zero] at h
    omega
  rw [twoTo_le_iff hne]
  omega

theorem quotientSteps_le (num den : Nat) : quotientSteps num den ≤ twoTo 53 := by
  refine Nat.le_trans (roundHalfEven_le _ _) (Nat.succ_le_of_lt ?_)
  rw [← Nat.div_div_eq_div_mul, Nat.div_lt_iff_lt_mul (twoTo_pos _), ← twoTo_add]
  exact units_lt_twoTo num den

/-- Above the lowest scale all 53 bits are needed. -/
theorem le_quotientSteps {num den : Nat} (h : quotientScale num den ≠ 0) :
    twoTo 52 ≤ quotientSteps num den := by
  refine Nat.le_trans ?_ (div_le_roundHalfEven _ _)
  rw [← Nat.div_div_eq_div_mul, Nat.le_div_iff_mul_le (twoTo_pos _), ← twoTo_add]
  exact twoTo_le_units h

theorem quotientSteps_full (num den : Nat) :
    quotientScale num den = 0 ∨ twoTo 52 ≤ quotientSteps num den :=
  (Decidable.em _).imp_right le_quotientSteps

/-! ### Quotients beyond the largest number -/

theorem ofParts?_eq_none_iff {significand scale : Nat} (hlt : significand < twoTo 53)
    (hfull : scale = 0 ∨ twoTo 52 ≤ significand) :
    ofParts? significand scale = none ↔ 2045 < scale := by
  unfold ofParts?
  split_ifs with h
  · simp only [false_iff]
    exact Nat.not_lt.2 h.2.2
  · simp only [true_iff]
    by_contra hscale
    exact h ⟨hlt, hfull, Nat.not_lt.1 hscale⟩

theorem round?_eq_none_iff_scale {num den : Nat} : round? num den = none ↔
    2045 < quotientScale num den ∨
      quotientScale num den = 2045 ∧ twoTo 53 - 1 < quotientSteps num den := by
  have hle := quotientSteps_le num den
  have hlarge : twoTo 52 < twoTo 53 := by decide
  rw [round?_eq]
  split_ifs with hlt
  · rw [ofParts?_eq_none_iff hlt (quotientSteps_full num den)]
    omega
  · rw [ofParts?_eq_none_iff hlarge (.inr (Nat.le_refl _))]
    omega

variable {num den : Nat}

/-- At the highest scale a quotient needs a 54th bit from the middle above the largest number on. -/
theorem lt_quotientSteps_iff (hden : 0 < den) (hscale : quotientScale num den = 2045) :
    twoTo 53 - 1 < quotientSteps num den ↔ (twoTo 54 - 1) * twoTo 970 * den ≤ num := by
  have hodd : 2 * (twoTo 53 - 1) + 1 = twoTo 54 - 1 := by decide
  have hunits : 2 * (num * unitsPerOne) = num * twoTo 1075 := by
    rw [unitsPerOne, show twoTo 1075 = 2 * twoTo 1074 from twoTo_succ 1074, Nat.mul_left_comm]
  have hmiddle : (twoTo 54 - 1) * (den * twoTo 2045) =
      (twoTo 54 - 1) * twoTo 970 * den * twoTo 1075 := by
    rw [show twoTo 2045 = twoTo 970 * twoTo 1075 from twoTo_add 970 1075]
    ring
  rw [quotientSteps, hscale, lt_roundHalfEven_iff (Nat.mul_pos hden (twoTo_pos 2045)) (by decide),
    hodd, hunits, hmiddle]
  exact Nat.mul_le_mul_right_iff (twoTo_pos 1075)

/-- Reaching a power of two from 1 on, in units. -/
theorem twoTo_le_units_iff (hden : 0 < den) (k : Nat) :
    twoTo (k + 1074) ≤ num * unitsPerOne / den ↔ twoTo k * den ≤ num := by
  rw [Nat.le_div_iff_mul_le hden, twoTo_add, unitsPerOne, Nat.mul_right_comm]
  exact Nat.mul_le_mul_right_iff (twoTo_pos 1074)

/-- A quotient is rounded to none from the middle above the largest magnitude on. -/
theorem round?_eq_none_iff (hden : 0 < den) :
    round? num den = none ↔ (twoTo 1024 - twoTo 970) * den ≤ num := by
  have htop : twoTo 1024 - twoTo 970 = (twoTo 54 - 1) * twoTo 970 := by
    rw [Nat.sub_mul, Nat.one_mul, ← twoTo_add]
  have hlarge : twoTo 2098 ≤ num * unitsPerOne / den ↔ twoTo 1024 * den ≤ num :=
    twoTo_le_units_iff hden 1024
  rw [htop, round?_eq_none_iff_scale]
  constructor
  · rintro (hscale | ⟨hscale, hsteps⟩)
    · have hexponent : 2098 ≤ 52 + quotientScale num den := by omega
      have hunits : twoTo 2098 ≤ num * unitsPerOne / den :=
        Nat.le_trans (twoTo_mono hexponent) (twoTo_le_units (by omega))
      refine Nat.le_trans (Nat.mul_le_mul_right den ?_) (hlarge.1 hunits)
      rw [← htop]
      exact Nat.sub_le _ _
    · exact (lt_quotientSteps_iff hden hscale).1 hsteps
  · intro hle
    have hhalf : twoTo 1023 ≤ (twoTo 54 - 1) * twoTo 970 := by
      rw [show twoTo 1023 = twoTo 53 * twoTo 970 from twoTo_add 53 970]
      exact Nat.mul_le_mul_right _ (by decide)
    have hunits : twoTo 2097 ≤ num * unitsPerOne / den :=
      (twoTo_le_units_iff hden 1023).2 (Nat.le_trans (Nat.mul_le_mul_right den hhalf) hle)
    have hscale : 2045 ≤ quotientScale num den := by
      by_contra hsmall
      have hlt := Nat.lt_of_le_of_lt hunits (units_lt_twoTo num den)
      exact absurd (twoTo_lt_twoTo_iff.1 hlt) (by omega)
    rcases Nat.lt_or_eq_of_le hscale with hlt | heq
    · exact .inl hlt
    · exact .inr ⟨heq.symm, (lt_quotientSteps_iff hden heq.symm).2 hle⟩

end Magnitude

/-- An integer has a nearest floating-point number exactly below that middle. -/
theorem Binary64.ofInt?_eq_none_iff {n : Int} :
    ofInt? n = none ↔ twoTo 1024 - twoTo 970 ≤ n.natAbs := by
  rw [ofInt?, Option.map_eq_none_iff, Magnitude.round?_eq_none_iff Nat.one_pos, Nat.mul_one]

end MetricQuery
