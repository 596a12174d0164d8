import Mathlib.Algebra.Order.Field.Basic
import Mathlib.Data.Rat.Cast.Order
import Mathlib.Tactic.FieldSimp
import Mathlib.Tactic.Linarith
import Mathlib.Tactic.Positivity
import MetricQuery.Proofs.Number.Range

/-!
# Rounding to the nearest number

The magnitude that a quotient is rounded to is as near to it as any other. It depends on the value
of the quotient alone, and a quotient whose distance from a magnitude is less than `2 ^ -54` of it
is rounded to that magnitude.
-/

namespace MetricQuery

/-! ### Whole numbers -/

theorem roundHalfEven_mul_right {k : ℕ} (hk : 0 < k) (num den : ℕ) :
    roundHalfEven (num * k) (den * k) = roundHalfEven num den := by
  have hlow (a : ℕ) : 2 * (a * k) = 2 * a * k := (Nat.mul_assoc ..).symm
  simp only [roundHalfEven, Nat.mul_div_mul_right _ _ hk, Nat.mul_mod_mul_right, hlow,
    Nat.mul_lt_mul_right hk]

theorem roundHalfEven_of_dvd {num den : ℕ} (hden : 0 < den) (h : den ∣ num) :
    roundHalfEven num den = num / den := by
  unfold roundHalfEven
  dsimp only
  rw [Nat.mod_eq_zero_of_dvd h, if_pos hden]

/-- No whole number is nearer to the quotient. -/
theorem natAbs_sub_roundHalfEven_le {den : ℕ} (hden : 0 < den) (num k : ℕ) :
    ((num : ℤ) - roundHalfEven num den * den).natAbs ≤ ((num : ℤ) - k * den).natAbs := by
  have hnum : num / den * den + num % den = num := Nat.div_add_mod' num den
  have hrest : num % den < den := Nat.mod_lt num hden
  have hside : k * den ≤ num / den * den ∨ num / den * den + den ≤ k * den := by
    rcases Nat.lt_or_ge (num / den) k with hlt | hle
    · exact .inr (Nat.succ_mul (num / den) den ▸ Nat.mul_le_mul_right den hlt)
    · exact .inl (Nat.mul_le_mul_right den hle)
  have hsteps : roundHalfEven num den * den = num / den * den ∧ 2 * (num % den) ≤ den ∨
      roundHalfEven num den * den = num / den * den + den ∧ den ≤ 2 * (num % den) := by
    have hup : (num / den + 1) * den = num / den * den + den := Nat.succ_mul ..
    rcases Nat.mod_two_eq_zero_or_one (num / den) with heven | hodd
    · unfold roundHalfEven
      dsimp only
      split_ifs
      · exact .inl ⟨rfl, by omega⟩
      · exact .inr ⟨hup, by omega⟩
      · exact .inl ⟨by rw [heven, Nat.add_zero], by omega⟩
    · unfold roundHalfEven
      dsimp only
      split_ifs
      · exact .inl ⟨rfl, by omega⟩
      · exact .inr ⟨hup, by omega⟩
      · exact .inr ⟨by rw [hodd, hup], by omega⟩
  rw [← Nat.cast_mul, ← Nat.cast_mul]
  omega

namespace Magnitude

/-! ### Magnitudes apart from each other -/

/-- Magnitudes of a lower scale end half a step before the first one of a scale. -/
theorem two_mul_units_add_le {m m' : Magnitude} (h : m.scale < m'.scale) :
    2 * m.units + twoTo m'.scale ≤ twoTo 53 * twoTo m'.scale ∧
      2 * twoTo m.scale ≤ twoTo m'.scale := by
  have hstep : 2 * twoTo m.scale ≤ twoTo m'.scale := by
    rw [← twoTo_succ]
    exact twoTo_mono h
  have hmul := Nat.mul_le_mul_left m.significand hstep
  have hlast := Nat.mul_le_mul_right (twoTo m'.scale) (Nat.succ_le_of_lt m.significand_lt)
  rw [Nat.succ_mul] at hlast
  rw [units, Nat.mul_left_comm]
  exact ⟨by omega, hstep⟩

theorem le_units_of_scale {m : Magnitude} (h : m.scale ≠ 0) :
    twoTo 52 * twoTo m.scale ≤ m.units :=
  Nat.mul_le_mul_right _ (m.full.resolve_left h)

/-- Different magnitudes differ by at least `2 ^ -53` of either. -/
theorem units_le_mul_natAbs_sub {m m' : Magnitude} (h : m ≠ m') :
    m.units ≤ twoTo 53 * ((m.units : ℤ) - m'.units).natAbs := by
  have hlt : m.units ≤ twoTo 53 * twoTo m.scale :=
    Nat.mul_le_mul_right _ (Nat.le_of_lt m.significand_lt)
  have hlarge : twoTo 53 = 9007199254740992 := rfl
  have hlarge' : twoTo 52 = 4503599627370496 := rfl
  rcases Nat.lt_trichotomy m.scale m'.scale with hscale | hscale | hscale
  · obtain ⟨hnext, hdouble⟩ := two_mul_units_add_le hscale
    have hunits := le_units_of_scale (m := m') (by omega)
    rw [hlarge] at hlt hnext ⊢
    rw [hlarge'] at hunits
    omega
  · have hsignificand : m.significand ≠ m'.significand := by
      intro heq
      obtain ⟨s, e, _, _, _⟩ := m
      obtain ⟨s', e', _, _, _⟩ := m'
      obtain ⟨rfl, rfl⟩ : s = s' ∧ e = e' := ⟨heq, hscale⟩
      exact h rfl
    refine Nat.le_trans hlt (Nat.mul_le_mul_left _ ?_)
    simp only [units, ← hscale]
    rcases Nat.lt_or_gt_of_ne hsignificand with hlt | hgt
    · have := Nat.mul_le_mul_right (twoTo m.scale) (Nat.succ_le_of_lt hlt)
      rw [Nat.succ_mul] at this
      omega
    · have := Nat.mul_le_mul_right (twoTo m.scale) (Nat.succ_le_of_lt hgt)
      rw [Nat.succ_mul] at this
      omega
  -- Just below a power of two the steps are half as long.
  · obtain ⟨hnext, -⟩ := two_mul_units_add_le hscale
    have hunits := le_units_of_scale (m := m) (by omega)
    rw [hlarge] at hnext ⊢
    rw [hlarge'] at hunits
    omega

theorem eq_zero_of_units_eq_zero {m : Magnitude} (h : m.units = 0) : m = zero := by
  obtain ⟨significand, scale, hlt, hfull, hle⟩ := m
  have hsignificand : significand = 0 :=
    (Nat.mul_eq_zero.1 h).resolve_right (Nat.ne_of_gt (twoTo_pos scale))
  have hscale : scale = 0 :=
    hfull.resolve_right (Nat.not_le.2 (hsignificand ▸ twoTo_pos 52))
  subst hsignificand hscale
  rfl

theorem units_injective : Function.Injective units := by
  intro m m' heq
  by_contra hne
  have hle := units_le_mul_natAbs_sub hne
  rw [heq, Int.sub_self, Int.natAbs_zero, Nat.mul_zero, Nat.le_zero] at hle
  exact hne ((eq_zero_of_units_eq_zero (heq.trans hle)).trans (eq_zero_of_units_eq_zero hle).symm)

/-! ### Quotients of the same value -/

theorem round?_mul_right {k : ℕ} (hk : 0 < k) (num den : ℕ) :
    round? (num * k) (den * k) = round? num den := by
  have hscale : quotientScale (num * k) (den * k) = quotientScale num den := by
    rw [quotientScale, quotientScale, Nat.mul_right_comm, Nat.mul_div_mul_right _ _ hk]
  have hsteps : quotientSteps (num * k) (den * k) = quotientSteps num den := by
    rw [quotientSteps, quotientSteps, hscale, Nat.mul_right_comm num, Nat.mul_right_comm den,
      roundHalfEven_mul_right hk]
  rw [round?_eq, round?_eq, hscale, hsteps]

theorem round?_congr {num den num' den' : ℕ} (hden : 0 < den) (hden' : 0 < den')
    (h : num * den' = num' * den) : round? num den = round? num' den' := by
  rw [← round?_mul_right hden' num den, h, Nat.mul_comm den, round?_mul_right hden]

/-! ### Nearest magnitudes -/

variable {num den : ℕ} {m : Magnitude}

theorem units_ofParts? {significand scale : ℕ} (h : ofParts? significand scale = some m) :
    m.units = significand * twoTo scale := by
  unfold ofParts? at h
  split at h
  · obtain rfl := Option.some.inj h
    rfl
  · cases h

theorem units_round? (h : round? num den = some m) :
    m.units = quotientSteps num den * twoTo (quotientScale num den) := by
  rw [round?_eq] at h
  split at h
  · exact units_ofParts? h
  · rename_i hsteps
    rw [units_ofParts? h, Nat.le_antisymm (quotientSteps_le num den) (Nat.not_lt.1 hsteps),
      ← twoTo_add, ← twoTo_add, ← Nat.add_assoc, Nat.add_right_comm]

theorem natAbs_sub_le_natAbs_sub {n j k : ℕ} (hkj : k ≤ j) (hjn : j ≤ n) :
    ((n : ℤ) - j).natAbs ≤ ((n : ℤ) - k).natAbs := by
  omega

/-- No magnitude is nearer to the quotient, with distances counted in units over `den`. -/
theorem natAbs_sub_units_le (hden : 0 < den) (h : round? num den = some m) (m' : Magnitude) :
    (((num * unitsPerOne : ℕ) : ℤ) - m.units * den).natAbs ≤
      (((num * unitsPerOne : ℕ) : ℤ) - m'.units * den).natAbs := by
  have hstep : 0 < den * twoTo (quotientScale num den) := Nat.mul_pos hden (twoTo_pos _)
  have hnearest := natAbs_sub_roundHalfEven_le hstep (num * unitsPerOne)
  have hm : (m.units * den : ℤ) =
      (roundHalfEven (num * unitsPerOne) (den * twoTo (quotientScale num den)) : ℤ) *
        (den * twoTo (quotientScale num den) : ℕ) := by
    rw [units_round? h, quotientSteps]
    push_cast
    ring
  rw [hm]
  rcases Nat.lt_or_ge m'.scale (quotientScale num den) with hscale | hscale
  -- Magnitudes of a lower scale are below the first multiple of the step that is no less.
  · have hquotient : twoTo (52 + quotientScale num den) * den ≤ num * unitsPerOne :=
      (Nat.le_div_iff_mul_le hden).1 (twoTo_le_units (by omega))
    have hunits : m'.units * den ≤ twoTo (52 + quotientScale num den) * den := by
      refine Nat.mul_le_mul_right den ?_
      calc m'.units ≤ twoTo 53 * twoTo m'.scale :=
            Nat.mul_le_mul_right _ (Nat.le_of_lt m'.significand_lt)
        _ = twoTo (53 + m'.scale) := (twoTo_add ..).symm
        _ ≤ twoTo (52 + quotientScale num den) := twoTo_mono (by omega)
    have hfirst : twoTo 52 * (den * twoTo (quotientScale num den)) =
        twoTo (52 + quotientScale num den) * den := by
      rw [twoTo_add, Nat.mul_left_comm, Nat.mul_comm]
    refine Nat.le_trans (hnearest (twoTo 52)) ?_
    rw [← Nat.cast_mul, ← Nat.cast_mul, hfirst]
    exact natAbs_sub_le_natAbs_sub hunits hquotient
  · obtain ⟨k, hk⟩ := Nat.exists_eq_add_of_le hscale
    have hm' : (m'.units * den : ℤ) = (m'.significand * twoTo k : ℕ) *
        (den * twoTo (quotientScale num den) : ℕ) := by
      rw [units, hk, twoTo_add]
      push_cast
      ring
    rw [hm']
    exact hnearest _

/-! ### Values -/

/-- The value of a magnitude. -/
def value (m : Magnitude) : ℚ := m.units / unitsPerOne

theorem unitsPerOne_pos : (0 : ℚ) < unitsPerOne := Nat.cast_pos.2 (twoTo_pos 1074)

theorem value_nonneg (m : Magnitude) : 0 ≤ m.value :=
  div_nonneg (Nat.cast_nonneg _) unitsPerOne_pos.le

theorem value_injective : Function.Injective value := fun _ _ h =>
  units_injective (Nat.cast_injective ((div_left_inj' unitsPerOne_pos.ne').1 h))

theorem abs_value_sub (hden : 0 < den) (m : Magnitude) : |m.value - num / den| =
    (((num * unitsPerOne : ℕ) : ℤ) - m.units * den).natAbs / (unitsPerOne * den) := by
  have hdenq : (0 : ℚ) < den := Nat.cast_pos.2 hden
  have hpos := unitsPerOne_pos
  have hsub : (num : ℚ) / den - m.value =
      (((num * unitsPerOne : ℕ) : ℤ) - m.units * den : ℤ) / (unitsPerOne * den) := by
    rw [value, div_sub_div _ _ hdenq.ne' hpos.ne', mul_comm (den : ℚ) m.units, mul_comm (den : ℚ)]
    push_cast
    rfl
  rw [abs_sub_comm, hsub, abs_div, abs_of_pos (mul_pos hpos hdenq), Nat.cast_natAbs, Int.cast_abs]

theorem round?_nearest (hden : 0 < den) (h : round? num den = some m) (m' : Magnitude) :
    |m.value - num / den| ≤ |m'.value - num / den| := by
  rw [abs_value_sub hden, abs_value_sub hden]
  refine div_le_div_of_nonneg_right (Nat.cast_le.2 (natAbs_sub_units_le hden h m')) ?_
  exact mul_nonneg unitsPerOne_pos.le (Nat.cast_nonneg den)

theorem cast_twoTo (n : ℕ) : ((twoTo n : ℕ) : ℚ) = 2 ^ n := Nat.cast_pow 2 n

theorem value_le_mul_abs_sub {m m' : Magnitude} (h : m ≠ m') :
    m.value ≤ 2 ^ 53 * |m.value - m'.value| := by
  have hsub : m.value - m'.value = ((m.units : ℤ) - m'.units : ℤ) / unitsPerOne := by
    rw [value, value, ← sub_div]
    push_cast
    rfl
  have hunits : (m.units : ℚ) ≤ twoTo 53 * ((m.units : ℤ) - m'.units).natAbs := by
    exact_mod_cast units_le_mul_natAbs_sub h
  rw [hsub, abs_div, abs_of_pos unitsPerOne_pos, ← Int.cast_abs, ← Nat.cast_natAbs, ← mul_div_assoc,
    ← cast_twoTo]
  exact div_le_div_of_nonneg_right hunits unitsPerOne_pos.le

/-- The largest magnitude. -/
theorem value_le (m : Magnitude) : m.value ≤ 2 ^ 1024 - 2 ^ 971 := by
  have hlast (s : ℕ) : (twoTo 53 - 1) * twoTo s + twoTo s = twoTo (53 + s) := by
    rw [← Nat.succ_mul, Nat.succ_eq_add_one, Nat.sub_add_cancel (twoTo_pos 53), twoTo_add]
  have hunits : m.units ≤ (twoTo 53 - 1) * twoTo 2045 :=
    Nat.mul_le_mul (Nat.le_sub_one_of_lt m.significand_lt) (twoTo_mono m.scale_le)
  have hsum : m.units + twoTo 971 * unitsPerOne ≤ twoTo 1024 * unitsPerOne := by
    rw [unitsPerOne, ← twoTo_add, ← twoTo_add, show 971 + 1074 = 2045 from rfl,
      show 1024 + 1074 = 53 + 2045 from rfl, ← hlast]
    exact Nat.add_le_add_right hunits _
  rw [value, div_le_iff₀ unitsPerOne_pos, sub_mul, le_sub_iff_add_le, ← cast_twoTo, ← cast_twoTo]
  exact_mod_cast hsum

theorem round?_eq_none_iff_le (hden : 0 < den) :
    round? num den = none ↔ (2 : ℚ) ^ 1024 - 2 ^ 970 ≤ num / den := by
  have hle : twoTo 970 ≤ twoTo 1024 := twoTo_mono (by decide)
  rw [round?_eq_none_iff hden, le_div_iff₀ (Nat.cast_pos.2 hden), ← cast_twoTo, ← cast_twoTo,
    ← Nat.cast_sub hle, ← Nat.cast_mul, Nat.cast_le]

/-! ### Rational numbers -/

/-- The magnitude nearest to a number that is not negative, if there is one. -/
def ofRat? (q : ℚ) : Option Magnitude := round? q.num.natAbs q.den

variable {q : ℚ}

theorem natAbs_num_div_den (hq : 0 ≤ q) : (q.num.natAbs : ℚ) / q.den = q := by
  have hnum : (q.num.natAbs : ℤ) = q.num := Int.natAbs_of_nonneg (Rat.num_nonneg.2 hq)
  rw [← Int.cast_natCast, hnum, Rat.num_div_den]

/-- Rounding a quotient is rounding its value. -/
theorem round?_eq_ofRat? (hden : 0 < den) (num : ℕ) : round? num den = ofRat? (num / den) := by
  have hq : (0 : ℚ) ≤ num / den := div_nonneg (Nat.cast_nonneg _) (Nat.cast_nonneg _)
  have heq := natAbs_num_div_den hq
  rw [div_eq_div_iff (Nat.cast_ne_zero.2 (Rat.den_nz _)) (Nat.cast_ne_zero.2 hden.ne')] at heq
  exact (round?_congr (Rat.den_pos _) hden (by exact_mod_cast heq)).symm

/-- A number is rounded to a magnitude that is nearest to it. -/
theorem ofRat?_nearest (hq : 0 ≤ q) (h : ofRat? q = some m) (m' : Magnitude) :
    |m.value - q| ≤ |m'.value - q| := by
  have hnearest := round?_nearest q.den_pos h m'
  rwa [natAbs_num_div_den hq] at hnearest

theorem ofRat?_eq_none_iff (hq : 0 ≤ q) : ofRat? q = none ↔ (2 : ℚ) ^ 1024 - 2 ^ 970 ≤ q := by
  rw [ofRat?, round?_eq_none_iff_le q.den_pos, natAbs_num_div_den hq]

theorem two_pow_le_of_ofRat?_eq_none (hq : 0 ≤ q) (h : ofRat? q = none) : (2 : ℚ) ^ 970 ≤ q := by
  have hle := (ofRat?_eq_none_iff hq).1 h
  have hhigh : (2 : ℚ) ^ 971 ≤ 2 ^ 1024 := pow_le_pow_right₀ one_le_two (by decide)
  rw [show (2 : ℚ) ^ 971 = 2 ^ 970 * 2 from pow_succ 2 970] at hhigh
  -- The powers are kept as they are.
  generalize (2 : ℚ) ^ 970 = p, (2 : ℚ) ^ 1024 = p' at hle hhigh ⊢
  linarith

/-- The value of a magnitude is rounded to it. -/
theorem ofRat?_value (m : Magnitude) : ofRat? m.value = some m := by
  cases hround : ofRat? m.value with
  | none =>
    have hle := (ofRat?_eq_none_iff m.value_nonneg).1 hround
    have hlt : (2 : ℚ) ^ 970 < 2 ^ 971 := pow_lt_pow_right₀ one_lt_two (by decide)
    exact absurd (hle.trans m.value_le) (not_le.2 (sub_lt_sub_left hlt _))
  | some m' =>
    have hnearest := ofRat?_nearest m.value_nonneg hround m
    rw [sub_self, abs_zero] at hnearest
    rw [value_injective (sub_eq_zero.1 (abs_eq_zero.1 (hnearest.antisymm (abs_nonneg _))))]

/-- So is everything that is nearer to a magnitude than `2 ^ -54` of it. -/
theorem ofRat?_of_near (hq : 0 ≤ q) (h : |m.value - q| * 2 ^ 54 < m.value) :
    ofRat? q = some m := by
  cases hround : ofRat? q with
  | none =>
    have hle := (ofRat?_eq_none_iff hq).1 hround
    have hnear := neg_le_of_abs_le (le_refl |m.value - q|)
    have hlargest := m.value_le
    have hpower : (2 : ℚ) ^ 1024 = 2 ^ 970 * 2 ^ 54 := pow_add 2 970 54
    have hpower' : (2 : ℚ) ^ 971 = 2 ^ 970 * 2 := pow_succ 2 970
    rw [hpower] at hle hlargest
    rw [hpower'] at hlargest
    have hpos : (0 : ℚ) < 2 ^ 970 := pow_pos two_pos 970
    generalize (2 : ℚ) ^ 970 = p at hle hlargest hpos
    linarith
  | some m' =>
    have hnearest := ofRat?_nearest hq hround m
    by_contra hne
    have happart := value_le_mul_abs_sub fun heq => hne (congrArg some heq).symm
    have htriangle := abs_sub_le m.value q m'.value
    rw [abs_sub_comm q] at htriangle
    linarith

@[simp] theorem value_zero : zero.value = 0 := by
  rw [value, units, zero, Nat.zero_mul, Nat.cast_zero, zero_div]

/-- Less than half a unit is rounded to zero. -/
theorem ofRat?_of_lt_unit (hq : 0 ≤ q) (h : 2 * q * unitsPerOne < 1) : ofRat? q = some zero := by
  cases hround : ofRat? q with
  | none =>
    have hone : (1 : ℚ) ≤ unitsPerOne := Nat.one_le_cast.2 (twoTo_pos 1074)
    have hlarge : 1 ≤ q :=
      (one_le_pow₀ one_le_two).trans (two_pow_le_of_ofRat?_eq_none hq hround)
    have := mul_le_mul hlarge hone zero_le_one hq
    linarith
  | some m =>
    have hnearest := ofRat?_nearest hq hround zero
    rw [value_zero, zero_sub, abs_neg, abs_of_nonneg hq] at hnearest
    have hvalue : m.value * unitsPerOne < 1 := by
      have hle : m.value ≤ 2 * q := by linarith [le_of_abs_le hnearest]
      exact (mul_le_mul_of_nonneg_right hle unitsPerOne_pos.le).trans_lt h
    rw [value, div_mul_cancel₀ _ unitsPerOne_pos.ne'] at hvalue
    rw [eq_zero_of_units_eq_zero (Nat.cast_lt_one.1 hvalue)]

/-! ### Whole numbers -/

/-- A whole number of steps is kept. -/
theorem value_of_dvd {n : ℕ} (h : round? n 1 = some m)
    (hdvd : twoTo (quotientScale n 1) ∣ n * unitsPerOne) : m.value = n := by
  have hunits : m.units = n * unitsPerOne := by
    rw [units_round? h, quotientSteps, Nat.one_mul, roundHalfEven_of_dvd (twoTo_pos _) hdvd,
      Nat.div_mul_cancel hdvd]
  rw [value, hunits, Nat.cast_mul, mul_div_cancel_right₀ _ unitsPerOne_pos.ne']

theorem round?_one (n : ℕ) : round? n 1 = ofRat? n := by
  rw [round?_eq_ofRat? Nat.one_pos, Nat.cast_one, div_one]

/-- Even numbers of at most 54 bits are kept. -/
theorem value_of_even {n : ℕ} (h : ofRat? n = some m) (heven : 2 ∣ n) (hlt : n < twoTo 54) :
    m.value = n := by
  have hscale : quotientScale n 1 ≤ 1075 := by
    have hbits : n * unitsPerOne / 1 < twoTo 1128 := by
      rw [Nat.div_one, show 1128 = 54 + 1074 from rfl, twoTo_add, ← unitsPerOne]
      exact Nat.mul_lt_mul_of_pos_right hlt (twoTo_pos 1074)
    have hlog : (n * unitsPerOne / 1).log2 < 1128 := by
      rcases Nat.eq_zero_or_pos (n * unitsPerOne / 1) with hzero | hpos
      · rw [hzero, Nat.log2_zero]
        exact Nat.succ_pos _
      · rw [← Nat.not_le, ← twoTo_le_iff hpos.ne', Nat.not_le]
        exact hbits
    unfold quotientScale
    omega
  refine value_of_dvd ((round?_one n).trans h) ?_
  obtain ⟨k, rfl⟩ := heven
  rw [Nat.mul_right_comm, unitsPerOne, ← twoTo_succ]
  exact (twoTo_dvd hscale).mul_right k

theorem exists_value_eq_of_even {n : ℕ} (heven : 2 ∣ n) (hlt : n < twoTo 54) :
    ∃ m : Magnitude, m.value = n := by
  cases hround : ofRat? n with
  | none =>
    have hle := two_pow_le_of_ofRat?_eq_none (Nat.cast_nonneg n) hround
    have hn : (n : ℚ) < 2 ^ 54 := (Nat.cast_lt.2 hlt).trans_eq (cast_twoTo 54)
    have hlow : (2 : ℚ) ^ 54 ≤ 2 ^ 970 := pow_le_pow_right₀ one_le_two (by decide)
    exact absurd (hlow.trans hle) (not_le.2 hn)
  | some m => exact ⟨m, value_of_even hround heven hlt⟩

/-- A whole number is rounded to a whole number. -/
theorem exists_natCast_eq_value {n : ℕ} (h : ofRat? n = some m) : ∃ k : ℕ, m.value = k := by
  rw [← round?_one] at h
  rcases Nat.le_total (quotientScale n 1) 1074 with hle | hle
  · exact ⟨n, value_of_dvd h ((twoTo_dvd hle).mul_left n)⟩
  · obtain ⟨k, hk⟩ := Nat.exists_eq_add_of_le' hle
    refine ⟨quotientSteps n 1 * twoTo k, ?_⟩
    rw [value, units_round? h, hk, twoTo_add, ← Nat.mul_assoc, ← unitsPerOne,
      Nat.cast_mul _ unitsPerOne]
    exact mul_div_cancel_right₀ _ unitsPerOne_pos.ne'

end Magnitude
end MetricQuery
