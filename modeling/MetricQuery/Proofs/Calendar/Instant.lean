import MetricQuery.Proofs.Calendar.Civil
import MetricQuery.Proofs.Calendar.Form

/-!
# Instants and their texts

A sound moment has an instant unless its offset leads out of the calendar. The canonical text of an
instant shows the date and the time of day in UTC and the shortest fraction, and no other instant
has that text.
-/

namespace MetricQuery
namespace Moment

/-- The parts of a moment make a local date and time and an offset of less than a day. -/
structure Sound (m : Moment) : Prop where
  offset_lt : (m.offset.getD 0).natAbs < 86400
  date_valid : m.date.Valid
  hour_le : m.hour ≤ 23
  minute_le : m.minute ≤ 59
  second_le : m.second ≤ 59
  nanos_le : m.nanos ≤ 999999999

/-- The seconds that the clock of a moment shows. -/
def clock (m : Moment) : ℕ :=
  m.date.dayNumber * 86400 + m.hour * 3600 + m.minute * 60 + m.second

theorem fault?_eq_none_iff {m : Moment} : m.fault? = none ↔ m.Sound := by
  constructor
  · intro h
    unfold fault? at h
    split_ifs at h
    exact ⟨by omega, ⟨by omega, by omega, by omega, by omega, by omega, by omega⟩, by omega,
      by omega, by omega, by omega⟩
  · rintro ⟨hoffset, ⟨_, _, _, _, _, _⟩, _, _, _, _⟩
    unfold fault?
    rw [if_neg (by omega), if_neg (by omega), if_neg (by omega), if_neg (by omega),
      if_neg (by omega), if_neg (by omega), if_neg (by omega), if_neg (by omega)]

theorem shift_eq_ok_iff {m : Moment} {i : Instant} :
    m.shift = .ok i ↔ (i.seconds : ℤ) = m.clock - m.offset.getD 0 ∧
      i.seconds < Date.dayCount * 86400 ∧ i.nanos = m.nanos := by
  obtain ⟨seconds, nanos⟩ := i
  unfold shift
  rw [← clock]
  dsimp only
  split
  · rename_i hrange
    rw [Except.ok.injEq, Instant.mk.injEq]
    omega
  · rename_i hrange
    constructor
    · nofun
    · rintro ⟨hseconds, hlt, -⟩
      exact absurd ⟨by omega, by omega⟩ hrange

/-- The instants of sound moments: the offset is taken from the clock. -/
theorem toInstant_eq_ok_iff {m : Moment} {i : Instant} :
    m.toInstant = .ok i ↔ m.Sound ∧ (i.seconds : ℤ) = m.clock - m.offset.getD 0 ∧
      i.seconds < Date.dayCount * 86400 ∧ i.nanos = m.nanos := by
  rw [← fault?_eq_none_iff, ← shift_eq_ok_iff, toInstant]
  cases m.fault? with
  | none => simp
  | some fault => simp

end Moment

namespace Instant
open Rfc3339

/-- A text shows an instant in UTC: the date is as many days after the first day as the instant has
whole days, the time makes up the rest, and no shorter fraction in groups of three digits has the
value of the nanoseconds. -/
def Shows (cs : List Char) (i : Instant) : Prop :=
  ∃ (date : Date) (hour minute second k : ℕ) (fraction : List Char),
    Date.next^[i.seconds / 86400] Date.first = date ∧
    hour * 3600 + minute * 60 + second = i.seconds % 86400 ∧ minute < 60 ∧ second < 60 ∧
    Fraction k fraction i.nanos ∧ k ∈ [0, 3, 6, 9] ∧
    (∀ j ds, j ∈ [0, 3, 6, 9] → Fraction j ds i.nanos → k ≤ j) ∧
    (∀ c ∈ fraction, c = '.' ∨ c.isDigit) ∧
    cs = Digit.write date.year ++ '-' :: (Digit.writePadded 2 date.month ++
      '-' :: (Digit.writePadded 2 date.day ++ 'T' :: (Digit.writePadded 2 hour ++
        ':' :: (Digit.writePadded 2 minute ++ ':' :: (Digit.writePadded 2 second ++
          (fraction ++ ['Z']))))))

/-! ### Fractions -/

/-- The fraction that is written has the value of the nanoseconds, and fewer groups of digits would
leave a remainder. -/
theorem fraction_shortest {nanos : ℕ} (h : nanos ≤ 999999999) :
    ∃ k ∈ [0, 3, 6, 9], Fraction k (fraction nanos) nanos ∧
      ∀ j ds, j ∈ [0, 3, 6, 9] → Fraction j ds nanos → k ≤ j := by
  have hlength {j : ℕ} (hj : j ∈ [0, 3, 6, 9]) : j = 0 ∨ j = 3 ∨ j = 6 ∨ j = 9 := by simpa using hj
  have hmod {j : ℕ} {ds : List Char} (hfraction : Fraction j ds nanos) (hj : j ≤ 9) :
      nanos % tenTo (9 - j) = 0 := Nat.mod_eq_zero_of_dvd (hfraction.dvd hj)
  have hwhole {ds : List Char} (hfraction : Fraction 0 ds nanos) : nanos = 0 :=
    Nat.eq_zero_of_dvd_of_lt (hfraction.dvd (by decide)) (Nat.lt_succ_of_le h)
  unfold fraction
  split_ifs with hzero hmillis hmicros
  · exact ⟨0, by decide, hzero ▸ .none, fun j _ _ _ => Nat.zero_le j⟩
  · refine ⟨3, by decide, .writePadded (by decide) ?_ ?_, ?_⟩
    · show nanos / 1000000 < 1000
      omega
    · show nanos / 1000000 * 1000000000 = nanos * 1000
      omega
    intro j ds hj hfraction
    rcases hlength hj with rfl | rfl | rfl | rfl
    · exact absurd (hwhole hfraction) hzero
    all_goals decide
  · refine ⟨6, by decide, .writePadded (by decide) ?_ ?_, ?_⟩
    · show nanos / 1000 < 1000000
      omega
    · show nanos / 1000 * 1000000000 = nanos * 1000000
      omega
    intro j ds hj hfraction
    rcases hlength hj with rfl | rfl | rfl | rfl
    · exact absurd (hwhole hfraction) hzero
    · exact absurd (hmod hfraction (by decide)) hmillis
    all_goals decide
  · refine ⟨9, by decide, .writePadded (by decide) (Nat.lt_succ_of_le h) rfl, ?_⟩
    intro j ds hj hfraction
    rcases hlength hj with rfl | rfl | rfl | rfl
    · exact absurd (hwhole hfraction) hzero
    · exact absurd (hmod hfraction (by decide)) hmillis
    · exact absurd (hmod hfraction (by decide)) hmicros
    · exact Nat.le_refl 9

theorem eq_point_or_isDigit_of_mem_fraction {nanos : ℕ} {c : Char} (h : c ∈ fraction nanos) :
    c = '.' ∨ c.isDigit := by
  have hpadded {k n : ℕ} (h : c ∈ '.' :: Digit.writePadded k n) : c = '.' ∨ c.isDigit :=
    (List.mem_cons.1 h).imp_right Digit.isDigit_of_mem_writePadded
  unfold fraction at h
  split_ifs at h
  · cases h
  · exact hpadded h
  · exact hpadded h
  · exact hpadded h

/-! ### Texts -/

theorem shows_text {i : Instant} (h : i.nanos ≤ 999999999) : Shows i.text i := by
  obtain ⟨k, hk, hfraction, hshortest⟩ := fraction_shortest h
  refine ⟨Date.ofDayNumber (i.seconds / 86400), i.seconds % 86400 / 3600,
    i.seconds % 86400 / 60 % 60, i.seconds % 86400 % 60, k, fraction i.nanos,
    (Date.ofDayNumber_eq _).symm, by omega, by omega, by omega, hfraction, hk, hshortest,
    fun c hc => eq_point_or_isDigit_of_mem_fraction hc, ?_⟩
  simp only [text, List.append_assoc, List.cons_append]

theorem write_append_inj {m n : ℕ} {cs ds : List Char}
    (h : Digit.write m ++ '-' :: cs = Digit.write n ++ '-' :: ds) : m = n ∧ cs = ds := by
  have hrun (n : ℕ) (cs : List Char) :
      Scan.run Char.isDigit (Digit.write n ++ '-' :: cs) = (Digit.write n, '-' :: cs) := by
    refine Scan.run_append (fun _ => Digit.isDigit_of_mem_write) ?_
    rintro _ ⟨⟩
    rfl
  have heq := (hrun m cs).symm.trans ((congrArg _ h).trans (hrun n ds))
  obtain ⟨hwrite, htail⟩ := Prod.mk.inj heq
  exact ⟨Digit.write_injective hwrite, (List.cons.inj htail).2⟩

theorem writePadded_append_inj {m n : ℕ} (hm : m < 100) (hn : n < 100) {cs ds : List Char}
    (h : Digit.writePadded 2 m ++ cs = Digit.writePadded 2 n ++ ds) : m = n ∧ cs = ds := by
  have hlength := (Digit.length_writePadded (by decide : 0 < 2) hm).trans
    (Digit.length_writePadded (by decide : 0 < 2) hn).symm
  obtain ⟨hwrite, htail⟩ := List.append_inj h hlength
  exact ⟨Digit.writePadded_injective 2 hwrite, htail⟩

/-- A text shows one instant. -/
theorem Shows.unique {cs : List Char} {i j : Instant} (hi : Shows cs i) (hj : Shows cs j) :
    i = j := by
  obtain ⟨date, hour, minute, second, k, fraction, hdate, htime, hminute, hsecond, hfraction, -, -,
    -, rfl⟩ := hi
  obtain ⟨date', hour', minute', second', k', fraction', hdate', htime', hminute', hsecond',
    hfraction', -, -, -, htext⟩ := hj
  -- The year has no fixed width, so it ends at the first dash; all other fields have two digits.
  obtain ⟨hcivil, hnumber⟩ := Date.iterate_next_eq_iff.1 hdate
  obtain ⟨hcivil', hnumber'⟩ := Date.iterate_next_eq_iff.1 hdate'
  obtain ⟨hyear, htext⟩ := write_append_inj htext
  obtain ⟨hmonth, htext⟩ := writePadded_append_inj (by have := hcivil.month_le; omega)
    (by have := hcivil'.month_le; omega) htext
  obtain ⟨hday, htext⟩ := writePadded_append_inj (by have := hcivil.day_lt; omega)
    (by have := hcivil'.day_lt; omega) (List.cons.inj htext).2
  obtain ⟨hhour, htext⟩ := writePadded_append_inj (by omega) (by omega) (List.cons.inj htext).2
  obtain ⟨hminutes, htext⟩ := writePadded_append_inj (by omega) (by omega) (List.cons.inj htext).2
  obtain ⟨hseconds, htext⟩ := writePadded_append_inj (by omega) (by omega) (List.cons.inj htext).2
  have hnanos := hfraction.unique (List.append_cancel_right htext ▸ hfraction')
  have hdays : date = date' := by
    obtain ⟨year, month, day⟩ := date
    obtain ⟨year', month', day'⟩ := date'
    exact Date.mk.injEq .. ▸ ⟨hyear, hmonth, hday⟩
  subst hdays
  obtain ⟨seconds, nanos⟩ := i
  obtain ⟨seconds', nanos'⟩ := j
  simp only at hnumber hnumber' htime htime' hnanos
  rw [Instant.mk.injEq]
  omega

end Instant
end MetricQuery
