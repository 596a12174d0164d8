import Mathlib.Data.Nat.Notation
import Mathlib.Logic.Function.Iterate
import Mathlib.Tactic.SplitIfs
import MetricQuery.Calendar.Date

/-!
# Day numbers count days

The calendar is given by the day after a date. The day number of a date is the number of steps to
it from the first day, and `Date.ofDayNumber` goes that many steps.
-/

namespace MetricQuery
namespace Date

/-- The first day of the calendar. -/
def first : Date := ⟨1, 1, 1⟩

/-- The day after a date. -/
def next (d : Date) : Date :=
  if d.day < daysInMonth d.year d.month then ⟨d.year, d.month, d.day + 1⟩
  else if d.month < 12 then ⟨d.year, d.month + 1, 1⟩
  else ⟨d.year + 1, 1, 1⟩

-- Of the last years of centuries only every fourth has a leap day.
example : next ⟨1900, 2, 28⟩ = ⟨1900, 3, 1⟩ ∧ next ⟨2000, 2, 28⟩ = ⟨2000, 2, 29⟩ := by decide

/-- The dates of all years from 1 on. -/
structure Civil (d : Date) : Prop where
  year_pos : 1 ≤ d.year
  month_pos : 1 ≤ d.month
  month_le : d.month ≤ 12
  day_pos : 1 ≤ d.day
  day_le : d.day ≤ daysInMonth d.year d.month

theorem Valid.civil {d : Date} (h : d.Valid) : d.Civil := by
  obtain ⟨hyear, -, hmonth, hmonth', hday, hday'⟩ := h
  exact ⟨hyear, hmonth, hmonth', hday, hday'⟩

theorem daysInMonth_pos {year month : ℕ} (h : 1 ≤ month) (h' : month ≤ 12) :
    1 ≤ daysInMonth year month := by
  have hmonths : ∀ leap : Bool, ∀ m < 13, 1 ≤ m →
      1 ≤ ((0 :: [31, if leap then 29 else 28, 31, 30, 31, 30, 31, 31, 30, 31, 30, 31])[m]?).getD
        0 := by
    decide
  exact hmonths (isLeap year) month (by omega) h

theorem daysInMonth_le (year month : ℕ) : daysInMonth year month ≤ 31 := by
  have hmonths : ∀ leap : Bool, ∀ length ∈
      0 :: [31, if leap then 29 else 28, 31, 30, 31, 30, 31, 31, 30, 31, 30, 31], length ≤ 31 := by
    decide
  rw [daysInMonth]
  cases hlength : (0 :: monthLengths year)[month]? with
  | none => exact Nat.zero_le 31
  | some length => exact hmonths (isLeap year) length (List.mem_of_getElem? hlength)

theorem Civil.day_lt {d : Date} (h : d.Civil) : d.day < 32 :=
  Nat.lt_succ_of_le (Nat.le_trans h.day_le (daysInMonth_le d.year d.month))

theorem civil_first : first.Civil := ⟨by decide, by decide, by decide, by decide, by decide⟩

theorem Civil.next {d : Date} (h : d.Civil) : d.next.Civil := by
  obtain ⟨hyear, hmonth, hmonth', hday, hday'⟩ := h
  unfold Date.next
  split_ifs with hlast hdecember
  · exact ⟨hyear, hmonth, hmonth', Nat.succ_pos _, hlast⟩
  · exact ⟨hyear, Nat.succ_pos _, hdecember, Nat.le_refl 1,
      daysInMonth_pos (Nat.succ_pos _) hdecember⟩
  · have hjanuary : 1 ≤ 12 := by decide
    exact ⟨Nat.succ_pos _, Nat.le_refl 1, hjanuary, Nat.le_refl 1,
      daysInMonth_pos (Nat.le_refl 1) hjanuary⟩

theorem civil_iterate_next (n : ℕ) : (Date.next^[n] first).Civil := by
  induction n with
  | zero => exact civil_first
  | succ n ih =>
    rw [Function.iterate_succ_apply']
    exact ih.next

/-! ### Months and years -/

theorem daysInMonth_succ (year k : ℕ) :
    daysInMonth year (k + 1) = ((monthLengths year)[k]?).getD 0 := rfl

theorem foldr_add_append (ms ns : List ℕ) :
    (ms ++ ns).foldr (· + ·) 0 = ms.foldr (· + ·) 0 + ns.foldr (· + ·) 0 := List.sum_append

theorem daysBefore_succ (year : ℕ) {month : ℕ} (h : 1 ≤ month) :
    daysBefore year (month + 1) = daysBefore year month + daysInMonth year month := by
  obtain ⟨k, rfl⟩ : ∃ k, month = k + 1 := ⟨month - 1, by omega⟩
  rw [daysBefore, daysBefore, daysInMonth_succ, Nat.add_sub_cancel, Nat.add_sub_cancel,
    List.take_add_one, foldr_add_append]
  cases (monthLengths year)[k]? <;> rfl

/-- The number of days of a year. -/
def yearLength (year : ℕ) : ℕ := if isLeap year then 366 else 365

theorem foldr_monthLengths (year : ℕ) :
    (monthLengths year).foldr (· + ·) 0 = yearLength year := by
  unfold monthLengths yearLength
  split <;> rfl

theorem daysBefore_add_daysInMonth_december (year : ℕ) :
    daysBefore year 12 + daysInMonth year 12 = yearLength year := by
  rw [← daysBefore_succ year (by decide), ← foldr_monthLengths]
  rfl

theorem yearLength_eq (year : ℕ) : yearLength year =
    if year % 4 = 0 ∧ (year % 100 ≠ 0 ∨ year % 400 = 0) then 366 else 365 := by
  have hleap : isLeap year = true ↔ year % 4 = 0 ∧ (year % 100 ≠ 0 ∨ year % 400 = 0) := by
    simp [isLeap]
  simp only [yearLength, hleap]

theorem daysOfYears_succ (n : ℕ) : daysOfYears (n + 1) = daysOfYears n + yearLength (n + 1) := by
  have hfour : (n + 1) / 4 = n / 4 + if (n + 1) % 4 = 0 then 1 else 0 := by
    split <;> omega
  have hhundred : (n + 1) / 100 = n / 100 + if (n + 1) % 100 = 0 then 1 else 0 := by
    split <;> omega
  have hfourhundred : (n + 1) / 400 = n / 400 + if (n + 1) % 400 = 0 then 1 else 0 := by
    split <;> omega
  have hle : n / 100 ≤ n / 4 := Nat.div_le_div_left (by decide) (by decide)
  have himp : (n + 1) % 400 = 0 → (n + 1) % 100 = 0 := by omega
  have himp' : (n + 1) % 100 = 0 → (n + 1) % 4 = 0 := by omega
  -- Only how the leap conditions imply each other matters from here on.
  rw [daysOfYears, daysOfYears, hfour, hhundred, hfourhundred, yearLength_eq]
  generalize n / 4 = q, n / 100 = c, n / 400 = g at hle ⊢
  generalize (n + 1) % 4 = x, (n + 1) % 100 = y, (n + 1) % 400 = z at himp himp' ⊢
  split_ifs <;> omega

theorem daysBefore_lt_yearLength {d : Date} (h : d.Civil) :
    daysBefore d.year d.month + (d.day - 1) < yearLength d.year := by
  obtain ⟨-, hmonth, hmonth', hday, hday'⟩ := h
  have hsum : daysBefore d.year (d.month + 1) ≤ yearLength d.year := by
    have hparts := foldr_add_append ((monthLengths d.year).take d.month)
      ((monthLengths d.year).drop d.month)
    rw [List.take_append_drop, foldr_monthLengths] at hparts
    rw [daysBefore, Nat.add_sub_cancel]
    omega
  rw [daysBefore_succ d.year hmonth] at hsum
  omega

/-! ### From a date to its number -/

theorem dayNumber_next {d : Date} (h : d.Civil) : d.next.dayNumber = d.dayNumber + 1 := by
  obtain ⟨hyear, hmonth, hmonth', hday, hday'⟩ := h
  obtain ⟨year, month, day⟩ := d
  simp only at hyear hmonth hmonth' hday hday'
  simp only [next, dayNumber]
  split_ifs with hlast hdecember
  · dsimp only
    omega
  · have := daysBefore_succ year hmonth
    simp only [Nat.sub_self]
    omega
  · obtain rfl : month = 12 := by omega
    obtain ⟨n, rfl⟩ : ∃ n, year = n + 1 := ⟨year - 1, by omega⟩
    have hmonths := daysBefore_add_daysInMonth_december (n + 1)
    have hyears := daysOfYears_succ n
    have hjanuary : daysBefore (n + 1 + 1) 1 = 0 := rfl
    simp only [Nat.add_sub_cancel, Nat.sub_self, hjanuary]
    omega

theorem dayNumber_iterate_next (n : ℕ) : (next^[n] first).dayNumber = n := by
  induction n with
  | zero => rfl
  | succ n ih => rw [Function.iterate_succ_apply', dayNumber_next (civil_iterate_next n), ih]

/-! ### From a number to its date -/

theorem walkMonths_foldr (lengths : List ℕ) (month : ℕ) {k r : ℕ} (h : r < (lengths[k]?).getD 0) :
    walkMonths month lengths ((lengths.take k).foldr (· + ·) 0 + r) = (month + k, r + 1) := by
  induction lengths generalizing month k with
  | nil => simp at h
  | cons length lengths ih =>
    cases k with
    | zero =>
      have hr : r < length := by simpa using h
      simp [walkMonths, hr]
    | succ k =>
      have htail := ih (month + 1) (k := k) (by simpa using h)
      rw [List.take_succ_cons, List.foldr_cons, walkMonths, if_neg (by omega), Nat.add_assoc,
        Nat.add_sub_cancel_left, htail, Nat.add_assoc, Nat.add_comm 1 k]

/-- Four hundred years, a hundred, four and one are taken off in turn. -/
theorem splitYears_daysOfYears {n r : ℕ} (h : r < yearLength (n + 1)) :
    splitYears (daysOfYears n + r) = (n, r) := by
  rw [yearLength_eq] at h
  obtain ⟨a, b, c, d, hb, hc, hd, rfl⟩ : ∃ a b c d, b < 4 ∧ c < 25 ∧ d < 4 ∧
      n = 400 * a + 100 * b + 4 * c + d :=
    ⟨n / 400, n % 400 / 100, n % 100 / 4, n % 4, by omega, by omega, by omega, by omega⟩
  have hdays : daysOfYears (400 * a + 100 * b + 4 * c + d) =
      146097 * a + 36524 * b + 1461 * c + 365 * d := by
    unfold daysOfYears
    omega
  -- The last day of a leap year is where the caps at three centuries and three years matter.
  have hr : r < 365 ∨ r = 365 ∧ d = 3 ∧ (c ≠ 24 ∨ b = 3) := by
    split at h <;> omega
  rw [hdays]
  have hcycles : (146097 * a + 36524 * b + 1461 * c + 365 * d + r) / 146097 = a := by omega
  have hcycles' : (146097 * a + 36524 * b + 1461 * c + 365 * d + r) % 146097 =
      36524 * b + 1461 * c + 365 * d + r := by omega
  have hcenturies : min ((36524 * b + 1461 * c + 365 * d + r) / 36524) 3 = b := by omega
  have hcenturies' : 36524 * b + 1461 * c + 365 * d + r - 36524 * b = 1461 * c + 365 * d + r := by
    omega
  have hquads : (1461 * c + 365 * d + r) / 1461 = c := by omega
  have hquads' : (1461 * c + 365 * d + r) % 1461 = 365 * d + r := by omega
  have hyears : min ((365 * d + r) / 365) 3 = d := by omega
  have hyears' : 365 * d + r - 365 * d = r := by omega
  simp only [splitYears, hcycles, hcycles', hcenturies, hcenturies', hquads, hquads', hyears,
    hyears']

theorem ofDayNumber_dayNumber {d : Date} (h : d.Civil) : ofDayNumber d.dayNumber = d := by
  have hrest := daysBefore_lt_yearLength h
  obtain ⟨hyear, hmonth, -, hday, hday'⟩ := h
  obtain ⟨year, month, day⟩ := d
  obtain ⟨n, rfl⟩ : ∃ n, year = n + 1 := ⟨year - 1, by simp only at hyear; omega⟩
  obtain ⟨k, rfl⟩ : ∃ k, month = k + 1 := ⟨month - 1, by simp only at hmonth; omega⟩
  simp only [daysInMonth_succ] at hday hday' hrest
  have hsplit := splitYears_daysOfYears hrest
  have hwalk := walkMonths_foldr (monthLengths (n + 1)) 1 (k := k) (r := day - 1) (by omega)
  rw [dayNumber, Nat.add_assoc, ofDayNumber]
  simp only [Nat.add_sub_cancel, hsplit]
  rw [daysBefore, Nat.add_sub_cancel, hwalk]
  rw [Nat.add_comm 1 k, Nat.sub_add_cancel hday]

/-- **Day numbers count days.** A date of the calendar is reached from the first day by as many
steps as its number says. -/
theorem iterate_next_eq_iff {d : Date} {n : ℕ} :
    next^[n] first = d ↔ d.Civil ∧ d.dayNumber = n := by
  constructor
  · rintro rfl
    exact ⟨civil_iterate_next n, dayNumber_iterate_next n⟩
  · rintro ⟨h, rfl⟩
    rw [← ofDayNumber_dayNumber (civil_iterate_next _), dayNumber_iterate_next,
      ofDayNumber_dayNumber h]

theorem ofDayNumber_eq (n : ℕ) : ofDayNumber n = next^[n] first := by
  have h := ofDayNumber_dayNumber (civil_iterate_next n)
  rwa [dayNumber_iterate_next] at h

/-! ### The years up to 9999 -/

theorem daysOfYears_mono {m n : ℕ} (h : m ≤ n) : daysOfYears m ≤ daysOfYears n := by
  induction h with
  | refl => exact Nat.le_refl _
  | step _ ih =>
    rw [daysOfYears_succ]
    omega

/-- The days of the years 1 to 9999 come first. -/
theorem valid_iterate_next_iff (n : ℕ) : (next^[n] first).Valid ↔ n < dayCount := by
  have hcivil := civil_iterate_next n
  have hnumber := dayNumber_iterate_next n
  have hrest := daysBefore_lt_yearLength hcivil
  generalize next^[n] first = d at *
  obtain ⟨k, hk⟩ : ∃ k, d.year = k + 1 := ⟨d.year - 1, by have := hcivil.year_pos; omega⟩
  have hyear := daysOfYears_succ k
  rw [dayNumber, hk, Nat.add_sub_cancel] at hnumber
  rw [hk] at hrest
  constructor
  · rintro ⟨-, hle, -⟩
    have := daysOfYears_mono (hk ▸ hle)
    rw [dayCount]
    omega
  · intro hlt
    have hle : d.year ≤ 9999 := by
      by_contra hgt
      have : dayCount ≤ daysOfYears k := daysOfYears_mono (by omega)
      omega
    exact ⟨hcivil.year_pos, hle, hcivil.month_pos, hcivil.month_le, hcivil.day_pos, hcivil.day_le⟩

end Date
end MetricQuery
