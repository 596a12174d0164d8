import MetricQuery.Proofs.Text.Blank
import MetricQuery.Proofs.Timestamp.Acceptance

/-!
# Moments and their texts

A moment may be given by its parts or written as an RFC 3339 text with its microseconds. Both ways
lead to the same canonical text, and both fail when the moment is out of the calendar in UTC.
-/

namespace MetricQuery
namespace Rfc3339

/-! ### Line feeds -/

theorem newline_not_mem_of_numeral {width n : ℕ} {cs : List Char} (h : Numeral width cs n) :
    '\n' ∉ cs := by
  intro hmem
  have hdigit := h.isSome_value? _ hmem
  rw [show Digit.value? '\n' = none from rfl] at hdigit
  cases hdigit

theorem Fraction.newline_not_mem {k nanos : ℕ} {cs : List Char} (h : Fraction k cs nanos) :
    '\n' ∉ cs := by
  cases h with
  | none => exact List.not_mem_nil
  | digits _ hdigits _ => simpa using newline_not_mem_of_numeral hdigits

theorem ZoneForm.newline_not_mem {cs : List Char} {z : Zone} (h : ZoneForm cs z) : '\n' ∉ cs := by
  cases h with
  | utc hc => rcases hc with rfl | rfl <;> simp
  | offset hsign hhours hminutes =>
    have hhours := newline_not_mem_of_numeral hhours
    have hminutes := newline_not_mem_of_numeral hminutes
    rcases hsign with rfl | rfl <;> simp [hhours, hminutes]

/-- There is no line feed in a text of the form. -/
theorem Form.newline_not_mem {cs : List Char} {m : Moment} {z : Zone} (h : Form cs m z) :
    '\n' ∉ cs := by
  obtain ⟨hyear, hmonth, hday, hseparator, hhour, hminute, hsecond, hfraction, -, hzone⟩ := h
  have hmarks : ∀ separator ∈ ['T', 't', ' '], '\n' ≠ separator := by simp
  simp [newline_not_mem_of_numeral hyear, newline_not_mem_of_numeral hmonth,
    newline_not_mem_of_numeral hday, newline_not_mem_of_numeral hhour,
    newline_not_mem_of_numeral hminute, newline_not_mem_of_numeral hsecond,
    hmarks _ (by simpa using hseparator), hfraction.newline_not_mem, hzone.newline_not_mem]

theorem Form.chompNewline_eq {cs : List Char} {m : Moment} {z : Zone} (h : Form cs m z) :
    chompNewline cs = cs :=
  chompNewline_of_getLast? fun hlast => h.newline_not_mem (List.mem_of_getLast? hlast)

end Rfc3339

namespace Moment
open Rfc3339

variable {m : Moment}

/-- An offset as a sign, two digits of hours, a colon and two digits of minutes. -/
def writeOffset (o : ℤ) : List Char :=
  (if o < 0 then '-' else '+') :: (Digit.writePadded 2 (o.natAbs / 3600) ++
    ':' :: Digit.writePadded 2 (o.natAbs / 60 % 60))

/-- The mark `Z` for a moment without offset, or else its offset. -/
def writeZone : Option ℤ → List Char
  | none => ['Z']
  | some o => writeOffset o

/-- A moment as an RFC 3339 text with a year of four digits and with microseconds. -/
def write (m : Moment) : List Char :=
  Digit.writePadded 4 m.date.year ++ '-' :: (Digit.writePadded 2 m.date.month ++
    '-' :: (Digit.writePadded 2 m.date.day ++ 'T' :: (Digit.writePadded 2 m.hour ++
      ':' :: (Digit.writePadded 2 m.minute ++ ':' :: (Digit.writePadded 2 m.second ++
        ('.' :: Digit.writePadded 6 (m.nanos / 1000) ++ writeZone m.offset))))))

-- A clock that is behind UTC.
example : write ⟨⟨987, 6, 5⟩, 4, 3, 2, 1000, some (-12600)⟩ =
    "0987-06-05T04:03:02.000001-03:30".toList := by decide

/-- A moment is at a whole microsecond, and its offset is a number of whole minutes. -/
structure IsWritable (m : Moment) : Prop where
  micros : 1000 ∣ m.nanos
  minutes : ∀ o ∈ m.offset, 60 ∣ o

/-- The date of a moment in UTC lies in the years 1 to 9999. -/
def UtcValid (m : Moment) : Prop :=
  ∃ days utcDays : ℕ, Date.next^[days] Date.first = m.date ∧
    (utcDays : ℤ) = (((days * 24 + m.hour) * 60 + m.minute) * 60 + m.second - m.offset.getD 0) /
      (24 * 60 * 60) ∧
    (Date.next^[utcDays] Date.first).Valid

/-- The zone that is written for an offset. -/
def zone : Option ℤ → Zone
  | none => .utc
  | some o =>
    .offset (decide (o < 0)) (o.natAbs / 3600) (o.natAbs / 60 % 60) (writeOffset o)

theorem seconds_zone {offset : Option ℤ} (h : ∀ o ∈ offset, 60 ∣ o) :
    (zone offset).seconds = offset.getD 0 := by
  cases offset with
  | none => rfl
  | some o =>
    have ho : 60 ∣ o := h o rfl
    simp only [zone, Zone.seconds, decide_eq_true_eq, Option.getD_some]
    split <;> omega

theorem zoneForm_zone {offset : Option ℤ} (h : (offset.getD 0).natAbs < 86400) :
    ZoneForm (writeZone offset) (zone offset) := by
  cases offset with
  | none => exact .utc (.inl rfl)
  | some o =>
    have hhours : Numeral 2 (Digit.writePadded 2 (o.natAbs / 3600)) (o.natAbs / 3600) :=
      .writePadded (by decide) (by show _ < 100; simp only [Option.getD_some] at h; omega)
    have hminutes : Numeral 2 (Digit.writePadded 2 (o.natAbs / 60 % 60)) (o.natAbs / 60 % 60) :=
      .writePadded (by decide) (by show _ < 100; omega)
    by_cases ho : o < 0
    · have hform := ZoneForm.offset (.inr rfl : '-' = '+' ∨ '-' = '-') hhours hminutes
      simpa [writeZone, writeOffset, zone, ho] using hform
    · have hform := ZoneForm.offset (.inl rfl : '+' = '+' ∨ '+' = '-') hhours hminutes
      simpa [writeZone, writeOffset, zone, ho] using hform

/-- The text of a moment writes its parts, with the offset zero when it has none. -/
theorem Sound.form_write (hm : m.Sound) (hw : m.IsWritable) :
    Form m.write { m with offset := some (m.offset.getD 0) } (zone m.offset) := by
  obtain ⟨hoffset, ⟨-, hyear, -, hmonth, -, hday⟩, hhour, hminute, hsecond, hnanos⟩ := hm
  obtain ⟨hmicros, hminutes⟩ := hw
  have hday' := Date.daysInMonth_le m.date.year m.date.month
  have htwo {n : ℕ} (hn : n < 100) : Numeral 2 (Digit.writePadded 2 n) n :=
    .writePadded (by decide) hn
  have hfraction : Fraction 6 ('.' :: Digit.writePadded 6 (m.nanos / 1000)) m.nanos := by
    refine .writePadded (by decide) ?_ ?_
    · show m.nanos / 1000 < 1000000
      omega
    · show m.nanos / 1000 * 1000000000 = m.nanos * 1000000
      omega
  rw [← seconds_zone hminutes]
  exact .mk (.writePadded (by decide) (Nat.lt_succ_of_le hyear)) (htwo (by omega))
    (htwo (by omega)) (.inl rfl) (htwo (by omega)) (htwo (by omega)) (htwo (by omega)) hfraction
    (by decide) (zoneForm_zone hoffset)

theorem badMinutes?_zone (offset : Option ℤ) : (zone offset).badMinutes? = none := by
  cases offset with
  | none => rfl
  | some o => exact if_neg (Nat.not_le.2 (Nat.mod_lt _ (by decide)))

/-! ### Instants -/

theorem Sound.with_offset (hm : m.Sound) :
    Sound { m with offset := some (m.offset.getD 0) } :=
  ⟨hm.offset_lt, hm.date_valid, hm.hour_le, hm.minute_le, hm.second_le, hm.nanos_le⟩

theorem Sound.toInstant_eq (hm : m.Sound) : m.toInstant = m.shift := by
  rw [toInstant, fault?_eq_none_iff.2 hm]

theorem shift_eq_error {fault : CalendarFault} (h : m.shift = .error fault) : fault = .range := by
  unfold shift at h
  dsimp only at h
  split at h
  · cases h
  · exact (Except.error.inj h).symm

/-- A moment has an instant exactly when its date in UTC is in the calendar. -/
theorem Sound.exists_shift_iff (hm : m.Sound) (hw : m.IsWritable) :
    (∃ i, m.shift = .ok i) ↔ m.UtcValid := by
  have hcalendar := (hm.form_write hw).exists_toInstant_iff
  rw [hm.with_offset.toInstant_eq, and_iff_right (badMinutes?_zone m.offset)] at hcalendar
  refine hcalendar.trans ⟨fun h => ?_, fun h => ?_⟩
  · have hvalid := h.utc_valid
    rwa [seconds_zone hw.minutes] at hvalid
  · refine ⟨hm.date_valid, hm.hour_le, hm.minute_le, hm.second_le, ?_, ?_⟩
    · rw [Zone.sound_iff, seconds_zone hw.minutes]
      exact ⟨badMinutes?_zone m.offset, hm.offset_lt⟩
    · rwa [seconds_zone hw.minutes]

end Moment

namespace Timestamp
open Moment

variable {m : Moment}

/-- The text of a moment is read as that moment. -/
theorem ofRfc3339_write (hm : m.Sound) (hw : m.IsWritable) :
    ofRfc3339 (String.ofList m.write) = match m.shift with
      | .ok i => .ok (String.ofList i.text)
      | .error fault => .error (.rfc3339 (String.ofList m.write) fault) := by
  have hform := hm.form_write hw
  have hread : Rfc3339.read (chompNewline (String.ofList m.write).toList) =
      some ({ m with offset := some (m.offset.getD 0) }, zone m.offset) := by
    rw [String.toList_ofList, hform.chompNewline_eq, Rfc3339.read_of_form hform]
  simp only [ofRfc3339, hread, badMinutes?_zone, hm.with_offset.toInstant_eq]
  rfl

/-- **A moment and its text have the same canonical text.** When the date in UTC lies in the years 1
to 9999, both are accepted and lead to the same canonical text. Otherwise both are refused: the
moment as an overflow, the text as a bad value. -/
theorem ofMoment_eq_ofRfc3339 (hm : m.Sound) (hw : m.IsWritable) :
    (m.UtcValid ∧ ∃ r, ofMoment m = .ok r ∧ ofRfc3339 (String.ofList m.write) = .ok r) ∨
    (¬m.UtcValid ∧ ofMoment m = .error .dateRange ∧ Error.dateRange.kind = .overflow ∧
      ofRfc3339 (String.ofList m.write) = .error (.rfc3339 (String.ofList m.write) .range) ∧
      (Error.rfc3339 (String.ofList m.write) .range).kind = .badValue) := by
  rw [ofRfc3339_write hm hw, ofMoment, ← hm.exists_shift_iff hw]
  cases hshift : m.shift with
  | ok i => exact .inl ⟨⟨i, rfl⟩, _, rfl, rfl⟩
  | error fault =>
    obtain rfl := shift_eq_error hshift
    refine .inr ⟨?_, rfl, rfl, rfl, rfl⟩
    rintro ⟨i, hi⟩
    cases hi

/-- A quarter past midnight on the first day of 2021, by a clock that is ahead of UTC. -/
def newYear : Moment := ⟨⟨2021, 1, 1⟩, 0, 15, 30, 250000000, some 5400⟩

/-- The last minute of the year 9999, by a clock that is behind UTC. -/
def lastMinute : Moment := ⟨⟨9999, 12, 31⟩, 23, 59, 0, 1000, some (-60)⟩

theorem sound_newYear : newYear.Sound ∧ newYear.IsWritable := by
  refine ⟨⟨by decide, by decide, by decide, by decide, by decide, by decide⟩, by decide, ?_⟩
  rintro _ ⟨⟩
  decide

theorem sound_lastMinute : lastMinute.Sound ∧ lastMinute.IsWritable := by
  refine ⟨⟨by decide, by decide, by decide, by decide, by decide, by decide⟩, by decide, ?_⟩
  rintro _ ⟨⟩
  decide

/-- In UTC the first of them lies in the year before, and the other one beyond the calendar. -/
theorem ofMoment_eq_ofRfc3339_newYear :
    (newYear.Sound ∧ newYear.IsWritable ∧ newYear.UtcValid ∧
      ofMoment newYear = .ok "2020-12-31T22:45:30.250Z" ∧
      ofRfc3339 "2021-01-01T00:15:30.250000+01:30" = .ok "2020-12-31T22:45:30.250Z") ∧
    lastMinute.Sound ∧ lastMinute.IsWritable ∧ ¬lastMinute.UtcValid ∧
      ofMoment lastMinute = .error .dateRange ∧
      ofRfc3339 "9999-12-31T23:59:00.000001-00:01" =
        .error (.rfc3339 "9999-12-31T23:59:00.000001-00:01" .range) := by
  constructor
  · obtain ⟨hsound, hwritable⟩ := sound_newYear
    have hmoment : ofMoment newYear = .ok "2020-12-31T22:45:30.250Z" := rfl
    rcases ofMoment_eq_ofRfc3339 hsound hwritable with ⟨hutc, r, hr, hr'⟩ | ⟨-, herror, -⟩
    · obtain rfl := Except.ok.inj (hr.symm.trans hmoment)
      exact ⟨hsound, hwritable, hutc, hmoment, hr'⟩
    · cases hmoment.symm.trans herror
  · obtain ⟨hsound, hwritable⟩ := sound_lastMinute
    have hmoment : ofMoment lastMinute = .error .dateRange := rfl
    rcases ofMoment_eq_ofRfc3339 hsound hwritable with ⟨-, r, hr, -⟩ | ⟨hutc, -, -, htext, -⟩
    · cases hmoment.symm.trans hr
    · exact ⟨hsound, hwritable, hutc, hmoment, htext⟩

end Timestamp
end MetricQuery
