import MetricQuery.Proofs.Calendar.Canonical
import MetricQuery.Proofs.Timestamp.Seconds

/-!
# Accepted texts

A text is a timestamp if, without the blanks around it, it is a decimal that is not too large or an
RFC 3339 text of a moment in the calendar. No text has both forms, so it does not matter which of
them is tried first.
-/

namespace MetricQuery

/-! ### Moments in the calendar -/

/-- An offset has less than 60 minutes beside its hours and is less than a day. -/
def Zone.Sound : Zone → Prop
  | .utc => True
  | .offset _ hours minutes _ => minutes ≤ 59 ∧ hours * 60 + minutes < 24 * 60

theorem Zone.sound_iff {z : Zone} :
    z.Sound ↔ z.badMinutes? = none ∧ z.seconds.natAbs < 86400 := by
  cases z with
  | utc => simp [Sound, badMinutes?, seconds]
  | offset negative hours minutes written =>
    simp only [Sound, badMinutes?, seconds, ite_eq_right_iff, reduceCtorEq, imp_false]
    split <;> omega

namespace Rfc3339

/-- The parts of a text make a moment in the calendar: a day of the years 1 to 9999, a time of the
day and a sound offset, and in UTC it is a day of these years, too. -/
structure InCalendar (m : Moment) (z : Zone) : Prop where
  date_valid : m.date.Valid
  hour_le : m.hour ≤ 23
  minute_le : m.minute ≤ 59
  second_le : m.second ≤ 59
  zone_sound : z.Sound
  utc_valid : ∃ days utcDays : ℕ, Date.next^[days] Date.first = m.date ∧
    (utcDays : ℤ) =
      (((days * 24 + m.hour) * 60 + m.minute) * 60 + m.second - z.seconds) / (24 * 60 * 60) ∧
    (Date.next^[utcDays] Date.first).Valid

theorem Fraction.lt {k nanos : ℕ} {cs : List Char} (h : Fraction k cs nanos) :
    nanos < 1000000000 := by
  cases h with
  | none => decide
  | @digits _ n _ _ _ hnumeral hvalue =>
    have hlt : nanos * tenTo k < tenTo 9 * tenTo k := by
      rw [← hvalue, Nat.mul_comm (tenTo 9)]
      exact Nat.mul_lt_mul_of_pos_right hnumeral.lt (tenTo_pos 9)
    exact Nat.lt_of_mul_lt_mul_right hlt

theorem Form.nanos_lt {cs : List Char} {m : Moment} {z : Zone} (h : Form cs m z) :
    m.nanos < 1000000000 := by
  cases h with
  | mk _ _ _ _ _ _ _ hfraction => exact hfraction.lt

/-- The moments in the calendar are those that have an instant. -/
theorem Form.exists_toInstant_iff {cs : List Char} {m : Moment} {z : Zone} (h : Form cs m z) :
    (z.badMinutes? = none ∧ ∃ i, m.toInstant = .ok i) ↔ InCalendar m z := by
  simp only [Moment.toInstant_eq_ok_iff, h.offset_eq, Option.getD_some, Moment.clock]
  constructor
  · rintro ⟨hbad, i, hsound, hseconds, hlt, -⟩
    have hoffset := hsound.offset_lt
    rw [h.offset_eq] at hoffset
    refine ⟨hsound.date_valid, hsound.hour_le, hsound.minute_le, hsound.second_le,
      Zone.sound_iff.2 ⟨hbad, hoffset⟩, m.date.dayNumber, i.seconds / 86400,
      Date.iterate_next_eq_iff.2 ⟨hsound.date_valid.civil, rfl⟩, ?_, ?_⟩
    · omega
    · rw [Date.valid_iterate_next_iff]
      omega
  · rintro ⟨hdate, hhour, hminute, hsecond, hzone, days, utcDays, hdays, hutc, hvalid⟩
    obtain ⟨hbad, hoffset⟩ := Zone.sound_iff.1 hzone
    obtain ⟨-, hnumber⟩ := Date.iterate_next_eq_iff.1 hdays
    rw [Date.valid_iterate_next_iff] at hvalid
    have hnanos := h.nanos_lt
    refine ⟨hbad, ⟨(m.date.dayNumber * 86400 + m.hour * 3600 + m.minute * 60 + m.second -
      z.seconds).toNat, m.nanos⟩, ⟨?_, hdate, hhour, hminute, hsecond, by omega⟩, ?_, ?_, rfl⟩
    · rwa [h.offset_eq]
    · dsimp only
      omega
    · dsimp only
      omega

/-! ### No text of both forms -/

/-- A dash after digits does not continue a decimal. -/
theorem read_digits_append_dash {ds : List Char} (hne : ds ≠ [])
    (h : ∀ c ∈ ds, (Digit.value? c).isSome) (rest : List Char) :
    Decimal.read Digit.value? (ds ++ '-' :: rest) = none := by
  have hsign := Decimal.readSign_append .none (Decimal.startsMantissa_append hne h ('-' :: rest))
  have hstops : Scan.Stops (fun c => (Digit.value? c).isSome) ('-' :: rest) := by
    rintro _ ⟨⟩
    rfl
  have hpoint : Scan.Stops (· == '.') ('-' :: rest) := by
    rintro _ ⟨⟩
    rfl
  have hexponent : Decimal.readExponent Digit.value? ('-' :: rest) = none := rfl
  rw [List.nil_append] at hsign
  rw [Decimal.read, hsign]
  dsimp only
  rw [Decimal.readUnsigned_eq, Digit.span_value?_append h hstops]
  dsimp only
  rw [Decimal.fractionSpan_of_stops hpoint, hexponent, Option.map_none, ite_self, Option.map_none]

theorem Form.not_decimal {cs : List Char} {m : Moment} {z : Zone} (h : Form cs m z)
    (negative : Bool) (d : Decimal) : ¬Decimal.Form cs negative d := by
  intro hdecimal
  have hread := Decimal.read_of_form hdecimal
  cases h with
  | mk hyear =>
    rw [read_digits_append_dash _ hyear.isSome_value?] at hread
    · cases hread
    · rintro rfl
      cases hyear.length_eq

end Rfc3339

namespace Timestamp
open Rfc3339

/-! ### Accepted texts -/

/-- A decimal that is rounded to a finite number: it is below the middle between the largest number
and the power of two above it. -/
def IsSeconds (cs : List Char) : Prop :=
  ∃ negative d, Decimal.Form cs negative d ∧ d.value < 2 ^ 1024 - 2 ^ 970

/-- An RFC 3339 text of a moment in the calendar. -/
def IsCalendarTime (cs : List Char) : Prop := ∃ m z, Rfc3339.Form cs m z ∧ InCalendar m z

variable {s : String}

theorem exists_ofDecimal_iff : (∃ r, ofDecimal s = .ok r) ↔ IsSeconds (chompNewline s.toList) := by
  simp only [ofDecimal_eq_ok_iff, IsSeconds]
  constructor
  · rintro ⟨_, negative, d, m, hform, hround, -⟩
    refine ⟨negative, d, hform, (Binary64.isFinite_ofDecimal_iff negative).1 ?_⟩
    rw [hround]
    rfl
  · rintro ⟨negative, d, hform, hlt⟩
    have hfinite := (Binary64.isFinite_ofDecimal_iff negative).2 hlt
    cases hround : Binary64.ofDecimal negative d with
    | finite negative' m =>
      obtain ⟨rfl, -⟩ := Binary64.ofDecimal_eq_finite_iff.1 hround
      exact ⟨_, negative, d, m, hform, hround, rfl⟩
    | nan =>
      rw [hround] at hfinite
      cases hfinite
    | infinite negative' =>
      rw [hround] at hfinite
      cases hfinite

theorem exists_ofRfc3339_iff :
    (∃ r, ofRfc3339 s = .ok r) ↔ IsCalendarTime (chompNewline s.toList) := by
  simp only [ofRfc3339_eq_ok_iff, IsCalendarTime]
  constructor
  · rintro ⟨_, m, z, i, hform, hbad, hinstant, -⟩
    exact ⟨m, z, hform, hform.exists_toInstant_iff.1 ⟨hbad, i, hinstant⟩⟩
  · rintro ⟨m, z, hform, hcalendar⟩
    obtain ⟨hbad, i, hinstant⟩ := hform.exists_toInstant_iff.2 hcalendar
    exact ⟨_, m, z, i, hform, hbad, hinstant, rfl⟩

/-! ### Two readers in a row -/

/-- The text without the blanks around it, as the first reader takes it, or else the second. -/
def readBy (first second : String → Except Error String) (v : String) : Except Error String :=
  let inner := String.ofList (trim isMargin v.toList)
  match first inner with
  | .ok r => .ok r
  | .error _ => (second inner).mapError fun _ => .timeSpecifier (.text v)

variable {first second : String → Except Error String} {v r : String}

theorem readBy_eq_ok_iff : readBy first second v = .ok r ↔
    first (String.ofList (trim isMargin v.toList)) = .ok r ∨
      (∀ r', first (String.ofList (trim isMargin v.toList)) ≠ .ok r') ∧
        second (String.ofList (trim isMargin v.toList)) = .ok r := by
  unfold readBy
  dsimp only
  cases first (String.ofList (trim isMargin v.toList)) with
  | ok r' => simp
  | error e => simp [mapError_eq_ok_iff]

/-- A refused text is named as it was given. -/
theorem readBy_eq_error (h : ¬∃ r, readBy first second v = .ok r) :
    readBy first second v = .error (.timeSpecifier (.text v)) := by
  unfold readBy at h ⊢
  dsimp only at h ⊢
  cases hfirst : first (String.ofList (trim isMargin v.toList)) with
  | ok r => exact absurd ⟨r, by rw [hfirst]⟩ h
  | error e =>
    cases hsecond : second (String.ofList (trim isMargin v.toList)) with
    | ok r => exact absurd ⟨r, by rw [hfirst, hsecond]; rfl⟩ h
    | error e => rfl

/-- Readers that accept no text in common may be tried in either order. -/
theorem readBy_comm (h : ∀ s, ¬((∃ r, first s = .ok r) ∧ ∃ r, second s = .ok r)) (v : String) :
    readBy first second v = readBy second first v := by
  have hinner := h (String.ofList (trim isMargin v.toList))
  unfold readBy
  dsimp only
  cases hfirst : first (String.ofList (trim isMargin v.toList)) with
  | ok r =>
    cases hsecond : second (String.ofList (trim isMargin v.toList)) with
    | ok r' => exact absurd ⟨⟨r, hfirst⟩, r', hsecond⟩ hinner
    | error e => rfl
  | error e =>
    cases hsecond : second (String.ofList (trim isMargin v.toList)) with
    | ok r => rfl
    | error e => rfl

theorem ofValue_text (v : String) : ofValue (.text v) = readBy ofDecimal ofRfc3339 v := by
  show ofText v = _
  unfold ofText readBy
  cases hseconds : ofDecimal (String.ofList (trim isMargin v.toList)) with
  | ok r => simp only [hseconds]
  | error e => simp only [hseconds]

theorem exists_ofValue_text_iff (v : String) : (∃ r, ofValue (.text v) = .ok r) ↔
    IsSeconds (trim isMargin v.toList) ∨ IsCalendarTime (trim isMargin v.toList) := by
  have hseconds := exists_ofDecimal_iff (s := String.ofList (trim isMargin v.toList))
  have hcalendar := exists_ofRfc3339_iff (s := String.ofList (trim isMargin v.toList))
  rw [String.toList_ofList, chompNewline_trim] at hseconds hcalendar
  rw [← hseconds, ← hcalendar]
  simp only [ofValue_text, readBy_eq_ok_iff]
  constructor
  · rintro ⟨r, hr | ⟨-, hr⟩⟩
    · exact .inl ⟨r, hr⟩
    · exact .inr ⟨r, hr⟩
  · intro h
    by_cases hfirst : ∃ r, ofDecimal (String.ofList (trim isMargin v.toList)) = .ok r
    · exact hfirst.imp fun r hr => .inl hr
    · obtain ⟨r, hr⟩ := h.resolve_left hfirst
      exact ⟨r, .inr ⟨fun r' hr' => hfirst ⟨r', hr'⟩, hr⟩⟩

theorem not_ofDecimal_and_ofRfc3339 (s : String) :
    ¬((∃ r, ofDecimal s = .ok r) ∧ ∃ r, ofRfc3339 s = .ok r) := by
  rw [exists_ofDecimal_iff, exists_ofRfc3339_iff]
  rintro ⟨⟨negative, d, hdecimal, -⟩, m, z, hform, -⟩
  exact hform.not_decimal negative d hdecimal

/-- **The accepted texts.** Without the blanks around it, an accepted text is either a decimal whose
nearest number is finite or an RFC 3339 text of a moment in the calendar, and every other text is
refused. No text has both forms; the readers may be tried in either order; and blanks around a text
change neither whether it is accepted nor its canonical text. -/
theorem ofValue_text_accepts :
    (∀ v : String, (∃ r, ofValue (.text v) = .ok r) ↔
      IsSeconds (trim isMargin v.toList) ∨ IsCalendarTime (trim isMargin v.toList)) ∧
    (∀ v : String,
      ¬(IsSeconds (trim isMargin v.toList) ∨ IsCalendarTime (trim isMargin v.toList)) →
        ofValue (.text v) = .error (.timeSpecifier (.text v))) ∧
    (∀ cs, ¬((∃ negative d, Decimal.Form cs negative d) ∧ ∃ m z, Rfc3339.Form cs m z)) ∧
    (∀ v : String, ofValue (.text v) = readBy ofDecimal ofRfc3339 v ∧
      ofValue (.text v) = readBy ofRfc3339 ofDecimal v) ∧
    (∀ before v after : String,
      (∀ c ∈ before.toList, isMargin c) → (∀ c ∈ after.toList, isMargin c) →
      ∀ r, ofValue (.text (before ++ v ++ after)) = .ok r ↔ ofValue (.text v) = .ok r) := by
  refine ⟨exists_ofValue_text_iff, fun v h => ?_, ?_, fun v => ⟨ofValue_text v, ?_⟩, ?_⟩
  · rw [← exists_ofValue_text_iff] at h
    simp only [ofValue_text] at h ⊢
    exact readBy_eq_error h
  · rintro cs ⟨⟨negative, d, hdecimal⟩, m, z, hform⟩
    exact hform.not_decimal negative d hdecimal
  · rw [ofValue_text, readBy_comm not_ofDecimal_and_ofRfc3339]
  · intro before v after hbefore hafter r
    have htrim : trim isMargin (before ++ v ++ after).toList = trim isMargin v.toList := by
      rw [String.toList_append, String.toList_append, List.append_assoc,
        trim_append hbefore hafter]
    rw [ofValue_text, ofValue_text, readBy_eq_ok_iff, readBy_eq_ok_iff, htrim]

/-- A day that is not in the calendar, and a decimal between blanks. -/
theorem ofValue_text_accepts_example :
    ofValue (.text "2021-02-29T00:00:00Z") =
        .error (.timeSpecifier (.text "2021-02-29T00:00:00Z")) ∧
      ofValue (.text ("\u2003" ++ "1.50e3" ++ " \n")) = .ok "1500" := by
  obtain ⟨haccepts, hrefused, -, -, hblanks⟩ := ofValue_text_accepts
  have hspace : ∀ c ∈ "\u2003".toList, isMargin c := List.all_eq_true.1 (by decide)
  have hfeed : ∀ c ∈ " \n".toList, isMargin c := List.all_eq_true.1 (by decide)
  refine ⟨hrefused _ fun h => ?_, (hblanks _ _ _ hspace hfeed _).2 ?_⟩
  · obtain ⟨r, hr⟩ := (haccepts _).2 h
    have hnone : (ofValue (.text "2021-02-29T00:00:00Z")).toOption = none := by decide +kernel
    rw [hr] at hnone
    cases hnone
  · exact toOption_eq_some_iff.1 (by decide +kernel)

end Timestamp
end MetricQuery
