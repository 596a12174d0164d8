import MetricQuery.Proofs.Query.Run
import MetricQuery.Proofs.Timestamp.Acceptance

/-!
# Feeding canonical texts back

The canonical text of an instant from the year 1000 on is an RFC 3339 text of the same instant, so
it is its own canonical text. Before that the year has less than four digits, and the text is in
neither of the forms that are read.
-/

namespace MetricQuery

namespace Instant
open Rfc3339

variable {i : Instant}

/-- The moment in UTC that an instant is. -/
def moment (i : Instant) : Moment where
  date := Date.ofDayNumber (i.seconds / 86400)
  hour := i.seconds % 86400 / 3600
  minute := i.seconds % 86400 / 60 % 60
  second := i.seconds % 86400 % 60
  nanos := i.nanos
  offset := some 0

theorem clock_moment (i : Instant) : i.moment.clock = i.seconds := by
  have hnumber : (Date.ofDayNumber (i.seconds / 86400)).dayNumber = i.seconds / 86400 := by
    rw [Date.ofDayNumber_eq, Date.dayNumber_iterate_next]
  simp only [Moment.clock, moment, hnumber]
  omega

/-- The text of an instant, with the marks between its parts. -/
theorem text_eq (i : Instant) : i.text = Digit.write i.moment.date.year ++ '-' ::
    (Digit.writePadded 2 i.moment.date.month ++ '-' :: (Digit.writePadded 2 i.moment.date.day ++
      'T' :: (Digit.writePadded 2 i.moment.hour ++ ':' :: (Digit.writePadded 2 i.moment.minute ++
        ':' :: (Digit.writePadded 2 i.moment.second ++ (fraction i.nanos ++ ['Z'])))))) := by
  simp only [text, moment, List.append_assoc, List.cons_append]

theorem isMargin_of_isDigit {c : Char} (h : c.isDigit) : isMargin c = false := by
  rw [← Bool.not_eq_true]
  intro hmargin
  have hvalue := value?_of_isMargin hmargin
  rw [Digit.value?_of_isDigit h] at hvalue
  cases hvalue

theorem isMargin_of_mem_text {c : Char} (h : c ∈ i.text) : isMargin c = false := by
  have hpadded {n k : ℕ} (hc : c ∈ Digit.writePadded k n) : isMargin c = false :=
    isMargin_of_isDigit (Digit.isDigit_of_mem_writePadded hc)
  rw [text_eq] at h
  simp only [List.mem_append, List.mem_cons, List.not_mem_nil, or_false] at h
  -- Digits and marks in turn, the fraction and the zone.
  rcases h with h | rfl | h | rfl | h | rfl | h | rfl | h | rfl | h | h | rfl
  · exact isMargin_of_isDigit (Digit.isDigit_of_mem_write h)
  · rfl
  · exact hpadded h
  · rfl
  · exact hpadded h
  · rfl
  · exact hpadded h
  · rfl
  · exact hpadded h
  · rfl
  · exact hpadded h
  · rcases eq_point_or_isDigit_of_mem_fraction h with rfl | hc
    · rfl
    · exact isMargin_of_isDigit hc
  · rfl

theorem chompNewline_text (i : Instant) : chompNewline i.text = i.text :=
  chompNewline_of_getLast? fun h => by cases isMargin_of_mem_text (List.mem_of_getLast? h)

theorem trim_text (i : Instant) : trim isMargin i.text = i.text :=
  trim_of_forall_not fun _ => isMargin_of_mem_text

/-- From the year 1000 on the text of an instant has the form of RFC 3339. -/
theorem form_text (hnanos : i.nanos ≤ 999999999) (hyear : 1000 ≤ i.moment.date.year)
    (hyear' : i.moment.date.year ≤ 9999) : Form i.text i.moment .utc := by
  have hcivil : i.moment.date.Civil := by
    show (Date.ofDayNumber (i.seconds / 86400)).Civil
    rw [Date.ofDayNumber_eq]
    exact Date.civil_iterate_next _
  have hcount : Digit.count i.moment.date.year = 4 := by
    have hle := (Digit.count_le_iff (n := i.moment.date.year) (by decide : 0 < 4)).2
      (Nat.lt_succ_of_le hyear')
    have hlt := (Digit.count_le_iff (n := i.moment.date.year) (by decide : 0 < 3)).not.2
      (Nat.not_lt.2 hyear)
    omega
  have hwrite : Digit.write i.moment.date.year = Digit.writePadded 4 i.moment.date.year := by
    rw [Digit.writePadded, hcount, Nat.sub_self]
    rfl
  have htwo {n : ℕ} (hn : n < 100) : Numeral 2 (Digit.writePadded 2 n) n :=
    .writePadded (by decide) hn
  obtain ⟨k, hk, hfraction, -⟩ := fraction_shortest hnanos
  have hk' : k ≤ 9 := by
    simp only [List.mem_cons, List.not_mem_nil, or_false] at hk
    omega
  have hmonth := hcivil.month_le
  have hday := hcivil.day_lt
  rw [text_eq, hwrite]
  exact .mk (.writePadded (by decide) (Nat.lt_succ_of_le hyear')) (htwo (by omega))
    (htwo (by omega)) (.inl rfl) (htwo (by simp only [moment]; omega))
    (htwo (by simp only [moment]; omega)) (htwo (by simp only [moment]; omega)) hfraction hk'
    (.utc (.inl rfl))

theorem eq_of_append_dash {ds es cs rest : List Char} (hds : ∀ c ∈ ds, (Digit.value? c).isSome)
    (hes : ∀ c ∈ es, (Digit.value? c).isSome) (h : ds ++ '-' :: cs = es ++ '-' :: rest) :
    ds = es := by
  have hdash (cs : List Char) : Scan.Stops (fun c => (Digit.value? c).isSome) ('-' :: cs) := by
    rintro _ ⟨⟩
    rfl
  have hrun := (Scan.run_append hds (hdash cs)).symm.trans
    ((congrArg _ h).trans (Scan.run_append hes (hdash rest)))
  exact (Prod.mk.inj hrun).1

theorem isSome_value?_of_mem_write {n : ℕ} {c : Char} (h : c ∈ Digit.write n) :
    (Digit.value? c).isSome := by
  rw [Digit.value?_of_isDigit (Digit.isDigit_of_mem_write h)]
  rfl

/-- Before the year 1000 it has not. -/
theorem not_form_text (hyear : i.moment.date.year < 1000) (m : Moment) (z : Zone) :
    ¬Form i.text m z := by
  intro h
  have hcount : Digit.count i.moment.date.year ≤ 3 := (Digit.count_le_iff (by decide)).2 hyear
  have htext := i.text_eq
  generalize i.text = cs at h htext
  cases h with
  | mk hyear' =>
    have hwrite :=
      eq_of_append_dash hyear'.isSome_value? (fun _ => isSome_value?_of_mem_write) htext
    have hlength := hyear'.length_eq
    rw [hwrite, ← Digit.count] at hlength
    omega

/-- The text of an instant is no decimal. -/
theorem not_decimal_text (i : Instant) (negative : Bool) (d : Decimal) :
    ¬Decimal.Form i.text negative d := by
  intro h
  have hread := Decimal.read_of_form h
  rw [text_eq, read_digits_append_dash (Digit.write_ne_nil _)
    fun _ => isSome_value?_of_mem_write] at hread
  cases hread

end Instant

namespace Timestamp
open Rfc3339

variable {t r : String}

/-- An instant of the calendar from the year 1000 on is read back from its text. -/
theorem ofRfc3339_text {i : Instant} (hnanos : i.nanos ≤ 999999999)
    (hseconds : i.seconds < Date.dayCount * 86400) (hyear : 1000 ≤ i.moment.date.year) :
    ofRfc3339 (String.ofList i.text) = .ok (String.ofList i.text) := by
  have hvalid : i.moment.date.Valid := by
    show (Date.ofDayNumber (i.seconds / 86400)).Valid
    rw [Date.ofDayNumber_eq, Date.valid_iterate_next_iff]
    omega
  have hform := Instant.form_text hnanos hyear hvalid.2.1
  have hsound : i.moment.Sound := by
    refine ⟨Nat.succ_pos 86399, hvalid, ?_, ?_, ?_, hnanos⟩
    all_goals
      simp only [Instant.moment]
      omega
  have hclock : (i.seconds : ℤ) = i.moment.clock - i.moment.offset.getD 0 := by
    rw [i.clock_moment]
    exact (Int.sub_zero _).symm
  refine ofRfc3339_eq_ok_iff.2 ⟨i.moment, .utc, i, ?_, rfl, ?_, rfl⟩
  · rwa [String.toList_ofList, i.chompNewline_text]
  · exact Moment.toInstant_eq_ok_iff.2 ⟨hsound, hclock, hseconds, rfl⟩

/-- A canonical text of an instant that is stable is a timestamp without its blanks. -/
theorem ofValue_text_of_ofRfc3339 {i : Instant} (h : ofRfc3339 (String.ofList i.text) = .ok r) :
    ofValue (.text (String.ofList i.text)) = .ok r := by
  rw [ofValue_text, readBy_comm not_ofDecimal_and_ofRfc3339, readBy_eq_ok_iff, String.toList_ofList,
    i.trim_text]
  exact .inl h

/-- Before the year 1000 the text of an instant has neither form. -/
theorem refused_text {i : Instant} (hyear : i.moment.date.year < 1000) :
    ofRfc3339 (String.ofList i.text) = .error (.notRfc3339 (String.ofList i.text)) ∧
      ofValue (.text (String.ofList i.text)) =
        .error (.timeSpecifier (.text (String.ofList i.text))) := by
  have hread : Rfc3339.read i.text = none := by
    rw [Option.eq_none_iff_forall_ne_some]
    rintro ⟨m, z⟩ hread
    exact Instant.not_form_text hyear m z (Rfc3339.form_of_read hread)
  constructor
  · rw [ofRfc3339, String.toList_ofList, i.chompNewline_text, hread]
  · rw [ofValue_text]
    refine readBy_eq_error ?_
    simp only [← ofValue_text]
    rw [exists_ofValue_text_iff, String.toList_ofList, i.trim_text]
    rintro (⟨negative, d, hform, -⟩ | ⟨m, z, hform, -⟩)
    · exact Instant.not_decimal_text i negative d hform
    · exact Instant.not_form_text hyear m z hform

/-- **When a canonical text is stable.** An accepted text denotes an instant. If its date in UTC is
in the year 1000 or later, the canonical text is its own canonical text, and a builder stores it as
it is. Before that, its year is written with fewer than four digits, and it is refused. -/
theorem ofRfc3339_stable (h : ofRfc3339 t = .ok r) : ∃ i date, Denotes t.toList i ∧
    Date.next^[i.seconds / (24 * 60 * 60)] Date.first = date ∧
    (1000 ≤ date.year → ofRfc3339 r = .ok r ∧
      (∀ b : InstantBuilder, (InstantBuilder.perform (.at (.text r))).on b =
        (.ok .chained, { b with time := some r })) ∧
      (∀ b : RangeBuilder, (RangeBuilder.perform (.start (.text r))).on b =
        (.ok .chained, { b with start := some r })) ∧
      ∀ b : RangeBuilder, (RangeBuilder.perform (.stop (.text r))).on b =
        (.ok .chained, { b with stop := some r })) ∧
    (date.year < 1000 → ofRfc3339 r = .error (.notRfc3339 r) ∧
      ofValue (.text r) = .error (.timeSpecifier (.text r))) := by
  obtain ⟨m, z, i, hform, -, hinstant, rfl⟩ := ofRfc3339_eq_ok_iff.1 h
  obtain ⟨hsound, -, hseconds, hnanos⟩ := Moment.toInstant_eq_ok_iff.1 hinstant
  refine ⟨i, i.moment.date, denotes_of_toInstant hform hinstant, (Date.ofDayNumber_eq _).symm,
    fun hyear => ?_, refused_text⟩
  have hread := ofRfc3339_text (hnanos ▸ hsound.nanos_le) hseconds hyear
  have hvalue := ofValue_text_of_ofRfc3339 hread
  refine ⟨hread, fun b => ?_, fun b => ?_, fun b => ?_⟩
  · simp only [InstantBuilder.perform, Building.on_bind, Building.on_check, hvalue]
    rfl
  · simp only [RangeBuilder.perform, Building.on_bind, Building.on_check, hvalue]
    rfl
  · simp only [RangeBuilder.perform, Building.on_bind, Building.on_check, hvalue]
    rfl

/-- An offset moves the last second of the year 999 into the year 1000. -/
theorem ofRfc3339_stable_year_1000 :
    ofRfc3339 "0999-12-31T23:59:59.5-00:01" = .ok "1000-01-01T00:00:59.500Z" ∧
      ∀ b : InstantBuilder,
        (InstantBuilder.perform (.at (.text "1000-01-01T00:00:59.500Z"))).on b =
          (.ok .chained, { b with time := some "1000-01-01T00:00:59.500Z" }) := by
  have h : ofRfc3339 "0999-12-31T23:59:59.5-00:01" = .ok "1000-01-01T00:00:59.500Z" := rfl
  obtain ⟨i, date, -, -, hstable, hrefused⟩ := ofRfc3339_stable h
  have hyear : 1000 ≤ date.year := by
    by_contra hlt
    have hread : ofRfc3339 "1000-01-01T00:00:59.500Z" = .ok "1000-01-01T00:00:59.500Z" := rfl
    have herror := (hrefused (Nat.not_le.1 hlt)).1
    rw [hread] at herror
    cases herror
  exact ⟨h, (hstable hyear).2.1⟩

/-- In the year 999 the canonical text has three digits of the year, and is refused. -/
theorem ofRfc3339_year_999 :
    ofRfc3339 "0999-01-01T00:00:00Z" = .ok "999-01-01T00:00:00Z" ∧
      ofRfc3339 "999-01-01T00:00:00Z" = .error (.notRfc3339 "999-01-01T00:00:00Z") ∧
      ¬∀ t r, ofRfc3339 t = .ok r → ofRfc3339 r = .ok r := by
  have ht : ofRfc3339 "0999-01-01T00:00:00Z" = .ok "999-01-01T00:00:00Z" := rfl
  have hr : ofRfc3339 "999-01-01T00:00:00Z" = .error (.notRfc3339 "999-01-01T00:00:00Z") := rfl
  refine ⟨ht, hr, fun h => ?_⟩
  have hstable := h _ _ ht
  rw [hr] at hstable
  cases hstable

end Timestamp
end MetricQuery
