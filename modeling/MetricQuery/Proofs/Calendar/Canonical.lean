import MetricQuery.Proofs.Calendar.Instant
import MetricQuery.Timestamp

/-!
# Canonical texts of RFC 3339 texts

An accepted text denotes an instant, which its canonical text shows. So two accepted texts have the
same canonical text exactly when they denote the same instant.
-/

namespace MetricQuery

/-- A text denotes an instant. Its local date is `days` days after the first day of the calendar,
and the offset of its clock is taken from the seconds that the clock shows. One line feed may end
the text. -/
def Rfc3339.Denotes (cs : List Char) (i : Instant) : Prop :=
  ∃ m z days, Form (chompNewline cs) m z ∧ Date.next^[days] Date.first = m.date ∧
    (i.seconds : ℤ) =
      ((days * 24 + m.hour) * 60 + m.minute) * 60 + m.second - z.seconds ∧
    i.nanos = m.nanos

theorem Rfc3339.Form.offset_eq {cs : List Char} {m : Moment} {z : Zone} (h : Form cs m z) :
    m.offset = some z.seconds := by
  cases h
  rfl

theorem Rfc3339.denotes_of_toInstant {cs : List Char} {m : Moment} {z : Zone} {i : Instant}
    (hform : Form (chompNewline cs) m z) (h : m.toInstant = .ok i) : Denotes cs i := by
  obtain ⟨hsound, hseconds, -, hnanos⟩ := Moment.toInstant_eq_ok_iff.1 h
  have hdate := Date.iterate_next_eq_iff.2 ⟨hsound.date_valid.civil, rfl⟩
  refine ⟨m, z, m.date.dayNumber, hform, hdate, ?_, hnanos⟩
  rw [hform.offset_eq, Option.getD_some, Moment.clock] at hseconds
  omega

/-- A text of the form denotes at most one instant. -/
theorem Rfc3339.Denotes.unique {cs : List Char} {i j : Instant} (hi : Denotes cs i)
    (hj : Denotes cs j) : i = j := by
  obtain ⟨m, z, days, hform, hdays, hseconds, hnanos⟩ := hi
  obtain ⟨m', z', days', hform', hdays', hseconds', hnanos'⟩ := hj
  have hread := (read_of_form hform).symm.trans (read_of_form hform')
  obtain ⟨rfl, rfl⟩ := Prod.mk.inj (Option.some.inj hread)
  have hsame : days = days' := by
    rw [← Date.dayNumber_iterate_next days, hdays, ← hdays', Date.dayNumber_iterate_next]
  subst hsame
  obtain ⟨seconds, nanos⟩ := i
  obtain ⟨seconds', nanos'⟩ := j
  simp only at hseconds hseconds' hnanos hnanos'
  rw [Instant.mk.injEq]
  omega

namespace Timestamp
open Rfc3339

/-- The accepted texts: those of the form with less than 60 minutes in the offset, for a sound
moment whose instant lies in the calendar. -/
theorem ofRfc3339_eq_ok_iff {s r : String} :
    ofRfc3339 s = .ok r ↔ ∃ m z i, Form (chompNewline s.toList) m z ∧ z.badMinutes? = none ∧
      m.toInstant = .ok i ∧ r = String.ofList i.text := by
  simp only [← read_eq_some_iff, ofRfc3339]
  cases hread : Rfc3339.read (chompNewline s.toList) with
  | none => simp
  | some found =>
    obtain ⟨m, z⟩ := found
    cases hbad : z.badMinutes? with
    | some written => simp [hbad]
    | none =>
      cases hinstant : m.toInstant with
      | error fault => simp [hbad, hinstant]
      | ok i => simp [hbad, hinstant, eq_comm]

/-- An accepted text denotes an instant, and its canonical text is the text of that instant. -/
theorem denotes_of_ofRfc3339 {s r : String} (h : ofRfc3339 s = .ok r) :
    ∃ i, Denotes s.toList i ∧ r = String.ofList i.text ∧ i.nanos ≤ 999999999 := by
  obtain ⟨m, z, i, hform, -, hinstant, rfl⟩ := ofRfc3339_eq_ok_iff.1 h
  obtain ⟨hsound, -, -, hnanos⟩ := Moment.toInstant_eq_ok_iff.1 hinstant
  exact ⟨i, denotes_of_toInstant hform hinstant, rfl, hnanos ▸ hsound.nanos_le⟩

/-- **Canonical texts identify instants.** Each of two accepted texts denotes one instant; the
canonical texts are equal exactly when the seconds and the nanoseconds of the instants are; and each
canonical text shows its instant in UTC. -/
theorem ofRfc3339_eq_iff {a b r s : String} (ha : ofRfc3339 a = .ok r) (hb : ofRfc3339 b = .ok s) :
    ∃ i j, (∀ k, Denotes a.toList k ↔ k = i) ∧ (∀ k, Denotes b.toList k ↔ k = j) ∧
      (r = s ↔ i.seconds = j.seconds ∧ i.nanos = j.nanos) ∧
      Instant.Shows r.toList i ∧ Instant.Shows s.toList j := by
  obtain ⟨i, hi, rfl, hinanos⟩ := denotes_of_ofRfc3339 ha
  obtain ⟨j, hj, rfl, hjnanos⟩ := denotes_of_ofRfc3339 hb
  have hishows := Instant.shows_text hinanos
  have hjshows := Instant.shows_text hjnanos
  refine ⟨i, j, fun k => ⟨fun hk => hk.unique hi, fun h => h ▸ hi⟩,
    fun k => ⟨fun hk => hk.unique hj, fun h => h ▸ hj⟩, ⟨fun h => ?_, fun h => ?_⟩, ?_, ?_⟩
  · have hsame : i = j := hishows.unique (String.ofList_injective h ▸ hjshows)
    exact ⟨hsame ▸ rfl, hsame ▸ rfl⟩
  · obtain ⟨iseconds, inanos⟩ := i
    obtain ⟨jseconds, jnanos⟩ := j
    obtain ⟨rfl, rfl⟩ : iseconds = jseconds ∧ inanos = jnanos := h
    rfl
  · rwa [String.toList_ofList]
  · rwa [String.toList_ofList]

/-- Two spellings of one instant, on the two sides of the end of a leap February. -/
theorem ofRfc3339_eq_iff_leap_day :
    ofRfc3339 "2020-02-29T23:30:00.50-01:00" = .ok "2020-03-01T00:30:00.500Z" ∧
    ofRfc3339 "2020-03-01 05:30:00.500000+05:00" = .ok "2020-03-01T00:30:00.500Z" ∧
    ∃ i j, (∀ k, Denotes "2020-02-29T23:30:00.50-01:00".toList k ↔ k = i) ∧
      (∀ k, Denotes "2020-03-01 05:30:00.500000+05:00".toList k ↔ k = j) ∧
      i.seconds = j.seconds ∧ i.nanos = j.nanos ∧
      Instant.Shows "2020-03-01T00:30:00.500Z".toList i := by
  have ha : ofRfc3339 "2020-02-29T23:30:00.50-01:00" = .ok "2020-03-01T00:30:00.500Z" := rfl
  have hb : ofRfc3339 "2020-03-01 05:30:00.500000+05:00" = .ok "2020-03-01T00:30:00.500Z" :=
    rfl
  obtain ⟨i, j, hi, hj, heq, hshows, -⟩ := ofRfc3339_eq_iff ha hb
  exact ⟨ha, hb, i, j, hi, hj, (heq.1 rfl).1, (heq.1 rfl).2, hshows⟩

end Timestamp
end MetricQuery
