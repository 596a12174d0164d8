import MetricQuery.Calendar.Rfc3339
import MetricQuery.Proofs.Text.Digit

/-!
# The form of RFC 3339 texts

`Rfc3339.Form` is the grammar of a text with the date, the time, the fraction and the zone that it
writes. The reader accepts the texts of that grammar and gives what they write.
-/

namespace MetricQuery
namespace Rfc3339

/-- A fraction of `k` digits, or no text when `k` is zero, with its value in nanoseconds. -/
inductive Fraction : ℕ → List Char → ℕ → Prop
  | none : Fraction 0 [] 0
  | digits {k n nanos : ℕ} {ds : List Char} : 1 ≤ k → Numeral k ds n →
    n * tenTo 9 = nanos * tenTo k → Fraction k ('.' :: ds) nanos

inductive ZoneForm : List Char → Zone → Prop
  | utc {c : Char} : c = 'Z' ∨ c = 'z' → ZoneForm [c] .utc
  | offset {sign : Char} {hh mm : List Char} {hours minutes : ℕ} : sign = '+' ∨ sign = '-' →
    Numeral 2 hh hours → Numeral 2 mm minutes →
    ZoneForm (sign :: (hh ++ ':' :: mm))
      (.offset (sign == '-') hours minutes (sign :: (hh ++ ':' :: mm)))

/-- The texts of the form with the local date and time and the zone that they write. -/
inductive Form : List Char → Moment → Zone → Prop
  | mk {yyyy mo dd hh mm ss fraction zone : List Char} {separator : Char}
    {year month day hour minute second k nanos : ℕ} {z : Zone} :
    Numeral 4 yyyy year → Numeral 2 mo month → Numeral 2 dd day →
    separator = 'T' ∨ separator = 't' ∨ separator = ' ' →
    Numeral 2 hh hour → Numeral 2 mm minute → Numeral 2 ss second →
    Fraction k fraction nanos → k ≤ 9 → ZoneForm zone z →
    Form (yyyy ++ '-' :: (mo ++ '-' :: (dd ++ separator :: (hh ++ ':' :: (mm ++ ':' :: (ss ++
        (fraction ++ zone)))))))
      ⟨⟨year, month, day⟩, hour, minute, second, nanos, some z.seconds⟩ z

/-! ### Numbers and marks -/

theorem mapM_value?_eq_some_iff {cs : List Char} {values : List ℕ} :
    cs.mapM Digit.value? = some values ↔
      (∀ c ∈ cs, (Digit.value? c).isSome) ∧ cs.filterMap Digit.value? = values := by
  induction cs generalizing values with
  | nil => simp
  | cons c cs ih =>
    cases hc : Digit.value? c with
    | none => simp [hc]
    | some d => simp [hc, ih, Option.bind_eq_some_iff, and_assoc]

theorem number_eq_some_iff {width n : ℕ} {cs rest : List Char} :
    number width cs = some (n, rest) ↔ ∃ ds, Numeral width ds n ∧ cs = ds ++ rest := by
  constructor
  · intro h
    obtain ⟨values, hvalues, h⟩ := Option.bind_eq_some_iff.1 h
    obtain ⟨hdigits, rfl⟩ := mapM_value?_eq_some_iff.1 hvalues
    split at h
    · rename_i hlength
      obtain ⟨rfl, rfl⟩ := Prod.mk.inj (Option.some.inj h)
      refine ⟨cs.take width, ⟨?_, hdigits, rfl⟩, (List.take_append_drop width cs).symm⟩
      rwa [List.filterMap_length_eq_length.2 hdigits] at hlength
    · cases h
  · rintro ⟨ds, hnumeral, rfl⟩
    have hvalues := mapM_value?_eq_some_iff.2 ⟨hnumeral.isSome_value?, rfl⟩
    rw [number, ← hnumeral.length_eq, List.take_left, List.drop_left, hvalues, Option.bind_some,
      if_pos (hnumeral.length_filterMap.trans hnumeral.length_eq.symm), hnumeral.number_eq]

theorem number_append {width n : ℕ} {ds : List Char} (h : Numeral width ds n) (rest : List Char) :
    number width (ds ++ rest) = some (n, rest) := number_eq_some_iff.2 ⟨ds, h, rfl⟩

theorem mark_eq_some_iff {allowed cs rest : List Char} :
    mark allowed cs = some rest ↔ ∃ c ∈ allowed, cs = c :: rest := by
  cases cs with
  | nil => simp [mark]
  | cons c cs =>
    simp only [mark, List.contains_iff_mem, Option.ite_none_right_eq_some, Option.some.injEq,
      List.cons.injEq]
    constructor
    · rintro ⟨hc, rfl⟩
      exact ⟨c, hc, rfl, rfl⟩
    · rintro ⟨_, hc, rfl, rfl⟩
      exact ⟨hc, rfl⟩

theorem mark_cons {allowed : List Char} {c : Char} (h : c ∈ allowed) (rest : List Char) :
    mark allowed (c :: rest) = some rest := mark_eq_some_iff.2 ⟨c, h, rfl⟩

/-! ### Zones -/

theorem zone_of_form {cs : List Char} {z : Zone} (h : ZoneForm cs z) : zone cs = some z := by
  cases h with
  | utc hc => rcases hc with rfl | rfl <;> rfl
  | @offset sign hh mm hours minutes hsign hhours hminutes =>
    have hminutes := number_append hminutes []
    rw [List.append_nil] at hminutes
    have hmark : mark ['+', '-'] (sign :: (hh ++ ':' :: mm)) = some (hh ++ ':' :: mm) :=
      mark_cons (by simpa using hsign) _
    have hcolon : mark [':'] (':' :: mm) = some mm := mark_cons List.mem_cons_self _
    unfold zone
    split
    · rcases hsign with hsign | hsign <;> simp_all
    · rcases hsign with hsign | hsign <;> simp_all
    · rename_i heq
      obtain ⟨rfl, rfl⟩ := List.cons.inj heq
      simp [hmark, hcolon, number_append hhours, hminutes]
    · rename_i heq
      cases heq

theorem form_of_zone {cs : List Char} {z : Zone} (h : zone cs = some z) : ZoneForm cs z := by
  unfold zone at h
  split at h
  · obtain rfl := Option.some.inj h
    exact .utc (.inl rfl)
  · obtain rfl := Option.some.inj h
    exact .utc (.inr rfl)
  · rename_i sign cs _ _
    obtain ⟨rest, hmark, hrest⟩ := Option.bind_eq_some_iff.1 h
    obtain ⟨⟨hours, rest'⟩, hhours, hrest'⟩ := Option.bind_eq_some_iff.1 hrest
    obtain ⟨tail, hcolon, htail⟩ := Option.bind_eq_some_iff.1 hrest'
    obtain ⟨⟨minutes, rest''⟩, hminutes, hzone⟩ := Option.bind_eq_some_iff.1 htail
    obtain ⟨c, hsign, hcs⟩ := mark_eq_some_iff.1 hmark
    obtain ⟨rfl, rfl⟩ := List.cons.inj hcs
    obtain ⟨hh, hnumeral, rfl⟩ := number_eq_some_iff.1 hhours
    obtain ⟨c, hc, rfl⟩ := mark_eq_some_iff.1 hcolon
    obtain rfl := List.mem_singleton.1 hc
    obtain ⟨mm, hnumeral', rfl⟩ := number_eq_some_iff.1 hminutes
    dsimp only at hzone
    split at hzone
    · rename_i hend
      obtain rfl := Option.some.inj hzone
      obtain rfl := List.isEmpty_iff.1 hend
      rw [List.append_nil]
      exact .offset (by simpa using hsign) hnumeral hnumeral'
    · cases hzone
  · cases h

/-- A zone begins neither with a digit nor with a point. -/
theorem ZoneForm.stops {cs : List Char} {z : Zone} (h : ZoneForm cs z) :
    Scan.Stops (fun c => (Digit.value? c).isSome || c == '.') cs := by
  cases h with
  | utc hc =>
    rintro _ ⟨⟩
    rcases hc with rfl | rfl <;> decide
  | offset hsign =>
    rintro _ ⟨⟩
    rcases hsign with rfl | rfl <;> decide

/-! ### Fractions -/

/-- A numerator over `10 ^ k` in nanoseconds. -/
theorem mul_tenTo_nine_eq_iff {k n nanos : ℕ} (hk : k ≤ 9) :
    n * tenTo 9 = nanos * tenTo k ↔ n * tenTo (9 - k) = nanos := by
  have hnine : tenTo 9 = tenTo (9 - k) * tenTo k := by rw [← tenTo_add, Nat.sub_add_cancel hk]
  rw [hnine, ← Nat.mul_assoc]
  exact Nat.mul_left_inj (Nat.ne_of_gt (tenTo_pos k))

theorem Fraction.dvd {k nanos : ℕ} {cs : List Char} (h : Fraction k cs nanos) (hk : k ≤ 9) :
    tenTo (9 - k) ∣ nanos := by
  cases h with
  | none => exact Nat.dvd_zero _
  | @digits _ n _ _ _ _ hvalue =>
    exact ⟨n, by rw [← (mul_tenTo_nine_eq_iff hk).1 hvalue, Nat.mul_comm]⟩

theorem Fraction.unique {j k m n : ℕ} {cs : List Char} (hm : Fraction j cs m)
    (hn : Fraction k cs n) : m = n := by
  cases hm with
  | none =>
    cases hn with
    | none => rfl
  | digits _ hj hvalue =>
    cases hn with
    | digits _ hk hvalue' =>
      obtain rfl := hj.length_eq.symm.trans hk.length_eq
      obtain rfl := hj.number_eq.symm.trans hk.number_eq
      exact Nat.eq_of_mul_eq_mul_right (tenTo_pos _) (hvalue.symm.trans hvalue')

/-- Digits that are written after the point. -/
theorem Fraction.writePadded {k n nanos : ℕ} (hk : 1 ≤ k) (hn : n < tenTo k)
    (h : n * tenTo 9 = nanos * tenTo k) : Fraction k ('.' :: Digit.writePadded k n) nanos :=
  .digits hk (.writePadded hk hn) h

theorem fraction_append {k nanos : ℕ} {cs rest : List Char} (h : Fraction k cs nanos) (hk : k ≤ 9)
    (hrest : Scan.Stops (fun c => (Digit.value? c).isSome || c == '.') rest) :
    fraction (cs ++ rest) = some (nanos, rest) := by
  cases h with
  | none =>
    rw [List.nil_append]
    unfold fraction
    split
    · have := hrest '.' rfl
      simp at this
    · rfl
  | @digits _ n _ ds hpos hnumeral hvalue =>
    have hstops : Scan.Stops (fun c => (Digit.value? c).isSome) rest := fun c hc =>
      (Bool.or_eq_false_iff.1 (hrest c hc)).1
    have hspan : Digit.span Digit.value? (ds ++ rest) = (ds.filterMap Digit.value?, rest) := by
      rw [Digit.span_eq, Scan.run_append hnumeral.isSome_value? hstops]
    rw [List.cons_append, fraction]
    simp only [hspan, hnumeral.length_filterMap, hnumeral.number_eq]
    rw [if_pos ⟨hpos, hk⟩, (mul_tenTo_nine_eq_iff hk).1 hvalue]

theorem exists_of_fraction {cs rest : List Char} {nanos : ℕ}
    (h : fraction cs = some (nanos, rest)) :
    ∃ k ds, Fraction k ds nanos ∧ k ≤ 9 ∧ cs = ds ++ rest := by
  unfold fraction at h
  split at h
  · rename_i cs
    rw [Digit.span_eq] at h
    dsimp only at h
    have hdigits : ∀ c ∈ (Scan.run (fun c => (Digit.value? c).isSome) cs).1,
        (Digit.value? c).isSome := fun c hc => Scan.of_mem_run hc
    split at h
    · rename_i hlength
      obtain ⟨rfl, rfl⟩ := Prod.mk.inj (Option.some.inj h)
      rw [List.filterMap_length_eq_length.2 hdigits] at hlength ⊢
      refine ⟨_, _, .digits hlength.1 ⟨rfl, hdigits, rfl⟩ ?_, hlength.2, ?_⟩
      · exact (mul_tenTo_nine_eq_iff hlength.2).2 rfl
      · rw [List.cons_append, Scan.run_fst_append_snd]
    · cases h
  · obtain ⟨rfl, rfl⟩ := Prod.mk.inj (Option.some.inj h)
    exact ⟨0, [], .none, Nat.zero_le 9, rfl⟩

/-! ### Texts -/

theorem read_of_form {cs : List Char} {m : Moment} {z : Zone} (h : Form cs m z) :
    read cs = some (m, z) := by
  obtain ⟨hyear, hmonth, hday, hseparator, hhour, hminute, hsecond, hfraction, hk, hzone⟩ := h
  have hdash (rest : List Char) : mark ['-'] ('-' :: rest) = some rest :=
    mark_cons List.mem_cons_self rest
  have hcolon (rest : List Char) : mark [':'] (':' :: rest) = some rest :=
    mark_cons List.mem_cons_self rest
  have hseparator (rest : List Char) : mark ['T', 't', ' '] (_ :: rest) = some rest :=
    mark_cons (by simpa using hseparator) rest
  simp [read, number_append hyear, number_append hmonth, number_append hday, number_append hhour,
    number_append hminute, number_append hsecond, hdash, hcolon, hseparator,
    fraction_append hfraction hk hzone.stops, zone_of_form hzone]

theorem form_of_read {cs : List Char} {m : Moment} {z : Zone} (h : read cs = some (m, z)) :
    Form cs m z := by
  simp only [read, Option.bind_eq_bind, Option.bind_eq_some_iff, Prod.exists,
    number_eq_some_iff, mark_eq_some_iff, List.mem_singleton, exists_eq_left] at h
  obtain ⟨year, _, ⟨yyyy, hyear, rfl⟩, _, rfl, month, _, ⟨mo, hmonth, rfl⟩, _, rfl, day, _,
    ⟨dd, hday, rfl⟩, _, ⟨separator, hseparator, rfl⟩, hour, _, ⟨hh, hhour, rfl⟩, _, rfl, minute, _,
    ⟨mm, hminute, rfl⟩, _, rfl, second, _, ⟨ss, hsecond, rfl⟩, nanos, _, hfraction, z', hzone,
    h⟩ := h
  obtain ⟨k, fs, hdigits, hk, rfl⟩ := exists_of_fraction hfraction
  obtain ⟨rfl, rfl⟩ := Prod.mk.inj (Option.some.inj h)
  exact .mk hyear hmonth hday (by simpa using hseparator) hhour hminute hsecond hdigits hk
    (form_of_zone hzone)

/-- The reader accepts the texts of the form, with what they write. -/
theorem read_eq_some_iff {cs : List Char} {m : Moment} {z : Zone} :
    read cs = some (m, z) ↔ Form cs m z := ⟨form_of_read, read_of_form⟩

end Rfc3339
end MetricQuery
