import MetricQuery.Proofs.Number.Layout
import MetricQuery.Proofs.Outcome
import MetricQuery.Timestamp

/-!
# Canonical texts of numbers of seconds

The canonical text of a decimal is the literal of the nearest number. It is its own canonical text
and keeps the number.
-/

namespace MetricQuery

open NumberStyle Decimal

namespace Timestamp

variable {s r : String} {negative : Bool} {d : Decimal} {m : Magnitude}

/-- The accepted texts: those of the form whose decimal is rounded to a finite number. -/
theorem ofDecimal_eq_ok_iff : ofDecimal s = .ok r ↔ ∃ negative d m,
    Form (chompNewline s.toList) negative d ∧ Binary64.ofDecimal negative d = .finite negative m ∧
      r = literal.write (.finite negative m) := by
  simp only [← read_eq_some_iff, ofDecimal]
  cases hread : Decimal.read Digit.value? (chompNewline s.toList) with
  | none => simp
  | some found =>
    obtain ⟨negative, d⟩ := found
    cases hround : Binary64.ofDecimal negative d with
    | nan => simp [hround, Binary64.isFinite]
    | infinite negative' => simp [hround, Binary64.isFinite]
    | finite negative' m =>
      obtain ⟨rfl, -⟩ := Binary64.ofDecimal_eq_finite_iff.1 hround
      simp [hround, Binary64.isFinite, eq_comm]

theorem chompNewline_of_form {cs : List Char} (h : Form cs negative d) : chompNewline cs = cs := by
  refine chompNewline_of_getLast? fun hlast => ?_
  have := h.isFormChar '\n' (List.mem_of_getLast? hlast)
  revert this
  decide

/-- The literal of a finite number is its own canonical text. -/
theorem ofDecimal_write (negative : Bool) (m : Magnitude) :
    ofDecimal (literal.write (.finite negative m)) = .ok (literal.write (.finite negative m)) := by
  obtain ⟨l, htext, -, hreads, -⟩ := exists_layout_write negative m
  have hform := l.form negative
  refine ofDecimal_eq_ok_iff.2 ⟨negative, l.decimal, m, ?_, hreads, rfl⟩
  rwa [htext, chompNewline_of_form hform]

/-- The reader of numbers takes a decimal as the timestamps do. -/
theorem readNumber_of_form (h : Form (chompNewline s.toList) negative d) :
    readNumber s = .ok (Binary64.ofDecimal negative d) := by
  have hread : Binary64.read Digit.value? s.toList = some (Binary64.ofDecimal negative d) := by
    rw [← Binary64.read_of_form h]
    rcases eq_of_chompNewline s.toList with heq | heq
    · rw [← heq]
    · have hfeed : ∀ c ∈ ['\n'], isBlank c := List.forall_mem_singleton.2 (by decide)
      conv_lhs => rw [heq]
      exact Binary64.read_append (List.forall_mem_nil _) hfeed _
  rw [readNumber, hread]

theorem ofDecimal_idempotent (h : ofDecimal s = .ok r) :
    ofDecimal r = .ok r ∧ ∃ x, readNumber s = .ok x ∧ readNumber r = .ok x := by
  obtain ⟨negative, d, m, hform, hround, rfl⟩ := ofDecimal_eq_ok_iff.1 h
  refine ⟨ofDecimal_write negative m, .finite negative m, ?_, readNumber_write _⟩
  rw [readNumber_of_form hform, hround]

end Timestamp

/-- **Number literals keep their values, and canonical timestamps are stable.** An integer of at
most 4300 digits has its exact decimal text; the text of every floating-point number reads back as
that number, with its sign; the text of a finite one is laid out in ASCII digits, does not end in
`.0` and is its own canonical timestamp. So a canonical timestamp is its own canonical text, and it
is read as the same number as the text that it comes from. -/
theorem Value.numberText_faithful :
    (∀ n : ℤ, Digit.count n.natAbs ≤ 4300 → ∃ s cs, (int n).numberText = .ok s ∧
      s.toList = Layout.signed (decide (n < 0)) cs ∧ Digit.IsPlain cs ∧
      Nat.ofDigitChars 10 cs 0 = n.natAbs) ∧
    (∀ x : Binary64, ∃ s, (float x).numberText = .ok s ∧ readNumber s = .ok x) ∧
    (∀ negative m, ∃ s, ∃ l : Layout, (float (.finite negative m)).numberText = .ok s ∧
      s.toList = Layout.signed negative l.text ∧ ¬['.', '0'] <:+ s.toList ∧
      Timestamp.ofDecimal s = .ok s) ∧
    (∀ s r, Timestamp.ofDecimal s = .ok r → Timestamp.ofDecimal r = .ok r ∧
      ∃ x, readNumber s = .ok x ∧ readNumber r = .ok x) := by
  refine ⟨fun n hn => ?_, fun x => ?_, fun negative m => ?_, fun s r h => ?_⟩
  · refine ⟨toString n, Digit.write n.natAbs, ?_, toList_toString_int n, Digit.isPlain_write _,
      Digit.ofDigitChars_write _⟩
    exact if_neg (Nat.not_lt.2 hn)
  · exact ⟨_, rfl, readNumber_write x⟩
  · obtain ⟨l, htext, -, -, -⟩ := exists_layout_write negative m
    exact ⟨_, l, rfl, htext, htext ▸ l.not_suffix_text negative,
      Timestamp.ofDecimal_write negative m⟩
  · exact Timestamp.ofDecimal_idempotent h

/-- An integer, and a decimal with superfluous digits and a line feed at its end. -/
theorem Value.numberText_faithful_example :
    (∃ s cs, (int (-42)).numberText = .ok s ∧ s.toList = Layout.signed true cs ∧
      Digit.IsPlain cs ∧ Nat.ofDigitChars 10 cs 0 = 42) ∧
    Timestamp.ofDecimal "1.50e3\n" = .ok "1500" ∧ Timestamp.ofDecimal "1500" = .ok "1500" ∧
      ∃ x, readNumber "1.50e3\n" = .ok x ∧ readNumber "1500" = .ok x := by
  obtain ⟨hint, -, -, hstable⟩ := numberText_faithful
  have haccepted : Timestamp.ofDecimal "1.50e3\n" = .ok "1500" :=
    toOption_eq_some_iff.1 (by decide +kernel)
  obtain ⟨hcanonical, hread⟩ := hstable _ _ haccepted
  exact ⟨hint (-42) (by decide), haccepted, hcanonical, hread⟩

end MetricQuery
