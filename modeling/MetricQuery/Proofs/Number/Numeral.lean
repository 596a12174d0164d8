import Mathlib.Data.Int.Notation
import MetricQuery.Proofs.Phrase.Tokens
import MetricQuery.Proofs.Text.Digit

/-!
# Number literals

The text of a number is a numeral: it begins with a digit, a minus sign or the name of a value that
is not finite, and it has no character that could end it early.
-/

namespace MetricQuery

/-- A numeral without a sign that begins with a digit. -/
def IsUnsigned (cs : List Char) : Prop :=
  (∃ c tail, cs = c :: tail ∧ c.isDigit) ∧ ∀ c ∈ cs, isNumeralChar c

theorem isNumeralChar_of_isDigit {c : Char} (h : c.isDigit) : isNumeralChar c := by
  simp [isNumeralChar, Char.isAlphanum, h]

theorem IsUnsigned.isNumeral {cs : List Char} (h : IsUnsigned cs) : IsNumeral cs := by
  obtain ⟨⟨c, tail, rfl, hc⟩, hcs⟩ := h
  exact ⟨c, tail, rfl, by simp [startsNumeral, hc], hcs⟩

theorem IsNumeral.minus {cs : List Char} (h : IsNumeral cs) : IsNumeral ('-' :: cs) := by
  obtain ⟨c, tail, rfl, -, hcs⟩ := h
  refine ⟨'-', c :: tail, rfl, rfl, fun d hd => ?_⟩
  rcases List.mem_cons.1 hd with rfl | hd
  · rfl
  · exact hcs d hd

theorem IsUnsigned.append {cs ds : List Char} (h : IsUnsigned cs)
    (hds : ∀ d ∈ ds, isNumeralChar d) : IsUnsigned (cs ++ ds) := by
  obtain ⟨⟨c, tail, rfl, hc⟩, hcs⟩ := h
  refine ⟨⟨c, tail ++ ds, rfl, hc⟩, fun d hd => ?_⟩
  rcases List.mem_append.1 hd with hd | hd
  · exact hcs d hd
  · exact hds d hd

theorem isNumeralChar_of_mem_write {n : ℕ} {c : Char} (h : c ∈ Digit.write n) :
    isNumeralChar c := isNumeralChar_of_isDigit (Digit.isDigit_of_mem_write h)

theorem write_eq_cons (n : ℕ) : ∃ c tail, Digit.write n = c :: tail ∧ c.isDigit := by
  cases h : Digit.write n with
  | nil => exact absurd h (Digit.write_ne_nil n)
  | cons c tail => exact ⟨c, tail, rfl, Digit.isDigit_of_mem_write (h ▸ List.mem_cons_self)⟩

theorem isUnsigned_write (n : ℕ) : IsUnsigned (Digit.write n) :=
  ⟨write_eq_cons n, fun _ => isNumeralChar_of_mem_write⟩

theorem isNumeralChar_of_mem_writePadded {width n : ℕ} {c : Char}
    (h : c ∈ Digit.writePadded width n) : isNumeralChar c :=
  isNumeralChar_of_isDigit (Digit.isDigit_of_mem_writePadded h)

theorem isUnsigned_take_write (n : ℕ) {k : ℕ} (hk : 0 < k) :
    IsUnsigned ((Digit.write n).take k) := by
  obtain ⟨c, tail, hw, hc⟩ := write_eq_cons n
  obtain ⟨k, rfl⟩ : ∃ j, k = j + 1 := ⟨k - 1, by omega⟩
  refine ⟨⟨c, tail.take k, by rw [hw, List.take_succ_cons], hc⟩, fun d hd => ?_⟩
  exact isNumeralChar_of_mem_write (List.mem_of_mem_take hd)

namespace NumberStyle

theorem isUnsigned_positional (style : NumberStyle) (d : Decimal) :
    IsUnsigned (style.positional d) := by
  unfold positional
  cases d.exponent with
  | ofNat e =>
    refine ((isUnsigned_write _).append fun c hc => ?_).append fun c hc => ?_
    · rw [List.eq_of_mem_replicate hc]; rfl
    · split at hc
      · rcases List.mem_cons.1 hc with rfl | hc
        · rfl
        · rw [List.mem_singleton.1 hc]; rfl
      · cases hc
  | negSucc e =>
    dsimp only
    split
    · rename_i hplaces
      refine (isUnsigned_take_write _ (by omega)).append fun c hc => ?_
      rcases List.mem_cons.1 hc with rfl | hc
      · rfl
      · exact isNumeralChar_of_mem_write (List.mem_of_mem_drop hc)
    · refine ⟨⟨'0', _, rfl, rfl⟩, fun c hc => ?_⟩
      simp only [List.mem_cons, List.mem_append] at hc
      rcases hc with rfl | rfl | hc | hc
      · rfl
      · rfl
      · rw [List.eq_of_mem_replicate hc]; rfl
      · exact isNumeralChar_of_mem_write hc

theorem isUnsigned_scientific (d : Decimal) : IsUnsigned (scientific d) := by
  have hexponent (e : ℤ) : ∀ c ∈ 'e' :: (if e < 0 then '-' else '+') ::
      Digit.writePadded 2 e.natAbs, isNumeralChar c := by
    intro c hc
    rcases List.mem_cons.1 hc with rfl | hc
    · rfl
    rcases List.mem_cons.1 hc with rfl | hc
    · split <;> rfl
    · exact isNumeralChar_of_mem_writePadded hc
  unfold scientific
  refine IsUnsigned.append ?_ (hexponent _)
  have hw := isUnsigned_write d.coefficient
  split
  · rename_i first next rest heq
    rw [heq] at hw
    obtain ⟨⟨c, tail, hcons, hc⟩, hall⟩ := hw
    obtain ⟨rfl, rfl⟩ := List.cons.inj hcons
    refine ⟨⟨first, _, rfl, hc⟩, fun x hx => ?_⟩
    simp only [List.mem_cons] at hx hall
    rcases hx with rfl | rfl | hx
    · exact hall _ (.inl rfl)
    · rfl
    · exact hall x (.inr hx)
  · exact hw

theorem isNumeral_signed (negative : Bool) {s : String} (h : IsNumeral s.toList) :
    IsNumeral (signed negative s).toList := by
  cases negative with
  | false => exact h
  | true =>
    have htext : (signed true s).toList = '-' :: s.toList := by
      have hminus : "-".toList = ['-'] := rfl
      simp [signed, hminus]
    rw [htext]
    exact h.minus

theorem isNumeral_write (x : Binary64) : IsNumeral (literal.write x).toList := by
  cases x with
  | nan => exact ⟨'N', _, rfl, rfl, List.all_eq_true.1 rfl⟩
  | infinite negative =>
    exact isNumeral_signed negative ⟨'I', _, rfl, rfl, List.all_eq_true.1 rfl⟩
  | finite negative m =>
    refine isNumeral_signed negative ?_
    rw [String.toList_ofList]
    unfold layout
    dsimp only
    split
    · exact (isUnsigned_positional _ _).isNumeral
    · exact (isUnsigned_scientific _).isNumeral

end NumberStyle

theorem isNumeral_integerText {n : ℤ} {s : String} (h : integerText n = .ok s) :
    IsNumeral s.toList := by
  unfold integerText at h
  split at h
  · cases h
  · obtain rfl := Except.ok.inj h
    have hwrite (k : ℕ) : IsNumeral k.repr.toList := by
      rw [Nat.toList_repr]
      exact (isUnsigned_write k).isNumeral
    rw [Int.toString_eq_repr, Int.repr_eq_if]
    split
    · exact hwrite _
    · exact NumberStyle.isNumeral_signed true (hwrite _)

/-- The text of a value as a number is a numeral. -/
theorem Value.isNumeral_numberText {v : Value} {s : String} (h : v.numberText = .ok s) :
    IsNumeral s.toList := by
  unfold numberText at h
  split at h
  · cases h
  · exact isNumeral_integerText h
  · obtain rfl := Except.ok.inj h
    exact NumberStyle.isNumeral_write _
  · rename_i t
    cases hread : readNumber t with
    | error e => rw [hread] at h; cases h
    | ok x =>
      rw [hread] at h
      obtain rfl := Except.ok.inj h
      exact NumberStyle.isNumeral_write x
  · cases h

theorem Aggregation.isNumeral_countText {op : String} {v : Value} {s : String}
    (h : countText op v = .ok s) : IsNumeral s.toList := by
  unfold countText at h
  split at h
  · exact isNumeral_integerText h
  · cases h

theorem Aggregation.isNumeral_quantileText {v : Value} {s : String} (h : quantileText v = .ok s) :
    IsNumeral s.toList := by
  unfold quantileText at h
  split at h
  · exact Value.isNumeral_numberText h
  · exact Value.isNumeral_numberText h
  · cases h

end MetricQuery
