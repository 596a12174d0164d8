import Mathlib.Data.List.Basic
import MetricQuery.Number.Power
import MetricQuery.Text.Digit
import MetricQuery.Proofs.Text.Scan

/-!
# Numerals

The digits that are written for a number read back as that number, with or without zeros in front.
Runs of ASCII digits write the same number exactly when they are the same but for such zeros. A
numeral of a fixed width may have digits of any script.
-/

namespace MetricQuery

theorem tenTo_pos (n : ℕ) : 0 < tenTo n := Nat.pow_pos (by decide)

theorem tenTo_add (m n : ℕ) : tenTo (m + n) = tenTo m * tenTo n := Nat.pow_add 10 m n

theorem tenTo_mono {m n : ℕ} (h : m ≤ n) : tenTo m ≤ tenTo n :=
  Nat.pow_le_pow_right (by decide) h

namespace Digit

/-! ### Writing -/

theorem write_ne_nil (n : ℕ) : write n ≠ [] := Nat.toDigits_ne_nil

theorem isDigit_of_mem_write {n : ℕ} {c : Char} (h : c ∈ write n) : c.isDigit :=
  Nat.isDigit_of_mem_toDigits (by decide) (by decide) h

theorem ofDigitChars_write (n : ℕ) : Nat.ofDigitChars 10 (write n) 0 = n :=
  Nat.ofDigitChars_ten_toDigits

theorem count_le_iff {n k : ℕ} (h : 0 < k) : count n ≤ k ↔ n < tenTo k :=
  Nat.length_toDigits_le_iff (by decide) h

theorem isDigit_of_mem_writePadded {width n : ℕ} {c : Char} (h : c ∈ writePadded width n) :
    c.isDigit := by
  rcases List.mem_append.1 h with h | h
  · rw [List.eq_of_mem_replicate h]
    rfl
  · exact isDigit_of_mem_write h

theorem ofDigitChars_writePadded (width n : ℕ) :
    Nat.ofDigitChars 10 (writePadded width n) 0 = n := by
  rw [writePadded, Nat.ofDigitChars_append, Nat.ofDigitChars_replicate_zero, Nat.mul_zero,
    ofDigitChars_write]

theorem length_writePadded {width n : ℕ} (hwidth : 0 < width) (h : n < tenTo width) :
    (writePadded width n).length = width := by
  have hcount := (count_le_iff hwidth).2 h
  rw [writePadded, List.length_append, List.length_replicate, ← count]
  omega

theorem writePadded_injective (width : ℕ) : Function.Injective (writePadded width) :=
  fun n m h => by rw [← ofDigitChars_writePadded width n, h, ofDigitChars_writePadded]

theorem write_injective : Function.Injective write :=
  fun n m h => by rw [← ofDigitChars_write n, h, ofDigitChars_write]

/-! ### Values -/

theorem isDigit_iff (c : Char) : c.isDigit = true ↔ 48 ≤ c.toNat ∧ c.toNat ≤ 57 := by
  simp only [Char.isDigit, ge_iff_le, Bool.and_eq_true, decide_eq_true_eq, UInt32.le_iff_toNat_le]
  exact Iff.rfl

theorem toNat_sub_lt_ten {c : Char} (h : c.isDigit) : c.toNat - '0'.toNat < 10 := by
  have hc := (isDigit_iff c).1 h
  have hzero : '0'.toNat = 48 := rfl
  omega

theorem ascii?_eq (c : Char) :
    ascii? c = if c.isDigit then some (c.toNat - '0'.toNat) else none := by
  have hdigit : ('0' ≤ c ∧ c ≤ '9') ↔ c.isDigit = true := by
    simp [Char.isDigit, Char.le_def]
  simp only [ascii?, hdigit]

theorem value?_of_isDigit {c : Char} (h : c.isDigit) : value? c = some (c.toNat - '0'.toNat) := by
  obtain ⟨hle, hlt⟩ := (isDigit_iff c).1 h
  have hfind : zeros.find? (fun z => decide (z ≤ c.toNat) && decide (c.toNat < z + 10)) =
      some 0x30 := by
    rw [zeros, List.find?_cons_of_pos]
    simp only [Bool.and_eq_true, decide_eq_true_eq]
    omega
  rw [value?, hfind]
  rfl

theorem value?_lt {c : Char} {d : ℕ} (h : value? c = some d) : d < 10 := by
  obtain ⟨z, hz, rfl⟩ := Option.map_eq_some_iff.1 h
  have hrange := List.find?_some hz
  rw [Bool.and_eq_true, decide_eq_true_eq, decide_eq_true_eq] at hrange
  omega

theorem number_lt {values : List ℕ} (h : ∀ d ∈ values, d < 10) :
    number values < tenTo values.length := by
  -- A digit after `n` gives at most `10 * n + 9`, so the induction is for any start.
  have hstart : ∀ n, values.foldl (fun n d => 10 * n + d) n < (n + 1) * tenTo values.length := by
    induction values with
    | nil => exact fun n => by simp [tenTo]
    | cons d values ih =>
      obtain ⟨hd, hvalues⟩ := List.forall_mem_cons.1 h
      intro n
      rw [List.foldl_cons, List.length_cons, Nat.add_comm values.length, tenTo_add,
        ← Nat.mul_assoc]
      refine Nat.lt_of_lt_of_le (ih hvalues _) (Nat.mul_le_mul_right _ ?_)
      have hten : tenTo 1 = 10 := rfl
      rw [hten]
      omega
  simpa [number] using hstart 0

theorem number_map_toNat (digits : List Char) :
    number (digits.map fun c => c.toNat - '0'.toNat) = Nat.ofDigitChars 10 digits 0 := by
  rw [number, List.foldl_map, Nat.ofDigitChars_eq_foldl]

theorem ofDigitChars_lt {cs : List Char} (h : ∀ c ∈ cs, c.isDigit) :
    Nat.ofDigitChars 10 cs 0 < tenTo cs.length := by
  rw [← number_map_toNat, ← List.length_map (f := fun c : Char => c.toNat - '0'.toNat)]
  refine number_lt fun d hd => ?_
  obtain ⟨c, hc, rfl⟩ := List.mem_map.1 hd
  exact toNat_sub_lt_ten (h c hc)

/-- A run of digits, as values. -/
theorem span_eq (digit? : Char → Option ℕ) (cs : List Char) :
    span digit? cs = ((Scan.run (fun c => (digit? c).isSome) cs).1.filterMap digit?,
      (Scan.run (fun c => (digit? c).isSome) cs).2) := rfl

/-- The digits at the front of a text, read as values. -/
theorem span_ascii? (cs : List Char) :
    span ascii? cs = ((Scan.run Char.isDigit cs).1.map fun c => c.toNat - '0'.toNat,
      (Scan.run Char.isDigit cs).2) := by
  have hclass : (fun c => (ascii? c).isSome) = Char.isDigit := by
    funext c
    rw [ascii?_eq]
    cases c.isDigit <;> rfl
  rw [span_eq, hclass]
  refine Prod.ext ?_ rfl
  rw [← List.filterMap_eq_map]
  refine List.filterMap_congr fun c hc => ?_
  have hdigit : c.isDigit = true := Scan.of_mem_run hc
  simp only [ascii?_eq, hdigit, if_true, Function.comp_apply]

theorem span_ascii?_append {digits rest : List Char} (h : ∀ c ∈ digits, c.isDigit)
    (hrest : Scan.Stops Char.isDigit rest) :
    span ascii? (digits ++ rest) = (digits.map fun c => c.toNat - '0'.toNat, rest) := by
  rw [span_ascii?, Scan.run_append h hrest]

/-! ### Zeros in front -/

/-- A decimal number without superfluous zeros in front. -/
structure IsPlain (cs : List Char) : Prop where
  ne_nil : cs ≠ []
  isDigit : ∀ c ∈ cs, c.isDigit
  eq_zero : cs.head? = some '0' → cs = ['0']

/-- Two runs of digits are the same but for zeros in front. -/
def Alike (cs ds : List Char) : Prop :=
  ∃ i j core, core ≠ [] ∧ cs = List.replicate i '0' ++ core ∧ ds = List.replicate j '0' ++ core

theorem write_toNat_sub {c : Char} (h : c.isDigit) : write (c.toNat - '0'.toNat) = [c] := by
  have hc := (isDigit_iff c).1 h
  have hzero : '0'.toNat = 48 := rfl
  rw [write, Nat.toDigits_of_lt_base (toNat_sub_lt_ten h)]
  refine congrArg (fun c => [c]) (Char.toNat_inj.1 ?_)
  rw [Nat.toNat_digitChar_of_lt_ten (toNat_sub_lt_ten h)]
  omega

/-- Digits after the digits of a number that is not zero are the digits of another number. -/
theorem write_ofDigitChars_of_pos {n : ℕ} (hn : 0 < n) {cs : List Char} (h : ∀ c ∈ cs, c.isDigit) :
    write (Nat.ofDigitChars 10 cs n) = write n ++ cs := by
  induction cs generalizing n with
  | nil => simp
  | cons c cs ih =>
    obtain ⟨hc, hcs⟩ := List.forall_mem_cons.1 h
    have hnext : write (10 * n + (c.toNat - '0'.toNat)) = write n ++ [c] := by
      rw [← write_toNat_sub hc]
      exact (Nat.toDigits_append_toDigits (by decide) hn (toNat_sub_lt_ten hc)).symm
    rw [Nat.ofDigitChars_cons, ih (by omega) hcs, hnext, List.append_assoc, List.singleton_append]

theorem write_ofDigitChars {cs : List Char} (h : IsPlain cs) :
    write (Nat.ofDigitChars 10 cs 0) = cs := by
  obtain ⟨c, cs, rfl⟩ := List.exists_cons_of_ne_nil h.ne_nil
  obtain ⟨hc, hcs⟩ := List.forall_mem_cons.1 h.isDigit
  by_cases hzero : c = '0'
  · subst hzero
    rw [h.eq_zero rfl]
    rfl
  · have hpos : 0 < c.toNat - '0'.toNat := by
      have hdigit := (isDigit_iff c).1 hc
      have hchar : '0'.toNat = 48 := rfl
      have : c.toNat ≠ 48 := fun heq => hzero (Char.toNat_inj.1 heq)
      omega
    rw [Nat.ofDigitChars_cons, Nat.mul_zero, Nat.zero_add, write_ofDigitChars_of_pos hpos hcs,
      write_toNat_sub hc, List.singleton_append]

/-- Every run of digits is a plain number after some zeros. -/
theorem exists_isPlain {cs : List Char} (hne : cs ≠ []) (h : ∀ c ∈ cs, c.isDigit) :
    ∃ i core, cs = List.replicate i '0' ++ core ∧ IsPlain core := by
  induction cs with
  | nil => exact absurd rfl hne
  | cons c cs ih =>
    obtain ⟨hc, hcs⟩ := List.forall_mem_cons.1 h
    by_cases hplain : c = '0' ∧ cs ≠ []
    · obtain ⟨rfl, hrest⟩ := hplain
      obtain ⟨i, core, rfl, hcore⟩ := ih hrest hcs
      exact ⟨i + 1, core, rfl, hcore⟩
    · refine ⟨0, c :: cs, rfl, hne, h, fun hhead => ?_⟩
      obtain rfl := Option.some.inj hhead
      rw [not_not.1 fun hrest => hplain ⟨rfl, hrest⟩]

theorem ofDigitChars_replicate_append (i : ℕ) (core : List Char) :
    Nat.ofDigitChars 10 (List.replicate i '0' ++ core) 0 = Nat.ofDigitChars 10 core 0 := by
  rw [Nat.ofDigitChars_append, Nat.ofDigitChars_replicate_zero, Nat.mul_zero]

theorem isPlain_write (n : ℕ) : IsPlain (write n) := by
  obtain ⟨i, core, hwrite, hcore⟩ :=
    exists_isPlain (write_ne_nil n) fun _ => isDigit_of_mem_write
  have hvalue := ofDigitChars_write n
  rw [hwrite, ofDigitChars_replicate_append] at hvalue
  rwa [← hvalue, write_ofDigitChars hcore]

/-- Runs of digits write the same number exactly when they are the same but for zeros in front. -/
theorem alike_iff {cs ds : List Char} (hcs : cs ≠ []) (hcs' : ∀ c ∈ cs, c.isDigit) (hds : ds ≠ [])
    (hds' : ∀ c ∈ ds, c.isDigit) :
    Alike cs ds ↔ Nat.ofDigitChars 10 cs 0 = Nat.ofDigitChars 10 ds 0 := by
  constructor
  · rintro ⟨i, j, core, -, rfl, rfl⟩
    rw [ofDigitChars_replicate_append, ofDigitChars_replicate_append]
  · intro heq
    obtain ⟨i, core, rfl, hcore⟩ := exists_isPlain hcs hcs'
    obtain ⟨j, core', rfl, hcore'⟩ := exists_isPlain hds hds'
    rw [ofDigitChars_replicate_append, ofDigitChars_replicate_append] at heq
    obtain rfl : core = core' := by
      rw [← write_ofDigitChars hcore, heq, write_ofDigitChars hcore']
    exact ⟨i, j, core, hcore.ne_nil, rfl, rfl⟩

end Digit

/-- Digits of any script that write a number with a given number of places. -/
structure Numeral (width : ℕ) (cs : List Char) (n : ℕ) : Prop where
  length_eq : cs.length = width
  isSome_value? : ∀ c ∈ cs, (Digit.value? c).isSome
  number_eq : Digit.number (cs.filterMap Digit.value?) = n

namespace Numeral

theorem of_isDigit {cs : List Char} (h : ∀ c ∈ cs, c.isDigit) :
    Numeral cs.length cs (Nat.ofDigitChars 10 cs 0) := by
  refine ⟨rfl, fun c hc => ?_, ?_⟩
  · rw [Digit.value?_of_isDigit (h c hc)]
    rfl
  · rw [← Digit.number_map_toNat, ← List.filterMap_eq_map]
    exact congrArg Digit.number (List.filterMap_congr fun c hc => Digit.value?_of_isDigit (h c hc))

theorem writePadded {width n : ℕ} (hwidth : 0 < width) (h : n < tenTo width) :
    Numeral width (Digit.writePadded width n) n := by
  have := of_isDigit fun c (hc : c ∈ Digit.writePadded width n) =>
    Digit.isDigit_of_mem_writePadded hc
  rwa [Digit.length_writePadded hwidth h, Digit.ofDigitChars_writePadded] at this

theorem lt {width n : ℕ} {cs : List Char} (h : Numeral width cs n) : n < tenTo width := by
  have hvalues : ∀ d ∈ cs.filterMap Digit.value?, d < 10 := fun d hd => by
    obtain ⟨c, -, hc⟩ := List.mem_filterMap.1 hd
    exact Digit.value?_lt hc
  have hlt := Digit.number_lt hvalues
  rwa [h.number_eq, List.filterMap_length_eq_length.2 h.isSome_value?, h.length_eq] at hlt

theorem length_filterMap {width n : ℕ} {cs : List Char} (h : Numeral width cs n) :
    (cs.filterMap Digit.value?).length = width := by
  rw [← h.length_eq, List.filterMap_length_eq_length]
  exact h.isSome_value?

end Numeral
end MetricQuery
