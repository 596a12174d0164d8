import MetricQuery.Proofs.Json.Reader
import MetricQuery.Proofs.Number.Range
import MetricQuery.Proofs.Schema.Agreement

/-!
# What is assumed of the reader of texts

`Library.Lawful` adds to the laws of the two validators of a library that both take the same
numbers, and that the library reads texts as the grammar writes them, within two limits: on the
characters in front of the point or exponent of a number, and on the depth of a document.
`Library.standard` has these laws.
-/

namespace MetricQuery

/-- A number with no more characters in front of its point or exponent than a text may have. -/
def Json.Number.IsShort (n : Number) : Prop := n.wholeLength ≤ Digit.limit

instance (n : Json.Number) : Decidable n.IsShort :=
  inferInstanceAs (Decidable (n.wholeLength ≤ Digit.limit))

namespace Schema

open Checked

/-- What is assumed of a library, for answers as texts and as values. -/
class Library.Lawful (L : Library) : Prop where
  validator (source : Source) : (L.validator source).Lawful
  /-- A number is taken from a text as from a value, and the other way round. -/
  follows (source source' : Source) : (L.validator source).Follows (L.validator source')
  /-- A text with short numbers and not too many levels is read. -/
  read_of_written {s : String} {v : Json} {ns : List Json.Number}
    (h : Json.Written (.value v) s.toList ns) (hshort : ∀ n ∈ ns, n.IsShort)
    (hshallow : v.Shallow 200) : L.read s = .ok v
  /-- A text is read as nothing but the value that it writes. -/
  eq_of_read {s : String} {v w : Json} {ns : List Json.Number}
    (h : Json.Written (.value v) s.toList ns) (hread : L.read s = .ok w) : w = v

instance {L : Library} [L.Lawful] (source : Source) : (L.validator source).Lawful :=
  Library.Lawful.validator source

/-! ### The library that runs -/

theorem exists_ofInt?_of_fitsWord {i : ℤ} (h : FitsWord i) : ∃ x, Binary64.ofInt? i = some x := by
  obtain ⟨hle, hlt⟩ := h
  have hword : wordBound = 9223372036854775808 := by decide +kernel
  have hlarge : 18446744073709551616 ≤ twoTo 1024 - twoTo 970 := by decide +kernel
  rw [← Option.ne_none_iff_exists', ne_eq, Binary64.ofInt?_eq_none_iff]
  omega

/-- An integer of 64 bits is the same number from every source. -/
theorem floatOfInt_of_fitsWord {source : Source} {i : ℤ} {x : Binary64} (hi : FitsWord i)
    (h : floatOfInt source i = .sound x) (source' : Source) : floatOfInt source' i = .sound x := by
  obtain ⟨y, hy⟩ := exists_ofInt?_of_fitsWord hi
  have hread (source : Source) : floatOfInt source i = .sound y := by
    rw [floatOfInt, hy, Option.elim_some]
  rw [← h, hread source, hread source']

theorem float_of_narrow {source : Source} {v : Json} {x : Binary64} (hv : v.Narrow)
    (h : float source v = .sound x) (source' : Source) : float source' v = .sound x := by
  -- the source matters for integers alone, and booleans are read as integers
  cases v with
  | int i => exact floatOfInt_of_fitsWord (hv [] i rfl) h source'
  | bool b =>
    have hb : FitsWord b.toInt := by cases b <;> decide
    exact floatOfInt_of_fitsWord hb h source'
  | _ => exact h

theorem respects_strict_iff {n : Json.Number} :
    Json.Token.Respects .strict n ↔ n.IsShort := by
  constructor
  · exact fun h => h.wholeLength_le _ rfl
  · intro h
    refine ⟨?_, fun _ => nofun⟩
    rintro k ⟨⟩
    exact h

theorem holds_strict {v : Json} (h : v.Shallow 200) : Json.Dialect.strict.Holds 0 v := by
  rintro path u hu m ⟨⟩
  have := h path u hu
  omega

instance : Library.standard.Lawful where
  validator source := inferInstanceAs (Validator.standard source).Lawful
  follows _ source' := ⟨fun hv h => float_of_narrow hv h source', fun _ h => h⟩
  read_of_written h hshort hshallow :=
    Json.readAs_of_written h (fun n hn => respects_strict_iff.2 (hshort n hn))
      (holds_strict hshallow)
  eq_of_read := Json.eq_of_readAs

end Schema
end MetricQuery
