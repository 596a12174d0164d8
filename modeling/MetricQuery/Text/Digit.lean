/-!
# Decimal digits

A character of category Nd stands for a value from 0 to 9. Such characters come in runs of ten
neighbouring code points, in the order of their values, so the table holds the zeros alone.
-/

namespace MetricQuery
namespace Digit

/-- The code points of the digits of value zero, one for each script. -/
def zeros : List Nat :=
  [0x30, 0x660, 0x6f0, 0x7c0, 0x966, 0x9e6, 0xa66, 0xae6, 0xb66, 0xbe6, 0xc66, 0xce6, 0xd66,
    0xde6, 0xe50, 0xed0, 0xf20, 0x1040, 0x1090, 0x17e0, 0x1810, 0x1946, 0x19d0, 0x1a80, 0x1a90,
    0x1b50, 0x1bb0, 0x1c40, 0x1c50, 0xa620, 0xa8d0, 0xa900, 0xa9d0, 0xa9f0, 0xaa50, 0xabf0,
    0xff10, 0x104a0, 0x10d30, 0x11066, 0x110f0, 0x11136, 0x111d0, 0x112f0, 0x11450, 0x114d0,
    0x11650, 0x116c0, 0x11730, 0x118e0, 0x11950, 0x11c50, 0x11d50, 0x11da0, 0x16a60, 0x16ac0,
    0x16b50, 0x1d7ce, 0x1d7d8, 0x1d7e2, 0x1d7ec, 0x1d7f6, 0x1e140, 0x1e2f0, 0x1e950, 0x1fbf0]

/-- The value of a decimal digit of any script. -/
def value? (c : Char) : Option Nat :=
  (zeros.find? fun z => z ≤ c.toNat && c.toNat < z + 10).map (c.toNat - ·)

/-- The value of an ASCII digit. -/
def ascii? (c : Char) : Option Nat :=
  if '0' ≤ c ∧ c ≤ '9' then some (c.toNat - '0'.toNat) else none

/-- The value of a hexadecimal digit. -/
def hexadecimal? (c : Char) : Option Nat :=
  if '0' ≤ c ∧ c ≤ '9' then some (c.toNat - '0'.toNat)
  else if 'a' ≤ c ∧ c ≤ 'f' then some (c.toNat - 'a'.toNat + 10)
  else if 'A' ≤ c ∧ c ≤ 'F' then some (c.toNat - 'A'.toNat + 10)
  else none

/-- The number that a run of digit values writes, the most significant first. -/
def number (values : List Nat) : Nat := values.foldl (fun n d => 10 * n + d) 0

/-- How many digits, leading zeros included, an integer may be written with. -/
def limit : Nat := 4300

/-- The decimal digits of a number, without leading zeros. -/
def write (n : Nat) : List Char := Nat.toDigits 10 n

/-- How many decimal digits a number has; zero has one. -/
def count (n : Nat) : Nat := (write n).length

/-- The digits of `n`, filled up with zeros on the left to `width` characters. -/
def writePadded (width n : Nat) : List Char :=
  List.replicate (width - count n) '0' ++ write n

/-- The longest run of digits at the front of a text, as values, and what follows it. -/
def span (digit? : Char → Option Nat) (cs : List Char) : List Nat × List Char :=
  ((cs.takeWhile fun c => (digit? c).isSome).filterMap digit?,
    cs.dropWhile fun c => (digit? c).isSome)

theorem length_span_le (digit? : Char → Option Nat) (cs : List Char) :
    (span digit? cs).2.length ≤ cs.length :=
  (List.dropWhile_sublist _).length_le

theorem length_span_lt {digit? : Char → Option Nat} {cs : List Char}
    (h : (span digit? cs).1 ≠ []) : (span digit? cs).2.length < cs.length := by
  cases cs with
  | nil => exact absurd rfl h
  | cons c cs =>
    by_cases hc : (digit? c).isSome
    · have := (List.dropWhile_sublist (l := cs) fun c => (digit? c).isSome).length_le
      simp only [span, List.dropWhile_cons, hc, if_true, List.length_cons]
      omega
    · simp [span, hc] at h

end Digit
end MetricQuery
