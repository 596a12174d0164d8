import MetricQuery.Json.Basic
import MetricQuery.Number.Decimal

/-!
# Tokens of JSON texts

`Token.read` takes one token off the front of a text; what follows the token is never longer than
what followed its first character (`Token.length_read_le`). Characters that begin no token are
a token of their own, a fault, so that a reader meets the leftmost fault first. A `Dialect` says
where texts of different sources differ.
-/

namespace MetricQuery
namespace Json

/-- Why a text is no JSON text. -/
inductive Fault where
  | malformed
  | overlong (digits : Nat)
  | tooDeep
deriving DecidableEq

/-- Choices that the format leaves open. -/
structure Dialect where
  /-- How many digits an integer may have, if there is a limit. -/
  maxDigits : Option Nat
  /-- How many characters the whole part of any number may have, its minus included, if there is a
  limit. -/
  maxWhole : Option Nat
  /-- How deep lists and records that are not empty may lie in each other, if there is a limit. -/
  maxDepth : Option Nat
  /-- What stands for half of a surrogate pair that is escaped alone, if that is allowed. -/
  loneHalf : Option Char

/-- Texts with bounded numbers and bounded depth, in whose strings no half of a surrogate pair
stands alone. -/
def Dialect.strict : Dialect := ⟨none, some Digit.limit, some 200, none⟩

/-- Texts with bounded integers and any escapes in their strings. A reader whose stack is bounded
has a bound on the depth as well. -/
def Dialect.lenient : Dialect := ⟨some Digit.limit, none, none, some '\ufffd'⟩

inductive Token where
  | openList
  | closeList
  | openRecord
  | closeRecord
  | comma
  | colon
  | atom (v : Json)
  | fault (f : Fault)

namespace Token

/-! ### Strings -/

/-- The number that four hexadecimal digits write. -/
def hexUnit? (cs : List Char) : Option Nat :=
  (cs.mapM Digit.hexadecimal?).map fun values => values.foldl (fun n d => 16 * n + d) 0

/-- The character that a backslash and a letter stand for. -/
def escaped? : Char → Option Char
  | '\x22' => some '\x22'
  | '\\' => some '\\'
  | '/' => some '/'
  | 'b' => some '\x08'
  | 'f' => some '\x0c'
  | 'n' => some '\n'
  | 'r' => some '\r'
  | 't' => some '\t'
  | _ => none

/-- The code units up to the quote that ends a string, and what follows it. Halves of surrogate
pairs are units of their own. The units before come in `units`, the last first. -/
def stringUnits (units : List Nat) : List Char → Option (List Nat × List Char)
  | [] => none
  | '\x22' :: rest => some (units.reverse, rest)
  | '\\' :: 'u' :: a :: b :: c :: d :: rest =>
    match hexUnit? [a, b, c, d] with
    | some n => stringUnits (n :: units) rest
    | none => none
  | '\\' :: c :: rest =>
    match escaped? c with
    | some e => stringUnits (e.toNat :: units) rest
    | none => none
  | c :: rest => if c.toNat < 0x20 then none else stringUnits (c.toNat :: units) rest

def isHighHalf (n : Nat) : Bool := 0xd800 ≤ n && n < 0xdc00

def isLowHalf (n : Nat) : Bool := 0xdc00 ≤ n && n < 0xe000

/-- The characters of a sequence of units, where a high and a low half after it are one character.
The characters before come in `chars`, the last first. -/
def joinUnits (loneHalf : Option Char) (chars : List Char) : List Nat → Option (List Char)
  | [] => some chars.reverse
  | [n] =>
    if isHighHalf n || isLowHalf n then loneHalf.map fun c => (c :: chars).reverse
    else some (Char.ofNat n :: chars).reverse
  | high :: low :: rest =>
    if isHighHalf high && isLowHalf low then
      joinUnits loneHalf
        (Char.ofNat (0x10000 + (high - 0xd800) * 0x400 + (low - 0xdc00)) :: chars) rest
    else if isHighHalf high || isLowHalf high then
      match loneHalf with
      | some c => joinUnits loneHalf (c :: chars) (low :: rest)
      | none => none
    else joinUnits loneHalf (Char.ofNat high :: chars) (low :: rest)

/-- A string whose opening quote is read. -/
def readString (d : Dialect) (cs : List Char) : Token × List Char :=
  match stringUnits [] cs with
  | none => (.fault .malformed, [])
  | some (units, rest) =>
    match joinUnits d.loneHalf [] units with
    | some chars => (.atom (.text (String.ofList chars)), rest)
    | none => (.fault .malformed, [])

/-! ### Numbers -/

/-- The digits of the whole part of a number; a zero stands alone. -/
def whole : List Char → List Nat × List Char
  | '0' :: rest => ([0], rest)
  | cs => Digit.span Digit.ascii? cs

/-- The digits of a fraction, or none of them where there is no fraction. -/
def fraction (cs : List Char) : List Nat × List Char :=
  match cs with
  | '.' :: rest =>
    let digits := Digit.span Digit.ascii? rest
    if digits.1 = [] then ([], cs) else digits
  | _ => ([], cs)

/-- An exponent, where there is one. -/
def exponent (cs : List Char) : Option Int × List Char :=
  match cs with
  | mark :: rest =>
    let sign := Decimal.readSign rest
    let digits := Digit.span Digit.ascii? sign.2
    if (mark = 'e' ∨ mark = 'E') ∧ digits.1 ≠ [] then
      let n : Int := Digit.number digits.1
      (some (if sign.1 then -n else n), digits.2)
    else (none, cs)
  | [] => (none, [])

/-- A number without its sign: the longest text that writes one. -/
def readNumber (d : Dialect) (negative : Bool) (cs : List Char) : Token × List Char :=
  let digits := whole cs
  let decimals := fraction digits.2
  let power := exponent decimals.2
  if digits.1 = [] then (.fault .malformed, [])
  else if d.maxWhole.any (· < negative.toNat + digits.1.length) then
    (.fault (.overlong digits.1.length), [])
  else if decimals.1 = [] ∧ power.1 = none then
    if d.maxDigits.any (· < digits.1.length) then (.fault (.overlong digits.1.length), [])
    else
      let n : Int := Digit.number digits.1
      (.atom (.int (if negative then -n else n)), power.2)
  else
    (.atom (.float (.ofDecimal negative
      ⟨Digit.number (digits.1 ++ decimals.1), power.1.getD 0 - decimals.1.length⟩)), power.2)

/-! ### Tokens -/

/-- The token that a single character is. -/
def mark? : Char → Option Token
  | '[' => some .openList
  | ']' => some .closeList
  | '\x7b' => some .openRecord
  | '\x7d' => some .closeRecord
  | ',' => some .comma
  | ':' => some .colon
  | _ => none

/-- The values that are written as words. -/
def words : List (List Char × Json) :=
  [("null".toList, .null), ("true".toList, .bool true), ("false".toList, .bool false),
    ("NaN".toList, .float .nan), ("Infinity".toList, .float (.infinite false)),
    ("-Infinity".toList, .float (.infinite true))]

/-- The value of the word at the front of a text, and what follows it. -/
def word? (cs : List Char) : Option (Json × List Char) :=
  (words.find? (·.1.isPrefixOf cs)).map fun word => (word.2, cs.drop word.1.length)

/-- The token that begins with a character, and what follows it. -/
def read (d : Dialect) (first : Char) (cs : List Char) : Token × List Char :=
  match mark? first with
  | some mark => (mark, cs)
  | none =>
    if first = '\x22' then readString d cs
    else match word? (first :: cs) with
      | some (v, rest) => (.atom v, rest)
      | none =>
        if first = '-' then readNumber d true cs else readNumber d false (first :: cs)

/-! ### What a token leaves over -/

theorem length_stringUnits_le {units found : List Nat} {cs rest : List Char}
    (h : stringUnits units cs = some (found, rest)) : rest.length ≤ cs.length := by
  fun_induction stringUnits units cs <;> simp_all <;> omega

theorem length_readString_le (d : Dialect) (cs : List Char) :
    (readString d cs).2.length ≤ cs.length := by
  unfold readString
  split
  · simp
  · rename_i h
    have := length_stringUnits_le h
    split <;> simp [this]

theorem length_whole_lt {cs : List Char} (h : (whole cs).1 ≠ []) :
    (whole cs).2.length < cs.length := by
  unfold whole at h ⊢
  split
  · simp
  · exact Digit.length_span_lt (by simpa using h)

theorem length_fraction_le (cs : List Char) : (fraction cs).2.length ≤ cs.length := by
  unfold fraction
  split
  · rename_i rest
    have := Digit.length_span_le Digit.ascii? rest
    dsimp only
    split
    · exact Nat.le_refl _
    · exact Nat.le_succ_of_le this
  · exact Nat.le_refl _

theorem length_readSign_le (cs : List Char) : (Decimal.readSign cs).2.length ≤ cs.length := by
  unfold Decimal.readSign
  split <;> simp

theorem length_exponent_le (cs : List Char) : (exponent cs).2.length ≤ cs.length := by
  unfold exponent
  split
  · rename_i rest
    have h1 := length_readSign_le rest
    have h2 := Digit.length_span_le Digit.ascii? (Decimal.readSign rest).2
    dsimp only
    split
    · exact Nat.le_succ_of_le (Nat.le_trans h2 h1)
    · exact Nat.le_refl _
  · exact Nat.le_refl _

/-- A number takes at least one character. -/
theorem length_readNumber_lt (d : Dialect) (negative : Bool) {cs : List Char} (h : cs ≠ []) :
    (readNumber d negative cs).2.length < cs.length := by
  have h0 : 0 < cs.length := List.length_pos_iff.2 h
  have h1 := length_fraction_le (whole cs).2
  have h2 := length_exponent_le (fraction (whole cs).2).2
  unfold readNumber
  dsimp only
  split
  · exact h0
  · rename_i hw
    have := length_whole_lt hw
    split
    · exact h0
    · split
      · split
        · exact h0
        · dsimp only; omega
      · dsimp only; omega

theorem length_readNumber_le (d : Dialect) (negative : Bool) (cs : List Char) :
    (readNumber d negative cs).2.length ≤ cs.length := by
  by_cases h : cs = []
  · subst h; simp [readNumber, whole, Digit.span]
  · exact Nat.le_of_lt (length_readNumber_lt d negative h)

theorem length_word?_lt {cs rest : List Char} {v : Json} (h : word? cs = some (v, rest))
    (hcs : cs ≠ []) : rest.length < cs.length := by
  obtain ⟨word, hfind, he⟩ := Option.map_eq_some_iff.1 h
  cases he
  have hword : ∀ w ∈ words, 0 < w.1.length := by decide
  have := hword word (List.mem_of_find?_eq_some hfind)
  have := List.length_pos_iff.2 hcs
  simp only [List.length_drop]
  omega

/-- A token leaves over no more than what follows its first character. -/
theorem length_read_le (d : Dialect) (first : Char) (cs : List Char) :
    (read d first cs).2.length ≤ cs.length := by
  have hne : first :: cs ≠ [] := List.cons_ne_nil _ _
  unfold read
  split
  · exact Nat.le_refl _
  · split
    · exact length_readString_le d cs
    · split
      · exact Nat.le_of_lt_succ (length_word?_lt ‹_› hne)
      · split
        · exact length_readNumber_le d true cs
        · exact Nat.le_of_lt_succ (length_readNumber_lt d false hne)

end Token
end Json
end MetricQuery
