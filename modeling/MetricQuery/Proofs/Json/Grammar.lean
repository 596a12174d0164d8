import MetricQuery.Json.Reader
import MetricQuery.Proofs.Text.Digit

/-!
# The grammar of JSON texts

Which texts write which values, said without a reader. A value has many texts: blanks, escapes and
the spelling of numbers are free. The grammar leaves out what readers may disagree on: numbers that
are written as words, halves of surrogate pairs that stand alone, and a name that stands twice in
one record.
-/

namespace MetricQuery
namespace Json

/-! ### Strings -/

/-- How a character of a string is written: as itself, as a short escape, by its number in
hexadecimal digits, or by the two halves of its surrogate pair. -/
inductive Letter : Char → List Char → Prop where
  | plain {c : Char} (hcontrol : 0x20 ≤ c.toNat) (hquote : c ≠ '\x22') (hescape : c ≠ '\\') :
    Letter c [c]
  | short {mark c : Char} (h : Token.escaped? mark = some c) : Letter c ['\\', mark]
  | unit {c w x y z : Char} (h : Token.hexUnit? [w, x, y, z] = some c.toNat) :
    Letter c ['\\', 'u', w, x, y, z]
  | pair {c w x y z w' x' y' z' : Char} {high low : ℕ}
    (hhigh : Token.hexUnit? [w, x, y, z] = some (0xd800 + high))
    (hlow : Token.hexUnit? [w', x', y', z'] = some (0xdc00 + low))
    (hhigh_lt : high < 0x400) (hlow_lt : low < 0x400)
    (hc : c.toNat = 0x10000 + high * 0x400 + low) :
    Letter c ['\\', 'u', w, x, y, z, '\\', 'u', w', x', y', z']

/-- How the characters of a string are written between its quotes. -/
inductive Letters : List Char → List Char → Prop where
  | nil : Letters [] []
  | cons {c : Char} {s cs rest : List Char} (h : Letter c cs) (hs : Letters s rest) :
    Letters (c :: s) (cs ++ rest)

/-! ### Numbers -/

/-- An exponent with its mark, its sign, if there is one, and its digits. -/
structure Exponent where
  mark : Char
  sign : Option Char
  digits : List Char
  mark_eq : mark = 'e' ∨ mark = 'E'
  sign_eq : ∀ c ∈ sign, c = '+' ∨ c = '-'
  digits_ne_nil : digits ≠ []
  isDigit : ∀ c ∈ digits, c.isDigit

namespace Exponent

def text (e : Exponent) : List Char := e.mark :: (e.sign.toList ++ e.digits)

def value (e : Exponent) : ℤ :=
  if e.sign = some '-' then -(Nat.ofDigitChars 10 e.digits 0 : ℤ)
  else Nat.ofDigitChars 10 e.digits 0

end Exponent

/-- A number as it is written. It has a fraction where there are digits of one. -/
structure Number where
  negative : Bool
  whole : List Char
  fraction : List Char
  exponent : Option Exponent
  whole_isPlain : Digit.IsPlain whole
  fraction_isDigit : ∀ c ∈ fraction, c.isDigit

namespace Number

def fractionText (n : Number) : List Char := if n.fraction = [] then [] else '.' :: n.fraction

def exponentText (n : Number) : List Char := n.exponent.elim [] Exponent.text

/-- A number without its minus. -/
def unsigned (n : Number) : List Char := n.whole ++ (n.fractionText ++ n.exponentText)

def text (n : Number) : List Char := if n.negative then '-' :: n.unsigned else n.unsigned

/-- Whether a number has neither a fraction nor an exponent. -/
def IsInteger (n : Number) : Prop := n.fraction = [] ∧ n.exponent = none

instance (n : Number) : Decidable n.IsInteger :=
  inferInstanceAs (Decidable (n.fraction = [] ∧ n.exponent = none))

/-- The integer that the whole part writes. -/
def wholeValue (n : Number) : ℤ :=
  if n.negative then -(Nat.ofDigitChars 10 n.whole 0 : ℤ) else Nat.ofDigitChars 10 n.whole 0

/-- The value of a number: exact for an integer, and rounded once for any other. -/
def value (n : Number) : Json :=
  if n.IsInteger then .int n.wholeValue
  else .float (.ofDecimal n.negative ⟨Nat.ofDigitChars 10 (n.whole ++ n.fraction) 0,
    n.exponent.elim 0 Exponent.value - n.fraction.length⟩)

/-- How many characters stand in front of the point or exponent. -/
def wholeLength (n : Number) : ℕ := n.negative.toNat + n.whole.length

end Number

/-! ### Values -/

/-- What a stretch of a text may write: a value, items of a list, a field, fields of a record. -/
inductive Part where
  | value (v : Json)
  | items (vs : List Json)
  | field (name : String) (v : Json)
  | fields (fields : Fields)

/-- The values of a part. -/
def Part.values : Part → List Json
  | .value v => [v]
  | .items vs => vs
  | .field _ v => [v]
  | .fields entries => entries.map Prod.snd

/-- A text of nothing but blanks. -/
def Blank (cs : List Char) : Prop := ∀ c ∈ cs, isSpace c

/-- How the parts of a document are written, and the numbers in them from left to right. -/
inductive Written : Part → List Char → List Number → Prop where
  | padded {v : Json} {before cs after : List Char} {ns : List Number} (hbefore : Blank before)
    (h : Written (.value v) cs ns) (hafter : Blank after) :
    Written (.value v) (before ++ (cs ++ after)) ns
  | null : Written (.value .null) "null".toList []
  | true : Written (.value (.bool true)) "true".toList []
  | false : Written (.value (.bool false)) "false".toList []
  | number (n : Number) : Written (.value n.value) n.text [n]
  | text {s cs : List Char} (h : Letters s cs) :
    Written (.value (.text (String.ofList s))) ('\x22' :: (cs ++ ['\x22'])) []
  | emptyList {blanks : List Char} (h : Blank blanks) :
    Written (.value (.list [])) ('[' :: (blanks ++ [']'])) []
  | list {vs : List Json} {cs : List Char} {ns : List Number} (h : Written (.items vs) cs ns) :
    Written (.value (.list vs)) ('[' :: (cs ++ [']'])) ns
  | emptyRecord {blanks : List Char} (h : Blank blanks) :
    Written (.value (.record [])) ('\x7b' :: (blanks ++ ['\x7d'])) []
  | record {fields : Fields} {cs : List Char} {ns : List Number}
    (h : Written (.fields fields) cs ns) (hnames : (fields.map Prod.fst).Nodup) :
    Written (.value (.record fields)) ('\x7b' :: (cs ++ ['\x7d'])) ns
  | item {v : Json} {cs : List Char} {ns : List Number} (h : Written (.value v) cs ns) :
    Written (.items [v]) cs ns
  | items {v : Json} {vs : List Json} {cs more : List Char} {ns ms : List Number}
    (h : Written (.value v) cs ns) (hmore : Written (.items vs) more ms) :
    Written (.items (v :: vs)) (cs ++ ',' :: more) (ns ++ ms)
  | field {s letters : List Char} {v : Json} {before after cs : List Char} {ns : List Number}
    (hbefore : Blank before) (hname : Letters s letters) (hafter : Blank after)
    (h : Written (.value v) cs ns) :
    Written (.field (String.ofList s) v)
      (before ++ '\x22' :: (letters ++ '\x22' :: (after ++ ':' :: cs))) ns
  | lastField {name : String} {v : Json} {cs : List Char} {ns : List Number}
    (h : Written (.field name v) cs ns) : Written (.fields [(name, v)]) cs ns
  | fields {name : String} {v : Json} {rest : Fields} {cs more : List Char} {ns ms : List Number}
    (h : Written (.field name v) cs ns) (hmore : Written (.fields rest) more ms) :
    Written (.fields ((name, v) :: rest)) (cs ++ ',' :: more) (ns ++ ms)

/-! ### Plain texts -/

/-- A text between quotes, as it is. -/
def quoted (s : String) : List Char := '\x22' :: (s.toList ++ ['\x22'])

/-- A field without blanks, its name as it is. -/
def fieldText (name : String) (cs : List Char) : List Char :=
  '\x22' :: (name.toList ++ '\x22' :: ':' :: cs)

/-- A string whose characters may all be written as they are. -/
def IsPlain (s : String) : Prop := ∀ c ∈ s.toList, 0x20 ≤ c.toNat ∧ c ≠ '\x22' ∧ c ≠ '\\'

instance (s : String) : Decidable (IsPlain s) :=
  -- named, as the instance for all characters would be found first where it is in scope
  List.decidableBAll (fun c : Char => 0x20 ≤ c.toNat ∧ c ≠ '\x22' ∧ c ≠ '\\') s.toList

theorem letters_of_plain {cs : List Char}
    (h : ∀ c ∈ cs, 0x20 ≤ c.toNat ∧ c ≠ '\x22' ∧ c ≠ '\\') : Letters cs cs := by
  induction cs with
  | nil => exact .nil
  | cons c cs ih =>
    obtain ⟨⟨hcontrol, hquote, hescape⟩, hcs⟩ := List.forall_mem_cons.1 h
    exact .cons (.plain hcontrol hquote hescape) (ih hcs)

theorem written_quoted {s : String} (h : IsPlain s) : Written (.value (.text s)) (quoted s) [] := by
  have htext := Written.text (letters_of_plain h)
  rwa [String.ofList_toList] at htext

theorem written_fieldText {name : String} {v : Json} {cs : List Char} {ns : List Number}
    (hname : IsPlain name) (h : Written (.value v) cs ns) :
    Written (.field name v) (fieldText name cs) ns := by
  have hfield : Written (.field (String.ofList name.toList) v)
      ([] ++ '\x22' :: (name.toList ++ '\x22' :: ([] ++ ':' :: cs))) ns :=
    .field nofun (letters_of_plain hname) nofun h
  rwa [String.ofList_toList] at hfield

end Json
end MetricQuery
