import MetricQuery.Schema.Numeral

/-!
# Scalars in documents

Decoders for texts, numbers and truth values. Numbers and truth values are taken from everything
that stands for one without loss: a text in its number syntax, an integer, a truth value. Texts are
taken from texts alone.
-/

namespace MetricQuery

/-- What a value of a document stands for. -/
abbrev Decoder (α : Type) := Json → Checked α

namespace Schema

def text : Decoder String
  | .text s => .sound s
  | _ => .problem .notText

/-- A value that may be null. -/
def nullable {α : Type} (decode : Decoder α) : Decoder (Option α)
  | .null => .sound none
  | v => some <$> decode v

/-- What an integer beyond all floating-point numbers stands for: infinity in a text, and no number
elsewhere. -/
def floatBeyond (source : Source) (n : Int) : Checked Binary64 :=
  match source with
  | .text => .sound (.infinite (decide (n < 0)))
  | .value => .problem .notFloat

/-- An integer as a floating-point number. -/
def floatOfInt (source : Source) (n : Int) : Checked Binary64 :=
  (Binary64.ofInt? n).elim (floatBeyond source n) .sound

def float (source : Source) : Decoder Binary64
  | .float x => .sound x
  | .int n => floatOfInt source n
  | .bool b => floatOfInt source b.toInt
  | .text s =>
    match readFloat s.toList with
    | some x => .sound x
    | none => .problem .unreadableFloat
  | _ => .problem .notFloat

/-- The bound of signed integers of 64 bits. Whole floating-point numbers stand for integers only
strictly between this bound and its negative. -/
def wordBound : Int := twoTo 63

/-- The integer that a floating-point number is equal to. -/
def integerOfFloat (x : Binary64) : Checked Int :=
  match x.isFinite, x.toInt? with
  | false, _ => .problem .infiniteInteger
  | true, none => .problem .fractionalInteger
  | true, some n =>
    if -wordBound < n ∧ n < wordBound then .sound n else .problem .oversizedInteger

def integer : Decoder Int
  | .int n => .sound n
  | .bool b => .sound b.toInt
  | .float x => integerOfFloat x
  | .text s => readInteger s.toList
  | _ => .problem .notInteger

/-- The words for a truth value, in either case of letters. -/
def truthWords : Bool → List String
  | true => ["1", "on", "t", "true", "y", "yes"]
  | false => ["0", "off", "f", "false", "n", "no"]

/-- The truth value of a word. -/
def truthOfWord? (s : String) : Option Bool :=
  let word := String.ofList (s.toList.map Char.toLower)
  [true, false].find? fun b => (truthWords b).contains word

/-- The truth value of an integer that stands for one. -/
def truthOfInt (n : Int) : Checked Bool :=
  if n = 0 then .sound false else if n = 1 then .sound true else .problem .unreadableBool

/-- Of the numbers, only integers of 64 bits may stand for truth values. -/
def bool : Decoder Bool
  | .bool b => .sound b
  | .int n => if -wordBound ≤ n ∧ n < wordBound then truthOfInt n else .problem .notBool
  | .float x =>
    match integerOfFloat x with
    | .sound n => truthOfInt n
    | .faulty _ => .problem .notBool
  | .text s =>
    match truthOfWord? s with
    | some b => .sound b
    | none => .problem .unreadableBool
  | _ => .problem .notBool

end Schema
end MetricQuery
