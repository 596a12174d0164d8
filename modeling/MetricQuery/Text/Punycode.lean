/-!
# Punycode

A text in ASCII alone that stands for a text of any characters. The ASCII characters come first, in
their order. After them, each other character is told by how many places there are between it and
the one told before, where places are counted by character and then by position. These distances
are numerals in base 36 whose digits have thresholds: a digit below its threshold is the last one
of its numeral. The thresholds adapt to the distances so far.
-/

namespace MetricQuery
namespace Punycode

/-- The digit of a value: a letter, and a figure from 26 on. -/
def digit (value : Nat) : Char := Char.ofNat (if value < 26 then 0x61 + value else 0x16 + value)

/-- The threshold of the digit at a position, which counts in steps of 36. -/
def threshold (bias position : Nat) : Nat := max 1 (min 26 (position - bias))

/-- A distance as a numeral from a position on. -/
def numeral (bias position distance : Nat) : List Char :=
  let t := threshold bias position
  if distance < t then [digit distance]
  else digit (t + (distance - t) % (36 - t)) ::
    numeral bias (position + 36) ((distance - t) / (36 - t))
termination_by distance
decreasing_by
  have h1 : 1 ≤ threshold bias position := Nat.le_max_left ..
  have h2 : (distance - threshold bias position) / (36 - threshold bias position) ≤
    distance - threshold bias position := Nat.div_le_self ..
  omega

/-- The bias for a distance that is scaled to the number of characters. -/
def scaledBias (steps distance : Nat) : Nat :=
  if 455 < distance then scaledBias (steps + 36) (distance / 35)
  else steps + 36 * distance / (distance + 38)
termination_by distance

/-- The bias after a distance, where `told` characters are told by then. The first distance says
less about the others. -/
def adapt (isFirst : Bool) (distance told : Nat) : Nat :=
  let scaled := if isFirst then distance / 700 else distance / 2
  scaledBias 0 (scaled + scaled / told)

/-- What is written so far, and how many places lie behind the character told last. -/
structure State where
  written : List Char
  distance : Nat
  bias : Nat
  told : Nat

/-- The state after the place of a character of the text, when the characters of value `n` are
being told. Of the `basic` ASCII characters none is told by a distance. -/
def State.step (basic n : Nat) (s : State) (c : Char) : State :=
  if c.toNat < n then { s with distance := s.distance + 1 }
  else if c.toNat = n then
    ⟨s.written ++ numeral s.bias 36 s.distance, 0,
      adapt (s.told == basic) s.distance (s.told + 1), s.told + 1⟩
  else s

/-- The numerals for the characters of some values from `n` on, in increasing order. -/
def tell (basic : Nat) (cs : List Char) (n : Nat) (s : State) : List Nat → List Char
  | [] => s.written
  | m :: values =>
    let reached : State := { s with distance := s.distance + (m - n) * (s.told + 1) }
    let next := cs.foldl (State.step basic m) reached
    tell basic cs (m + 1) { next with distance := next.distance + 1 } values

def isAscii (c : Char) : Bool := c.toNat < 0x80

/-- The text in ASCII that stands for a text. -/
def encode (cs : List Char) : List Char :=
  let basic := cs.filter isAscii
  let values := (((cs.filter (!isAscii ·)).map Char.toNat).mergeSort (· ≤ ·)).eraseDups
  basic ++ (if basic = [] then [] else ['-']) ++
    tell basic.length cs 0x80 ⟨[], 0, 72, basic.length⟩ values

end Punycode
end MetricQuery
