import Mathlib.Data.List.Basic
import MetricQuery.Text.Quoted

/-!
# Reading quoted strings

A reader of string literals goes from left to right: a backslash and the character after it stand
for one character, a double quote ends the literal, and a line feed must not stand inside.
-/

namespace MetricQuery
namespace Quoted

/-- The value of a literal whose first quote has been read, and the text after its last quote. -/
def readInside : List Char → Option (List Char × List Char)
  | '\x22' :: rest => some ([], rest)
  | '\\' :: '\\' :: rest => (readInside rest).map fun r => ('\\' :: r.1, r.2)
  | '\\' :: '\x22' :: rest => (readInside rest).map fun r => ('\x22' :: r.1, r.2)
  | '\\' :: 'n' :: rest => (readInside rest).map fun r => ('\n' :: r.1, r.2)
  | '\\' :: _ => none
  | '\n' :: _ => none
  | c :: rest => (readInside rest).map fun r => (c :: r.1, r.2)
  | [] => none

/-- The value of the literal at the front of a text, and the text after it. -/
def read : List Char → Option (List Char × List Char)
  | '\x22' :: rest => readInside rest
  | _ => none

theorem readInside_escape_append (c : Char) (cs : List Char) :
    readInside (escape c ++ cs) = (readInside cs).map fun r => (c :: r.1, r.2) := by
  unfold escape
  split_ifs with hb hq hn
  · subst hb; rfl
  · subst hq; rfl
  · subst hn; rfl
  · rw [List.singleton_append, readInside]
    · exact hq
    · exact fun _ h _ => hb h
    · exact fun _ h _ => hb h
    · exact fun _ h _ => hb h
    · exact hb
    · exact hn

theorem readInside_flatMap_escape (value rest : List Char) :
    readInside (value.flatMap escape ++ '\x22' :: rest) = some (value, rest) := by
  induction value with
  | nil => rfl
  | cons c value ih =>
    rw [List.flatMap_cons, List.append_assoc, readInside_escape_append, ih]
    rfl

/-- A literal is read up to its closing quote, whatever its value and the text after it. -/
theorem read_encode_append (value rest : List Char) :
    read (encode value ++ rest) = some (value, rest) := by
  have h : encode value ++ rest = '\x22' :: (value.flatMap escape ++ '\x22' :: rest) := by
    simp [encode]
  rw [h]
  exact readInside_flatMap_escape value rest

end Quoted
end MetricQuery
