import Mathlib.Data.List.Basic
import MetricQuery.Expression

/-!
# Phrases

A phrase is the syntax tree of a text of the query language: the operator or function at each node,
its operands in their order, the clauses with their labels, the matchers of the selectors, and the
literals among the arguments. `Phrase.write` is the text of a phrase; numbers and windows are kept
as they are written.
-/

namespace MetricQuery

/-- An argument beside the vector: a number by its text or a string by its value. -/
inductive Literal where
  | number (text : String)
  | string (value : String)
deriving DecidableEq

/-- The syntax trees of the query language. -/
inductive Phrase where
  | instant (matchers : List Matcher)
  | range (matchers : List Matcher) (window : String)
  | call (function : String) (before : List Literal) (vector : Phrase) (after : List Literal)
  | aggregate (op : String) (clause : Option Clause) (parameter : Option Literal) (vector : Phrase)
  | binary (op : ArithmeticOp) (left right : Phrase) (matching group : Option Clause)
deriving DecidableEq

def Literal.write : Literal → List Char
  | number text => text.toList
  | string value => Quoted.encode value.toList

/-- An optional clause with a blank in front. -/
def writeClause : Option Clause → List Char
  | none => []
  | some c => ' ' :: c.text.toList

namespace Phrase

def isBinary : Phrase → Bool
  | binary .. => true
  | _ => false

/-- A text `cs` of a phrase as an operand: between parentheses for a binary operation. -/
def enclose (p : Phrase) (cs : List Char) : List Char :=
  if p.isBinary then '(' :: (cs ++ [')']) else cs

/-- The text of a phrase. -/
def write : Phrase → List Char
  | instant ms => (Matcher.braces ms).toList
  | range ms window => (Matcher.braces ms).toList ++ '[' :: (window.toList ++ [']'])
  | call f before v after =>
    f.toList ++ '(' :: (before.flatMap (fun l => l.write ++ [',', ' ']) ++ v.write ++
      after.flatMap (fun l => ',' :: ' ' :: l.write) ++ [')'])
  | aggregate op clause parameter v =>
    op.toList ++ writeClause clause ++ ' ' :: '(' ::
      (parameter.toList.flatMap (fun l => l.write ++ [',', ' ']) ++ v.write ++ [')'])
  | binary op l r matching group =>
    enclose l l.write ++ ' ' :: (op.symbol.toList ++ writeClause matching ++ writeClause group ++
      ' ' :: enclose r r.write)

/-- How deeply operations are nested in a phrase. -/
def depth : Phrase → ℕ
  | instant _ => 1
  | range _ _ => 1
  | call _ _ v _ => v.depth + 1
  | aggregate _ _ _ v => v.depth + 1
  | binary _ l r _ _ => max l.depth r.depth + 1

theorem length_le_length_enclose (p : Phrase) (cs : List Char) :
    cs.length ≤ (p.enclose cs).length := by
  unfold enclose
  split
  · simp only [List.length_cons, List.length_append]; omega
  · exact Nat.le_refl _

theorem depth_le_length_write (p : Phrase) : p.depth ≤ p.write.length := by
  induction p with
  | instant ms => simp [depth, write, Matcher.braces]
  | range ms window => simp only [depth, write, List.length_append, List.length_cons]; omega
  | call f before v after ih =>
    simp only [depth, write, List.length_append, List.length_cons]
    omega
  | aggregate op clause parameter v ih =>
    simp only [depth, write, List.length_append, List.length_cons]
    omega
  | binary op l r matching group ihl ihr =>
    have hl := length_le_length_enclose l l.write
    have hr := length_le_length_enclose r r.write
    simp only [depth, write, List.length_append, List.length_cons]
    omega

end Phrase
end MetricQuery
