import Mathlib.Data.List.Basic
import Mathlib.Tactic.SplitIfs
import MetricQuery.Proofs.Text.QuotedReader
import MetricQuery.Selector.Basic

/-!
# Literals within a text

A text of the query language falls into string literals and the characters between them. Every value
has one literal, and no literal begins another one; so a literal that is put into a text is one part
of it, and the parts before and after it do not depend on its value.
-/

namespace MetricQuery
namespace Quoted

/-! ### Escapes -/

/-- A text with another text in the place of a character. -/
def replace (c : Char) (text cs : List Char) : List Char :=
  cs.flatMap fun x => if x = c then text else [x]

/-- Escaping each character is the same as replacing the backslashes first, then the quotes, then
the line feeds. -/
theorem flatMap_escape (cs : List Char) :
    cs.flatMap escape =
      replace '\n' ['\\', 'n'] (replace '\x22' ['\\', '\x22'] (replace '\\' ['\\', '\\'] cs)) := by
  simp only [replace, List.flatMap_assoc]
  refine List.flatMap_congr fun c _ => ?_
  unfold escape
  -- What is put in for one character holds no character that is replaced later.
  split_ifs with hb hq hn
  · rfl
  · subst hq; rfl
  · subst hn; rfl
  · simp [hq, hn]

theorem escape_of_ne {c : Char} (hb : c ≠ '\\') (hq : c ≠ '\x22') (hn : c ≠ '\n') :
    escape c = [c] := by
  rw [escape, if_neg hb, if_neg hq, if_neg hn]

/-- What is read up to the closing quote is the value with its escapes. -/
theorem eq_of_readInside {cs value rest : List Char} (h : readInside cs = some (value, rest)) :
    cs = value.flatMap escape ++ '\x22' :: rest := by
  have step {cs : List Char} {c : Char} {text : List Char} (hc : escape c = text)
      (ih : ∀ {value rest}, readInside cs = some (value, rest) →
        cs = value.flatMap escape ++ '\x22' :: rest) {value rest : List Char}
      (h : (readInside cs).map (fun r => (c :: r.1, r.2)) = some (value, rest)) :
      text ++ cs = value.flatMap escape ++ '\x22' :: rest := by
    obtain ⟨⟨value', rest'⟩, hread, hpair⟩ := Option.map_eq_some_iff.1 h
    obtain ⟨rfl, rfl⟩ := Prod.mk.inj hpair
    rw [List.flatMap_cons, hc, List.append_assoc, ← ih hread]
  fun_induction readInside cs generalizing value rest with
  | case1 cs =>
    obtain ⟨rfl, rfl⟩ := Prod.mk.inj (Option.some.inj h)
    rfl
  | case2 cs ih | case3 cs ih | case4 cs ih => exact step rfl ih h
  | case5 | case6 | case8 => cases h
  | case7 c cs hq _ _ _ hb hn ih => exact step (escape_of_ne hb hq hn) ih h

/-- A literal is read from the front of a text exactly when it stands there. -/
theorem read_eq_some_iff {cs value rest : List Char} :
    read cs = some (value, rest) ↔ cs = encode value ++ rest := by
  constructor
  · intro h
    unfold read at h
    split at h
    · rw [eq_of_readInside h, encode, List.cons_append, List.append_assoc, List.singleton_append]
    · cases h
  · rintro rfl
    exact read_encode_append value rest

/-- No literal begins another one. -/
theorem encode_append_inj {value value' rest rest' : List Char}
    (h : encode value ++ rest = encode value' ++ rest') : value = value' ∧ rest = rest' := by
  have hread := read_encode_append value rest
  rw [h, read_encode_append] at hread
  obtain ⟨rfl, rfl⟩ := Prod.mk.inj (Option.some.inj hread)
  exact ⟨rfl, rfl⟩

/-! ### Parts of a text -/

/-- A string literal, by its value, or a character outside of all literals. -/
inductive Part where
  | literal (value : List Char)
  | plain (c : Char)
deriving DecidableEq

theorem length_lt_of_read {cs value rest : List Char} (h : read cs = some (value, rest)) :
    rest.length < cs.length := by
  rw [read_eq_some_iff.1 h, encode, List.cons_append, List.length_cons, List.length_append]
  omega

/-- The parts of a text, from left to right. A literal that is not closed is none. -/
def parts? (cs : List Char) : Option (List Part) :=
  match cs with
  | [] => some []
  | c :: tail =>
    if c = '\x22' then
      match _h : read (c :: tail) with
      | some (value, rest) => (parts? rest).map (.literal value :: ·)
      | none => none
    else (parts? tail).map (.plain c :: ·)
termination_by cs.length
decreasing_by
  · exact length_lt_of_read _h
  · exact Nat.lt_succ_self _

theorem parts?_encode_append (value rest : List Char) :
    parts? (encode value ++ rest) = (parts? rest).map (.literal value :: ·) := by
  have hread := read_encode_append value rest
  rw [encode, List.cons_append] at hread ⊢
  rw [parts?, if_pos rfl]
  split
  · rename_i heq
    obtain ⟨rfl, rfl⟩ := Prod.mk.inj (Option.some.inj (heq.symm.trans hread))
    rfl
  · rename_i heq
    rw [hread] at heq
    cases heq

theorem parts?_cons_of_ne {c : Char} (hc : c ≠ '\x22') (cs : List Char) :
    parts? (c :: cs) = (parts? cs).map (.plain c :: ·) := by
  rw [parts?, if_neg hc]

/-- Characters without a quote are parts of their own. -/
theorem parts?_append_of_forall_ne {cs : List Char} (h : ∀ c ∈ cs, c ≠ '\x22') (rest : List Char) :
    parts? (cs ++ rest) = (parts? rest).map (cs.map .plain ++ ·) := by
  induction cs with
  | nil => simp
  | cons c cs ih =>
    obtain ⟨hc, hcs⟩ := List.forall_mem_cons.1 h
    rw [List.cons_append, parts?_cons_of_ne hc, ih hcs, Option.map_map]
    rfl

/-- A text whose literals are closed has its parts in every longer text. -/
theorem parts?_append {cs : List Char} {ps : List Part} (h : parts? cs = some ps)
    (rest : List Char) : parts? (cs ++ rest) = (parts? rest).map (ps ++ ·) := by
  fun_induction parts? cs generalizing ps with
  | case1 =>
    obtain rfl := Option.some.inj h
    simp
  | case2 tail value rest' hread ih =>
    obtain ⟨qs, hqs, rfl⟩ := Option.map_eq_some_iff.1 h
    rw [read_eq_some_iff.1 hread, List.append_assoc, parts?_encode_append, ih hqs, Option.map_map]
    rfl
  | case3 => cases h
  | case4 c tail hc ih =>
    obtain ⟨qs, hqs, rfl⟩ := Option.map_eq_some_iff.1 h
    rw [List.cons_append, parts?_cons_of_ne hc, ih hqs, Option.map_map]
    rfl

theorem toList_quote (s : String) : (quote s).toList = encode s.toList := String.toList_ofList

/-- The value of a matcher is one part of its text, after its label and its operator. -/
theorem parts?_matcher_append (m : Matcher) (h : ∀ c ∈ m.name.toList, c ≠ '\x22')
    (rest : List Char) : parts? (m.text.toList ++ rest) = (parts? rest).map fun qs =>
      (m.name ++ m.op.symbol).toList.map .plain ++ .literal m.value.toList :: qs := by
  have hsymbol : ∀ c ∈ m.op.symbol.toList, c ≠ '\x22' := by
    cases m.op <;> simp [MatchOp.symbol]
  have hbefore : ∀ c ∈ (m.name ++ m.op.symbol).toList, c ≠ '\x22' := by
    rw [String.toList_append]
    exact List.forall_mem_append.2 ⟨h, hsymbol⟩
  rw [Matcher.text, String.toList_append, List.append_assoc, toList_quote,
    parts?_append_of_forall_ne hbefore, parts?_encode_append, Option.map_map]
  rfl

/-- **Quoted texts cannot be broken out of.** A quoted text is made by replacing the backslashes,
the quotes and the line feeds in turn, and whatever follows it, a reader takes exactly one literal
from the front, with the text as its value. So different texts have different literals, and none of
them begins another one. Put into a text after closed literals, or into a matcher, a quoted text is
one part of it; the parts before and after it are the same for every value. -/
theorem read_quote_append (s : String) (rest : List Char) :
    (quote s).toList = '\x22' :: (replace '\n' ['\\', 'n'] (replace '\x22' ['\\', '\x22']
      (replace '\\' ['\\', '\\'] s.toList)) ++ ['\x22']) ∧
    read ((quote s).toList ++ rest) = some (s.toList, rest) ∧
    (∀ t, quote t = quote s → t = s) ∧
    (∀ t, (quote t).toList <+: (quote s).toList → t = s) ∧
    (∀ before ps, parts? before = some ps →
      parts? (before ++ ((quote s).toList ++ rest)) =
        (parts? rest).map fun qs => ps ++ .literal s.toList :: qs) ∧
    ∀ name op, (∀ c ∈ name.toList, c ≠ '\x22') →
      parts? ((Matcher.mk name s op).text.toList ++ rest) = (parts? rest).map fun qs =>
        (name ++ op.symbol).toList.map .plain ++ .literal s.toList :: qs := by
  have hbegins {t : String} (h : (quote t).toList <+: (quote s).toList) : t = s := by
    obtain ⟨tail, htail⟩ := h
    rw [toList_quote, toList_quote, ← List.append_nil (encode s.toList)] at htail
    exact String.toList_injective (encode_append_inj htail).1
  refine ⟨?_, ?_, fun t h => hbegins (h ▸ List.prefix_rfl), fun t h => hbegins h,
    fun before ps h => ?_, fun name op h => parts?_matcher_append ⟨name, s, op⟩ h rest⟩
  · rw [toList_quote, encode, flatMap_escape]
  · rw [toList_quote, read_encode_append]
  · rw [toList_quote, parts?_append h, parts?_encode_append, Option.map_map]
    rfl

/-- A value that ends in a backslash, before a text that opens a literal of its own. -/
theorem read_quote_append_backslash :
    (quote "a\x22\n\\").toList = "\x22a\\\x22\\n\\\\\x22".toList ∧
    read ((quote "a\x22\n\\").toList ++ ",b=\x22".toList) =
      some ("a\x22\n\\".toList, ",b=\x22".toList) ∧
    parts? ("\x7b".toList ++ ((quote "a\x22\n\\").toList ++ "\x7d".toList)) =
      some [.plain '\x7b', .literal "a\x22\n\\".toList, .plain '\x7d'] ∧
    parts? ((Matcher.mk "x" "a\x22\n\\" .notEqual).text.toList ++ "\x7d".toList) =
      some [.plain 'x', .plain '!', .plain '=', .literal "a\x22\n\\".toList, .plain '\x7d'] := by
  have hopen : parts? "\x7b".toList = some [.plain '\x7b'] := by simp [parts?]
  have hclose : parts? "\x7d".toList = some [.plain '\x7d'] := by simp [parts?]
  obtain ⟨-, hread, -, -, -, -⟩ := read_quote_append "a\x22\n\\" ",b=\x22".toList
  obtain ⟨htext, -, -, -, hparts, hmatcher⟩ := read_quote_append "a\x22\n\\" "\x7d".toList
  refine ⟨htext, hread, ?_, ?_⟩
  · rw [hparts _ _ hopen, hclose]
    rfl
  · rw [hmatcher "x" .notEqual (by simp), hclose]
    rfl

end Quoted
end MetricQuery
