import Mathlib.Data.List.Basic
import Mathlib.Data.List.TakeWhile

/-!
# Scanning texts

Readers of the front of a text, which give what they read and the text after it. `many` and
`listed` repeat a reader; their lemmas say that items which are read one by one are read in a row.
-/

namespace MetricQuery
namespace Scan

variable {α : Type}

/-- The characters of names. -/
def isWordChar (c : Char) : Bool := c.isAlphanum || c == '_'

/-- A text does not begin with a character of a class. -/
def Stops (p : Char → Bool) (cs : List Char) : Prop := ∀ c ∈ cs.head?, p c = false

/-- The longest run of characters of a class, and the text after it. -/
def run (p : Char → Bool) (cs : List Char) : List Char × List Char :=
  (cs.takeWhile p, cs.dropWhile p)

theorem run_append {p : Char → Bool} {cs rest : List Char} (h : ∀ c ∈ cs, p c)
    (hr : Stops p rest) : run p (cs ++ rest) = (cs, rest) := by
  have ht : rest.takeWhile p = [] ∧ rest.dropWhile p = rest := by
    cases rest with
    | nil => exact ⟨rfl, rfl⟩
    | cons c rest =>
      have hc : p c = false := hr c rfl
      simp [hc]
  rw [run, List.takeWhile_append_of_pos h, List.dropWhile_append_of_pos h, ht.1, ht.2,
    List.append_nil]

theorem run_fst_append_snd (p : Char → Bool) (cs : List Char) :
    (run p cs).1 ++ (run p cs).2 = cs := List.takeWhile_append_dropWhile

theorem of_mem_run {p : Char → Bool} {cs : List Char} {c : Char} (h : c ∈ (run p cs).1) : p c :=
  List.mem_takeWhile_imp h

theorem stops_run (p : Char → Bool) (cs : List Char) : Stops p (run p cs).2 := by
  intro c hc
  have hnot := List.head?_dropWhile_not p cs
  simp only [run] at hc
  rw [Option.mem_def.1 hc] at hnot
  simpa using hnot

/-- The word at the front of a text, and what follows it. -/
def word? (cs : List Char) : Option (String × List Char) :=
  match run isWordChar cs with
  | ([], _) => none
  | (w, rest) => some (String.ofList w, rest)

theorem word?_append {w : String} {rest : List Char} (hne : w.toList ≠ [])
    (h : ∀ c ∈ w.toList, isWordChar c) (hr : Stops isWordChar rest) :
    word? (w.toList ++ rest) = some (w, rest) := by
  unfold word?
  rw [run_append h hr]
  cases hw : w.toList with
  | nil => exact absurd hw hne
  | cons c cs => simp [← hw]

theorem word?_of_stops {cs : List Char} (h : Stops isWordChar cs) : word? cs = none := by
  unfold word?
  rw [← List.nil_append cs, run_append (by simp) h]

/-- An item that a reader may find at the front of a text. -/
def perhaps (item : List Char → Option (α × List Char)) (cs : List Char) :
    Option α × List Char :=
  match item cs with
  | none => (none, cs)
  | some (a, rest) => (some a, rest)

/-- At most `n` items in a row. -/
def many (item : List Char → Option (α × List Char)) : ℕ → List Char → List α × List Char
  | 0, cs => ([], cs)
  | n + 1, cs =>
    match item cs with
    | none => ([], cs)
    | some (a, rest) => (a :: (many item n rest).1, (many item n rest).2)

/-- Items that a reader finds before the texts of a class are read in a row up to the first place
without one, when the texts of further items and the text at the end are in that class. -/
theorem many_flatMap (item : List Char → Option (α × List Char)) (write : α → List Char)
    (Follows : List Char → Prop) {items : List α} {rest : List Char}
    (hitem : ∀ a ∈ items, ∀ cs, Follows cs → item (write a ++ cs) = some (a, cs))
    (hwrite : ∀ a cs, Follows (write a ++ cs)) (hrest : Follows rest) (hstop : item rest = none)
    {n : ℕ} (hn : items.length ≤ n) :
    many item n (items.flatMap write ++ rest) = (items, rest) := by
  induction items generalizing n with
  | nil =>
    cases n with
    | zero => rfl
    | succ n => simp [many, hstop]
  | cons a items ih =>
    obtain ⟨n, rfl⟩ : ∃ m, n = m + 1 := ⟨n - 1, by simp only [List.length_cons] at hn; omega⟩
    have htail := ih (fun b hb => hitem b (List.mem_cons_of_mem a hb))
      (n := n) (by simpa using hn)
    have hfollows : Follows (items.flatMap write ++ rest) := by
      cases items with
      | nil => exact hrest
      | cons b items =>
        rw [List.flatMap_cons, List.append_assoc]
        exact hwrite b _
    rw [List.flatMap_cons, List.append_assoc, many, hitem a List.mem_cons_self _ hfollows]
    simp only [htail]

/-- Every text that is written for an item takes a character, so the length of the whole text
bounds the number of items in it. -/
theorem length_le_length_flatMap (write : α → List Char) (hw : ∀ a, write a ≠ [])
    (items : List α) (rest : List Char) : items.length ≤ (items.flatMap write ++ rest).length := by
  induction items with
  | nil => simp
  | cons a items ih =>
    have := List.length_pos_iff.2 (hw a)
    simp only [List.flatMap_cons, List.length_append, List.length_cons] at ih ⊢
    omega

/-- The text after a given beginning. -/
def skip? (start cs : List Char) : Option (List Char) := cs.dropPrefix? start

@[simp] theorem skip?_append (start rest : List Char) :
    skip? start (start ++ rest) = some rest :=
  List.dropPrefix?_append_of_beq rest (by simp)

/-- Items with commas between them; there may be none. -/
def listed (item : List Char → Option (α × List Char)) (cs : List Char) : List α × List Char :=
  match item cs with
  | none => ([], cs)
  | some (a, rest) =>
    let tail := many (fun cs => (skip? [','] cs).bind item) rest.length rest
    (a :: tail.1, tail.2)

/-- Texts with a separator between them, seen from one of them: each text before it is followed by
the separator, each text after it follows the separator. -/
theorem intercalate_append_cons (sep : List Char) (before : List (List Char)) (cs : List Char)
    (after : List (List Char)) :
    sep.intercalate (before ++ cs :: after) =
      before.flatMap (· ++ sep) ++ cs ++ after.flatMap (sep ++ ·) := by
  induction before with
  | nil =>
    induction after generalizing cs with
    | nil => simp
    | cons c after ih => simpa [List.intercalate_cons_cons] using ih c
  | cons b before ih =>
    rw [List.cons_append, List.intercalate_cons_of_ne_nil (by simp), ih]
    simp

theorem listed_intercalate (item : List Char → Option (α × List Char)) (write : α → List Char)
    (Follows : List Char → Prop) {items : List α} {rest : List Char}
    (hitem : ∀ a ∈ items, ∀ cs, Follows cs → item (write a ++ cs) = some (a, cs))
    (hcomma : ∀ cs, Follows (',' :: cs)) (hrest : Follows rest) (hnone : item rest = none)
    (hstop : skip? [','] rest = none) :
    listed item ([','].intercalate (items.map write) ++ rest) = (items, rest) := by
  cases items with
  | nil => simp [listed, hnone]
  | cons a items =>
    have htext : [','].intercalate ((a :: items).map write) ++ rest =
        write a ++ (items.flatMap (fun b => [','] ++ write b) ++ rest) := by
      have := intercalate_append_cons [','] [] (write a) (items.map write)
      simpa [List.flatMap_map] using congrArg (· ++ rest) this
    have hfollows : Follows (items.flatMap (fun b => [','] ++ write b) ++ rest) := by
      cases items with
      | nil => exact hrest
      | cons b items => exact hcomma _
    have htail := many_flatMap (fun cs => (skip? [','] cs).bind item) (fun b => [','] ++ write b)
      Follows
      (fun b hb cs hcs => by
        rw [List.append_assoc, skip?_append]
        exact hitem b (List.mem_cons_of_mem a hb) cs hcs)
      (fun b cs => hcomma _) hrest (by simp [hstop])
      (length_le_length_flatMap (fun b => [','] ++ write b) (fun b => by simp) items rest)
    rw [listed, htext, hitem a List.mem_cons_self _ hfollows]
    simp only [htail]

end Scan
end MetricQuery
