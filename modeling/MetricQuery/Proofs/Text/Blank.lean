import Mathlib.Data.List.Basic
import MetricQuery.Text.Blank
import MetricQuery.Proofs.Text.Scan

/-!
# Trimming

What is dropped at the ends of a text makes no difference to what is left, and what is left neither
begins nor ends with such a character.
-/

namespace MetricQuery

variable {drop : Char → Bool} {cs : List Char}

/-- Characters of the class before a text and after it are dropped with its own. -/
theorem trim_append {before after : List Char} (hbefore : ∀ c ∈ before, drop c)
    (hafter : ∀ c ∈ after, drop c) : trim drop (before ++ (cs ++ after)) = trim drop cs := by
  have hafter' : ∀ c ∈ after.reverse, drop c := fun c hc => hafter c (List.mem_reverse.1 hc)
  rw [trim, List.dropWhile_append_of_pos hbefore, List.dropWhile_append]
  split
  · rename_i hempty
    rw [List.isEmpty_iff] at hempty
    rw [trim, hempty, List.dropWhile_eq_nil_iff.2 hafter]
  · rw [trim, List.reverse_append, List.dropWhile_append_of_pos hafter']

theorem trim_of_forall_not (h : ∀ c ∈ cs, drop c = false) : trim drop cs = cs := by
  have hkeep (ds : List Char) (hds : ∀ c ∈ ds, drop c = false) : ds.dropWhile drop = ds := by
    cases ds with
    | nil => rfl
    | cons c ds => rw [List.dropWhile_cons_of_neg (by simp [hds c List.mem_cons_self])]
  rw [trim, hkeep cs h, hkeep _ fun c hc => h c (List.mem_reverse.1 hc), List.reverse_reverse]

theorem getLast?_trim {c : Char} (h : (trim drop cs).getLast? = some c) : drop c = false := by
  rw [trim, List.getLast?_reverse] at h
  exact Scan.stops_run drop _ c h

/-! ### Line feeds at the end -/

theorem chompNewline_of_getLast? (h : cs.getLast? ≠ some '\n') : chompNewline cs = cs :=
  if_neg h

theorem eq_of_chompNewline (cs : List Char) :
    cs = chompNewline cs ∨ cs = chompNewline cs ++ ['\n'] := by
  unfold chompNewline
  split
  · rename_i h
    exact .inr (List.dropLast_append_getLast? '\n' h).symm
  · exact .inl rfl

theorem chompNewline_trim (cs : List Char) :
    chompNewline (trim isMargin cs) = trim isMargin cs := by
  refine chompNewline_of_getLast? fun h => ?_
  cases getLast?_trim h

end MetricQuery
