import Mathlib.Data.List.DropRight
import Mathlib.Data.List.TakeDrop
import Mathlib.Data.List.TakeWhile
import MetricQuery.Client.Url

/-!
# Addresses with a path appended

A path that is appended to an address without query, fragment and slashes at its end becomes the end
of the path of that address. All its other parts stay as they are.
-/

namespace MetricQuery
namespace Url

/-! ### Slashes at the end -/

theorem toList_withoutTrailingSlashes (s : String) :
    (withoutTrailingSlashes s).toList = s.toList.rdropWhile (· == '/') := String.toList_ofList

/-- Nothing but slashes is taken away, and no slash is left at the end. -/
theorem withoutTrailingSlashes_spec (s : String) :
    (∃ n, s.toList = (withoutTrailingSlashes s).toList ++ List.replicate n '/') ∧
      ¬ ['/'] <:+ (withoutTrailingSlashes s).toList := by
  rw [toList_withoutTrailingSlashes]
  constructor
  · let slashes := s.toList.reverse.takeWhile (· == '/')
    have hslashes : slashes = List.replicate slashes.length '/' :=
      List.eq_replicate_of_mem fun c hc =>
        beq_iff_eq.1 (List.mem_takeWhile_imp (p := (· == '/')) hc)
    refine ⟨slashes.length, ?_⟩
    calc s.toList
        = (slashes ++ s.toList.reverse.dropWhile (· == '/')).reverse := by
          rw [List.takeWhile_append_dropWhile, List.reverse_reverse]
      _ = s.toList.rdropWhile (· == '/') ++ slashes.reverse := List.reverse_append
      _ = s.toList.rdropWhile (· == '/') ++ List.replicate slashes.length '/' := by
          rw [hslashes, List.reverse_replicate, List.length_replicate]
  · rintro ⟨front, hfront⟩
    have hne : s.toList.rdropWhile (· == '/') ≠ [] := by simp [← hfront]
    have hlast := List.rdropWhile_last_not (· == '/') s.toList hne
    simp [← hfront] at hlast

/-! ### The parts of an address before its path -/

variable {cs tail : List Char}

theorem cut_of_notMem {mark : Char} (h : mark ∉ cs) : cut mark cs = (cs, none) := by
  have hall : ∀ c ∈ cs, (c != mark) = true := fun c hc =>
    bne_iff_ne.2 fun heq => h (heq ▸ hc)
  rw [cut, List.span_eq_takeWhile_dropWhile, List.takeWhile_eq_self_iff.2 hall,
    List.dropWhile_eq_nil_iff.2 hall]

/-- A character outside a class ends its run, wherever the run began. -/
theorem span_append {p : Char → Bool} {c : Char} (hc : p c = false) (cs tail : List Char) :
    (cs ++ c :: tail).span p = ((cs.span p).1, (cs.span p).2 ++ c :: tail) := by
  simp only [List.span_eq_takeWhile_dropWhile]
  induction cs with
  | nil => simp [hc]
  | cons d cs ih =>
    cases hd : p d with
    | true => simpa [hd] using ih
    | false => simp [hd]

theorem readScheme_append (cs tail : List Char) :
    readScheme (cs ++ '/' :: tail) = ((readScheme cs).1, (readScheme cs).2 ++ '/' :: tail) := by
  unfold readScheme
  rw [span_append (by decide)]
  rcases cs.span isSchemeChar with ⟨_ | ⟨c, scheme⟩, _ | ⟨d, rest⟩⟩
  case cons.cons =>
    by_cases hd : d = ':'
    · subst hd
      cases hc : c.isAlpha <;> simp [hc]
    · simp [hd]
  all_goals rfl

theorem readScheme_suffix (cs : List Char) : (readScheme cs).2 <:+ cs := by
  have hspan : (cs.span isSchemeChar).1 ++ (cs.span isSchemeChar).2 = cs := by
    rw [List.span_eq_takeWhile_dropWhile, List.takeWhile_append_dropWhile]
  unfold readScheme
  split
  · rename_i c scheme rest hcut
    rw [hcut] at hspan
    split
    · exact ⟨c :: scheme ++ [':'], by simpa using hspan⟩
    · exact List.suffix_refl cs
  · exact List.suffix_refl cs

theorem readAuthority_of_ne (h : ∀ rest, cs ≠ '/' :: '/' :: rest) :
    readAuthority cs = ([], cs) := by
  unfold readAuthority
  split
  · exact absurd rfl (h _)
  · rfl

/-- Without a slash at its end, a text takes no slash of the path for one before its server. -/
theorem readAuthority_append (hcs : ¬ ['/'] <:+ cs) (hpath : tail.head? ≠ some '/') :
    readAuthority (cs ++ '/' :: tail) =
      ((readAuthority cs).1, (readAuthority cs).2 ++ '/' :: tail) := by
  by_cases h : ∃ rest, cs = '/' :: '/' :: rest
  · obtain ⟨rest, rfl⟩ := h
    exact span_append (by decide) rest tail
  · have hne : ∀ rest, cs ++ '/' :: tail ≠ '/' :: '/' :: rest := by
      intro rest heq
      rcases cs with _ | ⟨c, _ | ⟨d, cs⟩⟩
      · rw [List.nil_append] at heq
        cases heq
        exact hpath rfl
      · cases heq
        exact hcs (List.suffix_refl _)
      · cases heq
        exact h ⟨cs, rfl⟩
    rw [readAuthority_of_ne hne, readAuthority_of_ne fun rest heq => h ⟨rest, heq⟩]

/-- **A path appended to an address is the end of its path.** The rest of the address stays. -/
theorem ofText_append {base path : String} (hquery : '?' ∉ base.toList)
    (hfragment : '#' ∉ base.toList) (hslash : ¬ ['/'] <:+ base.toList) {tail : List Char}
    (hpath : path.toList = '/' :: tail) (hhead : tail.head? ≠ some '/')
    (hplain : '?' ∉ path.toList ∧ '#' ∉ path.toList) :
    ofText (base ++ path) = { ofText base with path := (ofText base).path ++ path.toList } := by
  have hquery' : '?' ∉ base.toList ++ '/' :: tail := by
    rw [List.mem_append, not_or, ← hpath]
    exact ⟨hquery, hplain.1⟩
  have hfragment' : '#' ∉ base.toList ++ '/' :: tail := by
    rw [List.mem_append, not_or, ← hpath]
    exact ⟨hfragment, hplain.2⟩
  have hrest : ¬ ['/'] <:+ (readScheme base.toList).2 := fun h =>
    hslash (h.trans (readScheme_suffix base.toList))
  simp only [ofText, String.toList_append, hpath, cut_of_notMem hquery, cut_of_notMem hfragment,
    cut_of_notMem hquery', cut_of_notMem hfragment', readScheme_append,
    readAuthority_append hrest hhead]

end Url
end MetricQuery
