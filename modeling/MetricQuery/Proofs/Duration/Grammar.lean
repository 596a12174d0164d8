import MetricQuery.Proofs.Duration.Piece
import MetricQuery.Proofs.Duration.Sort
import MetricQuery.Proofs.Outcome
import MetricQuery.Value.Number

/-!
# The grammar of compound durations

A text writes a duration exactly when it is a row of pieces with distinct units. Otherwise a row of
sound pieces leads to its first defect, and the reader reports that one.
-/

namespace MetricQuery
namespace Piece

/-- Pieces stand one after another at the front of a text, before `rest`. -/
inductive Row : List Piece → List Char → List Char → Prop
  | nil (cs : List Char) : Row [] cs cs
  | cons {p : Piece} {ps : List Piece} {cs mid rest : List Char} :
    p.Leads cs mid → Row ps mid rest → Row (p :: ps) cs rest

/-- Sound pieces of distinct units, none of which is among the units `seen`. -/
structure Fit (seen : List TimeUnit) (ps : List Piece) : Prop where
  sound : ∀ p ∈ ps, p.Sound
  distinct : (ps.map unit).Nodup
  fresh : ∀ p ∈ ps, p.unit ∉ seen

/-- A text is a non-empty concatenation of sound pieces with distinct units. -/
structure IsDecomposition (ps : List Piece) (cs : List Char) : Prop where
  nonempty : ps ≠ []
  sound : ∀ p ∈ ps, p.Sound
  distinct : (ps.map unit).Nodup
  flatMap_text : ps.flatMap text = cs

/-- What is wrong at the front of a text that stands after pieces of the units `seen`. That the
unit was seen before counts more than the number of digits. -/
inductive Defect (seen : List TimeUnit) (cs : List Char) : DurationFault → Prop
  | malformed : cs ≠ [] → Missing cs → Defect seen cs .malformed
  | repeated {p : Piece} {rest : List Char} : p.Leads cs rest → p.unit ∈ seen →
    Defect seen cs (.repeated p.unit)
  | overlong {p : Piece} {rest : List Char} : p.Leads cs rest → p.unit ∉ seen →
    4300 < p.digits.length → Defect seen cs (.overlong p.digits.length)

/-- The first defect of a text: it is empty, or sound pieces of distinct units stand before the
defect. -/
inductive FirstDefect : List Char → DurationFault → Prop
  | empty : FirstDefect [] .malformed
  | after {ps : List Piece} {cs rest : List Char} {fault : DurationFault} : Row ps cs rest →
    Fit [] ps → Defect (ps.map unit) rest fault → FirstDefect cs fault

/-! ### Rows -/

theorem Row.flatMap_append {ps : List Piece} {cs rest : List Char} (h : Row ps cs rest) :
    cs = ps.flatMap text ++ rest := by
  induction h with
  | nil cs => rfl
  | cons hlead _ ih => rw [hlead.eq_append, ih, List.flatMap_cons, List.append_assoc]

theorem WellFormed.head?_text_append {p : Piece} (h : p.WellFormed) (rest : List Char) :
    (p.text ++ rest).head? ≠ some 's' := by
  obtain ⟨c, tail, hdigits⟩ := List.exists_cons_of_ne_nil h.1
  have hc : c.isDigit = true := h.2 c (hdigits ▸ List.mem_cons_self)
  rw [text, hdigits]
  rintro ⟨⟩
  cases hc

/-- Well-formed pieces that make up a text stand in a row: no suffix runs into the next piece. -/
theorem row_flatMap {ps : List Piece} (h : ∀ p ∈ ps, p.WellFormed) :
    Row ps (ps.flatMap text) [] := by
  induction ps with
  | nil => exact .nil []
  | cons p ps ih =>
    have htail := fun q hq => h q (List.mem_cons_of_mem p hq)
    refine .cons ⟨h p List.mem_cons_self, List.flatMap_cons, fun _ => ?_⟩ (ih htail)
    cases ps with
    | nil => simp
    | cons q ps =>
      rw [List.flatMap_cons]
      exact (htail q List.mem_cons_self).head?_text_append _

theorem Row.unique {ps qs : List Piece} {cs : List Char} (hp : Row ps cs []) (hq : Row qs cs []) :
    ps = qs := by
  induction ps generalizing cs qs with
  | nil =>
    cases hp
    cases hq with
    | nil => rfl
    | cons hlead _ => exact absurd rfl hlead.ne_nil
  | cons p ps ih =>
    cases hp with
    | cons hlead hrow =>
      cases hq with
      | nil => exact absurd rfl hlead.ne_nil
      | cons hlead' hrow' =>
        obtain ⟨rfl, rfl⟩ := hlead.unique hlead'
        rw [ih hrow hrow']

theorem IsDecomposition.row {ps : List Piece} {cs : List Char} (h : IsDecomposition ps cs) :
    Row ps cs [] := h.flatMap_text ▸ row_flatMap fun p hp => (h.sound p hp).1

theorem IsDecomposition.unique {ps qs : List Piece} {cs : List Char} (hp : IsDecomposition ps cs)
    (hq : IsDecomposition qs cs) : ps = qs := hp.row.unique hq.row

theorem IsDecomposition.fit {ps : List Piece} {cs : List Char} (h : IsDecomposition ps cs) :
    Fit [] ps := ⟨h.sound, h.distinct, fun _ _ => List.not_mem_nil⟩

theorem Fit.nil (seen : List TimeUnit) : Fit seen [] := ⟨nofun, .nil, nofun⟩

theorem fit_cons_iff {seen : List TimeUnit} {p : Piece} {ps : List Piece} :
    Fit seen (p :: ps) ↔ p.Sound ∧ p.unit ∉ seen ∧ Fit (p.unit :: seen) ps := by
  constructor
  · rintro ⟨hsound, hdistinct, hfresh⟩
    obtain ⟨hp, hdistinct⟩ := List.nodup_cons.1 hdistinct
    refine ⟨hsound p List.mem_cons_self, hfresh p List.mem_cons_self,
      fun q hq => hsound q (List.mem_cons_of_mem p hq), hdistinct, fun q hq hmem => ?_⟩
    rcases List.mem_cons.1 hmem with heq | hmem
    · exact hp (heq ▸ List.mem_map_of_mem hq)
    · exact hfresh q (List.mem_cons_of_mem p hq) hmem
  · rintro ⟨hp, hnew, hsound, hdistinct, hfresh⟩
    refine ⟨List.forall_mem_cons.2 ⟨hp, hsound⟩, List.nodup_cons.2 ⟨fun hmem => ?_, hdistinct⟩,
      List.forall_mem_cons.2 ⟨hnew, fun q hq hmem => hfresh q hq (List.mem_cons_of_mem _ hmem)⟩⟩
    obtain ⟨q, hq, heq⟩ := List.mem_map.1 hmem
    exact hfresh q hq (heq ▸ List.mem_cons_self)

theorem Defect.ne_nil {seen : List TimeUnit} {cs : List Char} {fault : DurationFault}
    (h : Defect seen cs fault) : cs ≠ [] := by
  cases h with
  | malformed hne _ => exact hne
  | repeated hlead _ => exact hlead.ne_nil
  | overlong hlead _ _ => exact hlead.ne_nil

/-- A defect depends on which units were seen, not on their order. -/
theorem Defect.congr {seen seen' : List TimeUnit} {cs : List Char} {fault : DurationFault}
    (h : Defect seen cs fault) (hmem : ∀ u, u ∈ seen ↔ u ∈ seen') : Defect seen' cs fault := by
  cases h with
  | malformed hne hmissing => exact .malformed hne hmissing
  | repeated hlead hseen => exact .repeated hlead ((hmem _).1 hseen)
  | overlong hlead hnew hlong => exact .overlong hlead (fun h => hnew ((hmem _).2 h)) hlong

end Piece

namespace Duration
open Piece

/-! ### The reader on rows and at defects -/

theorem readPieces_nil (seen : List TimeUnit) : readPieces seen [] = .ok [] := by
  rw [readPieces]
  rfl

theorem readPieces_of_missing {seen : List TimeUnit} {cs : List Char} (hne : cs ≠ [])
    (h : Missing cs) : readPieces seen cs = .error .malformed := by
  rw [readPieces, if_neg (by simpa using hne)]
  split
  · rfl
  · rename_i heq
    rw [piece?_of_missing h] at heq
    cases heq

/-- The reader takes the piece that leads a text. -/
theorem readPieces_of_leads {seen : List TimeUnit} {p : Piece} {cs rest : List Char}
    (h : p.Leads cs rest) :
    readPieces seen cs =
      if p.unit ∈ seen then .error (.repeated p.unit)
      else if 4300 < p.digits.length then .error (.overlong p.digits.length)
      else (readPieces (p.unit :: seen) rest).map (p.duration :: ·) := by
  rw [readPieces, if_neg (by simpa using h.ne_nil)]
  split
  · rename_i heq
    rw [piece?_of_leads h] at heq
    cases heq
  · rename_i values unit tail heq
    rw [piece?_of_leads h] at heq
    obtain ⟨rfl, htail⟩ := Prod.mk.inj (Option.some.inj heq)
    obtain ⟨rfl, rfl⟩ := Prod.mk.inj htail
    rw [List.length_map, Digit.number_map_toNat]
    rfl

theorem readPieces_of_defect {seen : List TimeUnit} {cs : List Char} {fault : DurationFault}
    (h : Defect seen cs fault) : readPieces seen cs = .error fault := by
  cases h with
  | malformed hne hmissing => exact readPieces_of_missing hne hmissing
  | repeated hlead hseen => rw [readPieces_of_leads hlead, if_pos hseen]
  | overlong hlead hnew hlong => rw [readPieces_of_leads hlead, if_neg hnew, if_pos hlong]

theorem readPieces_of_row {ps : List Piece} {cs rest : List Char} (hrow : Row ps cs rest)
    {seen : List TimeUnit} (hfit : Fit seen ps) :
    readPieces seen cs =
      (readPieces ((ps.map Piece.unit).reverse ++ seen) rest).map (ps.map duration ++ ·) := by
  induction hrow generalizing seen with
  | nil cs =>
    show readPieces seen cs = (readPieces seen cs).map ([] ++ ·)
    cases readPieces seen cs <;> rfl
  | cons hlead _ ih =>
    obtain ⟨hsound, hnew, hfit⟩ := fit_cons_iff.1 hfit
    rw [readPieces_of_leads hlead, if_neg hnew, if_neg (Nat.not_lt.2 hsound.2), ih hfit]
    simp only [List.map_cons, List.reverse_cons, List.append_assoc, List.singleton_append]
    cases readPieces _ _ <;> rfl

/-- Every text is a row of sound pieces of new units up to its end or to a defect. -/
theorem exists_row (seen : List TimeUnit) (cs : List Char) :
    ∃ ps rest, Row ps cs rest ∧ Fit seen ps ∧
      (rest = [] ∨ ∃ fault, Defect ((ps.map Piece.unit).reverse ++ seen) rest fault) := by
  -- A piece takes at least one character, so the length of what remains carries the induction.
  induction hn : cs.length using Nat.strong_induction_on generalizing seen cs with
  | h n ih =>
    subst hn
    have stop (h : cs = [] ∨ ∃ fault, Defect seen cs fault) : ∃ ps rest, Row ps cs rest ∧
        Fit seen ps ∧
          (rest = [] ∨ ∃ fault, Defect ((ps.map Piece.unit).reverse ++ seen) rest fault) :=
      ⟨[], cs, .nil cs, .nil seen, h⟩
    by_cases hne : cs = []
    · exact stop (.inl hne)
    rcases leads_or_missing cs with ⟨p, rest, hlead⟩ | hmissing
    · by_cases hseen : p.unit ∈ seen
      · exact stop (.inr ⟨_, .repeated hlead hseen⟩)
      by_cases hlong : 4300 < p.digits.length
      · exact stop (.inr ⟨_, .overlong hlead hseen hlong⟩)
      obtain ⟨ps, tail, hrow, hfit, hend⟩ :=
        ih rest.length hlead.length_lt (p.unit :: seen) rest rfl
      refine ⟨p :: ps, tail, .cons hlead hrow, ?_, ?_⟩
      · exact fit_cons_iff.2 ⟨⟨hlead.wellFormed, Nat.not_lt.1 hlong⟩, hseen, hfit⟩
      · simpa only [List.map_cons, List.reverse_cons, List.append_assoc, List.singleton_append]
          using hend
    · exact stop (.inr ⟨_, .malformed hne hmissing⟩)

theorem read_of_isDecomposition {ps : List Piece} {cs : List Char} (h : IsDecomposition ps cs) :
    read cs = .ok (sort (ps.map Piece.duration)) := by
  have hne : cs ≠ [] := by
    obtain ⟨p, ps, rfl⟩ := List.exists_cons_of_ne_nil h.nonempty
    cases h.row with
    | cons hlead _ => exact hlead.ne_nil
  rw [read, if_neg (by simpa using hne), readPieces_of_row h.row h.fit, readPieces_nil]
  exact congrArg (fun ds => Except.ok (sort ds)) (List.append_nil _)

theorem read_of_firstDefect {cs : List Char} {fault : DurationFault} (h : FirstDefect cs fault) :
    read cs = .error fault := by
  cases h with
  | empty => rfl
  | @after ps _ rest _ hrow hfit hdefect =>
    have hne : cs ≠ [] := by
      cases hrow with
      | nil => exact hdefect.ne_nil
      | cons hlead _ => exact hlead.ne_nil
    have hdefect : Defect ((ps.map Piece.unit).reverse ++ []) rest fault :=
      hdefect.congr (by simp)
    rw [read, if_neg (by simpa using hne), readPieces_of_row hrow hfit,
      readPieces_of_defect hdefect]
    rfl

/-- Every text has a decomposition or a first defect. -/
theorem isDecomposition_or_firstDefect (cs : List Char) :
    (∃ ps, IsDecomposition ps cs) ∨ ∃ fault, FirstDefect cs fault := by
  obtain ⟨ps, rest, hrow, hfit, rfl | ⟨fault, hdefect⟩⟩ := exists_row [] cs
  · have htext := hrow.flatMap_append
    cases ps with
    | nil =>
      subst htext
      exact .inr ⟨_, .empty⟩
    | cons p ps =>
      exact .inl ⟨_, List.cons_ne_nil p ps, hfit.sound, hfit.distinct, by simpa using htext.symm⟩
  · exact .inr ⟨fault, .after hrow hfit (hdefect.congr (by simp))⟩

theorem read_eq_ok_iff {cs : List Char} {ds : List Duration} :
    read cs = .ok ds ↔ ∃ ps, IsDecomposition ps cs ∧ ds = sort (ps.map Piece.duration) := by
  constructor
  · intro h
    rcases isDecomposition_or_firstDefect cs with ⟨ps, hps⟩ | ⟨fault, hfault⟩
    · exact ⟨ps, hps, Except.ok.inj (h.symm.trans (read_of_isDecomposition hps))⟩
    · cases h.symm.trans (read_of_firstDefect hfault)
  · rintro ⟨ps, hps, rfl⟩
    exact read_of_isDecomposition hps

theorem read_eq_error_iff {cs : List Char} {fault : DurationFault} :
    read cs = .error fault ↔ FirstDefect cs fault := by
  constructor
  · intro h
    rcases isDecomposition_or_firstDefect cs with ⟨ps, hps⟩ | ⟨fault', hfault⟩
    · cases h.symm.trans (read_of_isDecomposition hps)
    · cases h.symm.trans (read_of_firstDefect hfault)
      exact hfault
  · exact read_of_firstDefect

end Duration

/-- How the first defect of a text is reported: by the class of the error and by its message. -/
def DurationFault.ReportedBy (t : String) (e : Error) : DurationFault → Prop
  | .malformed => e.kind = .timeDuration ∧ e.message = "invalid time duration: " ++ Display.text t
  | .repeated u => e.kind = .timeDuration ∧ e.message =
      "duplicate unit " ++ Display.text u.suffix ++ " in time duration: " ++ Display.text t
  | .overlong n => e.kind = .badValue ∧ e.message = Error.overlongText n

/-- **Durations are read by their grammar.** A text is accepted when it decomposes into sound pieces
of distinct units; the decomposition is unique, and the result is what the pieces write in canonical
order. Every other text is refused for its first defect. -/
theorem Value.durations_text (t : String) :
    ((∃ ds, (Value.text t).durations = .ok ds) ↔ ∃ ps, Piece.IsDecomposition ps t.toList) ∧
    (∀ ps, Piece.IsDecomposition ps t.toList →
      (∀ qs, Piece.IsDecomposition qs t.toList → qs = ps) ∧
      ∃ ds, (Value.text t).durations = .ok ds ∧ ds.Perm (ps.map Piece.duration) ∧
        ds.Pairwise (·.unit.rank < ·.unit.rank)) ∧
    (∀ fault, (Value.text t).durations = .error (.duration (.text t) fault) ↔
      Piece.FirstDefect t.toList fault) ∧
    ∀ e, (Value.text t).durations = .error e →
      ∃ fault, Piece.FirstDefect t.toList fault ∧ fault.ReportedBy t e := by
  have hread : (Value.text t).durations =
      (Duration.read t.toList).mapError (.duration (.text t)) := rfl
  refine ⟨?_, fun ps hps => ⟨fun qs hqs => hqs.unique hps, ?_⟩, fun fault => ?_, fun e he => ?_⟩
  · simp only [hread, mapError_eq_ok_iff, Duration.read_eq_ok_iff]
    exact ⟨fun ⟨_, ps, hps, _⟩ => ⟨ps, hps⟩, fun ⟨ps, hps⟩ => ⟨_, ps, hps, rfl⟩⟩
  · have hdistinct : ((ps.map Piece.duration).map Duration.unit).Nodup := by
      rw [List.map_map]
      exact hps.distinct
    refine ⟨Duration.sort (ps.map Piece.duration), ?_, Duration.sort_perm _,
      Duration.pairwise_sort_of_nodup hdistinct⟩
    rw [hread, Duration.read_of_isDecomposition hps]
    rfl
  · rw [hread, mapError_eq_error_iff, ← Duration.read_eq_error_iff]
    simp
  · obtain ⟨fault, hfault, rfl⟩ := mapError_eq_error_iff.1 he
    refine ⟨fault, Duration.read_eq_error_iff.1 hfault, ?_⟩
    cases fault <;> exact ⟨rfl, rfl⟩

end MetricQuery
