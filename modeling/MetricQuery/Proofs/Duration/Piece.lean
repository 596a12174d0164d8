import Mathlib.Data.List.Basic
import MetricQuery.Duration.Reader
import MetricQuery.Proofs.Text.Digit

/-!
# Pieces of compound durations

A piece is a run of ASCII digits and a unit. A text begins with at most one piece, because the
digits end at the suffix and of the suffixes `m` and `ms` the longer one counts.
-/

namespace MetricQuery

namespace TimeUnit

theorem toList_suffix (u : TimeUnit) : u.suffix.toList = match u with
    | years => ['y']
    | weeks => ['w']
    | days => ['d']
    | hours => ['h']
    | minutes => ['m']
    | seconds => ['s']
    | millis => ['m', 's'] := by
  cases u <;> rfl

theorem isAlphanum_of_mem_suffix (u : TimeUnit) : ∀ c ∈ u.suffix.toList, c.isAlphanum := by
  cases u <;> exact List.all_eq_true.1 rfl

/-- A unit is read before every text that does not turn its suffix into the longer one. -/
theorem read?_append {u : TimeUnit} {rest : List Char}
    (h : u = .minutes → rest.head? ≠ some 's') :
    read? (u.suffix.toList ++ rest) = some (u, rest) := by
  rw [toList_suffix]
  cases u with
  | minutes =>
    -- The only suffix that begins another one: an `s` after it would make it `ms`.
    cases rest with
    | nil => rfl
    | cons c rest =>
      have hc : c ≠ 's' := fun hc => h rfl (hc ▸ rfl)
      unfold read?
      split <;> simp_all
  | _ => rfl

theorem read?_eq_some_iff {cs rest : List Char} {u : TimeUnit} :
    read? cs = some (u, rest) ↔
      cs = u.suffix.toList ++ rest ∧ (u = .minutes → rest.head? ≠ some 's') := by
  constructor
  · intro h
    unfold read? at h
    split at h
    case h_3 hms =>
      obtain ⟨rfl, rfl⟩ := Prod.mk.inj (Option.some.inj h)
      refine ⟨rfl, fun _ hhead => ?_⟩
      obtain ⟨tail, rfl⟩ := List.head?_eq_some_iff.1 hhead
      exact hms tail rfl
    case h_8 => cases h
    all_goals
      obtain ⟨rfl, rfl⟩ := Prod.mk.inj (Option.some.inj h)
      exact ⟨rfl, nofun⟩
  · rintro ⟨rfl, h⟩
    exact read?_append h

theorem read?_eq_none_iff {cs : List Char} :
    read? cs = none ↔ ∀ u : TimeUnit, ¬ u.suffix.toList <+: cs := by
  constructor
  · rintro h u ⟨rest, rfl⟩
    -- A text with the suffix `m` begins with a unit even if that unit is not the minute.
    by_cases hu : u = .minutes → rest.head? ≠ some 's'
    · rw [read?_append hu] at h
      cases h
    · simp only [not_forall, not_not] at hu
      obtain ⟨rfl, hhead⟩ := hu
      obtain ⟨tail, rfl⟩ := List.head?_eq_some_iff.1 hhead
      cases h
  · intro h
    cases hread : read? cs with
    | none => rfl
    | some found =>
      obtain ⟨u, rest⟩ := found
      exact absurd ⟨rest, (read?_eq_some_iff.1 hread).1.symm⟩ (h u)

end TimeUnit

/-- Digits as they are written, and a unit. -/
structure Piece where
  digits : List Char
  unit : TimeUnit
deriving DecidableEq

namespace Piece

def text (p : Piece) : List Char := p.digits ++ p.unit.suffix.toList

/-- The duration that a piece writes. -/
def duration (p : Piece) : Duration := ⟨Nat.ofDigitChars 10 p.digits 0, p.unit⟩

def WellFormed (p : Piece) : Prop := p.digits ≠ [] ∧ ∀ c ∈ p.digits, c.isDigit

/-- A piece whose digits, leading zeros included, are not too many for an integer. -/
def Sound (p : Piece) : Prop := p.WellFormed ∧ p.digits.length ≤ 4300

/-- A text begins with a piece before `rest`. An `m` before an `s` is no minute. -/
structure Leads (p : Piece) (cs rest : List Char) : Prop where
  wellFormed : p.WellFormed
  eq_append : cs = p.text ++ rest
  munch : p.unit = .minutes → rest.head? ≠ some 's'

theorem stops_suffix (u : TimeUnit) (rest : List Char) :
    Scan.Stops Char.isDigit (u.suffix.toList ++ rest) := by
  rw [TimeUnit.toList_suffix]
  cases u <;> rintro c ⟨⟩ <;> rfl

theorem WellFormed.run_append {p : Piece} (h : p.WellFormed) (rest : List Char) :
    Scan.run Char.isDigit (p.text ++ rest) = (p.digits, p.unit.suffix.toList ++ rest) := by
  rw [text, List.append_assoc]
  exact Scan.run_append h.2 (stops_suffix p.unit rest)

/-- The piece at the front of a text, by the longest run of digits and the unit after it. -/
theorem leads_iff {p : Piece} {cs rest : List Char} :
    p.Leads cs rest ↔ p.digits ≠ [] ∧ (Scan.run Char.isDigit cs).1 = p.digits ∧
      TimeUnit.read? (Scan.run Char.isDigit cs).2 = some (p.unit, rest) := by
  constructor
  · rintro ⟨hform, rfl, hmunch⟩
    rw [hform.run_append]
    exact ⟨hform.1, rfl, TimeUnit.read?_append hmunch⟩
  · rintro ⟨hne, hdigits, hread⟩
    obtain ⟨htail, hmunch⟩ := TimeUnit.read?_eq_some_iff.1 hread
    refine ⟨⟨hne, fun c hc => ?_⟩, ?_, hmunch⟩
    · exact Scan.of_mem_run (hdigits ▸ hc)
    · rw [text, List.append_assoc, ← htail, ← hdigits, Scan.run_fst_append_snd]

/-- At most one piece leads a text. -/
theorem Leads.unique {p q : Piece} {cs rest tail : List Char} (hp : p.Leads cs rest)
    (hq : q.Leads cs tail) : p = q ∧ rest = tail := by
  obtain ⟨-, hp, hpread⟩ := leads_iff.1 hp
  obtain ⟨-, hq, hqread⟩ := leads_iff.1 hq
  obtain ⟨hunit, hrest⟩ := Prod.mk.inj (Option.some.inj (hpread.symm.trans hqread))
  refine ⟨?_, hrest⟩
  obtain ⟨digits, unit⟩ := p
  obtain ⟨digits', unit'⟩ := q
  exact congrArg₂ Piece.mk (hp.symm.trans hq) hunit

theorem Leads.length_lt {p : Piece} {cs rest : List Char} (h : p.Leads cs rest) :
    rest.length < cs.length := by
  have := List.length_pos_iff.2 h.wellFormed.1
  rw [h.eq_append, text, List.length_append, List.length_append]
  omega

theorem Leads.ne_nil {p : Piece} {cs rest : List Char} (h : p.Leads cs rest) : cs ≠ [] :=
  List.ne_nil_of_length_pos (Nat.zero_lt_of_lt h.length_lt)

/-- A text does not begin with a piece: the longest run of digits at its front is empty, or no
suffix stands after it. -/
def Missing (cs : List Char) : Prop :=
  ∃ digits tail, cs = digits ++ tail ∧ (∀ c ∈ digits, c.isDigit) ∧ Scan.Stops Char.isDigit tail ∧
    (digits = [] ∨ ∀ u : TimeUnit, ¬ u.suffix.toList <+: tail)

theorem missing_iff {cs : List Char} :
    Missing cs ↔ (Scan.run Char.isDigit cs).1 = [] ∨
      TimeUnit.read? (Scan.run Char.isDigit cs).2 = none := by
  rw [TimeUnit.read?_eq_none_iff]
  constructor
  · rintro ⟨digits, tail, rfl, hdigits, hstops, h⟩
    rwa [Scan.run_append hdigits hstops]
  · intro h
    exact ⟨_, _, (Scan.run_fst_append_snd Char.isDigit cs).symm, fun _ => Scan.of_mem_run,
      Scan.stops_run Char.isDigit cs, h⟩

end Piece

namespace Duration

theorem piece?_eq (cs : List Char) :
    piece? cs = if (Scan.run Char.isDigit cs).1 = [] then none else
      (TimeUnit.read? (Scan.run Char.isDigit cs).2).map
        ((Scan.run Char.isDigit cs).1.map fun c => c.toNat - '0'.toNat, ·) := by
  rw [piece?, Digit.span_ascii?]
  cases (Scan.run Char.isDigit cs).1 <;> rfl

theorem piece?_of_leads {p : Piece} {cs rest : List Char} (h : p.Leads cs rest) :
    piece? cs = some (p.digits.map (fun c => c.toNat - '0'.toNat), p.unit, rest) := by
  obtain ⟨hne, hdigits, hread⟩ := Piece.leads_iff.1 h
  rw [piece?_eq, hdigits, if_neg hne, hread]
  rfl

theorem piece?_of_missing {cs : List Char} (h : Piece.Missing cs) : piece? cs = none := by
  rw [piece?_eq]
  rcases Piece.missing_iff.1 h with h | h
  · rw [if_pos h]
  · rw [h, Option.map_none, ite_self]

end Duration

/-- A text either begins with a piece or does not. -/
theorem Piece.leads_or_missing (cs : List Char) :
    (∃ p rest, Piece.Leads p cs rest) ∨ Missing cs := by
  rw [missing_iff]
  by_cases hdigits : (Scan.run Char.isDigit cs).1 = []
  · exact .inr (.inl hdigits)
  · cases hread : TimeUnit.read? (Scan.run Char.isDigit cs).2 with
    | none => exact .inr (.inr rfl)
    | some found => exact .inl ⟨⟨_, found.1⟩, found.2, leads_iff.2 ⟨hdigits, rfl, hread⟩⟩

end MetricQuery
