import MetricQuery.Duration.Basic

/-!
# Reading compound durations

A compound duration is a sequence of pieces, each a run of ASCII digits and a suffix, with no unit
twice. The reader reports the fault of the leftmost piece that has one.
-/

namespace MetricQuery

/-- Why a text is not a compound duration. -/
inductive DurationFault where
  | malformed
  | repeated (unit : TimeUnit)
  | overlong (digits : Nat)
deriving DecidableEq

theorem TimeUnit.length_lt_of_read? {cs rest : List Char} {u : TimeUnit}
    (h : TimeUnit.read? cs = some (u, rest)) : rest.length < cs.length := by
  unfold TimeUnit.read? at h
  split at h <;> grind

namespace Duration

/-- The digits and the unit of the piece at the front of a text, and what follows. -/
def piece? (cs : List Char) : Option (List Nat × TimeUnit × List Char) :=
  match Digit.span Digit.ascii? cs with
  | ([], _) => none
  | (values, rest) => (TimeUnit.read? rest).map (values, ·)

theorem length_lt_of_piece? {cs rest : List Char} {values : List Nat} {u : TimeUnit}
    (h : piece? cs = some (values, u, rest)) : rest.length < cs.length := by
  have hspan := Digit.length_span_le Digit.ascii? cs
  unfold piece? at h
  split at h
  · cases h
  · rename_i vs tail _ heq
    obtain ⟨⟨v, r⟩, hr, he⟩ := Option.map_eq_some_iff.1 h
    cases he
    rw [heq] at hspan
    exact Nat.lt_of_lt_of_le (TimeUnit.length_lt_of_read? hr) hspan

/-- The pieces of a text in their order, where the units in `seen` came before. -/
def readPieces (seen : List TimeUnit) (cs : List Char) : Except DurationFault (List Duration) :=
  if cs.isEmpty then .ok []
  else match _h : piece? cs with
    | none => .error .malformed
    | some (values, unit, rest) =>
      if unit ∈ seen then .error (.repeated unit)
      else if Digit.limit < values.length then .error (.overlong values.length)
      else (readPieces (unit :: seen) rest).map (⟨Digit.number values, unit⟩ :: ·)
termination_by cs.length
decreasing_by exact length_lt_of_piece? ‹_›

/-- The durations that a text writes, in canonical order. -/
def read (cs : List Char) : Except DurationFault (List Duration) :=
  if cs.isEmpty then .error .malformed else (readPieces [] cs).map sort

end Duration
end MetricQuery
