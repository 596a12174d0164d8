import MetricQuery.Schema.Problem

/-!
# Sound outcomes and problems

A composed check is sound exactly when each of its parts is, and it has exactly the problems of its
parts.
-/

namespace MetricQuery
namespace Checked

variable {α β : Type}

theorem seq_eq_sound_iff {f : Checked (α → β)} {x : Checked α} {b : β} :
    f <*> x = .sound b ↔ ∃ g a, f = .sound g ∧ x = .sound a ∧ g a = b := by
  change apply f x = _ ↔ _
  cases f <;> cases x <;> simp [apply]

theorem map_eq_sound_iff {f : α → β} {x : Checked α} {b : β} :
    f <$> x = .sound b ↔ ∃ a, x = .sound a ∧ f a = b := by
  change apply (sound f) x = _ ↔ _
  cases x <;> simp [apply]

theorem seqLeft_eq_sound_iff {x : Checked α} {y : Checked β} {a : α} :
    x <* y = .sound a ↔ x = .sound a ∧ ∃ b, y = .sound b := by
  change apply (apply (sound (Function.const β)) x) y = _ ↔ _
  cases x <;> cases y <;> simp [apply]

theorem under_eq_sound_iff {key : String} {x : Checked α} {a : α} :
    x.under key = .sound a ↔ x = .sound a := by
  cases x <;> simp [under]

@[simp] theorem map_sound (f : α → β) (a : α) : f <$> sound a = sound (f a) := rfl

@[simp] theorem seq_sound (f : Checked (α → β)) (a : α) :
    f <*> sound a = (fun g => g a) <$> f := by
  change apply f (sound a) = apply (sound _) f
  cases f <;> rfl

@[simp] theorem sound_seq (f : α → β) (x : Checked α) : sound f <*> x = f <$> x := rfl

theorem map_map {γ : Type} (f : α → β) (g : β → γ) (x : Checked α) :
    g <$> f <$> x = (fun a => g (f a)) <$> x := by
  change apply (sound g) (apply (sound f) x) = apply (sound fun a => g (f a)) x
  cases x <;> rfl

theorem problem_ne_sound {kind : ProblemKind} {a : α} : problem kind ≠ .sound a := nofun

theorem toExcept_eq_ok_iff {x : Checked α} {a : α} : x.toExcept = .ok a ↔ x = .sound a := by
  cases x <;> simp [toExcept]

/-! ### Problems -/

/-- The problems of an outcome. -/
def problems : Checked α → List Problem
  | sound _ => []
  | faulty ps => ps

@[simp] theorem problems_sound (a : α) : (sound a).problems = [] := rfl

@[simp] theorem problems_faulty (ps : List Problem) : (faulty ps : Checked α).problems = ps := rfl

@[simp] theorem problems_problem (kind : ProblemKind) :
    (problem kind : Checked α).problems = [⟨[], kind⟩] := rfl

@[simp] theorem problems_seq (f : Checked (α → β)) (x : Checked α) :
    (f <*> x).problems = f.problems ++ x.problems := by
  change (apply f x).problems = _
  cases f <;> cases x <;> simp [apply]

@[simp] theorem problems_map (f : α → β) (x : Checked α) : (f <$> x).problems = x.problems := by
  change (apply (sound f) x).problems = _
  cases x <;> rfl

@[simp] theorem problems_seqLeft (x : Checked α) (y : Checked β) :
    (x <* y).problems = x.problems ++ y.problems := by
  change (apply (apply (sound (Function.const β)) x) y).problems = _
  cases x <;> cases y <;> simp [apply]

@[simp] theorem problems_under (key : String) (x : Checked α) :
    (x.under key).problems = x.problems.map fun p => { p with path := key :: p.path } := by
  cases x <;> rfl

theorem mem_problems_under {key : String} {x : Checked α} {p : Problem} (h : p ∈ x.problems) :
    ⟨key :: p.path, p.kind⟩ ∈ (x.under key).problems := by
  rw [problems_under]
  exact List.mem_map_of_mem h

theorem exists_toExcept_eq_error {x : Checked α} (h : ¬ ∃ a, x = .sound a) :
    ∃ ps, x.toExcept = .error ps := by
  cases x with
  | sound a => exact absurd ⟨a, rfl⟩ h
  | faulty ps => exact ⟨_, rfl⟩

/-- An outcome with a problem is reported with it. -/
theorem toExcept_of_mem_problems {x : Checked α} {p : Problem} (h : p ∈ x.problems) :
    ∃ ps, x.toExcept = .error ps ∧ p ∈ ps := by
  cases x with
  | sound a => cases h
  | faulty ps => exact ⟨_, rfl, List.mem_mergeSort.2 h⟩

end Checked
end MetricQuery
