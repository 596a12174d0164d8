import MetricQuery.Query.Builder

/-!
# Runs of calls

What work on a builder does, and what a sequence of calls does. A sequence can be cut in two, and
calls that leave the builder as it was can be deleted from it without an effect on the others.
-/

namespace MetricQuery

namespace Building

variable {α β γ δ : Type}

@[simp] theorem on_pure (a : α) (b : β) : (pure a : Building β α).on b = (.ok a, b) := rfl

@[simp] theorem on_get (b : β) : (get : Building β β).on b = (.ok b, b) := rfl

@[simp] theorem on_set (b after : β) : (set after : Building β PUnit).on b = (.ok ⟨⟩, after) := rfl

@[simp] theorem on_check (x : Except Error α) (b : β) :
    (check x).on b = (x.mapError .error, b) := by
  cases x <;> rfl

@[simp] theorem on_sound (x : Checked α) (b : β) :
    (sound x).on b = (x.toExcept.mapError .problems, b) := by
  cases x <;> rfl

@[simp] theorem on_ofExcept (x : Except Refusal α) (b : β) :
    (MonadExcept.ofExcept x : Building β α).on b = (x, b) := by
  cases x <;> rfl

/-- A failure ends the work and leaves the builder as it is then. -/
theorem on_bind (work : Building β α) (next : α → Building β γ) (b : β) :
    (work >>= next).on b = match work.on b with
      | (.ok a, after) => (next a).on after
      | (.error e, after) => (.error e, after) := by
  unfold on ExceptT.run StateT.run
  simp only [bind, ExceptT.bind, ExceptT.mk, StateT.bind, ExceptT.bindCont]
  cases work b with
  | mk result after => cases result <;> rfl

theorem on_map (f : α → γ) (work : Building β α) (b : β) :
    (f <$> work).on b = ((work.on b).1.map f, (work.on b).2) := by
  rw [map_eq_pure_bind, on_bind]
  rcases work.on b with ⟨result, after⟩
  cases result <;> rfl

/-- Work on a part leaves the rest of the builder alone. -/
theorem on_part (get' : β → δ) (put : β → δ → β) (work : Building δ α) (b : β) :
    (part get' put work).on b = ((work.on (get' b)).1, put b (work.on (get' b)).2) := by
  simp [part, on_bind]

end Building

section Runs

variable {β γ : Type} {perform : γ → Building β Outcome}

namespace Performed

def succeeded (p : Performed β γ) : Bool := p.result.isOk

end Performed

/-- The builder after a sequence of calls. -/
def afterCalls (perform : γ → Building β Outcome) (b : β) (calls : List γ) : β :=
  calls.foldl (fun b call => ((perform call).on b).2) b

@[simp] theorem afterCalls_nil (b : β) : afterCalls perform b [] = b := rfl

@[simp] theorem afterCalls_cons (b : β) (call : γ) (calls : List γ) :
    afterCalls perform b (call :: calls) =
      afterCalls perform ((perform call).on b).2 calls := rfl

theorem afterCalls_append (b : β) (calls more : List γ) :
    afterCalls perform b (calls ++ more) =
      afterCalls perform (afterCalls perform b calls) more := List.foldl_append

@[simp] theorem runCalls_nil (b : β) : runCalls perform b [] = [] := rfl

@[simp] theorem runCalls_cons (b : β) (call : γ) (calls : List γ) :
    runCalls perform b (call :: calls) =
      ⟨call, ((perform call).on b).1, ((perform call).on b).2⟩ ::
        runCalls perform ((perform call).on b).2 calls := rfl

theorem runCalls_append (b : β) (calls more : List γ) :
    runCalls perform b (calls ++ more) =
      runCalls perform b calls ++ runCalls perform (afterCalls perform b calls) more := by
  induction calls generalizing b with
  | nil => rfl
  | cons call calls ih => rw [List.cons_append, runCalls_cons, ih, runCalls_cons]; rfl

theorem map_call_runCalls (b : β) (calls : List γ) :
    (runCalls perform b calls).map Performed.call = calls := by
  induction calls generalizing b with
  | nil => rfl
  | cons call calls ih => rw [runCalls_cons, List.map_cons, ih]

/-- Calls that leave the builder as it was can be deleted from a run: the others give the same
results, with the same builders after them. -/
theorem runCalls_filter {keep : Performed β γ → Bool}
    (hidle : ∀ b call, keep ⟨call, ((perform call).on b).1, ((perform call).on b).2⟩ = false →
      ((perform call).on b).2 = b) (b : β) (calls : List γ) :
    runCalls perform b (((runCalls perform b calls).filter keep).map Performed.call) =
      (runCalls perform b calls).filter keep := by
  induction calls generalizing b with
  | nil => rfl
  | cons call calls ih =>
    rw [runCalls_cons]
    cases hkeep : keep ⟨call, ((perform call).on b).1, ((perform call).on b).2⟩ with
    | false =>
      -- The deleted call hands the builder on as it got it, so the rest starts from the same one.
      rw [List.filter_cons_of_neg (by simp [hkeep]), hidle b call hkeep]
      exact ih b
    | true =>
      rw [List.filter_cons_of_pos hkeep, List.map_cons, runCalls_cons, ih]

/-- Calls that never change the builder can be deleted from a run. -/
theorem runCalls_filter_call {p : γ → Bool}
    (hidle : ∀ b call, p call = false → ((perform call).on b).2 = b) (b : β) (calls : List γ) :
    runCalls perform b (calls.filter p) = (runCalls perform b calls).filter (p ·.call) := by
  have hcalls : ((runCalls perform b calls).filter (p ·.call)).map Performed.call =
      calls.filter p := by
    rw [show (fun q : Performed β γ => p q.call) = p ∘ Performed.call from rfl, ← List.filter_map,
      map_call_runCalls]
  rw [← hcalls]
  exact runCalls_filter hidle b calls

/-- The builder after a run is the same without the calls that never change it. -/
theorem afterCalls_filter {p : γ → Bool}
    (hidle : ∀ b call, p call = false → ((perform call).on b).2 = b) (b : β) (calls : List γ) :
    afterCalls perform b (calls.filter p) = afterCalls perform b calls := by
  induction calls generalizing b with
  | nil => rfl
  | cons call calls ih =>
    cases hp : p call with
    | false => rw [List.filter_cons_of_neg (by simp [hp]), afterCalls_cons, hidle b call hp, ih]
    | true => rw [List.filter_cons_of_pos hp, afterCalls_cons, afterCalls_cons, ih]

end Runs
end MetricQuery
