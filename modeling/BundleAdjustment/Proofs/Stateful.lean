import BundleAdjustment.Log

/-! # Stateful computations

What a computation over a state returns, and the state and the records that it leaves, whether it fails or not.
-/

namespace BundleAdjustment.Stateful

variable {σ α β : Type}

/-- What a computation returns, with the state and the records that it leaves. -/
def outcome (x : Stateful σ α) (s : σ × List Log) : Except Fault α × σ × List Log :=
  let ((result, state), records) := ((ExceptT.run x).run s.1).run s.2
  (result, state, records)

variable (s : σ × List Log)

theorem outcome_throw (f : Fault) : outcome (throw f : Stateful σ α) s = (.error f, s) := rfl

/-- A computation goes on from what the one before it left, and stops there if that one failed. -/
theorem outcome_bind (x : Stateful σ α) (f : α → Stateful σ β) :
    outcome (x >>= f) s =
      match outcome x s with
      | (.ok a, s') => outcome (f a) s'
      | (.error e, s') => (.error e, s') := by
  simp only [outcome, ExceptT.run_bind, StateT.run_bind]
  rcases ((ExceptT.run x).run s.1).run s.2 with ⟨⟨_ | _, _⟩, _⟩ <;> rfl

theorem outcome_get : outcome (get : Stateful σ σ) s = (.ok s.1, s) := rfl

theorem outcome_set (t : σ) : outcome (set t : Stateful σ PUnit) s = (.ok ⟨⟩, t, s.2) := rfl

theorem outcome_lift (x : Except Fault α) : outcome (lift x) s = (x, s) := by cases x <;> rfl

/-- A computation without a state changes none. -/
theorem outcome_logged (x : Logged α) : outcome (logged x : Stateful σ α) s =
    (((ExceptT.run x).run s.2).1, s.1, ((ExceptT.run x).run s.2).2) := rfl

theorem outcome_record (l : Log) : outcome (record l : Stateful σ Unit) s = (.ok (), s.1, s.2 ++ [l]) := rfl

end BundleAdjustment.Stateful
