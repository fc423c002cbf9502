import BundleAdjustment.Problem.Collected
import BundleAdjustment.Proofs.Stateful
import Mathlib.Data.List.Basic

/-! # What operations on a problem do

Every operation as one equation: what it returns, and the problem and the records that it leaves. An operation that
fails leaves something too.
-/

namespace BundleAdjustment

namespace ParameterArray

variable {a : ParameterArray} {n : Nat} {f : Fault}

/-- The solver can work on the array in place. -/
def isPlain (a : ParameterArray) : Bool := a.isDouble && a.isContiguous

theorem length_eq_ok : a.length = .ok n ↔ a.shape.head? = some n := by
  unfold length
  cases a.shape.head? with
  | none => simp [throw, throwThe, MonadExceptOf.throw]
  | some m => simp [pure, Except.pure]

theorem length_eq_error : a.length = .error f ↔ a.shape = [] ∧ f = .wrongKind := by
  unfold length
  cases a.shape with
  | nil => simp [throw, throwThe, MonadExceptOf.throw, eq_comm]
  | cons m rest => simp [pure, Except.pure]

theorem exists_length (h : a.shape ≠ []) : ∃ n, a.length = .ok n := by
  simp only [length_eq_ok]
  exact Option.isSome_iff_exists.mp (by simpa using h)

end ParameterArray

namespace Problem

open Stateful

variable (p : Problem) (logs : List Log) (name : String) (a : ParameterArray)

def withName : Problem := { p with names := p.names ++ [(name, a)] }

theorem withName_ne : p.withName name a ≠ p := by
  intro h
  have hnames : p.names ++ [(name, a)] = p.names := congrArg Problem.names h
  simp at hnames

variable {p name} in
theorem lookup_withName (h : p.names.lookup name = none) (name' : String) :
    (p.withName name a).names.lookup name' = if name' = name then some a else p.names.lookup name' := by
  rw [withName, List.lookup_append]
  split_ifs with hname
  · simp [hname, h]
  · simp [List.lookup_cons, beq_false_of_ne hname]

def withBlock (manifold : Option Manifold) (length : Nat) : Problem :=
  { p.withName name a with
    registry :=
      let entered := p.registry.enter a length
      manifold.elim entered (entered.setManifold a.key) }

theorem outcome_changeRegistry (f : Registry → Registry) :
    outcome (changeRegistry f) (p, logs) = (.ok (), { p with registry := f p.registry }, logs) := rfl

/-- The name is given before the array is asked for its length, and stays when the array has none. -/
theorem outcome_addBlock (manifold : Option Manifold) :
    outcome (addBlock name a manifold) (p, logs) =
      if (p.names.lookup name).isSome then (.error (.nameTaken name), p, logs)
      else if !a.isPlain then (.error (.notContiguous name), p, logs)
      else match a.length with
        | .error f => (.error f, p.withName name a, logs)
        | .ok n => (.ok (), p.withBlock name a manifold n, logs ++ [additionLog name n]) := by
  simp only [addBlock, ParameterArray.isPlain, outcome_bind, outcome_get]
  by_cases hname : (p.names.lookup name).isSome
  · simp only [hname, if_true, outcome_bind, outcome_throw]
  by_cases hplain : (a.isDouble && a.isContiguous)
  · simp only [hname, hplain, if_true, Bool.not_true, Bool.false_eq_true, if_false, outcome_bind, outcome_set,
      outcome_lift]
    cases a.length with
    | error f => rfl
    | ok n =>
      simp only [outcome_changeRegistry]
      cases manifold with
      | none => exact outcome_record ..
      | some m =>
        simp only [outcome_bind, outcome_changeRegistry]
        exact outcome_record ..
  · simp only [hname, hplain, Bool.false_eq_true, if_false, outcome_bind, outcome_throw]
    simp

/-- The length is checked before the name. -/
theorem outcome_addQuaternion :
    outcome (addQuaternion name a) (p, logs) =
      match a.length with
      | .error f => (.error f, p, logs)
      | .ok n => if n = 4 then outcome (addBlock name a (some .quaternion)) (p, logs)
        else (.error (.quaternionLength n), p, logs) := by
  simp only [addQuaternion, outcome_bind, outcome_lift]
  cases a.length with
  | error f => rfl
  | ok n => by_cases hn : n = 4 <;> simp [hn, outcome_throw]

theorem outcome_addUnitVector :
    outcome (addUnitVector name a) (p, logs) =
      match a.length with
      | .error f => (.error f, p, logs)
      | .ok n => outcome (addBlock name a (some (.sphere n))) (p, logs) := by
  simp only [addUnitVector, outcome_bind, outcome_lift]
  cases a.length <;> rfl

theorem outcome_addResidualBlock (cost : Cost Float) (arrays : List ParameterArray) (loss : Option Loss) :
    outcome (addResidualBlock cost arrays loss) (p, logs) =
      match p.registry.addResidualBlock ⟨cost, loss.or p.loss, arrays⟩ with
      | .error f => (.error f, p, logs)
      | .ok r => (.ok (), { p with registry := r }, logs) := by
  simp only [addResidualBlock, outcome_bind, outcome_get, outcome_lift]
  cases p.registry.addResidualBlock ⟨cost, loss.or p.loss, arrays⟩ <;> rfl

theorem outcome_setConstant (constant : Bool) :
    outcome (setConstant name constant) (p, logs) =
      match p.names.lookup name with
      | none => (.error (.unknownName name), p, logs)
      | some a => (.ok (), { p with registry := p.registry.setConstant a.key constant }, logs) := by
  simp only [setConstant, array, outcome_bind, outcome_get, outcome_lift]
  cases p.names.lookup name <;> rfl

theorem outcome_addCollection_nil : outcome (addCollection ⟨[]⟩) (p, logs) = (.ok (), p, logs) := rfl

theorem outcome_addCollection_cons (e : CostEntry Float ParameterArray) (es : List (CostEntry Float ParameterArray)) :
    outcome (addCollection ⟨e :: es⟩) (p, logs) =
      match outcome (addResidualBlock e.cost e.parameters none) (p, logs) with
      | (.ok _, s) => outcome (addCollection ⟨es⟩) s
      | (.error f, s) => (.error f, s) := by
  simp only [addCollection, List.forM_eq_forM, List.forM_cons, outcome_bind]
  rcases outcome (addResidualBlock e.cost e.parameters none) (p, logs) with ⟨_ | _, _⟩ <;> rfl

end Problem

end BundleAdjustment
