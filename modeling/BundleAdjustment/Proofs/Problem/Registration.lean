import BundleAdjustment.Proofs.Problem.Operations
import Mathlib.Data.List.Basic

/-! # Registrations that fail

A registration that fails leaves the problem as it was, with one exception: a single number under a free name. The name
is then taken by an array that the solver has not entered.
-/

namespace BundleAdjustment

open Problem Stateful

/-- A call that names an array, or holds a named array constant or lets it vary. -/
inductive Registration where
  | block (name : String) (a : ParameterArray) (manifold : Option Manifold)
  | quaternion (name : String) (a : ParameterArray)
  | unitVector (name : String) (a : ParameterArray)
  | switch (name : String) (constant : Bool)

namespace Registration

def perform : Registration → Stateful Problem Unit
  | block name a manifold => addBlock name a manifold
  | quaternion name a => addQuaternion name a
  | unitVector name a => addUnitVector name a
  | switch name constant => setConstant name constant

def name : Registration → String
  | block name _ _ | quaternion name _ | unitVector name _ | switch name _ => name

/-- The call gives a free name to a single number. -/
def NamesNumber (p : Problem) : Registration → Prop
  | block name a _ => p.names.lookup name = none ∧ a.isPlain = true ∧ a.shape = []
  | _ => False

def IsWellFormed : Registration → Prop
  | block _ a _ | unitVector _ a => a.isPlain = true ∧ a.shape ≠ []
  | quaternion _ a => a.isPlain = true ∧ a.shape.head? = some 4
  | switch .. => False

variable {r : Registration} {p q : Problem} {logs logs' : List Log} {name : String} {a : ParameterArray}
  {manifold : Option Manifold} {f : Fault}

theorem addBlock_failed (h : outcome (addBlock name a manifold) (p, logs) = (.error f, q, logs')) :
    q = p ∨ NamesNumber p (.block name a manifold) ∧ q = p.withName name a := by
  rw [outcome_addBlock] at h
  split_ifs at h with hname hplain
  · simp only [Prod.mk.injEq] at h
    exact .inl h.2.1.symm
  · simp only [Prod.mk.injEq] at h
    exact .inl h.2.1.symm
  cases hlength : a.length with
  | error e =>
    simp only [hlength, Prod.mk.injEq] at h
    exact .inr ⟨⟨Option.not_isSome_iff_eq_none.mp hname, by simpa using hplain,
      (ParameterArray.length_eq_error.mp hlength).1⟩, h.2.1.symm⟩
  | ok n => simp [hlength] at h

/-- An array that has a length is refused before anything changes. -/
theorem addBlock_failed_of_length {n : Nat} (hlength : a.length = .ok n)
    (h : outcome (addBlock name a manifold) (p, logs) = (.error f, q, logs')) : q = p := by
  rcases addBlock_failed h with hq | ⟨⟨-, -, hshape⟩, -⟩
  · exact hq
  · simp [ParameterArray.length_eq_ok, hshape] at hlength

theorem addBlock_number (h : NamesNumber p (.block name a manifold)) :
    outcome (addBlock name a manifold) (p, logs) = (.error .wrongKind, p.withName name a, logs) := by
  obtain ⟨hfree, hplain, hshape⟩ := h
  have hlength : a.length = .error .wrongKind := ParameterArray.length_eq_error.mpr ⟨hshape, rfl⟩
  simp only [outcome_addBlock, hfree, hplain, hlength, Option.isSome_none, Bool.not_true, Bool.false_eq_true, if_false]

/-- What a registration that fails can leave. -/
theorem perform_failed (h : outcome r.perform (p, logs) = (.error f, q, logs')) :
    q = p ∨ ∃ name a manifold, r = .block name a manifold ∧ r.NamesNumber p ∧ q = p.withName name a := by
  cases r with
  | block name a manifold =>
    exact (addBlock_failed h).imp_right fun hq => ⟨name, a, manifold, rfl, hq⟩
  | quaternion name a =>
    left
    rw [perform, outcome_addQuaternion] at h
    cases hlength : a.length with
    | error e => simp_all
    | ok n =>
      rw [hlength] at h
      by_cases hn : n = 4
      · exact addBlock_failed_of_length hlength (by simpa only [hn, if_true] using h)
      · simp_all
  | unitVector name a =>
    left
    rw [perform, outcome_addUnitVector] at h
    cases hlength : a.length with
    | error e => simp_all
    | ok n => exact addBlock_failed_of_length hlength (by simpa only [hlength] using h)
  | switch name constant =>
    left
    rw [perform, outcome_setConstant] at h
    cases hname : p.names.lookup name <;> simp_all

theorem addBlock_eq_ok {n : Nat} (hplain : a.isPlain = true) (hlength : a.length = .ok n) :
    (outcome (addBlock name a manifold) (p, logs)).1 = .ok () ↔ p.names.lookup name = none := by
  rw [outcome_addBlock, hplain, hlength]
  cases p.names.lookup name <;> simp

/-- A well-formed array can be registered under every free name. -/
theorem perform_eq_ok (h : r.IsWellFormed) :
    (outcome r.perform (p, logs)).1 = .ok () ↔ p.names.lookup r.name = none := by
  cases r with
  | block name a manifold =>
    obtain ⟨n, hn⟩ := ParameterArray.exists_length h.2
    exact addBlock_eq_ok h.1 hn
  | quaternion name a =>
    have hn : a.length = .ok 4 := ParameterArray.length_eq_ok.mpr h.2
    simp only [perform, outcome_addQuaternion, hn, if_true]
    exact addBlock_eq_ok h.1 hn
  | unitVector name a =>
    obtain ⟨n, hn⟩ := ParameterArray.exists_length h.2
    simp only [perform, outcome_addUnitVector, hn]
    exact addBlock_eq_ok h.1 hn
  | switch name constant => exact h.elim

/-- A registration that fails leaves the problem as it was, unless it gives a free name to a single number. It never
touches the registry. Only after a single number is the name lost to well-formed arrays. -/
theorem failed_leaves_problem (h : outcome r.perform (p, logs) = (.error f, q, logs')) :
    (q = p ↔ ¬ r.NamesNumber p) ∧ q.registry = p.registry ∧
      (p.names.lookup r.name = none → ∀ next : Registration, next.name = r.name → next.IsWellFormed →
        ((outcome next.perform (q, logs')).1 = .ok () ↔ ¬ r.NamesNumber p)) := by
  by_cases hnumber : r.NamesNumber p
  · cases r with
    | block name a manifold =>
      simp only [perform, addBlock_number hnumber, Prod.mk.injEq] at h
      obtain ⟨-, rfl, rfl⟩ := h
      refine ⟨iff_of_false (withName_ne p name a) (not_not.mpr hnumber), rfl, fun hfree next hname hnext => ?_⟩
      rw [perform_eq_ok hnext, hname]
      exact iff_of_false (by simp [Registration.name, lookup_withName a hnumber.1]) (not_not.mpr hnumber)
    | quaternion => exact hnumber.elim
    | unitVector => exact hnumber.elim
    | switch => exact hnumber.elim
  · obtain rfl : q = p := (perform_failed h).resolve_right fun ⟨_, _, _, _, hnumber', _⟩ => hnumber hnumber'
    refine ⟨iff_of_true rfl hnumber, rfl, fun hfree next hname hnext => ?_⟩
    rw [perform_eq_ok hnext, hname]
    exact iff_of_true hfree hnumber

end Registration

def Problem.blank : Problem := ⟨{}, none, [], .empty⟩

def ParameterArray.triple : ParameterArray := ⟨"triple", [3], true, true⟩

def ParameterArray.number : ParameterArray := ⟨"number", [], true, true⟩

namespace Registration

/-- Three numbers are no rotation; as a block they can be registered under the same name afterwards. -/
theorem failed_leaves_problem_triple :
    outcome (quaternion "a" .triple).perform (.blank, []) = (.error (.quaternionLength 3), .blank, []) ∧
      (outcome (block "a" .triple none).perform (.blank, [])).1 = .ok () := by
  have h : outcome (quaternion "a" .triple).perform (.blank, []) = (.error (.quaternionLength 3), .blank, []) := rfl
  have hagain := (failed_leaves_problem h).2.2 rfl (.block "a" .triple none) rfl ⟨rfl, by decide⟩
  exact ⟨h, hagain.mpr id⟩

/-- A new problem refuses a single number, but keeps its name and then refuses three numbers under it. -/
theorem number_keeps_name :
    Problem.new {} = .ok .blank ∧
      outcome (block "a" .number none).perform (.blank, []) = (.error .wrongKind, Problem.blank.withName "a" .number, []) ∧
      (Problem.blank.withName "a" .number).array "a" = .ok .number ∧
      Problem.blank.array "a" = .error (.unknownName "a") ∧
      (outcome (block "a" .triple none).perform (Problem.blank.withName "a" .number, [])).1 =
        .error (.nameTaken "a") :=
  ⟨rfl, rfl, rfl, rfl, rfl⟩

end Registration

end BundleAdjustment
