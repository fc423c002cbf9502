import BundleAdjustment.Proofs.Problem.Holdings
import BundleAdjustment.Proofs.Problem.Registration

/-! # Calls on a problem

Registrations, residual blocks and collections of them, the changes that accepted calls make, and runs of calls. A
collection is accepted up to the first of its entries that is refused.
-/

namespace BundleAdjustment

open Problem Stateful

/-- What an accepted call does. -/
inductive Change where
  | named (name : String) (a : ParameterArray)
  | residual (arrays : List ParameterArray)
  | switched (name : String) (constant : Bool)
  deriving DecidableEq

namespace Change

def arrays : Change → List ParameterArray
  | named _ a => [a]
  | residual arrays => arrays
  | switched .. => []

def isResidual : Change → Bool
  | residual _ => true
  | _ => false

end Change

abbrev History := List Change

namespace History

def entered (h : History) : List ParameterArray := h.flatMap Change.arrays

/-- The switch that a change makes through one of an array's names. -/
def switch? (h : History) (a : ParameterArray) : Change → Option Bool
  | .switched name constant => if .named name a ∈ h then some constant else none
  | _ => none

/-- The switches of an array through any of its names, in order. -/
def switches (h : History) (a : ParameterArray) : List Bool := h.filterMap (switch? h a)

/-- Whether the last switch of an array made it constant. -/
def holds (h : History) (a : ParameterArray) : Bool := (switches h a).getLastD false

variable {h : History} {c : Change} {a : ParameterArray}

theorem entered_append : entered (h ++ [c]) = entered h ++ c.arrays := by
  simp [entered]

/-- A change adds at most its own switch, unless it gives a name that was switched before. -/
theorem switches_append
    (hsame : ∀ name constant, .switched name constant ∈ h → (.named name a ∈ h ++ [c] ↔ Change.named name a ∈ h)) :
    switches (h ++ [c]) a = switches h a ++ (switch? (h ++ [c]) a c).toList := by
  have hbefore : h.filterMap (switch? (h ++ [c]) a) = switches h a := by
    refine List.filterMap_congr fun d hd => ?_
    cases d with
    | named name a' => rfl
    | residual arrays => rfl
    | switched name constant => simp only [switch?, hsame name constant hd]
  rw [switches, List.filterMap_append, hbefore]
  cases hc : switch? (h ++ [c]) a c <;> simp [hc]

theorem switches_residual (arrays : List ParameterArray) (a : ParameterArray) :
    switches (h ++ [.residual arrays]) a = switches h a := by
  rw [switches_append (by simp)]
  exact List.append_nil _

theorem holds_congr {h' : History} (hswitches : ∀ a, switches h' a = switches h a) : holds h' = holds h := by
  funext a
  rw [holds, hswitches, holds]

theorem holds_eq_true : holds h a = true ↔ (switches h a).getLast? = some true := by
  rw [holds, List.getLastD_eq_getLast?]
  cases (switches h a).getLast? <;> simp

end History

namespace Registration

def arrays : Registration → List ParameterArray
  | block _ a _ | quaternion _ a | unitVector _ a => [a]
  | switch .. => []

def change : Registration → Change
  | block name a _ | quaternion name a | unitVector name a => .named name a
  | switch name constant => .switched name constant

/-- The solver aborts on a sphere with fewer than two dimensions, and when an array is put on a manifold that it does
not fit. A name that is taken is refused before that. -/
def Aborts (p : Problem) : Registration → Prop
  | block name a (some m) => p.names.lookup name = none ∧ ¬ m.Suits a
  | unitVector _ a => ¬ (Manifold.sphere a.size).Suits a
  | _ => False

end Registration

inductive Call where
  | registration (r : Registration)
  | residual (cost : Cost Float) (arrays : List ParameterArray) (loss : Option Loss)
  | collection (c : CostCollection Float ParameterArray)

/-- A change, if the computation that makes it does not fail. -/
def acceptedBy (x : Stateful Problem Unit) (c : Change) (s : Problem × List Log) : History :=
  match outcome x s with
  | (.ok _, _) => [c]
  | (.error _, _) => []

/-- The entries of a collection before the first that is refused. -/
def acceptedEntries : List (CostEntry Float ParameterArray) → Problem × List Log → History
  | [], _ => []
  | e :: es, s =>
    match outcome (addResidualBlock e.cost e.parameters none) s with
    | (.ok _, s') => .residual e.parameters :: acceptedEntries es s'
    | (.error _, _) => []

namespace Call

def perform : Call → Stateful Problem Unit
  | registration r => r.perform
  | residual cost arrays loss => addResidualBlock cost arrays loss
  | collection c => addCollection c

def arrays : Call → List ParameterArray
  | registration r => r.arrays
  | residual _ arrays _ => arrays
  | collection c => c.entries.flatMap (·.parameters)

/-- The solver also aborts on an array that is twice in a residual block. What follows does not depend on that. -/
def Aborts (p : Problem) : Call → Prop
  | registration r => r.Aborts p
  | _ => False

def after (c : Call) (s : Problem × List Log) : Problem × List Log := (outcome c.perform s).2

def accepted : Call → Problem × List Log → History
  | registration r => acceptedBy r.perform r.change
  | residual cost arrays loss => acceptedBy (addResidualBlock cost arrays loss) (.residual arrays)
  | collection c => acceptedEntries c.entries

end Call

def afterCalls (calls : List Call) (s : Problem × List Log) : Problem × List Log :=
  calls.foldl (fun s c => c.after s) s

def history : List Call → Problem × List Log → History
  | [], _ => []
  | c :: cs, s => c.accepted s ++ history cs (c.after s)

def NoneAborts : List Call → Problem × List Log → Prop
  | [], _ => True
  | c :: cs, s => ¬ c.Aborts s.1 ∧ NoneAborts cs (c.after s)

end BundleAdjustment
