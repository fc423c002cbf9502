import BundleAdjustment.Flushed
import BundleAdjustment.Jacobian
import BundleAdjustment.Rotation.LogMap
import BundleAdjustment.Rotation.OfBlock

/-! # Operations on rotations

The operations on quaternions and vectors as functions of blocks, with the shapes of their results and their Jacobians.
-/

namespace BundleAdjustment

inductive RotationOperation where
  | product
  | conjugate
  | inverse
  | rotate
  | matrix
  | log
  | cross
  deriving DecidableEq

namespace RotationOperation

def shape : RotationOperation → List Nat
  | product | conjugate | inverse => [4]
  | rotate | log => [3]
  | matrix | cross => [3, 3]

/-- The entries of the result. The blocks must be as long as is read from them. -/
def apply {α : Type} [Scalar α] : RotationOperation → List (Block α) → Except Fault (List α)
  | product, [p, q] => do
    let p ← p.quat .strict
    return (p * (← q.quat .strict)).toList
  | conjugate, [q] => return (← q.quat .strict).conjugate.toList
  | inverse, [q] => return (← q.quatInverse .strict).toList
  | rotate, [q, v] => return (← q.rotate .strict v).toList
  | matrix, [q] => return (← q.quat .strict).toMatrix.rows.flatten
  | log, [q] => return (← q.quat .strict).log.toList
  | cross, [v] => return (Mat.cross (← v.vec3 .strict)).rows.flatten
  | _, _ => throw .wrongKind

/-- Whether a result is more than sums of products of the entries, and is left to the arithmetic of the formulas. -/
def isFormula : RotationOperation → Bool
  | inverse | rotate | log => true
  | _ => false

/-- A stored double whose sign decides a branch. A negative one that arithmetic would flush is raised to the least
that it keeps. -/
def keepSign (x : Float) : Float := if x < 0 && -Flushed.leastNormal < x then -Flushed.leastNormal else x

/-- The result on stored doubles. The logarithm looks at the sign of the scalar part as it is stored. -/
def evaluate (op : RotationOperation) (blocks : List (Block Float)) : Except Fault (List Float) :=
  if op = log then Flushed.run op.apply (blocks.map fun b => b.map keepSign)
  else if op.isFormula then Flushed.run op.apply blocks
  else op.apply blocks

def jacobians (op : RotationOperation) (blocks : List (Block Float)) : Except Fault (List (List (List Float))) := do
  let height := op.shape.foldr (· * ·) 1
  let js ← BundleAdjustment.jacobians op.apply height (blocks.map fun b => b.map Flushed.mk)
  return js.map fun rows => rows.map fun r => r.map Flushed.value

end RotationOperation

end BundleAdjustment
