import BundleAdjustment.Matrix.Inverse
import BundleAdjustment.Solver.Registry

/-! # Objectives

The cost that a solver lowers is half the sum of the residual blocks' losses. Around the current values it is replaced
by a quadratic function of a step along the manifolds.
-/

namespace BundleAdjustment

abbrev ArrayValues := List (String × List Float)

namespace ArrayValues

def valueOf (v : ArrayValues) (key : String) : List Float := (v.lookup key).getD []

def assign (v : ArrayValues) (key : String) (value : List Float) : ArrayValues :=
  v.map fun entry => if entry.1 == key then (key, value) else entry

end ArrayValues

/-- Whether an evaluation can be used: it succeeded, and all that it wrote is finite. -/
def Evaluation.isUsable (e : Evaluation Float) : Bool :=
  e.ok && e.residual.all Float.isFinite
    && ((e.jacobians.getD []).filterMap id).all fun rows => rows.flatten.all Float.isFinite

namespace ResidualBlock

def evaluate (b : ResidualBlock) (v : ArrayValues) (request : Request) : Option (Evaluation Float) :=
  match b.cost.function.evaluate (b.arrays.map fun a => v.valueOf a.key) request with
  | .ok e => if e.isUsable then some e else none
  | .error _ => none

end ResidualBlock

/-- A row of a least-squares problem: `weight * (row · step + residual) ^ 2` is to be small. -/
structure WeightedRow where
  weight : Float
  row : List Float
  residual : Float

/-- `cost + gradient · step + step · hessian · step / 2`. -/
structure Quadratic where
  cost : Float
  gradient : List Float
  hessian : List (List Float)

namespace Quadratic

def zero (size : Nat) : Quadratic :=
  ⟨0, List.replicate size 0, List.replicate size (List.replicate size 0)⟩

def addRow (q : Quadratic) (r : WeightedRow) : Quadratic where
  cost := q.cost
  gradient := q.gradient.zipWith (fun g x => g + r.weight * r.residual * x) r.row
  hessian := q.hessian.zipWith (fun h x => h.zipWith (fun h y => h + r.weight * x * y) r.row) r.row

end Quadratic

namespace Registry

/-- The blocks that a solver may move: those that are not fixed and occur in a residual block. -/
def movable (r : Registry) : List SolverBlock :=
  r.blocks.filter fun b =>
    !b.isFixed && r.residualBlocks.any fun residual => residual.arrays.any fun a => a.key == b.array.key

/-- The columns of a residual block's Jacobian for a step of one movable block. -/
def tangentColumns (b : ResidualBlock) (v : ArrayValues) (e : Evaluation Float) (m : SolverBlock) :
    List (List Float) :=
  let directions := m.manifold.directions (v.valueOf m.array.key)
  let jacobians := (e.jacobians.getD []).zip b.arrays
  match jacobians.find? fun j => j.2.key == m.array.key with
  | some (some rows, _) => directions.map fun d => rows.map fun row => Scalar.dot row d
  | _ => directions.map fun _ => List.replicate e.residual.length 0

/-- The quadratic function with a residual block added. A loss bends the cost less than it bends the residual; its own
curvature is taken in only as long as the block's cost stays convex along the residual. -/
def addBlock (movable : List SolverBlock) (v : ArrayValues) (q : Quadratic) (b : ResidualBlock) : Option Quadratic := do
  let request := b.arrays.map fun a => movable.any fun m => m.array.key == a.key
  let e ← b.evaluate v (some request)
  let columns := movable.flatMap (tangentColumns b v e)
  let s := Scalar.sumSquares e.residual
  let (value, slope, bend) := lossAt b.loss s
  let rows := (rowsOfColumns e.residual.length columns).zipWith (fun row x => ⟨slope, row, x⟩) e.residual
  let along : WeightedRow := ⟨2 * bend, columns.map fun c => Scalar.dot c e.residual, 0⟩
  let curved := if 0 < slope + 2 * bend * s then [along] else []
  return (rows ++ curved).foldl Quadratic.addRow { q with cost := q.cost + value / 2 }

/-- The cost around the current values, if it is finite. -/
def quadratic (r : Registry) (movable : List SolverBlock) (v : ArrayValues) : Option Quadratic := do
  let q ← r.residualBlocks.foldlM (addBlock movable v) (.zero ((movable.map (·.tangentSize)).foldr (· + ·) 0))
  if q.cost.isFinite then some q else none

end Registry

end BundleAdjustment
