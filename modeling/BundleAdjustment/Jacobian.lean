import BundleAdjustment.Block
import BundleAdjustment.Dual

/-! # Jacobians

The derivative of a list of results with respect to each number of each block, by running the formula over dual
numbers once per number.
-/

namespace BundleAdjustment

variable {α : Type} [Scalar α]

/-- The blocks, with the number at one position moving and all else at rest. -/
def seed (blocks : List (Block α)) (block position : Nat) : List (Block (Dual α)) :=
  blocks.mapIdx fun k b => b.mapIdx fun j x =>
    if k = block ∧ j = position then Dual.moving x else Dual.const x

def rowsOfColumns (height : Nat) (columns : List (List α)) : List (List α) :=
  (List.range height).map fun i => columns.map fun c => c.getD i 0

/-- The Jacobian of `f` with respect to one block, as rows: one row per result, one column per number. -/
def blockJacobian (f : List (Block (Dual α)) → Except Fault (List (Dual α))) (height : Nat)
    (blocks : List (Block α)) (block : Nat) : Except Fault (List (List α)) := do
  let size := (blocks.getD block []).length
  let columns ← (List.range size).mapM fun j => do
    return (← f (seed blocks block j)).map Dual.slope
  pure (rowsOfColumns height columns)

def jacobians (f : List (Block (Dual α)) → Except Fault (List (Dual α))) (height : Nat)
    (blocks : List (Block α)) : Except Fault (List (List (List α))) :=
  (List.range blocks.length).mapM (blockJacobian f height blocks)

end BundleAdjustment
